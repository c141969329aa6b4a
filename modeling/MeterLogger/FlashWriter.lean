import Mathlib.Data.List.Basic
import Mathlib.Data.List.Induction
import Mathlib.Tactic.Common

/-!
# Sequential writers of a flash memory

A boot loader writes an image through a writer that starts at an address, takes the bytes
in order, erases each further sector when it enters it and holds back the bytes of an
unfinished word. `SequentialWriter` says what such a writer promises; `Writing` is the
image it has in hand, part of it in flash and the rest still buffered.
-/

namespace MeterLogger
namespace FlashWriter

abbrev Flash := ℕ → UInt8

def sectorSize : ℕ := 4096

theorem aligned_add {a b : ℕ} (ha : a%sectorSize = 0) (hb : b%sectorSize = 0) :
    (a+b)%sectorSize = 0 := by
  rw [Nat.add_mod,ha,hb]
  rfl

def erase (f : Flash) (sector : ℕ) : Flash := fun x => if x/sectorSize = sector then 0xFF else f x

/-- The image lies in flash from `a` on. -/
def Holds (f : Flash) (a : ℕ) (image : List UInt8) : Prop :=
  ∀ (i : ℕ) (h : i < image.length), f (a+i) = image[i]

/-- The sector that starts at `a` is erased. -/
def Erased (f : Flash) (a : ℕ) : Prop := ∀ x, a ≤ x → x < a+sectorSize → f x = 0xFF

theorem Holds.nil (f : Flash) (a : ℕ) : Holds f a [] := fun _ h => absurd h (Nat.not_lt_zero _)

theorem Holds.take {f : Flash} {a : ℕ} {image : List UInt8} (h : Holds f a image) (n : ℕ) :
    Holds f a (image.take n) := by
  intro i hi
  rw [List.getElem_take]
  exact h i (by simp at hi; omega)

theorem Holds.congr {f g : Flash} {a : ℕ} {image : List UInt8} (h : Holds f a image)
    (hfg : ∀ x, a ≤ x → x < a+image.length → g x = f x) : Holds g a image := by
  intro i hi
  rw [hfg (a+i) (by omega) (by omega)]
  exact h i hi

theorem Holds.append {f : Flash} {a : ℕ} {old new : List UInt8} (h : Holds f a old)
    (h' : Holds f (a+old.length) new) : Holds f a (old ++ new) := by
  intro i hi
  by_cases hlt : i < old.length
  · rw [List.getElem_append_left hlt]
    exact h i hlt
  · rw [List.getElem_append_right (by omega)]
    have hnew := h' (i-old.length) (by simp at hi; omega)
    rwa [show a+old.length+(i-old.length) = a+i by omega] at hnew

def readFlash (f : Flash) (a n : ℕ) : List UInt8 := (List.range n).map fun i => f (a+i)

@[simp] theorem readFlash_length (f : Flash) (a n : ℕ) : (readFlash f a n).length = n := by
  simp [readFlash]

theorem Holds.readFlash_eq {f : Flash} {a : ℕ} {image : List UInt8} (h : Holds f a image) :
    readFlash f a image.length = image := by
  apply List.ext_getElem
  · simp
  · intro i _ hi
    simp [readFlash,h i hi]

theorem readFlash_append (f : Flash) (a n m : ℕ) :
    readFlash f a n ++ readFlash f (a+n) m = readFlash f a (n+m) := by
  simp [readFlash,List.range_add,Nat.add_assoc,Function.comp_def]

theorem erase_erased (f : Flash) {a : ℕ} (ha : a%sectorSize = 0) :
    Erased (erase f (a/sectorSize)) a := by
  intro x hx hlt
  rw [erase,if_pos]
  simp only [sectorSize] at *
  omega

theorem erase_other (f : Flash) {sector x : ℕ} (h : x/sectorSize ≠ sector) :
    erase f sector x = f x := if_neg h

/-- A writer with its status. `advance` and `program` are what writing bytes does to the
status and to the flash, `sectors` the sectors it may erase or write; `finish` writes the
bytes still buffered. -/
structure SequentialWriter where
  State : Type
  init : ℕ → State
  advance : State → List UInt8 → State
  program : State → List UInt8 → Flash → Flash
  sectors : State → List UInt8 → List ℕ
  finish : State → Flash → Flash
  finishSectors : State → List ℕ
  advance_nil : ∀ w, advance w [] = w
  program_nil : ∀ w f, program w [] f = f
  advance_append : ∀ w xs ys, advance (advance w xs) ys = advance w (xs ++ ys)
  program_append : ∀ w xs ys f,
    program (advance w xs) ys (program w xs f) = program w (xs ++ ys) f
  program_frame : ∀ w xs f x, x/sectorSize ∉ sectors w xs → program w xs f x = f x
  finish_frame : ∀ w f x, x/sectorSize ∉ finishSectors w → finish w f x = f x
  sectors_within : ∀ a xs ys, ∀ sector ∈ sectors (advance (init a) xs) ys,
    a/sectorSize ≤ sector ∧ sector*sectorSize < a+xs.length+ys.length
  finishSectors_within : ∀ a xs, ∀ sector ∈ finishSectors (advance (init a) xs),
    a/sectorSize ≤ sector ∧ sector*sectorSize < a+xs.length
  programmed : ∀ a xs f, a%sectorSize = 0 → Erased f a →
    Holds (program (init a) xs f) a (xs.take (xs.length-xs.length%4))
  finished : ∀ a xs f, a%sectorSize = 0 → Erased f a →
    Holds (finish (advance (init a) xs) (program (init a) xs f)) a xs

namespace SequentialWriter

variable (W : SequentialWriter)

theorem program_below {a x : ℕ} (ha : a%sectorSize = 0) (hx : x < a) (xs : List UInt8) (f : Flash) :
    W.program (W.init a) xs f x = f x := by
  apply W.program_frame
  intro hm
  have h := W.sectors_within a [] xs (x/sectorSize)
  rw [W.advance_nil] at h
  have hle := (h hm).1
  simp only [sectorSize] at *
  omega

theorem finish_below {a x : ℕ} (ha : a%sectorSize = 0) (hx : x < a) (xs : List UInt8) (f : Flash) :
    W.finish (W.advance (W.init a) xs) f x = f x := by
  apply W.finish_frame
  intro hm
  have hle := (W.finishSectors_within a xs _ hm).1
  simp only [sectorSize] at *
  omega

end SequentialWriter

/-- A writer has the image in hand: `old` was in flash when it started at the sector behind
it, the rest it was given since. -/
def Writing (W : SequentialWriter) (base : ℕ) (image : List UInt8) (w : W.State) (f : Flash) :
    Prop :=
  ∃ (old new : List UInt8) (f₀ : Flash), image = old ++ new ∧ old.length%sectorSize = 0 ∧
    Holds f₀ base old ∧ Erased f₀ (base+old.length) ∧
    w = W.advance (W.init (base+old.length)) new ∧
    f = W.program (W.init (base+old.length)) new f₀

namespace Writing

variable {W : SequentialWriter} {base : ℕ} {image : List UInt8} {w : W.State} {f : Flash}

theorem start (hbase : base%sectorSize = 0) (hlen : image.length%sectorSize = 0)
    (h : Holds f base image) :
    Writing W base image (W.init (base+image.length))
      (erase f ((base+image.length)/sectorSize)) := by
  have haligned := aligned_add hbase hlen
  refine ⟨image,[],erase f ((base+image.length)/sectorSize),by simp,hlen,?_,
    erase_erased f haligned,(W.advance_nil _).symm,(W.program_nil _ _).symm⟩
  apply h.congr
  intro x _ hx
  apply erase_other
  simp only [sectorSize] at *
  omega

theorem append (h : Writing W base image w f) (data : List UInt8) :
    Writing W base (image ++ data) (W.advance w data) (W.program w data f) := by
  obtain ⟨old,new,f₀,rfl,hlen,hold,herased,rfl,rfl⟩ := h
  exact ⟨old,new ++ data,f₀,List.append_assoc _ _ _,hlen,hold,herased,W.advance_append _ _ _,
    W.program_append _ _ _ _⟩

theorem flushed (hbase : base%sectorSize = 0) (h : Writing W base image w f) :
    Holds f base (image.take (image.length-image.length%4)) := by
  obtain ⟨old,new,f₀,rfl,hlen,hold,herased,_,rfl⟩ := h
  have haligned := aligned_add hbase hlen
  have hfour : old.length%4 = 0 := by simp only [sectorSize] at hlen; omega
  have hcut : (old ++ new).length-(old ++ new).length%4 = old.length+(new.length-new.length%4) := by
    simp only [List.length_append]
    omega
  have hlow : Holds (W.program (W.init (base+old.length)) new f₀) base old :=
    hold.congr fun x _ hx => W.program_below haligned hx new f₀
  rw [hcut,List.take_length_add_append]
  exact hlow.append (W.programmed _ _ _ haligned herased)

theorem rewind (hbase : base%sectorSize = 0) (h : Writing W base image w f) :
    Holds f base (image.take (image.length/sectorSize*sectorSize)) := by
  have hle : image.length/sectorSize*sectorSize ≤ image.length-image.length%4 := by
    simp only [sectorSize]
    omega
  have hheld := (flushed hbase h).take (image.length/sectorSize*sectorSize)
  rwa [List.take_take,Nat.min_eq_left hle] at hheld

theorem finish (hbase : base%sectorSize = 0) (h : Writing W base image w f) :
    Holds (W.finish w f) base image := by
  obtain ⟨old,new,f₀,rfl,hlen,hold,herased,rfl,rfl⟩ := h
  have haligned := aligned_add hbase hlen
  apply Holds.append
  · apply hold.congr
    intro x _ hx
    rw [W.finish_below haligned hx,W.program_below haligned hx]
  · exact W.finished _ _ _ haligned herased

/-- What is erased or written next lies between the image's first and its next bytes. -/
theorem sectors_within (h : Writing W base image w f) (data : List UInt8) :
    ∀ sector ∈ W.sectors w data,
      base/sectorSize ≤ sector ∧ sector*sectorSize < base+image.length+data.length := by
  obtain ⟨old,new,f₀,rfl,_,_,_,rfl,_⟩ := h
  intro sector hm
  obtain ⟨hle,hlt⟩ := W.sectors_within _ _ _ sector hm
  simp only [List.length_append,sectorSize] at *
  omega

theorem finishSectors_within (h : Writing W base image w f) :
    ∀ sector ∈ W.finishSectors w,
      base/sectorSize ≤ sector ∧ sector*sectorSize < base+image.length := by
  obtain ⟨old,new,f₀,rfl,_,_,_,rfl,_⟩ := h
  intro sector hm
  obtain ⟨hle,hlt⟩ := W.finishSectors_within _ _ sector hm
  simp only [List.length_append,sectorSize] at *
  omega

end Writing

/-- Programming can only clear bits. -/
def programBytes (f : Flash) (a : ℕ) (bytes : List UInt8) : Flash := fun x =>
  if a ≤ x ∧ x < a+bytes.length then f x &&& bytes.getD (x-a) 0xFF else f x

/-- The least such writer: it programs whole words of four bytes, clearing bits as NOR flash
does, and erases a sector when the first word in it is due. -/
structure Buffered where
  next : ℕ
  entered : ℕ
  pending : List UInt8
  short : pending.length < 4

namespace Buffered

theorem short_nil : ([] : List UInt8).length < 4 := Nat.succ_pos 3

theorem short_snoc (w : Buffered) (b : UInt8) (h : w.pending.length < 3) :
    (w.pending ++ [b]).length < 4 := by
  rw [List.length_append,List.length_singleton]
  omega

def init (a : ℕ) : Buffered := ⟨a,a/sectorSize,[],short_nil⟩

def put (w : Buffered) (b : UInt8) : Buffered :=
  if h : w.pending.length < 3 then ⟨w.next,w.entered,w.pending ++ [b],short_snoc w b h⟩
  else ⟨w.next+4,max w.entered (w.next/sectorSize),[],short_nil⟩

/-- Enter the sector of the next word if it is a new one, then program the bytes. -/
def flush (w : Buffered) (bytes : List UInt8) (f : Flash) : Flash :=
  programBytes (if w.entered < w.next/sectorSize then erase f (w.next/sectorSize) else f)
    w.next bytes

def putFlash (w : Buffered) (b : UInt8) (f : Flash) : Flash :=
  if w.pending.length < 3 then f else w.flush (w.pending ++ [b]) f

def putSectors (w : Buffered) : List ℕ :=
  if w.pending.length < 3 then [] else [w.next/sectorSize,(w.next+3)/sectorSize]

def program : Buffered → List UInt8 → Flash → Flash
  | _, [], f => f
  | w, b::bs, f => program (w.put b) bs (w.putFlash b f)

def sectors : Buffered → List UInt8 → List ℕ
  | _, [] => []
  | w, b::bs => w.putSectors ++ sectors (w.put b) bs

def finish (w : Buffered) (f : Flash) : Flash :=
  if w.pending = [] then f else w.flush w.pending f

def finishSectors (w : Buffered) : List ℕ :=
  if w.pending = [] then []
  else [w.next/sectorSize,(w.next+w.pending.length-1)/sectorSize]

def advance (w : Buffered) (bs : List UInt8) : Buffered := bs.foldl put w

theorem put_short {w : Buffered} (h : w.pending.length < 3) (b : UInt8) :
    (w.put b).next = w.next ∧ (w.put b).entered = w.entered ∧
      (w.put b).pending = w.pending ++ [b] := by
  simp [put,h]

theorem put_full {w : Buffered} (h : ¬w.pending.length < 3) (b : UInt8) :
    (w.put b).next = w.next+4 ∧ (w.put b).entered = max w.entered (w.next/sectorSize) ∧
      (w.put b).pending = [] := by
  simp [put,h]

theorem put_position (w : Buffered) (b : UInt8) :
    w.next ≤ (w.put b).next ∧
      (w.put b).next+(w.put b).pending.length = w.next+w.pending.length+1 := by
  by_cases h : w.pending.length < 3
  · obtain ⟨hn,_,hp⟩ := put_short h b
    simp [hn,hp,Nat.add_assoc]
  · obtain ⟨hn,_,hp⟩ := put_full h b
    have hshort := w.short
    simp only [hn,hp,List.length_nil]
    omega

theorem advance_position (w : Buffered) (bs : List UInt8) :
    w.next ≤ (w.advance bs).next ∧
      (w.advance bs).next+(w.advance bs).pending.length = w.next+w.pending.length+bs.length := by
  induction bs generalizing w with
  | nil => exact ⟨Nat.le_refl _,rfl⟩
  | cons b bs ih =>
    obtain ⟨hle,hsum⟩ := put_position w b
    obtain ⟨hle',hsum'⟩ := ih (w.put b)
    simp only [advance,List.foldl_cons,List.length_cons] at *
    omega

theorem program_append (w : Buffered) (xs ys : List UInt8) (f : Flash) :
    program (w.advance xs) ys (w.program xs f) = w.program (xs ++ ys) f := by
  induction xs generalizing w f with
  | nil => rfl
  | cons b xs ih => exact ih (w.put b) (w.putFlash b f)

/-- At most four bytes reach no further than the sectors of the first and the last. -/
theorem flush_frame (w : Buffered) {bytes : List UInt8} (h₁ : bytes.length ≤ 4) (f : Flash) {x : ℕ}
    (hx : x/sectorSize ≠ w.next/sectorSize)
    (hx' : x/sectorSize ≠ (w.next+bytes.length-1)/sectorSize) : w.flush bytes f x = f x := by
  have hout : ¬(w.next ≤ x ∧ x < w.next+bytes.length) := by
    simp only [sectorSize] at hx hx'
    omega
  rw [flush,programBytes,if_neg hout]
  split
  · exact erase_other f hx
  · rfl

theorem program_frame (w : Buffered) (xs : List UInt8) (f : Flash) (x : ℕ)
    (h : x/sectorSize ∉ w.sectors xs) : w.program xs f x = f x := by
  induction xs generalizing w f with
  | nil => rfl
  | cons b xs ih =>
    rw [sectors,List.mem_append,not_or] at h
    rw [program,ih _ _ h.2,putFlash]
    by_cases hp : w.pending.length < 3
    · rw [if_pos hp]
    · have hlen : (w.pending ++ [b]).length = 4 := by
        have hshort := w.short
        simp only [List.length_append,List.length_singleton]
        omega
      have hout := h.1
      rw [putSectors,if_neg hp,List.mem_cons,List.mem_singleton,not_or] at hout
      rw [if_neg hp,flush_frame w (by omega) f hout.1]
      rw [hlen]
      exact hout.2

theorem finish_frame (w : Buffered) (f : Flash) (x : ℕ) (h : x/sectorSize ∉ w.finishSectors) :
    w.finish f x = f x := by
  rw [finish]
  rw [finishSectors] at h
  split
  · rfl
  · rw [if_neg ‹_›,List.mem_cons,List.mem_singleton,not_or] at h
    exact flush_frame w (by have := w.short; omega) f h.1 h.2

theorem sectors_within (w : Buffered) (ys : List UInt8) : ∀ sector ∈ w.sectors ys,
    w.next/sectorSize ≤ sector ∧ sector*sectorSize < w.next+w.pending.length+ys.length := by
  induction ys generalizing w with
  | nil => exact fun _ h => absurd h List.not_mem_nil
  | cons b ys ih =>
    intro sector hm
    obtain ⟨hle,hsum⟩ := put_position w b
    rw [sectors,List.mem_append] at hm
    rcases hm with hm | hm
    · by_cases hp : w.pending.length < 3
      · rw [putSectors,if_pos hp] at hm
        exact absurd hm List.not_mem_nil
      · rw [putSectors,if_neg hp,List.mem_cons,List.mem_singleton] at hm
        simp only [List.length_cons,sectorSize] at *
        rcases hm with rfl | rfl <;> omega
    · obtain ⟨h₁,h₂⟩ := ih (w.put b) sector hm
      simp only [List.length_cons,sectorSize] at *
      omega

/-- What has been written so far: all but the pending bytes, in erased words. -/
structure Written (a : ℕ) (xs : List UInt8) (w : Buffered) (f : Flash) : Prop where
  position : w.next+w.pending.length = a+xs.length
  words : w.next%4 = 0
  above : a ≤ w.next
  pending : w.pending = xs.drop (w.next-a)
  held : Holds f a (xs.take (w.next-a))
  entered_le : w.entered*sectorSize ≤ w.next
  le_entered : w.next ≤ (w.entered+1)*sectorSize
  blank : ∀ x, w.next ≤ x → x < (w.entered+1)*sectorSize → f x = 0xFF

theorem written_init {a : ℕ} (ha : a%sectorSize = 0) {f : Flash} (h : Erased f a) :
    Written a [] (init a) f where
  position := rfl
  words := by simp only [init,sectorSize] at *; omega
  above := Nat.le_refl _
  pending := by simp [init]
  held := by simpa [init] using Holds.nil f a
  entered_le := by simp only [init,sectorSize] at *; omega
  le_entered := by simp only [init,sectorSize] at *; omega
  blank := by
    intro x hx hlt
    apply h x hx
    simp only [init,sectorSize] at *
    omega

theorem and_ones (b : UInt8) : 0xFF &&& b = b := UInt8.neg_one_and

theorem Written.flush_holds {a : ℕ} {xs : List UInt8} {w : Buffered} {f : Flash}
    (h : Written a xs w f) {bytes : List UInt8} (hlen : bytes.length ≤ 4) :
    Holds (w.flush bytes f) a (xs.take (w.next-a) ++ bytes) := by
  obtain ⟨hpos,hwords,habove,_,hheld,hle,hge,hblank⟩ := h
  have htake : (xs.take (w.next-a)).length = w.next-a := by
    rw [List.length_take]
    omega
  apply Holds.append
  · apply hheld.congr
    intro x _ hx
    rw [htake] at hx
    rw [flush,programBytes,if_neg (by omega)]
    split
    · apply erase_other
      simp only [sectorSize] at *
      omega
    · rfl
  · rw [htake]
    intro i hi
    have hone : (if w.entered < w.next/sectorSize then erase f (w.next/sectorSize) else f)
        (a+(w.next-a)+i) = 0xFF := by
      split
      · rw [erase,if_pos]
        simp only [sectorSize] at *
        omega
      · apply hblank
        · omega
        · simp only [sectorSize] at *
          omega
    have hidx : a+(w.next-a)+i-w.next = i := by omega
    rw [flush,programBytes,if_pos (by omega),hone,and_ones,hidx]
    simp [List.getD,hi]

theorem Written.put {a : ℕ} {xs : List UInt8} {w : Buffered} {f : Flash} (h : Written a xs w f)
    (b : UInt8) : Written a (xs ++ [b]) (w.put b) (w.putFlash b f) := by
  have hlen := congrArg List.length h.pending
  rw [List.length_drop] at hlen
  have hpos := h.position
  have habove := h.above
  have hshort := w.short
  by_cases hp : w.pending.length < 3
  · obtain ⟨hn,he,hpend⟩ := put_short hp b
    rw [putFlash,if_pos hp]
    have hcut : w.next-a ≤ xs.length := by omega
    refine ⟨?_,by rw [hn]; exact h.words,by rw [hn]; exact h.above,?_,?_,?_,?_,?_⟩
    · simp only [hn,hpend,List.length_append,List.length_singleton]
      omega
    · rw [hn,hpend,List.drop_append_of_le_length hcut,← h.pending]
    · rw [hn,List.take_append_of_le_length hcut]
      exact h.held
    · rw [hn,he]; exact h.entered_le
    · rw [hn,he]; exact h.le_entered
    · rw [hn,he]; exact h.blank
  · obtain ⟨hn,he,hpend⟩ := put_full hp b
    rw [putFlash,if_neg hp]
    have hwords := h.words
    have hword : (w.pending ++ [b]).length = 4 := by
      simp only [List.length_append,List.length_singleton]
      omega
    have hall : xs.take (w.next-a) ++ (w.pending ++ [b]) = xs ++ [b] := by
      rw [h.pending,← List.append_assoc,List.take_append_drop]
    have htake : (xs ++ [b]).length ≤ w.next+4-a := by
      simp only [List.length_append,List.length_singleton]
      omega
    have hge := h.le_entered
    have hle : w.entered ≤ w.next/sectorSize :=
      (Nat.le_div_iff_mul_le (by decide)).mpr h.entered_le
    have he' : (w.put b).entered = w.next/sectorSize := by
      rw [he,Nat.max_eq_right hle]
    refine ⟨?_,by rw [hn]; omega,by rw [hn]; omega,?_,?_,?_,?_,?_⟩
    · simp only [hn,hpend,List.length_nil,List.length_append,List.length_singleton]
      omega
    · rw [hn,hpend,List.drop_eq_nil_of_le htake]
    · rw [hn,List.take_of_length_le htake,← hall]
      exact h.flush_holds (by omega)
    · rw [hn,he']
      exact Nat.le_trans (Nat.div_mul_le_self _ _) (Nat.le_add_right _ _)
    · rw [hn,he']
      simp only [sectorSize]
      omega
    · intro x hx hlt
      rw [hn] at hx
      rw [he'] at hlt
      have hout : ¬(w.next ≤ x ∧ x < w.next+(w.pending ++ [b]).length) := by omega
      rw [flush,programBytes,if_neg hout]
      split
      · rw [erase,if_pos]
        simp only [sectorSize] at *
        omega
      · rename_i hsame
        have heq : w.entered = w.next/sectorSize := by omega
        exact h.blank x (by omega) (by rwa [heq])

theorem written {a : ℕ} (ha : a%sectorSize = 0) {f : Flash} (h : Erased f a) (xs : List UInt8) :
    Written a xs ((init a).advance xs) ((init a).program xs f) := by
  induction xs using List.reverseRec with
  | nil => exact written_init ha h
  | append_singleton xs b ih =>
    rw [← program_append,advance,List.foldl_append]
    exact ih.put b

theorem Written.finish {a : ℕ} {xs : List UInt8} {w : Buffered} {f : Flash} (h : Written a xs w f) :
    Holds (w.finish f) a xs := by
  have hall : xs.take (w.next-a) ++ w.pending = xs := by
    rw [h.pending,List.take_append_drop]
  rw [Buffered.finish]
  split
  · rename_i hp
    rw [hp,List.append_nil] at hall
    rw [← hall]
    exact h.held
  · have hheld := h.flush_holds (Nat.le_of_lt w.short)
    rwa [hall] at hheld

/-- The buffering writer keeps what a sequential writer promises. -/
def writer : SequentialWriter where
  State := Buffered
  init := init
  advance := advance
  program := program
  sectors := sectors
  finish := finish
  finishSectors := finishSectors
  advance_nil := fun _ => rfl
  program_nil := fun _ _ => rfl
  advance_append := fun _ _ _ => List.foldl_append.symm
  program_append := program_append
  program_frame := program_frame
  finish_frame := finish_frame
  sectors_within := by
    intro a xs ys sector hm
    obtain ⟨hle,hsum⟩ := advance_position (init a) xs
    obtain ⟨h₁,h₂⟩ := sectors_within _ _ sector hm
    simp only [init,List.length_nil,sectorSize] at *
    omega
  finishSectors_within := by
    intro a xs sector hm
    obtain ⟨hle,hsum⟩ := advance_position (init a) xs
    rw [finishSectors] at hm
    split at hm
    · exact absurd hm List.not_mem_nil
    · rename_i hp
      have hpos := List.length_pos_iff.mpr hp
      have hshort := ((init a).advance xs).short
      rw [List.mem_cons,List.mem_singleton] at hm
      simp only [init,List.length_nil,sectorSize] at *
      rcases hm with rfl | rfl <;> omega
  programmed := by
    intro a xs f ha h
    have hw := written ha h xs
    have hcut : xs.length-xs.length%4 = ((init a).advance xs).next-a := by
      have hpos := hw.position
      have hwords := hw.words
      have hshort := ((init a).advance xs).short
      have habove := hw.above
      simp only [sectorSize] at ha
      omega
    rw [hcut]
    exact hw.held
  finished := fun a xs _ ha h => (written ha h xs).finish

end Buffered

end FlashWriter
end MeterLogger
