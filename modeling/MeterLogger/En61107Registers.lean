import Mathlib.Data.List.Induction
import MeterLogger.En61107Frames

/-!
# The registers of a readout

A data block is a sequence of lines. A line of no more than 31 bytes is read as it is; a longer one
is cut, and the loop goes on two bytes behind the cut, which may leave the LF in front of the next
line. What the response holds after that is what stands in the last line of each register, among
those that are read as they are.
-/

namespace MeterLogger
namespace En61107

open CStrings

/-- `rid(value*unit)`, or `rid(number)`. -/
structure Line where
  rid : List UInt8
  value : List UInt8
  unit : Option (List UInt8)
  deriving DecidableEq

def unitText : Option (List UInt8) → List UInt8
  | none => []
  | some unit => 42::unit

def Line.tail (l : Line) : List UInt8 := l.value ++ (unitText l.unit ++ [41])

def Line.text (l : Line) : List UInt8 := l.rid ++ 40::l.tail

def Plain (text : List UInt8) : Prop := 13 ∉ text ∧ 40 ∉ text ∧ 41 ∉ text ∧ 42 ∉ text

structure Line.WellFormed (l : Line) : Prop where
  rid : Plain l.rid
  value : Plain l.value
  unit : ∀ u ∈ l.unit, Plain u
  number : ridOf l.rid ≠ none → scans l.tail = true

def blockText (lines : List Line) : List UInt8 := [13,10].intercalate (lines.map Line.text)

/-- The data block of an accepted frame. -/
def blockOf (frame : List UInt8) : List UInt8 :=
  match strstr (cstr frame) [2] with
  | none => []
  | some pos => dataBlock (frame.drop ((cstr frame).length-pos.length+3))

def ending (closed : Bool) : List UInt8 := if closed then [13,10] else []

/-- The last line may be closed by a CR LF. -/
def Separated (closed : Bool) (block : List UInt8) (lines : List Line) : Prop :=
  block = blockText lines ++ ending closed

/-- A rid that names no register. -/
def Foreign (rid : List UInt8) : Prop := ridOf rid = none ∧ rid.head? ≠ some 48

instance (rid : List UInt8) : Decidable (Foreign rid) :=
  inferInstanceAs (Decidable (_ ∧ _))

/-- The line fits into the buffer that it is copied to. -/
def Line.Short (l : Line) : Prop := l.text.length < en61107RegisterL

instance (l : Line) : Decidable l.Short := inferInstanceAs (Decidable (_ < _))

/-- The LF that may be left in front of a line. -/
def left (lf : Bool) : List UInt8 := if lf then [10] else []

/-- Whether the LF behind the line is left: the loop takes 31 bytes and passes two more. -/
def leavesLf (lf : Bool) (l : Line) : Bool := (left lf ++ l.text).length%33 = 32

/-- The lines that are read as they are: they fit, and nothing is left in front of them. -/
def heard : Bool → List Line → List Line
  | _, [] => []
  | lf, l::lines =>
    if lf = false ∧ l.Short then l::heard (leavesLf lf l) lines else heard (leavesLf lf l) lines

/-- The piece of the rid in front of the bracket names no register, and the bracket is copied with
it. -/
def Passes (rid : List UInt8) : Prop :=
  rid.length%33 < 31 ∧ Foreign (rid.drop (33*(rid.length/33)))

instance (rid : List UInt8) : Decidable (Passes rid) := inferInstanceAs (Decidable (_ ∧ _))

/-- No line that is cut is taken for one of a register. Of a last line that is not closed only the
first piece is looked at. -/
def Fit (closed : Bool) : Bool → List Line → Prop
  | _, [] => True
  | lf, [l] =>
    l.Short ∨ if closed then Passes (left lf ++ l.rid) else lf = true ∨ ridOf l.rid = none
  | lf, l::l'::lines =>
    (l.Short ∨ Passes (left lf ++ l.rid)) ∧ Fit closed (leavesLf lf l) (l'::lines)

def lastLine (p : Line → Bool) (lines : List Line) : Option Line := (lines.filter p).getLast?

/-- The value as the floats of the machine print it, and the unit, cut to their fields. -/
def Line.register (F : Floats) (l : Line) : Register :=
  ⟨(F.printFloat (F.read l.tail)).take (en61107ValueL-1),
    (l.unit.getD []).take (en61107UnitL-1)⟩

section Cut

variable {F : Floats} {l : Locals F} {pre rest : List UInt8} {c : UInt8}

theorem cutAt_first (h : c ∉ pre) (rest : List UInt8) :
    cutAt (pre ++ c::rest) c = some (pre,rest) := by
  have hlen : (pre ++ c::rest).length-(c::rest).length = pre.length := by
    rw [List.length_append,Nat.add_sub_cancel]
  rw [cutAt,strchr_first h,Option.map_some,hlen,List.take_left]
  rfl

theorem cutAt_none (h : c ∉ pre) : cutAt pre c = none := by
  rw [cutAt,strchr_none h]
  rfl

theorem cutAt_some {x : List UInt8} (h : cutAt pre c = some (x,rest)) : c ∈ pre ∧ rest ⊆ pre := by
  obtain ⟨pos,hpos,hcut⟩ := Option.map_eq_some_iff.mp h
  obtain ⟨hsuffix,hmem⟩ := strchr_some hpos
  obtain ⟨-,rfl⟩ := Prod.mk.inj hcut
  exact ⟨hsuffix.subset hmem,fun b hb => hsuffix.subset (List.mem_of_mem_drop hb)⟩

end Cut

/-- What stands in front of the unit or of the closing bracket, when the rid has been cut. -/
def Line.shown (l : Line) : List UInt8 :=
  (l.rid ++ 40::l.value).drop ((l.rid.take (en61107RidL-1)).length+1)

/-- What a line does to the response. -/
def Line.apply (F : Floats) (l : Line) (r : Response) : Response :=
  if l.rid.head? = some 48 then
    { r with customerNo := (l.unit.getD l.shown).take (en61107CustomerNoL-1) }
  else
    match l.unit with
    | some unit =>
      en61107ResponseSetUnit (en61107ResponseSetValue r l.rid (F.printFloat (F.read l.tail))) l.rid unit
    | none => en61107ResponseSetUnit r l.rid l.value

section Line

variable {F : Floats} {l : Line} {s : Locals F}

theorem head_take (rid : List UInt8) : (rid.take (en61107RidL-1)).head? = rid.head? := by
  cases rid <;> rfl

theorem ridOf_long {rid : List UInt8} (h : en61107RidL-1 ≤ rid.length) : ridOf rid = none := by
  have hne : ∀ name : List UInt8, name.length < en61107RidL-1 → rid ≠ name := by
    rintro name hshort rfl
    omega
  rw [ridOf,if_neg (hne _ (by decide)),if_neg (hne _ (by decide)),if_neg (hne _ (by decide))]

theorem ridOf_take (rid : List UInt8) : ridOf (rid.take (en61107RidL-1)) = ridOf rid := by
  by_cases hlen : rid.length ≤ en61107RidL-1
  · rw [List.take_of_length_le hlen]
  · have hcut : en61107RidL-1 ≤ (rid.take (en61107RidL-1)).length := by
      rw [List.length_take]
      omega
    rw [ridOf_long hcut,ridOf_long (by omega)]

theorem shown_eq (h : l.rid.length ≤ en61107RidL-1) : l.shown = l.value := by
  rw [Line.shown,List.take_of_length_le h,List.drop_append,List.drop_of_length_le (Nat.le_succ _),
    Nat.add_sub_cancel_left]
  rfl

theorem shown_or (l : Line) : ridOf l.rid = none ∨ l.shown = l.value := by
  by_cases hlen : l.rid.length ≤ en61107RidL-1
  · exact Or.inr (shown_eq hlen)
  · exact Or.inl (ridOf_long (by omega))

theorem ridOf_head {rid : List UInt8} (h : rid.head? ≠ some 54) : ridOf rid = none := by
  have hne : ∀ name : List UInt8, name.head? = some 54 → rid ≠ name := by
    rintro name hname rfl
    exact h hname
  rw [ridOf,if_neg (hne _ (by decide)),if_neg (hne _ (by decide)),if_neg (hne _ (by decide))]

theorem ridOf_zero {rid : List UInt8} (h : rid.head? = some 48) : ridOf rid = none :=
  ridOf_head (by rw [h]; decide)

theorem shown_free (h : l.WellFormed) : 41 ∉ l.shown ∧ 42 ∉ l.shown := by
  have hall : ∀ b ∈ l.shown, b ∈ l.rid ∨ b = 40 ∨ b ∈ l.value := by
    intro b hb
    have hmem := List.mem_of_mem_drop hb
    simpa using hmem
  constructor
  · intro hmem
    rcases hall _ hmem with hrid | hb | hvalue
    · exact h.rid.2.2.1 hrid
    · exact absurd hb (by decide)
    · exact h.value.2.2.1 hvalue
  · intro hmem
    rcases hall _ hmem with hrid | hb | hvalue
    · exact h.rid.2.2.2 hrid
    · exact absurd hb (by decide)
    · exact h.value.2.2.2 hvalue

theorem text_drop (l : Line) : l.text.drop ((l.rid.take (en61107RidL-1)).length+1) =
    l.shown ++ (unitText l.unit ++ [41]) := by
  have hlen : (l.rid.take (en61107RidL-1)).length+1 ≤ (l.rid ++ 40::l.value).length := by
    rw [List.length_take,List.length_append,List.length_cons]
    omega
  have htext : l.text = (l.rid ++ 40::l.value) ++ (unitText l.unit ++ [41]) := by
    simp [Line.text,Line.tail]
  rw [htext,List.drop_append_of_le_length hlen]
  rfl

theorem setValue_none {rid : List UInt8} (h : ridOf rid = none) (r : Response) (value : List UInt8) :
    en61107ResponseSetValue r rid value = r := by
  rw [en61107ResponseSetValue,h]

theorem setUnit_none {rid : List UInt8} (h : ridOf rid = none) (r : Response) (unit : List UInt8) :
    en61107ResponseSetUnit r rid unit = r := by
  rw [en61107ResponseSetUnit,h]

theorem setValue_take (rid : List UInt8) (r : Response) (value : List UInt8) :
    en61107ResponseSetValue r (rid.take (en61107RidL-1)) (snprintf en61107ValueL value) =
      en61107ResponseSetValue r rid value := by
  rw [en61107ResponseSetValue,en61107ResponseSetValue,ridOf_take,snprintf,List.take_take,Nat.min_self]

theorem setUnit_take (rid : List UInt8) (r : Response) (unit : List UInt8) :
    en61107ResponseSetUnit r (rid.take (en61107RidL-1)) unit = en61107ResponseSetUnit r rid unit := by
  rw [en61107ResponseSetUnit,en61107ResponseSetUnit,ridOf_take]

theorem parseRegister_line (h : l.WellFormed) :
    (parseRegister F s l.text).response = l.apply F s.response := by
  have hrid : cutAt l.text 40 = some (l.rid,l.tail) := cutAt_first h.rid.2.1 _
  obtain ⟨hclose,hstar⟩ := shown_free h
  have hshown : ridOf l.rid ≠ none → l.shown = l.value := (shown_or l).resolve_left
  rw [parseRegister,hrid]
  dsimp only
  rw [text_drop]
  cases hunit : l.unit with
  | none =>
    have hno : 42 ∉ l.shown ++ (unitText none ++ [41]) := by
      simp [unitText,hstar]
    have hend : cutAt (l.shown ++ (unitText none ++ [41])) 41 = some (l.shown,[]) :=
      cutAt_first hclose []
    rw [cutAt_none hno]
    dsimp only
    rw [hend]
    dsimp only
    rw [head_take,Line.apply,hunit]
    split
    · rfl
    · dsimp only
      rw [setUnit_take]
      by_cases hnone : ridOf l.rid = none
      · rw [setUnit_none hnone,setUnit_none hnone]
      · rw [hshown hnone]
  | some unit =>
    have hfree := h.unit unit hunit
    have hcut : cutAt (l.shown ++ (unitText (some unit) ++ [41])) 42 =
        some (l.shown,unit ++ [41]) := cutAt_first hstar _
    have hend : cutAt (unit ++ [41]) 41 = some (unit,[]) := cutAt_first hfree.2.2.1 []
    rw [hcut]
    dsimp only
    rw [hend]
    dsimp only
    rw [head_take,Line.apply,hunit]
    split
    · rename_i hzero
      rw [setValue_take,setValue_none (ridOf_zero hzero)]
      rfl
    · dsimp only
      rw [setUnit_take,setValue_take]
      by_cases hnone : ridOf l.rid = none
      · rw [setUnit_none hnone,setUnit_none hnone,setValue_none hnone,setValue_none hnone]
      · have htail : l.shown ++ (unitText (some unit) ++ [41]) = l.tail := by
          rw [hshown hnone,Line.tail,hunit]
        rw [htail,vsscanf,h.number hnone,if_pos rfl]

end Line

section Windows

variable {b : Build} {F : Floats} {l : Line} {s : Locals F} {t rest : List UInt8} {n : ℕ}

theorem Foreign.take {rid : List UInt8} (h : Foreign rid) : Foreign (rid.take (en61107RidL-1)) := by
  rw [Foreign,ridOf_take,head_take]
  exact h

/-- The rid under which a piece is read: the one it shows, or that of the piece before. -/
def ridIn (before w : List UInt8) : List UInt8 :=
  ((cutAt w 40).map fun x => x.1.take (en61107RidL-1)).getD before

/-- What is read for a rid that names no register is lost, unless it is taken for the customer
number. -/
theorem parseRegister_none {w : List UInt8} (h : ridOf (ridIn s.rid w) = none)
    (hno : (ridIn s.rid w).head? ≠ some 48 ∨ 41 ∉ w) :
    (parseRegister F s w).response = s.response ∧ (parseRegister F s w).rid = ridIn s.rid w := by
  rw [ridIn] at h hno ⊢
  rw [parseRegister]
  split
  rename_i u p hu
  have hrid : u.response = s.response ∧
      u.rid = ((cutAt w 40).map fun x => x.1.take (en61107RidL-1)).getD s.rid ∧ p ⊆ w := by
    split at hu
    · rename_i hcut
      obtain ⟨rfl,rfl⟩ := Prod.mk.inj hu
      rw [hcut]
      exact ⟨rfl,rfl,fun b hb => List.mem_of_mem_drop hb⟩
    · rename_i hcut
      obtain ⟨rfl,rfl⟩ := Prod.mk.inj hu
      rw [hcut]
      exact ⟨rfl,rfl,fun b hb => hb⟩
  rw [← hrid.2.1] at h hno ⊢
  split
  rename_i v q hv
  have hvalue : v.response = s.response ∧ v.rid = u.rid ∧ q ⊆ w := by
    split at hv
    · rename_i hcut
      obtain ⟨rfl,rfl⟩ := Prod.mk.inj hv
      exact ⟨(setValue_none h _ _).trans hrid.1,rfl,fun b hb => hrid.2.2 ((cutAt_some hcut).2 hb)⟩
    · obtain ⟨rfl,rfl⟩ := Prod.mk.inj hv
      exact ⟨hrid.1,rfl,hrid.2.2⟩
  rw [← hvalue.2.1] at h hno ⊢
  split
  · rename_i hcut
    rw [if_neg (hno.resolve_right fun hfree => hfree (hvalue.2.2 (cutAt_some hcut).1))]
    exact ⟨(setUnit_none h _ _).trans hvalue.1,rfl⟩
  · exact ⟨hvalue.1,rfl⟩

theorem parseRegister_foreign {w : List UInt8} (h : Foreign (ridIn s.rid w)) :
    (parseRegister F s w).response = s.response ∧ Foreign (parseRegister F s w).rid := by
  obtain ⟨hsame,hrid⟩ := parseRegister_none (F := F) h.1 (Or.inl h.2)
  exact ⟨hsame,hrid ▸ h⟩

theorem Plain.take (h : Plain t) (k : ℕ) : Plain (t.take k) :=
  ⟨fun hmem => h.1 (List.mem_of_mem_take hmem),fun hmem => h.2.1 (List.mem_of_mem_take hmem),
    fun hmem => h.2.2.1 (List.mem_of_mem_take hmem),fun hmem => h.2.2.2 (List.mem_of_mem_take hmem)⟩

theorem Plain.drop (h : Plain t) (k : ℕ) : Plain (t.drop k) :=
  ⟨fun hmem => h.1 (List.mem_of_mem_drop hmem),fun hmem => h.2.1 (List.mem_of_mem_drop hmem),
    fun hmem => h.2.2.1 (List.mem_of_mem_drop hmem),fun hmem => h.2.2.2 (List.mem_of_mem_drop hmem)⟩

theorem parseRegister_plain (h : Plain t) : parseRegister F s t = s := by
  rw [parseRegister,cutAt_none h.2.1]
  dsimp only
  rw [cutAt_none h.2.2.2]
  dsimp only
  rw [cutAt_none h.2.2.1]

theorem strstr_crlf (h : 13 ∉ t) (rest : List UInt8) :
    strstr (t ++ 13::10::rest) [13,10] = some (13::10::rest) := by
  induction t with
  | nil => rfl
  | cons c t ih =>
    rw [List.mem_cons,not_or] at h
    rw [List.cons_append,strstr,if_neg (by simp [h.1]),ih h.2]

theorem strstr_crlf_none (h : 13 ∉ t) : strstr t [13,10] = none := by
  induction t with
  | nil => rfl
  | cons c t ih =>
    rw [List.mem_cons,not_or] at h
    rw [strstr,if_neg (by simp [h.1]),ih h.2]

theorem registerLoop_step (hb : b.mc66b = false) (h : 13 ∉ t) :
    registerLoop b F (n+1) s (t ++ 13::10::rest) =
      registerLoop b F n (parseRegister F s ((t ++ 13::10::rest).take (min t.length 31)))
        ((t ++ 13::10::rest).drop (min t.length 31+2)) := by
  have hcrlf : ascii "\r\n" = [13,10] := by decide
  have hlen : (t ++ 13::10::rest).length-(13::10::rest).length = t.length := by
    rw [List.length_append,Nat.add_sub_cancel]
  rw [registerLoop,hb,if_neg Bool.false_ne_true,hcrlf,strstr_crlf h]
  dsimp only
  rw [hlen,if_neg Bool.false_ne_true,if_neg Bool.false_ne_true]
  rfl

theorem registerLoop_short (hb : b.mc66b = false) (h : 13 ∉ t) (hlen : t.length < en61107RegisterL) :
    registerLoop b F (n+1) s (t ++ 13::10::rest) = registerLoop b F n (parseRegister F s t) rest := by
  have hmin : min t.length 31 = t.length := Nat.min_eq_left (Nat.le_of_lt_succ hlen)
  rw [registerLoop_step hb h,hmin,List.take_left,← List.drop_drop,List.drop_left]
  rfl

theorem registerLoop_long (hb : b.mc66b = false) (h : 13 ∉ t) (hlen : 33 ≤ t.length) :
    registerLoop b F (n+1) s (t ++ 13::10::rest) =
      registerLoop b F n (parseRegister F s (t.take 31)) (t.drop 33 ++ 13::10::rest) := by
  have hmin : min t.length 31 = 31 := by omega
  rw [registerLoop_step hb h,hmin,List.take_append_of_le_length (by omega),
    List.drop_append_of_le_length (by omega)]

theorem registerLoop_cut (hb : b.mc66b = false) (h : 13 ∉ t) (hlen : t.length = 32) :
    registerLoop b F (n+1) s (t ++ 13::10::rest) =
      registerLoop b F n (parseRegister F s (t.take 31)) (10::rest) := by
  have hmin : min t.length 31 = 31 := by omega
  have hdrop : (t ++ 13::10::rest).drop (31+2) = 10::rest := by
    have hsplit : t ++ 13::10::rest = (t ++ [13]) ++ 10::rest := by simp
    rw [hsplit,List.drop_left' (by simp [hlen])]
  rw [registerLoop_step hb h,hmin,List.take_append_of_le_length (by omega),hdrop]

theorem registerLoop_rest (hb : b.mc66b = false) (h : 13 ∉ t) (hopen : 40 ∉ t) (hs : Foreign s.rid)
    (hn : (t ++ 13::10::rest).length ≤ n) :
    ∃ m u, registerLoop b F n s (t ++ 13::10::rest) =
        registerLoop b F m u (left (t.length%33 = 32) ++ rest) ∧
      (left (t.length%33 = 32) ++ rest).length ≤ m ∧ u.response = s.response := by
  induction hlen : t.length using Nat.strong_induction_on generalizing t s n with
  | _ k ih =>
  obtain ⟨n,rfl⟩ : ∃ m, n = m+1 := ⟨n-1,by simp at hn; omega⟩
  rw [List.length_append,List.length_cons,List.length_cons] at hn
  have hnone : ∀ w : List UInt8, 40 ∉ w → Foreign (ridIn s.rid w) := by
    intro w hw
    rw [ridIn,cutAt_none hw]
    exact hs
  have htake : 40 ∉ t.take 31 := fun hmem => hopen (List.mem_of_mem_take hmem)
  obtain ⟨hsame,hrid⟩ := parseRegister_foreign (F := F) (s := s) (hnone _ htake)
  rcases Nat.lt_trichotomy t.length 32 with hshort | hcut | hlong
  · have hmod : left (k%33 = 32) = [] := by
      rw [decide_eq_false (by omega)]
      rfl
    rw [hmod]
    refine ⟨n,_,registerLoop_short hb h hshort,by simp; omega,?_⟩
    exact (parseRegister_foreign (hnone t hopen)).1
  · have hmod : left (k%33 = 32) = [10] := by
      rw [decide_eq_true (by omega)]
      rfl
    rw [hmod]
    exact ⟨n,_,registerLoop_cut hb h hcut,by simp; omega,hsame⟩
  · have hdrop : (t.drop 33).length%33 = k%33 := by
      rw [List.length_drop]
      omega
    rw [registerLoop_long hb h hlong,← hdrop]
    obtain ⟨m,u,heq,hm,hu⟩ := ih (t.drop 33).length (by rw [List.length_drop]; omega) (t := t.drop 33)
      (s := parseRegister F s (t.take 31)) (n := n) (fun hmem => h (List.mem_of_mem_drop hmem))
      (fun hmem => hopen (List.mem_of_mem_drop hmem)) hrid
      (by rw [List.length_append,List.length_drop,List.length_cons,List.length_cons]; omega) rfl
    exact ⟨m,u,heq,hm,hu.trans hsame⟩

theorem text_free (h : l.WellFormed) : 13 ∉ l.text ∧ 40 ∉ l.tail := by
  have hunit : 13 ∉ unitText l.unit ∧ 40 ∉ unitText l.unit := by
    cases hu : l.unit with
    | none => exact ⟨List.not_mem_nil,List.not_mem_nil⟩
    | some u =>
      obtain ⟨hcr,hopen,-,-⟩ := h.unit u hu
      exact ⟨fun hmem => (List.mem_cons.mp hmem).elim (by decide) hcr,
        fun hmem => (List.mem_cons.mp hmem).elim (by decide) hopen⟩
  constructor
  · simp [Line.text,Line.tail,h.rid.1,h.value.1,hunit.1]
  · simp [Line.tail,h.value.2.1,hunit.2]

theorem ridIn_window {rid tail : List UInt8} (hopen : 40 ∉ rid) (hlen : rid.length < 31)
    (before : List UInt8) :
    ridIn before ((rid ++ 40::tail).take 31) = rid.take (en61107RidL-1) := by
  have hsucc : 31-rid.length = 31-(rid.length+1)+1 := by omega
  have htake : (rid ++ 40::tail).take 31 = rid ++ 40::tail.take (31-(rid.length+1)) := by
    rw [List.take_append,List.take_of_length_le (by omega),hsucc,List.take_succ_cons]
  rw [ridIn,htake,cutAt_first hopen]
  rfl

theorem parseRegister_rid {rid tail : List UInt8} (hrid : Plain rid) (hlen : 31 ≤ rid.length) :
    parseRegister F s ((rid ++ 40::tail).take 31) = s := by
  rw [List.take_append_of_le_length hlen]
  exact parseRegister_plain (hrid.take 31)

/-- A line whose first piece shows the rid, which names no register. -/
theorem registerLoop_bracket (hb : b.mc66b = false) {rid tail : List UInt8} (hrid : Plain rid)
    (hlen : rid.length < 31) (hcr : 13 ∉ tail) (hopen : 40 ∉ tail) (hforeign : Foreign rid)
    (hn : (rid ++ 40::tail ++ 13::10::rest).length ≤ n) :
    ∃ m u, registerLoop b F n s (rid ++ 40::tail ++ 13::10::rest) =
        registerLoop b F m u (left ((rid ++ 40::tail).length%33 = 32) ++ rest) ∧
      (left ((rid ++ 40::tail).length%33 = 32) ++ rest).length ≤ m ∧ u.response = s.response := by
  obtain ⟨n,rfl⟩ : ∃ m, n = m+1 := ⟨n-1,by simp at hn; omega⟩
  have hfree : 13 ∉ rid ++ 40::tail := by simp [hrid.1,hcr]
  have hwindow : Foreign (ridIn s.rid ((rid ++ 40::tail).take 31)) := by
    rw [ridIn_window hrid.2.1 hlen]
    exact hforeign.take
  obtain ⟨hsame,hnext⟩ := parseRegister_foreign (F := F) hwindow
  rw [List.length_append,List.length_cons,List.length_cons] at hn
  rcases Nat.lt_trichotomy (rid ++ 40::tail).length 32 with hshort | hcut | hlong
  · have hnone : left ((rid ++ 40::tail).length%33 = 32) = [] := by
      rw [decide_eq_false (by omega)]
      rfl
    rw [hnone]
    rw [List.take_of_length_le (by omega)] at hsame
    exact ⟨n,_,registerLoop_short hb hfree hshort,by simp; omega,hsame⟩
  · have hone : left ((rid ++ 40::tail).length%33 = 32) = [10] := by
      rw [decide_eq_true (by omega)]
      rfl
    rw [hone]
    exact ⟨n,_,registerLoop_cut hb hfree hcut,by simp; omega,hsame⟩
  · have hdrop : (rid ++ 40::tail).drop 33 = tail.drop (33-(rid.length+1)) := by
      have hsplit : rid ++ 40::tail = (rid ++ [40]) ++ tail := by simp
      rw [hsplit,List.drop_append,List.drop_of_length_le (by simp; omega),List.length_append]
      rfl
    have hmod33 : ((rid ++ 40::tail).drop 33).length%33 = (rid ++ 40::tail).length%33 := by
      rw [List.length_drop]
      omega
    rw [registerLoop_long hb hfree hlong,← hmod33]
    have hleft : ((rid ++ 40::tail).drop 33 ++ 13::10::rest).length ≤ n := by
      rw [List.length_append,List.length_drop,List.length_cons,List.length_cons]
      omega
    obtain ⟨m,u,heq,hm,hu⟩ := registerLoop_rest hb
      (fun hmem => hfree (List.mem_of_mem_drop hmem))
      (fun hmem => hopen (List.mem_of_mem_drop (hdrop ▸ hmem))) hnext hleft
    exact ⟨m,u,heq,hm,hu.trans hsame⟩

theorem Passes.drop {rid : List UInt8} (h : Passes rid) (hlen : 33 ≤ rid.length) :
    Passes (rid.drop 33) := by
  have hlast : 33+33*((rid.length-33)/33) = 33*(rid.length/33) := by omega
  rw [Passes,List.drop_drop,List.length_drop,hlast]
  exact ⟨by rw [← Nat.mod_eq_sub_mod hlen]; exact h.1,h.2⟩

/-- A line whose pieces name no register leaves the response, and maybe an LF. -/
theorem registerLoop_passes (hb : b.mc66b = false) {rid tail : List UInt8} (hrid : Plain rid)
    (hcr : 13 ∉ tail) (hopen : 40 ∉ tail) (hpass : Passes rid)
    (hn : (rid ++ 40::tail ++ 13::10::rest).length ≤ n) :
    ∃ m u, registerLoop b F n s (rid ++ 40::tail ++ 13::10::rest) =
        registerLoop b F m u (left ((rid ++ 40::tail).length%33 = 32) ++ rest) ∧
      (left ((rid ++ 40::tail).length%33 = 32) ++ rest).length ≤ m ∧ u.response = s.response := by
  induction hlen : rid.length using Nat.strong_induction_on generalizing rid n with
  | _ k ih =>
  by_cases hfirst : rid.length < 33
  · obtain ⟨hmod,hforeign⟩ := hpass
    rw [Nat.mod_eq_of_lt hfirst] at hmod
    rw [Nat.div_eq_of_lt hfirst] at hforeign
    exact registerLoop_bracket hb hrid hmod hcr hopen hforeign hn
  · obtain ⟨n,rfl⟩ : ∃ m, n = m+1 := ⟨n-1,by simp at hn; omega⟩
    have hfree : 13 ∉ rid ++ 40::tail := by simp [hrid.1,hcr]
    have hdrop : (rid ++ 40::tail).drop 33 = rid.drop 33 ++ 40::tail :=
      List.drop_append_of_le_length (by omega)
    have hlong : 33 ≤ (rid ++ 40::tail).length := by
      rw [List.length_append]
      omega
    have hmod33 : (rid.drop 33 ++ 40::tail).length%33 = (rid ++ 40::tail).length%33 := by
      rw [← hdrop,List.length_drop,← Nat.mod_eq_sub_mod hlong]
    have hleft : (rid.drop 33 ++ 40::tail ++ 13::10::rest).length ≤ n := by
      rw [List.length_append,List.length_cons,List.length_cons] at hn
      rw [← hdrop,List.length_append,List.length_drop,List.length_cons,List.length_cons]
      omega
    rw [registerLoop_long hb hfree hlong,parseRegister_rid hrid (by omega),hdrop,← hmod33]
    exact ih (rid.drop 33).length (by rw [List.length_drop]; omega) (hrid.drop 33)
      (hpass.drop (by omega)) hleft rfl

theorem left_plain (lf : Bool) : Plain (left lf) := by
  cases lf <;> (unfold Plain; decide)

theorem left_free (lf : Bool) (h : Plain t) : Plain (left lf ++ t) := by
  obtain ⟨h₁,h₂,h₃,h₄⟩ := left_plain lf
  obtain ⟨g₁,g₂,g₃,g₄⟩ := h
  simp only [Plain,List.mem_append,not_or]
  exact ⟨⟨h₁,g₁⟩,⟨h₂,g₂⟩,⟨h₃,g₃⟩,⟨h₄,g₄⟩⟩

theorem passes_left (h : l.Short) : Passes (left true ++ l.rid) := by
  have hshort : l.text.length < 32 := h
  rw [Line.text,Line.tail] at hshort
  simp only [List.length_append,List.length_cons,List.length_nil] at hshort
  have hlen : (left true ++ l.rid).length = l.rid.length+1 := rfl
  rw [Passes,hlen,Nat.div_eq_of_lt (by omega)]
  refine ⟨by omega,?_,?_⟩
  · exact ridOf_head (by simp [left])
  · simp [left]

/-- A closed line does what it says if it is read as it is, and nothing otherwise. -/
theorem registerLoop_line (hb : b.mc66b = false) {lf : Bool} (h : l.WellFormed)
    (hfits : l.Short ∨ Passes (left lf ++ l.rid))
    (hn : (left lf ++ l.text ++ 13::10::rest).length ≤ n) :
    ∃ m u, registerLoop b F n s (left lf ++ l.text ++ 13::10::rest) =
        registerLoop b F m u (left (leavesLf lf l) ++ rest) ∧
      (left (leavesLf lf l) ++ rest).length ≤ m ∧
      u.response = (heard lf [l]).foldl (fun r l => l.apply F r) s.response := by
  obtain ⟨hcr,hopen⟩ := text_free h
  by_cases hheard : lf = false ∧ l.Short
  · obtain ⟨rfl,hshort⟩ := hheard
    have hlen : l.text.length < 32 := hshort
    have hnone : leavesLf false l = false := decide_eq_false (by simp [left]; omega)
    obtain ⟨n,rfl⟩ : ∃ m, n = m+1 := ⟨n-1,by simp at hn; omega⟩
    rw [hnone,heard,if_pos ⟨rfl,hshort⟩]
    simp only [left,Bool.false_eq_true,if_false,List.nil_append,List.length_append,
      List.length_cons] at hn ⊢
    exact ⟨n,_,registerLoop_short hb hcr hlen,by omega,parseRegister_line h⟩
  · have hpass : Passes (left lf ++ l.rid) := by
      rcases hfits with hshort | hpass
      · cases lf with
        | false => exact absurd ⟨rfl,hshort⟩ hheard
        | true => exact passes_left hshort
      · exact hpass
    have htext : left lf ++ l.text = left lf ++ l.rid ++ 40::l.tail := by
      rw [Line.text,List.append_assoc]
    have htail : 13 ∉ l.tail := fun hmem => hcr (by simp [Line.text,hmem])
    rw [htext] at hn
    rw [heard,if_neg hheard,leavesLf,htext]
    exact registerLoop_passes hb (left_free lf h.rid) htail hopen hpass hn

theorem registerLoop_end (hb : b.mc66b = false) (h : 13 ∉ t) (n : ℕ) :
    registerLoop b F n s t = (s,t) := by
  have hcrlf : ascii "\r\n" = [13,10] := by decide
  cases n with
  | zero => rfl
  | succ n => rw [registerLoop,hb,if_neg Bool.false_ne_true,hcrlf,strstr_crlf_none h]

theorem text_closed (h : l.WellFormed) : ∃ text, l.text = text ++ [41] ∧ 41 ∉ text := by
  refine ⟨l.rid ++ 40::(l.value ++ unitText l.unit),by simp [Line.text,Line.tail],?_⟩
  have hunit : 41 ∉ unitText l.unit := by
    cases hu : l.unit with
    | none => exact List.not_mem_nil
    | some u => exact fun hmem => (List.mem_cons.mp hmem).elim (by decide) (h.unit u hu).2.2.1
  simp [h.rid.2.2.1,h.value.2.2.1,hunit]

/-- The last line, which nothing closes: its first piece is all that is looked at. -/
theorem parseRegister_last {lf : Bool} (h : l.WellFormed)
    (hfits : l.Short ∨ lf = true ∨ ridOf l.rid = none) :
    (parseRegister F s ((left lf ++ l.text).take (en61107RegisterL-1))).response =
      (heard lf [l]).foldl (fun r l => l.apply F r) s.response := by
  by_cases hheard : lf = false ∧ l.Short
  · obtain ⟨rfl,hshort⟩ := hheard
    rw [heard,if_pos ⟨rfl,hshort⟩]
    show (parseRegister F s (l.text.take (en61107RegisterL-1))).response = l.apply F s.response
    rw [List.take_of_length_le (Nat.le_sub_one_of_lt hshort)]
    exact parseRegister_line h
  · rw [heard,if_neg hheard]
    have htext : left lf ++ l.text = left lf ++ l.rid ++ 40::l.tail := by
      rw [Line.text,List.append_assoc]
    have hplain := left_free lf h.rid
    rw [htext]
    by_cases hfirst : (left lf ++ l.rid).length < 31
    · have hwindow : ridIn s.rid ((left lf ++ l.rid ++ 40::l.tail).take 31) =
          (left lf ++ l.rid).take (en61107RidL-1) := ridIn_window hplain.2.1 hfirst s.rid
      cases lf with
      | true =>
        have hforeign : Foreign (left true ++ l.rid) := ⟨ridOf_head (by simp [left]),by simp [left]⟩
        exact (parseRegister_foreign (hwindow ▸ hforeign.take)).1
      | false =>
        have hlong : ¬l.Short := fun hshort => hheard ⟨rfl,hshort⟩
        have hnone := (hfits.resolve_left hlong).resolve_left Bool.false_ne_true
        refine (parseRegister_none ?_ (Or.inr ?_)).1
        · show ridOf (ridIn s.rid ((left false ++ l.rid ++ 40::l.tail).take 31)) = none
          rw [hwindow,ridOf_take]
          exact hnone
        · show 41 ∉ (left false ++ l.rid ++ 40::l.tail).take 31
          obtain ⟨text,hclosed,hfree⟩ := text_closed h
          have hlen : 31 ≤ text.length := by
            have hcut : ¬(text ++ [41]).length < 32 := by
              rw [← hclosed]
              exact hlong
            rw [List.length_append,List.length_singleton] at hcut
            omega
          rw [← htext,show left false ++ l.text = l.text from rfl,hclosed,
            List.take_append_of_le_length hlen]
          exact fun hmem => hfree (List.mem_of_mem_take hmem)
    · exact congrArg Locals.response (parseRegister_rid hplain (by omega))

theorem heard_cons (lf : Bool) (l : Line) (lines : List Line) :
    heard lf (l::lines) = heard lf [l] ++ heard (leavesLf lf l) lines := by
  rw [heard,heard]
  split <;> rfl

theorem blockText_cons (l l' : Line) (lines : List Line) :
    blockText (l::l'::lines) = l.text ++ 13::10::blockText (l'::lines) := by
  rw [blockText,List.map_cons,List.intercalate_cons_of_ne_nil (by simp),blockText]
  simp

theorem parseRegister_left (lf : Bool) :
    parseRegister F s ((left lf).take (en61107RegisterL-1)) = s :=
  parseRegister_plain ((left_plain lf).take _)

theorem registerLoop_block (hb : b.mc66b = false) {closed lf : Bool} {lines : List Line}
    (h : ∀ l ∈ lines, l.WellFormed) (hfits : Fit closed lf lines)
    (hn : (left lf ++ (blockText lines ++ ending closed)).length ≤ n) :
    (parseRegister F (registerLoop b F n s (left lf ++ (blockText lines ++ ending closed))).1
      ((registerLoop b F n s (left lf ++ (blockText lines ++ ending closed))).2.take
        (en61107RegisterL-1))).response =
      (heard lf lines).foldl (fun r l => l.apply F r) s.response := by
  induction lines generalizing lf s n with
  | nil =>
    cases closed with
    | false =>
      have hend : left lf ++ (blockText [] ++ ending false) = left lf := List.append_nil _
      rw [hend,registerLoop_end hb (left_plain lf).1]
      exact congrArg Locals.response (parseRegister_left lf)
    | true =>
      obtain ⟨n,rfl⟩ : ∃ m, n = m+1 := ⟨n-1,by simp [ending] at hn; omega⟩
      have hshort : (left lf).length < en61107RegisterL := by cases lf <;> decide
      have hend : left lf ++ (blockText [] ++ ending true) = left lf ++ 13::10::[] := rfl
      rw [hend,registerLoop_short hb (left_plain lf).1 hshort,registerLoop_end hb List.not_mem_nil,
        parseRegister_plain (left_plain lf)]
      exact congrArg Locals.response (parseRegister_left false)
  | cons l lines ih =>
    rw [List.forall_mem_cons] at h
    obtain ⟨hcr,-⟩ := text_free h.1
    cases lines with
    | nil =>
      have htext : blockText [l] = l.text := List.intercalate_singleton
      cases closed with
      | false =>
        have hend : left lf ++ (blockText [l] ++ ending false) = left lf ++ l.text := by
          rw [htext,ending,if_neg Bool.false_ne_true,List.append_nil]
        have hfree : 13 ∉ left lf ++ l.text := by simp [(left_plain lf).1,hcr]
        rw [hend,registerLoop_end hb hfree]
        exact parseRegister_last h.1 hfits
      | true =>
        have hend : left lf ++ (blockText [l] ++ ending true) = left lf ++ l.text ++ 13::10::[] := by
          rw [htext,← List.append_assoc]
          rfl
        rw [hend] at hn ⊢
        obtain ⟨m,u,heq,-,hu⟩ := registerLoop_line (F := F) (s := s) hb h.1 hfits hn
        have hfree : 13 ∉ left (leavesLf lf l) ++ [] := by
          rw [List.append_nil]
          exact (left_plain _).1
        rw [heq,registerLoop_end hb hfree,List.append_nil,parseRegister_left]
        exact hu
    | cons l' lines =>
      have hend : left lf ++ (blockText (l::l'::lines) ++ ending closed) =
          left lf ++ l.text ++ 13::10::(blockText (l'::lines) ++ ending closed) := by
        rw [blockText_cons]
        simp
      rw [hend] at hn ⊢
      obtain ⟨m,u,heq,hm,hu⟩ := registerLoop_line (F := F) (s := s) hb h.1 hfits.1 hn
      rw [heq,ih h.2 hfits.2 hm,hu,heard_cons lf l (l'::lines),List.foldl_append]

theorem parseRegisters_lines (hb : b.mc66b = false) {closed : Bool} {lines : List Line}
    {block : List UInt8} (hblock : Separated closed block lines) (h : ∀ l ∈ lines, l.WellFormed)
    (hfits : Fit closed false lines) :
    (parseRegisters b F s block).response =
      (heard false lines).foldl (fun r l => l.apply F r) s.response := by
  obtain rfl : block = blockText lines ++ ending closed := hblock
  have hall := registerLoop_block (F := F) (s := s) hb h hfits (Nat.le_refl _)
  rw [parseRegisters,hb]
  exact hall

end Windows

def Rid.name : Rid → List UInt8
  | .energy => ascii "6.8"
  | .volume => ascii "6.26"
  | .hours => ascii "6.31"

def Rid.of (reg : Rid) (r : Response) : Register :=
  match reg with
  | .energy => r.e1
  | .volume => r.v1
  | .hours => r.hr

def customerRid : List UInt8 := ascii "0"

def Line.named (rid : List UInt8) (l : Line) : Bool := l.rid = rid

/-- A line with a value and a unit. -/
def Line.measures (rid : List UInt8) (l : Line) : Bool := l.named rid && l.unit.isSome

/-- What is taken for the unit: without an asterisk it is the number. -/
def Line.unitShown (l : Line) : List UInt8 := (l.unit.getD l.value).take (en61107UnitL-1)

/-- What `strncmp(rid, "0", 1)` takes for the customer number. -/
def Line.isCustomer (l : Line) : Bool := l.rid.head? = some 48

/-- What stands in front of the closing bracket, or between the asterisk and it. -/
def Line.customerNo (l : Line) : List UInt8 := (l.unit.getD l.shown).take (en61107CustomerNoL-1)

/-- The registers and the customer number come from the last line with their rid, and what has no
line stays as it is. -/
structure Own (F : Floats) (lines : List Line) (before after : Response) : Prop where
  registers : ∀ reg : Rid,
    match lastLine (Line.named reg.name) lines with
    | none => reg.of after = reg.of before
    | some l => reg.of after = l.register F
  customerNo :
    match lastLine (Line.named customerRid) lines with
    | none => after.customerNo = before.customerNo
    | some l => after.customerNo = l.value.take (en61107CustomerNoL-1)

/-- Of the lines that are read as they are the last ones say what the last lines say: the last with
a value and a unit the value of the register, the last at all its unit, and the last that is taken
for the customer number what stands in the line whose rid is 0, if there is one. -/
structure Readable (F : Floats) (lines : List Line) : Prop where
  value : ∀ reg : Rid, ∀ l ∈ lastLine (Line.named reg.name) lines,
    (lastLine (Line.measures reg.name) (heard false lines)).map (fun x => (x.register F).value) =
      some (l.register F).value
  unit : ∀ reg : Rid, ∀ l ∈ lastLine (Line.named reg.name) lines,
    (lastLine (Line.named reg.name) (heard false lines)).map Line.unitShown =
      some (l.register F).unit
  customerNo :
    match lastLine (Line.named customerRid) lines with
    | none => lastLine Line.isCustomer (heard false lines) = none
    | some l => (lastLine Line.isCustomer (heard false lines)).map Line.customerNo =
      some (l.value.take (en61107CustomerNoL-1))

section Last

variable {F : Floats} {l : Line} {reg : Rid} {rid : List UInt8} {p : Line → Bool}
  {lines : List Line}

theorem ridOf_iff : ridOf rid = some reg ↔ rid = reg.name := by
  constructor
  · intro h
    rw [ridOf] at h
    split_ifs at h with h₁ h₂ h₃
    · obtain rfl := Option.some.inj h
      exact h₁
    · obtain rfl := Option.some.inj h
      exact h₂
    · obtain rfl := Option.some.inj h
      exact h₃
  · rintro rfl
    cases reg <;> rfl

theorem setValue_of (r : Response) (value : List UInt8) :
    (ridOf rid ≠ some reg → reg.of (en61107ResponseSetValue r rid value) = reg.of r) ∧
      (ridOf rid = some reg → reg.of (en61107ResponseSetValue r rid value) =
        ⟨value.take (en61107ValueL-1),(reg.of r).unit⟩) := by
  constructor
  · intro h
    rw [en61107ResponseSetValue]
    generalize ridOf rid = named at h
    rcases named with _ | named
    · rfl
    · cases named <;> cases reg <;> first | rfl | exact absurd rfl h
  · intro h
    rw [en61107ResponseSetValue,h]
    cases reg <;> rfl

theorem setUnit_of (r : Response) (unit : List UInt8) :
    (ridOf rid ≠ some reg → reg.of (en61107ResponseSetUnit r rid unit) = reg.of r) ∧
      (ridOf rid = some reg → reg.of (en61107ResponseSetUnit r rid unit) =
        ⟨(reg.of r).value,unit.take (en61107UnitL-1)⟩) := by
  constructor
  · intro h
    rw [en61107ResponseSetUnit]
    generalize ridOf rid = named at h
    rcases named with _ | named
    · rfl
    · cases named <;> cases reg <;> first | rfl | exact absurd rfl h
  · intro h
    rw [en61107ResponseSetUnit,h]
    cases reg <;> rfl

theorem setUnit_customerNo (r : Response) (rid unit : List UInt8) :
    (en61107ResponseSetUnit r rid unit).customerNo = r.customerNo := by
  rw [en61107ResponseSetUnit]
  rcases ridOf rid with _ | named
  · rfl
  · cases named <;> rfl

theorem setValue_customerNo (r : Response) (rid value : List UInt8) :
    (en61107ResponseSetValue r rid value).customerNo = r.customerNo := by
  rw [en61107ResponseSetValue]
  rcases ridOf rid with _ | named
  · rfl
  · cases named <;> rfl

theorem apply_other (h : l.named reg.name = false) (r : Response) :
    reg.of (l.apply F r) = reg.of r := by
  have hne : ridOf l.rid ≠ some reg := fun hno => of_decide_eq_false h (ridOf_iff.mp hno)
  rw [Line.apply]
  split
  · cases reg <;> rfl
  · split
    · rw [(setUnit_of _ _).1 hne,(setValue_of _ _).1 hne]
    · exact (setUnit_of _ _).1 hne

theorem apply_own (h : l.named reg.name = true) (r : Response) :
    reg.of (l.apply F r) =
      ⟨if l.unit.isSome then (l.register F).value else (reg.of r).value,l.unitShown⟩ := by
  have hrid : ridOf l.rid = some reg := ridOf_iff.mpr (of_decide_eq_true h)
  have hhead : l.rid.head? ≠ some 48 := fun hno =>
    absurd (hrid.symm.trans (ridOf_zero hno)) (by simp)
  rw [Line.apply,if_neg hhead,Line.unitShown]
  cases l.unit with
  | none => exact (setUnit_of _ _).2 hrid
  | some unit =>
    dsimp only
    rw [(setUnit_of _ _).2 hrid,(setValue_of _ _).2 hrid]
    rfl

theorem apply_unit (h : l.named reg.name = true) (r : Response) :
    (reg.of (l.apply F r)).unit = l.unitShown := by
  rw [apply_own h]

theorem apply_value_other (h : l.measures reg.name = false) (r : Response) :
    (reg.of (l.apply F r)).value = (reg.of r).value := by
  cases hnamed : l.named reg.name with
  | false => rw [apply_other hnamed]
  | true =>
    rw [Line.measures,hnamed,Bool.true_and] at h
    rw [apply_own hnamed,h]
    rfl

theorem apply_value (h : l.measures reg.name = true) (r : Response) :
    (reg.of (l.apply F r)).value = (l.register F).value := by
  rw [Line.measures,Bool.and_eq_true] at h
  rw [apply_own h.1,h.2]
  rfl

theorem apply_customerNo_other (h : l.isCustomer = false) (r : Response) :
    (l.apply F r).customerNo = r.customerNo := by
  rw [Line.apply,if_neg (of_decide_eq_false h)]
  split
  · rw [setUnit_customerNo,setValue_customerNo]
  · exact setUnit_customerNo _ _ _

theorem apply_customerNo (h : l.isCustomer = true) (r : Response) :
    (l.apply F r).customerNo = l.customerNo := by
  rw [Line.apply,if_pos (of_decide_eq_true h)]
  rfl

theorem lastLine_concat (p : Line → Bool) (lines : List Line) (x : Line) :
    lastLine p (lines ++ [x]) = if p x then some x else lastLine p lines := by
  rw [lastLine,List.filter_append]
  cases hx : p x with
  | true => rw [List.filter_cons_of_pos hx,List.filter_nil,List.getLast?_concat,if_pos rfl]
  | false =>
    rw [List.filter_cons_of_neg (by simp [hx]),List.filter_nil,List.append_nil,
      if_neg Bool.false_ne_true]
    rfl

theorem lastLine_none : lastLine p lines = none ↔ ∀ x ∈ lines, p x = false := by
  rw [lastLine,List.getLast?_eq_none_iff,List.filter_eq_nil_iff]
  simp only [Bool.not_eq_true]

theorem foldl_last {A : Type*} {g : Response → A} {v : Line → A}
    (hother : ∀ x, p x = false → ∀ r, g (x.apply F r) = g r)
    (hown : ∀ x, p x = true → ∀ r, g (x.apply F r) = v x) (lines : List Line) (r : Response) :
    g (lines.foldl (fun r l => l.apply F r) r) = ((lastLine p lines).map v).getD (g r) := by
  induction lines using List.reverseRecOn with
  | nil => rfl
  | append_singleton lines x ih =>
    rw [List.foldl_append,lastLine_concat]
    cases hx : p x with
    | true => exact hown x hx _
    | false => exact (hother x hx _).trans ih

theorem foldl_register (F : Floats) (reg : Rid) (lines : List Line) (r : Response) :
    reg.of (lines.foldl (fun r l => l.apply F r) r) =
      ⟨((lastLine (Line.measures reg.name) lines).map fun x => (x.register F).value).getD
          (reg.of r).value,
        ((lastLine (Line.named reg.name) lines).map Line.unitShown).getD (reg.of r).unit⟩ := by
  have hvalue := foldl_last (F := F) (g := fun r => (reg.of r).value)
    (fun x hx r => apply_value_other hx r) (fun x hx r => apply_value hx r) lines r
  have hunit := foldl_last (F := F) (g := fun r => (reg.of r).unit)
    (fun x hx r => congrArg Register.unit (apply_other hx r))
    (fun x hx r => apply_unit hx r) lines r
  rw [← hvalue,← hunit]

theorem foldl_customerNo (F : Floats) (lines : List Line) (r : Response) :
    (lines.foldl (fun r l => l.apply F r) r).customerNo =
      ((lastLine Line.isCustomer lines).map Line.customerNo).getD r.customerNo :=
  foldl_last (g := Response.customerNo) (fun _ hx r => apply_customerNo_other hx r)
    (fun _ hx r => apply_customerNo hx r) lines r

theorem heard_subset {lf : Bool} : heard lf lines ⊆ lines := by
  induction lines generalizing lf with
  | nil => exact fun _ hx => hx
  | cons l lines ih =>
    rw [heard]
    split
    · exact List.cons_subset_cons l ih
    · exact fun x hx => List.mem_cons_of_mem l (ih hx)

theorem foldl_own (h : Readable F lines) (r : Response) :
    Own F lines r ((heard false lines).foldl (fun r l => l.apply F r) r) := by
  constructor
  · intro reg
    rw [foldl_register]
    cases hlast : lastLine (Line.named reg.name) lines with
    | none =>
      have hnone := lastLine_none.mp hlast
      have hnamed : lastLine (Line.named reg.name) (heard false lines) = none :=
        lastLine_none.mpr fun x hx => hnone x (heard_subset hx)
      have hmeasures : lastLine (Line.measures reg.name) (heard false lines) = none :=
        lastLine_none.mpr fun x hx => by rw [Line.measures,hnone x (heard_subset hx)]; rfl
      rw [hnamed,hmeasures]
      rfl
    | some l =>
      rw [h.value reg l hlast,h.unit reg l hlast]
      rfl
  · have hcustomer := h.customerNo
    rw [foldl_customerNo]
    cases hlast : lastLine (Line.named customerRid) lines with
    | none =>
      rw [hlast] at hcustomer
      dsimp only at hcustomer ⊢
      rw [hcustomer]
      rfl
    | some l =>
      rw [hlast] at hcustomer
      dsimp only at hcustomer ⊢
      rw [hcustomer]
      rfl

theorem eq_some_of_getD {A : Type*} {o : Option A} {a b c : A} (hne : a ≠ b) (ha : o.getD a = c)
    (hb : o.getD b = c) : o = some c := by
  cases o with
  | none => exact absurd (ha.trans hb.symm) hne
  | some x => exact congrArg some ha

/-- A response in which nothing is as in the cleared one. -/
def otherResponse : Response :=
  { zeroResponse with customerNo := [1], e1 := ⟨[1],[1]⟩, v1 := ⟨[1],[1]⟩, hr := ⟨[1],[1]⟩ }

theorem otherResponse_differs (reg : Rid) (m m' : List UInt8) :
    (reg.of { zeroResponse with meterType := m }).value ≠
        (reg.of { otherResponse with meterType := m' }).value ∧
      (reg.of { zeroResponse with meterType := m }).unit ≠
        (reg.of { otherResponse with meterType := m' }).unit := by
  cases reg <;> exact ⟨(List.cons_ne_nil _ _).symm,(List.cons_ne_nil _ _).symm⟩

/-- Lines that give their own registers, whatever stood in the response before, are readable. -/
theorem readable_of_own (h : ∀ r, ∃ meterType, Own F lines r
      ((heard false lines).foldl (fun r l => l.apply F r) { r with meterType := meterType })) :
    Readable F lines := by
  obtain ⟨_,hzero⟩ := h zeroResponse
  obtain ⟨_,hother⟩ := h otherResponse
  have hreg : ∀ reg : Rid, ∀ l ∈ lastLine (Line.named reg.name) lines,
      ∀ {r : Response} {m : List UInt8}, Own F lines r ((heard false lines).foldl
        (fun r l => l.apply F r) { r with meterType := m }) →
      reg.of ((heard false lines).foldl (fun r l => l.apply F r) { r with meterType := m }) =
        l.register F := by
    intro reg l hlast r m hown
    have hall := hown.registers reg
    rwa [hlast] at hall
  refine ⟨fun reg l hlast => ?_,fun reg l hlast => ?_,?_⟩
  · have h₀ := congrArg Register.value (hreg reg l hlast hzero)
    have h₁ := congrArg Register.value (hreg reg l hlast hother)
    rw [foldl_register] at h₀ h₁
    exact eq_some_of_getD (otherResponse_differs reg _ _).1 h₀ h₁
  · have h₀ := congrArg Register.unit (hreg reg l hlast hzero)
    have h₁ := congrArg Register.unit (hreg reg l hlast hother)
    rw [foldl_register] at h₀ h₁
    exact eq_some_of_getD (otherResponse_differs reg _ _).2 h₀ h₁
  · have h₀ := hzero.customerNo
    have h₁ := hother.customerNo
    rw [foldl_customerNo] at h₀ h₁
    cases hlast : lastLine (Line.named customerRid) lines with
    | none =>
      rw [hlast] at h₀ h₁
      cases hc : lastLine Line.isCustomer (heard false lines) with
      | none => rfl
      | some c =>
        rw [hc] at h₀ h₁
        exact absurd (h₀.symm.trans h₁) (by decide)
    | some l =>
      rw [hlast] at h₀ h₁
      exact eq_some_of_getD ((List.cons_ne_nil _ _).symm) h₀ h₁

end Last

theorem parse_block {b : Build} {F : Floats} {stack : List UInt8 × F.Value} {response : Response}
    {frame : List UInt8} (hok : (parseEn61107Frame b F stack response frame).2 = .ok) :
    ∃ meterType, (parseEn61107Frame b F stack response frame).1 =
      (parseRegisters b F ⟨stack.1,stack.2,{ response with meterType := meterType }⟩
        (blockOf frame)).response := by
  have hne : ¬frame.length = 0 := fun hnil => by
    rw [parseEn61107Frame,if_pos hnil] at hok
    cases hok
  rw [parseEn61107Frame,if_neg hne] at hok ⊢
  rw [blockOf]
  cases hpos : strstr (cstr frame) [2] with
  | none =>
    rw [hpos] at hok
    cases hok
  | some pos =>
    rw [hpos] at hok
    dsimp only at hok ⊢
    cases hcheck : checkBcc (frame.getLastD 0 &&& 0x7f) 0 frame with
    | none =>
      rw [hcheck] at hok
      cases hok
    | some passed =>
      cases passed with
      | false =>
        rw [hcheck] at hok
        cases hok
      | true =>
        rw [hcheck] at hok
        dsimp only at hok ⊢
        by_cases hfits : (cstr frame).length-pos.length ≤ 3 ∨
            en61107MeterTypeL ≤ (cstr frame).length-pos.length-3
        · rw [if_pos hfits] at hok
          cases hok
        · rw [if_neg hfits]
          exact ⟨_,rfl⟩

/-- The registers of an accepted frame whose lines fit come from their own lines, whatever the
response and the locals were, if and only if the lines are readable. -/
theorem registers_own_iff {b : Build} (hb : b.mc66b = false) {F : Floats}
    {locals : List UInt8 × F.Value} {earlier : Response} {frame : List UInt8}
    (hok : (parseEn61107Frame b F locals earlier frame).2 = .ok) {closed : Bool} {lines : List Line}
    (hblock : Separated closed (blockOf frame) lines) (h : ∀ l ∈ lines, l.WellFormed)
    (hfits : Fit closed false lines) :
    (∀ (stack : List UInt8 × F.Value) (response : Response),
        Own F lines response (parseEn61107Frame b F stack response frame).1) ↔ Readable F lines := by
  have hparse : ∀ (stack : List UInt8 × F.Value) (response : Response),
      ∃ meterType, (parseEn61107Frame b F stack response frame).1 =
        (heard false lines).foldl (fun r l => l.apply F r)
          { response with meterType := meterType } := by
    intro stack response
    have haccepted := (parse_ok_iff b F stack response).mpr ((parse_ok_iff b F locals earlier).mp hok)
    obtain ⟨meterType,heq⟩ := parse_block haccepted
    exact ⟨meterType,heq.trans (parseRegisters_lines hb hblock h hfits)⟩
  constructor
  · intro hown
    refine readable_of_own fun response => ?_
    obtain ⟨meterType,heq⟩ := hparse locals response
    exact ⟨meterType,heq ▸ hown locals response⟩
  · intro hreadable stack response
    obtain ⟨meterType,heq⟩ := hparse stack response
    have hown := foldl_own hreadable { response with meterType := meterType }
    rw [heq]
    refine ⟨fun reg => ?_,hown.customerNo⟩
    have hreg := hown.registers reg
    cases reg <;> exact hreg

/-- The readout of a meter. The two bytes behind the STX are not read. -/
def readout : List UInt8 :=
  ascii "/KAM MC\r\n" ++ 2::(ascii "0.0(00000000040)\r\n6.8(00000.00*MWh)\r\n6.26(000000.0*m3)\r\n" ++
    ascii "6.31(0053189*h)!\r\n" ++ [3,14])

def readoutLines : List Line :=
  [⟨ascii "0",ascii "00000000040",none⟩,⟨ascii "6.8",ascii "00000.00",some (ascii "MWh")⟩,
    ⟨ascii "6.26",ascii "000000.0",some (ascii "m3")⟩,⟨ascii "6.31",ascii "0053189",some (ascii "h")⟩]

instance (text : List UInt8) : Decidable (Plain text) :=
  inferInstanceAs (Decidable (_ ∧ _ ∧ _ ∧ _))

theorem wellFormed_unit {rid value unit : List UInt8} (hrid : Plain rid) (hvalue : Plain value)
    (hunit : Plain unit) (hscans : scans (Line.tail ⟨rid,value,some unit⟩) = true) :
    Line.WellFormed ⟨rid,value,some unit⟩ := by
  refine ⟨hrid,hvalue,fun u hu => ?_,fun _ => hscans⟩
  obtain rfl := Option.some.inj hu
  exact hunit

theorem customerLine_wellFormed : Line.WellFormed ⟨ascii "0",ascii "00000000040",none⟩ :=
  ⟨by decide,by decide,fun _ hno => absurd hno (by simp),fun hno => absurd rfl hno⟩

theorem readoutLines_wellFormed : ∀ l ∈ readoutLines, l.WellFormed := by
  rw [readoutLines,List.forall_mem_cons,List.forall_mem_cons,List.forall_mem_cons,
    List.forall_mem_singleton]
  refine ⟨customerLine_wellFormed,?_,?_,?_⟩
  · exact wellFormed_unit (by decide) (by decide) (by decide) (by decide)
  · exact wellFormed_unit (by decide) (by decide) (by decide) (by decide)
  · exact wellFormed_unit (by decide) (by decide) (by decide) (by decide)

theorem readoutLines_readable : Readable sampleFloats readoutLines := by
  refine ⟨fun reg => ?_,fun reg => ?_,?_⟩
  · cases reg <;> decide
  · cases reg <;> decide
  · show (lastLine Line.isCustomer (heard false readoutLines)).map Line.customerNo =
      some (ascii "00000000040")
    decide

theorem registers_own_readout :
    Own sampleFloats readoutLines zeroResponse
      (parseEn61107Frame sampleBuild sampleFloats ([],(0 : ℕ)) zeroResponse readout).1 := by
  have hok : (parseEn61107Frame sampleBuild sampleFloats ([],(0 : ℕ)) zeroResponse readout).2 = .ok :=
    by decide +kernel
  have hblock : Separated false (blockOf readout) readoutLines := by
    unfold Separated
    decide
  exact (registers_own_iff rfl hok hblock readoutLines_wellFormed
    ⟨Or.inl (by decide),Or.inl (by decide),Or.inl (by decide),Or.inl (by decide)⟩).mpr
      readoutLines_readable _ _

/-- Before the energy stands a line of 32 bytes. -/
def longLineReadout : List UInt8 :=
  ascii "/KAM MC\r\n" ++ 2::(ascii "0.0(00000000040)\r\n" ++
    ascii "9.20(1234567890123456789012*kWh)\r\n6.8(00012.34*MWh)!\r\n" ++ [3,114])

def longLines : List Line :=
  [⟨ascii "0",ascii "00000000040",none⟩,
    ⟨ascii "9.20",ascii "1234567890123456789012",some (ascii "kWh")⟩,
    ⟨ascii "6.8",ascii "00012.34",some (ascii "MWh")⟩]

/-- The line that begins behind a cut one is lost. -/
theorem energy_lost : ¬∀ (b : Build) (F : Floats) (stack : List UInt8 × F.Value)
    (response : Response) (frame : List UInt8) (closed : Bool) (lines : List Line),
    b.mc66b = false → (parseEn61107Frame b F stack response frame).2 = .ok →
    Separated closed (blockOf frame) lines → (∀ l ∈ lines, l.WellFormed) →
    Own F lines response (parseEn61107Frame b F stack response frame).1 := by
  intro h
  have hwf : ∀ l ∈ longLines, l.WellFormed := by
    rw [longLines,List.forall_mem_cons,List.forall_mem_cons,List.forall_mem_singleton]
    refine ⟨customerLine_wellFormed,?_,?_⟩
    · exact wellFormed_unit (by decide) (by decide) (by decide) (by decide)
    · exact wellFormed_unit (by decide) (by decide) (by decide) (by decide)
  have hown := h sampleBuild sampleFloats ([],(0 : ℕ)) zeroResponse longLineReadout false longLines
    rfl (by decide +kernel) (by unfold Separated; decide +kernel) hwf
  have hline : Rid.energy.of (parseEn61107Frame sampleBuild sampleFloats ([],(0 : ℕ)) zeroResponse
      longLineReadout).1 =
      Line.register sampleFloats ⟨ascii "6.8",ascii "00012.34",some (ascii "MWh")⟩ :=
    hown.registers .energy
  revert hline
  decide +kernel

end En61107
end MeterLogger
