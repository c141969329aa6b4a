import Mathlib.Data.Int.Basic
import MeterLogger.Ring

/-!
# The byte ring of the message queue

`RINGBUF` keeps a buffer of `size` bytes, a read pointer, a write pointer and the
number of filled slots. Pointers are offsets from the start of the buffer, which
is also where a pointer restarts when it passes the physical boundary.
-/

namespace MeterLogger

structure Ringbuf where
  mem : ℕ → UInt8
  pR : ℕ
  pW : ℕ
  fillCnt : ℤ
  size : ℤ

namespace Ringbuf

/-- A ring whose object was cleared and never initialised. -/
def zero : Ringbuf := ⟨fun _ => 0,0,0,0,0⟩

/-- `RINGBUF_Init`: a missing or tiny buffer is refused and leaves the object alone. -/
def ringbufInit (r : Ringbuf) (buf : Option (ℕ → UInt8)) (size : ℤ) : Ringbuf × ℤ :=
  match buf with
  | none => (r,-1)
  | some mem => if size < 2 then (r,-1) else (⟨mem,0,0,0,size⟩,0)

/-- A pointer after `p++` and the test against the physical boundary. -/
def bump (r : Ringbuf) (p : ℕ) : ℕ := if (p : ℤ)+1 ≥ r.size then 0 else p+1

def ringbufPut (r : Ringbuf) (c : UInt8) : Ringbuf × ℤ :=
  if r.fillCnt ≥ r.size then (r,-1)
  else ({ r with fillCnt := r.fillCnt+1, mem := Function.update r.mem r.pW c, pW := r.bump r.pW },0)

/-- `RINGBUF_Get`; `none` is the return value -1. -/
def ringbufGet (r : Ringbuf) : Option (UInt8 × Ringbuf) :=
  if r.fillCnt ≤ 0 then none
  else some (r.mem r.pR,{ r with fillCnt := r.fillCnt-1, pR := r.bump r.pR })

def contents (r : Ringbuf) : List UInt8 :=
  Ring.window r.mem r.size.toNat r.pR r.fillCnt.toNat

/-- Pointers lie in the buffer and are `fillCnt` slots apart. -/
structure Valid (r : Ringbuf) : Prop where
  fill_nonneg : 0 ≤ r.fillCnt
  fill_le : r.fillCnt ≤ r.size
  read_lt : 0 < r.size → r.pR < r.size.toNat
  write_eq : 0 < r.size → r.pW = Ring.advance r.size.toNat r.pR r.fillCnt.toNat

def room (r : Ringbuf) : ℕ := (r.size-r.fillCnt).toNat

theorem bump_eq_next {r : Ringbuf} (hs : 0 < r.size) (p : ℕ) :
    r.bump p = Ring.next r.size.toNat p := by
  unfold bump Ring.next
  split <;> split <;> omega

theorem contents_length {r : Ringbuf} (hr : r.Valid) : (r.contents.length : ℤ) = r.fillCnt := by
  have h := hr.fill_nonneg
  simp only [contents,Ring.window_length]
  omega

theorem valid_zero : zero.Valid := by
  constructor <;> simp [zero]

@[simp] theorem contents_zero : zero.contents = [] := rfl

theorem ringbufInit_valid {r : Ringbuf} (hr : r.Valid) (buf : Option (ℕ → UInt8)) (size : ℤ) :
    (ringbufInit r buf size).1.Valid := by
  unfold ringbufInit
  split
  · exact hr
  · split
    · exact hr
    · refine ⟨by simp,by simp only; omega,fun _ => by simp only; omega,fun _ => rfl⟩

theorem ringbufInit_contents {r : Ringbuf} (hr : r.contents = []) (buf : Option (ℕ → UInt8))
    (size : ℤ) : (ringbufInit r buf size).1.contents = [] := by
  unfold ringbufInit
  split
  · exact hr
  · split
    · exact hr
    · rfl

theorem ringbufPut_full {r : Ringbuf} (h : r.room = 0) (c : UInt8) : r.ringbufPut c = (r,-1) := by
  unfold ringbufPut room at *
  rw [if_pos (by omega)]

theorem ringbufPut_room {r : Ringbuf} (hr : r.Valid) (h : 0 < r.room) (c : UInt8) :
    ∃ r', r.ringbufPut c = (r',0) ∧ r'.Valid ∧ r'.contents = r.contents ++ [c] ∧
      r'.pR = r.pR ∧ r'.size = r.size ∧ r'.fillCnt = r.fillCnt+1 := by
  have hnn := hr.fill_nonneg
  have hlt : r.fillCnt < r.size := by unfold room at h; omega
  have hs : 0 < r.size := by omega
  have hread := hr.read_lt hs
  have hwrite := hr.write_eq hs
  have hfill : (r.fillCnt+1).toNat = r.fillCnt.toNat+1 := by omega
  refine ⟨{ r with fillCnt := r.fillCnt+1, mem := Function.update r.mem r.pW c, pW := r.bump r.pW },
    ?_,?_,?_,rfl,rfl,rfl⟩
  · unfold ringbufPut
    rw [if_neg (by omega)]
  · refine ⟨by simp only; omega,by simp only; omega,fun _ => hread,fun _ => ?_⟩
    rw [bump_eq_next hs,hwrite,hfill,Ring.advance_succ]
  · simp only [contents,hfill,hwrite]
    exact Ring.window_push r.mem hread (by omega) c

theorem ringbufGet_nil {r : Ringbuf} (hr : r.Valid) (h : r.contents = []) : r.ringbufGet = none := by
  have hl := contents_length hr
  rw [h] at hl
  unfold ringbufGet
  rw [if_pos (by simp at hl; omega)]

theorem ringbufGet_cons {r : Ringbuf} (hr : r.Valid) {c : UInt8} {cs : List UInt8}
    (h : r.contents = c::cs) :
    ∃ r', r.ringbufGet = some (c,r') ∧ r'.Valid ∧ r'.contents = cs := by
  have hl := contents_length hr
  rw [h] at hl
  have hpos : 0 < r.fillCnt := by simp at hl; omega
  have hle := hr.fill_le
  have hs : 0 < r.size := by omega
  have hread := hr.read_lt hs
  have hfill : r.fillCnt.toNat = (r.fillCnt-1).toNat+1 := by omega
  have hw : r.mem r.pR :: Ring.window r.mem r.size.toNat (Ring.next r.size.toNat r.pR)
      (r.fillCnt-1).toNat = c::cs := by
    rw [← h,contents,hfill]
    rfl
  obtain ⟨hc,hcs⟩ := List.cons.inj hw
  refine ⟨{ r with fillCnt := r.fillCnt-1, pR := r.bump r.pR },?_,?_,?_⟩
  · unfold ringbufGet
    rw [if_neg (by omega),hc]
  · refine ⟨by simp only; omega,by simp only; omega,fun _ => ?_,fun _ => ?_⟩
    · rw [bump_eq_next hs]
      exact Ring.next_lt (by omega)
    · simp only [bump_eq_next hs,hr.write_eq hs]
      rw [hfill]
      rfl
  · simp only [contents,bump_eq_next hs]
    exact hcs

theorem ringbufGet_frame {r r' : Ringbuf} {c : UInt8} (h : r.ringbufGet = some (c,r')) :
    { r' with pR := r.pR, fillCnt := r.fillCnt } = r := by
  unfold ringbufGet at h
  split at h
  · cases h
  · obtain ⟨_,rfl⟩ := Prod.mk.inj (Option.some.inj h)
    rfl

/-- Put bytes one by one until the ring is full; the flag says whether all fitted. -/
def putAll (r : Ringbuf) : List UInt8 → Ringbuf × Bool
  | [] => (r,true)
  | c::cs =>
    let s := r.ringbufPut c
    if s.2 = -1 then (s.1,false) else putAll s.1 cs

/-- What a series of puts leaves: the old contents and a prefix of the new bytes. -/
structure Grown (r r' : Ringbuf) (xs : List UInt8) : Prop where
  valid : r'.Valid
  contents_eq : r'.contents = r.contents ++ xs
  read_eq : r'.pR = r.pR
  size_eq : r'.size = r.size
  fill_eq : r'.fillCnt = r.fillCnt+xs.length

theorem Grown.refl {r : Ringbuf} (hr : r.Valid) : Grown r r [] :=
  ⟨hr,by simp,rfl,rfl,by simp⟩

theorem Grown.trans {r s t : Ringbuf} {xs ys : List UInt8} (h₁ : Grown r s xs)
    (h₂ : Grown s t ys) : Grown r t (xs++ys) where
  valid := h₂.valid
  contents_eq := by rw [h₂.contents_eq,h₁.contents_eq,List.append_assoc]
  read_eq := h₂.read_eq.trans h₁.read_eq
  size_eq := h₂.size_eq.trans h₁.size_eq
  fill_eq := by rw [h₂.fill_eq,h₁.fill_eq,List.length_append]; omega

theorem putAll_fits {r : Ringbuf} (hr : r.Valid) (xs : List UInt8) (h : xs.length ≤ r.room) :
    (r.putAll xs).2 = true ∧ Grown r (r.putAll xs).1 xs := by
  induction xs generalizing r with
  | nil => exact ⟨rfl,Grown.refl hr⟩
  | cons c cs ih =>
    simp only [List.length_cons] at h
    obtain ⟨r',hput,hv,hcont,hread,hsize,hfill⟩ := ringbufPut_room hr (by omega) c
    have hg : Grown r r' [c] := ⟨hv,hcont,hread,hsize,by simp [hfill]⟩
    have hroom : cs.length ≤ r'.room := by unfold room at *; omega
    obtain ⟨hok,hgrow⟩ := ih hv hroom
    simp only [putAll,hput]
    exact ⟨hok,hg.trans hgrow⟩

theorem putAll_overflows {r : Ringbuf} (hr : r.Valid) (xs : List UInt8) (h : r.room < xs.length) :
    (r.putAll xs).2 = false ∧ ∃ ys, Grown r (r.putAll xs).1 ys := by
  induction xs generalizing r with
  | nil => simp at h
  | cons c cs ih =>
    simp only [List.length_cons] at h
    by_cases hroom : r.room = 0
    · simp only [putAll,ringbufPut_full hroom]
      exact ⟨rfl,[],Grown.refl hr⟩
    · obtain ⟨r',hput,hv,hcont,hread,hsize,hfill⟩ := ringbufPut_room hr (by omega) c
      have hg : Grown r r' [c] := ⟨hv,hcont,hread,hsize,by simp [hfill]⟩
      have hroom' : r'.room < cs.length := by unfold room at *; omega
      obtain ⟨hok,ys,hgrow⟩ := ih hv hroom'
      simp only [putAll,hput]
      exact ⟨hok,[c]++ys,hg.trans hgrow⟩

theorem Grown.rollback {r r' : Ringbuf} (hr : r.Valid) {xs : List UInt8} (h : Grown r r' xs) :
    let back : Ringbuf := { r' with pR := r.pR, pW := r.pW, fillCnt := r.fillCnt }
    back.Valid ∧ back.contents = r.contents := by
  have hsize := h.size_eq
  constructor
  · refine ⟨hr.fill_nonneg,?_,?_,?_⟩ <;> simp only [hsize]
    · exact hr.fill_le
    · exact hr.read_lt
    · exact hr.write_eq
  · have hnn := hr.fill_nonneg
    have hfill : r'.fillCnt.toNat = r.fillCnt.toNat+xs.length := by rw [h.fill_eq]; omega
    have hall : Ring.window r'.mem r.size.toNat r.pR (r.fillCnt.toNat+xs.length) =
        r.contents ++ xs := by
      rw [← h.contents_eq,contents,h.read_eq,hsize,hfill]
    have htake := congrArg (List.take r.fillCnt.toNat) hall
    rw [Ring.window_take,List.take_left' (by simp [contents])] at htake
    simp only [contents,hsize]
    exact htake

end Ringbuf
end MeterLogger
