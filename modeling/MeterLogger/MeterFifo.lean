import MeterLogger.Ring
import MeterLogger.Runs

/-!
# The byte fifos of the meters

`kmp_request.c` and `en61107_request.c` each keep the bytes of the meter in a fifo of
`QUEUE_SIZE` bytes: the interrupt puts them, the task gets them. Head, tail and fill count
are separate variables. Against them stands a bounded queue, a list of at most as many bytes.
-/

namespace MeterLogger
namespace MeterFifo

open Runs

def queueSize : ℕ := 256

structure Fifo where
  head : ℕ
  tail : ℕ
  fillCount : ℕ
  buffer : ℕ → UInt8

def boot : Fifo := ⟨0,0,0,fun _ => 0⟩

/-- `i++` with the test against the end of the buffer. -/
def bump (i : ℕ) : ℕ := if i+1 = queueSize then 0 else i+1

def fifoPut (f : Fifo) (c : UInt8) : Fifo × Bool :=
  if f.fillCount ≠ queueSize then
    ({ f with
      buffer := Function.update f.buffer (f.head%queueSize) c
      head := bump f.head
      fillCount := f.fillCount+1 },true)
  else (f,false)

/-- `none` is the return value false. -/
def fifoGet (f : Fifo) : Option (UInt8 × Fifo) :=
  if f.fillCount ≠ 0 then
    some (f.buffer (f.tail%queueSize),
      { f with tail := bump f.tail, fillCount := f.fillCount-1 })
  else none

def fifoSnoop (f : Fifo) (pos : ℕ) : Option UInt8 :=
  if f.fillCount > pos then some (f.buffer ((f.tail+pos)%queueSize)) else none

inductive Meter
  | kmp
  | en61107
  deriving DecidableEq

def kmpFifoPut := fifoPut
def kmpFifoGet := fifoGet
def kmpFifoSnoop := fifoSnoop
def en61107FifoPut := fifoPut
def en61107FifoGet := fifoGet
def en61107FifoSnoop := fifoSnoop

def en61107FifoFlush (f : Fifo) : Fifo := { f with head := 0, tail := 0, fillCount := 0 }

/-- What `kmp_request_init` does to the fifo: the fill count stays. -/
def kmpRequestInit (f : Fifo) : Fifo := { f with head := 0, tail := 0 }

def en61107RequestInit (f : Fifo) : Fifo := { f with head := 0, tail := 0 }

inductive Op
  | put (c : UInt8)
  | get
  | snoop (pos : ℕ)
  | flush
  | init
  deriving DecidableEq

inductive Reply
  | taken (ok : Bool)
  | byte (c : Option UInt8)
  | done
  deriving DecidableEq

/-- The KMP fifo has no flush. -/
def Meter.offers : Meter → Op → Bool
  | .kmp, .flush => false
  | _, _ => true

def afterGet (f : Fifo) (got : Option (UInt8 × Fifo)) : Fifo × Reply :=
  match got with
  | some (c,f') => (f',.byte (some c))
  | none => (f,.byte none)

def step (m : Meter) (f : Fifo) : Op → Fifo × Reply
  | .put c =>
    let r := match m with
      | .kmp => kmpFifoPut f c
      | .en61107 => en61107FifoPut f c
    (r.1,.taken r.2)
  | .get =>
    afterGet f (match m with
      | .kmp => kmpFifoGet f
      | .en61107 => en61107FifoGet f)
  | .snoop pos =>
    (f,.byte (match m with
      | .kmp => kmpFifoSnoop f pos
      | .en61107 => en61107FifoSnoop f pos))
  | .flush => (en61107FifoFlush f,.done)
  | .init =>
    (match m with
      | .kmp => kmpRequestInit f
      | .en61107 => en61107RequestInit f,.done)

/-- A queue of at most `queueSize` bytes. -/
def queueStep (q : List UInt8) : Op → List UInt8 × Reply
  | .put c => if q.length = queueSize then (q,.taken false) else (q ++ [c],.taken true)
  | .get =>
    match q with
    | [] => ([],.byte none)
    | c::q => (q,.byte (some c))
  | .snoop pos => (q,.byte q[pos]?)
  | .flush => ([],.done)
  | .init => ([],.done)

def contents (f : Fifo) : List UInt8 := Ring.window f.buffer queueSize f.tail f.fillCount

/-- Head is tail plus fill count, counted in the circle. -/
structure Valid (f : Fifo) : Prop where
  fill_le : f.fillCount ≤ queueSize
  tail_lt : f.tail < queueSize
  head_eq : f.head = Ring.advance queueSize f.tail f.fillCount

theorem bump_eq_next {i : ℕ} (h : i < queueSize) : bump i = Ring.next queueSize i := by
  rw [bump,Ring.next]
  split <;> split <;> omega

@[simp] theorem contents_length (f : Fifo) : (contents f).length = f.fillCount :=
  Ring.window_length _ _ _ _

theorem valid_boot : Valid boot := ⟨by decide,by decide,rfl⟩

theorem reset_valid {f : Fifo} (h : f.fillCount = 0) :
    Valid { f with head := 0, tail := 0 } ∧ contents { f with head := 0, tail := 0 } = [] := by
  have hcont : contents { f with head := 0, tail := 0 } = [] := by
    simp only [contents,h]
    rfl
  have hpos : 0 < queueSize := by decide
  refine ⟨⟨?_,hpos,?_⟩,hcont⟩
  · simp only [h]
    decide
  · simp only [h]
    rfl

theorem fifoPut_room {f : Fifo} (hf : Valid f) (hroom : f.fillCount ≠ queueSize) (c : UInt8) :
    (fifoPut f c).2 = true ∧ Valid (fifoPut f c).1 ∧
      contents (fifoPut f c).1 = contents f ++ [c] := by
  obtain ⟨hle,htail,hhead⟩ := hf
  have hlt : f.head < queueSize := by
    rw [hhead]
    exact Ring.advance_lt _ htail
  rw [fifoPut,if_pos hroom]
  refine ⟨rfl,⟨by simp only; omega,htail,?_⟩,?_⟩
  · simp only
    rw [bump_eq_next hlt,hhead,Ring.advance_succ]
  · simp only [contents]
    rw [Nat.mod_eq_of_lt hlt,hhead]
    exact Ring.window_push f.buffer htail (by omega) c

theorem fifoGet_cons {f : Fifo} (hf : Valid f) {c : UInt8} {q : List UInt8}
    (h : contents f = c::q) : ∃ f', fifoGet f = some (c,f') ∧ Valid f' ∧ contents f' = q := by
  obtain ⟨hle,htail,hhead⟩ := hf
  have hlen := congrArg List.length h
  rw [contents_length,List.length_cons] at hlen
  obtain ⟨n,hn⟩ : ∃ n, f.fillCount = n+1 := ⟨q.length,hlen⟩
  have hw : f.buffer f.tail :: Ring.window f.buffer queueSize (Ring.next queueSize f.tail) n =
      c::q := by
    rw [← h,contents,hn]
    rfl
  obtain ⟨hc,hq⟩ := List.cons.inj hw
  refine ⟨{ f with tail := bump f.tail, fillCount := f.fillCount-1 },?_,⟨by simp only; omega,?_,?_⟩,?_⟩
  · rw [fifoGet,if_pos (by omega),Nat.mod_eq_of_lt htail,hc]
  · simp only
    rw [bump_eq_next htail]
    exact Ring.next_lt (by decide)
  · simp only
    rw [bump_eq_next htail,hhead,hn]
    rfl
  · simp only [contents]
    rw [bump_eq_next htail,hn]
    exact hq

theorem fifoGet_nil {f : Fifo} (h : contents f = []) : fifoGet f = none := by
  have hlen := congrArg List.length h
  rw [contents_length] at hlen
  rw [fifoGet,if_neg]
  simpa using hlen

theorem fifoSnoop_eq {f : Fifo} (hf : Valid f) (pos : ℕ) :
    fifoSnoop f pos = (contents f)[pos]? := by
  rw [fifoSnoop]
  split
  · exact (Ring.window_getElem? hf.tail_lt ‹_›).symm
  · rw [List.getElem?_eq_none]
    simp only [contents_length]
    omega

/-- The fifo and the queue, fed the same operations. -/
def joint (m : Meter) (s : Fifo × List UInt8) (op : Op) (t : Fifo × List UInt8) : Prop :=
  m.offers op ∧ t = ((step m s.1 op).1,(queueStep s.2 op).1)

/-- The request is initialised only when nothing is queued. -/
def InitWhenEmpty (s : Fifo × List UInt8) (op : Op) : Prop := op = .init → s.1.fillCount = 0

theorem step_refines {m : Meter} {f : Fifo} (hf : Valid f) {op : Op}
    (hop : InitWhenEmpty (f,contents f) op) :
    (step m f op).2 = (queueStep (contents f) op).2 ∧ Valid (step m f op).1 ∧
      contents (step m f op).1 = (queueStep (contents f) op).1 := by
  cases op with
  | put c =>
    have hstep : step m f (.put c) = ((fifoPut f c).1,.taken (fifoPut f c).2) := by
      cases m <;> rfl
    rw [hstep,queueStep,contents_length]
    by_cases hroom : f.fillCount = queueSize
    · rw [if_pos hroom,fifoPut,if_neg (by simpa using hroom)]
      exact ⟨rfl,hf,rfl⟩
    · obtain ⟨hok,hvalid,hcont⟩ := fifoPut_room hf hroom c
      rw [if_neg hroom,hok]
      exact ⟨rfl,hvalid,hcont⟩
  | get =>
    have hstep : step m f .get = afterGet f (fifoGet f) := by cases m <;> rfl
    rw [hstep]
    cases hq : contents f with
    | nil =>
      rw [fifoGet_nil hq]
      exact ⟨rfl,hf,hq⟩
    | cons c q =>
      obtain ⟨f',hget,hvalid,hcont⟩ := fifoGet_cons hf hq
      rw [hget]
      exact ⟨rfl,hvalid,hcont⟩
  | snoop pos =>
    have hstep : step m f (.snoop pos) = (f,.byte (fifoSnoop f pos)) := by cases m <;> rfl
    rw [hstep,fifoSnoop_eq hf]
    exact ⟨rfl,hf,rfl⟩
  | flush =>
    obtain ⟨hvalid,hcont⟩ := reset_valid (f := { f with fillCount := 0 }) rfl
    exact ⟨rfl,hvalid,hcont⟩
  | init =>
    have hstep : step m f .init = ({ f with head := 0, tail := 0 },.done) := by cases m <;> rfl
    obtain ⟨hvalid,hcont⟩ := reset_valid (hop rfl)
    rw [hstep]
    exact ⟨rfl,hvalid,hcont⟩

theorem joint_valid {m : Meter} {ops : List Op} {s : Fifo × List UInt8}
    (h : Run (Guarded InitWhenEmpty (joint m)) (boot,[]) ops s) :
    Valid s.1 ∧ contents s.1 = s.2 := by
  refine h.invariant (I := fun s => Valid s.1 ∧ contents s.1 = s.2) ?_ ⟨valid_boot,rfl⟩
  rintro ⟨f,q⟩ op t ⟨hf,hq⟩ ⟨hop,_,rfl⟩
  simp only at hf hq
  subst hq
  obtain ⟨_,hvalid,hcont⟩ := step_refines (m := m) hf hop
  exact ⟨hvalid,hcont⟩

/-- The reply of the `pos+1`-st of a row of gets. -/
def nthGet : ℕ → Fifo → Option UInt8
  | 0, f => (fifoGet f).map (·.1)
  | pos+1, f => (fifoGet f).bind fun r => nthGet pos r.2

theorem nthGet_eq {f : Fifo} (hf : Valid f) (pos : ℕ) : nthGet pos f = (contents f)[pos]? := by
  induction pos generalizing f with
  | zero =>
    rw [nthGet]
    cases hq : contents f with
    | nil => simp [fifoGet_nil hq]
    | cons c q =>
      obtain ⟨f',hget,_⟩ := fifoGet_cons hf hq
      simp [hget]
  | succ pos ih =>
    rw [nthGet]
    cases hq : contents f with
    | nil => simp [fifoGet_nil hq]
    | cons c q =>
      obtain ⟨f',hget,hvalid,hcont⟩ := fifoGet_cons hf hq
      rw [hget,List.getElem?_cons_succ,← hcont]
      exact ih hvalid

/-- While the request is initialised only with an empty fifo, both fifos reply to every
operation as the bounded queue does, whatever the order of the operations. -/
theorem fifo_refines {m : Meter} {ops : List Op} {f : Fifo} {q : List UInt8}
    (h : Run (Guarded InitWhenEmpty (joint m)) (boot,[]) ops (f,q)) :
    (∀ op, InitWhenEmpty (f,q) op →
      (step m f op).2 = (queueStep q op).2 ∧ contents (step m f op).1 = (queueStep q op).1) ∧
      ∀ pos, fifoSnoop f pos = nthGet pos f := by
  obtain ⟨hf,hq⟩ := joint_valid h
  simp only at hf hq
  constructor
  · intro op hop
    rw [← hq] at hop ⊢
    obtain ⟨hreply,_,hcont⟩ := step_refines (m := m) hf hop
    exact ⟨hreply,hcont⟩
  · intro pos
    rw [fifoSnoop_eq hf,nthGet_eq hf]

/-- One byte put and got, then the request initialised. -/
theorem fifo_refines_reinit : ∃ f,
    Run (Guarded InitWhenEmpty (joint .kmp)) (boot,[]) [.put 7,.get,.init] (f,[]) ∧
    (∀ op, InitWhenEmpty (f,[]) op →
      (step .kmp f op).2 = (queueStep [] op).2 ∧ contents (step .kmp f op).1 = (queueStep [] op).1) ∧
      ∀ pos, fifoSnoop f pos = nthGet pos f := by
  have hrun : Run (Guarded InitWhenEmpty (joint .kmp)) (boot,[]) [.put 7,.get,.init]
      (kmpRequestInit (step .kmp (step .kmp boot (.put 7)).1 .get).1,[]) := by
    refine .cons ⟨?_,rfl,rfl⟩ (.cons ⟨?_,rfl,rfl⟩ (.cons ⟨fun _ => rfl,rfl,rfl⟩ (.nil _)))
    · intro h
      cases h
    · intro h
      cases h
  exact ⟨_,hrun,fifo_refines hrun⟩

/-- Initialising a request leaves the fill count: a byte of before comes back. -/
theorem reinit_keeps_bytes : ¬∀ (m : Meter) (ops : List Op) (f : Fifo) (q : List UInt8),
    Run (joint m) (boot,[]) ops (f,q) → ∀ op, m.offers op →
      (step m f op).2 = (queueStep q op).2 := by
  intro h
  have hrun : Run (joint .kmp) (boot,[]) [.put 7,.init]
      ((step .kmp (step .kmp boot (.put 7)).1 .init).1,[]) :=
    .cons ⟨rfl,rfl⟩ (.cons ⟨rfl,rfl⟩ (.nil _))
  exact absurd (h .kmp _ _ _ hrun .get rfl) (by decide)

end MeterFifo
end MeterLogger
