import MeterLogger.En61107Progress

/-!
# Where the values of a sample come from

A sample is put together from the rows of numerals that the meter sends in answer to `/#1` and
`/#2`. The bytes that came into the fifo since a reading cycle began are kept beside the machine;
a sample is fresh when its values have been read from them.
-/

namespace MeterLogger
namespace En61107

open CStrings Decimal MeterFifo Runs
open KmpReceive (drain drain_spec)

def tokens (message : List UInt8) : List (List UInt8) := segments 32 (cstr (cutMessage message))

/-- The values that the task reads from the answer to `/#1`. -/
inductive Quantity where
  | t1
  | t2
  | tdif
  | effect1
  | flow1
  deriving DecidableEq

namespace Quantity

def token : Quantity → ℕ
  | t1 => 3
  | t2 => 4
  | tdif => 5
  | effect1 => 6
  | flow1 => 7

def register (r : Response) : Quantity → Register
  | t1 => r.t1
  | t2 => r.t2
  | tdif => r.tdif
  | effect1 => r.effect1
  | flow1 => r.flow1

def read (F : Floats) (p : List UInt8) : Quantity → Register
  | t1 | t2 | tdif => setRegister (F.print 100 2 (F.read p)) "C"
  | effect1 => setRegister (F.print 10 3 (F.read p)) "kW"
  | flow1 => setRegister (F.printInt (F.read p)) "l/h"

/-- A flow meter has no temperatures and no effect. -/
def Published (b : Build) (k : Quantity) : Prop := b.flowMeter = true → k = flow1

instance (b : Build) (k : Quantity) : Decidable (k.Published b) :=
  inferInstanceAs (Decidable (b.flowMeter = true → k = flow1))

instance {P : Quantity → Prop} [DecidablePred P] : Decidable (∀ k, P k) :=
  decidable_of_iff (P t1 ∧ P t2 ∧ P tdif ∧ P effect1 ∧ P flow1)
    ⟨fun ⟨h₁,h₂,h₃,h₄,h₅⟩ k => by cases k <;> assumption,
      fun h => ⟨h t1,h t2,h tdif,h effect1,h flow1⟩⟩

end Quantity

/-- The two tokens of the answer to `/#2` that hold the program. -/
inductive ProgramToken where
  | abccc
  | ddeffgg
  deriving DecidableEq

namespace ProgramToken

def token : ProgramToken → ℕ
  | abccc => 7
  | ddeffgg => 8

def part (m : MeterProgram) : ProgramToken → List ℕ
  | abccc => [m.a,m.b,m.ccc]
  | ddeffgg => [m.dd,m.e,m.ff,m.gg]

def read (p : List UInt8) : ProgramToken → List ℕ
  | abccc => [field p 2 1 8,field p 3 1 8,field p 4 3 32]
  | ddeffgg => [field p 0 2 16,field p 2 1 8,field p 3 2 16,field p 5 2 16]

instance {P : ProgramToken → Prop} [DecidablePred P] : Decidable (∀ k, P k) :=
  decidable_of_iff (P abccc ∧ P ddeffgg)
    ⟨fun ⟨h₁,h₂⟩ k => by cases k <;> assumption,fun h => ⟨h abccc,h ddeffgg⟩⟩

end ProgramToken

/-- No value is published for the register. -/
def NoValue (r : Response) (k : Quantity) : Prop := (k.register r).value = []

/-- The part of the program is still that of the cleared response. -/
def NoProgram (r : Response) (k : ProgramToken) : Prop :=
  k.part r.meterProgram = k.part zeroResponse.meterProgram

instance (r : Response) (k : Quantity) : Decidable (NoValue r k) :=
  inferInstanceAs (Decidable ((k.register r).value = []))

instance (r : Response) (k : ProgramToken) : Decidable (NoProgram r k) :=
  inferInstanceAs (Decidable (k.part r.meterProgram = k.part zeroResponse.meterProgram))

/-- Each value of the answer to `/#1` has been read from its token, or there is none. -/
def FromReply1 (b : Build) (F : Floats) (ps : List (List UInt8)) (r : Response) : Prop :=
  ∀ k : Quantity, k.Published b →
    NoValue r k ∨ ∃ p, ps[k.token]? = some p ∧ scans p = true ∧ k.register r = k.read F p

/-- Each part of the program has been read from its token, or there is none. -/
def FromReply2 (ps : List (List UInt8)) (r : Response) : Prop :=
  ∀ k : ProgramToken,
    NoProgram r k ∨ ∃ p, ps[k.token]? = some p ∧ 7 ≤ p.length ∧ k.part r.meterProgram = k.read p

/-- The values of a response have been read from the bytes of a cycle. -/
def Fresh (b : Build) (F : Floats) (cycle : List UInt8) (r : Response) : Prop :=
  ∃ m₁ m₂ : List UInt8, m₁ <:+: cycle ∧ m₂ <:+: cycle ∧
    FromReply1 b F (tokens m₁) r ∧ FromReply2 (tokens m₂) r

/-- The tokens with the values of the answer to `/#1` are numbers; one may be missing as long as
the register has never been set. -/
def Complete1 (b : Build) (r : Response) (ps : List (List UInt8)) : Prop :=
  ∀ k : Quantity, k.Published b →
    (ps[k.token]?).any scans = true ∨ ps[k.token]? = none ∧ NoValue r k

/-- The tokens with the program are long enough; one may be short or missing as long as its part
of the program has never been set. -/
def Complete2 (r : Response) (ps : List (List UInt8)) : Prop :=
  ∀ k : ProgramToken, (ps[k.token]?).any (fun p => decide (7 ≤ p.length)) = true ∨ NoProgram r k

instance (b : Build) (r : Response) (ps : List (List UInt8)) : Decidable (Complete1 b r ps) :=
  inferInstanceAs (Decidable (∀ k : Quantity, k.Published b →
    (ps[k.token]?).any scans = true ∨ ps[k.token]? = none ∧ NoValue r k))

instance (r : Response) (ps : List (List UInt8)) : Decidable (Complete2 r ps) :=
  inferInstanceAs (Decidable (∀ k : ProgramToken,
    (ps[k.token]?).any (fun p => decide (7 ≤ p.length)) = true ∨ NoProgram r k))

section Parsers

variable {S α : Type*} {token : ℕ → List UInt8 → S → S} {f : S → α}

theorem tokenLoop_keeps (h : ∀ i p s, f (token i p s) = f s) (i : ℕ) (ps : List (List UInt8))
    (s : S) : f (tokenLoop token i ps s) = f s := by
  induction ps generalizing i s with
  | nil => rfl
  | cons p ps ih => exact (ih (i+1) (token i p s)).trans (h i p s)

theorem tokenLoop_skips {place i : ℕ} (h : ∀ i p s, i ≠ place → f (token i p s) = f s)
    (hi : place < i) (ps : List (List UInt8)) (s : S) : f (tokenLoop token i ps s) = f s := by
  induction ps generalizing i s with
  | nil => rfl
  | cons p ps ih => exact (ih (by omega) (token i p s)).trans (h i p s (by omega))

theorem tokenLoop_missing {place i j : ℕ} (h : ∀ i p s, i ≠ place → f (token i p s) = f s)
    (hj : i+j = place) {ps : List (List UInt8)} (hp : ps[j]? = none) (s : S) :
    f (tokenLoop token i ps s) = f s := by
  induction ps generalizing i j s with
  | nil => rfl
  | cons q ps ih =>
    cases j with
    | zero => exact absurd hp (by simp)
    | succ j =>
      rw [List.getElem?_cons_succ] at hp
      exact (ih (show i+1+j = place by omega) hp (token i q s)).trans (h i q s (by omega))

theorem tokenLoop_at {place i j : ℕ} (h : ∀ i p s, i ≠ place → f (token i p s) = f s)
    (hj : i+j = place) {ps : List (List UInt8)} {p : List UInt8} (hp : ps[j]? = some p) (s : S) :
    ∃ s', f s' = f s ∧ f (tokenLoop token i ps s) = f (token place p s') := by
  induction ps generalizing i j s with
  | nil => exact absurd hp (by simp)
  | cons q ps ih =>
    cases j with
    | zero =>
      obtain rfl : i = place := by omega
      rw [List.getElem?_cons_zero,Option.some.injEq] at hp
      subst hp
      exact ⟨s,rfl,tokenLoop_skips h (Nat.lt_succ_self i) ps _⟩
    | succ j =>
      rw [List.getElem?_cons_succ] at hp
      obtain ⟨s',hs',heq⟩ := ih (show i+1+j = place by omega) hp (token i q s)
      exact ⟨s',hs'.trans (h i q s (by omega)),heq⟩

theorem standardData1Token_other (F : Floats) (k : Quantity) (i : ℕ) (p : List UInt8)
    (s : F.Value × Response) (h : i ≠ k.token) :
    k.register (standardData1Token F i p s).2 = k.register s.2 := by
  unfold standardData1Token
  split <;> cases k <;> first | rfl | exact absurd rfl h

theorem standardData1Token_reads (F : Floats) (k : Quantity) {p : List UInt8}
    (hp : scans p = true) (s : F.Value × Response) :
    k.register (standardData1Token F k.token p s).2 = k.read F p := by
  have hvalue : vsscanf F p s.1 = F.read p := if_pos hp
  cases k <;> simp only [Quantity.token,standardData1Token,hvalue] <;> rfl

theorem standardData2Token_other (k : ProgramToken) (i : ℕ) (p : List UInt8) (r : Response)
    (h : i ≠ k.token) :
    k.part (standardData2Token i p r).meterProgram = k.part r.meterProgram := by
  unfold standardData2Token
  split
  · split <;> cases k <;> first | rfl | exact absurd rfl h
  · split <;> cases k <;> first | rfl | exact absurd rfl h
  · rfl

theorem standardData2Token_reads (k : ProgramToken) {p : List UInt8} (hp : 7 ≤ p.length)
    (r : Response) :
    k.part (standardData2Token k.token p r).meterProgram = k.read p := by
  cases k <;> simp only [ProgramToken.token,standardData2Token,if_pos hp] <;> rfl

theorem standardData2Token_short (k : ProgramToken) {p : List UInt8} (hp : ¬7 ≤ p.length)
    (r : Response) : standardData2Token k.token p r = r := by
  cases k <;> exact if_neg hp

theorem parse1_fresh {b : Build} (F : Floats) (stack : F.Value) {r : Response} {m : List UInt8}
    (h : Complete1 b r (tokens m)) :
    FromReply1 b F (tokens m)
      (parseMc66cdeStandardData1Frame F stack r (cutMessage m)).1 := by
  intro k hk
  have hother := standardData1Token_other F k
  rcases h k hk with hscans | ⟨hnone,hvalue⟩
  · obtain ⟨p,hp,hscans⟩ := Option.any_eq_true _ _ |>.mp hscans
    obtain ⟨s,_,hs⟩ := tokenLoop_at (f := fun s => k.register s.2) hother (Nat.zero_add k.token) hp
      (stack,r)
    exact .inr ⟨p,hp,hscans,hs.trans (standardData1Token_reads F k hscans s)⟩
  · have hs := tokenLoop_missing (f := fun s => k.register s.2) hother (Nat.zero_add k.token) hnone
      (stack,r)
    exact .inl ((congrArg Register.value hs).trans hvalue)

theorem parse2_fresh {r : Response} {m : List UInt8} (h : Complete2 r (tokens m)) :
    FromReply2 (tokens m) (parseMc66cdeStandardData2Frame r (cutMessage m)).1 := by
  intro k
  have hother := standardData2Token_other k
  cases hp : (tokens m)[k.token]? with
  | none =>
    have hs := tokenLoop_missing (f := fun r => k.part r.meterProgram) hother
      (Nat.zero_add k.token) hp r
    have hcleared := (h k).resolve_left (by rw [hp]; exact Bool.false_ne_true)
    exact .inl (hs.trans hcleared)
  | some p =>
    obtain ⟨s,hsame,hs⟩ := tokenLoop_at (f := fun r => k.part r.meterProgram) hother
      (Nat.zero_add k.token) hp r
    by_cases hlen : 7 ≤ p.length
    · exact .inr ⟨p,rfl,hlen,hs.trans (standardData2Token_reads k hlen s)⟩
    · rw [standardData2Token_short k hlen] at hs
      have hcleared := (h k).resolve_left (by rw [hp]; simpa using hlen)
      exact .inl (hs.trans (hsame.trans hcleared))

theorem parse2_keeps {b : Build} {F : Floats} {ps : List (List UInt8)} {r : Response}
    (frame : List UInt8) (h : FromReply1 b F ps r) :
    FromReply1 b F ps (parseMc66cdeStandardData2Frame r frame).1 := by
  intro k hk
  have hsame : k.register (parseMc66cdeStandardData2Frame r frame).1 = k.register r := by
    refine tokenLoop_keeps (f := k.register) (fun i p r => ?_) 0 _ r
    unfold standardData2Token
    split
    · split <;> cases k <;> rfl
    · split <;> cases k <;> rfl
    · rfl
  rw [NoValue,hsame]
  exact h k hk

end Parsers

/-- A published message, the response it was made of, and the bytes of its cycle. -/
structure Sample where
  message : List UInt8
  response : Response
  cycle : List UInt8

/-- The message has been made of values that were read in its cycle. -/
def Sample.IsFresh (b : Build) (F : Floats) (p : Sample) : Prop :=
  (∃ heap, p.message = sampleText b heap p.response) ∧ Fresh b F p.cycle p.response

/-- The machine, the bytes taken into the fifo since the first request of the cycle was sent, and
the samples published so far. -/
structure World where
  machine : State
  cycle : List UInt8
  samples : List Sample

def added (s t : State) : List Action := t.log.drop s.log.length

def message? : Action → Option (List UInt8)
  | .publish _ _ message => some message
  | _ => none

def identRequest : Action := .send (ascii "/?!\r\n")

def bytesTaken {F : Floats} (s : State) (cycle : List UInt8) : Event F → List UInt8
  | .rx c => if s.fifo.fillCount ≠ queueSize then cycle ++ [c] else cycle
  | _ => cycle

def worldNext (b : Build) (F : Floats) (w : World) (e : Event F) : World where
  machine := next b F w.machine e
  cycle :=
    if identRequest ∈ added w.machine (next b F w.machine e) then []
    else bytesTaken w.machine w.cycle e
  samples := w.samples ++
    ((added w.machine (next b F w.machine e)).filterMap message?).map
      (⟨·,(next b F w.machine e).response,w.cycle⟩)

def worldStep (b : Build) (F : Floats) (w : World) (e : Event F) (w' : World) : Prop :=
  Enabled w.machine e ∧ w' = worldNext b F w e

/-- A reply to `/#1` is complete when the task reads it, and so is one to `/#2` after which a sample
is published. -/
def RepliesComplete (b : Build) {F : Floats} (w : World) : Event F → Prop
  | .task io =>
    (w.machine.uartState = .standardData1 →
      Complete1 b w.machine.response (tokens (contents w.machine.fifo))) ∧
    (w.machine.uartState = .standardData2 → io.mqttReady = true →
      Complete2 w.machine.response (tokens (contents w.machine.fifo)))
  | _ => True

instance {b : Build} {F : Floats} (w : World) : (e : Event F) → Decidable (RepliesComplete b w e)
  | .task io => inferInstanceAs (Decidable
      ((w.machine.uartState = .standardData1 →
        Complete1 b w.machine.response (tokens (contents w.machine.fifo))) ∧
      (w.machine.uartState = .standardData2 → io.mqttReady = true →
        Complete2 w.machine.response (tokens (contents w.machine.fifo)))))
  | .send | .rx _ | .timer | .ota _ | .destroy => inferInstanceAs (Decidable True)

/-- The fifo holds bytes of the cycle, and when the second reply is waited for the values of the
first have been read from bytes of the cycle. -/
structure Collected (b : Build) (F : Floats) (s : State) (cycle : List UInt8) : Prop where
  valid : Valid s.fifo
  fifo : contents s.fifo <:+ cycle
  reply : s.uartState = .standardData2 →
    ∃ m, m <:+: cycle ∧ FromReply1 b F (tokens m) s.response

section Steps

variable {b : Build} {F : Floats} {s : State} {cycle : List UInt8}

theorem added_append {s t : State} {actions : List Action} (h : t.log = s.log ++ actions) :
    added s t = actions := by
  rw [added,h,List.drop_left]

/-- What a step from `s` to `t` does to the cycle, and where the values of a sample it publishes
come from. -/
def Moves (b : Build) (F : Floats) (s : State) (cycle : List UInt8) (t : State)
    (taken : List UInt8) : Prop :=
  ∃ actions, t.log = s.log ++ actions ∧
    Collected b F t (if identRequest ∈ actions then [] else taken) ∧
    ∀ a ∈ actions, ∀ m, message? a = some m → Sample.IsFresh b F ⟨m,t.response,cycle⟩

variable {taken : List UInt8} {u : State}

theorem Moves.quiet (h : Collected b F u taken) (hlog : u.log = s.log) :
    Moves b F s cycle u taken :=
  ⟨[],by simp [hlog],h,by simp⟩

theorem identRequest_ne {frame : List UInt8} (h : frame ≠ ascii "/?!\r\n") :
    identRequest ≠ .send frame :=
  fun he => h (Action.send.inj he).symm

theorem Moves.uartSend (h : Collected b F u taken) (hlog : u.log = s.log) {t : UartState}
    (ht : t = .standardData2 → ∃ m, m <:+: taken ∧ FromReply1 b F (tokens m) u.response)
    (eod : UInt8) (timeout : ℕ) {frame : List UInt8} (hframe : frame ≠ ascii "/?!\r\n") :
    Moves b F s cycle (uartSend u t eod timeout frame) taken := by
  rw [En61107.uartSend]
  split
  · exact .quiet h hlog
  · refine ⟨[.send frame],by simp [post,hlog],?_,by simp [message?]⟩
    rw [if_neg (by simpa using identRequest_ne hframe)]
    exact ⟨h.valid,h.fifo,ht⟩

theorem Moves.ident (h : u.isInErrorRecovery = true → Collected b F u taken) (hlog : u.log = s.log) :
    Moves b F s cycle (uartSendEn61107Ident u) taken := by
  by_cases hr : u.isInErrorRecovery = true
  · rw [uartSendEn61107Ident,if_pos hr]
    exact .quiet (h hr) hlog
  · have hidle := Bool.eq_false_iff.mpr hr
    refine ⟨[identRequest],?_,?_,by simp [message?,identRequest]⟩
    · rw [uartSendEn61107Ident_log hidle,hlog]
      rfl
    · obtain ⟨hvalid,hempty⟩ := reset_valid (f := { u.fifo with fillCount := 0 }) rfl
      have hfifo : (uartSendEn61107Ident u).fifo = en61107FifoFlush u.fifo := by
        simp [uartSendEn61107Ident,hidle]
      have hstate : (uartSendEn61107Ident u).uartState = .en61107Ident := by
        simp [uartSendEn61107Ident,En61107.uartSend,resetEtx,hidle,post]
      rw [if_pos List.mem_cons_self]
      refine ⟨?_,?_,fun hno => ?_⟩
      · rw [hfifo]
        exact hvalid
      · have hcontents : contents (en61107FifoFlush u.fifo) = [] := hempty
        simp [hfifo,hcontents]
      · rw [hstate] at hno
        exact absurd hno (by decide)

theorem Collected.flushed (h : Collected b F s cycle) (num : ℤ) (recovery : Bool) :
    Collected b F { s with
      receiveTimeoutTimer := none
      fifo := en61107FifoFlush s.fifo
      requestNum := num
      isInErrorRecovery := recovery } cycle := by
  obtain ⟨hvalid,hempty⟩ := reset_valid (f := { s.fifo with fillCount := 0 }) rfl
  refine ⟨hvalid,?_,h.reply⟩
  show contents { s.fifo with fillCount := 0, head := 0, tail := 0 } <:+ cycle
  rw [hempty]
  exact List.nil_suffix

theorem drain_all (h : Valid s.fifo) :
    (drain en61107FrameL s.fifo).1 = contents s.fifo ∧
      Valid (drain en61107FrameL s.fifo).2 ∧ contents (drain en61107FrameL s.fifo).2 = [] := by
  have hle := h.fill_le
  have hsize : queueSize < en61107FrameL := by decide
  exact drain_spec h (by omega)

theorem Collected.read (h : Collected b F s cycle) (r : Response) (hu : s.uartState ≠ .standardData2) :
    Collected b F { s with fifo := (drain en61107FrameL s.fifo).2, response := r } cycle := by
  obtain ⟨_,hvalid,hempty⟩ := drain_all h.valid
  refine ⟨hvalid,?_,fun hno => absurd hno hu⟩
  show contents (drain en61107FrameL s.fifo).2 <:+ cycle
  rw [hempty]
  exact List.nil_suffix

theorem sendAgain_moves (h : Collected b F u taken) (hlog : u.log = s.log) :
    Moves b F s cycle (sendAgain u) taken := by
  have hsame : ∀ v, v ≠ UartState.standardData2 → v = .standardData2 →
      ∃ m, m <:+: taken ∧ FromReply1 b F (tokens m) u.response := fun v hv hno => absurd hno hv
  rw [sendAgain]
  split
  · exact .ident (fun _ => h) hlog
  · exact .ident (fun _ => h) hlog
  · exact .uartSend h hlog (hsame _ (by decide)) _ _ (by decide)
  · exact .uartSend h hlog (hsame _ (by decide)) _ _ (by decide)
  · exact .uartSend h hlog (fun _ => h.reply ‹_›) _ _ (by decide)
  · exact .quiet h hlog

theorem timer_moves (h : Collected b F s cycle) :
    Moves b F s cycle (receiveTimeoutTimerFunc { s with receiveTimeoutTimer := none }) cycle := by
  simp only [receiveTimeoutTimerFunc]
  split_ifs with hr
  · exact .ident (fun hno => absurd hno Bool.false_ne_true) rfl
  · exact sendAgain_moves (h.flushed _ _) rfl
  · have hflushed := h.flushed 0 true
    exact .quiet ⟨hflushed.valid,hflushed.fifo,fun hno => by simp [backOff] at hno⟩ rfl

theorem rxChar_moves (h : Collected b F s cycle) (c : UInt8) :
    Moves b F s cycle (rxChar s c) (bytesTaken s cycle (.rx c : Event F)) := by
  have hkeeps : (rxChar s c).fifo = (en61107FifoPut s.fifo c).1 ∧
      (rxChar s c).uartState = s.uartState ∧ (rxChar s c).response = s.response ∧
      (rxChar s c).log = s.log := by
    simp only [rxChar,isEodChar]
    split_ifs <;> exact ⟨rfl,rfl,rfl,rfl⟩
  obtain ⟨hfifo,hstate,hresponse,hlog⟩ := hkeeps
  refine .quiet ⟨?_,?_,?_⟩ hlog
  · rw [hfifo]
    exact en61107FifoPut_valid h.valid c
  · rw [hfifo,bytesTaken]
    split
    · rename_i hroom
      have hput : contents (en61107FifoPut s.fifo c).1 = contents s.fifo ++ [c] :=
        (fifoPut_room h.valid hroom c).2.2
      rw [hput]
      obtain ⟨front,hfront⟩ := h.fifo
      exact ⟨front,by rw [← hfront,List.append_assoc]⟩
    · rename_i hfull
      have hput : en61107FifoPut s.fifo c = (s.fifo,false) := if_neg hfull
      rw [hput]
      exact h.fifo
  · rw [hstate,hresponse]
    intro hu
    obtain ⟨m,hm,hreply⟩ := h.reply hu
    refine ⟨m,?_,hreply⟩
    rw [bytesTaken]
    split
    · exact hm.trans (List.prefix_append _ _).isInfix
    · exact hm

theorem endCycle_moves (hvalid : Valid u.fifo) (hempty : contents u.fifo = [])
    (hlog : u.log = s.log) (io : TaskIo F) (hfresh : io.mqttReady = true → Fresh b F cycle u.response) :
    Moves b F s cycle (endCycle b io u) cycle := by
  have hend : Collected b F (endCycle b io u) cycle := by
    refine ⟨?_,?_,fun hno => by simp [endCycle] at hno⟩
    · rw [endCycle_fifo]
      exact hvalid
    · rw [endCycle_fifo,hempty]
      exact List.nil_suffix
  have hlog' : ∃ actions, (endCycle b io u).log = s.log ++ actions ∧ identRequest ∉ actions ∧
      ∀ a ∈ actions, ∀ m, message? a = some m →
        io.mqttReady = true ∧ m = sampleText b io.heap u.response := by
    refine ⟨(if u.meterIsReadyCbCalled then [] else [.meterIsReady]) ++
      (if io.mqttReady then
        [.publish u.serial io.unixTime (sampleText b io.heap u.response)] else []) ++
      [.meterSentData],?_,?_,?_⟩
    · simp only [endCycle,post]
      split_ifs <;> simp [hlog]
    · split_ifs <;> simp [identRequest]
    · split_ifs <;> simp_all [message?]
  obtain ⟨actions,hactions,hident,hpublish⟩ := hlog'
  have hresponse : (endCycle b io u).response = u.response := by
    simp only [endCycle,post]
    split_ifs <;> rfl
  refine ⟨actions,hactions,?_,fun a ha m hm => ?_⟩
  · rw [if_neg hident]
    exact hend
  · rw [hresponse]
    obtain ⟨hready,hm⟩ := hpublish a ha m hm
    exact ⟨⟨io.heap,hm⟩,hfresh hready⟩

theorem receivedTask_moves (h : Collected b F u cycle) (hlog : u.log = s.log) (io : TaskIo F)
    (h₁ : u.uartState = .standardData1 → Complete1 b u.response (tokens (contents u.fifo)))
    (h₂ : u.uartState = .standardData2 → io.mqttReady = true →
      Complete2 u.response (tokens (contents u.fifo))) :
    Moves b F s cycle (receivedTask b F io u) cycle := by
  have hother : ∀ {v : UartState} {r : Response}, v ≠ .standardData2 → v = .standardData2 →
      ∃ m, m <:+: cycle ∧ FromReply1 b F (tokens m) r := fun hv hno => absurd hno hv
  obtain ⟨hdrain,hvalid,hempty⟩ := drain_all h.valid
  have hpart : (drain en61107FrameL u.fifo).1 <:+: cycle := by
    rw [hdrain]
    exact h.fifo.isInfix
  rw [receivedTask]
  split
  · exact .quiet h hlog
  · have hreset : Collected b F (resetEtx u) cycle ∧ (resetEtx u).log = u.log := by
      rw [resetEtx]
      split
      · exact ⟨h,rfl⟩
      · exact ⟨⟨h.valid,h.fifo,h.reply⟩,rfl⟩
    exact .uartSend hreset.1 (hreset.2.trans hlog) (hother (by decide)) _ _ (by decide)
  · rename_i hu
    have hread : ∀ serial serialSet, Collected b F (readRegisters b F io u serial serialSet) cycle := by
      intro serial serialSet
      have hr := h.read (parseEn61107Frame b F io.stack u.response
        (drain en61107FrameL u.fifo).1).1 (by simp [hu])
      exact ⟨hr.valid,hr.fifo,hr.reply⟩
    obtain ⟨serial,serialSet,heq | heq | heq | heq⟩ := receivedEn61107_cases b F io u
    · rw [heq]
      have hr := hread serial serialSet
      exact .quiet ⟨hr.valid,hr.fifo,hr.reply⟩ hlog
    · rw [heq]
      exact .quiet (hread _ _) hlog
    · rw [heq]
      exact .uartSend (hread _ _) hlog (hother (by decide)) _ _ (by decide)
    · rw [heq]
      exact .uartSend (hread _ _) hlog (hother (by decide)) _ _ (by decide)
  · rename_i hu
    rw [receivedInstValues_eq]
    exact .uartSend (h.read _ (by simp [hu])) hlog (hother (by decide)) _ _ (by decide)
  · rename_i hu
    rw [receivedStandardData1_eq]
    refine .uartSend (h.read _ (by simp [hu])) hlog (fun _ => ⟨_,hpart,?_⟩) _ _ (by decide)
    apply parse1_fresh
    rw [hdrain]
    exact h₁ hu
  · rename_i hu
    rw [receivedStandardData2_eq]
    obtain ⟨m,hm,hreply⟩ := h.reply hu
    refine endCycle_moves ?_ ?_ ?_ io ?_
    · exact hvalid
    · exact hempty
    · exact hlog
    · refine fun hready => ⟨m,_,hm,hpart,parse2_keeps _ hreply,?_⟩
      apply parse2_fresh
      rw [hdrain]
      exact h₂ hu hready

theorem next_moves (h : Collected b F s cycle) {e : Event F}
    (he : RepliesComplete b ⟨s,cycle,[]⟩ e) :
    Moves b F s cycle (next b F s e) (bytesTaken s cycle e) := by
  cases e with
  | send =>
    rw [next,requestSend]
    split_ifs
    · exact .quiet h rfl
    · exact .quiet h rfl
    · rename_i hr
      refine .ident (fun hno => absurd ?_ hr) rfl
      have hrecovery : s.isInErrorRecovery = true := hno
      rw [hrecovery,Bool.true_or]
  | rx c => exact rxChar_moves h c
  | task io =>
    obtain ⟨h₁,h₂⟩ := he
    refine receivedTask_moves ⟨?_,?_,?_⟩ rfl io h₁ h₂
    · exact h.valid
    · exact h.fifo
    · exact h.reply
  | timer => exact timer_moves h
  | ota inProgress => exact .quiet ⟨h.valid,h.fifo,h.reply⟩ rfl
  | destroy => exact .quiet ⟨h.valid,h.fifo,h.reply⟩ rfl

end Steps

/-- The invariant of a run. -/
structure Samples (b : Build) (F : Floats) (w : World) : Prop where
  collected : Collected b F w.machine w.cycle
  fresh : ∀ p ∈ w.samples, p.IsFresh b F

theorem Samples.step {b : Build} {F : Floats} {w w' : World} {e : Event F} (h : Samples b F w)
    (he : RepliesComplete b w e) (hs : worldStep b F w e w') : Samples b F w' := by
  obtain ⟨_,rfl⟩ := hs
  obtain ⟨actions,hlog,hcollected,hpublish⟩ := next_moves (b := b) h.collected he
  have hadded := added_append hlog
  refine ⟨?_,?_⟩
  · show Collected b F (next b F w.machine e)
      (if identRequest ∈ added w.machine (next b F w.machine e) then []
        else bytesTaken w.machine w.cycle e)
    rw [hadded]
    exact hcollected
  · intro p hp
    rw [worldNext,hadded] at hp
    rcases List.mem_append.mp hp with hp | hp
    · exact h.fresh p hp
    · obtain ⟨m,hm,rfl⟩ := List.mem_map.mp hp
      obtain ⟨a,ha,hmessage⟩ := List.mem_filterMap.mp hm
      exact hpublish a ha m hmessage

def rx (cs : List UInt8) : List (Event sampleFloats) := cs.map .rx

end En61107
end MeterLogger
