import MeterLogger.KmpSample
import MeterLogger.Runs

/-!
# Requests to the Kamstrup meter

`kmp_request_send` starts the timers that write the two frames of a request and the timeout that
is to send the request again, and `kmp_received_task` reads what comes back. The timeout acts on a
counter of requests sent. These functions, the timers and the OTA update run in any order.
-/

namespace MeterLogger
namespace KmpRequest

open Buffers CStrings Runs

/-- The globals of `kmp_request.c`, its timers when armed, and the frames given to the UART.
`requests` counts the requests begun; one is `outstanding` until a register reply is decoded. -/
structure State where
  request : KmpSample.Request
  otaInProgress : Bool
  kmpRequestsSent : UInt32
  frame : Buf
  kmpGetSerialTimer : Bool
  kmpGetRegisterTimer : Bool
  kmpReceiveTimeoutTimer : Bool
  uart : List (List UInt8)
  requests : ℕ
  outstanding : Bool

def kmpRequestSend (s : State) : State :=
  if s.otaInProgress then s
  else
    let s := { s with
      kmpGetSerialTimer := true
      kmpGetRegisterTimer := true
      kmpReceiveTimeoutTimer := true
      requests := s.requests+1
      outstanding := true }
    let s := { s with kmpRequestsSent := s.kmpRequestsSent+1 }
    -- behind the `#endif` of `DEBUG_NO_METER`, so in every build
    { s with kmpRequestsSent := 0 }

def uart0TxBuffer (frame : Kmp.Frame) (s : State) : State :=
  { s with frame := frame.frame, uart := s.uart ++ [load frame.frame 0 frame.frameLength] }

@[simp] theorem uart0TxBuffer_requestsSent (frame : Kmp.Frame) (s : State) :
    (uart0TxBuffer frame s).kmpRequestsSent = s.kmpRequestsSent := rfl

@[simp] theorem uart0TxBuffer_requests (frame : Kmp.Frame) (s : State) :
    (uart0TxBuffer frame s).requests = s.requests := rfl

def kmpGetSerialTimerFunc (s : State) : State := uart0TxBuffer (Kmp.kmpGetSerial s.frame) s

def registerList (i : ℕ) : UInt16 := KmpSample.registerList.getD i 0

def kmpGetRegisterTimerFunc (s : State) : State :=
  uart0TxBuffer (Kmp.kmpGetRegister s.frame registerList 8) s

def kmpReceiveTimeoutTimerFunc (s : State) : State :=
  if 0 < s.kmpRequestsSent then kmpRequestSend s else s

def kmpRequestInit (s : State) : State := { s with kmpRequestsSent := 0 }

def kmpRequestDestroy (s : State) : State :=
  { s with
    kmpGetSerialTimer := false
    kmpGetRegisterTimer := false
    kmpReceiveTimeoutTimer := false }

instance (env : KmpSample.Env) (message : List UInt8) :
    Decidable (KmpSample.IsRegisterReply env message) := inferInstanceAs (Decidable (_ ∧ _))

def isSample (env : KmpSample.Env) (message : List UInt8) : Bool :=
  let decoded := Kmp.kmpDecodeFrame (KmpSample.messageFrame env message) message.length
  decide (0 < decoded.1) && decide (decoded.2.serial = 0)

/-- The commands of a `DEBUG` build that are more than a printout: `m` sends a request. -/
def debugCommand (debug : Bool) (message : List UInt8) (s : State) : State :=
  if debug && message.head? == some 0x6d then kmpRequestSend s else s

/-- `none` when the task writes behind an array, or is made to crash by the command `R`. -/
def kmpReceivedTask (debug : Bool) (env : KmpSample.Env) (message : List UInt8) (s : State) :
    Option State :=
  if debug && message.head? == some 0x52 then none
  else
    let s := debugCommand debug message s
    (KmpSample.kmpReceivedTask env s.request message).map fun request =>
      { s with
        request := request
        kmpRequestsSent := if isSample env message then 0 else s.kmpRequestsSent
        outstanding := s.outstanding && !decide (KmpSample.IsRegisterReply env message) }

inductive Event
  | requestSend
  | getSerialTimer
  | getRegisterTimer
  | receiveTimeoutTimer
  | received (env : KmpSample.Env) (message : List UInt8)
  | setMqttClient
  | setOtaInProgress (value : Bool)
  | init
  | destroy

/-- A timer fires when it is armed. -/
def enabled (s : State) : Event → Bool
  | .getSerialTimer => s.kmpGetSerialTimer
  | .getRegisterTimer => s.kmpGetRegisterTimer
  | .receiveTimeoutTimer => s.kmpReceiveTimeoutTimer
  | _ => true

def next (debug : Bool) (s : State) : Event → Option State
  | .requestSend => some (kmpRequestSend s)
  | .getSerialTimer => some (kmpGetSerialTimerFunc { s with kmpGetSerialTimer := false })
  | .getRegisterTimer => some (kmpGetRegisterTimerFunc { s with kmpGetRegisterTimer := false })
  | .receiveTimeoutTimer =>
    some (kmpReceiveTimeoutTimerFunc { s with kmpReceiveTimeoutTimer := false })
  | .received env message => kmpReceivedTask debug env message s
  | .setMqttClient => some { s with request := { s.request with mqttClient := true } }
  | .setOtaInProgress value => some { s with otaInProgress := value }
  | .init => some (kmpRequestInit s)
  | .destroy => some (kmpRequestDestroy s)

def Step (debug : Bool) (s : State) (e : Event) (t : State) : Prop :=
  enabled s e = true ∧ next debug s e = some t

def boot : State where
  request := ⟨0,0,false,[]⟩
  otaInProgress := false
  kmpRequestsSent := 0
  frame := fun _ => 0
  kmpGetSerialTimer := false
  kmpGetRegisterTimer := false
  kmpReceiveTimeoutTimer := false
  uart := []
  requests := 0
  outstanding := false

/-- The event calls `kmp_request_send` from outside of the timeout. -/
def asks (debug : Bool) : Event → Bool
  | .requestSend => true
  | .received _ message => debug && message.head? == some 0x6d
  | _ => false

/-- The timeout sends an outstanding request again, and nothing but a call of `kmp_request_send`
sends when none is outstanding. -/
structure Retransmits (debug : Bool) (s : State) (e : Event) (t : State) : Prop where
  again : e = .receiveTimeoutTimer → s.outstanding = true → s.otaInProgress = false →
    t.requests = s.requests+1
  answered : asks debug e = false → s.outstanding = false → t.requests = s.requests

/-- Every step that the event can take retransmits as it should. -/
def Obeyed (debug : Bool) (s : State) (e : Event) : Prop :=
  ∀ t, Step debug s e t → Retransmits debug s e t

/-- The timeout does not fire while a request is outstanding, except during an update. -/
def Quiet (s : State) : Event → Prop
  | .receiveTimeoutTimer => s.outstanding = true → s.otaInProgress = true
  | _ => True

section Counter

variable {debug : Bool} {s t : State} {e : Event}

theorem kmpRequestSend_requestsSent (hs : s.kmpRequestsSent = 0) :
    (kmpRequestSend s).kmpRequestsSent = 0 := by
  rw [kmpRequestSend]
  split
  · exact hs
  · rfl

theorem debugCommand_requestsSent (message : List UInt8) (hs : s.kmpRequestsSent = 0) :
    (debugCommand debug message s).kmpRequestsSent = 0 := by
  rw [debugCommand]
  split
  · exact kmpRequestSend_requestsSent hs
  · exact hs

theorem kmpReceivedTask_spec {env : KmpSample.Env} {message : List UInt8}
    (h : kmpReceivedTask debug env message s = some t) :
    t.requests = (debugCommand debug message s).requests ∧
      (t.kmpRequestsSent = 0 ∨
        t.kmpRequestsSent = (debugCommand debug message s).kmpRequestsSent) := by
  rw [kmpReceivedTask] at h
  split at h
  · cases h
  · obtain ⟨request,_,rfl⟩ := Option.map_eq_some_iff.mp h
    refine ⟨rfl,?_⟩
    by_cases hsample : isSample env message = true
    · exact Or.inl (if_pos hsample)
    · exact Or.inr (if_neg hsample)

theorem kmpReceiveTimeoutTimerFunc_idle (hs : s.kmpRequestsSent = 0) :
    kmpReceiveTimeoutTimerFunc s = s := by
  rw [kmpReceiveTimeoutTimerFunc,hs]
  exact if_neg (by decide)

theorem receiveTimeout_idle (hs : s.kmpRequestsSent = 0)
    (h : Step debug s .receiveTimeoutTimer t) : t = { s with kmpReceiveTimeoutTimer := false } :=
  (Option.some.inj h.2).symm.trans (kmpReceiveTimeoutTimerFunc_idle hs)

theorem step_requestsSent (s : State) (e : Event) (t : State) (hs : s.kmpRequestsSent = 0)
    (h : Step debug s e t) : t.kmpRequestsSent = 0 := by
  have hnext := h.2
  cases e with
  | requestSend =>
    cases hnext
    exact kmpRequestSend_requestsSent hs
  | receiveTimeoutTimer =>
    rw [receiveTimeout_idle hs h]
    exact hs
  | received env message =>
    rcases (kmpReceivedTask_spec hnext).2 with hzero | hkept
    · exact hzero
    · rw [hkept]
      exact debugCommand_requestsSent message hs
  | init =>
    cases hnext
    rfl
  | getSerialTimer =>
    cases hnext
    rw [kmpGetSerialTimerFunc,uart0TxBuffer_requestsSent]
    exact hs
  | getRegisterTimer =>
    cases hnext
    rw [kmpGetRegisterTimerFunc,uart0TxBuffer_requestsSent]
    exact hs
  | setMqttClient | setOtaInProgress | destroy =>
    cases hnext
    exact hs

theorem step_requests (hs : s.kmpRequestsSent = 0) (h : Step debug s e t)
    (hasks : asks debug e = false) : t.requests = s.requests := by
  have hnext := h.2
  cases e with
  | requestSend => cases hasks
  | receiveTimeoutTimer =>
    rw [receiveTimeout_idle hs h]
  | received env message =>
    rw [(kmpReceivedTask_spec hnext).1,debugCommand]
    rw [asks] at hasks
    rw [hasks]
    rfl
  | getSerialTimer =>
    cases hnext
    rw [kmpGetSerialTimerFunc,uart0TxBuffer_requests]
  | getRegisterTimer =>
    cases hnext
    rw [kmpGetRegisterTimerFunc,uart0TxBuffer_requests]
  | setMqttClient | setOtaInProgress | init | destroy =>
    cases hnext
    rfl

theorem obeyed_iff (hs : s.kmpRequestsSent = 0) (h : Step debug s e t) :
    Obeyed debug s e ↔ Quiet s e := by
  constructor
  · intro hobeyed
    cases e with
    | receiveTimeoutTimer =>
      intro hout
      by_contra hota
      have hagain := (hobeyed t h).again rfl hout (Bool.eq_false_iff.mpr hota)
      rw [step_requests hs h rfl] at hagain
      exact absurd hagain (Nat.ne_of_lt (Nat.lt_succ_self _))
    | _ => trivial
  · intro hquiet u hu
    refine ⟨?_,fun hasks _ => step_requests hs hu hasks⟩
    rintro rfl hout hota
    rw [hquiet hout] at hota
    cases hota

end Counter

/-- Every frame on the line is one of the two frames of a request. -/
def Framed (s : State) : Prop :=
  ∀ f ∈ s.uart, f = Kmp.wire 0x80 (Kmp.checked Kmp.Request.serial.body) ∨
    f = Kmp.wire 0x80 (Kmp.checked (Kmp.Request.register registerList 8).body)

section Framed

variable {debug : Bool} {s : State}

theorem framed_send (hs : Framed s) : Framed (kmpRequestSend s) := by
  rw [kmpRequestSend]
  split <;> exact hs

theorem framed_tx (r : Kmp.Request) (buf : Buf) (hs : Framed s)
    (hr : r = .serial ∨ r = .register registerList 8) :
    Framed (uart0TxBuffer (r.build buf) s) := by
  intro f hf
  rcases List.mem_append.mp hf with hold | hnew
  · exact hs f hold
  · rw [List.mem_singleton.mp hnew,(r.build_holds buf).load_eq]
    rcases hr with rfl | rfl
    · exact Or.inl rfl
    · exact Or.inr rfl

theorem step_framed (s : State) (e : Event) (t : State) (hs : Framed s) (h : Step debug s e t) :
    Framed t := by
  have hnext := h.2
  cases e with
  | requestSend =>
    cases hnext
    exact framed_send hs
  | getSerialTimer =>
    cases hnext
    exact framed_tx .serial _ hs (Or.inl rfl)
  | getRegisterTimer =>
    cases hnext
    exact framed_tx (.register registerList 8) _ hs (Or.inr rfl)
  | receiveTimeoutTimer =>
    cases hnext
    rw [kmpReceiveTimeoutTimerFunc]
    split
    · exact framed_send hs
    · exact hs
  | received env message =>
    rw [next,kmpReceivedTask] at hnext
    split at hnext
    · cases hnext
    · obtain ⟨request,_,rfl⟩ := Option.map_eq_some_iff.mp hnext
      rw [debugCommand]
      split
      · exact framed_send hs
      · exact hs
  | setMqttClient | setOtaInProgress | init | destroy =>
    cases hnext
    exact hs

theorem run_framed {es : List Event} (h : Run (Step debug) boot es s) : Framed s :=
  h.invariant step_framed fun _ hf => absurd hf List.not_mem_nil

end Framed

/-- A run retransmits as it should if and only if the timeout never fires while a request is
outstanding. -/
theorem retransmits_iff (debug : Bool) (es : List Event) (s : State) :
    Run (Guarded (Obeyed debug) (Step debug)) boot es s ↔
      Run (Guarded Quiet (Step debug)) boot es s :=
  Run.guarded_congr step_requestsSent (fun _ _ _ => obeyed_iff) rfl

/-- The first request of a meter that does not answer. -/
theorem request_lost :
    ¬∀ (debug : Bool) (es : List Event) (s : State), Run (Step debug) boot es s →
      Run (Guarded (Obeyed debug) (Step debug)) boot es s := by
  intro h
  have hrun : ∃ s, Run (Step false) boot
      [.requestSend,.getSerialTimer,.getRegisterTimer,.receiveTimeoutTimer] s :=
    ⟨_,.cons ⟨rfl,rfl⟩ (.cons ⟨rfl,rfl⟩ (.cons ⟨rfl,rfl⟩ (.cons ⟨rfl,rfl⟩ (.nil _))))⟩
  obtain ⟨s,hs⟩ := hrun
  have hquiet := (Run.guarded_congr step_requestsSent (fun _ _ _ => obeyed_iff) rfl).mp (h _ _ _ hs)
  cases hquiet with
  | cons h₁ hquiet =>
    cases h₁.2.2
    cases hquiet with
    | cons h₂ hquiet =>
      cases h₂.2.2
      cases hquiet with
      | cons h₃ hquiet =>
        cases h₃.2.2
        cases hquiet with
        | cons h₄ _ => exact absurd (h₄.1 rfl) (by decide)

end KmpRequest
end MeterLogger
