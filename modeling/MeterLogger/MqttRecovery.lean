import MeterLogger.MqttReceive

/-!
# Recovery from a TCP error

The error callback of the network stack asks for a reconnection, which the client's timer
starts some ticks later. The callback leaves the send and keepalive timeouts running and
the timer as it is; a timeout that runs out sends the client to a state that only another
callback of the dead connection leaves. The states from which the client recovers by ticks
and tasks alone are determined.
-/

namespace MeterLogger
namespace MqttClient

open MqttMessage MqttUtils Runs

def isTick : Event → Bool
  | .tick _ => true
  | _ => false

def ticks (es : List Event) : ℕ := es.countP isTick

theorem ticks_cons (e : Event) (es : List Event) : ticks (e::es) = ticks [e] + ticks es := by
  rw [← List.singleton_append]
  exact List.countP_append

/-- Ticks and tasks during which the application does nothing. -/
def Idle : Event → Prop
  | .tick env => env.calls = []
  | .task env => env.calls = []
  | _ => False

def IdleStep (c : Client) (e : Event) (c' : Client) : Prop := Idle e ∧ Step c e c'

def plainTick : Event := .tick ⟨true,false,0,.inProgress,[]⟩

theorem plainTick_step {c : Client} (h : c.timerArmed = true) :
    IdleStep c plainTick (next c plainTick) := ⟨rfl,h,rfl⟩

/-- Ticks alone can take the client to `TCP_RECONNECT`. -/
def CanReconnect (c : Client) : Prop :=
  ∃ es c', (∀ e ∈ es, isTick e = true) ∧ Run IdleStep c es c' ∧ c'.connState = .tcpReconnect

/-- After an error reported in state `c`, whatever order ticks and tasks come in,
`TCP_RECONNECT` stays within reach of ticks and is entered by the sixth tick. -/
structure Recovers (c : Client) : Prop where
  live : ∀ es c', Run IdleStep (next c .recon) es c' → CanReconnect c'
  timely : ∀ es c', Run IdleStep (next c .recon) es c' → mqttReconnectTimeout+1 ≤ ticks es →
    ∃ es₁ es₂ c₁, es = es₁ ++ es₂ ∧ ticks es₁ ≤ mqttReconnectTimeout+1 ∧
      Run IdleStep (next c .recon) es₁ c₁ ∧ c₁.connState = .tcpReconnect

/-- The timer is armed and no timeout is running. -/
structure Recoverable (c : Client) : Prop where
  armed : c.timerArmed = true
  send : c.sendTimeout = 0
  pingresp : c.isWaitingForPingresp = true → c.pingrespTimeout = 0

/-- The ticks left until `TCP_RECONNECT`. -/
def wait (c : Client) : ℕ :=
  match c.connState with
  | .tcpReconnectReq => mqttReconnectTimeout-c.reconnectTick+1
  | .tcpConnecting => mqttConnectTimeout-c.connectTick+1
  | _ => 0

/-- The fields `Recoverable` speaks of. -/
def timers (c : Client) : Bool × ℕ × Bool × ℕ :=
  (c.timerArmed,c.sendTimeout,c.isWaitingForPingresp,c.pingrespTimeout)

/-- These fields and those that count the ticks of a reconnection. -/
def clock (c : Client) : ConnState × (Bool × ℕ × Bool × ℕ) × ℕ × ℕ :=
  (c.connState,timers c,c.reconnectTick,c.connectTick)

theorem Recoverable.of_timers {c c' : Client} (h : Recoverable c) (ht : timers c' = timers c) :
    Recoverable c' := by
  simp only [timers,Prod.mk.injEq] at ht
  obtain ⟨ha,hs,hw,hp⟩ := ht
  exact ⟨ha.trans h.armed,hs.trans h.send,fun hwait => hp.trans (h.pingresp (hw.symm.trans hwait))⟩

namespace Client

theorem invoke_idle (c : Client) (cb : Callback) {calls : List ApiCall} (h : calls = []) :
    c.invoke cb calls = if c.allocated then c.emit (.callback cb) else c := by
  subst h
  rfl

theorem timerConnState_timers (c : Client) {env : Env} (h : env.calls = []) :
    timers (c.timerConnState env) = timers c := by
  unfold timerConnState
  cases c.connState with
  | mqttData =>
    simp only
    split <;> rfl
  | tcpReconnectReq =>
    simp only [invoke_idle _ _ h]
    split
    · split <;> rfl
    · rfl
  | tcpConnecting =>
    simp only [invoke_idle _ _ h]
    split
    · split <;> rfl
    · rfl
  | _ => rfl

theorem mqttTimer_recoverable {c : Client} (hc : Recoverable c) {env : Env} (h : env.calls = []) :
    c.mqttTimer env = c.timerConnState env := by
  have hd := hc.of_timers (c.timerConnState_timers h)
  have hping : (c.timerConnState env).timerPingresp = c.timerConnState env := by
    rw [timerPingresp,if_neg]
    rintro ⟨hw,hp⟩
    rw [hd.pingresp hw] at hp
    exact absurd hp (by decide)
  rw [mqttTimer,hping,timerSend,if_neg (by rw [hd.send]; decide)]

/-- A tick counts a running send timeout down; the last one gives up the connection. -/
theorem mqttTimer_send {c : Client} {env : Env} (h : env.calls = []) (hs : 0 < c.sendTimeout) :
    (c.mqttTimer env).timerArmed = c.timerArmed ∧
      (c.mqttTimer env).sendTimeout = c.sendTimeout-1 ∧
      (c.sendTimeout = 1 → (c.mqttTimer env).connState = .tcpReconnectDisconnecting) := by
  have ht := c.timerConnState_timers h
  simp only [timers,Prod.mk.injEq] at ht
  obtain ⟨ha,hst,_,_⟩ := ht
  have hping : ∀ d : Client, d.timerPingresp.timerArmed = d.timerArmed ∧
      d.timerPingresp.sendTimeout = d.sendTimeout := by
    intro d
    unfold timerPingresp
    split
    · simp only
      split
      · exact ⟨rfl,rfl⟩
      · exact ⟨rfl,rfl⟩
    · exact ⟨rfl,rfl⟩
  have hd := hping (c.timerConnState env)
  rw [ha,hst] at hd
  rw [mqttTimer]
  generalize (c.timerConnState env).timerPingresp = d at hd
  rw [timerSend,if_pos (by rw [hd.2]; exact hs)]
  simp only [hd.2]
  split
  · exact ⟨hd.1,by rw [← hd.2]; rfl,fun _ => rfl⟩
  · rename_i hne
    exact ⟨hd.1,rfl,fun h1 => absurd (by omega) hne⟩

/-- A tick counts a running keepalive timeout down; the last one gives up the connection. -/
theorem mqttTimer_pingresp {c : Client} {env : Env} (h : env.calls = [])
    (hw : c.isWaitingForPingresp = true) (hp : 0 < c.pingrespTimeout) :
    (c.mqttTimer env).timerArmed = c.timerArmed ∧
      (c.pingrespTimeout = 1 → (c.mqttTimer env).connState = .tcpReconnectDisconnecting) ∧
      (c.pingrespTimeout ≠ 1 → (c.mqttTimer env).isWaitingForPingresp = true ∧
        (c.mqttTimer env).pingrespTimeout = c.pingrespTimeout-1) := by
  have ht := c.timerConnState_timers h
  simp only [timers,Prod.mk.injEq] at ht
  obtain ⟨ha,_,hwait,hping⟩ := ht
  have hsend : ∀ d : Client, d.timerSend.timerArmed = d.timerArmed ∧
      d.timerSend.isWaitingForPingresp = d.isWaitingForPingresp ∧
      d.timerSend.pingrespTimeout = d.pingrespTimeout ∧
      (d.connState = .tcpReconnectDisconnecting → d.timerSend.connState = .tcpReconnectDisconnecting) := by
    intro d
    unfold timerSend
    split
    · simp only
      split
      · exact ⟨rfl,rfl,rfl,fun _ => rfl⟩
      · exact ⟨rfl,rfl,rfl,id⟩
    · exact ⟨rfl,rfl,rfl,id⟩
  rw [mqttTimer]
  obtain ⟨h₁,h₂,h₃,h₄⟩ := hsend (c.timerConnState env).timerPingresp
  rw [h₁,h₂,h₃]
  rw [timerPingresp,if_pos (by rw [hwait,hping]; exact ⟨hw,hp⟩)] at h₄ ⊢
  simp only [hping] at h₄ ⊢
  split
  · rename_i hz
    rw [if_pos hz] at h₄
    exact ⟨ha,fun _ => h₄ rfl,fun hne => absurd (by omega) hne⟩
  · rename_i hz
    exact ⟨ha,fun h1 => absurd (by omega) hz,fun _ => ⟨hwait.trans hw,rfl⟩⟩

theorem mqttTimer_disconnecting {c : Client} (env : Env)
    (h : c.connState = .tcpReconnectDisconnecting) :
    (c.mqttTimer env).connState = .tcpReconnectDisconnecting := by
  have hswitch : c.timerConnState env = c := by
    rw [timerConnState,h]
  rw [mqttTimer,hswitch,timerSend]
  have hping : c.timerPingresp.connState = .tcpReconnectDisconnecting := by
    unfold timerPingresp
    split
    · simp only
      split
      · rfl
      · exact h
    · exact h
  split
  · simp only
    split
    · rfl
    · exact hping
  · exact hping

/-- A packet in the receive buffer changes nothing but the buffer while the client is not in
a state that handles packets. -/
theorem processPacket_clock (c : Client) (env : Env) (h : c.connState.receiving = false) :
    clock (c.processPacket env) = clock c := by
  have hpacket : ∀ n, c.handlePacket n env = c := by
    intro n
    unfold handlePacket
    cases hs : c.connState <;> rw [hs] at h <;> first | rfl | exact absurd h (by decide)
  unfold processPacket
  simp only [hpacket]
  split
  · rfl
  · split
    · unfold dropConnection
      split <;> rfl
    · split
      · split
        · rfl
        · split <;> rfl
      · rfl

end Client

/-- The states of a reconnection, entered by the error callback. -/
structure Reconnecting (c : Client) : Prop where
  recoverable : Recoverable c
  state : c.connState = .tcpReconnectReq ∨ c.connState = .tcpReconnect ∨
    c.connState = .tcpConnecting

theorem Reconnecting.of_clock {c c' : Client} (h : Reconnecting c) (hc : clock c' = clock c) :
    Reconnecting c' ∧ wait c' = wait c := by
  simp only [clock,Prod.mk.injEq] at hc
  obtain ⟨hs,ht,hr,hn⟩ := hc
  refine ⟨⟨h.recoverable.of_timers ht,by rw [hs]; exact h.state⟩,?_⟩
  simp only [wait,hs,hr,hn]

theorem Reconnecting.wait_eq_zero {c : Client} (h : Reconnecting c) (hw : wait c = 0) :
    c.connState = .tcpReconnect := by
  rcases h.state with hs | hs | hs
  · simp [wait,hs] at hw
  · exact hs
  · simp [wait,hs] at hw

theorem Reconnecting.tick {c : Client} (h : Reconnecting c) {env : Env} (hidle : env.calls = []) :
    Reconnecting (c.mqttTimer env) ∧ wait (c.mqttTimer env) = wait c-1 := by
  rw [Client.mqttTimer_recoverable h.recoverable hidle]
  have hrec := h.recoverable.of_timers (c.timerConnState_timers hidle)
  unfold Client.timerConnState at hrec ⊢
  have hinvoke : ∀ d : Client, (d.invoke .timeout env.calls).connState = d.connState := by
    intro d
    rw [d.invoke_idle _ hidle]
    split <;> rfl
  rcases h.state with hs | hs | hs
  · simp only [hs] at hrec ⊢
    split at hrec
    · rename_i hlast
      rw [if_pos hlast]
      refine ⟨⟨hrec,by rw [hinvoke]; exact Or.inr (Or.inl rfl)⟩,?_⟩
      simp only [wait,hinvoke,hs,Client.post]
      omega
    · rename_i hmore
      rw [if_neg hmore]
      refine ⟨⟨hrec,Or.inl rfl⟩,?_⟩
      simp only [wait,hs]
      omega
  · simp only [hs] at hrec ⊢
    exact ⟨h,by simp only [wait,hs]⟩
  · simp only [hs] at hrec ⊢
    split at hrec
    · rename_i hlast
      rw [if_pos hlast]
      refine ⟨⟨hrec,by rw [hinvoke]; exact Or.inr (Or.inl rfl)⟩,?_⟩
      simp only [wait,hinvoke,hs,Client.post]
      omega
    · rename_i hmore
      rw [if_neg hmore]
      refine ⟨⟨hrec,Or.inr (Or.inr rfl)⟩,?_⟩
      simp only [wait,hs]
      omega

theorem mqttConnect_recoverable {c : Client} (h : Recoverable c) (dns : DnsOutcome) :
    Recoverable (c.mqttConnect dns) := by
  have hdns : ∀ (d : Client) (addr : Option ℕ), Recoverable d → Recoverable (d.mqttDnsFound addr) := by
    intro d addr hd
    refine hd.of_timers ?_
    unfold Client.mqttDnsFound
    cases addr with
    | none => rfl
    | some addr =>
      simp only
      split
      · split
        · rfl
        · split <;> rfl
      · rfl
  unfold Client.mqttConnect
  cases c.host with
  | none => exact h
  | some host =>
    simp only
    split
    · exact h
    · generalize (if c.pCon then c.mqttTcpclientDelete else c) = d
      cases utilsStrToIP host with
      | some ip =>
        simp only
        split
        · exact ⟨rfl,rfl,fun _ => rfl⟩
        · exact ⟨rfl,rfl,fun _ => rfl⟩
      | none =>
        cases dns with
        | ok addr => exact hdns _ _ ⟨rfl,rfl,fun _ => rfl⟩
        | inProgress => exact ⟨rfl,rfl,fun _ => rfl⟩
        | failed => exact ⟨rfl,rfl,fun _ => rfl⟩

theorem mqttTcpclientDelete_recoverable {c : Client} (h : Recoverable c) :
    Recoverable c.mqttTcpclientDelete := by
  unfold Client.mqttTcpclientDelete
  simp only
  split
  · exact ⟨h.armed,rfl,fun _ => rfl⟩
  · exact ⟨h.armed,rfl,fun _ => rfl⟩

/-- A task starts the connection in `TCP_RECONNECT` and changes nothing in the other two
states. -/
theorem Reconnecting.task {c : Client} (h : Reconnecting c) (env : Env) :
    Reconnecting (c.mqttTask env) ∧ (wait c ≠ 0 → wait (c.mqttTask env) = wait c) := by
  have hsame : ∀ {c' : Client}, clock c' = clock c →
      Reconnecting c' ∧ (wait c ≠ 0 → wait c' = wait c) :=
    fun hc => ⟨(h.of_clock hc).1,fun _ => (h.of_clock hc).2⟩
  unfold Client.mqttTask
  split
  · exact hsame rfl
  split
  · rw [Client.mqttTcpclientRecv,if_pos rfl]
    refine hsame (c.processPacket_clock env ?_)
    rcases h.state with hs | hs | hs <;> rw [hs] <;> rfl
  · unfold Client.taskSwitch
    rcases h.state with hs | hs | hs
    · rw [hs]
      exact hsame rfl
    · rw [hs]
      have hr := mqttConnect_recoverable (mqttTcpclientDelete_recoverable h.recoverable) env.dns
      exact ⟨⟨hr.of_timers rfl,Or.inr (Or.inr rfl)⟩,fun hw => absurd (by simp [wait,hs]) hw⟩
    · rw [hs]
      exact hsame rfl

theorem Reconnecting.step {c c' : Client} {e : Event} (h : Reconnecting c)
    (hstep : IdleStep c e c') :
    Reconnecting c' ∧ (wait c ≠ 0 → wait c' = wait c - ticks [e]) := by
  obtain ⟨hidle,_,rfl⟩ := hstep
  cases e with
  | tick env =>
    obtain ⟨h',hw⟩ := h.tick hidle
    exact ⟨h',fun _ => hw⟩
  | task env =>
    have hclock : clock { c with posted := c.posted-1 } = clock c := rfl
    exact (h.of_clock hclock).1.task env
  | _ => exact absurd hidle id

theorem Reconnecting.run {c c' : Client} {es : List Event} (h : Reconnecting c)
    (hrun : Run IdleStep c es c') : Reconnecting c' :=
  hrun.invariant (fun _ _ _ hs hstep => (hs.step hstep).1) h

/-- From a state of a reconnection the ticks it waits for lead to `TCP_RECONNECT`. -/
theorem Reconnecting.canReconnect {c : Client} (h : Reconnecting c) : CanReconnect c := by
  induction hn : wait c generalizing c with
  | zero => exact ⟨[],c,by simp,.nil c,h.wait_eq_zero hn⟩
  | succ n ih =>
    have hstep := plainTick_step h.recoverable.armed
    obtain ⟨h',hw⟩ := h.step hstep
    have hticks : ticks [plainTick] = 1 := rfl
    obtain ⟨es,c',hes,hrun,hs⟩ := ih h' (by rw [hw (by omega),hn,hticks]; rfl)
    refine ⟨plainTick::es,c',fun x hx => ?_,.cons hstep hrun,hs⟩
    rcases List.mem_cons.mp hx with rfl | hx
    · rfl
    · exact hes x hx

/-- A run with enough ticks enters `TCP_RECONNECT` with the tick that completes the wait. -/
theorem Reconnecting.enters {c c' : Client} {es : List Event} (h : Reconnecting c)
    (hrun : Run IdleStep c es c') (hlong : wait c ≤ ticks es) :
    ∃ es₁ es₂ c₁, es = es₁ ++ es₂ ∧ ticks es₁ = wait c ∧ Run IdleStep c es₁ c₁ ∧
      c₁.connState = .tcpReconnect := by
  induction hrun with
  | nil c =>
    have hw : wait c = 0 := Nat.le_zero.mp hlong
    exact ⟨[],[],c,rfl,hw.symm,.nil c,h.wait_eq_zero hw⟩
  | @cons c d _ e es hstep hrest ih =>
    by_cases hw : wait c = 0
    · exact ⟨[],e::es,c,rfl,hw.symm,.nil c,h.wait_eq_zero hw⟩
    obtain ⟨h',hw'⟩ := h.step hstep
    have hone : ticks [e] ≤ 1 := List.countP_le_length
    rw [ticks_cons] at hlong
    rw [hw' hw] at ih
    obtain ⟨es₁,es₂,c₁,rfl,hlen,hrun₁,hs⟩ := ih h' (by omega)
    refine ⟨e::es₁,es₂,c₁,rfl,?_,.cons hstep hrun₁,hs⟩
    rw [ticks_cons,hlen]
    omega

theorem stranded {c : Client} (h : c.connState = .tcpReconnectDisconnecting) : ¬CanReconnect c := by
  rintro ⟨es,c',hes,hrun,hs⟩
  suffices hstay : c'.connState = .tcpReconnectDisconnecting by
    rw [hstay] at hs
    exact absurd hs (by decide)
  clear hs
  induction hrun with
  | nil => exact h
  | @cons c d _ e es hstep _ ih =>
    obtain ⟨_,_,rfl⟩ := hstep
    have htick := hes e (by simp)
    cases e with
    | tick env =>
      exact ih (c.mqttTimer_disconnecting env h) fun x hx => hes x (List.mem_cons_of_mem _ hx)
    | _ => exact absurd htick Bool.false_ne_true

/-- A running send timeout takes the client to `TCP_RECONNECT_DISCONNECTING`. -/
theorem sendTimeout_strands {c : Client} (ha : c.timerArmed = true) (hs : 0 < c.sendTimeout) :
    ∃ es c', Run IdleStep c es c' ∧ c'.connState = .tcpReconnectDisconnecting := by
  induction hn : c.sendTimeout generalizing c with
  | zero => omega
  | succ n ih =>
    have hcalls : (⟨true,false,0,.inProgress,[]⟩ : Env).calls = [] := rfl
    obtain ⟨harmed,hdown,hlast⟩ := c.mqttTimer_send hcalls hs
    by_cases h1 : c.sendTimeout = 1
    · exact ⟨[plainTick],_,.single (plainTick_step ha),hlast h1⟩
    · obtain ⟨es,c',hrun,hstate⟩ := ih (harmed.trans ha) (by omega) (by omega)
      exact ⟨plainTick::es,c',.cons (plainTick_step ha) hrun,hstate⟩

theorem pingrespTimeout_strands {c : Client} (ha : c.timerArmed = true)
    (hw : c.isWaitingForPingresp = true) (hp : 0 < c.pingrespTimeout) :
    ∃ es c', Run IdleStep c es c' ∧ c'.connState = .tcpReconnectDisconnecting := by
  induction hn : c.pingrespTimeout generalizing c with
  | zero => omega
  | succ n ih =>
    have hcalls : (⟨true,false,0,.inProgress,[]⟩ : Env).calls = [] := rfl
    obtain ⟨harmed,hlast,hdown⟩ := c.mqttTimer_pingresp hcalls hw hp
    by_cases h1 : c.pingrespTimeout = 1
    · exact ⟨[plainTick],_,.single (plainTick_step ha),hlast h1⟩
    · obtain ⟨hwait,hless⟩ := hdown h1
      obtain ⟨es,c',hrun,hstate⟩ := ih (harmed.trans ha) hwait (by omega) (by omega)
      exact ⟨plainTick::es,c',.cons (plainTick_step ha) hrun,hstate⟩

/-- After an error the client recovers by ticks and tasks alone if and only if the timer is
armed and no timeout is running when the error is reported. -/
theorem recovers_iff (c : Client) : Recovers c ↔ Recoverable c := by
  have hfields : timers (next c .recon) = timers c := rfl
  constructor
  · intro h
    have harmed : c.timerArmed = true := by
      obtain ⟨es,c',hes,hrun,hs⟩ := h.live [] _ (.nil _)
      cases hrun with
      | nil => exact absurd hs (show ConnState.tcpReconnectReq ≠ .tcpReconnect by decide)
      | @cons _ _ _ e es hstep _ =>
        have htick := hes e (by simp)
        cases e with
        | tick env => exact hstep.2.1
        | _ => exact absurd htick Bool.false_ne_true
    have hno : ¬∃ es c', Run IdleStep (next c .recon) es c' ∧
        c'.connState = .tcpReconnectDisconnecting := by
      rintro ⟨es,c',hrun,hs⟩
      exact stranded hs (h.live es c' hrun)
    refine ⟨harmed,?_,fun hw => ?_⟩
    · by_contra hs
      exact hno (sendTimeout_strands harmed (Nat.pos_of_ne_zero hs))
    · by_contra hp
      exact hno (pingrespTimeout_strands harmed hw (Nat.pos_of_ne_zero hp))
  · intro h
    have hrec : Reconnecting (next c .recon) := ⟨h.of_timers hfields,Or.inl rfl⟩
    refine ⟨fun es c' hrun => (hrec.run hrun).canReconnect,fun es c' hrun hlong => ?_⟩
    have hwait : wait (next c .recon) ≤ mqttReconnectTimeout+1 :=
      Nat.succ_le_succ (Nat.sub_le _ _)
    obtain ⟨es₁,es₂,c₁,heq,hlen,hrun₁,hs⟩ := hrec.enters hrun (hwait.trans hlong)
    exact ⟨es₁,es₂,c₁,heq,hlen.trans_le hwait,hrun₁,hs⟩

/-- An error behind a QoS 1 publish that was not acknowledged: the send timeout is running. -/
theorem recovers_fails :
    ¬∀ (es : List Event) (c : Client), Run Step exampleClient es c →
      c.connState ≠ .mqttDeleting → c.connState ≠ .mqttDeleted → Recovers c := by
  intro h
  let es : List Event := [.api (.connect .inProgress),.connected exampleEnv,.recv [0x20,2,0,0] exampleEnv,
    .api (.publish (some [0x62]) (some [0x79]) 1 0),.task exampleEnv]
  have hrun : Run Step exampleClient es (es.foldl next exampleClient) :=
    run_of_allEnabled (by decide)
  have hr := (recovers_iff _).mp (h es _ hrun (by decide +kernel) (by decide +kernel))
  exact absurd hr.send (by decide +kernel)

end MqttClient
end MeterLogger
