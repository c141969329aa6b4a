import MeterLogger.MqttDelivery

/-!
# What the client's functions leave alone

Outside the handlers for acknowledgements and the send from the queue, a function of the
client either leaves the receive buffer and the pending fields as they are or clears
them, and then it aborts the connection if there was one. No function but the connect
callback enters a state in which packets are handled.
-/

namespace MeterLogger
namespace MqttClient

open MessageQueue MqttMessage MqttUtils

/-- The states in which the client looks at the packets it receives. -/
def ConnState.receiving : ConnState → Bool
  | .mqttConnectSending => true
  | .mqttData => true
  | .mqttKeepaliveSend => true
  | _ => false

def handledBy : Action → Option (List UInt8)
  | .handled packet => some packet
  | _ => none

/-- The packets that reached the switch on their type. -/
def handledPackets (log : List Action) : List (List UInt8) := log.filterMap handledBy

@[simp] theorem handledPackets_append (xs ys : List Action) :
    handledPackets (xs ++ ys) = handledPackets xs ++ handledPackets ys := List.filterMap_append

/-- The receive buffer, the connection and the client's memory. -/
def wire (c : Client) : List UInt8 × Bool × Bool := (c.inBuffer,c.pCon,c.allocated)

/-- The fields that describe the message waiting for its acknowledgement. -/
def pending (c : Client) : ℕ × ℕ × ℕ × Bool :=
  (c.pendingMsgId,c.pendingMsgType,c.pendingPublishQos,c.isWaitingForAck)

/-- Receive buffer and pending fields are cleared. -/
structure Reset (c : Client) : Prop where
  inBuffer_eq : c.inBuffer = []
  isWaiting_eq : c.isWaitingForAck = false
  type_eq : c.pendingMsgType = 0

theorem Reset.of_eq {c c' : Client} (h : Reset c) (hw : wire c' = wire c)
    (hp : pending c' = pending c) : Reset c' := by
  simp only [wire,pending,Prod.mk.injEq] at hw hp
  exact ⟨hw.1.trans h.inBuffer_eq,hp.2.2.2.trans h.isWaiting_eq,hp.2.1.trans h.type_eq⟩

/-- What every function does to the log, the task queue and the connection state. `P` holds
of the packets it sends. -/
structure Tame (P : List UInt8 → Prop) (c c' : Client) (new : List Action) : Prop where
  log_eq : c'.log = c.log ++ new
  handled_eq : handledPackets new = []
  sends : ∀ packet, .send packet ∈ new → P packet
  posted_le : c.posted ≤ c'.posted
  receiving : c'.connState.receiving = true → c.connState.receiving = true
  allocated_eq : c'.allocated = c.allocated

/-- The receive buffer stays, or it is cleared and the connection is aborted. -/
def Keeps (P : List UInt8 → Prop) (c c' : Client) : Prop :=
  ∃ new, Tame P c c' new ∧
    (wire c' = wire c ∨ (c'.inBuffer = [] ∧ (c.pCon = true → .abort ∈ new)))

/-- Receive buffer and pending fields stay, or they are cleared and the connection is
aborted. -/
def Neutral (P : List UInt8 → Prop) (c c' : Client) : Prop :=
  ∃ new, Tame P c c' new ∧ ((wire c' = wire c ∧ pending c' = pending c) ∨
    (Reset c' ∧ (c.pCon = true → .abort ∈ new)))

theorem Tame.trans {P : List UInt8 → Prop} {c₁ c₂ c₃ : Client} {xs ys : List Action}
    (h₁ : Tame P c₁ c₂ xs) (h₂ : Tame P c₂ c₃ ys) : Tame P c₁ c₃ (xs ++ ys) where
  log_eq := by rw [h₂.log_eq,h₁.log_eq,List.append_assoc]
  handled_eq := by simp [h₁.handled_eq,h₂.handled_eq]
  sends packet hmem := (List.mem_append.mp hmem).elim (h₁.sends packet) (h₂.sends packet)
  posted_le := h₁.posted_le.trans h₂.posted_le
  receiving h := h₁.receiving (h₂.receiving h)
  allocated_eq := h₂.allocated_eq.trans h₁.allocated_eq

namespace Neutral

variable {P : List UInt8 → Prop} {c c' : Client}

theorem refl (c : Client) : Neutral P c c :=
  ⟨[],⟨by simp,rfl,by simp,Nat.le_refl _,id,rfl⟩,Or.inl ⟨rfl,rfl⟩⟩

theorem trans {c₁ c₂ c₃ : Client} (h₁ : Neutral P c₁ c₂) (h₂ : Neutral P c₂ c₃) :
    Neutral P c₁ c₃ := by
  obtain ⟨xs,hx,hfx⟩ := h₁
  obtain ⟨ys,hy,hfy⟩ := h₂
  refine ⟨xs ++ ys,hx.trans hy,?_⟩
  rcases hfx with ⟨hw,hp⟩ | ⟨hr,ha⟩
  · rcases hfy with ⟨hw',hp'⟩ | ⟨hr',ha'⟩
    · exact Or.inl ⟨hw'.trans hw,hp'.trans hp⟩
    · refine Or.inr ⟨hr',fun hpc => List.mem_append_right _ (ha' ?_)⟩
      simp only [wire,Prod.mk.injEq] at hw
      exact hw.2.1.trans hpc
  · have habort : c₁.pCon = true → .abort ∈ xs ++ ys := fun hpc => List.mem_append_left _ (ha hpc)
    rcases hfy with ⟨hw',hp'⟩ | ⟨hr',_⟩
    · exact Or.inr ⟨hr.of_eq hw' hp',habort⟩
    · exact Or.inr ⟨hr',habort⟩

theorem same (hw : wire c' = wire c) (hp : pending c' = pending c) (hl : c'.log = c.log)
    (hposted : c.posted ≤ c'.posted)
    (hr : c'.connState.receiving = true → c.connState.receiving = true) : Neutral P c c' :=
  ⟨[],⟨by simp [hl],rfl,by simp,hposted,hr,congrArg (fun w => w.2.2) hw⟩,Or.inl ⟨hw,hp⟩⟩

theorem keeps (h : Neutral P c c') : Keeps P c c' := by
  obtain ⟨new,hnew,hf⟩ := h
  exact ⟨new,hnew,hf.imp And.left fun h => ⟨h.1.inBuffer_eq,h.2⟩⟩

theorem mono {Q : List UInt8 → Prop} (h : Neutral P c c') (hpq : ∀ packet, P packet → Q packet) :
    Neutral Q c c' := by
  obtain ⟨new,hnew,hf⟩ := h
  exact ⟨new,⟨hnew.log_eq,hnew.handled_eq,fun p hp => hpq p (hnew.sends p hp),hnew.posted_le,
    hnew.receiving,hnew.allocated_eq⟩,hf⟩

end Neutral

theorem Keeps.trans {P : List UInt8 → Prop} {c₁ c₂ c₃ : Client} (h₁ : Keeps P c₁ c₂)
    (h₂ : Keeps P c₂ c₃) : Keeps P c₁ c₃ := by
  obtain ⟨xs,hx,hfx⟩ := h₁
  obtain ⟨ys,hy,hfy⟩ := h₂
  refine ⟨xs ++ ys,hx.trans hy,?_⟩
  rcases hfx with hw | ⟨hnil,ha⟩
  · refine hfy.imp (·.trans hw) fun ha' => ⟨ha'.1,fun hpc => List.mem_append_right _ (ha'.2 ?_)⟩
    simp only [wire,Prod.mk.injEq] at hw
    exact hw.2.1.trans hpc
  · refine Or.inr ⟨?_,fun hpc => List.mem_append_left _ (ha hpc)⟩
    rcases hfy with hw' | ⟨hnil',_⟩
    · simp only [wire,Prod.mk.injEq] at hw'
      exact hw'.1.trans hnil
    · exact hnil'

namespace Client

variable {P : List UInt8 → Prop}

theorem neutral_post (c : Client) : Neutral P c c.post :=
  .same rfl rfl rfl (Nat.le_succ _) id

theorem neutral_emit (c : Client) {a : Action} (hh : handledBy a = none)
    (hs : ∀ packet, a ≠ .send packet) : Neutral P c (c.emit a) := by
  refine ⟨[a],⟨rfl,by simp [handledPackets,hh],?_,Nat.le_refl _,id,rfl⟩,Or.inl ⟨rfl,rfl⟩⟩
  intro packet hmem
  exact absurd (List.mem_singleton.mp hmem).symm (hs packet)

theorem neutral_espconnSend (c : Client) (sendOk : Bool) {packet : List UInt8} (hp : P packet) :
    Neutral P c (c.espconnSend sendOk packet).1 := by
  unfold espconnSend
  split
  · refine ⟨[.send packet],⟨rfl,rfl,?_,Nat.le_refl _,id,rfl⟩,Or.inl ⟨rfl,rfl⟩⟩
    intro p hmem
    cases List.mem_singleton.mp hmem
    exact hp
  · exact .refl c

theorem neutral_espconnDisconnect (c : Client) : Neutral P c c.espconnDisconnect := by
  unfold espconnDisconnect
  split
  · exact .refl c
  · exact c.neutral_emit rfl (by simp)

theorem neutral_mqttTcpclientDelete (c : Client) : Neutral P c c.mqttTcpclientDelete := by
  unfold mqttTcpclientDelete
  simp only
  split
  · exact ⟨[.abort],⟨rfl,rfl,by simp,Nat.le_refl _,id,rfl⟩,Or.inr ⟨⟨rfl,rfl,rfl⟩,by simp⟩⟩
  · rename_i hpc
    exact ⟨[],⟨by simp,rfl,by simp,Nat.le_refl _,id,rfl⟩,
      Or.inr ⟨⟨rfl,rfl,rfl⟩,fun h => absurd h hpc⟩⟩

theorem neutral_mqttDnsFound (c : Client) (addr : Option ℕ) : Neutral P c (c.mqttDnsFound addr) := by
  unfold mqttDnsFound
  cases addr with
  | none => exact .same rfl rfl rfl (Nat.le_refl _) (fun h => absurd h Bool.false_ne_true)
  | some addr =>
    simp only
    split
    · split
      · exact .refl c
      · have hconnect : Neutral P c (if c.security then c else c.emit (.connect (ipBytes addr))) := by
          split
          · exact .refl c
          · exact c.neutral_emit rfl (by simp)
        refine hconnect.trans ?_
        exact .same rfl rfl rfl (Nat.le_succ _) (fun h => absurd h Bool.false_ne_true)
    · exact c.neutral_post

theorem neutral_mqttConnect (c : Client) (dns : DnsOutcome) : Neutral P c (c.mqttConnect dns) := by
  unfold mqttConnect
  cases hh : c.host with
  | none => exact .refl c
  | some host =>
    simp only
    split
    · exact .refl c
    · have hdel : Neutral P c (if c.pCon then c.mqttTcpclientDelete else c) := by
        split
        · exact c.neutral_mqttTcpclientDelete
        · exact .refl c
      have hpc : (if c.pCon then c.mqttTcpclientDelete else c).pCon = false := by
        cases hp : c.pCon <;> simp [mqttTcpclientDelete,emit,hp]
      refine hdel.trans ?_
      generalize (if c.pCon then c.mqttTcpclientDelete else c) = d at hpc
      have hset : ∀ d' : Client, ∀ new, d'.log = d.log ++ new → handledPackets new = [] →
          (∀ packet, .send packet ∉ new) → d.posted ≤ d'.posted → Reset d' →
          (d'.connState.receiving = true → d.connState.receiving = true) →
          d'.allocated = d.allocated → Neutral P d d' :=
        fun d' new hl hn hs hp hreset hr ha =>
          ⟨new,⟨hl,hn,fun p hmem => absurd hmem (hs p),hp,hr,ha⟩,
            Or.inr ⟨hreset,fun h => absurd (hpc.symm.trans h) Bool.false_ne_true⟩⟩
      cases utilsStrToIP host with
      | some ip =>
        simp only
        split
        · exact hset _ [] (by simp) rfl (by simp) (Nat.le_refl _) ⟨rfl,rfl,rfl⟩
            (fun h => absurd h Bool.false_ne_true) rfl
        · exact hset _ [.connect ip] rfl rfl (by simp) (Nat.le_refl _) ⟨rfl,rfl,rfl⟩
            (fun h => absurd h Bool.false_ne_true) rfl
      | none =>
        cases dns with
        | ok addr =>
          refine Neutral.trans ?_ (neutral_mqttDnsFound _ (some addr))
          exact hset _ [.resolve host] rfl rfl (by simp) (Nat.le_refl _) ⟨rfl,rfl,rfl⟩ id rfl
        | inProgress =>
          exact hset _ [.resolve host] rfl rfl (by simp) (Nat.le_succ _) ⟨rfl,rfl,rfl⟩
            (fun h => absurd h Bool.false_ne_true) rfl
        | failed =>
          exact hset _ [.resolve host] rfl rfl (by simp) (Nat.le_succ _) ⟨rfl,rfl,rfl⟩
            (fun h => absurd h Bool.false_ne_true) rfl

theorem neutral_queueMessage (c : Client) (built : Built) :
    Neutral P c (c.queueMessage built).1 := by
  unfold queueMessage
  cases built.message with
  | none => exact .same rfl rfl rfl (Nat.le_refl _) id
  | some packet =>
    simp only
    split
    · exact .same rfl rfl rfl (Nat.le_refl _) id
    · exact ⟨[.accept packet],⟨rfl,rfl,by simp,Nat.le_succ _,id,rfl⟩,Or.inl ⟨rfl,rfl⟩⟩

theorem neutral_runCall (c : Client) (call : ApiCall) : Neutral P c (c.runCall call) := by
  cases call with
  | publish topic data qos retain =>
    show Neutral P c (c.mqttPublish topic data qos retain).1
    unfold mqttPublish
    split
    · split
      · exact .refl c
      · exact c.neutral_queueMessage _
    · exact .refl c
  | subscribe topic qos =>
    show Neutral P c (c.mqttSubscribe topic qos).1
    unfold mqttSubscribe
    split
    · split
      · exact .refl c
      · exact c.neutral_queueMessage _
    · exact .refl c
  | unSubscribe topic =>
    show Neutral P c (c.mqttUnSubscribe topic).1
    unfold mqttUnSubscribe
    split
    · split
      · exact .refl c
      · exact c.neutral_queueMessage _
    · exact .refl c
  | ping =>
    show Neutral P c c.mqttPing.1
    unfold mqttPing
    split
    · exact .refl c
    · exact c.neutral_queueMessage _
  | connect dns => exact c.neutral_mqttConnect dns
  | disconnect => exact .same rfl rfl rfl (Nat.le_succ _) (fun h => absurd h Bool.false_ne_true)
  | deleteClient => exact .same rfl rfl rfl (Nat.le_succ _) (fun h => absurd h Bool.false_ne_true)

theorem neutral_runCalls (c : Client) (calls : List ApiCall) : Neutral P c (c.runCalls calls) := by
  induction calls generalizing c with
  | nil => exact .refl c
  | cons call calls ih => exact (c.neutral_runCall call).trans (ih _)

theorem neutral_invoke (c : Client) (cb : Callback) (calls : List ApiCall) :
    Neutral P c (c.invoke cb calls) := by
  unfold invoke
  split
  · exact (c.neutral_emit rfl (by simp)).trans (neutral_runCalls _ calls)
  · exact .refl c

theorem neutral_mqttSendDirect (c : Client) (sendOk : Bool) {message : Option (List UInt8)}
    (hp : ∀ packet, message = some packet → P packet) :
    Neutral P c (c.mqttSendDirect sendOk message) := by
  have hdown : ∀ d : Client, ∀ state : ConnState, state.receiving = false →
      Neutral P d (post { d with connState := state }) := fun d state hs =>
    .same rfl rfl rfl (Nat.le_succ _) (fun h => absurd (hs.symm.trans h) Bool.false_ne_true)
  unfold mqttSendDirect
  split
  · exact hdown c _ rfl
  · cases message with
    | none => exact hdown c _ rfl
    | some packet =>
      have hsend := c.neutral_espconnSend sendOk (hp packet rfl)
      simp only
      split
      · exact hsend
      · exact hsend.trans (hdown _ _ rfl)

theorem neutral_sendBuilt (c : Client) {built : Built} (sendOk : Bool)
    (hp : ∀ packet, built.message = some packet → P packet) :
    Neutral P c (c.sendBuilt built sendOk) := by
  refine Neutral.trans ?_ (neutral_mqttSendDirect _ sendOk hp)
  exact .same rfl rfl rfl (Nat.le_refl _) id

theorem neutral_mqttTcpclientSentCb (c : Client) (env : Env) :
    Neutral P c (c.mqttTcpclientSentCb env) := by
  unfold mqttTcpclientSentCb
  refine Neutral.trans ?_ (neutral_post _)
  simp only
  split
  · split
    · refine Neutral.trans ?_ (neutral_invoke _ .published env.calls)
      exact .same rfl rfl rfl (Nat.le_refl _) id
    · exact .same rfl rfl rfl (Nat.le_refl _) id
  · exact .same rfl rfl rfl (Nat.le_refl _) id

theorem neutral_timerConnState (c : Client) (env : Env) : Neutral P c (c.timerConnState env) := by
  have hdown : ∀ d : Client, wire d = wire c → pending d = pending c → d.log = c.log →
      d.posted = c.posted+1 → d.connState = .tcpReconnect →
      Neutral P c (d.invoke .timeout env.calls) := by
    intro d hw hp hl hposted hstate
    refine Neutral.trans ?_ (neutral_invoke d .timeout env.calls)
    exact .same hw hp hl (by omega) (fun h => by rw [hstate] at h; exact absurd h (by decide))
  unfold timerConnState
  cases hstate : c.connState with
  | mqttData =>
    simp only
    split
    · exact .same rfl rfl rfl (Nat.le_succ _) (fun _ => by rw [hstate]; rfl)
    · exact .same rfl rfl rfl (Nat.le_refl _) (fun _ => by rw [hstate]; rfl)
  | tcpReconnectReq =>
    simp only
    split
    · exact hdown _ rfl rfl rfl rfl rfl
    · exact .same rfl rfl rfl (Nat.le_refl _) (fun h => absurd h Bool.false_ne_true)
  | tcpConnecting =>
    simp only
    split
    · exact hdown _ rfl rfl rfl rfl rfl
    · exact .same rfl rfl rfl (Nat.le_refl _) (fun h => absurd h Bool.false_ne_true)
  | _ => exact .refl c

theorem neutral_timerPingresp (c : Client) : Neutral P c c.timerPingresp := by
  unfold timerPingresp
  split
  · simp only
    split
    · exact .same rfl rfl rfl (Nat.le_succ _) (fun h => absurd h Bool.false_ne_true)
    · exact .same rfl rfl rfl (Nat.le_refl _) id
  · exact .refl c

theorem neutral_timerSend (c : Client) : Neutral P c c.timerSend := by
  unfold timerSend
  split
  · simp only
    split
    · exact .same rfl rfl rfl (Nat.le_succ _) (fun h => absurd h Bool.false_ne_true)
    · exact .same rfl rfl rfl (Nat.le_refl _) id
  · exact .refl c

theorem neutral_mqttTimer (c : Client) (env : Env) : Neutral P c (c.mqttTimer env) :=
  (c.neutral_timerConnState env).trans ((neutral_timerPingresp _).trans (neutral_timerSend _))

theorem espconnSend_connState (c : Client) (sendOk : Bool) (packet : List UInt8) :
    (c.espconnSend sendOk packet).1.connState = c.connState := by
  unfold espconnSend
  split <;> rfl

theorem neutral_keepaliveSent (r : Client × Bool) (hr : r.1.connState.receiving = true) :
    Neutral P r.1 (keepaliveSent r) := by
  unfold keepaliveSent
  split
  · exact .same rfl rfl rfl (Nat.le_succ _) (fun _ => hr)
  · exact .same rfl rfl rfl (Nat.le_succ _) (fun h => absurd h Bool.false_ne_true)

theorem neutral_mqttSendKeepalive (c : Client) (sendOk : Bool)
    (hr : c.connState.receiving = true)
    (hp : ∀ packet, (mqttMsgPingreq c.mqttConnection).message = some packet → P packet) :
    Neutral P c (c.mqttSendKeepalive sendOk) := by
  unfold mqttSendKeepalive
  split
  · exact .refl c
  · split
    · exact .same rfl rfl rfl (Nat.le_succ _) (fun _ => hr)
    · have hstart : Neutral P c { c with mqttConnection := initMessage c.mqttConnection } :=
        .same rfl rfl rfl (Nat.le_refl _) id
      have hsend := hstart.trans (neutral_espconnSend _ sendOk (hp _ rfl))
      exact hsend.trans (neutral_keepaliveSent _ (by rw [espconnSend_connState]; exact hr))

theorem keeps_finishPending (c : Client) (env : Env) : Keeps P c (c.finishPending env) := by
  refine ⟨((queueGets c.msgQueue mqttBufSize env.isBegin).2.map Action.release).toList,
    ⟨rfl,?_,?_,Nat.le_refl _,id,rfl⟩,Or.inl rfl⟩
  · cases (queueGets c.msgQueue mqttBufSize env.isBegin).2 <;> rfl
  · cases (queueGets c.msgQueue mqttBufSize env.isBegin).2 <;> simp

theorem keeps_handleAck (pendingType : ℕ) (c : Client) (msgId : ℕ) (env : Env) :
    Keeps P c (handleAck pendingType c msgId env) := by
  unfold handleAck
  split
  · exact c.keeps_finishPending env
  · exact (Neutral.refl c).keeps

theorem neutral_handlePublish (c : Client) (packet : List UInt8) (env : Env)
    (hp : ∀ type id p, type = pubackType ∨ type = pubrecType →
      (mqttMsgAck type 0 c.mqttConnection id).message = some p → P p) :
    Neutral P c (c.handlePublish packet env) := by
  unfold handlePublish
  refine Neutral.trans ?_ (neutral_invoke _ _ env.calls)
  split
  · exact c.neutral_sendBuilt env.sendOk fun p => hp _ _ p (Or.inl rfl)
  · split
    · exact c.neutral_sendBuilt env.sendOk fun p => hp _ _ p (Or.inr rfl)
    · exact .refl c

theorem keeps_handlePubrec (c : Client) (msgId : ℕ) (env : Env) :
    Keeps (fun _ => True) c (c.handlePubrec msgId env) := by
  unfold handlePubrec
  split
  · refine Keeps.trans ?_ (neutral_sendBuilt _ env.sendOk fun _ _ => trivial).keeps
    exact ⟨[],⟨by simp,rfl,by simp,Nat.le_refl _,id,rfl⟩,Or.inl rfl⟩
  · exact (Neutral.refl c).keeps

theorem keeps_handlePingresp (c : Client) (env : Env) : Keeps P c (c.handlePingresp env) := by
  unfold handlePingresp
  refine Keeps.trans ?_ (neutral_invoke _ .pingresp env.calls).keeps
  have hstart : Neutral P c { c with keepAliveTick := 0 } :=
    .same rfl rfl rfl (Nat.le_refl _) id
  simp only
  split
  · refine Neutral.keeps ?_
    exact .same rfl rfl rfl (Nat.le_refl _) id
  · split
    · exact hstart.keeps.trans (keeps_finishPending _ env)
    · exact hstart.keeps

/-- The switch on the message type handles its packet and keeps the receive buffer. -/
theorem keeps_handleMessage (c : Client) (packet : List UInt8) (env : Env) :
    Keeps (fun _ => True) (c.emit (.handled packet)) (c.handleMessage packet env) := by
  unfold handleMessage
  simp only
  split
  · exact keeps_handleAck _ _ _ env
  · split
    · exact keeps_handleAck _ _ _ env
    · split
      · exact (neutral_handlePublish _ packet env fun _ _ _ _ _ => trivial).keeps
      · split
        · exact keeps_handleAck _ _ _ env
        · split
          · exact keeps_handlePubrec _ _ env
          · split
            · exact (neutral_sendBuilt _ env.sendOk fun _ _ => trivial).keeps
            · split
              · exact keeps_handleAck _ _ _ env
              · split
                · exact (neutral_sendBuilt _ env.sendOk fun _ _ => trivial).keeps
                · split
                  · exact keeps_handlePingresp _ env
                  · exact (Neutral.refl _).keeps

theorem keeps_sendQueued (c : Client) (queue : Queue) (packet : List UInt8) (env : Env) :
    Keeps (fun _ => True) c (c.sendQueued queue packet env) := by
  unfold sendQueued
  simp only [queuedSent_espconnSend]
  split
  · split
    · exact ⟨[.send packet],⟨rfl,rfl,fun _ _ => trivial,Nat.le_refl _,id,rfl⟩,Or.inl rfl⟩
    · exact ⟨[.send packet,.release packet],⟨by simp [emit],rfl,fun _ _ => trivial,Nat.le_refl _,id,rfl⟩,
        Or.inl rfl⟩
  · exact ⟨[],⟨by simp [post],rfl,fun _ _ => trivial,Nat.le_succ _,
      fun h => absurd h Bool.false_ne_true,rfl⟩,Or.inl rfl⟩

theorem keeps_taskData (c : Client) (env : Env) : Keeps (fun _ => True) c (c.taskData env) := by
  unfold taskData
  split
  · exact (Neutral.refl c).keeps
  · split
    · exact (Neutral.refl c).keeps
    · split
      · exact (Neutral.refl c).keeps
      · simp only
        split
        · refine Neutral.keeps ?_
          exact .same rfl rfl rfl (Nat.le_refl _) id
        · exact c.keeps_sendQueued _ _ env

end Client

end MqttClient
end MeterLogger
