import MeterLogger.MqttClient
import MeterLogger.QueuedPackets

/-!
# What keeps a message in the queue

The queue of the client holds the packets accepted and not yet released. A packet that
needs an acknowledgement stays at the head while the pending fields describe it; the
handlers for acknowledgements drop the head when these fields match. The fields also
stay set behind a QoS 0 publish, and the QoS is never compared. The condition under
which the head is only dropped by its own acknowledgement is `AckSound`.
-/

namespace MeterLogger
namespace MqttClient

open MessageQueue MqttMessage MqttUtils Runs

def acceptedBy : Action → Option (List UInt8)
  | .accept packet => some packet
  | _ => none

def releasedBy : Action → Option (List UInt8)
  | .release packet => some packet
  | _ => none

/-- The packets for which a call of the application returned `TRUE`. -/
def accepted (log : List Action) : List (List UInt8) := log.filterMap acceptedBy

def released (log : List Action) : List (List UInt8) := log.filterMap releasedBy

@[simp] theorem accepted_append (xs ys : List Action) :
    accepted (xs ++ ys) = accepted xs ++ accepted ys := List.filterMap_append

@[simp] theorem released_append (xs ys : List Action) :
    released (xs ++ ys) = released xs ++ released ys := List.filterMap_append

def newActions (c c' : Client) : List Action := c'.log.drop c.log.length

theorem newActions_eq {c c' : Client} {new : List Action} (h : c'.log = c.log ++ new) :
    newActions c c' = new := by
  simp [newActions,h]

theorem mem_released {new : List Action} {packet : List UInt8}
    (h : Action.release packet ∈ new) : packet ∈ released new :=
  List.mem_filterMap.mpr ⟨_,h,rfl⟩

/-- The pending fields describe `packet`; after its PUBREC a QoS 2 publish is waiting for
PUBCOMP. -/
structure InFlight (c : Client) (packet : List UInt8) : Prop where
  requires : requiresAck packet = true
  qos_eq : c.pendingPublishQos = mqttGetQos packet
  id_eq : c.pendingMsgId = mqttGetId packet packet.length
  type_eq : c.pendingMsgType = mqttGetType packet ∨
    (c.pendingMsgType = pubrelType ∧ mqttGetType packet = publishType ∧
      mqttGetQos packet = 2 ∧ c.pendingMsgId ≠ 0)

/-- The queue holds `packets`, and while the client waits for an acknowledgement (other
than CONNACK) the first of them is in flight. What a QoS 0 publish leaves in the pending
fields is the type, with id 0. -/
structure Held (c : Client) (packets : List (List UInt8)) : Prop where
  represents : Represents c.msgQueue packets
  bufferLength_eq : c.mqttConnection.bufferLength = mqttBufSize
  queueable : ∀ p ∈ packets, Queueable p
  inFlight : c.isWaitingForAck = true → c.pendingMsgType = connectType ∨
    ∃ head rest, packets = head::rest ∧ InFlight c head
  idle : c.isWaitingForAck = false → (c.pendingMsgType = publishType → c.pendingMsgId = 0) ∧
    c.pendingMsgType ∉ [subscribeType,unsubscribeType,pubrelType,pingreqType]

/-- The fields `Held` speaks of. -/
def view (c : Client) : Queue × ℕ × ℕ × ℕ × ℕ × Bool :=
  (c.msgQueue,c.mqttConnection.bufferLength,c.pendingMsgId,c.pendingMsgType,
    c.pendingPublishQos,c.isWaitingForAck)

theorem InFlight.of_view {c c' : Client} {packet : List UInt8} (h : InFlight c packet)
    (hv : view c' = view c) : InFlight c' packet := by
  simp only [view,Prod.mk.injEq] at hv
  obtain ⟨_,_,hi,ht,hp,_⟩ := hv
  exact ⟨h.requires,hp.trans h.qos_eq,hi.trans h.id_eq,by rw [ht,hi]; exact h.type_eq⟩

namespace Held

variable {c c' : Client} {packets : List (List UInt8)}

theorem of_view (h : Held c packets) (hv : view c' = view c) : Held c' packets := by
  have hv' := hv
  simp only [view,Prod.mk.injEq] at hv'
  obtain ⟨hq,hb,hi,ht,_,hw⟩ := hv'
  refine ⟨hq ▸ h.represents,hb.trans h.bufferLength_eq,h.queueable,?_,?_⟩
  · rw [hw,ht]
    intro hwait
    rcases h.inFlight hwait with hc | ⟨head,rest,heq,hf⟩
    · exact Or.inl hc
    · exact Or.inr ⟨head,rest,heq,hf.of_view hv⟩
  · rw [hw,ht,hi]
    exact h.idle

theorem cleared (h : Held c packets) (hq : c'.msgQueue = c.msgQueue)
    (hb : c'.mqttConnection.bufferLength = c.mqttConnection.bufferLength)
    (hw : c'.isWaitingForAck = false) (ht : c'.pendingMsgType = 0) : Held c' packets where
  represents := hq ▸ h.represents
  bufferLength_eq := hb.trans h.bufferLength_eq
  queueable := h.queueable
  inFlight hwait := absurd (hw.symm.trans hwait) (by decide)
  idle _ := by rw [ht]; exact ⟨fun he => absurd he (by decide),by decide⟩

theorem connecting (h : Held c packets) (hq : c'.msgQueue = c.msgQueue)
    (hb : c'.mqttConnection.bufferLength = mqttBufSize)
    (ht : c'.pendingMsgType = connectType) : Held c' packets where
  represents := hq ▸ h.represents
  bufferLength_eq := hb
  queueable := h.queueable
  inFlight _ := Or.inl ht
  idle _ := by rw [ht]; exact ⟨fun he => absurd he (by decide),by decide⟩

theorem extend (h : Held c packets) {new : List (List UInt8)} (hnew : ∀ p ∈ new, Queueable p)
    (hr : Represents c'.msgQueue (packets ++ new))
    (hb : c'.mqttConnection.bufferLength = mqttBufSize)
    (hi : c'.pendingMsgId = c.pendingMsgId) (ht : c'.pendingMsgType = c.pendingMsgType)
    (hqos : c'.pendingPublishQos = c.pendingPublishQos)
    (hw : c'.isWaitingForAck = c.isWaitingForAck) : Held c' (packets ++ new) where
  represents := hr
  bufferLength_eq := hb
  queueable p hmem := (List.mem_append.mp hmem).elim (h.queueable p) (hnew p)
  inFlight hwait := by
    rw [hw] at hwait
    rw [ht]
    rcases h.inFlight hwait with hc | ⟨head,rest,rfl,hf⟩
    · exact Or.inl hc
    · exact Or.inr ⟨head,rest ++ new,rfl,hf.requires,hqos.trans hf.qos_eq,hi.trans hf.id_eq,
        by rw [ht,hi]; exact hf.type_eq⟩
  idle hwait := by
    rw [hw] at hwait
    rw [ht,hi]
    exact h.idle hwait

end Held

/-- Packets are accepted, none is released, and nothing but the wait for a PUBCOMP that was
there before is left. -/
structure GrowsBy (c c' : Client) (new : List Action) : Prop where
  log_eq : c'.log = c.log ++ new
  released_eq : released new = []
  held : ∀ packets, Held c packets → Held c' (packets ++ accepted new)
  pubrel : c'.pendingMsgType = pubrelType →
    c.pendingMsgType = pubrelType ∧ c'.pendingMsgId = c.pendingMsgId

def Grows (c c' : Client) : Prop := ∃ new, GrowsBy c c' new

theorem Grows.refl (c : Client) : Grows c c :=
  ⟨[],by simp,rfl,fun packets h => by simpa [accepted] using h,fun h => ⟨h,rfl⟩⟩

theorem Grows.trans {c₁ c₂ c₃ : Client} (h₁ : Grows c₁ c₂) (h₂ : Grows c₂ c₃) : Grows c₁ c₃ := by
  obtain ⟨xs,hx⟩ := h₁
  obtain ⟨ys,hy⟩ := h₂
  refine ⟨xs ++ ys,?_,?_,?_,?_⟩
  · rw [hy.log_eq,hx.log_eq,List.append_assoc]
  · simp [hx.released_eq,hy.released_eq]
  · intro packets hheld
    rw [accepted_append,← List.append_assoc]
    exact hy.held _ (hx.held _ hheld)
  · intro h
    obtain ⟨h₂,hid₂⟩ := hy.pubrel h
    obtain ⟨h₁,hid₁⟩ := hx.pubrel h₂
    exact ⟨h₁,hid₂.trans hid₁⟩

/-- Actions other than accepting and releasing. -/
def Quiet (new : List Action) : Prop := accepted new = [] ∧ released new = []

theorem Grows.of_view {c c' : Client} (new : List Action) (hv : view c' = view c)
    (hl : c'.log = c.log ++ new) (hquiet : Quiet new) : Grows c c' := by
  refine ⟨new,hl,hquiet.2,fun packets h => ?_,?_⟩
  · rw [hquiet.1,List.append_nil]
    exact h.of_view hv
  · simp only [view,Prod.mk.injEq] at hv
    obtain ⟨_,_,hi,ht,_⟩ := hv
    exact fun h => ⟨ht.symm.trans h,hi⟩

theorem Grows.same {c c' : Client} (hv : view c' = view c) (hl : c'.log = c.log) : Grows c c' :=
  .of_view [] hv (by simp [hl]) ⟨rfl,rfl⟩

theorem Grows.cleared {c c' : Client} (new : List Action) (hl : c'.log = c.log ++ new)
    (hquiet : Quiet new) (hq : c'.msgQueue = c.msgQueue)
    (hb : c'.mqttConnection.bufferLength = c.mqttConnection.bufferLength)
    (hw : c'.isWaitingForAck = false) (ht : c'.pendingMsgType = 0) : Grows c c' := by
  refine ⟨new,hl,hquiet.2,fun packets h => ?_,fun h => ?_⟩
  · rw [hquiet.1,List.append_nil]
    exact h.cleared hq hb hw ht
  · exact absurd (ht.symm.trans h) (by decide)

namespace Client

theorem grows_post (c : Client) : Grows c c.post := .same rfl rfl

theorem grows_emit (c : Client) {a : Action} (ha : Quiet [a]) : Grows c (c.emit a) :=
  .of_view [a] rfl rfl ha

theorem grows_espconnSend (c : Client) (sendOk : Bool) (packet : List UInt8) :
    Grows c (c.espconnSend sendOk packet).1 := by
  unfold espconnSend
  split
  · exact c.grows_emit ⟨rfl,rfl⟩
  · exact .refl c

theorem grows_espconnDisconnect (c : Client) : Grows c c.espconnDisconnect := by
  unfold espconnDisconnect
  split
  · exact .refl c
  · exact c.grows_emit ⟨rfl,rfl⟩

theorem grows_mqttTcpclientDelete (c : Client) : Grows c c.mqttTcpclientDelete := by
  unfold mqttTcpclientDelete
  simp only
  split
  · exact .cleared [.abort] rfl ⟨rfl,rfl⟩ rfl rfl rfl rfl
  · exact .cleared [] (by simp) ⟨rfl,rfl⟩ rfl rfl rfl rfl

theorem grows_mqttDnsFound (c : Client) (addr : Option ℕ) : Grows c (c.mqttDnsFound addr) := by
  unfold mqttDnsFound
  cases addr with
  | none => exact .same rfl rfl
  | some addr =>
    simp only
    split
    · split
      · exact .refl c
      · split
        · exact .same rfl rfl
        · exact .of_view [_] rfl rfl ⟨rfl,rfl⟩
    · exact c.grows_post

theorem grows_mqttConnect (c : Client) (dns : DnsOutcome) : Grows c (c.mqttConnect dns) := by
  unfold mqttConnect
  cases hh : c.host with
  | none => exact .refl c
  | some host =>
    simp only
    split
    · exact .refl c
    · have hdel : Grows c (if c.pCon then c.mqttTcpclientDelete else c) := by
        split
        · exact c.grows_mqttTcpclientDelete
        · exact .refl c
      refine hdel.trans ?_
      generalize (if c.pCon then c.mqttTcpclientDelete else c) = d
      cases utilsStrToIP host with
      | some ip =>
        simp only
        split
        · exact .cleared [] (by simp) ⟨rfl,rfl⟩ rfl rfl rfl rfl
        · exact .cleared [.connect ip] rfl ⟨rfl,rfl⟩ rfl rfl rfl rfl
      | none =>
        cases dns with
        | ok addr =>
          refine Grows.trans ?_ (grows_mqttDnsFound _ (some addr))
          exact .cleared [.resolve host] rfl ⟨rfl,rfl⟩ rfl rfl rfl rfl
        | inProgress => exact .cleared [.resolve host] rfl ⟨rfl,rfl⟩ rfl rfl rfl rfl
        | failed => exact .cleared [.resolve host] rfl ⟨rfl,rfl⟩ rfl rfl rfl rfl

theorem queueMessage_pending (c : Client) (built : Built) :
    (c.queueMessage built).1.pendingMsgType = c.pendingMsgType ∧
      (c.queueMessage built).1.pendingMsgId = c.pendingMsgId := by
  unfold queueMessage
  cases built.message with
  | none => exact ⟨rfl,rfl⟩
  | some packet =>
    simp only
    split
    · exact ⟨rfl,rfl⟩
    · exact ⟨rfl,rfl⟩

theorem grows_queueMessage (c : Client) {built : Built}
    (h : c.mqttConnection.bufferLength = mqttBufSize → Queues built) :
    Grows c (c.queueMessage built).1 := by
  obtain ⟨ht,hi⟩ := c.queueMessage_pending built
  have hpend : (c.queueMessage built).1.pendingMsgType = pubrelType →
      c.pendingMsgType = pubrelType ∧ (c.queueMessage built).1.pendingMsgId = c.pendingMsgId :=
    fun hrel => ⟨ht.symm.trans hrel,hi⟩
  cases hm : built.message with
  | none =>
    refine ⟨[],by simp [queueMessage,hm],rfl,fun packets hheld => ?_,hpend⟩
    have hq := h hheld.bufferLength_eq
    have hv : view (c.queueMessage built).1 = view c := by
      simp [queueMessage,hm,view,hq.bufferLength_eq,hheld.bufferLength_eq]
    simpa [accepted] using hheld.of_view hv
  | some packet =>
    by_cases hr : (queuePuts c.msgQueue packet).2 = -1
    · refine ⟨[],by simp [queueMessage,hm,hr],rfl,fun packets hheld => ?_,hpend⟩
      have hq := h hheld.bufferLength_eq
      have hroom := (queuePuts_ret_iff hheld.represents (hq.bounded packet hm)).mp hr
      have hrep := (queuePuts_full hheld.represents hroom).2.2
      simp only [queueMessage,hm,hr,if_true]
      refine hheld.extend (by simp [accepted]) ?_ hq.bufferLength_eq rfl rfl rfl rfl
      simpa [accepted] using hrep
    · refine ⟨[.accept packet],by simp [queueMessage,hm,hr,post,emit],rfl,fun packets hheld => ?_,
        hpend⟩
      have hq := h hheld.bufferLength_eq
      have hroom := mt (queuePuts_ret_iff hheld.represents (hq.bounded packet hm)).mpr hr
      have hrep := (queuePuts_room hheld.represents (hq.bounded packet hm) (by omega)).2.2
      have hnew : ∀ p ∈ [packet], Queueable p := by simpa using hq.queueable packet hm
      simp only [queueMessage,hm,hr,if_false]
      exact hheld.extend hnew hrep hq.bufferLength_eq rfl rfl rfl rfl

theorem grows_runCall (c : Client) (call : ApiCall) : Grows c (c.runCall call) := by
  cases call with
  | publish topic data qos retain =>
    show Grows c (c.mqttPublish topic data qos retain).1
    unfold mqttPublish
    split
    · split
      · exact .refl c
      · exact c.grows_queueMessage fun hb => queues_publish hb _ _ (by omega) _
    · exact .refl c
  | subscribe topic qos =>
    show Grows c (c.mqttSubscribe topic qos).1
    unfold mqttSubscribe
    split
    · split
      · exact .refl c
      · exact c.grows_queueMessage fun hb => queues_subscribe hb _ _
    · exact .refl c
  | unSubscribe topic =>
    show Grows c (c.mqttUnSubscribe topic).1
    unfold mqttUnSubscribe
    split
    · split
      · exact .refl c
      · exact c.grows_queueMessage fun hb => queues_unsubscribe hb _
    · exact .refl c
  | ping =>
    show Grows c c.mqttPing.1
    unfold mqttPing
    split
    · exact .refl c
    · exact c.grows_queueMessage fun hb => queues_pingreq hb
  | connect dns => exact c.grows_mqttConnect dns
  | disconnect => exact .same rfl rfl
  | deleteClient => exact .same rfl rfl

theorem grows_runCalls (c : Client) (calls : List ApiCall) : Grows c (c.runCalls calls) := by
  induction calls generalizing c with
  | nil => exact .refl c
  | cons call calls ih => exact (c.grows_runCall call).trans (ih _)

theorem grows_invoke (c : Client) (cb : Callback) (calls : List ApiCall) :
    Grows c (c.invoke cb calls) := by
  unfold invoke
  split
  · exact (c.grows_emit ⟨rfl,rfl⟩).trans (grows_runCalls _ calls)
  · exact .refl c

theorem grows_mqttSendDirect (c : Client) (sendOk : Bool) (message : Option (List UInt8)) :
    Grows c (c.mqttSendDirect sendOk message) := by
  unfold mqttSendDirect
  split
  · exact .same rfl rfl
  · cases message with
    | none => exact .same rfl rfl
    | some packet =>
      simp only
      split
      · exact c.grows_espconnSend sendOk packet
      · exact (c.grows_espconnSend sendOk packet).trans (.same rfl rfl)

theorem grows_sendBuilt (c : Client) {built : Built} (sendOk : Bool)
    (h : built.connection.bufferLength = c.mqttConnection.bufferLength) :
    Grows c (c.sendBuilt built sendOk) := by
  refine Grows.trans ?_ (grows_mqttSendDirect _ sendOk built.message)
  exact .same (by simp [view,h]) rfl

theorem grows_mqttTcpclientSentCb (c : Client) (env : Env) :
    Grows c (c.mqttTcpclientSentCb env) := by
  unfold mqttTcpclientSentCb
  refine Grows.trans ?_ (grows_post _)
  simp only
  split
  · split
    · refine Grows.trans ?_ (grows_invoke _ .published env.calls)
      exact .same rfl rfl
    · exact .same rfl rfl
  · exact .same rfl rfl

theorem grows_mqttTcpclientDisconCb (c : Client) (env : Env) :
    Grows c (c.mqttTcpclientDisconCb env) := by
  unfold mqttTcpclientDisconCb
  refine Grows.trans ?_ (grows_post _)
  refine Grows.trans ?_ (grows_invoke _ .disconnected env.calls)
  exact .cleared [] (by simp) ⟨rfl,rfl⟩ rfl rfl rfl rfl

theorem grows_timerConnState (c : Client) (env : Env) : Grows c (c.timerConnState env) := by
  unfold timerConnState
  split
  · simp only
    split
    · exact .same rfl rfl
    · exact .same rfl rfl
  · simp only
    split
    · refine Grows.trans ?_ (grows_invoke _ .timeout env.calls)
      exact .same rfl rfl
    · exact .same rfl rfl
  · simp only
    split
    · refine Grows.trans ?_ (grows_invoke _ .timeout env.calls)
      exact .same rfl rfl
    · exact .same rfl rfl
  · exact .refl c

theorem grows_timerPingresp (c : Client) : Grows c c.timerPingresp := by
  unfold timerPingresp
  split
  · simp only
    split
    · exact .same rfl rfl
    · exact .same rfl rfl
  · exact .refl c

theorem grows_timerSend (c : Client) : Grows c c.timerSend := by
  unfold timerSend
  split
  · simp only
    split
    · exact .same rfl rfl
    · exact .same rfl rfl
  · exact .refl c

theorem grows_mqttTimer (c : Client) (env : Env) : Grows c (c.mqttTimer env) :=
  (c.grows_timerConnState env).trans ((grows_timerPingresp _).trans (grows_timerSend _))

theorem grows_keepaliveSent (r : Client × Bool) : Grows r.1 (keepaliveSent r) := by
  unfold keepaliveSent
  split
  · exact .same rfl rfl
  · exact .same rfl rfl

theorem grows_mqttSendKeepalive (c : Client) (sendOk : Bool) :
    Grows c (c.mqttSendKeepalive sendOk) := by
  unfold mqttSendKeepalive
  split
  · exact .refl c
  · split
    · exact .same rfl rfl
    · have hstart : Grows c { c with mqttConnection := initMessage c.mqttConnection } :=
        .same rfl rfl
      exact (hstart.trans (grows_espconnSend _ sendOk _)).trans (grows_keepaliveSent _)

theorem grows_connection (c : Client) {connection : MqttConnection}
    (h : connection.bufferLength = mqttBufSize) :
    Grows c { c with mqttConnection := connection } := by
  refine ⟨[],by simp,rfl,fun packets hheld => ?_,fun hrel => ⟨hrel,rfl⟩⟩
  have hv : view { c with mqttConnection := connection } = view c := by
    simp [view,h,hheld.bufferLength_eq]
  simpa [accepted] using hheld.of_view hv

/-- A CONNECT is sent: the pending fields speak of it, whether or not it left. -/
theorem grows_connectSent (c : Client) {packet : List UInt8} (sendOk : Bool)
    (h : mqttGetType packet = connectType) :
    Grows c (connectSent (espconnSend { c with
      pendingMsgType := mqttGetType packet
      pendingMsgId := mqttGetId packet packet.length } sendOk packet)) := by
  have hne : mqttGetType packet ≠ pubrelType := by rw [h]; decide
  unfold espconnSend connectSent
  split
  · refine ⟨[.send packet],rfl,rfl,fun packets hheld => ?_,fun hrel => absurd hrel hne⟩
    rw [show accepted [.send packet] = [] from rfl,List.append_nil]
    exact hheld.connecting rfl hheld.bufferLength_eq h
  · refine ⟨[],by simp [post],rfl,fun packets hheld => ?_,fun hrel => absurd hrel hne⟩
    rw [show accepted [] = [] from rfl,List.append_nil]
    exact hheld.connecting rfl hheld.bufferLength_eq h

theorem grows_mqttTcpclientConnectCb (c : Client) (env : Env) :
    Grows c (c.mqttTcpclientConnectCb env) := by
  unfold mqttTcpclientConnectCb
  split
  · exact .same rfl rfl
  · refine (c.grows_connection (mqttMsgConnect_bufferLength (mqttMsgInit mqttBufSize)
      c.connectInfo)).trans ?_
    cases hm : (mqttMsgConnect (mqttMsgInit mqttBufSize) c.connectInfo).message with
    | none =>
      simp only [hm]
      exact .same rfl rfl
    | some packet =>
      simp only [hm]
      exact grows_connectSent _ env.sendOk (mqttMsgConnect_type hm)

end Client

/-- `ack` is the last step of the exchange of `packet` and carries its packet id. For QoS 2
a PUBREC with that id has come before. -/
inductive Completes (c : Client) (packet ack : List UInt8) : Prop
  | puback (hp : mqttGetType packet = publishType) (hq : mqttGetQos packet = 1)
      (ha : mqttGetType ack = pubackType) (hid : packetId ack = packetId packet)
  | pubcomp (hp : mqttGetType packet = publishType) (hq : mqttGetQos packet = 2)
      (hrec : ∃ rec, .handled rec ∈ c.log ∧ mqttGetType rec = pubrecType ∧
        packetId rec = packetId packet)
      (ha : mqttGetType ack = pubcompType) (hid : packetId ack = packetId packet)
  | suback (hp : mqttGetType packet = subscribeType)
      (ha : mqttGetType ack = subackType) (hid : packetId ack = packetId packet)
  | unsuback (hp : mqttGetType packet = unsubscribeType)
      (ha : mqttGetType ack = unsubackType) (hid : packetId ack = packetId packet)
  | pingresp (hp : mqttGetType packet = pingreqType) (ha : mqttGetType ack = pingrespType)
      (hauto : c.isWaitingForPingresp = false)

/-- The two ways a packet may leave the queue in a step from `c` with actions `new`. -/
inductive Justified (c : Client) (packet : List UInt8) (new : List Action) : Prop
  | sent (hp : mqttGetType packet = publishType) (hq : mqttGetQos packet = 0)
      (hs : .send packet ∈ new)
  | completed (ack : List UInt8) (hwait : c.isWaitingForAck = true) (hf : InFlight c packet)
      (ha : .handled ack ∈ new) (hc : Completes c packet ack)

theorem Justified.append {c : Client} {packet : List UInt8} {new : List Action}
    (h : Justified c packet new) (more : List Action) : Justified c packet (new ++ more) := by
  cases h with
  | sent hp hq hs => exact .sent hp hq (List.mem_append_left _ hs)
  | completed ack hwait hf ha hc => exact .completed ack hwait hf (List.mem_append_left _ ha) hc

/-- When the client waits for a PUBCOMP, a PUBREC with the pending id has been handled. -/
def PubrecSeen (c : Client) : Prop :=
  c.pendingMsgType = pubrelType →
    ∃ rec, .handled rec ∈ c.log ∧ mqttGetType rec = pubrecType ∧
      mqttGetId rec rec.length = c.pendingMsgId

/-- A step from a state whose queue holds `packets`: they stay, or the first leaves for a
reason, and accepted packets are put behind. -/
structure EffectsBy (c c' : Client) (packets : List (List UInt8)) (new : List Action) : Prop where
  log_eq : c'.log = c.log ++ new
  held : (released new = [] ∧ Held c' (packets ++ accepted new)) ∨
    ∃ head rest, packets = head::rest ∧ released new = [head] ∧
      Held c' (rest ++ accepted new) ∧ Justified c head new
  pubrec : PubrecSeen c → PubrecSeen c'

def Effects (c c' : Client) (packets : List (List UInt8)) : Prop := ∃ new, EffectsBy c c' packets new

theorem GrowsBy.pubrec {c c' : Client} {new : List Action} (h : GrowsBy c c' new)
    (hs : PubrecSeen c) : PubrecSeen c' := by
  intro hrel
  obtain ⟨hrel',hid⟩ := h.pubrel hrel
  obtain ⟨rec,hmem,ht,hri⟩ := hs hrel'
  exact ⟨rec,by rw [h.log_eq]; exact List.mem_append_left _ hmem,ht,hri.trans hid.symm⟩

theorem Grows.effects {c c' : Client} {packets : List (List UInt8)} (h : Grows c c')
    (hheld : Held c packets) : Effects c c' packets := by
  obtain ⟨new,hnew⟩ := h
  exact ⟨new,hnew.log_eq,Or.inl ⟨hnew.released_eq,hnew.held _ hheld⟩,hnew.pubrec⟩

theorem Effects.trans_grows {c₁ c₂ c₃ : Client} {packets : List (List UInt8)}
    (h₁ : Effects c₁ c₂ packets) (h₂ : Grows c₂ c₃) : Effects c₁ c₃ packets := by
  obtain ⟨xs,hx⟩ := h₁
  obtain ⟨ys,hy⟩ := h₂
  refine ⟨xs ++ ys,by rw [hy.log_eq,hx.log_eq,List.append_assoc],?_,fun h => hy.pubrec (hx.pubrec h)⟩
  rcases hx.held with ⟨hr,hh⟩ | ⟨head,rest,rfl,hr,hh,hj⟩
  · refine Or.inl ⟨by simp [hr,hy.released_eq],?_⟩
    rw [accepted_append,← List.append_assoc]
    exact hy.held _ hh
  · refine Or.inr ⟨head,rest,rfl,by simp [hr,hy.released_eq],?_,hj.append ys⟩
    rw [accepted_append,← List.append_assoc]
    exact hy.held _ hh

/-- The acknowledgement does not confuse exchanges: one that matches the pending fields has
a packet id, and PUBACK and PUBREC only match a publish in flight of their own QoS. -/
structure AckSound (c : Client) (ack : List UInt8) : Prop where
  puback : mqttGetType ack = pubackType → c.pendingMsgType = publishType →
    c.pendingMsgId = mqttGetId ack ack.length →
    c.isWaitingForAck = true ∧ c.pendingPublishQos = 1 ∧ c.pendingMsgId ≠ 0
  pubrec : mqttGetType ack = pubrecType → c.isWaitingForAck = true →
    c.pendingMsgType = publishType → c.pendingMsgId = mqttGetId ack ack.length →
    c.pendingPublishQos = 2 ∧ c.pendingMsgId ≠ 0
  suback : mqttGetType ack = subackType → c.pendingMsgType = subscribeType →
    c.pendingMsgId = mqttGetId ack ack.length → c.pendingMsgId ≠ 0
  unsuback : mqttGetType ack = unsubackType → c.pendingMsgType = unsubscribeType →
    c.pendingMsgId = mqttGetId ack ack.length → c.pendingMsgId ≠ 0

/-- A message that waits for something other than CONNACK is the head of the queue. -/
theorem Held.head {c : Client} {packets : List (List UInt8)} (h : Held c packets)
    (hne : c.pendingMsgType ≠ connectType)
    (hwait : c.isWaitingForAck = true ∨ c.pendingMsgType ∈
      [subscribeType,unsubscribeType,pubrelType,pingreqType]) :
    c.isWaitingForAck = true ∧ ∃ head rest, packets = head::rest ∧ InFlight c head ∧
      Queueable head := by
  have hw : c.isWaitingForAck = true := by
    rcases hwait with hw | hm
    · exact hw
    · by_contra hn
      exact (h.idle (by simpa using hn)).2 hm
  rcases h.inFlight hw with hc | ⟨head,rest,rfl,hf⟩
  · exact absurd hc hne
  · exact ⟨hw,head,rest,rfl,hf,h.queueable _ (by simp)⟩

theorem InFlight.type_of_ne {c : Client} {packet : List UInt8} (h : InFlight c packet)
    (hne : c.pendingMsgType ≠ pubrelType) : mqttGetType packet = c.pendingMsgType := by
  rcases h.type_eq with ht | ⟨ht,_⟩
  · exact ht.symm
  · exact absurd ht hne

/-- An acknowledgement with the pending id, which is not 0, has the id of the packet. -/
theorem InFlight.ack_id {c : Client} {packet ack : List UInt8} (h : InFlight c packet)
    (hid : c.pendingMsgId = mqttGetId ack ack.length) (hne : c.pendingMsgId ≠ 0) :
    packetId ack = packetId packet := by
  rw [← mqttGetId_packetId ack (by rwa [← hid]),
    ← mqttGetId_packetId packet (by rwa [← h.id_eq]),← hid,h.id_eq]

namespace Client

variable {c : Client} {packets : List (List UInt8)}

/-- Finishing an exchange whose acknowledgement completes the head drops the head. -/
theorem finishPending_effects (h : Held c packets) {ack : List UInt8} (env : Env)
    (hwait : c.isWaitingForAck = true) {head : List UInt8} {rest : List (List UInt8)}
    (hp : packets = head::rest) (hf : InFlight c head) (hc : Completes c head ack) :
    Effects c ((c.emit (.handled ack)).finishPending env) packets := by
  subst hp
  obtain ⟨hgot,hrep⟩ := queueGets_cons h.represents (le_refl mqttBufSize) env.isBegin
  have hlog : ((c.emit (.handled ack)).finishPending env).log =
      c.log ++ [.handled ack,.release head] := by
    simp [finishPending,emit,hgot]
  refine ⟨_,hlog,Or.inr ⟨head,rest,rfl,rfl,?_,?_⟩,
    fun _ hrel => absurd (show 0 = pubrelType from hrel) (by decide)⟩
  · rw [show accepted [.handled ack,.release head] = [] from rfl,List.append_nil]
    have hclear : Held { c with isWaitingForAck := false, pendingMsgType := 0 } (head::rest) :=
      h.cleared rfl rfl rfl rfl
    exact ⟨hrep,h.bufferLength_eq,fun p hm => h.queueable p (List.mem_cons_of_mem _ hm),
      fun hw => absurd hw Bool.false_ne_true,fun _ => ⟨fun _ => rfl,(hclear.idle rfl).2⟩⟩
  · exact .completed ack hwait hf (by simp) hc

theorem handled_effects (h : Held c packets) (ack : List UInt8) :
    Effects c (c.emit (.handled ack)) packets :=
  (c.grows_emit ⟨rfl,rfl⟩).effects h

theorem handleAck_effects (h : Held c packets) {ack : List UInt8} (env : Env) (pendingType : ℕ)
    (hc : c.pendingMsgType = pendingType → c.pendingMsgId = mqttGetId ack ack.length →
      c.isWaitingForAck = true ∧ ∃ head rest, packets = head::rest ∧ InFlight c head ∧
        Completes c head ack) :
    Effects c (handleAck pendingType (c.emit (.handled ack)) (mqttGetId ack ack.length) env)
      packets := by
  unfold handleAck
  split
  · rename_i hmatch
    obtain ⟨hw,head,rest,hp,hf,hcomp⟩ := hc hmatch.1 hmatch.2
    exact finishPending_effects h env hw hp hf hcomp
  · exact handled_effects h ack

theorem handleSuback_effects (h : Held c packets) {ack : List UInt8} (env : Env)
    (ha : mqttGetType ack = subackType) (hs : AckSound c ack) :
    Effects c ((c.emit (.handled ack)).handleSuback (mqttGetId ack ack.length) env) packets := by
  refine handleAck_effects h env subscribeType fun ht hid => ?_
  obtain ⟨hw,head,rest,hp,hf,_⟩ := h.head (by rw [ht]; decide) (Or.inr (by rw [ht]; decide))
  have htype := hf.type_of_ne (by rw [ht]; decide)
  exact ⟨hw,head,rest,hp,hf,.suback (htype.trans ht) ha (hf.ack_id hid (hs.suback ha ht hid))⟩

theorem handleUnsuback_effects (h : Held c packets) {ack : List UInt8} (env : Env)
    (ha : mqttGetType ack = unsubackType) (hs : AckSound c ack) :
    Effects c ((c.emit (.handled ack)).handleUnsuback (mqttGetId ack ack.length) env) packets := by
  refine handleAck_effects h env unsubscribeType fun ht hid => ?_
  obtain ⟨hw,head,rest,hp,hf,_⟩ := h.head (by rw [ht]; decide) (Or.inr (by rw [ht]; decide))
  have htype := hf.type_of_ne (by rw [ht]; decide)
  exact ⟨hw,head,rest,hp,hf,.unsuback (htype.trans ht) ha (hf.ack_id hid (hs.unsuback ha ht hid))⟩

theorem handlePuback_effects (h : Held c packets) {ack : List UInt8} (env : Env)
    (ha : mqttGetType ack = pubackType) (hs : AckSound c ack) :
    Effects c ((c.emit (.handled ack)).handlePuback (mqttGetId ack ack.length) env) packets := by
  refine handleAck_effects h env publishType fun ht hid => ?_
  obtain ⟨hw,hqos,hne⟩ := hs.puback ha ht hid
  obtain ⟨_,head,rest,hp,hf,_⟩ := h.head (by rw [ht]; decide) (Or.inl hw)
  have htype := hf.type_of_ne (by rw [ht]; decide)
  exact ⟨hw,head,rest,hp,hf,
    .puback (htype.trans ht) (hf.qos_eq.symm.trans hqos) ha (hf.ack_id hid hne)⟩

theorem handlePubcomp_effects (h : Held c packets) {ack : List UInt8} (env : Env)
    (ha : mqttGetType ack = pubcompType) (hseen : PubrecSeen c) :
    Effects c ((c.emit (.handled ack)).handlePubcomp (mqttGetId ack ack.length) env) packets := by
  refine handleAck_effects h env pubrelType fun ht hid => ?_
  obtain ⟨hw,head,rest,hp,hf,hq⟩ := h.head (by rw [ht]; decide) (Or.inr (by rw [ht]; decide))
  rcases hf.type_eq with htype | ⟨_,htype,hqos,hne⟩
  · rw [Queueable,← htype,ht] at hq
    exact absurd hq (by decide)
  · obtain ⟨rec,hmem,hrt,hrid⟩ := hseen ht
    have hrec : packetId rec = packetId head := hf.ack_id hrid.symm hne
    exact ⟨hw,head,rest,hp,hf,
      .pubcomp htype hqos ⟨rec,hmem,hrt,hrec⟩ ha (hf.ack_id hid hne)⟩

theorem handlePingresp_effects (h : Held c packets) {ack : List UInt8} (env : Env)
    (ha : mqttGetType ack = pingrespType) :
    Effects c ((c.emit (.handled ack)).handlePingresp env) packets := by
  unfold handlePingresp
  refine Effects.trans_grows ?_ (grows_invoke _ .pingresp env.calls)
  have hlogged := handled_effects h ack
  simp only
  split
  · exact hlogged.trans_grows (.same rfl rfl)
  · rename_i hauto
    split
    · rename_i hmatch
      have ht : c.pendingMsgType = pingreqType := hmatch.1
      obtain ⟨hw,head,rest,hp,hf,_⟩ := h.head (by rw [ht]; decide) (Or.inr (by rw [ht]; decide))
      have htype := hf.type_of_ne (by rw [ht]; decide)
      have hfin := finishPending_effects h env hw hp hf
        (.pingresp (htype.trans ht) ha (Bool.eq_false_iff.mpr hauto))
      exact hfin.trans_grows (.same rfl rfl)
    · exact hlogged.trans_grows (.same rfl rfl)

/-- A PUBREC for the publish in flight leaves it in flight, waiting for PUBCOMP. -/
theorem handlePubrec_effects (h : Held c packets) {ack : List UInt8} (env : Env)
    (ha : mqttGetType ack = pubrecType) (hs : AckSound c ack) :
    Effects c ((c.emit (.handled ack)).handlePubrec (mqttGetId ack ack.length) env) packets := by
  unfold handlePubrec
  split
  · rename_i hmatch
    obtain ⟨hw,hid,ht⟩ := hmatch
    have hw : c.isWaitingForAck = true := hw
    have hid : c.pendingMsgId = mqttGetId ack ack.length := hid
    refine Effects.trans_grows ?_ (grows_sendBuilt _ env.sendOk (mqttMsgAck_bufferLength _ _ _ _))
    refine ⟨[.handled ack],rfl,Or.inl ⟨rfl,?_⟩,fun _ _ => ⟨ack,by simp [emit],ha,hid.symm⟩⟩
    rw [show accepted [.handled ack] = [] from rfl,List.append_nil]
    refine ⟨h.represents,h.bufferLength_eq,h.queueable,fun _ => Or.inr ?_,
      fun hn => absurd (hw.symm.trans hn) (by decide)⟩
    have hne : c.pendingMsgType ≠ connectType := by
      rcases ht with ht | ht
      · rw [show c.pendingMsgType = publishType from ht]
        decide
      · rw [show c.pendingMsgType = pubrelType from ht]
        decide
    obtain ⟨_,head,rest,hp,hf,hq⟩ := h.head hne (Or.inl hw)
    refine ⟨head,rest,hp,hf.requires,hf.qos_eq,hf.id_eq,Or.inr ⟨rfl,?_⟩⟩
    rcases hf.type_eq with htype | ⟨_,hrest⟩
    · rcases ht with ht | ht
      · have ht : c.pendingMsgType = publishType := ht
        obtain ⟨hqos,hne⟩ := hs.pubrec ha hw ht hid
        exact ⟨htype.symm.trans ht,hf.qos_eq.symm.trans hqos,hne⟩
      · have ht : c.pendingMsgType = pubrelType := ht
        rw [Queueable,← htype,ht] at hq
        exact absurd hq (by decide)
    · exact hrest
  · exact handled_effects h ack

theorem grows_handlePublish (c : Client) (packet : List UInt8) (env : Env) :
    Grows c (c.handlePublish packet env) := by
  unfold handlePublish
  refine Grows.trans ?_ (grows_invoke _ _ env.calls)
  split
  · exact c.grows_sendBuilt env.sendOk (mqttMsgAck_bufferLength _ _ _ _)
  · split
    · exact c.grows_sendBuilt env.sendOk (mqttMsgAck_bufferLength _ _ _ _)
    · exact .refl c

theorem grows_handlePubrel (c : Client) (msgId : ℕ) (env : Env) :
    Grows c (c.handlePubrel msgId env) :=
  c.grows_sendBuilt env.sendOk (mqttMsgAck_bufferLength _ _ _ _)

theorem grows_handlePingreq (c : Client) (env : Env) : Grows c (c.handlePingreq env) :=
  c.grows_sendBuilt env.sendOk rfl

theorem handleMessage_effects (h : Held c packets) (hseen : PubrecSeen c) {packet : List UInt8}
    (env : Env) (hs : AckSound c packet) : Effects c (c.handleMessage packet env) packets := by
  have hlogged := handled_effects h packet
  unfold handleMessage
  simp only
  split
  · rename_i ht
    exact handleSuback_effects h env ht hs
  · split
    · rename_i ht
      exact handleUnsuback_effects h env ht hs
    · split
      · exact hlogged.trans_grows (grows_handlePublish _ packet env)
      · split
        · rename_i ht
          exact handlePuback_effects h env ht hs
        · split
          · rename_i ht
            exact handlePubrec_effects h env ht hs
          · split
            · exact hlogged.trans_grows (grows_handlePubrel _ _ env)
            · split
              · rename_i ht
                exact handlePubcomp_effects h env ht hseen
              · split
                · exact hlogged.trans_grows (grows_handlePingreq _ env)
                · split
                  · rename_i ht
                    exact handlePingresp_effects h env ht
                  · exact hlogged

theorem grows_handleConnack (c : Client) (returnCode : UInt8) (env : Env) :
    Grows c (c.handleConnack returnCode env) := by
  unfold handleConnack
  split
  · exact c.grows_espconnDisconnect
  · simp only
    split
    · refine Grows.trans ?_ (grows_invoke _ .connected env.calls)
      exact .cleared [] (by simp) ⟨rfl,rfl⟩ rfl rfl rfl rfl
    · refine Grows.trans ?_ (grows_espconnDisconnect _)
      exact .cleared [] (by simp) ⟨rfl,rfl⟩ rfl rfl rfl rfl

end Client

/-- The complete packet at the start of the receive buffer. -/
def nextPacket (buffer : List UInt8) : Option (List UInt8) :=
  let length := mqttGetPacketLength buffer buffer.length
  if 0 < length ∧ length ≤ buffer.length ∧ length ≤ mqttBufSize then
    some (buffer.take length.toNat)
  else none

/-- The packet an event makes the client handle. -/
def incoming (c : Client) : Event → Option (List UInt8)
  | .recv pdata _ =>
    if pdata ≠ [] ∧ mqttBufSize < c.inBuffer.length+pdata.length then none
    else nextPacket (c.inBuffer ++ pdata)
  | .task _ => nextPacket c.inBuffer
  | _ => none

/-- The condition on a step: the client is not deleted, and a packet it handles does not
confuse exchanges. -/
structure Sound (c : Client) (e : Event) : Prop where
  alive : c.connState ≠ .mqttDeleted
  ack : c.connState = .mqttData ∨ c.connState = .mqttKeepaliveSend →
    ∀ packet, incoming c e = some packet → AckSound c packet

theorem Effects.of_frame {c c₁ c' : Client} {packets : List (List UInt8)}
    (h : Effects c₁ c' packets) (hv : view c = view c₁) (hl : c₁.log = c.log)
    (hp : c.isWaitingForPingresp = c₁.isWaitingForPingresp) : Effects c c' packets := by
  obtain ⟨new,hnew⟩ := h
  have hv' := hv
  simp only [view,Prod.mk.injEq] at hv'
  obtain ⟨_,_,hi,ht,_,hw⟩ := hv'
  refine ⟨new,by rw [hnew.log_eq,hl],?_,fun hs => hnew.pubrec (by rwa [PubrecSeen,← ht,← hi,hl])⟩
  rcases hnew.held with hh | ⟨head,rest,heq,hr,hh,hj⟩
  · exact Or.inl hh
  · refine Or.inr ⟨head,rest,heq,hr,hh,?_⟩
    cases hj with
    | sent hp hq hs => exact .sent hp hq hs
    | completed ack hwait hf ha hc =>
      refine .completed ack (hw.trans hwait) (hf.of_view hv) ha ?_
      cases hc with
      | puback h₁ h₂ h₃ h₄ => exact .puback h₁ h₂ h₃ h₄
      | pubcomp h₁ h₂ h₃ h₄ h₅ => exact .pubcomp h₁ h₂ (by rwa [← hl]) h₄ h₅
      | suback h₁ h₂ h₃ => exact .suback h₁ h₂ h₃
      | unsuback h₁ h₂ h₃ => exact .unsuback h₁ h₂ h₃
      | pingresp h₁ h₂ h₃ => exact .pingresp h₁ h₂ (hp.trans h₃)

namespace Client

variable {c : Client} {packets : List (List UInt8)}

theorem handlePacket_effects (h : Held c packets) (hseen : PubrecSeen c) (length : ℕ) (env : Env)
    (hs : c.connState = .mqttData ∨ c.connState = .mqttKeepaliveSend →
      AckSound c (c.inBuffer.take length)) :
    Effects c (c.handlePacket length env) packets := by
  unfold handlePacket
  cases hstate : c.connState with
  | mqttConnectSending =>
    simp only
    split
    · exact (c.grows_handleConnack _ env).effects h
    · exact (Grows.refl c).effects h
  | mqttData => exact handleMessage_effects h hseen env (hs (Or.inl hstate))
  | mqttKeepaliveSend => exact handleMessage_effects h hseen env (hs (Or.inr hstate))
  | _ => exact (Grows.refl c).effects h

theorem grows_dropConnection (c : Client) : Grows c (dropConnection { c with inBuffer := [] }) := by
  unfold dropConnection
  split
  · exact .of_view [_] rfl rfl ⟨rfl,rfl⟩
  · exact .same rfl rfl

theorem processPacket_effects (h : Held c packets) (hseen : PubrecSeen c) (env : Env)
    (hs : c.connState = .mqttData ∨ c.connState = .mqttKeepaliveSend →
      ∀ packet, nextPacket c.inBuffer = some packet → AckSound c packet) :
    Effects c (c.processPacket env) packets := by
  unfold processPacket
  by_cases he : c.inBuffer = []
  · rw [if_pos he]
    exact c.grows_post.effects h
  rw [if_neg he]
  simp only
  generalize hn : mqttGetPacketLength c.inBuffer c.inBuffer.length = length
  split
  · exact c.grows_dropConnection.effects h
  · rename_i hsize
    split
    · rename_i hcomplete
      have hnext : nextPacket c.inBuffer = some (c.inBuffer.take length.toNat) := by
        rw [nextPacket,hn]
        exact if_pos ⟨hcomplete.1,hcomplete.2,by omega⟩
      have hpacket := handlePacket_effects h hseen length.toNat env fun hstate => hs hstate _ hnext
      split
      · exact hpacket.trans_grows (.same rfl rfl)
      · split
        · exact hpacket.trans_grows (.same rfl rfl)
        · exact hpacket.trans_grows (.same rfl rfl)
    · exact c.grows_post.effects h

theorem mqttTcpclientRecv_effects (h : Held c packets) (hseen : PubrecSeen c)
    (pdata : List UInt8) (env : Env) (hs : Sound c (.recv pdata env)) :
    Effects c (c.mqttTcpclientRecv pdata env) packets := by
  unfold mqttTcpclientRecv
  split
  · rename_i hnil
    refine processPacket_effects h hseen env fun hstate packet hp => hs.ack hstate packet ?_
    simpa [incoming,hnil] using hp
  · rename_i hne
    split
    · exact c.grows_dropConnection.effects h
    · rename_i hfits
      split
      · unfold dropConnection
        split
        · exact (c.grows_emit ⟨rfl,rfl⟩).effects h
        · exact (Grows.refl c).effects h
      · have hframe : Held { c with inBuffer := c.inBuffer ++ pdata } packets := h.of_view rfl
        refine (processPacket_effects hframe hseen env fun hstate packet hp => ?_).of_frame
          rfl rfl rfl
        have hsound := hs.ack hstate packet (by
          rw [incoming,if_neg (fun hover => hfits hover.2)]
          exact hp)
        exact ⟨hsound.puback,hsound.pubrec,hsound.suback,hsound.unsuback⟩

theorem publish_of_not_requiresAck {packet : List UInt8} (hq : Queueable packet)
    (hr : requiresAck packet = false) :
    mqttGetType packet = publishType ∧ mqttGetQos packet = 0 := by
  simp only [requiresAck,decide_eq_false_iff_not,not_or,not_and,List.mem_cons,
    List.not_mem_nil] at hr
  simp only [Queueable,List.mem_cons,List.not_mem_nil] at hq
  have ht : mqttGetType packet = publishType := by tauto
  exact ⟨ht,by have := hr.1 ht; omega⟩

theorem queuedSent_espconnSend (d : Client) (before : Queue) (packet : List UInt8)
    (sendOk : Bool) :
    queuedSent before packet (d.espconnSend sendOk packet) =
      if d.security = false ∧ sendOk = true then
        if requiresAck packet then d.emit (.send packet)
        else (d.emit (.send packet)).emit (.release packet)
      else
        post { d with
          msgQueue := before
          isWaitingForAck := false
          pendingMsgId := 0
          pendingMsgType := 0
          sendTimeout := 0
          publishSendCallbackPending := false
          connState := .tcpReconnectDisconnecting } := by
  unfold espconnSend queuedSent
  by_cases hok : d.security = false ∧ sendOk = true
  · rw [if_pos hok,if_pos hok]
    rfl
  · rw [if_neg hok,if_neg hok]
    rfl

theorem sendQueued_effects {head : List UInt8} {rest : List (List UInt8)}
    (h : Held c (head::rest)) (env : Env) :
    Effects c (c.sendQueued (queueGets c.msgQueue mqttBufSize env.isBegin).1 head env)
      (head::rest) := by
  obtain ⟨_,hrep⟩ := queueGets_cons h.represents (le_refl mqttBufSize) env.isBegin
  have hback : rollback c.msgQueue (queueGets c.msgQueue mqttBufSize env.isBegin).1 = c.msgQueue :=
    queueGets_rollback c.msgQueue mqttBufSize env.isBegin
  have hq := h.queueable head (by simp)
  have hne : mqttGetType head ≠ pubrelType := by
    intro he
    rw [Queueable,he] at hq
    exact absurd hq (by decide)
  unfold sendQueued
  rw [hback]
  simp only [queuedSent_espconnSend]
  split
  · cases hr : requiresAck head with
    | true =>
      refine ⟨[.send head],rfl,Or.inl ⟨rfl,?_⟩,fun _ hrel => absurd hrel hne⟩
      rw [show accepted [.send head] = [] from rfl,List.append_nil]
      exact ⟨h.represents,h.bufferLength_eq,h.queueable,
        fun _ => Or.inr ⟨head,rest,rfl,hr,rfl,rfl,Or.inl rfl⟩,
        fun hw => absurd hw (by simp [emit])⟩
    | false =>
      obtain ⟨ht,hqos⟩ := publish_of_not_requiresAck hq hr
      refine ⟨[.send head,.release head],by simp [emit],Or.inr ⟨head,rest,rfl,rfl,?_,
        .sent ht hqos (by simp)⟩,fun _ hrel => absurd hrel hne⟩
      rw [show accepted [.send head,.release head] = [] from rfl,List.append_nil]
      refine ⟨hrep,h.bufferLength_eq,fun p hm => h.queueable p (List.mem_cons_of_mem _ hm),
        fun hw => absurd hw (by simp [emit]),fun _ => ⟨fun _ => mqttGetId_qos0 ht hqos,?_⟩⟩
      show mqttGetType head ∉ _
      rw [ht]
      decide
  · refine Grows.effects ?_ h
    exact .cleared [] (by simp [post]) ⟨rfl,rfl⟩ rfl rfl rfl rfl

theorem taskData_effects (h : Held c packets) (env : Env) : Effects c (c.taskData env) packets := by
  have hsame := (Grows.refl c).effects h
  unfold taskData
  split
  · exact hsame
  · split
    · exact hsame
    · split
      · exact hsame
      · cases packets with
        | nil =>
          rw [queueGets_nil h.represents]
          exact hsame
        | cons head rest =>
          obtain ⟨hgot,_⟩ := queueGets_cons h.represents (le_refl mqttBufSize) env.isBegin
          simp only [hgot]
          exact sendQueued_effects h env

theorem taskSwitch_effects (h : Held c packets) (env : Env) (halive : c.connState ≠ .mqttDeleted) :
    Effects c (c.taskSwitch env) packets := by
  have hsame := (Grows.refl c).effects h
  have hdisc : Effects c (if c.pCon then c.espconnDisconnect else c) packets := by
    split
    · exact c.grows_espconnDisconnect.effects h
    · exact hsame
  unfold taskSwitch
  cases hstate : c.connState with
  | tcpReconnect =>
    refine Grows.effects ?_ h
    refine (c.grows_mqttTcpclientDelete.trans (grows_mqttConnect _ env.dns)).trans ?_
    exact .same rfl rfl
  | mqttDeleting => exact hdisc
  | tcpDisconnecting => exact hdisc
  | tcpReconnectDisconnecting => exact hdisc
  | tcpDisconnected => exact c.grows_mqttTcpclientDelete.effects h
  | mqttDeleted => exact absurd hstate halive
  | mqttKeepaliveSend => exact (c.grows_mqttSendKeepalive env.sendOk).effects h
  | mqttData => exact taskData_effects h env
  | _ => exact hsame

theorem mqttTask_effects (h : Held c packets) (hseen : PubrecSeen c) (env : Env)
    (hs : Sound c (.task env)) : Effects c (c.mqttTask env) packets := by
  unfold mqttTask
  split
  · exact (Grows.refl c).effects h
  · split
    · refine mqttTcpclientRecv_effects h hseen [] env ⟨hs.alive,fun hstate packet hp => ?_⟩
      exact hs.ack hstate packet (by simpa [incoming] using hp)
    · exact taskSwitch_effects h env hs.alive

end Client

/-- Every step under the condition keeps the queue, up to one justified release. -/
theorem next_effects {c : Client} {packets : List (List UInt8)} (h : Held c packets)
    (hseen : PubrecSeen c) (e : Event) (hs : Sound c e) : Effects c (next c e) packets := by
  cases e with
  | api call => exact (c.grows_runCall call).effects h
  | task env =>
    have hframe : Held { c with posted := c.posted-1 } packets := h.of_view rfl
    refine (Client.mqttTask_effects hframe hseen env ⟨hs.alive,fun hstate packet hp => ?_⟩).of_frame
      rfl rfl rfl
    have hsound := hs.ack hstate packet hp
    exact ⟨hsound.puback,hsound.pubrec,hsound.suback,hsound.unsuback⟩
  | tick env => exact (c.grows_mqttTimer env).effects h
  | recv pdata env => exact Client.mqttTcpclientRecv_effects h hseen pdata env hs
  | sent env => exact (c.grows_mqttTcpclientSentCb env).effects h
  | discon env => exact (c.grows_mqttTcpclientDisconCb env).effects h
  | recon =>
    refine Grows.effects ?_ h
    exact .same rfl rfl
  | connected env => exact (c.grows_mqttTcpclientConnectCb env).effects h
  | dnsFound addr => exact (c.grows_mqttDnsFound addr).effects h

/-- The queue holds, in order, what was accepted and not released. -/
def Conserves (c : Client) : Prop :=
  ∃ packets, Represents c.msgQueue packets ∧ accepted c.log = released c.log ++ packets

/-- What holds in every state of a run: the invariant on queue and pending fields. -/
def Conserved (c : Client) : Prop :=
  PubrecSeen c ∧ ∃ packets, Held c packets ∧ accepted c.log = released c.log ++ packets

theorem Conserved.conserves {c : Client} (h : Conserved c) : Conserves c := by
  obtain ⟨_,packets,hheld,hlog⟩ := h
  exact ⟨packets,hheld.represents,hlog⟩

theorem mqttInitClient_conserved (host : List UInt8) (security : Bool) (info : ConnectInfo)
    (queueBufferSize : ℤ) : Conserved (mqttInitClient host security info queueBufferSize) := by
  refine ⟨fun hrel => absurd (show 0 = pubrelType from hrel) (by decide),[],?_,rfl⟩
  exact ⟨queueInit_represents zero_represents _ _,rfl,by simp,fun h => absurd h Bool.false_ne_true,
    fun _ => ⟨fun _ => rfl,show 0 ∉ _ by decide⟩⟩

theorem Effects.conserved {c c' : Client} {packets : List (List UInt8)} (h : Effects c c' packets)
    (hseen : PubrecSeen c) (hlog : accepted c.log = released c.log ++ packets) :
    Conserved c' ∧ ∀ packet, .release packet ∈ newActions c c' →
      packets.head? = some packet ∧ Justified c packet (newActions c c') := by
  obtain ⟨new,hnew⟩ := h
  rw [newActions_eq hnew.log_eq]
  refine ⟨⟨hnew.pubrec hseen,?_⟩,fun packet hmem => ?_⟩
  · rcases hnew.held with ⟨hr,hh⟩ | ⟨head,rest,rfl,hr,hh,_⟩
    · refine ⟨_,hh,?_⟩
      simp [hnew.log_eq,hlog,hr]
    · refine ⟨_,hh,?_⟩
      simp [hnew.log_eq,hlog,hr]
  · have hrel := mem_released hmem
    rcases hnew.held with ⟨hr,_⟩ | ⟨head,rest,rfl,hr,_,hj⟩
    · rw [hr] at hrel
      exact absurd hrel (by simp)
    · rw [hr,List.mem_singleton] at hrel
      subst hrel
      exact ⟨rfl,hj⟩

theorem conserved_step (c : Client) (e : Event) (c' : Client) (h : Conserved c)
    (hstep : Guarded Sound Step c e c') : Conserved c' := by
  obtain ⟨hs,_,rfl⟩ := hstep
  obtain ⟨hseen,packets,hheld,hlog⟩ := h
  exact ((next_effects hheld hseen e hs).conserved hseen hlog).1

/-- In a run whose steps all meet the condition, the queue always holds what was accepted
and not released, and each release is justified. -/
theorem accepted_kept {host : List UInt8} {security : Bool} {info : ConnectInfo}
    {queueBufferSize : ℤ} {es : List Event} {c c' : Client} {e : Event}
    (hrun : Run (Guarded Sound Step) (mqttInitClient host security info queueBufferSize) es c)
    (hstep : Guarded Sound Step c e c') :
    Conserves c ∧ Conserves c' ∧ ∀ packet, .release packet ∈ newActions c c' →
      Justified c packet (newActions c c') := by
  have h := hrun.invariant conserved_step (mqttInitClient_conserved host security info queueBufferSize)
  have h' := conserved_step c e c' h hstep
  refine ⟨h.conserves,h'.conserves,?_⟩
  obtain ⟨hs,_,rfl⟩ := hstep
  obtain ⟨hseen,packets,hheld,hlog⟩ := h
  exact fun packet hmem =>
    (((next_effects hheld hseen e hs).conserved hseen hlog).2 packet hmem).2

/-- A client for the broker at 1.1.1.1 with the client id `1`. -/
def exampleClient : Client :=
  mqttInitClient [0x31,0x2E,0x31,0x2E,0x31,0x2E,0x31] false
    ⟨some [0x31],none,none,none,[],60,0,false,false⟩ 2048

/-- Sends are taken and no callback makes a call. -/
def exampleEnv : Env := ⟨true,false,0,.inProgress,[]⟩

/-- The client connects and a QoS 0 message is queued. -/
def connectAndPublish : List Event :=
  [.api (.connect .inProgress),.connected exampleEnv,.recv [0x20,2,0,0] exampleEnv,
    .api (.publish (some [0x61]) (some [0x78]) 0 0)]

/-- Sending the QoS 0 message releases it. -/
theorem accepted_kept_qos0 :
    let c := connectAndPublish.foldl next exampleClient
    let c' := next c (.task exampleEnv)
    Conserves c ∧ Conserves c' ∧
      ∀ packet, .release packet ∈ newActions c c' → Justified c packet (newActions c c') := by
  have hrun : Run (Guarded Sound Step) exampleClient connectAndPublish
      (connectAndPublish.foldl next exampleClient) := by
    refine .cons ⟨⟨by decide,fun _ _ h => by cases h⟩,trivial,rfl⟩ ?_
    refine .cons ⟨⟨by decide,fun _ _ h => by cases h⟩,trivial,rfl⟩ ?_
    refine .cons ⟨⟨by decide,fun h => absurd h (by decide)⟩,trivial,rfl⟩ ?_
    exact .single ⟨⟨by decide,fun _ _ h => by cases h⟩,trivial,rfl⟩
  have hnone : incoming (connectAndPublish.foldl next exampleClient) (.task exampleEnv) = none := by
    decide +kernel
  exact accepted_kept hrun
    ⟨⟨by decide +kernel,fun _ _ h => by rw [hnone] at h; cases h⟩,by decide +kernel,rfl⟩

/-- Behind the QoS 0 message a QoS 1 message is queued; a PUBACK without a packet id
removes it before it was ever sent. -/
theorem accepted_kept_fails :
    ¬∀ (es : List Event) (c c' : Client) (e : Event), Run Step exampleClient es c → Step c e c' →
      ∀ packet, .release packet ∈ newActions c c' → Justified c packet (newActions c c') := by
  intro h
  let es := connectAndPublish ++
    [.api (.publish (some [0x62]) (some [0x79]) 1 0),.task exampleEnv]
  let packet : List UInt8 := [0x32,6,0,1,0x62,0,1,0x79]
  have hrun : Run Step exampleClient es (es.foldl next exampleClient) :=
    run_of_allEnabled (by decide +kernel)
  have hnew : newActions (es.foldl next exampleClient)
      (next (es.foldl next exampleClient) (.recv [0x40,2,0,0] exampleEnv)) =
        [.handled [0x40,2,0,0],.release packet] := by decide +kernel
  have hj := h es _ _ (.recv [0x40,2,0,0] exampleEnv) hrun ⟨trivial,rfl⟩ packet
    (by rw [hnew]; simp)
  cases hj with
  | sent _ hq _ => exact absurd hq (by decide)
  | completed _ hwait _ _ _ => exact absurd hwait (by decide +kernel)

end MqttClient
end MeterLogger
