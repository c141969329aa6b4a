import MeterLogger.Handshake
import MeterLogger.MqttMoves
import MeterLogger.MqttPacketIds

/-!
# QoS 2 messages to the client

A broker that keeps the session sends QoS 2 messages to the client. The client answers PUBLISH and
PUBREL and remembers nothing in between. The exchange of one packet id is a `Handshake`, whose
receiver is the application: it takes a message when its data callback is called.
-/

namespace MeterLogger
namespace MqttInbound

open Bytes MessageQueue MqttMessage MqttClient MqttSession Runs Handshake

def isQos2 (packet : List UInt8) : Bool :=
  mqttGetType packet = publishType && mqttGetQos packet = 2

/-- The packet the client works at, and the QoS 2 messages that the application got and the
PUBRELs that arrived, each with its packet id. -/
structure Heard where
  packet : List UInt8
  items : List (Item ℕ)

def hear (h : Heard) : Action → Heard
  | .handled packet =>
    ⟨packet,if mqttGetType packet = pubrelType then h.items ++ [.release (packetId packet)]
      else h.items⟩
  | .callback (.data _ _) =>
    ⟨h.packet,if isQos2 h.packet then h.items ++ [.data (packetId h.packet)] else h.items⟩
  | _ => h

def heard (log : List Action) : Heard := log.foldl hear ⟨[],[]⟩

def items (log : List Action) : List (Item ℕ) := (heard log).items

def pubrelPacket (id : ℕ) : List UInt8 := 0x62::2::u16Bytes id

/-- What the broker makes of a packet of the client, and its answer. -/
def receive (phase : ℕ → Phase) (packet : List UInt8) : (ℕ → Phase) × List UInt8 :=
  let id := packetId packet
  if mqttGetType packet = pubrecType then
    if phase id = .free then (phase,[]) else (Function.update phase id .releasing,pubrelPacket id)
  else if mqttGetType packet = pubcompType then
    (if phase id = .releasing then Function.update phase id .free else phase,[])
  else (phase,[])

def receiveAll (phase : ℕ → Phase) (packets : List (List UInt8)) : ℕ → Phase :=
  packets.foldl (fun phase packet => (receive phase packet).1) phase

/-- A packet whose length field gives the number of bytes behind it. It may be too long for the
client. -/
def Framed (packet : List UInt8) : Prop :=
  ∃ first field body, packet = first::(field ++ body) ∧ LengthField 4 field body.length

def packetsIn : ℕ → List UInt8 → List (List UInt8)
  | 0, _ => []
  | n+1, bytes =>
    let length := mqttGetPacketLength bytes bytes.length
    if 0 < length ∧ length ≤ bytes.length then
      bytes.take length.toNat::packetsIn n (bytes.drop length.toNat)
    else []

/-- `c2b` are the packets on their way to the broker, `b2c` the bytes on their way to the client;
`phase` is what the broker knows of its messages, by packet id. -/
structure Downlink where
  client : Client
  conn : Bool
  c2b : List (List UInt8)
  b2c : List UInt8
  phase : ℕ → Phase

/-- `publish` sends a new message and `resend` one whose PUBREC has not come, at any time.
`brokerSend` is for other packets. `lose n m`: the connection is lost behind `n` more packets to the
broker and `m` more bytes to the client. -/
inductive DownlinkEvent
  | client (e : Event)
  | deliver (k : ℕ) (env : Env)
  | connect (env : Env)
  | broker
  | publish (packet : List UInt8)
  | resend (packet : List UInt8)
  | resendRelease (id : ℕ)
  | brokerSend (packet : List UInt8)
  | lose (n m : ℕ)

namespace Downlink

/-- The client became `c'`. -/
def became (s : Downlink) (c' : Client) (up : Bool) : Downlink where
  client := c'
  conn := s.conn
  c2b := if s.conn then s.c2b ++ sentPackets (newActions s.client c') else s.c2b
  b2c := if up then [] else s.b2c
  phase := s.phase

def act (s : Downlink) (e : Event) : Downlink :=
  s.became (MqttClient.next s.client e) (givesUp e (newActions s.client (MqttClient.next s.client e)))

def send (s : Downlink) (packet : List UInt8) : Downlink := { s with b2c := s.b2c ++ packet }

/-- What can happen. The broker sends what the protocol allows; a connection that the client gives
up has been lost before. -/
def Can (s : Downlink) : DownlinkEvent → Prop
  | .client e => Enabled s.client e ∧ Session.fromBroker e = false ∧
      (givesUp e (newActions s.client (MqttClient.next s.client e)) = true → s.conn = false)
  | .deliver k env =>
    let e := .recv (s.b2c.take k) env
    givesUp e (newActions s.client (MqttClient.next s.client e)) = true → s.conn = false
  | .connect _ => s.conn = false ∧ s.b2c = [] ∧ s.client.pCon = true
  | .broker => s.conn = true
  | .publish packet => s.conn = true ∧ Framed packet ∧ isQos2 packet = true ∧
      0 < packetId packet ∧ s.phase (packetId packet) = .free
  | .resend packet => s.conn = true ∧ Framed packet ∧ isQos2 packet = true ∧
      s.phase (packetId packet) = .publishing
  | .resendRelease id => s.conn = true ∧ s.phase id = .releasing
  | .brokerSend packet => s.conn = true ∧ Framed packet ∧ isQos2 packet = false ∧
      mqttGetType packet ≠ pubrelType
  | .lose _ _ => s.conn = true

def next (s : Downlink) : DownlinkEvent → Downlink
  | .client e => s.act e
  | .deliver k env => { s with b2c := s.b2c.drop k }.act (.recv (s.b2c.take k) env)
  | .connect env => { s with conn := true, c2b := [] }.act (.connected env)
  | .broker =>
    match s.c2b with
    | [] => s
    | packet::rest =>
      let r := receive s.phase packet
      { s with phase := r.1, c2b := rest }.send r.2
  | .publish packet =>
    { s with phase := Function.update s.phase (packetId packet) .publishing }.send packet
  | .resend packet => s.send packet
  | .resendRelease id => s.send (pubrelPacket id)
  | .brokerSend packet => s.send packet
  | .lose n m =>
    { s with
      conn := false
      c2b := []
      b2c := s.b2c.take m
      phase := receiveAll s.phase (s.c2b.take n) }

def Step : Downlink → DownlinkEvent → Downlink → Prop := Guarded Can (ofFun next)

/-- The condition on a step. The client finds the packet id of a QoS 2 message, and the broker
sends no message again that the application got already or that is still on its way. A connection
is set up with an empty receive buffer. -/
def Clear (s : Downlink) : DownlinkEvent → Prop
  | .publish packet => mqttGetId packet packet.length ≠ 0
  | .resend packet => mqttGetId packet packet.length ≠ 0 ∧
      isOpen (items s.client.log) (packetId packet) = false ∧
      (s.client.connState.receiving = true →
        ∀ p ∈ packetsIn (s.client.inBuffer ++ s.b2c).length (s.client.inBuffer ++ s.b2c),
          isQos2 p = true → packetId p ≠ packetId packet)
  | .connect _ => s.client.inBuffer = []
  | _ => True

end Downlink

/-- The action handles no packet, calls no data callback and answers no QoS 2 message. -/
def Mild : Action → Prop
  | .handled _ => False
  | .callback (.data _ _) => False
  | .send packet => mqttGetType packet ≠ pubrecType ∧ mqttGetType packet ≠ pubcompType
  | _ => True

/-- As `Mild`, but the data callback may be called. -/
def Bland : Action → Prop
  | .callback (.data _ _) => True
  | a => Mild a

/-- All that is added to the log is of one kind. -/
def Adds (P : Action → Prop) (c c' : Client) : Prop :=
  ∃ new, c'.log = c.log ++ new ∧ ∀ a ∈ new, P a

theorem Mild.bland {a : Action} (h : Mild a) : Bland a := by
  cases a with
  | callback cb => cases cb <;> trivial
  | _ => exact h

section Hearing

variable {h : Heard} {new xs ys : List Action}

theorem hear_mild (hm : ∀ a ∈ new, Mild a) : new.foldl hear h = h := by
  induction new with
  | nil => rfl
  | cons a new ih =>
    have ha := hm a List.mem_cons_self
    have hsame : hear h a = h := by
      cases a with
      | handled => exact ha.elim
      | callback cb =>
        cases cb with
        | data => exact ha.elim
        | _ => rfl
      | _ => rfl
    rw [List.foldl_cons,hsame]
    exact ih fun b hb => hm b (List.mem_cons_of_mem _ hb)

theorem hear_bland (hq : isQos2 h.packet = false) (hm : ∀ a ∈ new, Bland a) :
    new.foldl hear h = h := by
  induction new with
  | nil => rfl
  | cons a new ih =>
    have ha := hm a List.mem_cons_self
    have hsame : hear h a = h := by
      cases a with
      | handled => exact ha.elim
      | callback cb =>
        cases cb with
        | data => simp [hear,hq]
        | _ => rfl
      | _ => rfl
    rw [List.foldl_cons,hsame]
    exact ih fun b hb => hm b (List.mem_cons_of_mem _ hb)

theorem heard_append : heard (xs ++ ys) = ys.foldl hear (heard xs) := List.foldl_append

theorem items_mild (hm : ∀ a ∈ new, Mild a) : items (xs ++ new) = items xs := by
  rw [items,heard_append,hear_mild hm]
  rfl

theorem sentPackets_bland (hm : ∀ a ∈ new, Bland a) :
    ∀ packet ∈ sentPackets new, mqttGetType packet ≠ pubrecType ∧
      mqttGetType packet ≠ pubcompType := by
  intro packet hp
  obtain ⟨a,ha,hs⟩ := List.mem_filterMap.mp hp
  have hc := hm a ha
  cases a with
  | send p =>
    cases hs
    exact hc
  | _ => cases hs

end Hearing

namespace Adds

variable {P Q : Action → Prop} {c d e : Client}

theorem same (h : d.log = c.log) : Adds P c d := ⟨[],by simp [h],by simp⟩

theorem refl (c : Client) : Adds P c c := .same rfl

theorem post (c : Client) : Adds P c c.post := .same rfl

theorem trans (h₁ : Adds P c d) (h₂ : Adds P d e) : Adds P c e := by
  obtain ⟨xs,hx,hpx⟩ := h₁
  obtain ⟨ys,hy,hpy⟩ := h₂
  refine ⟨xs ++ ys,by rw [hy,hx,List.append_assoc],fun a ha => ?_⟩
  exact (List.mem_append.mp ha).elim (hpx a) (hpy a)

theorem before (h₁ : Adds P c d) (h₂ : e.log = d.log) : Adds P c e := h₁.trans (.same h₂)

theorem after (h₂ : Adds P d e) (h₁ : d.log = c.log) : Adds P c e := Adds.trans (.same h₁) h₂

theorem emit {a : Action} (ha : P a) (h : d.log = c.log ++ [a]) : Adds P c d :=
  ⟨[a],h,fun _ hb => by rwa [List.mem_singleton.mp hb]⟩

theorem mono (h : Adds P c d) (hpq : ∀ a, P a → Q a) : Adds Q c d := by
  obtain ⟨new,hnew,hp⟩ := h
  exact ⟨new,hnew,fun a ha => hpq a (hp a ha)⟩

end Adds

section Functions

theorem mild_espconnDisconnect (c : Client) : Adds Mild c c.espconnDisconnect := by
  unfold Client.espconnDisconnect
  split
  · exact .refl c
  · exact .emit (a := .disconnect) trivial rfl

theorem mild_mqttTcpclientDelete (c : Client) : Adds Mild c c.mqttTcpclientDelete := by
  unfold Client.mqttTcpclientDelete
  simp only
  split
  · exact .emit (a := .abort) trivial rfl
  · exact .same rfl

theorem mild_mqttClientDelete (c : Client) : Adds Mild c c.mqttClientDelete := by
  unfold Client.mqttClientDelete
  simp only
  split
  · exact (mild_mqttTcpclientDelete { c with timerArmed := false }).before rfl
  · exact .same rfl

theorem mild_mqttDnsFound (c : Client) (addr : Option ℕ) : Adds Mild c (c.mqttDnsFound addr) := by
  unfold Client.mqttDnsFound
  cases addr with
  | none => exact .same rfl
  | some addr =>
    simp only
    split
    · split
      · exact .refl c
      · split
        · exact .same rfl
        · exact .emit (a := .connect (MqttUtils.ipBytes addr)) trivial rfl
    · exact .same rfl

theorem mild_mqttConnect (c : Client) (dns : DnsOutcome) : Adds Mild c (c.mqttConnect dns) := by
  unfold Client.mqttConnect
  cases c.host with
  | none => exact .refl c
  | some host =>
    simp only
    split
    · exact .refl c
    · have hdel : Adds Mild c (if c.pCon then c.mqttTcpclientDelete else c) := by
        split
        · exact mild_mqttTcpclientDelete c
        · exact .refl c
      refine hdel.trans ?_
      generalize (if c.pCon then c.mqttTcpclientDelete else c) = d
      cases MqttUtils.utilsStrToIP host with
      | some ip =>
        simp only
        split
        · exact .same rfl
        · exact .emit (a := .connect ip) trivial rfl
      | none =>
        cases dns with
        | ok addr =>
          refine Adds.trans ?_ (mild_mqttDnsFound _ (some addr))
          exact .emit (a := .resolve host) trivial rfl
        | inProgress => exact .emit (a := .resolve host) trivial rfl
        | failed => exact .emit (a := .resolve host) trivial rfl

theorem mild_queueMessage (c : Client) (built : Built) : Adds Mild c (c.queueMessage built).1 := by
  unfold Client.queueMessage
  cases built.message with
  | none => exact .same rfl
  | some packet =>
    simp only
    split
    · exact .same rfl
    · exact .emit (a := .accept packet) trivial rfl

theorem mild_runCall (c : Client) (call : ApiCall) : Adds Mild c (c.runCall call) := by
  cases call with
  | publish topic data qos retain =>
    simp only [Client.runCall,Client.mqttPublish]
    split
    · split
      · exact .refl c
      · exact mild_queueMessage c _
    · exact .refl c
  | subscribe topic qos =>
    simp only [Client.runCall,Client.mqttSubscribe]
    split
    · split
      · exact .refl c
      · exact mild_queueMessage c _
    · exact .refl c
  | unSubscribe topic =>
    simp only [Client.runCall,Client.mqttUnSubscribe]
    split
    · split
      · exact .refl c
      · exact mild_queueMessage c _
    · exact .refl c
  | ping =>
    simp only [Client.runCall,Client.mqttPing]
    split
    · exact .refl c
    · exact mild_queueMessage c _
  | connect dns => exact mild_mqttConnect c dns
  | disconnect => exact .same rfl
  | deleteClient => exact .same rfl

theorem mild_runCalls (c : Client) (calls : List ApiCall) : Adds Mild c (c.runCalls calls) := by
  induction calls generalizing c with
  | nil => exact .refl c
  | cons call calls ih => exact (mild_runCall c call).trans (ih _)

theorem mild_invoke (c : Client) (cb : Callback) (hcb : Mild (.callback cb))
    (calls : List ApiCall) : Adds Mild c (c.invoke cb calls) := by
  unfold Client.invoke
  split
  · exact Adds.trans (.emit hcb rfl) (mild_runCalls _ calls)
  · exact .refl c

theorem mild_sendBuilt (c : Client) {built : Built} (sendOk : Bool)
    (h : ∀ packet, built.message = some packet → mqttGetType packet ≠ pubrecType ∧
      mqttGetType packet ≠ pubcompType) : Adds Mild c (c.sendBuilt built sendOk) := by
  rcases sendBuilt_log c built sendOk with hlog | ⟨packet,hm,hlog⟩
  · exact .same hlog
  · exact .emit (a := .send packet) (h packet hm) hlog

theorem mild_sendAck {type qos : ℕ} (ht : type < 16) (hq : qos < 4) (hrec : type ≠ pubrecType)
    (hcomp : type ≠ pubcompType) (c : Client) (connection : MqttConnection) (id : ℕ)
    (sendOk : Bool) : Adds Mild c (c.sendBuilt (mqttMsgAck type qos connection id) sendOk) := by
  refine mild_sendBuilt c sendOk fun packet hp => ?_
  rw [mqttMsgAck_type ht hq hp]
  exact ⟨hrec,hcomp⟩

theorem mild_finishPending (c : Client) (env : Env) : Adds Mild c (c.finishPending env) := by
  refine ⟨((queueGets c.msgQueue mqttBufSize env.isBegin).2.map Action.release).toList,rfl,?_⟩
  cases (queueGets c.msgQueue mqttBufSize env.isBegin).2 <;> simp [Mild]

theorem mild_handleAck (pendingType : ℕ) (c : Client) (msgId : ℕ) (env : Env) :
    Adds Mild c (Client.handleAck pendingType c msgId env) := by
  unfold Client.handleAck
  split
  · exact mild_finishPending c env
  · exact .refl c

theorem mild_handlePubrec (c : Client) (msgId : ℕ) (env : Env) :
    Adds Mild c (c.handlePubrec msgId env) := by
  unfold Client.handlePubrec
  split
  · exact (mild_sendAck (by decide) (by decide) (by decide) (by decide) _ _ _ _).after rfl
  · exact .refl c

theorem mild_handlePingreq (c : Client) (env : Env) : Adds Mild c (c.handlePingreq env) := by
  refine mild_sendBuilt c env.sendOk fun packet hp => ?_
  cases hp
  rw [finiMessage_type _ (by decide) (by decide) (by decide)]
  decide

theorem mild_handlePingresp (c : Client) (env : Env) : Adds Mild c (c.handlePingresp env) := by
  unfold Client.handlePingresp
  refine Adds.trans ?_ (mild_invoke _ .pingresp trivial env.calls)
  simp only
  split
  · exact .same rfl
  · split
    · exact (mild_finishPending _ env).after rfl
    · exact .same rfl

theorem mild_handleConnack (c : Client) (returnCode : UInt8) (env : Env) :
    Adds Mild c (c.handleConnack returnCode env) := by
  unfold Client.handleConnack
  split
  · exact mild_espconnDisconnect c
  · simp only
    split
    · exact (mild_invoke _ .connected trivial env.calls).after rfl
    · exact (mild_espconnDisconnect _).after rfl

theorem mild_dropConnection (c : Client) : Adds Mild c c.dropConnection := by
  unfold Client.dropConnection
  split
  · exact .emit (a := .disconnect) trivial rfl
  · exact .refl c

theorem mild_mqttTcpclientSentCb (c : Client) (env : Env) :
    Adds Mild c (c.mqttTcpclientSentCb env) := by
  unfold Client.mqttTcpclientSentCb
  refine Adds.before ?_ rfl
  simp only
  split
  · split
    · exact (mild_invoke _ .published trivial env.calls).after rfl
    · exact .same rfl
  · exact .same rfl

theorem mild_mqttTcpclientDisconCb (c : Client) (env : Env) :
    Adds Mild c (c.mqttTcpclientDisconCb env) := by
  unfold Client.mqttTcpclientDisconCb
  refine Adds.trans ((mild_invoke _ .disconnected trivial env.calls).after ?_) (.post _)
  rfl

theorem mild_mqttTimer (c : Client) (env : Env) : Adds Mild c (c.mqttTimer env) := by
  have hstate : Adds Mild c (c.timerConnState env) := by
    unfold Client.timerConnState
    cases c.connState with
    | mqttData =>
      simp only
      split <;> exact .same rfl
    | tcpReconnectReq =>
      simp only
      split
      · exact (mild_invoke _ .timeout trivial env.calls).after rfl
      · exact .same rfl
    | tcpConnecting =>
      simp only
      split
      · exact (mild_invoke _ .timeout trivial env.calls).after rfl
      · exact .same rfl
    | _ => exact .refl c
  have hping : ∀ d : Client, d.timerPingresp.log = d.log := by
    intro d
    unfold Client.timerPingresp
    split
    · simp only
      split <;> rfl
    · rfl
  have hsend : ∀ d : Client, d.timerSend.log = d.log := by
    intro d
    unfold Client.timerSend
    split
    · simp only
      split <;> rfl
    · rfl
  exact hstate.before ((hsend _).trans (hping _))

theorem mild_mqttSendKeepalive (c : Client) (sendOk : Bool) :
    Adds Mild c (c.mqttSendKeepalive sendOk) := by
  have hsent : ∀ r : Client × Bool, (Client.keepaliveSent r).log = r.1.log := by
    intro r
    unfold Client.keepaliveSent
    split <;> rfl
  unfold Client.mqttSendKeepalive
  split
  · exact .refl c
  · split
    · exact .same rfl
    · refine Adds.before ?_ (hsent _)
      unfold Client.espconnSend
      split
      · refine .emit (a := .send _) ?_ rfl
        rw [Mild,finiMessage_type _ (by decide) (by decide) (by decide)]
        decide
      · exact .same rfl

theorem mild_taskData {c : Client} {packets : List (List UInt8)} (h : Numbered c packets)
    (env : Env) : Adds Mild c (c.taskData env) := by
  unfold Client.taskData
  split
  · exact .refl c
  split
  · exact .refl c
  split
  · exact .refl c
  cases packets with
  | nil =>
    rw [queueGets_nil h.represents]
    exact .same rfl
  | cons head rest =>
    obtain ⟨hgot,_⟩ := queueGets_cons h.represents (Nat.le_refl mqttBufSize) env.isBegin
    have hmild : Mild (.send head) := by
      have hq := h.queueable head List.mem_cons_self
      simp only [Queueable,List.mem_cons,List.not_mem_nil,or_false] at hq
      rw [Mild]
      rcases hq with hq | hq | hq | hq <;> rw [hq] <;> decide
    simp only [hgot,Client.sendQueued,Client.queuedSent_espconnSend]
    split
    · split
      · exact .emit hmild rfl
      · refine Adds.trans (.emit hmild ?_) (.emit (a := .release head) trivial rfl)
        rfl
    · exact .same rfl

theorem mild_taskSwitch {c : Client} {packets : List (List UInt8)} (h : Numbered c packets)
    (env : Env) : Adds Mild c (c.taskSwitch env) := by
  have hdisc : Adds Mild c (if c.pCon then c.espconnDisconnect else c) := by
    split
    · exact mild_espconnDisconnect c
    · exact .refl c
  unfold Client.taskSwitch
  cases c.connState with
  | tcpReconnect =>
    exact ((mild_mqttTcpclientDelete c).trans (mild_mqttConnect _ env.dns)).before rfl
  | mqttDeleting => exact hdisc
  | tcpDisconnecting => exact hdisc
  | tcpReconnectDisconnecting => exact hdisc
  | tcpDisconnected => exact mild_mqttTcpclientDelete c
  | mqttDeleted => exact mild_mqttClientDelete c
  | mqttKeepaliveSend => exact mild_mqttSendKeepalive c env.sendOk
  | mqttData => exact mild_taskData h env
  | _ => exact .refl c

theorem mild_mqttTcpclientConnectCb (c : Client) (env : Env) :
    Adds Mild c (c.mqttTcpclientConnectCb env) := by
  unfold Client.mqttTcpclientConnectCb
  split
  · exact .same rfl
  cases hm : (mqttMsgConnect (mqttMsgInit mqttBufSize) c.connectInfo).message with
  | none =>
    simp only [hm]
    exact .same rfl
  | some packet =>
    simp only [hm]
    unfold Client.espconnSend Client.connectSent
    split
    · refine .emit (a := .send packet) ?_ rfl
      rw [Mild,mqttMsgConnect_type hm]
      decide
    · exact .same rfl

end Functions

/-- A QoS 2 message is acknowledged under its id and given to the application. -/
theorem handleMessage_qos2 {c : Client} {packet : List UInt8} (hq : isQos2 packet = true)
    (hid : mqttGetId packet packet.length ≠ 0) (ha : c.allocated = true) (env : Env) :
    ∃ sent new, (c.handleMessage packet env).log = c.log ++ .handled packet::(sent ++
        .callback (.data (publishTopic packet) (publishPayload packet))::new) ∧
      (sent = [] ∨ ∃ ack, sent = [.send ack] ∧ mqttGetType ack = pubrecType ∧
        packetId ack = packetId packet) ∧ ∀ a ∈ new, Mild a := by
  simp only [isQos2,Bool.and_eq_true,decide_eq_true_eq] at hq
  obtain ⟨ht,hq⟩ := hq
  have hno : ¬(publishType = subackType) ∧ ¬(publishType = unsubackType) := by decide
  simp only [Client.handleMessage,ht,if_neg hno.1,if_neg hno.2,if_true,Client.handlePublish,hq]
  rw [if_neg (by decide)]
  have halloc : ((c.emit (.handled packet)).sendBuilt (mqttMsgPubrec
      (c.emit (.handled packet)).mqttConnection (mqttGetId packet packet.length))
      env.sendOk).allocated = true := by
    have hneutral : Neutral (fun _ => True) (c.emit (.handled packet))
        ((c.emit (.handled packet)).sendBuilt (mqttMsgPubrec
          (c.emit (.handled packet)).mqttConnection (mqttGetId packet packet.length))
          env.sendOk) := Client.neutral_sendBuilt _ _ fun _ _ => trivial
    obtain ⟨new,htame,_⟩ := hneutral
    rw [htame.allocated_eq]
    exact ha
  have hlog := sendBuilt_log (c.emit (.handled packet)) (mqttMsgPubrec
    (c.emit (.handled packet)).mqttConnection (mqttGetId packet packet.length)) env.sendOk
  generalize (c.emit (.handled packet)).sendBuilt (mqttMsgPubrec
    (c.emit (.handled packet)).mqttConnection (mqttGetId packet packet.length)) env.sendOk = d
    at halloc hlog
  obtain ⟨new,hnew,hmild⟩ := mild_runCalls
    (d.emit (.callback (.data (publishTopic packet) (publishPayload packet)))) env.calls
  rw [Client.invoke,if_pos halloc,hnew]
  rcases hlog with hlog | ⟨ack,hm,hlog⟩
  · refine ⟨[],new,?_,Or.inl rfl,hmild⟩
    simp [Client.emit,hlog]
  · refine ⟨[.send ack],new,?_,Or.inr ⟨ack,rfl,mqttMsgAck_type (by decide) (by decide) hm,?_⟩,hmild⟩
    · simp [Client.emit,hlog]
    · rw [← mqttGetId_packetId packet hid]
      exact mqttMsgAck_packetId (by decide) (by decide) (by decide) (mqttGetId_lt packet) hid hm

theorem handleMessage_pubrel {c : Client} {packet : List UInt8}
    (ht : mqttGetType packet = pubrelType) (hid : mqttGetId packet packet.length ≠ 0) (env : Env) :
    ∃ sent, (c.handleMessage packet env).log = c.log ++ .handled packet::sent ∧
      (sent = [] ∨ ∃ ack, sent = [.send ack] ∧ mqttGetType ack = pubcompType ∧
        packetId ack = packetId packet) := by
  have hmessage : c.handleMessage packet env =
      (c.emit (.handled packet)).handlePubrel (mqttGetId packet packet.length) env := by
    simp [Client.handleMessage,ht,pubrelType,subackType,unsubackType,publishType,pubackType,
      pubrecType]
  rw [hmessage,Client.handlePubrel]
  rcases sendBuilt_log (c.emit (.handled packet)) (mqttMsgPubcomp
    (c.emit (.handled packet)).mqttConnection (mqttGetId packet packet.length)) env.sendOk with
    hlog | ⟨ack,hm,hlog⟩
  · refine ⟨[],?_,Or.inl rfl⟩
    rw [hlog]
    rfl
  · refine ⟨[.send ack],?_,Or.inr ⟨ack,rfl,mqttMsgAck_type (by decide) (by decide) hm,?_⟩⟩
    · rw [hlog]
      simp [Client.emit]
    · rw [← mqttGetId_packetId packet hid]
      exact mqttMsgAck_packetId (by decide) (by decide) (by decide) (mqttGetId_lt packet) hid hm

theorem handleMessage_other {c : Client} {packet : List UInt8} (hq : isQos2 packet = false)
    (ht : mqttGetType packet ≠ pubrelType) (env : Env) :
    Adds Bland (c.emit (.handled packet)) (c.handleMessage packet env) := by
  have hbland : ∀ {d e : Client}, Adds Mild d e → Adds Bland d e :=
    fun h => h.mono fun _ => Mild.bland
  unfold Client.handleMessage
  simp only [if_neg ht]
  split
  · exact hbland (mild_handleAck _ _ _ env)
  split
  · exact hbland (mild_handleAck _ _ _ env)
  split
  · rename_i hp
    have hqos : mqttGetQos packet ≠ 2 := by
      intro h
      simp [isQos2,hp,h] at hq
    unfold Client.handlePublish
    simp only [if_neg hqos]
    have hinvoke : ∀ d : Client, Adds Bland d
        (d.invoke (.data (publishTopic packet) (publishPayload packet)) env.calls) := by
      intro d
      unfold Client.invoke
      split
      · exact Adds.trans (.emit (a := .callback (.data (publishTopic packet)
          (publishPayload packet))) trivial rfl) (hbland (mild_runCalls _ env.calls))
      · exact .refl d
    refine Adds.trans ?_ (hinvoke _)
    split
    · exact hbland (mild_sendAck (by decide) (by decide) (by decide) (by decide) _ _ _ _)
    · exact .refl _
  split
  · exact hbland (mild_handleAck _ _ _ env)
  split
  · exact hbland (mild_handlePubrec _ _ env)
  split
  · exact hbland (mild_handleAck _ _ _ env)
  split
  · exact hbland (mild_handlePingreq _ env)
  split
  · exact hbland (mild_handlePingresp _ env)
  · exact .refl _

end MqttInbound
end MeterLogger
