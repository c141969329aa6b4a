import MeterLogger.MqttBroker
import MeterLogger.MqttPacketIds

/-!
# Acknowledgements of received messages

A received PUBLISH of QoS 1 or 2 is answered under the packet id that `mqtt_get_id` finds in it.
The id is found if payload follows it; else the acknowledgement is built with the id 0, for which
the builder draws a new one.
-/

namespace MeterLogger
namespace MqttClient

open Bytes MessageQueue MqttMessage MqttBroker Runs

theorem getD_of_drop {packet tail : List UInt8} {b : UInt8} {i : ℕ} (h : packet.drop i = b::tail) :
    packet.getD i 0 = b ∧ packet.drop (i+1) = tail := by
  have hlt : i < packet.length := by
    by_contra hge
    rw [List.drop_of_length_le (Nat.le_of_not_lt hge)] at h
    exact absurd h (by simp)
  rw [List.drop_eq_getElem_cons hlt,List.cons.injEq] at h
  exact ⟨by simp [List.getD,hlt,h.1],h.2⟩

theorem lengthLoop_field {k n : ℕ} {field : List UInt8} (h : LengthField k field n)
    {packet tail : List UInt8} {i : ℕ} (hi : 0 < i) (hpre : packet.drop i = field ++ tail)
    {turns : ℕ} (hturns : field.length ≤ turns) (totlen : ℕ) :
    lengthLoop packet turns i totlen = (i+field.length,totlen+n <<< (7*(i-1))) := by
  induction h generalizing i turns totlen with
  | last b hb =>
    obtain ⟨turns,rfl⟩ : ∃ t, turns = t+1 := ⟨turns-1,by simp at hturns; omega⟩
    obtain ⟨hget,_⟩ := getD_of_drop hpre
    rw [lengthLoop_succ _ _ _ _ b.toNat (by rw [hget]),if_pos hb,Nat.mod_eq_of_lt hb]
    rfl
  | more b hb hfield ih =>
    obtain ⟨turns,rfl⟩ : ∃ t, turns = t+1 := ⟨turns-1,by simp at hturns; omega⟩
    obtain ⟨hget,hrest⟩ := getD_of_drop hpre
    have hpow : 2^(7*i) = 128*2^(7*(i-1)) := by
      obtain ⟨j,rfl⟩ : ∃ j, i = j+1 := ⟨i-1,by omega⟩
      rw [Nat.add_sub_cancel,Nat.mul_add,pow_add]
      ring
    rw [lengthLoop_succ _ _ _ _ b.toNat (by rw [hget]),if_neg (by omega),
      ih (Nat.succ_pos i) hrest (Nat.le_of_succ_le_succ hturns)]
    simp only [Nat.shiftLeft_eq,Nat.succ_eq_add_one,Nat.add_sub_cancel,List.length_cons,
      Prod.mk.injEq,hpow]
    refine ⟨by omega,?_⟩
    ring

theorem LengthField.one_byte {k n : ℕ} {field : List UInt8} (h : LengthField k field n)
    (rest : List UInt8) : ((field ++ rest).getD 0 0).toNat < 128 ↔ field.length = 1 := by
  cases h with
  | last b hb => exact iff_of_true hb rfl
  | more b hb hfield =>
    have hpos := hfield.length_pos
    refine iff_of_false (Nat.not_lt.mpr hb) ?_
    rw [List.length_cons]
    omega

theorem shaped_of_field {first : UInt8} {field body : List UInt8}
    (h : LengthField 4 field body.length) :
    Shaped (first::(field ++ body)) body (1+field.length) first where
  split := ⟨first::field,by rw [List.length_cons,Nat.add_comm],rfl⟩
  head_eq := rfl
  loop_eq := by
    rw [lengthLoop_field h Nat.one_pos (show (first::(field ++ body)).drop 1 = field ++ body from rfl)
      (by simp) 0]
    simp
  packet_length := by
    rcases @packetLength_field first _ _ [] _ h
      (List.prefix_append _ _) with hl | ⟨_,hno⟩
    · exact hl
    · exact absurd hno (Nat.lt_irrefl _)
  one_byte := by
    rw [high_bit_clear]
    show ((field ++ body).getD 0 0).toNat < 128 ↔ 1+field.length = 2
    rw [h.one_byte body]
    omega

/-- A well-formed PUBLISH with a packet id, with any flags and any encoding of its length. -/
structure Publish (packet : List UInt8) (qos id : ℕ) (payload : List UInt8) : Prop where
  shape : ∃ first field topic, packet =
      first::(field ++ (u16Bytes topic.length ++ (topic ++ (u16Bytes id ++ payload)))) ∧
    LengthField 4 field (u16Bytes topic.length ++ (topic ++ (u16Bytes id ++ payload))).length ∧
    topic.length < 65536
  type_eq : mqttGetType packet = publishType
  qos_eq : mqttGetQos packet = qos
  qos_mem : qos = 1 ∨ qos = 2
  id_pos : 0 < id
  id_lt : id < 65536
  fits : packet.length ≤ mqttBufSize

theorem Publish.mqttGetId {packet payload : List UInt8} {qos id : ℕ} (h : Publish packet qos id payload) :
    mqttGetId packet packet.length = if payload = [] then 0 else id := by
  obtain ⟨first,field,topic,rfl,hfield,htopic⟩ := h.shape
  have hqos : 0 < mqttGetQos (first::(field ++ (u16Bytes topic.length ++
      (topic ++ (u16Bytes id ++ payload))))) := by
    rw [h.qos_eq]
    rcases h.qos_mem with rfl | rfl <;> decide
  exact (shaped_of_field hfield).publish_id htopic hqos h.id_lt h.type_eq

def ackType (qos : ℕ) : ℕ := if qos = 1 then pubackType else pubrecType

/-- The message that is handed to `mqtt_send_direct` for a PUBLISH. -/
def acknowledgement (c : Client) (packet : List UInt8) : Built :=
  if mqttGetQos packet = 1 then mqttMsgPuback c.mqttConnection (mqttGetId packet packet.length)
  else mqttMsgPubrec c.mqttConnection (mqttGetId packet packet.length)

theorem handlePacket_publish (c : Client) (env : Env) {packet payload tail : List UInt8} {qos id : ℕ}
    (hstate : c.connState = .mqttData ∨ c.connState = .mqttKeepaliveSend)
    (hbuffer : c.inBuffer = packet ++ tail) (h : Publish packet qos id payload) :
    c.handlePacket packet.length env =
      ((c.emit (.handled packet)).sendBuilt (acknowledgement c packet) env.sendOk).invoke
        (.data (publishTopic packet) (publishPayload packet)) env.calls := by
  have htake : c.inBuffer.take packet.length = packet := by
    rw [hbuffer]
    exact List.take_left' rfl
  have hmessage : c.handlePacket packet.length env = c.handleMessage packet env := by
    unfold Client.handlePacket
    rcases hstate with hs | hs
    · simp only [hs,htake]
    · simp only [hs,htake]
  have htype : c.handleMessage packet env = (c.emit (.handled packet)).handlePublish packet env := by
    rw [Client.handleMessage,h.type_eq]
    rfl
  rw [hmessage,htype,Client.handlePublish,acknowledgement,h.qos_eq]
  rcases h.qos_mem with rfl | rfl
  · rfl
  · rfl

/-- The acknowledgement carries the id, and no id was drawn for it. -/
structure Names (c : Client) (built : Built) (type id : ℕ) : Prop where
  message : built.message = some (ackPacket type id)
  counter : built.connection.messageId = c.mqttConnection.messageId

theorem mqttMsgAck_given {type id : ℕ} {c : MqttConnection} (hb : c.bufferLength = mqttBufSize)
    (hid : 0 < id) (ht : type = pubackType ∨ type = pubrecType) :
    (mqttMsgAck type 0 c id).message = some (ackPacket type id) ∧
      (mqttMsgAck type 0 c id).connection.messageId = c.messageId := by
  have hne : id ≠ 0 := Nat.pos_iff_ne_zero.mp hid
  have hroom : ¬(initMessage c).length+2 > (initMessage c).bufferLength := by
    rw [show (initMessage c).bufferLength = mqttBufSize from hb]
    show ¬maxFixedHeaderSize+0+2 > mqttBufSize
    decide
  have happ : appendMessageId (initMessage c) id = ({ c with body := u16Bytes id },id) := by
    rw [appendMessageId]
    simp only [if_neg hne,if_neg hroom]
    rfl
  rw [mqttMsgAck,happ]
  simp only [if_neg hne]
  refine ⟨?_,trivial⟩
  rcases ht with rfl | rfl
  · rfl
  · rfl

theorem mqttMsgAck_zero (type : ℕ) {c : MqttConnection} (hle : c.messageId ≤ idPeriod) :
    (mqttMsgAck type 0 c 0).connection.messageId ≠ c.messageId := by
  have hdrawn : (mqttMsgAck type 0 c 0).connection.messageId = nextMessageId c.messageId := by
    rw [mqttMsgAck]
    split
    · exact appendMessageId_counter _
    · exact appendMessageId_counter _
  rw [hdrawn,nextMessageId]
  rw [idPeriod] at hle
  split <;> omega

theorem numbered_step (c : Client) (e : Event) (c' : Client) (h : ∃ packets, Numbered c packets)
    (hstep : Step c e c') : ∃ packets, Numbered c' packets := by
  obtain ⟨_,rfl⟩ := hstep
  obtain ⟨packets,hnumbered⟩ := h
  cases hb : buildsConnect c e with
  | false =>
    obtain ⟨packets',_,_,hnumbered',_⟩ := moves_next c e hb packets hnumbered
    exact ⟨packets',hnumbered'⟩
  | true =>
    cases e with
    | connected env => exact ⟨packets,(numbered_connect hnumbered hb env).1⟩
    | _ => cases hb

/-- In every state a run reaches, a received message that comes to its turn is acknowledged under
its id, and the counter of the client is not touched, if and only if it has a payload. -/
theorem publish_acknowledged {host : List UInt8} {security : Bool} {info : ConnectInfo}
    {queueBufferSize : ℤ} {es : List Event} {c : Client}
    (h : Run Step (mqttInitClient host security info queueBufferSize) es c)
    (hstate : c.connState = .mqttData ∨ c.connState = .mqttKeepaliveSend)
    {pdata packet tail payload : List UInt8} {qos id : ℕ}
    (hbuffer : c.inBuffer ++ pdata = packet ++ tail) (hp : Publish packet qos id payload)
    (env : Env) :
    let d := { c with inBuffer := c.inBuffer ++ pdata }
    d.handlePacket packet.length env =
        ((d.emit (.handled packet)).sendBuilt (acknowledgement c packet) env.sendOk).invoke
          (.data (publishTopic packet) (publishPayload packet)) env.calls ∧
      (Names c (acknowledgement c packet) (ackType qos) id ↔ payload ≠ []) := by
  have hinit : ∃ packets, Numbered (mqttInitClient host security info queueBufferSize) packets := by
    obtain ⟨packets,hnumbered,_⟩ := mqttInitClient_idsSpread host security info queueBufferSize
    exact ⟨packets,hnumbered⟩
  obtain ⟨packets,hnumbered⟩ := h.invariant numbered_step hinit
  refine ⟨handlePacket_publish { c with inBuffer := c.inBuffer ++ pdata } env hstate hbuffer hp,?_⟩
  have hack : acknowledgement c packet =
      mqttMsgAck (ackType qos) 0 c.mqttConnection (if payload = [] then 0 else id) := by
    rw [acknowledgement,hp.qos_eq,hp.mqttGetId,ackType]
    rcases hp.qos_mem with rfl | rfl
    · rfl
    · rfl
  rw [hack]
  constructor
  · intro hnames hnil
    rw [if_pos hnil] at hnames
    exact mqttMsgAck_zero _ hnumbered.counter_le hnames.counter
  · intro hpayload
    rw [if_neg hpayload]
    have htype : ackType qos = pubackType ∨ ackType qos = pubrecType := by
      rw [ackType]
      split
      · exact Or.inl rfl
      · exact Or.inr rfl
    obtain ⟨hmessage,hcounter⟩ := mqttMsgAck_given hnumbered.bufferLength_eq hp.id_pos htype
    exact ⟨hmessage,hcounter⟩

def connectedEvents : List Event :=
  [.api (.connect .inProgress),.connected exampleEnv,.recv [0x20,2,0,0] exampleEnv]

/-- A message of QoS 1 with the id 7, for the topic `a`. -/
def message7 (payload : List UInt8) : List UInt8 :=
  0x32::UInt8.ofNat (5+payload.length)::([0,1,0x61,0,7] ++ payload)

theorem message7_publish {payload : List UInt8} (h : payload.length < 100) :
    Publish (message7 payload) 1 7 payload where
  shape := by
    have hlt : (UInt8.ofNat (5+payload.length)).toNat = 5+payload.length := by
      rw [UInt8.toNat_ofNat']
      omega
    have hbody : (u16Bytes [(0x61 : UInt8)].length ++ ([(0x61 : UInt8)] ++
        (u16Bytes 7 ++ payload))).length = (UInt8.ofNat (5+payload.length)).toNat := by
      rw [hlt]
      simp only [List.length_append,u16Bytes_length,List.length_singleton]
      omega
    refine ⟨0x32,[UInt8.ofNat (5+payload.length)],[0x61],rfl,?_,by decide⟩
    rw [hbody]
    exact .last _ (by omega)
  type_eq := by
    rw [mqttGetType_eq]
    show (0x32 : UInt8).toNat/16 = 3
    decide
  qos_eq := by
    rw [mqttGetQos_eq]
    show (0x32 : UInt8).toNat/2%4 = 1
    decide
  qos_mem := Or.inl rfl
  id_pos := by decide
  id_lt := by decide
  fits := by
    have hlen : (message7 payload).length = 7+payload.length := by
      simp [message7]
      omega
    rw [hlen,mqttBufSize]
    omega

theorem publish_acknowledged_7 :
    Names (connectedEvents.foldl next exampleClient)
      (acknowledgement (connectedEvents.foldl next exampleClient) (message7 [0x78])) pubackType 7 := by
  have hrun : Run Step exampleClient connectedEvents (connectedEvents.foldl next exampleClient) :=
    run_of_allEnabled (by decide)
  have hack := publish_acknowledged hrun (Or.inl (by decide))
    (show (connectedEvents.foldl next exampleClient).inBuffer ++ message7 [0x78] =
      message7 [0x78] ++ [] by decide) (message7_publish (by decide)) exampleEnv
  exact hack.2.mpr (by decide)

/-- Without a payload the acknowledgement carries the next id of the client. -/
theorem publish_misacknowledged :
    ¬∀ (es : List Event) (c : Client), Run Step exampleClient es c →
      c.connState = .mqttData ∨ c.connState = .mqttKeepaliveSend →
      ∀ (packet payload : List UInt8) (qos id : ℕ), Publish packet qos id payload →
        Names c (acknowledgement c packet) (ackType qos) id := by
  intro h
  have hrun : Run Step exampleClient connectedEvents (connectedEvents.foldl next exampleClient) :=
    run_of_allEnabled (by decide)
  have hnames := h connectedEvents _ hrun (Or.inl (by decide)) (message7 []) [] 1 7
    (message7_publish (by decide))
  have hmessage := hnames.message
  rw [show (acknowledgement (connectedEvents.foldl next exampleClient) (message7 [])).message =
    some (ackPacket pubackType 1) by decide] at hmessage
  exact absurd hmessage (by decide)

end MqttClient
end MeterLogger
