import Mathlib.Data.Int.Basic
import MeterLogger.Bytes

/-!
# MQTT packets

The packet builders `mqtt_msg_*` append strings and packet ids behind three bytes
kept free for the fixed header; `fini_message` then writes a header of two or three
bytes. The accessors `mqtt_get_*` and `mqtt_get_packet_length` parse packets again.
Here both sides are modelled, and the shapes of packet that survive the round trip
are determined.
-/

namespace MeterLogger
namespace MqttMessage

open Bytes

def connectType : ℕ := 1
def connackType : ℕ := 2
def publishType : ℕ := 3
def pubackType : ℕ := 4
def pubrecType : ℕ := 5
def pubrelType : ℕ := 6
def pubcompType : ℕ := 7
def subscribeType : ℕ := 8
def subackType : ℕ := 9
def unsubscribeType : ℕ := 10
def unsubackType : ℕ := 11
def pingreqType : ℕ := 12
def pingrespType : ℕ := 13

/-- `MQTT_MAX_FIXED_HEADER_SIZE`. -/
def maxFixedHeaderSize : ℕ := 3

/-- `mqtt_connection_t`. The buffer behind the space for the fixed header is `body`;
`message.length` counts both. -/
structure MqttConnection where
  messageId : ℕ
  bufferLength : ℕ
  body : List UInt8

/-- `connection->message.length`. -/
def MqttConnection.length (c : MqttConnection) : ℕ := maxFixedHeaderSize + c.body.length

def mqttMsgInit (bufferLength : ℕ) : MqttConnection := ⟨0,bufferLength,[]⟩

def initMessage (c : MqttConnection) : MqttConnection := { c with body := [] }

/-- `append_string`; `none` is the return value -1. -/
def appendString (c : MqttConnection) (string : List UInt8) : Option MqttConnection :=
  if c.length+string.length+2 > c.bufferLength then none
  else some { c with body := c.body ++ (u16Bytes string.length ++ string) }

/-- The 16-bit counter after `while (message_id == 0) message_id = ++connection->message_id`. -/
def nextMessageId (m : ℕ) : ℕ := if (m+1)%65536 = 0 then 1 else (m+1)%65536

/-- `append_message_id`; the second component is the id, or 0 when it does not fit. -/
def appendMessageId (c : MqttConnection) (messageId : ℕ) : MqttConnection × ℕ :=
  let m := if messageId = 0 then nextMessageId c.messageId else messageId
  let c := if messageId = 0 then { c with messageId := m } else c
  if c.length+2 > c.bufferLength then (c,0)
  else ({ c with body := c.body ++ u16Bytes m },m)

/-- The first header byte: type, dup flag, QoS and retain flag. -/
def headerByte (type dup qos retain : ℕ) : UInt8 :=
  UInt8.ofNat (((type &&& 0x0f) <<< 4) ||| ((dup &&& 1) <<< 3) ||| ((qos &&& 3) <<< 1) ||| (retain &&& 1))

/-- `fini_message`: the bytes at `message.data`. -/
def finiMessage (c : MqttConnection) (type dup qos retain : ℕ) : List UInt8 :=
  if c.body.length > 127 then
    headerByte type dup qos retain :: (0x80 ||| UInt8.ofNat (c.body.length%128)) ::
      UInt8.ofNat (c.body.length/128) :: c.body
  else headerByte type dup qos retain :: UInt8.ofNat c.body.length :: c.body

/-- What a builder leaves: the connection with its id counter, the message (`none` after
`fail_message`) and the id stored for the caller. -/
structure Built where
  connection : MqttConnection
  message : Option (List UInt8)
  messageId : ℕ

def failMessage (c : MqttConnection) (messageId : ℕ) : Built := ⟨c,none,messageId⟩

def mqttMsgPublish (c : MqttConnection) (topic data : List UInt8) (qos : ℕ) (retain : ℤ) : Built :=
  let c := initMessage c
  if topic = [] then failMessage c 0
  else match appendString c topic with
  | none => failMessage c 0
  | some c =>
    let r := if qos > 0 then appendMessageId c 0 else (c,0)
    if qos > 0 ∧ r.2 = 0 then failMessage r.1 r.2
    else if r.1.length+data.length > r.1.bufferLength then failMessage r.1 r.2
    else
      let c := { r.1 with body := r.1.body ++ data }
      ⟨c,some (finiMessage c publishType 0 qos (retain%2).toNat),r.2⟩

def mqttMsgSubscribe (c : MqttConnection) (topic : List UInt8) (qos : ℕ) : Built :=
  let c := initMessage c
  if topic = [] then failMessage c 0
  else
    let r := appendMessageId c 0
    if r.2 = 0 then failMessage r.1 0
    else match appendString r.1 topic with
    | none => failMessage r.1 r.2
    | some c =>
      if c.length+1 > c.bufferLength then failMessage c r.2
      else
        let c := { c with body := c.body ++ [UInt8.ofNat qos] }
        ⟨c,some (finiMessage c subscribeType 0 1 0),r.2⟩

def mqttMsgUnsubscribe (c : MqttConnection) (topic : List UInt8) : Built :=
  let c := initMessage c
  if topic = [] then failMessage c 0
  else
    let r := appendMessageId c 0
    if r.2 = 0 then failMessage r.1 0
    else match appendString r.1 topic with
    | none => failMessage r.1 r.2
    | some c => ⟨c,some (finiMessage c unsubscribeType 0 1 0),r.2⟩

/-- The acknowledgement builders: a packet id behind the header. -/
def mqttMsgAck (type qos : ℕ) (c : MqttConnection) (messageId : ℕ) : Built :=
  let r := appendMessageId (initMessage c) messageId
  if r.2 = 0 then failMessage r.1 0
  else ⟨r.1,some (finiMessage r.1 type 0 qos 0),r.2⟩

def mqttMsgPuback : MqttConnection → ℕ → Built := mqttMsgAck pubackType 0
def mqttMsgPubrec : MqttConnection → ℕ → Built := mqttMsgAck pubrecType 0
def mqttMsgPubrel : MqttConnection → ℕ → Built := mqttMsgAck pubrelType 1
def mqttMsgPubcomp : MqttConnection → ℕ → Built := mqttMsgAck pubcompType 0

/-- The builders of packets that are a header only. -/
def mqttMsgEmpty (type : ℕ) (c : MqttConnection) : Built :=
  ⟨initMessage c,some (finiMessage (initMessage c) type 0 0 0),0⟩

def mqttMsgPingreq : MqttConnection → Built := mqttMsgEmpty pingreqType
def mqttMsgPingresp : MqttConnection → Built := mqttMsgEmpty pingrespType

/-- `mqtt_connect_info_t`. -/
structure ConnectInfo where
  clientId : Option (List UInt8)
  username : Option (List UInt8)
  password : Option (List UInt8)
  willTopic : Option (List UInt8)
  willMessage : List UInt8
  keepalive : ℕ
  willQos : ℕ
  willRetain : Bool
  cleanSession : Bool

/-- A string of the connect information that is set and not empty. -/
def given (field : Option (List UInt8)) : Bool := field.any (· ≠ [])

def connectFlags (info : ConnectInfo) : ℕ :=
  (if info.cleanSession then 1 <<< 1 else 0) |||
  (if given info.willTopic then
    (1 <<< 2) ||| (if info.willRetain then 1 <<< 5 else 0) ||| ((info.willQos &&& 3) <<< 3)
  else 0) |||
  (if given info.username then 1 <<< 7 else 0) |||
  (if given info.password then 1 <<< 6 else 0)

/-- `struct mqtt_connect_variable_header` for MQTT 3.1, the protocol compiled in. -/
def connectVariableHeader (info : ConnectInfo) : List UInt8 :=
  [0,6,0x4D,0x51,0x49,0x73,0x64,0x70,3,UInt8.ofNat (connectFlags info),
    UInt8.ofNat (info.keepalive >>> 8),UInt8.ofNat (info.keepalive &&& 0xff)]

/-- The strings `mqtt_msg_connect` appends, in order. -/
def connectStrings (info : ConnectInfo) : List (List UInt8) :=
  [info.clientId.getD []] ++
  (if given info.willTopic then [info.willTopic.getD [],info.willMessage] else []) ++
  (if given info.username then [info.username.getD []] else []) ++
  (if given info.password then [info.password.getD []] else [])

def appendStrings (c : MqttConnection) : List (List UInt8) → Option MqttConnection
  | [] => some c
  | string::strings =>
    match appendString c string with
    | none => none
    | some c => appendStrings c strings

/-- `mqtt_msg_connect`. A missing or empty client id is refused. -/
def mqttMsgConnect (c : MqttConnection) (info : ConnectInfo) : Built :=
  let c := initMessage c
  if c.length+(connectVariableHeader info).length > c.bufferLength then failMessage c 0
  else if given info.clientId = false then failMessage c 0
  else
    match appendStrings { c with body := connectVariableHeader info } (connectStrings info) with
    | none => failMessage c 0
    | some c => ⟨c,some (finiMessage c connectType 0 0 0),0⟩

def mqttGetType (buffer : List UInt8) : ℕ := ((buffer.getD 0 0 &&& 0xf0) >>> 4).toNat

def mqttGetQos (buffer : List UInt8) : ℕ := ((buffer.getD 0 0 &&& 0x06) >>> 1).toNat

/-- The loop over the Remaining Length field shared by the accessors: `n` turns are left,
`i` and `totlen` are the loop's variables. -/
def lengthLoop (buffer : List UInt8) : ℕ → ℕ → ℕ → ℕ × ℕ
  | 0, i, totlen => (i,totlen)
  | n+1, i, totlen =>
    let totlen := totlen + (buffer.getD i 0 &&& 0x7f).toNat <<< (7*(i-1))
    if buffer.getD i 0 &&& 0x80 = 0 then (i+1,totlen) else lengthLoop buffer n (i+1) totlen

/-- `mqtt_get_publish_topic`: the pointer as an offset, and the value left in `*length`. -/
def mqttGetPublishTopic (buffer : List UInt8) (length : ℕ) : Option ℕ × ℕ :=
  let i := (lengthLoop buffer (length-1) 1 0).1
  if i+2 ≥ length then (none,length)
  else
    let topiclen := readU16 buffer i
    if i+2+topiclen > length then (none,length) else (some (i+2),topiclen)

def mqttGetPublishData (buffer : List UInt8) (blength : ℕ) : Option ℕ × ℕ :=
  let r := lengthLoop buffer (blength-1) 1 0
  let totlen := r.2+r.1
  if r.1+2 ≥ blength then (none,0)
  else
    let topiclen := readU16 buffer r.1
    let i := r.1+2
    if i+topiclen > blength then (none,0)
    else
      let i := i+topiclen
      if mqttGetQos buffer > 0 ∧ i+2 ≥ blength then (none,0)
      else
        let i := if mqttGetQos buffer > 0 then i+2 else i
        if totlen < i then (none,0)
        else if totlen ≤ blength then (some i,totlen-i)
        else (some i,blength-i)

def mqttGetId (buffer : List UInt8) (length : ℕ) : ℕ :=
  if length < 1 then 0
  else if mqttGetType buffer = publishType then
    let i := (lengthLoop buffer (length-1) 1 0).1
    if i+2 ≥ length then 0
    else
      let topiclen := readU16 buffer i
      let i := i+2
      if i+topiclen ≥ length then 0
      else
        let i := i+topiclen
        if mqttGetQos buffer > 0 then
          if i+2 ≥ length then 0 else readU16 buffer i
        else 0
  else if mqttGetType buffer ∈
      [pubackType,pubrecType,pubrelType,pubcompType,subackType,unsubackType,subscribeType] then
    if length ≥ 4 ∧ buffer.getD 1 0 &&& 0x80 = 0 then readU16 buffer 2 else 0
  else 0

/-- The loop of `mqtt_get_packet_length`: `n` of the four turns are left. -/
def packetLengthLoop (buffer : List UInt8) (length : ℕ) : ℕ → ℕ → ℕ → ℕ → ℤ
  | 0, _, _, _ => -1
  | n+1, i, remaining, multiplier =>
    if i ≥ length then 0
    else
      let remaining := remaining + (buffer.getD i 0 &&& 0x7f).toNat*multiplier
      if buffer.getD i 0 &&& 0x80 = 0 then i+1+remaining
      else packetLengthLoop buffer length n (i+1) remaining (multiplier*128)

/-- `mqtt_get_packet_length`: 0 for an incomplete header, -1 for a malformed one. -/
def mqttGetPacketLength (buffer : List UInt8) (length : ℕ) : ℤ :=
  if length < 2 then 0 else packetLengthLoop buffer length 4 1 0 1

theorem mqttGetType_eq (buffer : List UInt8) :
    mqttGetType buffer = (buffer.getD 0 0).toNat/16 := high_nibble _

theorem mqttGetQos_eq (buffer : List UInt8) :
    mqttGetQos buffer = (buffer.getD 0 0).toNat/2%4 := bits_two_one _

theorem headerByte_toNat {type qos retain : ℕ} (ht : type < 16) (hq : qos < 4) (hr : retain < 2) :
    (headerByte type 0 qos retain).toNat = type*16+qos*2+retain := by
  have h : ∀ t : Fin 16, ∀ q : Fin 4, ∀ r : Fin 2,
      (headerByte t 0 q r).toNat = t*16+q*2+r := by decide
  exact h ⟨type,ht⟩ ⟨qos,hq⟩ ⟨retain,hr⟩

theorem or_high_bit (n : ℕ) :
    (0x80 ||| UInt8.ofNat (n%128) : UInt8).toNat = 128+n%128 := by
  have h : ∀ m : Fin 128, (0x80 ||| UInt8.ofNat m : UInt8).toNat = 128+m := by decide
  exact h ⟨n%128,Nat.mod_lt _ (by omega)⟩

/-- What the accessors see of a packet: `size` header bytes starting with `first`, then
`body`. -/
structure Shaped (packet body : List UInt8) (size : ℕ) (first : UInt8) : Prop where
  split : ∃ pre : List UInt8, pre.length = size ∧ packet = pre ++ body
  head_eq : packet.getD 0 0 = first
  loop_eq : lengthLoop packet (packet.length-1) 1 0 = (size,body.length)
  packet_length : mqttGetPacketLength packet packet.length = packet.length
  one_byte : packet.getD 1 0 &&& 0x80 = 0 ↔ size = 2

theorem lengthLoop_succ (buffer : List UInt8) (n i totlen v : ℕ)
    (hv : (buffer.getD i 0).toNat = v) :
    lengthLoop buffer (n+1) i totlen =
      if v < 128 then (i+1,totlen+(v%128) <<< (7*(i-1)))
      else lengthLoop buffer n (i+1) (totlen+(v%128) <<< (7*(i-1))) := by
  subst hv
  simp only [lengthLoop,low_seven,high_bit_clear]

theorem packetLengthLoop_succ (buffer : List UInt8) (length n i remaining multiplier v : ℕ)
    (hv : (buffer.getD i 0).toNat = v) (hi : i < length) :
    packetLengthLoop buffer length (n+1) i remaining multiplier =
      if v < 128 then ((i+1+(remaining+(v%128)*multiplier) : ℕ) : ℤ)
      else packetLengthLoop buffer length n (i+1) (remaining+(v%128)*multiplier)
        (multiplier*128) := by
  subst hv
  simp only [packetLengthLoop,low_seven,high_bit_clear,if_neg (Nat.not_le.mpr hi)]
  push_cast
  rfl

theorem finiMessage_short (c : MqttConnection) (type dup qos retain : ℕ) (h : c.body.length ≤ 127) :
    Shaped (finiMessage c type dup qos retain) c.body 2 (headerByte type dup qos retain) := by
  have hfini : finiMessage c type dup qos retain =
      headerByte type dup qos retain :: UInt8.ofNat c.body.length :: c.body := by
    rw [finiMessage,if_neg (by omega)]
  generalize hp : finiMessage c type dup qos retain = packet at hfini
  have hlen : packet.length = c.body.length+2 := by simp [hfini]
  have h₁ : (packet.getD 1 0).toNat = c.body.length := by
    rw [hfini]
    simp only [List.getD_cons_succ,List.getD_cons_zero,UInt8.toNat_ofNat']
    omega
  refine ⟨⟨[headerByte type dup qos retain,UInt8.ofNat c.body.length],rfl,hfini⟩,
    by rw [hfini]; rfl,?_,?_,?_⟩
  · rw [hlen,show c.body.length+2-1 = c.body.length+1 from rfl,lengthLoop_succ _ _ _ _ _ h₁,
      if_pos (by omega)]
    simp
    omega
  · rw [mqttGetPacketLength,if_neg (by omega),packetLengthLoop_succ _ _ _ _ _ _ _ h₁ (by omega),
      if_pos (by omega)]
    omega
  · rw [high_bit_clear,h₁]
    omega

theorem finiMessage_bytes (c : MqttConnection) (type dup qos retain : ℕ) (h : 127 < c.body.length) :
    ∃ b₁ b₂, finiMessage c type dup qos retain =
        headerByte type dup qos retain :: b₁ :: b₂ :: c.body ∧
      b₁.toNat = 128+c.body.length%128 ∧ b₂.toNat = c.body.length/128%256 := by
  refine ⟨_,_,by rw [finiMessage,if_pos (by omega)],or_high_bit c.body.length,?_⟩
  rw [UInt8.toNat_ofNat']

theorem finiMessage_long (c : MqttConnection) (type dup qos retain : ℕ) (h : 127 < c.body.length)
    (h' : c.body.length ≤ 16383) :
    Shaped (finiMessage c type dup qos retain) c.body 3 (headerByte type dup qos retain) := by
  obtain ⟨b₁,b₂,hfini,hb₁,hb₂⟩ := finiMessage_bytes c type dup qos retain h
  generalize hp : finiMessage c type dup qos retain = packet at hfini
  have hlen : packet.length = c.body.length+3 := by simp [hfini]
  have h₁ : (packet.getD 1 0).toNat = 128+c.body.length%128 := by rw [hfini]; exact hb₁
  have h₂ : (packet.getD 2 0).toNat = c.body.length/128 := by
    rw [hfini]
    exact hb₂.trans (Nat.mod_eq_of_lt (by omega))
  refine ⟨⟨[headerByte type dup qos retain,b₁,b₂],rfl,hfini⟩,by rw [hfini]; rfl,?_,?_,?_⟩
  · rw [hlen,show c.body.length+3-1 = c.body.length+1+1 from rfl,lengthLoop_succ _ _ _ _ _ h₁,
      if_neg (by omega),lengthLoop_succ _ _ _ _ _ h₂,if_pos (by omega)]
    simp only [Nat.shiftLeft_eq,Prod.mk.injEq,true_and]
    omega
  · rw [mqttGetPacketLength,if_neg (by omega),packetLengthLoop_succ _ _ _ _ _ _ _ h₁ (by omega),
      if_neg (by omega),packetLengthLoop_succ _ _ _ _ _ _ _ h₂ (by omega),if_pos (by omega)]
    omega
  · rw [high_bit_clear,h₁]
    omega

theorem finiMessage_shaped (c : MqttConnection) (type dup qos retain : ℕ)
    (h : c.body.length ≤ 16383) :
    Shaped (finiMessage c type dup qos retain) c.body (if c.body.length ≤ 127 then 2 else 3)
      (headerByte type dup qos retain) := by
  split
  · exact finiMessage_short c type dup qos retain (by assumption)
  · exact finiMessage_long c type dup qos retain (by omega) h

theorem finiMessage_over (c : MqttConnection) (type dup qos retain : ℕ) (h : 16383 < c.body.length) :
    mqttGetPacketLength (finiMessage c type dup qos retain)
      (finiMessage c type dup qos retain).length ≠ (finiMessage c type dup qos retain).length := by
  obtain ⟨b₁,b₂,hfini,hb₁,hb₂⟩ := finiMessage_bytes c type dup qos retain (by omega)
  generalize hp : finiMessage c type dup qos retain = packet at hfini
  have hlen : packet.length = c.body.length+3 := by simp [hfini]
  have h₁ : (packet.getD 1 0).toNat = 128+c.body.length%128 := by rw [hfini]; exact hb₁
  have h₂ : (packet.getD 2 0).toNat = c.body.length/128%256 := by rw [hfini]; exact hb₂
  rw [mqttGetPacketLength,if_neg (by omega),packetLengthLoop_succ _ _ _ _ _ _ _ h₁ (by omega),
    if_neg (by omega),packetLengthLoop_succ _ _ _ _ _ _ _ h₂ (by omega)]
  -- whatever bytes follow, the sum read differs from the length modulo 16384
  split
  · omega
  · rw [packetLengthLoop_succ _ _ _ _ _ _ _ rfl (by omega)]
    split
    · omega
    · rw [packetLengthLoop_succ _ _ _ _ _ _ _ rfl (by omega)]
      split
      · omega
      · simp only [packetLengthLoop]
        omega

/-- The topic a caller of `mqtt_get_publish_topic` sees, `none` for a null pointer. -/
def publishTopic (packet : List UInt8) : Option (List UInt8) :=
  match mqttGetPublishTopic packet packet.length with
  | (some i,n) => some ((packet.drop i).take n)
  | (none,_) => none

/-- The payload a caller of `mqtt_get_publish_data` sees; a null pointer of length 0 is the
empty payload. -/
def publishPayload (packet : List UInt8) : Option (List UInt8) :=
  match mqttGetPublishData packet packet.length with
  | (some i,n) => some ((packet.drop i).take n)
  | (none,n) => if n = 0 then some [] else none

namespace Shaped

variable {packet body : List UInt8} {size : ℕ} {first : UInt8}

theorem length_eq (h : Shaped packet body size first) : packet.length = size+body.length := by
  obtain ⟨pre,hpre,rfl⟩ := h.split
  rw [List.length_append,hpre]

theorem drop_eq (h : Shaped packet body size first) (k : ℕ) :
    packet.drop (size+k) = body.drop k := by
  obtain ⟨pre,hpre,rfl⟩ := h.split
  rw [← hpre,← List.drop_drop,List.drop_left]

theorem readU16_eq (h : Shaped packet body size first) (k : ℕ) :
    readU16 packet (size+k) = readU16 body k := by
  obtain ⟨pre,hpre,rfl⟩ := h.split
  rw [← hpre,readU16_append]

theorem type_eq {type qos retain : ℕ} (h : Shaped packet body size (headerByte type 0 qos retain))
    (ht : type < 16) (hq : qos < 4) (hr : retain < 2) : mqttGetType packet = type := by
  rw [mqttGetType_eq,h.head_eq,headerByte_toNat ht hq hr]
  omega

theorem qos_eq {type qos retain : ℕ} (h : Shaped packet body size (headerByte type 0 qos retain))
    (ht : type < 16) (hq : qos < 4) (hr : retain < 2) : mqttGetQos packet = qos := by
  rw [mqttGetQos_eq,h.head_eq,headerByte_toNat ht hq hr]
  omega

section Publish

variable {topic tail : List UInt8} (h : Shaped packet (u16Bytes topic.length ++ (topic ++ tail)) size first)
  (ht : topic ≠ []) (hl : topic.length < 65536)

include h

theorem publish_length : packet.length = size+2+topic.length+tail.length := by
  rw [h.length_eq]
  simp only [List.length_append,u16Bytes_length]
  omega

theorem publish_topic_drop : packet.drop (size+2) = topic ++ tail := by
  rw [h.drop_eq 2]
  exact List.drop_left' rfl

theorem publish_tail_drop (k : ℕ) : packet.drop (size+2+topic.length+k) = tail.drop k := by
  rw [← List.drop_drop,← List.drop_drop,h.publish_topic_drop,List.drop_left]

theorem publish_tail_read (k : ℕ) : readU16 packet (size+2+topic.length+k) = readU16 tail k := by
  obtain ⟨pre,hpre,rfl⟩ := h.split
  have hb : pre ++ (u16Bytes topic.length ++ (topic ++ tail)) =
      (pre ++ u16Bytes topic.length ++ topic) ++ tail := by simp
  have hsize : size+2+topic.length = (pre ++ u16Bytes topic.length ++ topic).length := by
    simp [hpre]
    omega
  rw [hb,hsize,readU16_append]

include hl

theorem publish_topiclen : readU16 packet size = topic.length := by
  have h₀ := h.readU16_eq 0
  rw [Nat.add_zero] at h₀
  rw [h₀]
  exact readU16_u16Bytes hl [] (topic ++ tail)

include ht

theorem publish_topic : publishTopic packet = some topic := by
  have hlen := h.publish_length
  have hpos : 0 < topic.length := List.length_pos_iff.mpr ht
  have hget : mqttGetPublishTopic packet packet.length = (some (size+2),topic.length) := by
    simp only [mqttGetPublishTopic,h.loop_eq,h.publish_topiclen hl]
    rw [if_neg (by omega),if_neg (by omega)]
  rw [publishTopic,hget]
  simp only [h.publish_topic_drop,List.take_left]

theorem publish_data_qos0 (hq : mqttGetQos packet = 0) : publishPayload packet = some tail := by
  have hlen := h.publish_length
  have hpos : 0 < topic.length := List.length_pos_iff.mpr ht
  have hget : mqttGetPublishData packet packet.length =
      (some (size+2+topic.length),tail.length) := by
    simp only [mqttGetPublishData,h.loop_eq,h.publish_topiclen hl,hq,gt_iff_lt,Nat.lt_irrefl,
      false_and,if_false]
    rw [if_neg (by omega),if_neg (by omega),
      if_neg (by simp only [List.length_append,u16Bytes_length]; omega),
      if_pos (by simp only [List.length_append,u16Bytes_length]; omega)]
    simp only [List.length_append,u16Bytes_length,Prod.mk.injEq,true_and]
    omega
  have hdrop := h.publish_tail_drop 0
  rw [Nat.add_zero] at hdrop
  rw [publishPayload,hget]
  simp [hdrop]

end Publish

section PublishId

variable {topic data : List UInt8} {id : ℕ}
  (h : Shaped packet (u16Bytes topic.length ++ (topic ++ (u16Bytes id ++ data))) size first)
  (ht : topic ≠ []) (hl : topic.length < 65536) (hq : 0 < mqttGetQos packet)

include h ht hl hq

/-- With a packet id the payload starts two bytes later; an empty payload is reported as a
null pointer. -/
theorem publish_data_qos : publishPayload packet = some data := by
  have hlen := h.publish_length
  have hpos : 0 < topic.length := List.length_pos_iff.mpr ht
  simp only [List.length_append,u16Bytes_length] at hlen
  by_cases hd : data = []
  · subst hd
    have hget : mqttGetPublishData packet packet.length = (none,0) := by
      simp only [mqttGetPublishData,h.loop_eq,h.publish_topiclen hl]
      rw [if_neg (by omega),if_neg (by omega),
        if_pos ⟨hq,by simp only [List.length_nil] at hlen; omega⟩]
    simp [publishPayload,hget]
  · have hdpos : 0 < data.length := List.length_pos_iff.mpr hd
    have hget : mqttGetPublishData packet packet.length =
        (some (size+2+topic.length+2),data.length) := by
      simp only [mqttGetPublishData,h.loop_eq,h.publish_topiclen hl,if_pos hq]
      rw [if_neg (by omega),if_neg (by omega),if_neg (by omega),
        if_neg (by simp only [List.length_append,u16Bytes_length]; omega),
        if_pos (by simp only [List.length_append,u16Bytes_length]; omega)]
      simp only [List.length_append,u16Bytes_length,Prod.mk.injEq,true_and]
      omega
    have hdrop : packet.drop (size+2+topic.length+2) = data :=
      (h.publish_tail_drop 2).trans (List.drop_left' rfl)
    rw [publishPayload,hget]
    simp [hdrop]

end PublishId

theorem publish_id {topic data : List UInt8} {id : ℕ}
    (h : Shaped packet (u16Bytes topic.length ++ (topic ++ (u16Bytes id ++ data))) size first)
    (hl : topic.length < 65536) (hq : 0 < mqttGetQos packet) (hid : id < 65536)
    (hty : mqttGetType packet = publishType) :
    mqttGetId packet packet.length = if data = [] then 0 else id := by
  have hlen := h.publish_length
  simp only [List.length_append,u16Bytes_length] at hlen
  have hread := h.publish_tail_read 0
  rw [Nat.add_zero] at hread
  have hid' : readU16 (u16Bytes id ++ data) 0 = id := readU16_u16Bytes hid [] data
  simp only [mqttGetId,hty,if_true,h.loop_eq,h.publish_topiclen hl,hq,hread,hid']
  by_cases hd : data = []
  · have hd' : data.length = 0 := by rw [hd]; rfl
    rw [if_neg (by omega),if_neg (by omega),if_neg (by omega),if_pos (by omega),if_pos hd]
  · have hdpos : 0 < data.length := List.length_pos_iff.mpr hd
    rw [if_neg (by omega),if_neg (by omega),if_neg (by omega),if_neg (by omega),if_neg hd]

/-- The id of a subscribe is found exactly when the remaining length takes one byte. -/
theorem subscribe_id {id : ℕ} {tail : List UInt8} (h : Shaped packet (u16Bytes id ++ tail) size first)
    (hid : id < 65536) (hty : mqttGetType packet = subscribeType) :
    mqttGetId packet packet.length = if size = 2 then id else 0 := by
  have hlen := h.length_eq
  simp only [List.length_append,u16Bytes_length] at hlen
  have hread := h.readU16_eq 0
  rw [Nat.add_zero] at hread
  have hid' : readU16 (u16Bytes id ++ tail) 0 = id := readU16_u16Bytes hid [] tail
  rw [hid'] at hread
  have hne : ¬subscribeType = publishType := by decide
  have hmem : subscribeType ∈ [pubackType,pubrecType,pubrelType,pubcompType,subackType,
      unsubackType,subscribeType] := by decide
  simp only [mqttGetId,hty,if_neg hne,if_pos hmem,h.one_byte]
  by_cases hs : size = 2
  · subst hs
    rw [if_neg (by omega),if_pos ⟨by omega,rfl⟩,if_pos rfl,hread]
  · simp only [hs,and_false,if_false,ite_self]

theorem unsubscribe_id (hty : mqttGetType packet = unsubscribeType) :
    mqttGetId packet packet.length = 0 := by
  have hne : ¬unsubscribeType = publishType := by decide
  have hmem : ¬unsubscribeType ∈ [pubackType,pubrecType,pubrelType,pubcompType,subackType,
      unsubackType,subscribeType] := by decide
  simp only [mqttGetId,hty,if_neg hne,if_neg hmem]
  split_ifs <;> rfl

end Shaped

theorem nextMessageId_ne (m : ℕ) : nextMessageId m ≠ 0 := by
  unfold nextMessageId
  split <;> omega

theorem nextMessageId_lt (m : ℕ) : nextMessageId m < 65536 := by
  unfold nextMessageId
  split <;> omega

theorem appendString_some {c c' : MqttConnection} {string : List UInt8}
    (h : appendString c string = some c') :
    c' = { c with body := c.body ++ (u16Bytes string.length ++ string) } ∧
      c'.length ≤ c.bufferLength := by
  unfold appendString at h
  split at h
  · cases h
  · cases h
    refine ⟨rfl,?_⟩
    simp only [MqttConnection.length,List.length_append,u16Bytes_length] at *
    omega

theorem appendMessageId_ne {c : MqttConnection} (h : (appendMessageId c 0).2 ≠ 0) :
    appendMessageId c 0 =
      ({ c with messageId := nextMessageId c.messageId, body := c.body ++ u16Bytes (nextMessageId c.messageId) },
        nextMessageId c.messageId) := by
  unfold appendMessageId at *
  simp only [if_true] at *
  split at h
  · exact absurd rfl h
  · rw [if_neg (by assumption)]

def publishBody (topic data : List UInt8) (qos id : ℕ) : List UInt8 :=
  u16Bytes topic.length ++ (topic ++ ((if qos > 0 then u16Bytes id else []) ++ data))

def subscribeBody (topic : List UInt8) (qos id : ℕ) : List UInt8 :=
  u16Bytes id ++ (u16Bytes topic.length ++ (topic ++ [UInt8.ofNat qos]))

def unsubscribeBody (topic : List UInt8) (id : ℕ) : List UInt8 :=
  u16Bytes id ++ (u16Bytes topic.length ++ topic)

/-- The connection after a message with this body was built in it. -/
structure BuiltFrom (c c' : MqttConnection) (messageId : ℕ) (body : List UInt8) : Prop where
  bufferLength_eq : c'.bufferLength = c.bufferLength
  messageId_eq : c'.messageId = messageId
  body_eq : c'.body = body
  fits : c'.length ≤ c.bufferLength

theorem mqttMsgPublish_some {c c' : MqttConnection} {topic data packet : List UInt8} {qos id : ℕ}
    {retain : ℤ} (h : mqttMsgPublish c topic data qos retain = ⟨c',some packet,id⟩) :
    topic ≠ [] ∧ id = (if qos > 0 then nextMessageId c.messageId else 0) ∧
      packet = finiMessage c' publishType 0 qos (retain%2).toNat ∧
      BuiltFrom c c' (if qos > 0 then id else c.messageId) (publishBody topic data qos id) := by
  unfold mqttMsgPublish at h
  by_cases ht : topic = []
  · simp [ht,failMessage] at h
  refine ⟨ht,?_⟩
  rw [if_neg ht] at h
  cases hs : appendString (initMessage c) topic with
  | none => simp [hs,failMessage] at h
  | some c₁ =>
    obtain ⟨rfl,_⟩ := appendString_some hs
    simp only [hs] at h
    by_cases hq : qos > 0
    · simp only [if_pos hq] at h ⊢
      split at h
      · simp [failMessage] at h
      · rename_i hid
        simp only [hq,true_and] at hid
        rw [appendMessageId_ne hid] at h
        split at h
        · simp [failMessage] at h
        · rename_i hroom
          obtain ⟨rfl,hp,rfl⟩ := Built.mk.inj h
          refine ⟨rfl,(Option.some.inj hp).symm,rfl,rfl,?_,?_⟩
          · simp [publishBody,initMessage,hq]
          · simp only [MqttConnection.length,List.length_append,initMessage] at hroom ⊢
            omega
    · simp only [if_neg hq] at h ⊢
      split at h
      · simp [failMessage] at h
      · split at h
        · simp [failMessage] at h
        · rename_i hroom
          obtain ⟨rfl,hp,rfl⟩ := Built.mk.inj h
          refine ⟨rfl,(Option.some.inj hp).symm,rfl,rfl,?_,?_⟩
          · simp [publishBody,initMessage,hq]
          · simp only [MqttConnection.length,List.length_append,initMessage] at hroom ⊢
            omega

theorem mqttMsgSubscribe_some {c c' : MqttConnection} {topic packet : List UInt8} {qos id : ℕ}
    (h : mqttMsgSubscribe c topic qos = ⟨c',some packet,id⟩) :
    topic ≠ [] ∧ id = nextMessageId c.messageId ∧ packet = finiMessage c' subscribeType 0 1 0 ∧
      BuiltFrom c c' id (subscribeBody topic qos id) := by
  unfold mqttMsgSubscribe at h
  by_cases ht : topic = []
  · simp [ht,failMessage] at h
  refine ⟨ht,?_⟩
  simp only [if_neg ht] at h
  split at h
  · simp [failMessage] at h
  · rename_i hid
    rw [appendMessageId_ne hid] at h
    split at h
    · simp [failMessage] at h
    · rename_i c₁ hs
      obtain ⟨rfl,_⟩ := appendString_some hs
      split at h
      · simp [failMessage] at h
      · rename_i hroom
        obtain ⟨rfl,hp,rfl⟩ := Built.mk.inj h
        refine ⟨rfl,(Option.some.inj hp).symm,rfl,rfl,?_,?_⟩
        · simp [subscribeBody,initMessage]
        · simp only [MqttConnection.length,List.length_append,List.length_singleton,
            initMessage] at hroom ⊢
          omega

theorem mqttMsgUnsubscribe_some {c c' : MqttConnection} {topic packet : List UInt8} {id : ℕ}
    (h : mqttMsgUnsubscribe c topic = ⟨c',some packet,id⟩) :
    topic ≠ [] ∧ id = nextMessageId c.messageId ∧ packet = finiMessage c' unsubscribeType 0 1 0 ∧
      BuiltFrom c c' id (unsubscribeBody topic id) := by
  unfold mqttMsgUnsubscribe at h
  by_cases ht : topic = []
  · simp [ht,failMessage] at h
  refine ⟨ht,?_⟩
  simp only [if_neg ht] at h
  split at h
  · simp [failMessage] at h
  · rename_i hid
    rw [appendMessageId_ne hid] at h
    split at h
    · simp [failMessage] at h
    · rename_i c₁ hs
      obtain ⟨rfl,hfits⟩ := appendString_some hs
      obtain ⟨rfl,hp,rfl⟩ := Built.mk.inj h
      exact ⟨rfl,(Option.some.inj hp).symm,rfl,rfl,by simp [unsubscribeBody,initMessage],hfits⟩

/-- What the client asks the builders for. -/
inductive Request
  | publish (topic data : List UInt8) (qos : Fin 3) (retain : ℤ)
  | subscribe (topic : List UInt8) (qos : Fin 3)
  | unsubscribe (topic : List UInt8)

def build (c : MqttConnection) : Request → Built
  | .publish topic data qos retain => mqttMsgPublish c topic data qos retain
  | .subscribe topic qos => mqttMsgSubscribe c topic qos
  | .unsubscribe topic => mqttMsgUnsubscribe c topic

/-- The accessors give back what was put into the packet, and the packet id told to the
caller. -/
def RoundTrips (request : Request) (packet : List UInt8) (id : ℕ) : Prop :=
  mqttGetPacketLength packet packet.length = packet.length ∧
  match request with
  | .publish topic data qos _ =>
    mqttGetType packet = publishType ∧ mqttGetQos packet = qos ∧
      publishTopic packet = some topic ∧ publishPayload packet = some data ∧
      (qos ≠ 0 → mqttGetId packet packet.length = id)
  | .subscribe _ _ =>
    mqttGetType packet = subscribeType ∧ mqttGetQos packet = 1 ∧
      mqttGetId packet packet.length = id
  | .unsubscribe _ =>
    mqttGetType packet = unsubscribeType ∧ mqttGetQos packet = 1 ∧
      mqttGetId packet packet.length = id

/-- The requests whose packets survive: no empty payload behind a packet id, a remaining
length that its field can hold (one byte for a subscribe), and no unsubscribe. -/
def Recoverable : Request → Prop
  | .publish topic data qos _ =>
    (qos = 0 ∨ data ≠ []) ∧ 2+topic.length+(if qos = 0 then 0 else 2)+data.length ≤ 16383
  | .subscribe topic _ => topic.length ≤ 122
  | .unsubscribe _ => False

theorem publish_roundTrips {c c' : MqttConnection} {topic data packet : List UInt8} {qos : Fin 3}
    {retain : ℤ} {id : ℕ} (h : mqttMsgPublish c topic data qos retain = ⟨c',some packet,id⟩) :
    RoundTrips (.publish topic data qos retain) packet id ↔
      Recoverable (.publish topic data qos retain) := by
  obtain ⟨ht,hid,rfl,hfrom⟩ := mqttMsgPublish_some h
  have hbody := hfrom.body_eq
  have hr : (retain%2).toNat < 2 := by omega
  have hqos : (qos : ℕ) < 4 := by omega
  have hlen : c'.body.length = 2+topic.length+(if qos = 0 then 0 else 2)+data.length := by
    rw [hbody,publishBody]
    by_cases hq : qos = 0
    · simp [hq]
      omega
    · have hq' : (qos : ℕ) > 0 := by omega
      simp [hq,hq']
      omega
  by_cases hover : 16383 < c'.body.length
  · refine iff_of_false (fun hrt => finiMessage_over c' _ _ _ _ hover hrt.1) ?_
    rintro ⟨_,hle⟩
    omega
  have hs := finiMessage_shaped c' publishType 0 qos (retain%2).toNat (by omega)
  have hty := hs.type_eq (by decide) hqos hr
  have hq := hs.qos_eq (by decide) hqos hr
  have hpl := hs.packet_length
  rw [hbody] at hs
  have htl : topic.length < 65536 := by omega
  by_cases hq0 : qos = 0
  · have hqn : ¬(qos : ℕ) > 0 := by simp [hq0]
    rw [publishBody,if_neg hqn,List.nil_append] at hs
    have hq0' := hq.trans (by simp [hq0] : (qos : ℕ) = 0)
    refine iff_of_true ⟨hpl,hty,hq,hs.publish_topic ht htl,hs.publish_data_qos0 ht htl hq0',
      fun hne => absurd hq0 hne⟩ ⟨Or.inl hq0,by omega⟩
  · have hqp : (qos : ℕ) > 0 := by omega
    rw [publishBody,if_pos hqp] at hs
    have hidlt : id < 65536 := by
      rw [hid,if_pos hqp]
      exact nextMessageId_lt _
    have hidne : id ≠ 0 := by
      rw [hid,if_pos hqp]
      exact nextMessageId_ne _
    have hget := hs.publish_id htl (by omega) hidlt hty
    constructor
    · rintro ⟨_,_,_,_,_,hgot⟩
      refine ⟨Or.inr fun hd => ?_,by omega⟩
      rw [hget,if_pos hd] at hgot
      exact hidne (hgot hq0).symm
    · rintro ⟨hdata,_⟩
      have hd : data ≠ [] := hdata.resolve_left hq0
      rw [if_neg hd] at hget
      exact ⟨hpl,hty,hq,hs.publish_topic ht htl,hs.publish_data_qos ht htl (by omega),fun _ => hget⟩

theorem subscribe_roundTrips {c c' : MqttConnection} {topic packet : List UInt8} {qos : Fin 3}
    {id : ℕ} (h : mqttMsgSubscribe c topic qos = ⟨c',some packet,id⟩) :
    RoundTrips (.subscribe topic qos) packet id ↔ Recoverable (.subscribe topic qos) := by
  obtain ⟨ht,hid,rfl,hfrom⟩ := mqttMsgSubscribe_some h
  have hbody := hfrom.body_eq
  have hlen : c'.body.length = topic.length+5 := by
    rw [hbody,subscribeBody]
    simp
    omega
  by_cases hover : 16383 < c'.body.length
  · refine iff_of_false (fun hrt => finiMessage_over c' _ _ _ _ hover hrt.1) ?_
    simp only [Recoverable]
    omega
  have hs := finiMessage_shaped c' subscribeType 0 1 0 (by omega)
  have hty := hs.type_eq (by decide) (by decide) (by decide)
  have hq := hs.qos_eq (by decide) (by decide) (by decide)
  have hpl := hs.packet_length
  rw [hbody] at hs
  have hget := hs.subscribe_id (by rw [hid]; exact nextMessageId_lt _) hty
  have hidne : id ≠ 0 := by rw [hid]; exact nextMessageId_ne _
  rw [← hbody,hlen] at hget
  have hsize : ((if topic.length+5 ≤ 127 then 2 else 3) = 2) ↔ topic.length ≤ 122 := by
    split <;> omega
  simp only [hsize] at hget
  constructor
  · rintro ⟨_,_,_,hgot⟩
    by_contra hn
    have hn' : ¬topic.length ≤ 122 := hn
    rw [if_neg hn'] at hget
    exact hidne (hgot.symm.trans hget)
  · intro hr
    have hr' : topic.length ≤ 122 := hr
    rw [if_pos hr'] at hget
    exact ⟨hpl,hty,hq,hget⟩

theorem unsubscribe_not_roundTrips {c c' : MqttConnection} {topic packet : List UInt8} {id : ℕ}
    (h : mqttMsgUnsubscribe c topic = ⟨c',some packet,id⟩) :
    ¬RoundTrips (.unsubscribe topic) packet id := by
  obtain ⟨_,hid,_,_⟩ := mqttMsgUnsubscribe_some h
  rintro ⟨_,hty,_,hgot⟩
  have hz : mqttGetId packet packet.length = 0 := Shaped.unsubscribe_id hty
  rw [hz,hid] at hgot
  exact nextMessageId_ne _ hgot.symm

/-- A packet that was built survives the round trip exactly when its request is
recoverable. -/
theorem build_roundTrips_iff (c : MqttConnection) (request : Request) (c' : MqttConnection)
    (packet : List UInt8) (id : ℕ) (h : build c request = ⟨c',some packet,id⟩) :
    RoundTrips request packet id ↔ Recoverable request := by
  cases request with
  | publish topic data qos retain => exact publish_roundTrips h
  | subscribe topic qos => exact subscribe_roundTrips h
  | unsubscribe topic => exact iff_of_false (unsubscribe_not_roundTrips h) not_false

/-- A one-letter topic and a one-letter payload survive. -/
theorem build_roundTrips_publish :
    build (mqttMsgInit 2048) (.publish [0x74] [0x31] 1 0) =
        ⟨⟨1,2048,publishBody [0x74] [0x31] 1 1⟩,some [0x32,6,0,1,0x74,0,1,0x31],1⟩ ∧
      (RoundTrips (.publish [0x74] [0x31] 1 0) [0x32,6,0,1,0x74,0,1,0x31] 1 ↔
        Recoverable (.publish [0x74] [0x31] 1 0)) := by
  have h : build (mqttMsgInit 2048) (.publish [0x74] [0x31] 1 0) =
      ⟨⟨1,2048,publishBody [0x74] [0x31] 1 1⟩,some [0x32,6,0,1,0x74,0,1,0x31],1⟩ := rfl
  exact ⟨h,build_roundTrips_iff _ _ _ _ _ h⟩

/-- A QoS 2 message without payload is sent with packet id 1 and parsed with packet id 0. -/
theorem build_roundTrips_fails :
    ¬∀ (request : Request) (c' : MqttConnection) (packet : List UInt8) (id : ℕ),
      build (mqttMsgInit 2048) request = ⟨c',some packet,id⟩ → RoundTrips request packet id := by
  intro h
  have hrt := h (.publish [0x74] [] 2 0) ⟨1,2048,publishBody [0x74] [] 2 1⟩
    [0x34,5,0,1,0x74,0,1] 1 rfl
  exact absurd (hrt.2.2.2.2.2 (by decide)) (by decide)

end MqttMessage
end MeterLogger
