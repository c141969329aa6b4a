import MeterLogger.MessageQueue
import MeterLogger.MqttMessage

/-!
# Packets on their way to the queue

The packets the application's calls build fit the client's buffer and have one of four
types. Their packet id, as the format places it, is the one `mqtt_get_id` finds unless
that is 0.
-/

namespace MeterLogger
namespace MqttMessage

open Bytes MessageQueue

def headerSize (packet : List UInt8) : ℕ := (lengthLoop packet (packet.length-1) 1 0).1

/-- The packet id as the format places it: behind the topic of a publish, at the start of
the variable header of the other packets that carry one. -/
def packetId (packet : List UInt8) : ℕ :=
  if mqttGetType packet = publishType then
    readU16 packet (headerSize packet+2+readU16 packet (headerSize packet))
  else readU16 packet (headerSize packet)

theorem mqttGetId_packetId (packet : List UInt8) (h : mqttGetId packet packet.length ≠ 0) :
    mqttGetId packet packet.length = packetId packet := by
  by_cases hl : packet.length < 1
  · simp [mqttGetId,hl] at h
  simp only [mqttGetId,if_neg hl] at h ⊢
  by_cases hp : mqttGetType packet = publishType
  · simp only [if_pos hp] at h ⊢
    simp only [packetId,if_pos hp,headerSize]
    repeat' split
    all_goals first | rfl | simp_all
  · simp only [if_neg hp] at h ⊢
    split at h
    · rename_i hm
      split at h
      · rename_i hs
        rw [if_pos hm,if_pos hs]
        obtain ⟨n,hn⟩ : ∃ n, packet.length-1 = n+1 := ⟨packet.length-2,by omega⟩
        have hsize : headerSize packet = 2 := by
          rw [headerSize,hn]
          simp only [lengthLoop,hs.2,if_true]
        rw [packetId,if_neg hp,hsize]
      · exact absurd rfl h
    · exact absurd rfl h

theorem mqttGetId_qos0 {packet : List UInt8} (ht : mqttGetType packet = publishType)
    (hq : mqttGetQos packet = 0) : mqttGetId packet packet.length = 0 := by
  simp only [mqttGetId,ht,if_true,hq]
  repeat' split
  all_goals first | rfl | omega

/-- The packets the application can put into the queue. -/
def Queueable (packet : List UInt8) : Prop :=
  mqttGetType packet ∈ [publishType,subscribeType,unsubscribeType,pingreqType]

/-- What the builders of the application's calls leave: a packet that the queue takes, and
the size of the buffer as it was. -/
structure Queues (built : Built) : Prop where
  bufferLength_eq : built.connection.bufferLength = mqttBufSize
  queueable : ∀ packet, built.message = some packet → Queueable packet
  bounded : ∀ packet, built.message = some packet → packet.length ≤ mqttBufSize

theorem finiMessage_type (c : MqttConnection) {type qos retain : ℕ} (ht : type < 16) (hq : qos < 4)
    (hr : retain < 2) : mqttGetType (finiMessage c type 0 qos retain) = type := by
  have hb := headerByte_toNat ht hq hr
  rw [mqttGetType_eq,finiMessage]
  split
  all_goals
    simp only [List.getD_cons_zero,hb]
    omega

theorem finiMessage_length (c : MqttConnection) (type dup qos retain : ℕ) :
    (finiMessage c type dup qos retain).length ≤ c.length := by
  rw [finiMessage,MqttConnection.length,maxFixedHeaderSize]
  split
  all_goals
    simp only [List.length_cons]
    omega

theorem appendString_bufferLength {c c' : MqttConnection} {string : List UInt8}
    (h : appendString c string = some c') : c'.bufferLength = c.bufferLength := by
  obtain ⟨rfl,_⟩ := appendString_some h
  rfl

@[simp] theorem appendMessageId_bufferLength (c : MqttConnection) (id : ℕ) :
    (appendMessageId c id).1.bufferLength = c.bufferLength := by
  unfold appendMessageId
  split
  all_goals
    simp only
    split <;> rfl

@[simp] theorem initMessage_bufferLength (c : MqttConnection) :
    (initMessage c).bufferLength = c.bufferLength := rfl

theorem mqttMsgAck_bufferLength (type qos : ℕ) (c : MqttConnection) (id : ℕ) :
    (mqttMsgAck type qos c id).connection.bufferLength = c.bufferLength := by
  unfold mqttMsgAck failMessage
  simp only
  split <;> simp

theorem mqttMsgAck_type {type qos id : ℕ} {c : MqttConnection} {packet : List UInt8}
    (ht : type < 16) (hq : qos < 4) (h : (mqttMsgAck type qos c id).message = some packet) :
    mqttGetType packet = type := by
  unfold mqttMsgAck failMessage at h
  simp only at h
  split at h
  · cases h
  · cases h
    exact finiMessage_type _ ht hq (by decide)

theorem appendMessageId_given (c : MqttConnection) {id : ℕ} (hne : id ≠ 0) :
    appendMessageId c id = (c,0) ∨
      appendMessageId c id = ({ c with body := c.body ++ u16Bytes id },id) := by
  unfold appendMessageId
  simp only [if_neg hne]
  split
  · exact Or.inl rfl
  · exact Or.inr rfl

theorem mqttMsgAck_packetId {type qos id : ℕ} {c : MqttConnection} {packet : List UInt8}
    (ht : type < 16) (hq : qos < 4) (hnp : type ≠ publishType) (hid : id < 65536) (hne : id ≠ 0)
    (h : (mqttMsgAck type qos c id).message = some packet) : packetId packet = id := by
  have htype := mqttMsgAck_type ht hq h
  obtain ⟨first,rfl⟩ : ∃ first, packet = first :: 2 :: (u16Bytes id ++ []) := by
    rw [mqttMsgAck] at h
    rcases appendMessageId_given (initMessage c) hne with happ | happ
    · rw [happ] at h
      cases h
    · rw [happ] at h
      simp only [if_neg hne] at h
      cases h
      exact ⟨_,rfl⟩
  have hsize : headerSize (first :: 2 :: (u16Bytes id ++ [])) = 2 := by
    rw [headerSize,show (first :: 2 :: (u16Bytes id ++ [])).length-1 = 2+1 from rfl,
      lengthLoop_succ _ _ _ _ 2 rfl,if_pos (by decide)]
  rw [packetId,if_neg (by rwa [htype]),hsize]
  exact readU16_u16Bytes hid [first,2] []

theorem BuiltFrom.length_le {c c' : MqttConnection} {id type dup qos retain : ℕ} {body : List UInt8}
    (h : BuiltFrom c c' id body) : (finiMessage c' type dup qos retain).length ≤ c.bufferLength :=
  (finiMessage_length _ _ _ _ _).trans h.fits

theorem queues_publish {c : MqttConnection} (h : c.bufferLength = mqttBufSize)
    (topic data : List UInt8) {qos : ℕ} (hq : qos < 3) (retain : ℤ) :
    Queues (mqttMsgPublish c topic data qos retain) := by
  have hbuf : (mqttMsgPublish c topic data qos retain).connection.bufferLength = c.bufferLength := by
    simp only [mqttMsgPublish,failMessage]
    split
    · rfl
    · cases hs : appendString (initMessage c) topic with
      | none => rfl
      | some c₁ =>
        have h₁ := appendString_bufferLength hs
        simp only
        repeat' split
        all_goals simpa using h₁
  have hsome : ∀ packet, (mqttMsgPublish c topic data qos retain).message = some packet →
      Queueable packet ∧ packet.length ≤ mqttBufSize := by
    intro packet hp
    cases hb : mqttMsgPublish c topic data qos retain with
    | mk c' message id =>
      rw [hb] at hp
      subst hp
      obtain ⟨_,_,rfl,hfrom⟩ := mqttMsgPublish_some hb
      have hr : (retain%2).toNat < 2 := by omega
      have ht := finiMessage_type c' (show publishType < 16 by decide) (by omega : qos < 4) hr
      exact ⟨by simp [Queueable,ht],hfrom.length_le.trans_eq h⟩
  exact ⟨hbuf.trans h,fun p hp => (hsome p hp).1,fun p hp => (hsome p hp).2⟩

theorem queues_subscribe {c : MqttConnection} (h : c.bufferLength = mqttBufSize)
    (topic : List UInt8) (qos : ℕ) : Queues (mqttMsgSubscribe c topic qos) := by
  have hbuf : (mqttMsgSubscribe c topic qos).connection.bufferLength = c.bufferLength := by
    simp only [mqttMsgSubscribe,failMessage]
    split
    · rfl
    · split
      · simp
      · cases hs : appendString (appendMessageId (initMessage c) 0).1 topic with
        | none => simp
        | some c₁ =>
          have h₁ := appendString_bufferLength hs
          simp only
          split
          all_goals simpa using h₁
  have hsome : ∀ packet, (mqttMsgSubscribe c topic qos).message = some packet →
      Queueable packet ∧ packet.length ≤ mqttBufSize := by
    intro packet hp
    cases hb : mqttMsgSubscribe c topic qos with
    | mk c' message id =>
      rw [hb] at hp
      subst hp
      obtain ⟨_,_,rfl,hfrom⟩ := mqttMsgSubscribe_some hb
      have ht := finiMessage_type c' (show subscribeType < 16 by decide) (show 1 < 4 by decide)
        (show 0 < 2 by decide)
      exact ⟨by simp [Queueable,ht],hfrom.length_le.trans_eq h⟩
  exact ⟨hbuf.trans h,fun p hp => (hsome p hp).1,fun p hp => (hsome p hp).2⟩

theorem queues_unsubscribe {c : MqttConnection} (h : c.bufferLength = mqttBufSize)
    (topic : List UInt8) : Queues (mqttMsgUnsubscribe c topic) := by
  have hbuf : (mqttMsgUnsubscribe c topic).connection.bufferLength = c.bufferLength := by
    simp only [mqttMsgUnsubscribe,failMessage]
    split
    · rfl
    · split
      · simp
      · cases hs : appendString (appendMessageId (initMessage c) 0).1 topic with
        | none => simp
        | some c₁ => simpa using appendString_bufferLength hs
  have hsome : ∀ packet, (mqttMsgUnsubscribe c topic).message = some packet →
      Queueable packet ∧ packet.length ≤ mqttBufSize := by
    intro packet hp
    cases hb : mqttMsgUnsubscribe c topic with
    | mk c' message id =>
      rw [hb] at hp
      subst hp
      obtain ⟨_,_,rfl,hfrom⟩ := mqttMsgUnsubscribe_some hb
      have ht := finiMessage_type c' (show unsubscribeType < 16 by decide) (show 1 < 4 by decide)
        (show 0 < 2 by decide)
      exact ⟨by simp [Queueable,ht],hfrom.length_le.trans_eq h⟩
  exact ⟨hbuf.trans h,fun p hp => (hsome p hp).1,fun p hp => (hsome p hp).2⟩

theorem queues_pingreq {c : MqttConnection} (h : c.bufferLength = mqttBufSize) :
    Queues (mqttMsgPingreq c) where
  bufferLength_eq := h
  queueable packet hp := by
    cases hp
    have ht := finiMessage_type (initMessage c) (show pingreqType < 16 by decide)
      (show 0 < 4 by decide) (show 0 < 2 by decide)
    simp [Queueable,ht]
  bounded packet hp := by
    cases hp
    simp [finiMessage,initMessage,mqttBufSize]

theorem appendStrings_bufferLength {c c' : MqttConnection} {strings : List (List UInt8)}
    (h : appendStrings c strings = some c') : c'.bufferLength = c.bufferLength := by
  induction strings generalizing c with
  | nil =>
    cases h
    rfl
  | cons string strings ih =>
    cases hs : appendString c string with
    | none => simp [appendStrings,hs] at h
    | some c₁ =>
      simp only [appendStrings,hs] at h
      exact (ih h).trans (appendString_bufferLength hs)

theorem mqttMsgConnect_bufferLength (c : MqttConnection) (info : ConnectInfo) :
    (mqttMsgConnect c info).connection.bufferLength = c.bufferLength := by
  unfold mqttMsgConnect failMessage
  simp only
  split
  · rfl
  · split
    · rfl
    · split
      · rfl
      · rename_i hs
        have h := appendStrings_bufferLength hs
        exact h

theorem mqttMsgConnect_type {c : MqttConnection} {info : ConnectInfo} {packet : List UInt8}
    (h : (mqttMsgConnect c info).message = some packet) : mqttGetType packet = connectType := by
  unfold mqttMsgConnect failMessage at h
  simp only at h
  split at h
  · cases h
  · split at h
    · cases h
    · split at h
      · cases h
      · cases h
        exact finiMessage_type _ (by decide) (by decide) (by decide)

end MqttMessage
end MeterLogger
