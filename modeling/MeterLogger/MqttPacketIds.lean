import MeterLogger.IdCounter
import MeterLogger.MqttDelivery

/-!
# Packet ids in the queue

The packet id of a message is taken from a counter in the client's connection when the message is
built, long before the message is sent. What happens to the counter and to the ids in the queue is
a row of moves of `IdCounter`: an id is put behind the queue, or lost with a message that is not
queued, or the oldest leaves. Building a CONNECT starts the counter again.
-/

namespace MeterLogger
namespace MqttMessage

open Bytes MessageQueue IdCounter

def idPeriod : ℕ := 65535

/-- Publishes with an acknowledgement, subscribes and unsubscribes carry a packet id. -/
def carriesId (packet : List UInt8) : Bool :=
  (mqttGetType packet = publishType && 0 < mqttGetQos packet) ||
    mqttGetType packet ∈ [subscribeType,unsubscribeType]

theorem carriesId_publish {packet : List UInt8} (ht : mqttGetType packet = publishType) :
    carriesId packet = decide (0 < mqttGetQos packet) := by
  have hno : publishType ∉ [subscribeType,unsubscribeType] := by decide
  rw [carriesId,ht]
  simp [hno]

theorem carriesId_subscription {packet : List UInt8}
    (ht : mqttGetType packet ∈ [subscribeType,unsubscribeType]) : carriesId packet = true := by
  rw [carriesId,decide_eq_true ht,Bool.or_true]

theorem nextMessageId_eq {m : ℕ} (h : m ≤ idPeriod) : nextMessageId m = nextId idPeriod m := by
  rw [nextMessageId,nextId,idPeriod] at *
  split <;> omega

theorem nextMessageId_le (m : ℕ) : nextMessageId m ≤ idPeriod := by
  have hlt := nextMessageId_lt m
  rw [idPeriod]
  omega

theorem Shaped.headerSize_eq {packet body : List UInt8} {size : ℕ} {first : UInt8}
    (h : Shaped packet body size first) : headerSize packet = size := by
  rw [headerSize,h.loop_eq]

theorem appendStrings_messageId {c c' : MqttConnection} {strings : List (List UInt8)}
    (h : appendStrings c strings = some c') : c'.messageId = c.messageId := by
  induction strings generalizing c with
  | nil =>
    cases h
    rfl
  | cons string strings ih =>
    cases hs : appendString c string with
    | none => simp [appendStrings,hs] at h
    | some c₁ =>
      simp only [appendStrings,hs] at h
      rw [ih h]
      obtain ⟨rfl,_⟩ := appendString_some hs
      rfl

theorem mqttMsgConnect_messageId (c : MqttConnection) (info : ConnectInfo) :
    (mqttMsgConnect c info).connection.messageId = c.messageId := by
  unfold mqttMsgConnect failMessage
  simp only
  split
  · rfl
  · split
    · rfl
    · split
      · rfl
      · rename_i hs
        have h := appendStrings_messageId hs
        exact h

/-- What a builder does with the counter: an id is taken at most `k` times, and a packet that
carries one carries that. -/
structure Draws (c : MqttConnection) (k : ℕ) (built : Built) : Prop where
  failed : built.message = none → built.connection.messageId = c.messageId ∨
    0 < k ∧ built.connection.messageId = nextMessageId c.messageId
  packet : ∀ packet, built.message = some packet →
    carriesId packet = false ∧ built.connection.messageId = c.messageId ∨
    0 < k ∧ carriesId packet = true ∧ packetId packet = nextMessageId c.messageId ∧
      built.connection.messageId = nextMessageId c.messageId

theorem appendMessageId_counter (c : MqttConnection) :
    (appendMessageId c 0).1.messageId = nextMessageId c.messageId := by
  simp only [appendMessageId,if_true]
  split <;> rfl

theorem mqttMsgAck_counter (type qos : ℕ) (c : MqttConnection) (id : ℕ) :
    (mqttMsgAck type qos c id).connection.messageId = c.messageId ∨
      id = 0 ∧ (mqttMsgAck type qos c id).connection.messageId = nextMessageId c.messageId := by
  have happend : (appendMessageId (initMessage c) id).1.messageId = c.messageId ∨
      id = 0 ∧ (appendMessageId (initMessage c) id).1.messageId = nextMessageId c.messageId := by
    by_cases hid : id = 0
    · subst hid
      exact Or.inr ⟨rfl,appendMessageId_counter _⟩
    · left
      simp only [appendMessageId,if_neg hid]
      split <;> rfl
  rw [mqttMsgAck]
  split
  · exact happend
  · exact happend

theorem BuiltFrom.body_le {c c' : MqttConnection} {id : ℕ} {body : List UInt8}
    (h : BuiltFrom c c' id body) (hb : c.bufferLength = mqttBufSize) : c'.body.length ≤ 16383 := by
  have hfits := h.fits
  rw [hb,MqttConnection.length,mqttBufSize] at hfits
  omega

theorem draws_publish {c : MqttConnection} (hb : c.bufferLength = mqttBufSize)
    (topic data : List UInt8) {qos : ℕ} (hq : qos < 3) (retain : ℤ) :
    Draws c (if 0 < qos then 1 else 0) (mqttMsgPublish c topic data qos retain) := by
  have hr : (retain%2).toNat < 2 := by omega
  refine ⟨fun _ => ?_,fun packet hp => ?_⟩
  · simp only [mqttMsgPublish,failMessage]
    split
    · exact Or.inl rfl
    · cases hs : appendString (initMessage c) topic with
      | none => exact Or.inl rfl
      | some c₁ =>
        obtain ⟨rfl,_⟩ := appendString_some hs
        by_cases hpos : qos > 0
        · have hcounter := appendMessageId_counter { initMessage c with
            body := (initMessage c).body ++ (u16Bytes topic.length ++ topic) }
          right
          simp only [if_pos hpos]
          refine ⟨Nat.one_pos,?_⟩
          split_ifs <;> exact hcounter
        · left
          simp only [if_neg hpos]
          split_ifs <;> rfl
  · cases hbuilt : mqttMsgPublish c topic data qos retain with
    | mk c' message id =>
      rw [hbuilt] at hp
      subst hp
      obtain ⟨ht,hid,rfl,hfrom⟩ := mqttMsgPublish_some hbuilt
      have hshape := finiMessage_shaped c' publishType 0 qos (retain%2).toNat (hfrom.body_le hb)
      have htype := hshape.type_eq (by decide) (by omega) hr
      have hqos := hshape.qos_eq (by decide) (by omega) hr
      by_cases hpos : qos > 0
      · right
        rw [if_pos hpos] at hid
        have hmessage := hfrom.messageId_eq
        rw [if_pos hpos,hid] at hmessage
        have hcarries : carriesId (finiMessage c' publishType 0 qos (retain%2).toNat) = true := by
          rw [carriesId_publish htype,hqos,decide_eq_true hpos]
        refine ⟨by simp [hpos],hcarries,?_,hmessage⟩
        have hbody : c'.body = u16Bytes topic.length ++ (topic ++ (u16Bytes id ++ data)) := by
          rw [hfrom.body_eq,publishBody,if_pos hpos]
        have hlen : topic.length < 65536 := by
          have hle := hfrom.body_le hb
          rw [hbody] at hle
          simp only [List.length_append] at hle
          omega
        rw [hbody] at hshape
        have hread := hshape.publish_tail_read 0
        rw [Nat.add_zero] at hread
        rw [packetId,if_pos htype,hshape.headerSize_eq,hshape.publish_topiclen hlen,hread,hid]
        exact readU16_u16Bytes (nextMessageId_lt _) [] data
      · left
        have hmessage := hfrom.messageId_eq
        rw [if_neg hpos] at hmessage
        refine ⟨?_,hmessage⟩
        rw [carriesId_publish htype,hqos,decide_eq_false hpos]

theorem packetId_subscription {packet rest : List UInt8} {id size : ℕ} {first : UInt8}
    (h : Shaped packet (u16Bytes id ++ rest) size first) (hid : id < 65536)
    (ht : mqttGetType packet ≠ publishType) : packetId packet = id := by
  have hread := h.readU16_eq 0
  rw [Nat.add_zero] at hread
  rw [packetId,if_neg ht,h.headerSize_eq,hread]
  exact readU16_u16Bytes hid [] rest

theorem draws_subscribe {c : MqttConnection} (hb : c.bufferLength = mqttBufSize)
    (topic : List UInt8) (qos : ℕ) : Draws c 1 (mqttMsgSubscribe c topic qos) := by
  have hcounter := appendMessageId_counter (initMessage c)
  refine ⟨fun _ => ?_,fun packet hp => ?_⟩
  · simp only [mqttMsgSubscribe,failMessage]
    split
    · exact Or.inl rfl
    · right
      refine ⟨Nat.one_pos,?_⟩
      split
      · exact hcounter
      · cases hs : appendString (appendMessageId (initMessage c) 0).1 topic with
        | none => exact hcounter
        | some c₁ =>
          obtain ⟨rfl,_⟩ := appendString_some hs
          dsimp only
          split <;> exact hcounter
  · cases hbuilt : mqttMsgSubscribe c topic qos with
    | mk c' message id =>
      rw [hbuilt] at hp
      subst hp
      obtain ⟨_,rfl,rfl,hfrom⟩ := mqttMsgSubscribe_some hbuilt
      have hshape := finiMessage_shaped c' subscribeType 0 1 0 (hfrom.body_le hb)
      have htype := hshape.type_eq (by decide) (by decide) (by decide)
      rw [hfrom.body_eq,subscribeBody] at hshape
      have hcarries := carriesId_subscription (by rw [htype]; decide)
      have hid := packetId_subscription hshape (nextMessageId_lt _) (by rw [htype]; decide)
      exact Or.inr ⟨Nat.one_pos,hcarries,hid,hfrom.messageId_eq⟩

theorem draws_unsubscribe {c : MqttConnection} (hb : c.bufferLength = mqttBufSize)
    (topic : List UInt8) : Draws c 1 (mqttMsgUnsubscribe c topic) := by
  have hcounter := appendMessageId_counter (initMessage c)
  refine ⟨fun _ => ?_,fun packet hp => ?_⟩
  · simp only [mqttMsgUnsubscribe,failMessage]
    split
    · exact Or.inl rfl
    · right
      refine ⟨Nat.one_pos,?_⟩
      split
      · exact hcounter
      · cases hs : appendString (appendMessageId (initMessage c) 0).1 topic with
        | none => exact hcounter
        | some c₁ =>
          obtain ⟨rfl,_⟩ := appendString_some hs
          exact hcounter
  · cases hbuilt : mqttMsgUnsubscribe c topic with
    | mk c' message id =>
      rw [hbuilt] at hp
      subst hp
      obtain ⟨_,rfl,rfl,hfrom⟩ := mqttMsgUnsubscribe_some hbuilt
      have hshape := finiMessage_shaped c' unsubscribeType 0 1 0 (hfrom.body_le hb)
      have htype := hshape.type_eq (by decide) (by decide) (by decide)
      rw [hfrom.body_eq,unsubscribeBody] at hshape
      have hcarries := carriesId_subscription (by rw [htype]; decide)
      have hid := packetId_subscription hshape (nextMessageId_lt _) (by rw [htype]; decide)
      exact Or.inr ⟨Nat.one_pos,hcarries,hid,hfrom.messageId_eq⟩

theorem draws_pingreq (c : MqttConnection) : Draws c 0 (mqttMsgPingreq c) := by
  refine ⟨fun h => absurd h (by simp [mqttMsgPingreq,mqttMsgEmpty]),fun packet hp => Or.inl ⟨?_,rfl⟩⟩
  obtain rfl := Option.some.inj hp
  have htype := finiMessage_type (initMessage c) (show pingreqType < 16 by decide)
    (show 0 < 4 by decide) (show 0 < 2 by decide)
  rw [carriesId,htype]
  rfl

end MqttMessage

namespace MqttClient

open MessageQueue MqttMessage MqttUtils IdCounter Runs

def ids (packets : List (List UInt8)) : List ℕ := (packets.filter carriesId).map packetId

def counter (c : Client) : ℕ := c.mqttConnection.messageId

/-- The queue holds `packets` of the application, and the buffer and the counter are what they
should be. -/
structure Numbered (c : Client) (packets : List (List UInt8)) : Prop where
  represents : Represents c.msgQueue packets
  bufferLength_eq : c.mqttConnection.bufferLength = mqttBufSize
  counter_le : counter c ≤ idPeriod
  queueable : ∀ p ∈ packets, Queueable p

/-- A step that takes at most `k` ids. -/
def Moves (k : ℕ) (c c' : Client) : Prop :=
  ∀ packets, Numbered c packets → ∃ packets' j, j ≤ k ∧ Numbered c' packets' ∧
    Shift idPeriod (ids packets,counter c) j (ids packets',counter c')

section Moves

variable {c d e : Client} {j k : ℕ}

theorem Moves.same (hq : d.msgQueue = c.msgQueue)
    (hb : d.mqttConnection.bufferLength = c.mqttConnection.bufferLength)
    (hm : counter d = counter c) : Moves 0 c d := by
  intro packets h
  refine ⟨packets,0,Nat.le_refl _,⟨?_,?_,?_,h.queueable⟩,?_⟩
  · rw [hq]
    exact h.represents
  · rw [hb]
    exact h.bufferLength_eq
  · rw [hm]
    exact h.counter_le
  · rw [hm]
    exact .refl

theorem Moves.refl (c : Client) : Moves 0 c c := .same rfl rfl rfl

theorem Moves.keeps (hq : d.msgQueue = c.msgQueue) (hm : d.mqttConnection = c.mqttConnection) :
    Moves k c d := by
  intro packets h
  have hcounter : counter d = counter c := by rw [counter,counter,hm]
  obtain ⟨packets',j,hj,h'⟩ := Moves.same hq (by rw [hm]) hcounter packets h
  exact ⟨packets',j,hj.trans (Nat.zero_le k),h'⟩

theorem Moves.mono (h : Moves j c d) (hjk : j ≤ k) : Moves k c d := by
  intro packets hc
  obtain ⟨packets',i,hi,hd,hshift⟩ := h packets hc
  exact ⟨packets',i,hi.trans hjk,hd,hshift⟩

theorem Moves.trans (h₁ : Moves j c d) (h₂ : Moves k d e) : Moves (j+k) c e := by
  intro packets hc
  obtain ⟨packets₁,i₁,hi₁,hd,hshift₁⟩ := h₁ packets hc
  obtain ⟨packets₂,i₂,hi₂,he,hshift₂⟩ := h₂ packets₁ hd
  exact ⟨packets₂,i₁+i₂,by omega,he,hshift₁.trans hshift₂⟩

theorem Moves.after (h₂ : Moves k d e) (h₁ : Moves 0 c d) : Moves k c e := by
  simpa using h₁.trans h₂

theorem Moves.before (h₁ : Moves k c d) (h₂ : Moves 0 d e) : Moves k c e := h₁.trans h₂

theorem ids_append (xs ys : List (List UInt8)) : ids (xs ++ ys) = ids xs ++ ids ys := by
  simp [ids]

end Moves

namespace Client

variable {c : Client}

theorem moves_queueMessage (c : Client) {built : Built} {k : ℕ}
    (hq : c.mqttConnection.bufferLength = mqttBufSize → Queues built)
    (hd : c.mqttConnection.bufferLength = mqttBufSize → Draws c.mqttConnection k built) :
    Moves k c (c.queueMessage built).1 := by
  intro packets h
  have hqueues := hq h.bufferLength_eq
  have hdraws := hd h.bufferLength_eq
  have hnext := nextMessageId_eq h.counter_le
  have hle := nextMessageId_le (counter c)
  have hlost : ∀ d : Client, d.mqttConnection = built.connection → Represents d.msgQueue packets →
      built.connection.messageId = counter c ∨
        0 < k ∧ built.connection.messageId = nextMessageId (counter c) →
      ∃ packets' j, j ≤ k ∧ Numbered d packets' ∧
        Shift idPeriod (ids packets,counter c) j (ids packets',counter d) := by
    intro d hd hrep hcounter
    have hbuf : d.mqttConnection.bufferLength = mqttBufSize := by rw [hd,hqueues.bufferLength_eq]
    have hcd : counter d = built.connection.messageId := by rw [counter,hd]
    rcases hcounter with hsame | ⟨hk,htaken⟩
    · refine ⟨packets,0,Nat.zero_le _,⟨hrep,hbuf,?_,h.queueable⟩,?_⟩
      · rw [hcd,hsame]
        exact h.counter_le
      · rw [hcd,hsame]
        exact .refl
    · refine ⟨packets,1,hk,⟨hrep,hbuf,?_,h.queueable⟩,?_⟩
      · rw [hcd,htaken]
        exact hle
      · rw [hcd,htaken,hnext]
        exact .lose .refl
  cases hm : built.message with
  | none =>
    have hresult : (c.queueMessage built).1 = { c with mqttConnection := built.connection } := by
      simp [queueMessage,hm]
    rw [hresult]
    exact hlost _ rfl h.represents (hdraws.failed hm)
  | some packet =>
    have hbounded := hqueues.bounded packet hm
    have hpacket := hdraws.packet packet hm
    have hcounter : built.connection.messageId = counter c ∨
        0 < k ∧ built.connection.messageId = nextMessageId (counter c) := by
      rcases hpacket with ⟨_,hsame⟩ | ⟨hk,_,_,htaken⟩
      · exact Or.inl hsame
      · exact Or.inr ⟨hk,htaken⟩
    by_cases hr : (queuePuts c.msgQueue packet).2 = -1
    · have hroom := (queuePuts_ret_iff h.represents hbounded).mp hr
      have hresult : (c.queueMessage built).1 = { c with
          mqttConnection := built.connection, msgQueue := (queuePuts c.msgQueue packet).1 } := by
        simp [queueMessage,hm,hr]
      rw [hresult]
      exact hlost _ rfl (queuePuts_full h.represents hroom).2.2 hcounter
    · have hroom := mt (queuePuts_ret_iff h.represents hbounded).mpr hr
      have hrep := (queuePuts_room h.represents hbounded (by omega)).2.2
      have hresult : (c.queueMessage built).1 = post (emit { c with
          mqttConnection := built.connection, msgQueue := (queuePuts c.msgQueue packet).1 }
            (.accept packet)) := by
        simp [queueMessage,hm,hr]
      rw [hresult]
      have hall : ∀ p ∈ packets ++ [packet], Queueable p := by
        intro p hp
        rcases List.mem_append.mp hp with hp | hp
        · exact h.queueable p hp
        · rw [List.mem_singleton.mp hp]
          exact hqueues.queueable packet hm
      rcases hpacket with ⟨hno,hsame⟩ | ⟨hk,hcarries,hid,htaken⟩
      · refine ⟨packets ++ [packet],0,Nat.zero_le _,⟨hrep,hqueues.bufferLength_eq,?_,hall⟩,?_⟩
        · show built.connection.messageId ≤ idPeriod
          rw [hsame]
          exact h.counter_le
        · have hids : ids (packets ++ [packet]) = ids packets := by
            simp [ids,hno]
          show Shift idPeriod (ids packets,counter c) 0
            (ids (packets ++ [packet]),built.connection.messageId)
          rw [hids,hsame]
          exact .refl
      · refine ⟨packets ++ [packet],1,hk,⟨hrep,hqueues.bufferLength_eq,?_,hall⟩,?_⟩
        · show built.connection.messageId ≤ idPeriod
          rw [htaken]
          exact hle
        · have hids : ids (packets ++ [packet]) = ids packets ++ [nextMessageId (counter c)] := by
            rw [ids_append]
            simp [ids,hcarries,hid,counter]
          show Shift idPeriod (ids packets,counter c) 1
            (ids (packets ++ [packet]),built.connection.messageId)
          rw [hids,htaken]
          show Shift idPeriod (ids packets,counter c) 1
            (ids packets ++ [nextMessageId (counter c)],nextMessageId (counter c))
          rw [hnext]
          exact .push .refl

def takes : ApiCall → ℕ
  | .publish (some _) (some _) qos _ => if 0 < qos ∧ qos ≤ 2 then 1 else 0
  | .subscribe (some _) _ => 1
  | .unSubscribe (some _) => 1
  | _ => 0

def allTakes (calls : List ApiCall) : ℕ := (calls.map takes).sum

theorem moves_post (c : Client) : Moves 0 c c.post := .same rfl rfl rfl

theorem moves_emit (c : Client) (a : Action) : Moves 0 c (c.emit a) := .same rfl rfl rfl

theorem moves_espconnSend (c : Client) (sendOk : Bool) (packet : List UInt8) :
    Moves 0 c (c.espconnSend sendOk packet).1 := by
  unfold espconnSend
  split <;> exact .same rfl rfl rfl

theorem moves_espconnDisconnect (c : Client) : Moves 0 c c.espconnDisconnect := by
  unfold espconnDisconnect
  split <;> exact .same rfl rfl rfl

theorem moves_mqttTcpclientDelete (c : Client) : Moves 0 c c.mqttTcpclientDelete := by
  unfold mqttTcpclientDelete
  simp only
  split <;> exact .same rfl rfl rfl

theorem moves_mqttDnsFound (c : Client) (addr : Option ℕ) : Moves 0 c (c.mqttDnsFound addr) := by
  unfold mqttDnsFound
  cases addr with
  | none => exact .same rfl rfl rfl
  | some addr =>
    simp only
    split_ifs <;> exact .same rfl rfl rfl

theorem moves_mqttConnect (c : Client) (dns : DnsOutcome) : Moves 0 c (c.mqttConnect dns) := by
  unfold mqttConnect
  cases c.host with
  | none => exact .refl c
  | some host =>
    simp only
    split
    · exact .refl c
    · have hdel : Moves 0 c (if c.pCon then c.mqttTcpclientDelete else c) := by
        split
        · exact c.moves_mqttTcpclientDelete
        · exact .refl c
      refine Moves.after ?_ hdel
      generalize (if c.pCon then c.mqttTcpclientDelete else c) = d
      cases utilsStrToIP host with
      | some ip =>
        simp only
        split <;> exact .same rfl rfl rfl
      | none =>
        cases dns with
        | ok addr =>
          refine (moves_mqttDnsFound _ (some addr)).after ?_
          exact .same rfl rfl rfl
        | inProgress => exact .same rfl rfl rfl
        | failed => exact .same rfl rfl rfl

theorem moves_mqttClientDelete (c : Client) : Moves 0 c c.mqttClientDelete := by
  have hdel : ∀ d : Client, Moves 0 d (if d.pCon then d.mqttTcpclientDelete else d) := by
    intro d
    split
    · exact d.moves_mqttTcpclientDelete
    · exact .refl d
  unfold mqttClientDelete
  have hstart : Moves 0 c { c with timerArmed := false } := .same rfl rfl rfl
  refine Moves.after ?_ ((hdel _).after hstart)
  intro packets h
  exact ⟨packets,0,Nat.le_refl _,⟨⟨h.represents.valid,h.represents.contents_eq,
    h.represents.bounded⟩,h.bufferLength_eq,h.counter_le,h.queueable⟩,.refl⟩

theorem moves_runCall (c : Client) (call : ApiCall) : Moves (takes call) c (c.runCall call) := by
  cases call with
  | publish topic data qos retain =>
    show Moves _ c (c.mqttPublish topic data qos retain).1
    unfold mqttPublish
    split
    · rename_i topic data
      split
      · exact .keeps rfl rfl
      · rename_i hqos
        have htakes : (if 0 < qos.toNat then 1 else 0) ≤
            takes (.publish (some topic) (some data) qos retain) := by
          simp only [takes]
          split_ifs <;> omega
        refine (c.moves_queueMessage (fun hb => queues_publish hb _ _ (by omega) _)
          (fun hb => draws_publish hb _ _ (by omega) _)).mono htakes
    · exact .keeps rfl rfl
  | subscribe topic qos =>
    show Moves _ c (c.mqttSubscribe topic qos).1
    unfold mqttSubscribe
    split
    · split
      · exact .keeps rfl rfl
      · exact c.moves_queueMessage (fun hb => queues_subscribe hb _ _)
          (fun hb => draws_subscribe hb _ _)
    · exact .keeps rfl rfl
  | unSubscribe topic =>
    show Moves _ c (c.mqttUnSubscribe topic).1
    unfold mqttUnSubscribe
    split
    · split
      · exact .keeps rfl rfl
      · exact c.moves_queueMessage (fun hb => queues_unsubscribe hb _)
          (fun hb => draws_unsubscribe hb _)
    · exact .keeps rfl rfl
  | ping =>
    show Moves _ c c.mqttPing.1
    unfold mqttPing
    split
    · exact .refl c
    · exact c.moves_queueMessage (fun hb => queues_pingreq hb) (fun _ => draws_pingreq _)
  | connect dns => exact c.moves_mqttConnect dns
  | disconnect => exact .same rfl rfl rfl
  | deleteClient => exact .same rfl rfl rfl

theorem moves_runCalls (c : Client) (calls : List ApiCall) :
    Moves (allTakes calls) c (c.runCalls calls) := by
  induction calls generalizing c with
  | nil => exact .refl c
  | cons call calls ih =>
    rw [allTakes,List.map_cons,List.sum_cons]
    exact (c.moves_runCall call).trans (ih _)

theorem moves_invoke (c : Client) (cb : Callback) (calls : List ApiCall) :
    Moves (allTakes calls) c (c.invoke cb calls) := by
  unfold invoke
  split
  · exact (moves_runCalls _ calls).after (c.moves_emit _)
  · exact .keeps rfl rfl

theorem moves_mqttSendDirect (c : Client) (sendOk : Bool) (message : Option (List UInt8)) :
    Moves 0 c (c.mqttSendDirect sendOk message) := by
  unfold mqttSendDirect
  split
  · exact .same rfl rfl rfl
  · cases message with
    | none => exact .same rfl rfl rfl
    | some packet =>
      simp only
      split
      · exact c.moves_espconnSend sendOk packet
      · exact (c.moves_espconnSend sendOk packet).before (.same rfl rfl rfl)

def ackTakes (msgId : ℕ) : ℕ := if msgId = 0 then 1 else 0

theorem moves_sendAck (c : Client) (type qos msgId : ℕ) (sendOk : Bool) :
    Moves (ackTakes msgId) c (c.sendBuilt (mqttMsgAck type qos c.mqttConnection msgId) sendOk) := by
  refine Moves.before ?_ (moves_mqttSendDirect _ _ _)
  have hbuf := mqttMsgAck_bufferLength type qos c.mqttConnection msgId
  rcases mqttMsgAck_counter type qos c.mqttConnection msgId with hsame | ⟨hzero,htaken⟩
  · refine Moves.mono ?_ (Nat.zero_le _)
    exact .same rfl hbuf hsame
  · intro packets h
    have hnext := nextMessageId_eq h.counter_le
    have hcounter : (mqttMsgAck type qos c.mqttConnection msgId).connection.messageId =
        nextMessageId (counter c) := htaken
    refine ⟨packets,1,by simp [ackTakes,hzero],⟨h.represents,hbuf.trans h.bufferLength_eq,?_,h.queueable⟩,?_⟩
    · show (mqttMsgAck type qos c.mqttConnection msgId).connection.messageId ≤ idPeriod
      rw [hcounter]
      exact nextMessageId_le _
    · show Shift idPeriod (ids packets,counter c) 1
        (ids packets,(mqttMsgAck type qos c.mqttConnection msgId).connection.messageId)
      rw [hcounter,hnext]
      exact .lose .refl

theorem moves_finishPending (c : Client) (env : Env) : Moves 0 c (c.finishPending env) := by
  intro packets h
  cases packets with
  | nil =>
    refine ⟨[],0,Nat.le_refl _,⟨?_,h.bufferLength_eq,h.counter_le,h.queueable⟩,.refl⟩
    show Represents (queueGets c.msgQueue mqttBufSize env.isBegin).1 []
    rw [queueGets_nil h.represents]
    exact h.represents
  | cons head rest =>
    have hrep := (queueGets_cons h.represents (Nat.le_refl mqttBufSize) env.isBegin).2
    have hrest : ∀ p ∈ rest, Queueable p := fun p hp => h.queueable p (List.mem_cons_of_mem _ hp)
    refine ⟨rest,0,Nat.le_refl _,⟨hrep,h.bufferLength_eq,h.counter_le,hrest⟩,?_⟩
    show Shift idPeriod (ids (head::rest),counter c) 0 (ids rest,counter c)
    cases hcarries : carriesId head with
    | false =>
      have hids : ids (head::rest) = ids rest := by simp [ids,hcarries]
      rw [hids]
      exact .refl
    | true =>
      have hids : ids (head::rest) = packetId head::ids rest := by simp [ids,hcarries]
      rw [hids]
      exact .drop .refl

theorem moves_handleAck (pendingType : ℕ) (c : Client) (msgId : ℕ) (env : Env) :
    Moves 0 c (handleAck pendingType c msgId env) := by
  unfold handleAck
  split
  · exact c.moves_finishPending env
  · exact .refl c

theorem moves_handlePublish (c : Client) (packet : List UInt8) (env : Env) :
    Moves (ackTakes (mqttGetId packet packet.length)+allTakes env.calls) c
      (c.handlePublish packet env) := by
  unfold handlePublish
  refine Moves.trans ?_ (moves_invoke _ _ env.calls)
  split
  · exact c.moves_sendAck _ _ _ env.sendOk
  · split
    · exact c.moves_sendAck _ _ _ env.sendOk
    · exact .keeps rfl rfl

theorem moves_handlePubrec (c : Client) (msgId : ℕ) (env : Env) :
    Moves (ackTakes msgId) c (c.handlePubrec msgId env) := by
  unfold handlePubrec
  split
  · simp only
    refine (moves_sendAck { c with pendingMsgType := pubrelType, sendTimeout := mqttSendTimout }
      pubrelType 1 msgId env.sendOk).after ?_
    exact .same rfl rfl rfl
  · exact .keeps rfl rfl

theorem moves_handlePingreq (c : Client) (env : Env) : Moves 0 c (c.handlePingreq env) := by
  unfold handlePingreq sendBuilt
  refine (moves_mqttSendDirect _ _ _).after ?_
  exact .same rfl rfl rfl

theorem moves_handlePingresp (c : Client) (env : Env) :
    Moves (allTakes env.calls) c (c.handlePingresp env) := by
  unfold handlePingresp
  refine (moves_invoke _ .pingresp env.calls).after ?_
  split
  · exact .same rfl rfl rfl
  · split
    · refine (moves_finishPending _ env).after ?_
      exact .same rfl rfl rfl
    · exact .same rfl rfl rfl

/-- The ids that handling a packet can take, the calls of a callback included. -/
def packetTakes (packet : List UInt8) (calls : List ApiCall) : ℕ :=
  ackTakes (mqttGetId packet packet.length)+allTakes calls

theorem moves_handleMessage (c : Client) (packet : List UInt8) (env : Env) :
    Moves (packetTakes packet env.calls) c (c.handleMessage packet env) := by
  have hack : ackTakes (mqttGetId packet packet.length) ≤ packetTakes packet env.calls :=
    Nat.le_add_right _ _
  have hcalls : allTakes env.calls ≤ packetTakes packet env.calls := Nat.le_add_left _ _
  have hnone : 0 ≤ packetTakes packet env.calls := Nat.zero_le _
  unfold handleMessage
  refine Moves.after ?_ (c.moves_emit (.handled packet))
  simp only
  split
  · exact (moves_handleAck _ _ _ env).mono hnone
  split
  · exact (moves_handleAck _ _ _ env).mono hnone
  split
  · exact moves_handlePublish _ packet env
  split
  · exact (moves_handleAck _ _ _ env).mono hnone
  split
  · exact (moves_handlePubrec _ _ env).mono hack
  split
  · exact (moves_sendAck _ _ _ _ env.sendOk).mono hack
  split
  · exact (moves_handleAck _ _ _ env).mono hnone
  split
  · exact (moves_handlePingreq _ env).mono hnone
  split
  · exact (moves_handlePingresp _ env).mono hcalls
  · exact .keeps rfl rfl

theorem moves_handleConnack (c : Client) (returnCode : UInt8) (env : Env) :
    Moves (allTakes env.calls) c (c.handleConnack returnCode env) := by
  unfold handleConnack
  split
  · exact c.moves_espconnDisconnect.mono (Nat.zero_le _)
  · simp only
    split
    · refine (moves_invoke _ .connected env.calls).after ?_
      exact .same rfl rfl rfl
    · refine Moves.mono ((moves_espconnDisconnect _).after ?_) (Nat.zero_le _)
      exact .same rfl rfl rfl

theorem moves_handlePacket (c : Client) (length : ℕ) (env : Env) :
    Moves (packetTakes (c.inBuffer.take length) env.calls) c (c.handlePacket length env) := by
  have hcalls : allTakes env.calls ≤ packetTakes (c.inBuffer.take length) env.calls :=
    Nat.le_add_left _ _
  unfold handlePacket
  cases c.connState with
  | mqttConnectSending =>
    simp only
    split
    · exact (c.moves_handleConnack _ env).mono hcalls
    · exact .keeps rfl rfl
  | mqttData => exact c.moves_handleMessage _ env
  | mqttKeepaliveSend => exact c.moves_handleMessage _ env
  | _ => exact .keeps rfl rfl

theorem moves_dropConnection (c : Client) : Moves 0 c (dropConnection { c with inBuffer := [] }) := by
  unfold dropConnection
  split <;> exact .same rfl rfl rfl

/-- The ids that the first packet of a receive buffer can take. -/
def bufferTakes (buffer : List UInt8) (calls : List ApiCall) : ℕ :=
  match nextPacket buffer with
  | some packet => packetTakes packet calls
  | none => 0

theorem moves_processPacket (c : Client) (env : Env) :
    Moves (bufferTakes c.inBuffer env.calls) c (c.processPacket env) := by
  unfold processPacket
  by_cases he : c.inBuffer = []
  · rw [if_pos he]
    exact c.moves_post.mono (Nat.zero_le _)
  rw [if_neg he]
  simp only
  generalize hn : mqttGetPacketLength c.inBuffer c.inBuffer.length = length
  split
  · exact c.moves_dropConnection.mono (Nat.zero_le _)
  · rename_i hsize
    split
    · rename_i hcomplete
      have hnext : nextPacket c.inBuffer = some (c.inBuffer.take length.toNat) := by
        rw [nextPacket,hn]
        exact if_pos ⟨hcomplete.1,hcomplete.2,by omega⟩
      rw [bufferTakes,hnext]
      refine (c.moves_handlePacket length.toNat env).before ?_
      split
      · exact .same rfl rfl rfl
      · split
        · exact .same rfl rfl rfl
        · exact .same rfl rfl rfl
    · exact c.moves_post.mono (Nat.zero_le _)

theorem moves_mqttTcpclientRecv (c : Client) (pdata : List UInt8) (env : Env) :
    Moves (bufferTakes (c.inBuffer ++ pdata) env.calls) c (c.mqttTcpclientRecv pdata env) := by
  unfold mqttTcpclientRecv
  split
  · rename_i hnil
    rw [hnil,List.append_nil]
    exact c.moves_processPacket env
  · split
    · exact c.moves_dropConnection.mono (Nat.zero_le _)
    · split
      · refine Moves.mono ?_ (Nat.zero_le _)
        unfold dropConnection
        split
        · exact c.moves_emit _
        · exact .refl c
      · refine (moves_processPacket { c with inBuffer := c.inBuffer ++ pdata } env).after ?_
        exact .same rfl rfl rfl

theorem moves_mqttTcpclientSentCb (c : Client) (env : Env) :
    Moves (allTakes env.calls) c (c.mqttTcpclientSentCb env) := by
  unfold mqttTcpclientSentCb
  simp only
  refine Moves.before ?_ (moves_post _)
  split
  · split
    · refine (moves_invoke _ .published env.calls).after ?_
      exact .same rfl rfl rfl
    · exact .keeps rfl rfl
  · exact .keeps rfl rfl

theorem moves_mqttTcpclientDisconCb (c : Client) (env : Env) :
    Moves (allTakes env.calls) c (c.mqttTcpclientDisconCb env) := by
  unfold mqttTcpclientDisconCb
  refine Moves.before ((moves_invoke _ .disconnected env.calls).after ?_) (moves_post _)
  exact .same rfl rfl rfl

theorem moves_timerConnState (c : Client) (env : Env) :
    Moves (allTakes env.calls) c (c.timerConnState env) := by
  unfold timerConnState
  cases c.connState with
  | mqttData =>
    simp only
    split
    · exact .keeps rfl rfl
    · exact .keeps rfl rfl
  | tcpReconnectReq =>
    simp only
    split
    · refine (moves_invoke _ .timeout env.calls).after ?_
      exact .same rfl rfl rfl
    · exact .keeps rfl rfl
  | tcpConnecting =>
    simp only
    split
    · refine (moves_invoke _ .timeout env.calls).after ?_
      exact .same rfl rfl rfl
    · exact .keeps rfl rfl
  | _ => exact .keeps rfl rfl

theorem moves_timerPingresp (c : Client) : Moves 0 c c.timerPingresp := by
  unfold timerPingresp
  split
  · simp only
    split <;> exact .same rfl rfl rfl
  · exact .refl c

theorem moves_timerSend (c : Client) : Moves 0 c c.timerSend := by
  unfold timerSend
  split
  · simp only
    split <;> exact .same rfl rfl rfl
  · exact .refl c

theorem moves_mqttTimer (c : Client) (env : Env) :
    Moves (allTakes env.calls) c (c.mqttTimer env) :=
  ((c.moves_timerConnState env).before (moves_timerPingresp _)).before (moves_timerSend _)

theorem moves_mqttSendKeepalive (c : Client) (sendOk : Bool) :
    Moves 0 c (c.mqttSendKeepalive sendOk) := by
  have hsent : ∀ r : Client × Bool, Moves 0 r.1 (keepaliveSent r) := by
    intro r
    unfold keepaliveSent
    split <;> exact .same rfl rfl rfl
  unfold mqttSendKeepalive
  split
  · exact .refl c
  · split
    · exact .same rfl rfl rfl
    · have hstart : Moves 0 c { c with mqttConnection := initMessage c.mqttConnection } :=
        .same rfl rfl rfl
      exact (hsent _).after ((moves_espconnSend _ sendOk _).after hstart)

theorem moves_taskData (c : Client) (env : Env) : Moves 0 c (c.taskData env) := by
  unfold taskData
  split
  · exact .refl c
  split
  · exact .refl c
  split
  · exact .refl c
  intro packets h
  cases packets with
  | nil =>
    rw [queueGets_nil h.represents]
    exact (Moves.refl c) [] h
  | cons head rest =>
    obtain ⟨hgot,hrep⟩ := queueGets_cons h.represents (Nat.le_refl mqttBufSize) env.isBegin
    have hback : rollback c.msgQueue (queueGets c.msgQueue mqttBufSize env.isBegin).1 =
        c.msgQueue := queueGets_rollback c.msgQueue mqttBufSize env.isBegin
    simp only [hgot]
    unfold sendQueued
    rw [hback]
    simp only [queuedSent_espconnSend]
    split
    · cases hr : requiresAck head with
      | true =>
        refine Moves.keeps ?_ ?_ _ h
        · rfl
        · rfl
      | false =>
        have hno : carriesId head = false := by
          simp only [requiresAck,decide_eq_false_iff_not,not_or,not_and,List.mem_cons] at hr
          simp only [carriesId,Bool.or_eq_false_iff,Bool.and_eq_false_iff,
            decide_eq_false_iff_not,List.mem_cons,List.not_mem_nil]
          tauto
        have hids : ids (head::rest) = ids rest := by simp [ids,hno]
        have hrest : ∀ p ∈ rest, Queueable p := fun p hp => h.queueable p (List.mem_cons_of_mem _ hp)
        refine ⟨rest,0,Nat.le_refl _,⟨hrep,h.bufferLength_eq,h.counter_le,hrest⟩,?_⟩
        show Shift idPeriod (ids (head::rest),counter c) 0 (ids rest,counter c)
        rw [hids]
        exact .refl
    · refine Moves.keeps ?_ ?_ _ h
      · rfl
      · rfl

theorem moves_taskSwitch (c : Client) (env : Env) : Moves 0 c (c.taskSwitch env) := by
  have hdisc : Moves 0 c (if c.pCon then c.espconnDisconnect else c) := by
    split
    · exact c.moves_espconnDisconnect
    · exact .refl c
  unfold taskSwitch
  cases c.connState with
  | tcpReconnect =>
    simp only
    refine Moves.before ((moves_mqttConnect _ env.dns).after c.moves_mqttTcpclientDelete) ?_
    exact .same rfl rfl rfl
  | mqttDeleting => exact hdisc
  | tcpDisconnecting => exact hdisc
  | tcpReconnectDisconnecting => exact hdisc
  | tcpDisconnected => exact c.moves_mqttTcpclientDelete
  | mqttDeleted => exact c.moves_mqttClientDelete
  | mqttKeepaliveSend => exact c.moves_mqttSendKeepalive env.sendOk
  | mqttData => exact c.moves_taskData env
  | _ => exact .refl c

theorem moves_mqttTask (c : Client) (env : Env) :
    Moves (bufferTakes c.inBuffer env.calls) c (c.mqttTask env) := by
  unfold mqttTask
  split
  · exact .keeps rfl rfl
  · split
    · exact c.moves_mqttTcpclientRecv [] env |>.mono (by rw [List.append_nil])
    · exact (c.moves_taskSwitch env).mono (Nat.zero_le _)

end Client

/-- The ids an event can take. -/
def draws (c : Client) : Event → ℕ
  | .api call => Client.takes call
  | .task env => Client.bufferTakes c.inBuffer env.calls
  | .tick env => Client.allTakes env.calls
  | .recv pdata env => Client.bufferTakes (c.inBuffer ++ pdata) env.calls
  | .sent env => Client.allTakes env.calls
  | .discon env => Client.allTakes env.calls
  | .recon => 0
  | .connected _ => 0
  | .dnsFound _ => 0

/-- Whether an event builds a CONNECT, which starts the counter again. -/
def buildsConnect (c : Client) : Event → Bool
  | .connected _ => c.allocated
  | _ => false

theorem moves_next (c : Client) (e : Event) (h : buildsConnect c e = false) :
    Moves (draws c e) c (next c e) := by
  cases e with
  | api call => exact c.moves_runCall call
  | task env =>
    refine (Client.moves_mqttTask { c with posted := c.posted-1 } env).after ?_
    exact .same rfl rfl rfl
  | tick env => exact c.moves_mqttTimer env
  | recv pdata env => exact c.moves_mqttTcpclientRecv pdata env
  | sent env => exact c.moves_mqttTcpclientSentCb env
  | discon env => exact c.moves_mqttTcpclientDisconCb env
  | recon => exact .same rfl rfl rfl
  | connected env =>
    have h : c.allocated = false := h
    show Moves 0 c (c.mqttTcpclientConnectCb env)
    rw [Client.mqttTcpclientConnectCb,if_pos h]
    exact .same rfl rfl rfl
  | dnsFound addr => exact c.moves_mqttDnsFound addr

/-- The packets in a queue of at most `n`. -/
def takePackets : ℕ → Queue → List (List UInt8)
  | 0, _ => []
  | n+1, queue =>
    match queueGets queue mqttBufSize false with
    | (queue,some packet) => packet::takePackets n queue
    | (_,none) => []

def queuedPackets (queue : Queue) : List (List UInt8) := takePackets queue.rb.fillCnt.toNat queue

theorem takePackets_eq {n : ℕ} {queue : Queue} {packets : List (List UInt8)}
    (h : Represents queue packets) (hn : packets.length ≤ n) : takePackets n queue = packets := by
  induction n generalizing queue packets with
  | zero =>
    have hnil : packets = [] := List.length_eq_zero_iff.mp (by omega)
    rw [hnil]
    rfl
  | succ n ih =>
    cases packets with
    | nil => rw [takePackets,queueGets_nil h]
    | cons head rest =>
      obtain ⟨hgot,hrep⟩ := queueGets_cons h (Nat.le_refl mqttBufSize) false
      have hrest := ih hrep (by simpa using hn)
      rw [takePackets]
      generalize queueGets queue mqttBufSize false = r at hgot hrest
      obtain ⟨queue',packet⟩ := r
      subst hgot
      simp only at hrest ⊢
      rw [hrest]

theorem queuedPackets_eq {queue : Queue} {packets : List (List UInt8)}
    (h : Represents queue packets) : queuedPackets queue = packets := by
  refine takePackets_eq h ?_
  have hlength := Ringbuf.contents_length h.valid
  have hframes : packets.length ≤ (packets.flatMap frame).length := by
    clear h hlength
    induction packets with
    | nil => simp
    | cons head rest ih =>
      have hpos := frame_length_pos head
      simp only [List.flatMap_cons,List.length_append,List.length_cons]
      omega
  rw [h.contents_eq] at hlength
  omega

def waitingIds (c : Client) : List ℕ := ids (queuedPackets c.msgQueue)

/-- The condition on a step: no CONNECT is built while an id waits in the queue, and the counter
does not come round to the oldest id that waits. -/
def IdsFresh (c : Client) (e : Event) : Prop :=
  (buildsConnect c e = true → waitingIds c = []) ∧
    Room idPeriod (waitingIds c) (counter c) (draws c e)

instance (c : Client) (e : Event) : Decidable (IdsFresh c e) := by
  unfold IdsFresh Room
  cases waitingIds c <;> infer_instance

/-- The ids of the packets in the queue are different and not 0. -/
def IdsDistinct (c : Client) : Prop :=
  ∃ packets, Represents c.msgQueue packets ∧ (ids packets).Nodup ∧ 0 ∉ ids packets

/-- What holds in every state of a run: the ids in the queue are less than a round old. -/
def IdsSpread (c : Client) : Prop :=
  ∃ packets, Numbered c packets ∧ Spread idPeriod (ids packets) (counter c)

theorem IdsSpread.distinct {c : Client} (h : IdsSpread c) : IdsDistinct c := by
  obtain ⟨packets,hnumbered,hspread⟩ := h
  exact ⟨packets,hnumbered.represents,hspread.nodup,fun h0 => hspread.ne_zero h0 rfl⟩

theorem mqttInitClient_idsSpread (host : List UInt8) (security : Bool) (info : ConnectInfo)
    (queueBufferSize : ℤ) : IdsSpread (mqttInitClient host security info queueBufferSize) := by
  refine ⟨[],⟨queueInit_represents zero_represents _ _,rfl,Nat.zero_le _,by simp⟩,?_⟩
  exact Spread.nil 0

theorem numbered_connect {c : Client} {packets : List (List UInt8)} (h : Numbered c packets)
    (halloc : c.allocated = true) (env : Env) :
    Numbered (c.mqttTcpclientConnectCb env) packets ∧
      counter (c.mqttTcpclientConnectCb env) = 0 := by
  have hbuf := mqttMsgConnect_bufferLength (mqttMsgInit mqttBufSize) c.connectInfo
  have hcounter := mqttMsgConnect_messageId (mqttMsgInit mqttBufSize) c.connectInfo
  have hall : ∀ d : Client, d.msgQueue = c.msgQueue →
      d.mqttConnection = (mqttMsgConnect (mqttMsgInit mqttBufSize) c.connectInfo).connection →
      Numbered d packets ∧ counter d = 0 := by
    intro d hq hm
    have hzero : counter d = 0 := by
      rw [counter,hm]
      exact hcounter
    refine ⟨⟨?_,?_,?_,h.queueable⟩,hzero⟩
    · rw [hq]
      exact h.represents
    · rw [hm]
      exact hbuf
    · rw [hzero]
      exact Nat.zero_le _
  unfold Client.mqttTcpclientConnectCb
  rw [if_neg (by simp [halloc])]
  cases hm : (mqttMsgConnect (mqttMsgInit mqttBufSize) c.connectInfo).message with
  | none =>
    simp only [hm]
    exact hall _ rfl rfl
  | some packet =>
    simp only [hm]
    unfold Client.espconnSend Client.connectSent
    split
    · exact hall _ rfl rfl
    · exact hall _ rfl rfl

theorem idsSpread_step (c : Client) (e : Event) (c' : Client) (h : IdsSpread c)
    (hstep : Guarded IdsFresh Step c e c') : IdsSpread c' := by
  obtain ⟨⟨hconnect,hroom⟩,_,rfl⟩ := hstep
  obtain ⟨packets,hnumbered,hspread⟩ := h
  rw [waitingIds,queuedPackets_eq hnumbered.represents] at hconnect hroom
  cases hb : buildsConnect c e with
  | false =>
    obtain ⟨packets',j,hj,hnumbered',hshift⟩ := moves_next c e hb packets hnumbered
    obtain ⟨i,hi⟩ := Nat.exists_eq_add_of_le hj
    rw [hi] at hroom
    exact ⟨packets',hnumbered',(hshift.spread hspread hroom).1⟩
  | true =>
    have hnil := hconnect hb
    cases e with
    | connected env =>
      obtain ⟨hnumbered',hzero⟩ := numbered_connect hnumbered hb env
      refine ⟨packets,hnumbered',?_⟩
      rw [hnil]
      show Spread idPeriod [] (counter (c.mqttTcpclientConnectCb env))
      rw [hzero]
      exact Spread.nil 0
    | _ => cases hb

/-- While no CONNECT is built over a waiting id and the counter does not come round to one, the
packets in the queue carry different ids, none of them 0. -/
theorem ids_distinct {host : List UInt8} {security : Bool} {info : ConnectInfo}
    {queueBufferSize : ℤ} {es : List Event} {c : Client}
    (h : Run (Guarded IdsFresh Step) (mqttInitClient host security info queueBufferSize) es c) :
    IdsDistinct c :=
  (h.invariant idsSpread_step
    (mqttInitClient_idsSpread host security info queueBufferSize)).distinct

/-- The client connects and a QoS 1 message is queued. -/
def connectAndPublish1 : List Event :=
  [.api (.connect .inProgress),.connected exampleEnv,.recv [0x20,2,0,0] exampleEnv,
    .api (.publish (some [0x61]) (some [0x78]) 1 0)]

/-- A subscription and a QoS 2 message wait behind it. -/
def connectAndQueue : List Event :=
  connectAndPublish1 ++ [.api (.subscribe (some [0x62]) 0),
    .api (.publish (some [0x61]) (some [0x79]) 2 0)]

theorem ids_distinct_queued :
    Run (Guarded IdsFresh Step) exampleClient connectAndQueue
        (connectAndQueue.foldl next exampleClient) ∧
      waitingIds (connectAndQueue.foldl next exampleClient) = [1,2,3] ∧
      IdsDistinct (connectAndQueue.foldl next exampleClient) := by
  have hrun : Run (Guarded IdsFresh Step) exampleClient connectAndQueue
      (connectAndQueue.foldl next exampleClient) := by
    refine .cons ⟨by decide,trivial,rfl⟩ ?_
    refine .cons ⟨by decide,trivial,rfl⟩ ?_
    refine .cons ⟨by decide,trivial,rfl⟩ ?_
    refine .cons ⟨by decide,trivial,rfl⟩ ?_
    refine .cons ⟨by decide +kernel,trivial,rfl⟩ ?_
    exact .single ⟨by decide +kernel,trivial,rfl⟩
  exact ⟨hrun,by decide +kernel,ids_distinct hrun⟩

/-- The connection is lost while the message waits, and behind it the first message of the next
connection gets the same id. -/
theorem ids_repeated :
    ¬∀ (es : List Event) (c : Client), Run Step exampleClient es c → IdsDistinct c := by
  intro h
  let es := connectAndPublish1 ++
    [.discon exampleEnv,.tick exampleEnv,.tick exampleEnv,.tick exampleEnv,.tick exampleEnv,
      .tick exampleEnv,.tick exampleEnv,.task exampleEnv,.task exampleEnv,.task exampleEnv,
      .task exampleEnv,.connected exampleEnv,.recv [0x20,2,0,0] exampleEnv,
      .api (.publish (some [0x61]) (some [0x79]) 1 0)]
  have hrun : Run Step exampleClient es (es.foldl next exampleClient) :=
    run_of_allEnabled (by decide)
  obtain ⟨packets,hrep,hnodup,_⟩ := h es _ hrun
  have hids : waitingIds (es.foldl next exampleClient) = [1,1] := by decide +kernel
  rw [waitingIds,queuedPackets_eq hrep] at hids
  rw [hids] at hnodup
  simp at hnodup

end MqttClient
end MeterLogger
