import Mathlib.Logic.Function.Basic
import Mathlib.Data.List.Nodup
import MeterLogger.MqttReceive

/-!
# A broker that keeps the session

What an MQTT 3.1.1 broker does with the packets of a client whose session it keeps. It
answers every request with its acknowledgement and takes a QoS 2 message once, by its
packet id, in either of the two ways the protocol allows.
-/

namespace MeterLogger
namespace MqttBroker

open Bytes MqttMessage MqttClient

def ackPacket (type id : ℕ) : List UInt8 := UInt8.ofNat (type*16) :: 2 :: u16Bytes id

/-- A SUBACK carries the QoS granted behind the packet id. -/
def subackPacket (id : ℕ) (granted : UInt8) : List UInt8 :=
  UInt8.ofNat (subackType*16) :: 3 :: (u16Bytes id ++ [granted])

def pingrespPacket : List UInt8 := [UInt8.ofNat (pingrespType*16),0]

def isAck (packet : List UInt8) : Bool :=
  mqttGetType packet ∈ [pubackType,pubrecType,pubcompType,subackType,unsubackType]

/-- The packets of the client that are answered with one of them. -/
def isRequest (packet : List UInt8) : Bool :=
  (mqttGetType packet = publishType ∧ mqttGetQos packet ≠ 0) ∨
    mqttGetType packet ∈ [pubrelType,subscribeType,unsubscribeType]

/-- What the client finds in an acknowledgement. -/
structure AckShape (type id : ℕ) (packet : List UInt8) : Prop where
  framed : WellFramed packet
  type_eq : mqttGetType packet = type
  id_eq : mqttGetId packet packet.length = id

theorem headerByte_type {type : ℕ} (ht : type < 16) (rest : List UInt8) :
    mqttGetType (UInt8.ofNat (type*16) :: rest) = type := by
  rw [mqttGetType_eq,List.getD_cons_zero,UInt8.toNat_ofNat']
  omega

theorem readU16_header {id : ℕ} (hid : id < 65536) (first second : UInt8) (rest : List UInt8) :
    readU16 (first::second::(u16Bytes id ++ rest)) 2 = id :=
  readU16_u16Bytes hid [first,second] rest

theorem ackPacket_shape {type id : ℕ} (hid : id < 65536)
    (ht : type ∈ [pubackType,pubrecType,pubcompType,unsubackType]) :
    AckShape type id (ackPacket type id) := by
  have hlt : type < 16 := by
    have h : ∀ t ∈ [pubackType,pubrecType,pubcompType,unsubackType], t < 16 := by decide
    exact h type ht
  have htype : mqttGetType (ackPacket type id) = type := headerByte_type hlt _
  have hlen : (ackPacket type id).length = 4 := rfl
  refine ⟨⟨⟨_,[2],u16Bytes id,rfl,.last 2 (by decide)⟩,by rw [hlen]; decide⟩,htype,?_⟩
  have hnp : type ≠ publishType := by rintro rfl; exact absurd ht (by decide)
  have hmem : type ∈ [pubackType,pubrecType,pubrelType,pubcompType,subackType,unsubackType,
      subscribeType] := by
    have h : ∀ t ∈ [pubackType,pubrecType,pubcompType,unsubackType],
        t ∈ [pubackType,pubrecType,pubrelType,pubcompType,subackType,unsubackType,
          subscribeType] := by decide
    exact h type ht
  have hread : readU16 (ackPacket type id) 2 = id := readU16_header hid _ _ []
  have hbit : (ackPacket type id).getD 1 0 &&& 0x80 = 0 := show (2 : UInt8) &&& 0x80 = 0 by decide
  rw [mqttGetId,hlen,if_neg (by decide),if_neg (by rwa [htype]),if_pos (by rwa [htype]),
    if_pos ⟨by decide,hbit⟩,hread]

theorem subackPacket_shape {id : ℕ} (hid : id < 65536) (granted : UInt8) :
    AckShape subackType id (subackPacket id granted) := by
  have htype : mqttGetType (subackPacket id granted) = subackType := headerByte_type (by decide) _
  have hlen : (subackPacket id granted).length = 5 := rfl
  refine ⟨⟨⟨_,[3],u16Bytes id ++ [granted],rfl,.last 3 (by decide)⟩,by rw [hlen]; decide⟩,htype,?_⟩
  have hread : readU16 (subackPacket id granted) 2 = id := readU16_header hid _ _ [granted]
  have hbit : (subackPacket id granted).getD 1 0 &&& 0x80 = 0 :=
    show (3 : UInt8) &&& 0x80 = 0 by decide
  rw [mqttGetId,hlen,if_neg (by decide),if_neg (by rw [htype]; decide),
    if_pos (by rw [htype]; decide),if_pos ⟨by decide,hbit⟩,hread]

theorem pingrespPacket_framed : WellFramed pingrespPacket :=
  ⟨⟨_,[0],[],rfl,.last 0 (by decide)⟩,by decide⟩

/-- When a QoS 2 message is forwarded: at its PUBREL, or at once at its PUBLISH. -/
inductive Method
  | onPubrel
  | onPublish
  deriving DecidableEq

/-- The session of the client. `stored` says under which packet ids the broker holds a
QoS 2 message; the message is given by its place among those the client accepted, or is
`none` for one of an earlier life of the client. `forwards` are the messages forwarded. -/
structure Broker where
  stored : ℕ → Option (Option ℕ)
  forwards : List ℕ

namespace Broker

/-- A QoS 2 PUBLISH. Under an id that is in use it is a duplicate. -/
def store (b : Broker) (method : Method) (id message : ℕ) : Broker :=
  match b.stored id with
  | some _ => b
  | none =>
    { stored := Function.update b.stored id (some (some message))
      forwards := match method with
        | .onPubrel => b.forwards
        | .onPublish => b.forwards ++ [message] }

def discard (b : Broker) (method : Method) (id : ℕ) : Broker where
  stored := Function.update b.stored id none
  forwards := match method, b.stored id with
    | .onPubrel, some (some message) => b.forwards ++ [message]
    | _, _ => b.forwards

theorem store_held (b : Broker) (method : Method) (id message : ℕ) :
    (b.store method id message).stored id ≠ none := by
  unfold store
  split
  · rename_i hs
    rw [hs]
    exact Option.some_ne_none _
  · simp

theorem discard_free (b : Broker) (method : Method) (id : ℕ) :
    (b.discard method id).stored id = none := Function.update_self _ _ _

/-- One packet of the client and the answer to it. A packet with id 0 is an error of the
protocol and not answered. -/
def receive (b : Broker) (method : Method) (message : ℕ) (packet : List UInt8) :
    Broker × Option (List UInt8) :=
  let id := packetId packet
  if mqttGetType packet = pingreqType then (b,some pingrespPacket)
  else if id = 0 then (b,none)
  else if mqttGetType packet = publishType then
    if mqttGetQos packet = 1 then (b,some (ackPacket pubackType id))
    else if mqttGetQos packet = 2 then (b.store method id message,some (ackPacket pubrecType id))
    else (b,none)
  else if mqttGetType packet = pubrelType then
    (b.discard method id,some (ackPacket pubcompType id))
  else if mqttGetType packet = subscribeType then
    (b,some (subackPacket id (packet.getLastD 0)))
  else if mqttGetType packet = unsubscribeType then (b,some (ackPacket unsubackType id))
  else (b,none)

/-- The packets of a connection that still reach the broker before it is lost. -/
def receiveAll (b : Broker) (method : Method) : List (ℕ × List UInt8) → Broker
  | [] => b
  | x::xs => (b.receive method x.1 x.2).1.receiveAll method xs

end Broker

theorem packetId_lt (packet : List UInt8) : packetId packet < 65536 := by
  unfold packetId
  split
  · exact readU16_lt _ _
  · exact readU16_lt _ _

/-- What is no request changes nothing and is not answered with an acknowledgement. -/
theorem receive_other (b : Broker) (method : Method) (message : ℕ) {packet : List UInt8}
    (h : isRequest packet = false) :
    (b.receive method message packet).1 = b ∧
      ∀ reply, (b.receive method message packet).2 = some reply →
        WellFramed reply ∧ isAck reply = false := by
  simp only [isRequest,List.mem_cons,List.not_mem_nil,or_false,decide_eq_false_iff_not,not_or,
    not_and,ne_eq,not_not] at h
  obtain ⟨hpub,hrel,hsub,hunsub⟩ := h
  unfold Broker.receive
  simp only
  split
  · refine ⟨rfl,fun reply hr => ?_⟩
    cases hr
    exact ⟨pingrespPacket_framed,by decide⟩
  split
  · exact ⟨rfl,fun reply hr => by cases hr⟩
  split
  · rename_i ht
    simp only [hpub ht]
    exact ⟨rfl,fun reply hr => by cases hr⟩
  · exact ⟨rfl,fun reply hr => by cases hr⟩

/-- The answer to a request by the type of the request. -/
inductive Answered (b : Broker) (method : Method) (message : ℕ) (packet : List UInt8) :
    Broker → Option (List UInt8) → Prop
  | refused : Answered b method message packet b none
  | puback {reply} (hp : mqttGetType packet = publishType) (hq : mqttGetQos packet = 1)
      (hr : AckShape pubackType (packetId packet) reply) :
      Answered b method message packet b (some reply)
  | pubrec {reply} (hp : mqttGetType packet = publishType) (hq : mqttGetQos packet = 2)
      (hr : AckShape pubrecType (packetId packet) reply) :
      Answered b method message packet (b.store method (packetId packet) message) (some reply)
  | pubcomp {reply} (hp : mqttGetType packet = pubrelType)
      (hr : AckShape pubcompType (packetId packet) reply) :
      Answered b method message packet (b.discard method (packetId packet)) (some reply)
  | suback {reply} (hp : mqttGetType packet = subscribeType)
      (hr : AckShape subackType (packetId packet) reply) :
      Answered b method message packet b (some reply)
  | unsuback {reply} (hp : mqttGetType packet = unsubscribeType)
      (hr : AckShape unsubackType (packetId packet) reply) :
      Answered b method message packet b (some reply)

theorem receive_request (b : Broker) (method : Method) (message : ℕ) {packet : List UInt8}
    (h : isRequest packet = true) :
    Answered b method message packet (b.receive method message packet).1
        (b.receive method message packet).2 ∧
      ((b.receive method message packet).2 ≠ none → packetId packet ≠ 0) := by
  have hid := packetId_lt packet
  simp only [isRequest,List.mem_cons,List.not_mem_nil,or_false,decide_eq_true_eq,ne_eq] at h
  unfold Broker.receive
  simp only
  split
  · rename_i ht
    rw [ht] at h
    rcases h with ⟨h,_⟩ | h | h | h <;> exact absurd h (by decide)
  split
  · exact ⟨.refused,fun hn => absurd rfl hn⟩
  rename_i hne
  split
  · rename_i hp
    split
    · rename_i hq
      exact ⟨.puback hp hq (ackPacket_shape hid (by decide)),fun _ => hne⟩
    split
    · rename_i hq
      exact ⟨.pubrec hp hq (ackPacket_shape hid (by decide)),fun _ => hne⟩
    · exact ⟨.refused,fun hn => absurd rfl hn⟩
  split
  · rename_i hp
    exact ⟨.pubcomp hp (ackPacket_shape hid (by decide)),fun _ => hne⟩
  split
  · rename_i hp
    exact ⟨.suback hp (subackPacket_shape hid _),fun _ => hne⟩
  split
  · rename_i hp
    exact ⟨.unsuback hp (ackPacket_shape hid (by decide)),fun _ => hne⟩
  · exact ⟨.refused,fun hn => absurd rfl hn⟩

/-- The `i`-th message accepted is the QoS 2 publish `packet`. -/
structure IsQos2 (accepted : List (List UInt8)) (i : ℕ) (packet : List UInt8) : Prop where
  get_eq : accepted[i]? = some packet
  type_eq : mqttGetType packet = publishType
  qos_eq : mqttGetQos packet = 2

theorem IsQos2.unique {accepted : List (List UInt8)} {i : ℕ} {p q : List UInt8}
    (hp : IsQos2 accepted i p) (hq : IsQos2 accepted i q) : p = q :=
  Option.some.inj (hp.get_eq.symm.trans hq.get_eq)

theorem IsQos2.mono {accepted accepted' : List (List UInt8)} {i : ℕ} {packet : List UInt8}
    (h : IsQos2 accepted i packet) (hpre : accepted <+: accepted') : IsQos2 accepted' i packet := by
  obtain ⟨rest,rfl⟩ := hpre
  have hlt := (List.getElem?_eq_some_iff.mp h.get_eq).1
  exact ⟨by rw [List.getElem?_append_left hlt]; exact h.get_eq,h.type_eq,h.qos_eq⟩

theorem nodup_snoc {l : List ℕ} {i : ℕ} (h : l.Nodup) (hi : i ∉ l) : (l ++ [i]).Nodup := by
  rw [← List.concat_eq_append]
  exact h.concat hi

/-- What the broker did while the client was done with `done` messages. The message being
delivered has been forwarded only if the broker still holds its id, or if the client is in
the `window` in which it only waits for the PUBCOMP. -/
structure Once (method : Method) (accepted : List (List UInt8)) (done : ℕ) (window : Prop)
    (b : Broker) : Prop where
  nodup : b.forwards.Nodup
  past : ∀ i ∈ b.forwards, i ≤ done ∧ ∃ packet, IsQos2 accepted i packet
  current : done ∈ b.forwards → ∃ packet, IsQos2 accepted done packet ∧
    ((method = .onPublish ∧ b.stored (packetId packet) ≠ none) ∨
      (window ∧ b.stored (packetId packet) = none))
  own : method = .onPubrel → ∀ id i, b.stored id = some (some i) →
    i = done ∧ done ∉ b.forwards ∧ ∃ packet, IsQos2 accepted done packet ∧ packetId packet = id

namespace Once

variable {method : Method} {accepted accepted' : List (List UInt8)} {done : ℕ}
  {window window' : Prop} {b : Broker} {packet : List UInt8}

/-- More messages may be accepted, and the window is left only while the id is held. -/
theorem mono (h : Once method accepted done window b) (hpre : accepted <+: accepted')
    (hw : window → window' ∨
      ∀ packet, IsQos2 accepted done packet → b.stored (packetId packet) ≠ none) :
    Once method accepted' done window' b where
  nodup := h.nodup
  past i hi := by
    obtain ⟨hle,packet,hq⟩ := h.past i hi
    exact ⟨hle,packet,hq.mono hpre⟩
  current hi := by
    obtain ⟨packet,hq,hheld | ⟨hwin,hnone⟩⟩ := h.current hi
    · exact ⟨packet,hq.mono hpre,Or.inl hheld⟩
    · rcases hw hwin with hwin | hheld
      · exact ⟨packet,hq.mono hpre,Or.inr ⟨hwin,hnone⟩⟩
      · exact absurd hnone (hheld packet hq)
  own hm id i hs := by
    obtain ⟨hi,hnot,packet,hq,hid⟩ := h.own hm id i hs
    exact ⟨hi,hnot,packet,hq.mono hpre,hid⟩

/-- The client is done with a message whose id the broker does not hold any more. -/
theorem release (h : Once method accepted done window b) (hpre : accepted <+: accepted')
    (hfree : ∀ packet, IsQos2 accepted done packet → b.stored (packetId packet) = none) :
    Once method accepted' (done+1) window' b where
  nodup := h.nodup
  past i hi := by
    obtain ⟨hle,packet,hq⟩ := h.past i hi
    exact ⟨Nat.le_succ_of_le hle,packet,hq.mono hpre⟩
  current hi := absurd (h.past _ hi).1 (by omega)
  own hm id i hs := by
    obtain ⟨_,_,packet,hq,rfl⟩ := h.own hm id i hs
    rw [hfree packet hq] at hs
    cases hs

/-- Outside the window the broker can take the PUBLISH of the current message. -/
theorem store (h : Once method accepted done window b) (hp : IsQos2 accepted done packet)
    (hw : ¬window) : Once method accepted done window (b.store method (packetId packet) done) := by
  cases hs : b.stored (packetId packet) with
  | some _ =>
    rw [show b.store method (packetId packet) done = b by simp [Broker.store,hs]]
    exact h
  | none =>
    have hnew : done ∉ b.forwards := by
      intro hi
      obtain ⟨q,hq,⟨_,hheld⟩ | ⟨hwin,_⟩⟩ := h.current hi
      · rw [hp.unique hq] at hs
        exact hheld hs
      · exact hw hwin
    cases method with
    | onPubrel =>
      simp only [Broker.store,hs]
      refine ⟨h.nodup,h.past,fun hi => absurd hi hnew,fun _ id i hi => ?_⟩
      have hi : Function.update b.stored (packetId packet) (some (some done)) id = some (some i) := hi
      by_cases hid : id = packetId packet
      · subst hid
        rw [Function.update_self] at hi
        cases hi
        exact ⟨rfl,hnew,packet,hp,rfl⟩
      · rw [Function.update_of_ne hid] at hi
        exact h.own rfl id i hi
    | onPublish =>
      simp only [Broker.store,hs]
      refine ⟨?_,fun i hi => ?_,fun _ => ⟨packet,hp,Or.inl ⟨rfl,?_⟩⟩,fun hm => by cases hm⟩
      · exact nodup_snoc h.nodup hnew
      · rcases List.mem_append.mp hi with hi | hi
        · exact h.past i hi
        · rw [List.mem_singleton] at hi
          subst hi
          exact ⟨le_rfl,packet,hp⟩
      · simp

theorem discard (h : Once method accepted done window b) (hp : IsQos2 accepted done packet)
    (hw : window) : Once method accepted done window (b.discard method (packetId packet)) := by
  have hfree : (b.discard method (packetId packet)).stored (packetId packet) = none := by
    simp [Broker.discard]
  have hcurrent : ∃ q, IsQos2 accepted done q ∧
      ((method = .onPublish ∧ (b.discard method (packetId packet)).stored (packetId q) ≠ none) ∨
        (window ∧ (b.discard method (packetId packet)).stored (packetId q) = none)) :=
    ⟨packet,hp,Or.inr ⟨hw,hfree⟩⟩
  have hown : method = .onPubrel → ∀ id i,
      (b.discard method (packetId packet)).stored id ≠ some (some i) := by
    intro hm id i hi
    by_cases hid : id = packetId packet
    · rw [hid,hfree] at hi
      cases hi
    · have hi : Function.update b.stored (packetId packet) none id = some (some i) := hi
      rw [Function.update_of_ne hid] at hi
      obtain ⟨_,_,q,hq,hqid⟩ := h.own hm id i hi
      rw [← hp.unique hq] at hqid
      exact hid hqid.symm
  by_cases hfwd : ∃ i, method = .onPubrel ∧ b.stored (packetId packet) = some (some i)
  · obtain ⟨i,rfl,hs⟩ := hfwd
    obtain ⟨rfl,hnew,_⟩ := h.own rfl _ i hs
    have heq : (b.discard .onPubrel (packetId packet)).forwards = b.forwards ++ [i] := by
      simp [Broker.discard,hs]
    refine ⟨?_,fun j hj => ?_,fun _ => hcurrent,fun hm id j hj => absurd hj (hown hm id j)⟩
    · rw [heq]
      exact nodup_snoc h.nodup hnew
    · rw [heq] at hj
      rcases List.mem_append.mp hj with hj | hj
      · exact h.past j hj
      · rw [List.mem_singleton] at hj
        subst hj
        exact ⟨le_rfl,packet,hp⟩
  · have heq : (b.discard method (packetId packet)).forwards = b.forwards := by
      unfold Broker.discard
      simp only
      split
      · rename_i i hs
        exact absurd ⟨i,rfl,hs⟩ hfwd
      · rfl
    refine ⟨by rw [heq]; exact h.nodup,fun j hj => h.past j (by rwa [heq] at hj),
      fun _ => hcurrent,fun hm id j hj => absurd hj (hown hm id j)⟩

end Once

end MqttBroker
end MeterLogger
