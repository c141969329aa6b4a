import MeterLogger.MqttBroker

/-!
# The client and its broker

The client, a broker that keeps its session, and the connections between them, each of
which may be lost at any point. The client has one exchange under way at a time: at most
one packet of it is on its way, and what a step of the client means for it is a `Move`.
-/

namespace MeterLogger
namespace MqttSession

open MessageQueue MqttMessage MqttClient MqttBroker Runs

/-- `c2b` are the packets on their way to the broker, each with the number of messages the
client was done with when it sent them; `b2c` are the bytes on their way to the client.
While `conn` is false nothing is carried to the broker. -/
structure Session where
  client : Client
  conn : Bool
  c2b : List (ℕ × List UInt8)
  b2c : List UInt8
  broker : Broker

/-- `lose n m`: the connection is lost behind `n` more packets to the broker and `m` more
bytes to the client. -/
inductive SessionEvent
  | client (e : Event)
  | deliver (k : ℕ) (env : Env)
  | connect (env : Env)
  | broker
  | brokerSend (packet : List UInt8)
  | lose (n m : ℕ)

def sentBy : Action → Option (List UInt8)
  | .send packet => some packet
  | _ => none

def sentPackets (log : List Action) : List (List UInt8) := log.filterMap sentBy

@[simp] theorem sentPackets_append (xs ys : List Action) :
    sentPackets (xs ++ ys) = sentPackets xs ++ sentPackets ys := List.filterMap_append

def done (c : Client) : ℕ := (released c.log).length

/-- The events and actions with which the client takes its connection for lost or ends it. -/
def givesUp (e : Event) (new : List Action) : Bool :=
  (match e with
    | .discon _ => true
    | .recon => true
    | _ => false) || new.contains .abort || new.contains .disconnect

namespace Session

/-- The client became `c'`. What it sent is on its way, and after it gave up the connection
nothing of it arrives any more. -/
def became (s : Session) (c' : Client) (up : Bool) : Session where
  client := c'
  conn := s.conn
  c2b := if s.conn then
      s.c2b ++ (sentPackets (newActions s.client c')).map (fun packet => (done s.client,packet))
    else s.c2b
  b2c := if up then [] else s.b2c
  broker := s.broker

def act (s : Session) (e : Event) : Session :=
  s.became (MqttClient.next s.client e) (givesUp e (newActions s.client (MqttClient.next s.client e)))

def fromBroker : Event → Bool
  | .recv _ _ => true
  | .connected _ => true
  | _ => false

/-- What can happen. A connection that the client gives up has been lost before: `lose` says
how much of what was on its way had arrived. -/
def Can (s : Session) : SessionEvent → Prop
  | .client e => Enabled s.client e ∧ fromBroker e = false ∧
      (givesUp e (newActions s.client (MqttClient.next s.client e)) = true → s.conn = false)
  | .deliver k env =>
    let e := .recv (s.b2c.take k) env
    givesUp e (newActions s.client (MqttClient.next s.client e)) = true → s.conn = false
  | .connect _ => s.conn = false ∧ s.b2c = [] ∧ s.client.pCon = true
  | .broker => s.conn = true
  | .brokerSend packet => s.conn = true ∧ WellFramed packet ∧ isAck packet = false
  | .lose _ _ => s.conn = true

def next (method : Method) (s : Session) : SessionEvent → Session
  | .client e => s.act e
  | .deliver k env => { s with b2c := s.b2c.drop k }.act (.recv (s.b2c.take k) env)
  | .connect env => { s with conn := true, c2b := [] }.act (.connected env)
  | .broker =>
    match s.c2b with
    | [] => s
    | x::xs =>
      let r := s.broker.receive method x.1 x.2
      { s with broker := r.1, c2b := xs, b2c := s.b2c ++ r.2.getD [] }
  | .brokerSend packet => { s with b2c := s.b2c ++ packet }
  | .lose n m =>
    { s with
      conn := false
      c2b := []
      b2c := s.b2c.take m
      broker := s.broker.receiveAll method (s.c2b.take n) }

def Step (method : Method) (s : Session) (e : SessionEvent) (s' : Session) : Prop :=
  s.Can e ∧ s' = s.next method e

/-- The condition on a step. When a connection is lost while the client waits for a PUBCOMP,
the broker still holds the message's id. The client is not deleted, and a connection is set
up with an empty receive buffer. -/
def Safe (method : Method) (s : Session) : SessionEvent → Prop
  | .lose n _ => s.client.pendingMsgType = pubrelType →
      (s.broker.receiveAll method (s.c2b.take n)).stored s.client.pendingMsgId ≠ none
  | .connect _ => s.client.connState ≠ .mqttDeleted ∧ s.client.inBuffer = []
  | _ => s.client.connState ≠ .mqttDeleted

end Session

/-- `ack` answers what the client sent last in the exchange of `head`. -/
inductive Answers (b : Broker) (c : Client) (head ack : List UInt8) : Prop
  | puback (ht : c.pendingMsgType = publishType) (hq : mqttGetQos head = 1)
      (hr : AckShape pubackType (packetId head) ack)
  | pubrec (ht : c.pendingMsgType = publishType) (hq : mqttGetQos head = 2)
      (hr : AckShape pubrecType (packetId head) ack) (hs : b.stored (packetId head) ≠ none)
  | pubcomp (ht : c.pendingMsgType = pubrelType)
      (hr : AckShape pubcompType (packetId head) ack) (hs : b.stored (packetId head) = none)
  | suback (ht : c.pendingMsgType = subscribeType)
      (hr : AckShape subackType (packetId head) ack)
  | unsuback (ht : c.pendingMsgType = unsubscribeType)
      (hr : AckShape unsubackType (packetId head) ack)

/-- At most one packet of the exchange of the head of the queue is on its way: a request to
the broker or an acknowledgement to the client. -/
inductive Exchange (b : Broker) (c : Client) (head? : Option (List UInt8)) :
    List (List UInt8) → List (ℕ × List UInt8) → Prop
  | quiet : Exchange b c head? [] []
  | request {head : List UInt8} (hh : head? = some head) (hw : c.isWaitingForAck = true)
      (hf : InFlight c head) (ht : c.pendingMsgType = mqttGetType head)
      (hr : isRequest head = true) : Exchange b c head? [] [(done c,head)]
  | pubrel {head packet : List UInt8} {n : ℕ} (hh : head? = some head)
      (hw : c.isWaitingForAck = true) (hf : InFlight c head) (ht : c.pendingMsgType = pubrelType)
      (hp : mqttGetType packet = pubrelType) (hid : packetId packet = packetId head) :
      Exchange b c head? [] [(n,packet)]
  | answer {head ack : List UInt8} (hh : head? = some head) (hw : c.isWaitingForAck = true)
      (hf : InFlight c head) (hne : packetId head ≠ 0) (ha : Answers b c head ack) :
      Exchange b c head? [ack] []

theorem InFlight.of_pending {c c' : Client} {packet : List UInt8} (h : InFlight c packet)
    (hp : pending c' = pending c) : InFlight c' packet := by
  simp only [pending,Prod.mk.injEq] at hp
  obtain ⟨hi,ht,hq,_⟩ := hp
  exact ⟨h.requires,hq.trans h.qos_eq,hi.trans h.id_eq,by rw [ht,hi]; exact h.type_eq⟩

theorem Answers.of_pending {b : Broker} {c c' : Client} {head ack : List UInt8}
    (h : Answers b c head ack) (ht : c'.pendingMsgType = c.pendingMsgType) :
    Answers b c' head ack := by
  cases h with
  | puback h₁ h₂ h₃ => exact .puback (ht.trans h₁) h₂ h₃
  | pubrec h₁ h₂ h₃ h₄ => exact .pubrec (ht.trans h₁) h₂ h₃ h₄
  | pubcomp h₁ h₂ h₃ => exact .pubcomp (ht.trans h₁) h₂ h₃
  | suback h₁ h₂ => exact .suback (ht.trans h₁) h₂
  | unsuback h₁ h₂ => exact .unsuback (ht.trans h₁) h₂

namespace Exchange

variable {b : Broker} {c c' : Client} {head? head?' : Option (List UInt8)}
  {acks : List (List UInt8)} {reqs : List (ℕ × List UInt8)}

theorem of_pending (h : Exchange b c head? acks reqs) (hp : pending c' = pending c)
    (hd : done c' = done c) (hh : ∀ head, head? = some head → head?' = some head) :
    Exchange b c' head?' acks reqs := by
  have hp' := hp
  simp only [pending,Prod.mk.injEq] at hp'
  obtain ⟨_,ht,_,hw⟩ := hp'
  cases h with
  | quiet => exact .quiet
  | request h₁ h₂ h₃ h₄ h₅ =>
    rw [← hd]
    exact .request (hh _ h₁) (hw.trans h₂) (InFlight.of_pending h₃ hp) (ht.trans h₄) h₅
  | pubrel h₁ h₂ h₃ h₄ h₅ h₆ =>
    exact .pubrel (hh _ h₁) (hw.trans h₂) (InFlight.of_pending h₃ hp) (ht.trans h₄) h₅ h₆
  | answer h₁ h₂ h₃ h₄ h₅ =>
    exact .answer (hh _ h₁) (hw.trans h₂) (InFlight.of_pending h₃ hp) h₄ (h₅.of_pending ht)

theorem drop_acks (h : Exchange b c head? acks reqs) : Exchange b c head? [] reqs := by
  cases h with
  | answer => exact .quiet
  | quiet => exact .quiet
  | request h₁ h₂ h₃ h₄ h₅ => exact .request h₁ h₂ h₃ h₄ h₅
  | pubrel h₁ h₂ h₃ h₄ h₅ h₆ => exact .pubrel h₁ h₂ h₃ h₄ h₅ h₆

theorem drop_reqs (h : Exchange b c head? acks reqs) : Exchange b c head? acks [] := by
  cases h with
  | answer h₁ h₂ h₃ h₄ h₅ => exact .answer h₁ h₂ h₃ h₄ h₅
  | quiet => exact .quiet
  | request => exact .quiet
  | pubrel => exact .quiet

/-- Nothing of an exchange is on its way while the client does not wait, or waits for
CONNACK or PINGRESP. -/
theorem empty (h : Exchange b c head? acks reqs)
    (hwhy : c.isWaitingForAck = false ∨ c.pendingMsgType ∈ [connectType,pingreqType]) :
    acks = [] ∧ reqs = [] := by
  have hw : ¬(c.isWaitingForAck = true ∧ c.pendingMsgType ∉ [connectType,pingreqType]) := by
    rintro ⟨hw,ht⟩
    rcases hwhy with h | h
    · exact absurd (hw.symm.trans h) (by decide)
    · exact ht h
  cases h with
  | quiet => exact ⟨rfl,rfl⟩
  | request _ hwait _ ht hr =>
    refine absurd ⟨hwait,fun hm => ?_⟩ hw
    simp only [isRequest,← ht,decide_eq_true_eq] at hr
    simp only [List.mem_cons,List.not_mem_nil,or_false] at hm
    rcases hm with hm | hm
    all_goals
      rw [hm] at hr
      rcases hr with ⟨hr,_⟩ | hr <;> exact absurd hr (by decide)
  | pubrel _ hwait _ ht => exact absurd ⟨hwait,by rw [ht]; decide⟩ hw
  | answer _ hwait _ _ ha =>
    refine absurd ⟨hwait,?_⟩ hw
    cases ha with
    | puback ht => rw [ht]; decide
    | pubrec ht => rw [ht]; decide
    | pubcomp ht => rw [ht]; decide
    | suback ht => rw [ht]; decide
    | unsuback ht => rw [ht]; decide

theorem ackSound (h : Exchange b c head? acks reqs) {packet : List UInt8}
    (hp : isAck packet = true → packet ∈ acks) : AckSound c packet := by
  have hcase : isAck packet = true → ∃ head, c.isWaitingForAck = true ∧ InFlight c head ∧
      packetId head ≠ 0 ∧ Answers b c head packet := by
    intro hack
    have hmem := hp hack
    cases h with
    | answer _ hw hf hne ha =>
      rw [List.mem_singleton] at hmem
      subst hmem
      exact ⟨_,hw,hf,hne,ha⟩
    | quiet => exact absurd hmem List.not_mem_nil
    | request => exact absurd hmem List.not_mem_nil
    | pubrel => exact absurd hmem List.not_mem_nil
  have hack : ∀ type, mqttGetType packet = type →
      type ∈ [pubackType,pubrecType,pubcompType,subackType,unsubackType] → isAck packet = true := by
    intro type ht hm
    rw [isAck,ht]
    exact decide_eq_true hm
  have hid : ∀ {type id : ℕ}, AckShape type id packet → id ≠ 0 →
      c.pendingMsgId = mqttGetId packet packet.length → c.pendingMsgId ≠ 0 := by
    intro type id hr hne he
    rw [he,hr.id_eq]
    exact hne
  have hkind : ∀ {type type' id : ℕ}, AckShape type id packet → mqttGetType packet = type' →
      type = type' := fun hr ht => hr.type_eq.symm.trans ht
  refine ⟨fun ht hpt he => ?_,fun ht hw hpt he => ?_,fun ht hpt he => ?_,fun ht hpt he => ?_⟩
  all_goals obtain ⟨head,hwait,hf,hne,ha⟩ := hcase (hack _ ht (by decide))
  · cases ha with
    | puback _ hq hr => exact ⟨hwait,hf.qos_eq.trans hq,hid hr hne he⟩
    | pubrec _ _ hr => exact absurd (hkind hr ht) (by decide)
    | pubcomp _ hr => exact absurd (hkind hr ht) (by decide)
    | suback _ hr => exact absurd (hkind hr ht) (by decide)
    | unsuback _ hr => exact absurd (hkind hr ht) (by decide)
  · cases ha with
    | puback _ _ hr => exact absurd (hkind hr ht) (by decide)
    | pubrec _ hq hr => exact ⟨hf.qos_eq.trans hq,hid hr hne he⟩
    | pubcomp _ hr => exact absurd (hkind hr ht) (by decide)
    | suback _ hr => exact absurd (hkind hr ht) (by decide)
    | unsuback _ hr => exact absurd (hkind hr ht) (by decide)
  · cases ha with
    | puback _ _ hr => exact hid hr hne he
    | pubrec _ _ hr => exact hid hr hne he
    | pubcomp _ hr => exact hid hr hne he
    | suback _ hr => exact hid hr hne he
    | unsuback _ hr => exact hid hr hne he
  · cases ha with
    | puback _ _ hr => exact hid hr hne he
    | pubrec _ _ hr => exact hid hr hne he
    | pubcomp _ hr => exact hid hr hne he
    | suback _ hr => exact hid hr hne he
    | unsuback _ hr => exact hid hr hne he

theorem sublist (h : Exchange b c head? acks reqs) {reqs' : List (ℕ × List UInt8)}
    (hs : reqs'.Sublist reqs) : Exchange b c head? acks reqs' := by
  have hsub : reqs' = [] ∨ reqs' = reqs := by
    cases h with
    | quiet => exact Or.inl (List.sublist_nil.mp hs)
    | answer => exact Or.inl (List.sublist_nil.mp hs)
    | request => exact List.sublist_singleton.mp hs
    | pubrel => exact List.sublist_singleton.mp hs
  rcases hsub with rfl | rfl
  · exact h.drop_reqs
  · exact h

end Exchange

/-- The client waits for a PUBCOMP. -/
def Awaits (c : Client) : Prop := c.isWaitingForAck = true ∧ c.pendingMsgType = pubrelType

/-- The PUBLISH has been acknowledged and the connection on which that happened is up. -/
def Window (conn : Bool) (c : Client) : Prop := conn = true ∧ Awaits c

def requestsOf (c2b : List (ℕ × List UInt8)) : List (ℕ × List UInt8) :=
  c2b.filter fun x => isRequest x.2

/-- What holds in every state of a run: the queue holds `packets`, the packets `replies` of
the broker are on their way to the client or in its receive buffer, at most one packet of
the exchange under way is on its way, and the broker did not forward a message twice. -/
structure Joint (method : Method) (s : Session) (packets replies : List (List UInt8)) : Prop where
  seen : PubrecSeen s.client
  held : Held s.client packets
  accepted_eq : accepted s.client.log = released s.client.log ++ packets
  down : s.conn = false → s.c2b = []
  link : s.conn = true ∨ s.b2c ≠ [] → s.client.pCon = true
  alloc : s.client.connState.receiving = true → s.client.allocated = true
  framed : ∀ packet ∈ replies, WellFramed packet
  stream : s.client.connState.receiving = true → ∃ lost,
    s.client.inBuffer ++ s.b2c ++ lost = replies.flatten ∧ (s.conn = true → lost = [])
  deaf : s.client.connState.receiving = false → replies = []
  exchange : Exchange s.broker s.client packets.head? (replies.filter isAck) (requestsOf s.c2b)
  once : Once method (accepted s.client.log) (done s.client) (Window s.conn s.client) s.broker

theorem get_done {c : Client} {packets : List (List UInt8)}
    (h : accepted c.log = released c.log ++ packets) : (accepted c.log)[done c]? = packets.head? := by
  rw [h,done,List.getElem?_append_right (Nat.le_refl _),Nat.sub_self]
  cases packets <;> rfl

/-- While the client waits for a PUBCOMP the head of the queue is a QoS 2 publish with the
pending id. -/
theorem awaits_head {c : Client} {packets : List (List UInt8)} (h : Held c packets)
    (hw : Awaits c) : ∃ head rest, packets = head::rest ∧ InFlight c head ∧
      mqttGetType head = publishType ∧ mqttGetQos head = 2 ∧ c.pendingMsgId = packetId head := by
  obtain ⟨_,head,rest,hp,hf,hq⟩ := h.head (by rw [hw.2]; decide) (Or.inl hw.1)
  rcases hf.type_eq with ht | ⟨_,ht,hqos,hne⟩
  · rw [Queueable,← ht,hw.2] at hq
    exact absurd hq (by decide)
  · refine ⟨head,rest,hp,hf,ht,hqos,?_⟩
    rw [hf.id_eq]
    exact mqttGetId_packetId head (by rwa [← hf.id_eq])

section BrokerSteps

variable {method : Method} {b : Broker} {c : Client} {packets acks : List (List UInt8)}
  {n : ℕ} {packet : List UInt8} {reqs : List (ℕ × List UInt8)} {window : Prop}

/-- A request the broker receives belongs to the exchange under way; its answer takes the
request's place. -/
theorem Exchange.receive (hex : Exchange b c packets.head? acks ((n,packet)::reqs))
    (hreq : isRequest packet = true) (hheld : Held c packets)
    (hacc : accepted c.log = released c.log ++ packets)
    (hwin : window ↔ Awaits c) (honce : Once method (accepted c.log) (done c) window b) :
    acks = [] ∧ reqs = [] ∧
      (∀ reply, (b.receive method n packet).2 = some reply → WellFramed reply ∧
        isAck reply = true ∧ Exchange (b.receive method n packet).1 c packets.head? [reply] []) ∧
      Once method (accepted c.log) (done c) window (b.receive method n packet).1 := by
  obtain ⟨hans,hid⟩ := receive_request b method n hreq
  have hack : ∀ {type id : ℕ} {reply : List UInt8}, AckShape type id reply →
      type ∈ [pubackType,pubrecType,pubcompType,subackType,unsubackType] →
      WellFramed reply ∧ isAck reply = true := by
    intro type id reply hr hm
    refine ⟨hr.framed,?_⟩
    rw [isAck,hr.type_eq]
    exact decide_eq_true hm
  cases hex with
  | request hh hw hf ht hr =>
    refine ⟨rfl,rfl,?_⟩
    have hq2 : mqttGetType packet = publishType → mqttGetQos packet = 2 →
        IsQos2 (accepted c.log) (done c) packet := fun hp hq => ⟨(get_done hacc).trans hh,hp,hq⟩
    obtain ⟨head,rest,rfl⟩ : ∃ head rest, packets = head::rest := by
      cases packets with
      | nil => cases hh
      | cons head rest => exact ⟨head,rest,rfl⟩
    cases hh
    have hqueue := hheld.queueable packet (by simp)
    generalize hres : b.receive method (done c) packet = r at hans hid
    obtain ⟨b',answer⟩ := r
    cases hans with
    | refused => exact ⟨fun reply he => (by cases he),honce⟩
    | puback hp hq hrep =>
      refine ⟨fun reply he => ?_,honce⟩
      cases he
      obtain ⟨hwf,ha⟩ := hack hrep (by decide)
      exact ⟨hwf,ha,.answer rfl hw hf (hid (by simp)) (.puback (ht.trans hp) hq hrep)⟩
    | pubrec hp hq hrep =>
      have hout : ¬window := fun hwindow => by
        have hrel := (hwin.mp hwindow).2
        rw [ht,hp] at hrel
        exact absurd hrel (by decide)
      refine ⟨fun reply he => ?_,honce.store (hq2 hp hq) hout⟩
      cases he
      obtain ⟨hwf,ha⟩ := hack hrep (by decide)
      refine ⟨hwf,ha,.answer rfl hw hf (hid (by simp)) (.pubrec (ht.trans hp) hq hrep ?_)⟩
      exact b.store_held method (packetId packet) (done c)
    | pubcomp hp hrep =>
      rw [Queueable,hp] at hqueue
      exact absurd hqueue (by decide)
    | suback hp hrep =>
      refine ⟨fun reply he => ?_,honce⟩
      cases he
      obtain ⟨hwf,ha⟩ := hack hrep (by decide)
      exact ⟨hwf,ha,.answer rfl hw hf (hid (by simp)) (.suback (ht.trans hp) hrep)⟩
    | unsuback hp hrep =>
      refine ⟨fun reply he => ?_,honce⟩
      cases he
      obtain ⟨hwf,ha⟩ := hack hrep (by decide)
      exact ⟨hwf,ha,.answer rfl hw hf (hid (by simp)) (.unsuback (ht.trans hp) hrep)⟩
  | @pubrel head _ _ hh hw hf ht hp hpid =>
    refine ⟨rfl,rfl,?_⟩
    obtain ⟨head',rest,rfl,_,htype,hqos,_⟩ := awaits_head hheld ⟨hw,ht⟩
    cases hh
    generalize hres : b.receive method n packet = r at hans hid
    obtain ⟨b',answer⟩ := r
    cases hans with
    | refused => exact ⟨fun reply he => (by cases he),honce⟩
    | puback hp' => exact absurd (hp.symm.trans hp') (by decide)
    | pubrec hp' => exact absurd (hp.symm.trans hp') (by decide)
    | suback hp' => exact absurd (hp.symm.trans hp') (by decide)
    | unsuback hp' => exact absurd (hp.symm.trans hp') (by decide)
    | pubcomp _ hrep =>
      rw [hpid] at hrep hid ⊢
      refine ⟨fun reply he => ?_,
        honce.discard ⟨(get_done hacc).trans rfl,htype,hqos⟩ (hwin.mpr ⟨hw,ht⟩)⟩
      cases he
      obtain ⟨hwf,ha⟩ := hack hrep (by decide)
      exact ⟨hwf,ha,.answer rfl hw hf (hid (by simp))
        (.pubcomp ht hrep (b.discard_free method (packetId head)))⟩

theorem Exchange.receiveAll {xs : List (ℕ × List UInt8)}
    (hex : Exchange b c packets.head? acks (requestsOf xs)) (hheld : Held c packets)
    (hacc : accepted c.log = released c.log ++ packets)
    (hwin : window ↔ Awaits c) (honce : Once method (accepted c.log) (done c) window b) :
    Exchange (b.receiveAll method xs) c packets.head? acks [] ∧
      Once method (accepted c.log) (done c) window (b.receiveAll method xs) := by
  induction xs generalizing b acks with
  | nil => exact ⟨hex,honce⟩
  | cons x xs ih =>
    obtain ⟨n,packet⟩ := x
    by_cases hreq : isRequest packet = true
    · rw [requestsOf,List.filter_cons_of_pos (by exact hreq)] at hex
      obtain ⟨rfl,hnil,_,honce'⟩ := hex.receive hreq hheld hacc hwin honce
      refine ih ?_ honce'
      rw [requestsOf,hnil]
      exact .quiet
    · rw [requestsOf,List.filter_cons_of_neg (by exact hreq)] at hex
      obtain ⟨hsame,_⟩ := receive_other b method n (Bool.eq_false_iff.mpr hreq)
      rw [Broker.receiveAll,hsame]
      exact ih hex honce

end BrokerSteps

def requestsSent (new : List Action) : List (List UInt8) :=
  (sentPackets new).filter isRequest

/-- What a step of the client means for the exchange. `acked` says that it handled an
acknowledgement, `cut` that the connection is gone. -/
inductive Move (acked cut : Prop) (c c' : Client) (packets : List (List UInt8))
    (new : List Action) : Prop
  | same (hp : pending c' = pending c) (hs : requestsSent new = []) (hr : released new = [])
  | cleared (hw : c'.isWaitingForAck = false) (hs : requestsSent new = [])
      (why : c.isWaitingForAck = false ∨ c.pendingMsgType ∈ [connectType,pingreqType] ∨
        (acked ∧ released new ≠ []) ∨ (cut ∧ released new = []))
  | started {head : List UInt8} (hh : packets.head? = some head) (hidle : c.isWaitingForAck = false)
      (hw : c'.isWaitingForAck = true) (ht : c'.pendingMsgType = mqttGetType head)
      (hs : requestsSent new = if isRequest head then [head] else []) (hr : released new = [])
  | advanced (ha : acked) (hw : c.isWaitingForAck = true)
      (ht : c.pendingMsgType = publishType ∨ c.pendingMsgType = pubrelType)
      (hp : pending c' = (c.pendingMsgId,pubrelType,c.pendingPublishQos,true))
      (hs : requestsSent new = [] ∨ ∃ packet, requestsSent new = [packet] ∧
        mqttGetType packet = pubrelType ∧ (c.pendingMsgId ≠ 0 → packetId packet = c.pendingMsgId))
      (hr : released new = [])

section Moves

variable {acked cut : Prop} {c c' : Client} {packets packets' acks acks' : List (List UInt8)}
  {new : List Action} {b : Broker} {reqs : List (ℕ × List UInt8)}

/-- The acknowledgement handled was the only packet of the exchange on its way. -/
structure Acked (c : Client) (packets acks : List (List UInt8)) (new : List Action) (b : Broker) :
    Prop where
  only : ∃ head ack, acks = [ack] ∧ packets.head? = some head ∧ InFlight c head ∧
    packetId head ≠ 0 ∧ Answers b c head ack ∧ ∀ a, .handled a ∈ new → a = ack

theorem Move.exchange (hm : Move acked cut c c' packets new)
    (hex : Exchange b c packets.head? acks reqs)
    (hacked : acked → Acked c packets acks new b ∧ acks' = [])
    (hcut : cut → acks' = [] ∧ reqs = []) (hacks : acks' = acks ∨ acks' = [])
    (hheld : Held c' packets') (hdone : released new = [] → done c' = done c ∧
      ∀ head, packets.head? = some head → packets'.head? = some head)
    {sent : List (ℕ × List UInt8)}
    (hsent : sent = [] ∨ sent = (requestsSent new).map fun packet => (done c,packet)) :
    Exchange b c' packets'.head? acks' (reqs ++ sent) := by
  have hnone : requestsSent new = [] → sent = [] := fun hs => by
    rcases hsent with h | h
    · exact h
    · rw [h,hs,List.map_nil]
  cases hm with
  | same hp hs hr =>
    obtain ⟨hd,hh⟩ := hdone hr
    rw [hnone hs,List.append_nil]
    have hsame := hex.of_pending hp hd hh
    rcases hacks with rfl | rfl
    · exact hsame
    · exact hsame.drop_acks
  | cleared hw hs why =>
    have hempty : acks' = [] ∧ reqs = [] := by
      rcases why with hidle | ht | ⟨ha,_⟩ | ⟨hc,_⟩
      · obtain ⟨ha,hr⟩ := hex.empty (Or.inl hidle)
        exact ⟨hacks.elim (·.trans ha) id,hr⟩
      · obtain ⟨ha,hr⟩ := hex.empty (Or.inr ht)
        exact ⟨hacks.elim (·.trans ha) id,hr⟩
      · obtain ⟨⟨_,_,rfl,_⟩,hnil⟩ := hacked ha
        cases hex
        exact ⟨hnil,rfl⟩
      · exact hcut hc
    rw [hempty.1,hempty.2,hnone hs]
    exact .quiet
  | @started head hh hidle hw ht hs hr =>
    obtain ⟨hd,hhead⟩ := hdone hr
    obtain ⟨rfl,rfl⟩ := hex.empty (Or.inl hidle)
    have hnil : acks' = [] := hacks.elim id id
    rw [hnil,List.nil_append]
    by_cases hreq : isRequest head = true
    · rw [if_pos hreq] at hs
      rcases hsent with rfl | rfl
      · exact .quiet
      · rw [hs,← hd]
        have hqueue := hheld.queueable head (List.mem_of_mem_head? (hhead head hh))
        have hne : c'.pendingMsgType ≠ connectType := by
          rw [ht]
          intro he
          rw [Queueable,he] at hqueue
          exact absurd hqueue (by decide)
        obtain ⟨_,head',rest,hp',hf,_⟩ := hheld.head hne (Or.inl hw)
        have hsame := hhead head hh
        rw [hp'] at hsame
        cases hsame
        rw [hp']
        exact .request rfl hw hf ht hreq
    · rw [if_neg hreq] at hs
      rw [hnone hs]
      exact .quiet
  | advanced ha hw ht hp hs hr =>
    obtain ⟨hd,hhead⟩ := hdone hr
    obtain ⟨⟨head,ack,rfl,hh,hf,hne,hans,_⟩,rfl⟩ := hacked ha
    cases hex with
    | answer _ _ _ _ _ =>
      rw [List.nil_append]
      simp only [pending,Prod.mk.injEq] at hp
      obtain ⟨hi,htype,hqos,hwait⟩ := hp
      obtain ⟨head',rest,hp',hf',_,_,hid⟩ := awaits_head hheld ⟨hwait,htype⟩
      have hsame := hhead head hh
      rw [hp'] at hsame
      cases hsame
      have hrel : ∀ packet, mqttGetType packet = pubrelType →
          (c.pendingMsgId ≠ 0 → packetId packet = c.pendingMsgId) →
          Exchange b c' packets'.head? [] [(done c,packet)] := fun packet hpt hpid => by
        rw [hi] at hid
        rw [hp']
        exact .pubrel rfl hwait hf' htype hpt ((hpid (by rw [hid]; exact hne)).trans hid)
      rcases hs with hs | ⟨packet,hs,hpt,hpid⟩
      · rw [hnone hs]
        exact .quiet
      · rcases hsent with rfl | rfl
        · exact .quiet
        · rw [hs]
          exact hrel packet hpt hpid

/-- The pending type of a publish in flight is its own, or that of the PUBREL. -/
theorem InFlight.publish_type {packet : List UInt8} (h : InFlight c packet)
    (hp : mqttGetType packet = publishType) :
    c.pendingMsgType = publishType ∨ c.pendingMsgType = pubrelType := by
  rcases h.type_eq with ht | ⟨ht,_⟩
  · exact Or.inl (ht.trans hp)
  · exact Or.inr ht

/-- A QoS 2 message is released by a PUBCOMP, when the broker does not hold its id. -/
theorem Move.free (hm : Move acked cut c c' packets new)
    (hacked : acked → Acked c packets acks new b) {head : List UInt8} {rest : List (List UInt8)}
    (hpackets : packets = head::rest) (hrel : released new ≠ [])
    (hj : Justified c head new) (htype : mqttGetType head = publishType)
    (hqos : mqttGetQos head = 2) : b.stored (packetId head) = none := by
  cases hj with
  | sent _ hq => exact absurd (hqos.symm.trans hq) (by decide)
  | completed ack hwait hf hin hc =>
    have hpend := InFlight.publish_type hf htype
    cases hm with
    | same _ _ hr => exact absurd hr hrel
    | started _ _ _ _ _ hr => exact absurd hr hrel
    | advanced _ _ _ _ _ hr => exact absurd hr hrel
    | cleared _ _ why =>
      rcases why with hidle | ht | ⟨ha,_⟩ | ⟨_,hr⟩
      · exact absurd (hwait.symm.trans hidle) (by decide)
      · rcases hpend with h | h <;> rw [h] at ht <;> exact absurd ht (by decide)
      · obtain ⟨head',ack',_,hh,_,_,hans,honly⟩ := hacked ha
        rw [hpackets] at hh
        cases hh
        obtain rfl := honly ack hin
        cases hans with
        | pubcomp _ _ hs => exact hs
        | puback _ hq => exact absurd (hqos.symm.trans hq) (by decide)
        | pubrec _ _ hr =>
          cases hc with
          | puback _ hq => exact absurd (hqos.symm.trans hq) (by decide)
          | pubcomp _ _ _ ha => exact absurd (hr.type_eq.symm.trans ha) (by decide)
          | suback hp => exact absurd (htype.symm.trans hp) (by decide)
          | unsuback hp => exact absurd (htype.symm.trans hp) (by decide)
          | pingresp hp => exact absurd (htype.symm.trans hp) (by decide)
        | suback ht => rcases hpend with h | h <;> exact absurd (h.symm.trans ht) (by decide)
        | unsuback ht => rcases hpend with h | h <;> exact absurd (h.symm.trans ht) (by decide)
      · exact absurd hr hrel

theorem Move.once {method : Method} {conn : Bool} (hm : Move acked cut c c' packets new)
    (heff : EffectsBy c c' packets new) (hacc : accepted c.log = released c.log ++ packets)
    (hacked : acked → Acked c packets acks new b) (hcut : cut → conn = false)
    (honce : Once method (accepted c.log) (done c) (Window conn c) b) :
    Once method (accepted c'.log) (done c') (Window conn c') b := by
  have hgrow : accepted c.log <+: accepted c'.log := by
    rw [heff.log_eq,accepted_append]
    exact List.prefix_append _ _
  have hcount : done c' = done c+(released new).length := by
    rw [done,done,heff.log_eq,released_append,List.length_append]
  rcases heff.held with ⟨hr,_⟩ | ⟨head,rest,hp,hr,_,hj⟩
  · rw [hcount,hr]
    refine honce.mono hgrow fun ⟨hconn,hwait,hrel⟩ => Or.inl ⟨hconn,?_⟩
    cases hm with
    | same hpend =>
      simp only [pending,Prod.mk.injEq] at hpend
      obtain ⟨_,ht,_,hw⟩ := hpend
      exact ⟨hw.trans hwait,ht.trans hrel⟩
    | cleared _ _ why =>
      rcases why with hidle | ht | ⟨_,hne⟩ | ⟨hc,_⟩
      · exact absurd (hwait.symm.trans hidle) (by decide)
      · rw [hrel] at ht
        exact absurd ht (by decide)
      · exact absurd hr hne
      · exact absurd (hconn.symm.trans (hcut hc)) (by decide)
    | started _ hidle => exact absurd (hwait.symm.trans hidle) (by decide)
    | advanced _ _ _ hpend =>
      simp only [pending,Prod.mk.injEq] at hpend
      exact ⟨hpend.2.2.2,hpend.2.1⟩
  · rw [hcount,hr]
    refine honce.release hgrow fun packet hq => ?_
    have hget := (get_done hacc).symm.trans hq.get_eq
    rw [hp] at hget
    cases hget
    exact hm.free hacked hp (by rw [hr]; exact List.cons_ne_nil _ _) hj hq.type_eq hq.qos_eq

end Moves

end MqttSession
end MeterLogger
