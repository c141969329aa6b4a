import MeterLogger.MqttInboundStream

/-!
# When the application gets a message twice

Along every run in which the broker sends no QoS 2 message again that the application got already,
no message is given to the application twice. The client itself does nothing about it: a message
that is sent again because its PUBREC was lost is given to the application again.
-/

namespace MeterLogger
namespace MqttInbound

open Bytes MqttMessage MqttClient MqttSession MqttBroker Runs Handshake

/-- What a packet to the client is in the exchange of an id. -/
def requestOf (id : ℕ) (packet : List UInt8) : Option Handshake.Request :=
  if packetId packet = id then
    if isQos2 packet then some .publish
    else if mqttGetType packet = pubrelType then some .release else none
  else none

/-- What a packet to the broker is in the exchange of an id. -/
def replyOf (id : ℕ) (packet : List UInt8) : Option Reply :=
  if packetId packet = id then
    if mqttGetType packet = pubrecType then some .received
    else if mqttGetType packet = pubcompType then some .complete else none
  else none

def requests (id : ℕ) (flight : List (List UInt8)) : List Handshake.Request :=
  flight.filterMap (requestOf id)

def replies (id : ℕ) (c2b : List (List UInt8)) : List Reply := c2b.filterMap (replyOf id)

/-- The exchange of every id is in order. -/
def AllFit (phase : ℕ → Phase) (log : List Action) (flight c2b : List (List UInt8)) : Prop :=
  ∀ id, Fits (phase id) (isOpen (items log) id) (requests id flight) (replies id c2b)

section Letters

variable {id : ℕ} {packet : List UInt8}

@[simp] theorem requests_append (xs ys : List (List UInt8)) :
    requests id (xs ++ ys) = requests id xs ++ requests id ys := List.filterMap_append

@[simp] theorem replies_append (xs ys : List (List UInt8)) :
    replies id (xs ++ ys) = replies id xs ++ replies id ys := List.filterMap_append

theorem requestOf_qos2 (hq : isQos2 packet = true) :
    requestOf id packet = if packetId packet = id then some .publish else none := by
  simp [requestOf,hq]

theorem not_isQos2 (ht : mqttGetType packet ≠ publishType) : isQos2 packet = false := by
  simp [isQos2,ht]

theorem requestOf_pubrel (ht : mqttGetType packet = pubrelType) :
    requestOf id packet = if packetId packet = id then some .release else none := by
  have hq : isQos2 packet = false := not_isQos2 (by rw [ht]; decide)
  simp [requestOf,hq,ht]

theorem requestOf_other (hq : isQos2 packet = false) (ht : mqttGetType packet ≠ pubrelType) :
    requestOf id packet = none := by
  simp [requestOf,hq,ht]

theorem replyOf_pubrec (ht : mqttGetType packet = pubrecType) :
    replyOf id packet = if packetId packet = id then some .received else none := by
  simp [replyOf,ht]

theorem replyOf_pubcomp (ht : mqttGetType packet = pubcompType) :
    replyOf id packet = if packetId packet = id then some .complete else none := by
  have hne : ¬pubcompType = pubrecType := by decide
  simp [replyOf,ht,hne]

theorem replyOf_other (h : mqttGetType packet ≠ pubrecType ∧ mqttGetType packet ≠ pubcompType) :
    replyOf id packet = none := by
  simp [replyOf,h.1,h.2]

theorem replies_bland {new : List Action} (h : ∀ a ∈ new, Bland a) :
    replies id (sentPackets new) = [] := by
  refine List.filterMap_eq_nil_iff.mpr fun packet hp => ?_
  exact replyOf_other (sentPackets_bland h packet hp)

theorem pubrelPacket_framed (id : ℕ) : Framed (pubrelPacket id) :=
  ⟨0x62,[2],u16Bytes id,rfl,.last 2 (by decide)⟩

theorem pubrelPacket_type (id : ℕ) : mqttGetType (pubrelPacket id) = pubrelType := by
  rw [mqttGetType_eq,pubrelPacket,List.getD_cons_zero]
  decide

theorem pubrelPacket_id (hid : id < 65536) :
    mqttGetId (pubrelPacket id) (pubrelPacket id).length = id ∧ packetId (pubrelPacket id) = id := by
  have hlen : (pubrelPacket id).length = 4 := rfl
  have hread : readU16 (pubrelPacket id) 2 = id := readU16_header hid _ _ []
  have hbit : (pubrelPacket id).getD 1 0 &&& 0x80 = 0 := show (2 : UInt8) &&& 0x80 = 0 by decide
  have hget : mqttGetId (pubrelPacket id) (pubrelPacket id).length = id := by
    rw [mqttGetId,hlen,if_neg (by decide),if_neg (by rw [pubrelPacket_type]; decide),
      if_pos (by rw [pubrelPacket_type]; decide),if_pos ⟨by decide,hbit⟩,hread]
  refine ⟨hget,?_⟩
  have hsize : headerSize (pubrelPacket id) = 2 := by
    simp only [headerSize,hlen,lengthLoop,hbit,if_true]
  rw [packetId,if_neg (by rw [pubrelPacket_type]; decide),hsize,hread]

end Letters

section Exchanges

variable {phase : ℕ → Phase} {log : List Action} {flight flight' c2b : List (List UInt8)}

theorem AllFit.sublist (h : AllFit phase log flight c2b) (hs : flight'.Sublist flight) :
    AllFit phase log flight' c2b :=
  fun id => (h id).sublist (hs.filterMap (requestOf id))

theorem AllFit.mild (h : AllFit phase log flight c2b) {new : List Action}
    (hm : ∀ a ∈ new, Mild a) :
    AllFit phase (log ++ new) flight c2b ∧
      AllFit phase (log ++ new) flight (c2b ++ sentPackets new) := by
  have hbland : ∀ a ∈ new, Bland a := fun a ha => (hm a ha).bland
  constructor
  · intro id
    rw [items_mild hm]
    exact h id
  · intro id
    rw [items_mild hm,replies_append,replies_bland hbland,List.append_nil]
    exact h id

theorem AllFit.handled {log' : List Action} {packet : List UInt8} {sent : List (List UInt8)}
    (h : AllFit phase log (packet::flight) c2b)
    (hother : ∀ id, packetId packet ≠ id → isOpen (items log') id = isOpen (items log) id ∧
      replies id sent = [])
    (hown : ∀ id, packetId packet = id →
      Fits (phase id) (isOpen (items log') id) (requests id flight) (replies id c2b) ∧
        Fits (phase id) (isOpen (items log') id) (requests id flight)
          (replies id c2b ++ replies id sent)) :
    AllFit phase log' flight c2b ∧ AllFit phase log' flight (c2b ++ sent) := by
  have hfits : ∀ id, Fits (phase id) (isOpen (items log') id) (requests id flight)
      (replies id c2b) ∧ Fits (phase id) (isOpen (items log') id) (requests id flight)
        (replies id c2b ++ replies id sent) := by
    intro id
    by_cases heq : packetId packet = id
    · exact hown id heq
    · obtain ⟨hopen,hnil⟩ := hother id heq
      have hfit := h id
      have hnone : requestOf id packet = none := by simp [requestOf,heq]
      rw [requests,List.filterMap_cons,hnone] at hfit
      rw [hopen,hnil,List.append_nil]
      exact ⟨hfit,hfit⟩
  refine ⟨fun id => (hfits id).1,fun id => ?_⟩
  rw [replies_append]
  exact (hfits id).2

theorem replies_answer {sent : List Action} {type own : ℕ} {reply : Reply}
    (hsent : sent = [] ∨ ∃ ack, sent = [.send ack] ∧ mqttGetType ack = type ∧ packetId ack = own)
    (hreply : ∀ ack id, mqttGetType ack = type →
      replyOf id ack = if packetId ack = id then some reply else none) :
    (∀ id, own ≠ id → replies id (sentPackets sent) = []) ∧
      (replies own (sentPackets sent) = [] ∨ replies own (sentPackets sent) = [reply]) := by
  rcases hsent with rfl | ⟨ack,rfl,ht,hack⟩
  · exact ⟨fun _ _ => rfl,Or.inl rfl⟩
  · have hone : ∀ id, replies id (sentPackets [.send ack]) =
        if own = id then [reply] else [] := by
      intro id
      by_cases heq : own = id <;>
        simp [sentPackets,replies,sentBy,hreply ack id ht,hack,heq]
    exact ⟨fun id hne => by rw [hone,if_neg hne],Or.inr (by rw [hone,if_pos rfl])⟩

section Works

variable {c c' m : Client} {packet : List UInt8} {env : Env}

theorem AllFit.message (h : AllFit phase c.log (packet::flight) c2b)
    (honce : AtMostOnce (items c.log)) (hq : isQos2 packet = true)
    (hid : mqttGetId packet packet.length ≠ 0) (hm : m.log = c.log) (ha : m.allocated = true)
    (hlog : c'.log = (m.handleMessage packet env).log) :
    AtMostOnce (items c'.log) ∧ AllFit phase c'.log flight c2b ∧
      AllFit phase c'.log flight (c2b ++ sentPackets (newActions c c')) := by
  obtain ⟨sent,new,hnew,hsent,hmild⟩ := handleMessage_qos2 hq hid ha env
  obtain ⟨hothers,hown⟩ := replies_answer hsent fun ack id ht => replyOf_pubrec ht
  have htype : mqttGetType packet ≠ pubrelType := by
    intro ht
    rw [not_isQos2 (by rw [ht]; decide)] at hq
    cases hq
  rw [hnew,hm] at hlog
  have hitems : items c'.log = items c.log ++ [.data (packetId packet)] := by
    have hstart : hear (heard c.log) (.handled packet) = ⟨packet,items c.log⟩ := by
      simp [hear,htype,items]
    have hsame : sent.foldl hear ⟨packet,items c.log⟩ = ⟨packet,items c.log⟩ := by
      rcases hsent with rfl | ⟨ack,rfl,_⟩ <;> rfl
    rw [hlog,items,heard_append,List.foldl_cons,List.foldl_append,List.foldl_cons,
      hear_mild hmild,hstart,hsame]
    simp [hear,hq]
  have hreplies : ∀ id, replies id (sentPackets (newActions c c')) =
      replies id (sentPackets sent) := by
    intro id
    have hsends : sentPackets (newActions c c') = sentPackets sent ++ sentPackets new := by
      rw [newActions_eq hlog]
      simp [sentPackets,sentBy,List.filterMap_cons]
    rw [hsends,replies_append,replies_bland fun a ha => (hmild a ha).bland,List.append_nil]
  have hfit := h (packetId packet)
  rw [requests,List.filterMap_cons,requestOf_qos2 hq,if_pos rfl] at hfit
  obtain ⟨hclosed,hquiet,hanswer⟩ := hfit.take
  refine ⟨by rw [hitems]; exact honce.data hclosed,h.handled (fun id hne => ?_) fun id heq => ?_⟩
  · rw [hitems,isOpen_data,if_neg hne,hreplies]
    exact ⟨rfl,hothers id hne⟩
  · subst heq
    rw [hitems,isOpen_data,if_pos rfl,hreplies]
    rcases hown with hr | hr
    · rw [hr,List.append_nil]
      exact ⟨hquiet,hquiet⟩
    · rw [hr]
      exact ⟨hquiet,hanswer⟩

theorem AllFit.released (h : AllFit phase c.log (packet::flight) c2b)
    (honce : AtMostOnce (items c.log)) (ht : mqttGetType packet = pubrelType)
    (hid : mqttGetId packet packet.length ≠ 0) (hm : m.log = c.log)
    (hlog : c'.log = (m.handleMessage packet env).log) :
    AtMostOnce (items c'.log) ∧ AllFit phase c'.log flight c2b ∧
      AllFit phase c'.log flight (c2b ++ sentPackets (newActions c c')) := by
  obtain ⟨sent,hnew,hsent⟩ := handleMessage_pubrel (c := m) ht hid env
  obtain ⟨hothers,hown⟩ := replies_answer hsent fun ack id ht => replyOf_pubcomp ht
  rw [hnew,hm] at hlog
  have hitems : items c'.log = items c.log ++ [.release (packetId packet)] := by
    have hstart : hear (heard c.log) (.handled packet) =
        ⟨packet,items c.log ++ [.release (packetId packet)]⟩ := by
      simp [hear,ht,items]
    rw [hlog,items,heard_append,List.foldl_cons,hstart]
    rcases hsent with rfl | ⟨ack,rfl,_⟩ <;> rfl
  have hsends : sentPackets (newActions c c') = sentPackets sent := by
    rw [newActions_eq hlog]
    rfl
  have hfit := h (packetId packet)
  rw [requests,List.filterMap_cons,requestOf_pubrel ht,if_pos rfl] at hfit
  obtain ⟨hquiet,hanswer⟩ := hfit.close
  refine ⟨by rw [hitems]; exact honce.release,h.handled (fun id hne => ?_) fun id heq => ?_⟩
  · rw [hitems,isOpen_release,if_neg hne,hsends]
    exact ⟨rfl,hothers id hne⟩
  · subst heq
    rw [hitems,isOpen_release,if_pos rfl,hsends]
    rcases hown with hr | hr
    · rw [hr,List.append_nil]
      exact ⟨hquiet,hquiet⟩
    · rw [hr]
      exact ⟨hquiet,hanswer⟩

theorem AllFit.other (h : AllFit phase c.log (packet::flight) c2b)
    (honce : AtMostOnce (items c.log)) (hq : isQos2 packet = false)
    (ht : mqttGetType packet ≠ pubrelType) (hm : m.log = c.log)
    (hlog : c'.log = (m.handleMessage packet env).log) :
    AtMostOnce (items c'.log) ∧ AllFit phase c'.log flight c2b ∧
      AllFit phase c'.log flight (c2b ++ sentPackets (newActions c c')) := by
  obtain ⟨new,hnew,hbland⟩ := handleMessage_other (c := m) hq ht env
  have hlog' : c'.log = c.log ++ .handled packet::new := by
    rw [hlog,hnew,← hm]
    simp [Client.emit]
  have hitems : items c'.log = items c.log := by
    rw [hlog',items,heard_append,List.foldl_cons,hear_bland ?_ hbland]
    · simp [hear,ht,items]
    · simp [hear,hq]
  have hsends : sentPackets (newActions c c') = sentPackets new := by
    rw [newActions_eq hlog']
    rfl
  refine ⟨by rw [hitems]; exact honce,h.handled (fun id _ => ?_) fun id _ => ?_⟩
  · rw [hitems,hsends]
    exact ⟨rfl,replies_bland hbland⟩
  · have hfit := h id
    rw [requests,List.filterMap_cons,requestOf_other hq ht] at hfit
    rw [hitems,hsends,replies_bland hbland,List.append_nil]
    exact ⟨hfit,hfit⟩

/-- The client works at the first packet on its way; what it sends is carried or not. -/
theorem AllFit.works (h : AllFit phase c.log (packet::flight) c2b) (hw : Works c c' packet)
    (hid : isQos2 packet = true ∨ mqttGetType packet = pubrelType →
      mqttGetId packet packet.length ≠ 0) (honce : AtMostOnce (items c.log)) :
    AtMostOnce (items c'.log) ∧ AllFit phase c'.log flight c2b ∧
      AllFit phase c'.log flight (c2b ++ sentPackets (newActions c c')) := by
  obtain ⟨m,env,hm,ha,hlog⟩ := hw
  by_cases hq : isQos2 packet = true
  · exact h.message honce hq (hid (Or.inl hq)) hm ha hlog
  · by_cases ht : mqttGetType packet = pubrelType
    · exact h.released honce ht (hid (Or.inr ht)) hm hlog
    · exact h.other honce (Bool.eq_false_iff.mpr hq) ht hm hlog

end Works

theorem AllFit.receive {packet : List UInt8} (h : AllFit phase log flight (packet::c2b)) :
    ((MqttInbound.receive phase packet).2 = [] ∧
      AllFit (MqttInbound.receive phase packet).1 log flight c2b) ∨
    (phase (packetId packet) = .publishing ∧
      (MqttInbound.receive phase packet).2 = pubrelPacket (packetId packet) ∧
      AllFit (MqttInbound.receive phase packet).1 log
        (flight ++ [pubrelPacket (packetId packet)]) c2b) := by
  have hlt := packetId_lt packet
  have hother : ∀ {id : ℕ}, replyOf id packet = none →
      Fits (phase id) (isOpen (items log) id) (requests id flight) (replies id c2b) := by
    intro id hnone
    have hfit := h id
    rw [replies,List.filterMap_cons,hnone] at hfit
    exact hfit
  unfold MqttInbound.receive
  by_cases hrec : mqttGetType packet = pubrecType
  · right
    have hfit := h (packetId packet)
    rw [replies,List.filterMap_cons,replyOf_pubrec hrec,if_pos rfl] at hfit
    obtain ⟨hphase,hfit⟩ := hfit.received
    have hne : ¬phase (packetId packet) = .free := by rw [hphase]; decide
    simp only [if_pos hrec,if_neg hne]
    refine ⟨hphase,trivial,fun id => ?_⟩
    rw [requests_append]
    have hone : requests id [pubrelPacket (packetId packet)] =
        if packetId packet = id then [.release] else [] := by
      rw [requests,List.filterMap_cons,requestOf_pubrel (pubrelPacket_type _),
        (pubrelPacket_id hlt).2]
      by_cases heq : packetId packet = id <;> simp [heq]
    rw [hone]
    by_cases heq : packetId packet = id
    · subst heq
      rw [if_pos rfl,Function.update_self]
      exact hfit
    · rw [if_neg heq,List.append_nil,Function.update_of_ne (Ne.symm heq)]
      refine hother ?_
      rw [replyOf_pubrec hrec,if_neg heq]
  · left
    by_cases hcomp : mqttGetType packet = pubcompType
    · simp only [if_neg hrec,if_pos hcomp,true_and]
      intro id
      by_cases heq : packetId packet = id
      · have hfit := h id
        rw [replies,List.filterMap_cons,replyOf_pubcomp hcomp,if_pos heq] at hfit
        have hfit := hfit.complete
        rw [heq]
        split
        · rename_i hp
          rw [if_pos hp] at hfit
          rw [Function.update_self]
          exact hfit
        · rename_i hp
          rw [if_neg hp] at hfit
          exact hfit
      · have hsame : (if phase (packetId packet) = .releasing then
            Function.update phase (packetId packet) .free else phase) id = phase id := by
          split
          · exact Function.update_of_ne (Ne.symm heq) _ _
          · rfl
        rw [hsame]
        refine hother ?_
        rw [replyOf_pubcomp hcomp,if_neg heq]
    · simp only [if_neg hrec,if_neg hcomp,true_and]
      exact fun id => hother (replyOf_other ⟨hrec,hcomp⟩)

/-- The packets in front of the place where a connection breaks; the broker's answers are lost. -/
theorem AllFit.receiveAll {xs ys : List (List UInt8)} (h : AllFit phase log flight (xs ++ ys)) :
    AllFit (MqttInbound.receiveAll phase xs) log flight [] := by
  induction xs generalizing phase with
  | nil => exact fun id => (h id).cut
  | cons packet xs ih =>
    rw [List.cons_append] at h
    refine ih ?_
    rcases h.receive with ⟨_,hfit⟩ | ⟨_,_,hfit⟩
    · exact hfit
    · exact hfit.sublist (List.sublist_append_left _ _)

/-- What the broker knows of its messages is about ids a packet can carry. -/
def Sensible (phase : ℕ → Phase) : Prop := ∀ id, phase id ≠ .free → 0 < id ∧ id < 65536

theorem Sensible.update (h : Sensible phase) {id : ℕ} (hid : 0 < id ∧ id < 65536) (p : Phase) :
    Sensible (Function.update phase id p) := by
  intro i hi
  by_cases heq : i = id
  · rw [heq]
    exact hid
  · rw [Function.update_of_ne heq] at hi
    exact h i hi

theorem Sensible.receive (h : Sensible phase) (packet : List UInt8) :
    Sensible (MqttInbound.receive phase packet).1 := by
  unfold MqttInbound.receive
  by_cases hfree : phase (packetId packet) = .free
  · have hne : ¬phase (packetId packet) = .releasing := by rw [hfree]; decide
    simp only [if_pos hfree,if_neg hne]
    split
    · exact h
    · split <;> exact h
  · have hid := h _ hfree
    simp only [if_neg hfree]
    split
    · exact h.update hid _
    · split
      · split
        · exact h.update hid _
        · exact h
      · exact h

theorem Sensible.receiveAll (h : Sensible phase) (packets : List (List UInt8)) :
    Sensible (MqttInbound.receiveAll phase packets) := by
  induction packets generalizing phase with
  | nil => exact h
  | cons packet packets ih => exact ih (h.receive packet)

end Exchanges

def Readable (packet : List UInt8) : Prop :=
  isQos2 packet = true ∨ mqttGetType packet = pubrelType → mqttGetId packet packet.length ≠ 0

/-- The exchanges are in order, wherever the packets to the client are. -/
structure Orderly (s : Downlink) (flight : List (List UInt8)) : Prop where
  readable : ∀ p ∈ flight, Readable p
  down : s.conn = false → s.c2b = []
  sensible : Sensible s.phase
  fit : AllFit s.phase s.client.log flight s.c2b
  once : AtMostOnce (items s.client.log)

structure Joint (s : Downlink) (flight : List (List UInt8)) : Prop where
  queue : ∃ packets, Numbered s.client packets
  stream : Stream s.client s.conn s.b2c flight
  orderly : Orderly s flight

section Joints

variable {s : Downlink} {flight flight' : List (List UInt8)}

theorem Orderly.became (h : Orderly s flight) {c' : Client} (up : Bool)
    (ht : Takes s.client c' flight flight') : Orderly (s.became c' up) flight' := by
  have hwire : ∀ {log : List Action},
      AllFit s.phase log flight' s.c2b →
      AllFit s.phase log flight' (s.c2b ++ sentPackets (newActions s.client c')) →
      AllFit s.phase log flight' (s.became c' up).c2b := by
    intro log hquiet hsent
    unfold Downlink.became
    simp only
    split
    · exact hsent
    · exact hquiet
  have hdown : (s.became c' up).conn = false → (s.became c' up).c2b = [] := by
    intro hconn
    have hconn : s.conn = false := hconn
    simp only [Downlink.became,hconn,Bool.false_eq_true,if_false]
    exact h.down hconn
  cases ht with
  | none hm hs =>
    obtain ⟨new,hnew,hmild⟩ := hm
    obtain ⟨hquiet,hsent⟩ := (h.fit.sublist hs).mild hmild
    rw [← hnew] at hquiet hsent
    rw [← newActions_eq hnew] at hsent
    refine ⟨fun p hp => h.readable p (hs.subset hp),hdown,h.sensible,hwire hquiet hsent,?_⟩
    show AtMostOnce (items c'.log)
    rw [hnew,items_mild hmild]
    exact h.once
  | one hw hs =>
    obtain ⟨honce,hquiet,hsent⟩ := h.fit.works hw (h.readable _ List.mem_cons_self) h.once
    exact ⟨fun p hp => h.readable p (List.mem_cons_of_mem _ (hs.subset hp)),hdown,h.sensible,
      hwire (hquiet.sublist hs) (hsent.sublist hs),honce⟩

theorem Joint.send (h : Joint s flight) (hconn : s.conn = true) {packet : List UInt8}
    (hf : Framed packet) (hr : Readable packet) {phase : ℕ → Phase} {c2b : List (List UInt8)}
    (hs : Sensible phase) (hfit : AllFit phase s.client.log (flight ++ [packet]) c2b) :
    ∃ flight', Joint ({ s with phase := phase, c2b := c2b }.send packet) flight' := by
  have hstream := h.stream
  rw [hconn] at hstream
  obtain ⟨flight',hsub,hstream⟩ := hstream.send hf
  refine ⟨flight',h.queue,?_,fun p hp => ?_,fun hd => absurd (hconn.symm.trans hd) (by decide),hs,
    hfit.sublist hsub,h.orderly.once⟩
  · show Stream s.client s.conn (s.b2c ++ packet) flight'
    rw [hconn]
    exact hstream
  · rcases List.mem_append.mp (hsub.subset hp) with hm | hm
    · exact h.orderly.readable p hm
    · rw [List.mem_singleton.mp hm]
      exact hr

theorem readable_pubrel {id : ℕ} (hid : 0 < id ∧ id < 65536) : Readable (pubrelPacket id) := by
  intro _
  rw [(pubrelPacket_id hid.2).1]
  omega

theorem Joint.client (h : Joint s flight) (e : Event) (hcan : s.Can (.client e)) :
    ∃ flight', Joint (s.next (.client e)) flight' := by
  obtain ⟨_,hown,hup⟩ := hcan
  obtain ⟨packets,hn⟩ := h.queue
  obtain ⟨flight',ht,hstream⟩ := h.stream.event hn e hown hup
  have hbuild : buildsConnect s.client e = false := by
    cases e <;> first | rfl | exact absurd (show true = false from hown) (by decide)
  obtain ⟨packets',_,_,hn',_⟩ := moves_next s.client e hbuild packets hn
  exact ⟨flight',⟨packets',hn'⟩,hstream,h.orderly.became _ ht⟩

theorem Joint.deliver (h : Joint s flight) (k : ℕ) (env : Env) (hcan : s.Can (.deliver k env)) :
    ∃ flight', Joint (s.next (.deliver k env)) flight' := by
  obtain ⟨packets,hn⟩ := h.queue
  obtain ⟨flight',ht,hstream⟩ := h.stream.deliver k env hcan
  obtain ⟨packets',_,_,hn',_⟩ := moves_next s.client (.recv (s.b2c.take k) env) rfl packets hn
  have horderly : Orderly { s with b2c := s.b2c.drop k } flight :=
    ⟨h.orderly.readable,h.orderly.down,h.orderly.sensible,h.orderly.fit,h.orderly.once⟩
  exact ⟨flight',⟨packets',hn'⟩,hstream,horderly.became _ ht⟩

theorem Joint.connect (h : Joint s flight) (env : Env) (hcan : s.Can (.connect env))
    (hclear : s.Clear (.connect env)) : ∃ flight', Joint (s.next (.connect env)) flight' := by
  obtain ⟨hconn,hb2c,hp⟩ := hcan
  obtain ⟨packets,hn⟩ := h.queue
  have hqueue : ∃ packets', Numbered (s.client.mqttTcpclientConnectCb env) packets' := by
    cases ha : s.client.allocated with
    | true => exact ⟨packets,(numbered_connect hn ha env).1⟩
    | false =>
      obtain ⟨packets',_,_,hn',_⟩ := moves_next s.client (.connected env) ha packets hn
      exact ⟨packets',hn'⟩
  have hfit := h.orderly.fit
  rw [h.orderly.down hconn] at hfit
  have horderly : Orderly { s with conn := true, c2b := [] } flight :=
    ⟨h.orderly.readable,fun hd => absurd (show true = false from hd) (by decide),
      h.orderly.sensible,hfit,h.orderly.once⟩
  have htakes : Takes s.client (s.client.mqttTcpclientConnectCb env) flight [] :=
    .none (mild_mqttTcpclientConnectCb s.client env) (List.nil_sublist _)
  refine ⟨[],hqueue,?_,horderly.became _ htakes⟩
  have hnil : (s.next (.connect env)).b2c = [] := by
    show (if _ then [] else s.b2c) = []
    rw [hb2c]
    split <;> rfl
  rw [hnil]
  exact Stream.connect s.client env hp hclear

theorem Joint.broker (h : Joint s flight) (hconn : s.conn = true) :
    ∃ flight', Joint (s.next .broker) flight' := by
  cases hq : s.c2b with
  | nil =>
    have hsame : s.next .broker = s := by simp only [Downlink.next,hq]
    rw [hsame]
    exact ⟨flight,h⟩
  | cons packet rest =>
    have hnext : s.next .broker = { s with
        phase := (receive s.phase packet).1, c2b := rest }.send (receive s.phase packet).2 := by
      simp only [Downlink.next,hq]
    have hfit := h.orderly.fit
    rw [hq] at hfit
    have hs := h.orderly.sensible.receive packet
    rw [hnext]
    rcases hfit.receive with ⟨hnil,hfit⟩ | ⟨hphase,hreply,hfit⟩
    · refine ⟨flight,h.queue,?_,h.orderly.readable,
        fun hd => absurd (hconn.symm.trans hd) (by decide),hs,hfit,h.orderly.once⟩
      show Stream s.client s.conn (s.b2c ++ (receive s.phase packet).2) flight
      rw [hnil,List.append_nil]
      exact h.stream
    · rw [hreply]
      have hid := h.orderly.sensible (packetId packet) (by rw [hphase]; decide)
      exact h.send hconn (pubrelPacket_framed _) (readable_pubrel hid) hs hfit

/-- While there is a connection the packets on their way are those of the bytes on their way. -/
theorem Joint.onWay (h : Joint s flight) (hconn : s.conn = true)
    (hr : s.client.connState.receiving = true) :
    packetsIn (s.client.inBuffer ++ s.b2c).length (s.client.inBuffer ++ s.b2c) = flight := by
  obtain ⟨lost,hlost,hnone⟩ := h.stream.bytes hr
  obtain rfl := hnone hconn
  rw [List.append_nil] at hlost
  rw [hlost]
  exact packetsIn_flatten h.stream.framed (Nat.le_refl _)

theorem Joint.publish (h : Joint s flight) {packet : List UInt8} (hcan : s.Can (.publish packet))
    (hclear : s.Clear (.publish packet)) : ∃ flight', Joint (s.next (.publish packet)) flight' := by
  obtain ⟨hconn,hf,hq,hpos,hfree⟩ := hcan
  have hs := h.orderly.sensible.update ⟨hpos,packetId_lt packet⟩ .publishing
  refine h.send hconn hf (fun _ => hclear) hs fun id => ?_
  have hfit := h.orderly.fit id
  rw [requests_append]
  by_cases heq : packetId packet = id
  · subst heq
    rw [hfree] at hfit
    rw [Function.update_self]
    simpa [requests,requestOf_qos2 hq] using hfit.publish
  · rw [Function.update_of_ne (Ne.symm heq)]
    simpa [requests,requestOf_qos2 hq,heq] using hfit

theorem Joint.resend (h : Joint s flight) {packet : List UInt8} (hcan : s.Can (.resend packet))
    (hclear : s.Clear (.resend packet)) : ∃ flight', Joint (s.next (.resend packet)) flight' := by
  obtain ⟨hconn,hf,hq,hphase⟩ := hcan
  obtain ⟨hread,hclosed,hnone⟩ := hclear
  refine h.send hconn hf (fun _ => hread) h.orderly.sensible fun id => ?_
  have hfit := h.orderly.fit id
  rw [requests_append]
  by_cases heq : packetId packet = id
  · subst heq
    -- no copy of the message is on its way
    have hout : .publish ∉ requests (packetId packet) flight := by
      intro hm
      obtain ⟨p,hp,hreq⟩ := List.mem_filterMap.mp hm
      by_cases hr : s.client.connState.receiving = true
      · have hno := hnone hr p (by rw [h.onWay hconn hr]; exact hp)
        simp only [requestOf] at hreq
        split at hreq
        · rename_i hid
          split at hreq
          · rename_i hp2
            exact hno hp2 hid
          · split at hreq <;> cases hreq
        · cases hreq
      · rw [h.stream.deaf (Bool.eq_false_iff.mpr hr)] at hp
        cases hp
    rw [hphase] at hfit ⊢
    simpa [requests,requestOf_qos2 hq] using hfit.resend hclosed hout
  · simpa [requests,requestOf_qos2 hq,heq] using hfit

theorem Joint.resendRelease (h : Joint s flight) {id : ℕ} (hcan : s.Can (.resendRelease id)) :
    ∃ flight', Joint (s.next (.resendRelease id)) flight' := by
  obtain ⟨hconn,hphase⟩ := hcan
  have hid := h.orderly.sensible id (by rw [hphase]; decide)
  refine h.send hconn (pubrelPacket_framed id) (readable_pubrel hid) h.orderly.sensible fun i => ?_
  have hfit := h.orderly.fit i
  have hreq : requestOf i (pubrelPacket id) = if id = i then some .release else none := by
    rw [requestOf_pubrel (pubrelPacket_type id),(pubrelPacket_id hid.2).2]
  rw [requests_append]
  by_cases heq : id = i
  · subst heq
    rw [hphase] at hfit ⊢
    simpa [requests,hreq] using hfit.release
  · simpa [requests,hreq,heq] using hfit

theorem Joint.brokerSend (h : Joint s flight) {packet : List UInt8}
    (hcan : s.Can (.brokerSend packet)) : ∃ flight', Joint (s.next (.brokerSend packet)) flight' := by
  obtain ⟨hconn,hf,hq,ht⟩ := hcan
  have hread : Readable packet := by
    rintro (hq' | ht')
    · rw [hq] at hq'
      cases hq'
    · exact absurd ht' ht
  refine h.send hconn hf hread h.orderly.sensible fun id => ?_
  have hfit := h.orderly.fit id
  simpa [requests,requestOf_other hq ht] using hfit

theorem Joint.lose (h : Joint s flight) (n m : ℕ) (hconn : s.conn = true) :
    Joint (s.next (.lose n m)) flight := by
  have hstream := h.stream
  rw [hconn] at hstream
  have hfit := h.orderly.fit
  rw [← List.take_append_drop n s.c2b] at hfit
  exact ⟨h.queue,hstream.lose m,h.orderly.readable,fun _ => rfl,
    h.orderly.sensible.receiveAll (s.c2b.take n),hfit.receiveAll,h.orderly.once⟩

end Joints

theorem joint_step (s : Downlink) (e : DownlinkEvent) (s' : Downlink)
    (h : ∃ flight, Joint s flight) (hstep : Guarded Downlink.Clear Downlink.Step s e s') :
    ∃ flight', Joint s' flight' := by
  obtain ⟨flight,hj⟩ := h
  obtain ⟨hclear,hcan,rfl⟩ := hstep
  cases e with
  | client e => exact hj.client e hcan
  | deliver k env => exact hj.deliver k env hcan
  | connect env => exact hj.connect env hcan hclear
  | broker => exact hj.broker hcan
  | publish packet => exact hj.publish hcan hclear
  | resend packet => exact hj.resend hcan hclear
  | resendRelease id => exact hj.resendRelease hcan
  | brokerSend packet => exact hj.brokerSend hcan
  | lose n m => exact ⟨flight,hj.lose n m hcan⟩

/-- The client behind `MQTT_InitClient`, not connected, and a broker that may hold messages of an
earlier life of the client. -/
def start (host : List UInt8) (security : Bool) (info : ConnectInfo) (queueBufferSize : ℤ)
    (held : ℕ → Phase) : Downlink where
  client := mqttInitClient host security info queueBufferSize
  conn := false
  c2b := []
  b2c := []
  phase id := if 0 < id ∧ id < 65536 then held id else .free

theorem start_joint (host : List UInt8) (security : Bool) (info : ConnectInfo)
    (queueBufferSize : ℤ) (held : ℕ → Phase) :
    Joint (start host security info queueBufferSize held) [] := by
  obtain ⟨packets,hn,_⟩ := mqttInitClient_idsSpread host security info queueBufferSize
  refine ⟨⟨packets,hn⟩,?_,?_⟩
  · refine ⟨fun _ hm => absurd hm List.not_mem_nil,fun hr => absurd hr Bool.false_ne_true,
      fun _ => rfl,fun hr => absurd hr Bool.false_ne_true,fun hor => ?_⟩
    rcases hor with hc | hne
    · exact absurd (show false = true from hc) (by decide)
    · exact absurd rfl hne
  · refine ⟨fun _ hm => absurd hm List.not_mem_nil,fun _ => rfl,fun id hne => ?_,fun _ => .start _,
      .nil⟩
    have hne : (if 0 < id ∧ id < 65536 then held id else .free) ≠ .free := hne
    split at hne
    · rename_i hid
      exact hid
    · exact absurd rfl hne

/-- In a run whose steps all meet the condition the application gets no message twice. -/
theorem data_once {host : List UInt8} {security : Bool} {info : ConnectInfo} {queueBufferSize : ℤ}
    {held : ℕ → Phase} {es : List DownlinkEvent} {s : Downlink}
    (hrun : Run (Guarded Downlink.Clear Downlink.Step)
      (start host security info queueBufferSize held) es s) :
    AtMostOnce (items s.client.log) := by
  obtain ⟨flight,hj⟩ := hrun.invariant joint_step
    ⟨[],start_joint host security info queueBufferSize held⟩
  exact hj.orderly.once

/-- The client for the broker at 1.1.1.1, and a broker without messages for it. -/
def exampleLink : Downlink :=
  start [0x31,0x2E,0x31,0x2E,0x31,0x2E,0x31] false
    ⟨some [0x31],none,none,none,[],60,0,false,false⟩ 2048 fun _ => .free

/-- A QoS 2 message under the id 7, and the same one sent again. -/
def exampleMessage : List UInt8 := [0x34,6,0,1,0x61,0,7,0x78]

def exampleAgain : List UInt8 := [0x3C,6,0,1,0x61,0,7,0x78]

def connecting : List DownlinkEvent :=
  [.client (.api (.connect .inProgress)),.connect exampleEnv,.broker,.brokerSend [0x20,2,0,0],
    .deliver 4 exampleEnv]

/-- The client subscribes to the topic "a" with QoS 2. -/
def subscribing : List DownlinkEvent :=
  [.client (.api (.subscribe (some [0x61]) 2)),.client (.task exampleEnv),.broker,
    .brokerSend [0x90,3,0,1,2],.deliver 5 exampleEnv]

def publishing : List DownlinkEvent := [.publish exampleMessage,.deliver 8 exampleEnv]

def releasing : List DownlinkEvent := [.broker,.deliver 4 exampleEnv,.broker]

def losing : List DownlinkEvent := [.lose 0 0,.client (.discon exampleEnv)]

instance (s : Downlink) (e : DownlinkEvent) : Decidable (s.Can e) := by
  unfold Downlink.Can
  cases e <;> dsimp only <;> infer_instance

instance (s : Downlink) (e : DownlinkEvent) : Decidable (s.Clear e) := by
  unfold Downlink.Clear
  cases e <;> dsimp only <;> infer_instance

def twoMessages : List DownlinkEvent :=
  connecting ++ subscribing ++ publishing ++ releasing ++ publishing

/-- Two messages under one id, the second behind the end of the exchange of the first. -/
theorem data_once_twoMessages :
    AtMostOnce (items (twoMessages.foldl Downlink.next exampleLink).client.log) ∧
      items (twoMessages.foldl Downlink.next exampleLink).client.log =
        [.data 7,.release 7,.data 7] := by
  have hrun : Run (Guarded (fun s e => s.Clear e ∧ s.Can e) (ofFun Downlink.next)) exampleLink
      twoMessages (twoMessages.foldl Downlink.next exampleLink) :=
    run_of_allowed (by decide +kernel)
  exact ⟨data_once (hrun.mono fun s e t h => ⟨h.1.1,h.1.2,h.2⟩),by decide +kernel⟩

/-- The broker does not know that the message arrived and sends it again. -/
theorem data_twice :
    ¬∀ (es : List DownlinkEvent) (s : Downlink), Run Downlink.Step exampleLink es s →
      AtMostOnce (items s.client.log) := by
  intro h
  let es := connecting ++ subscribing ++ publishing ++ losing ++ connecting ++
    [.resend exampleAgain,.deliver 8 exampleEnv]
  have hrun : Run Downlink.Step exampleLink es (es.foldl Downlink.next exampleLink) :=
    run_of_allowed (by decide +kernel)
  have htwice : items (es.foldl Downlink.next exampleLink).client.log =
      [] ++ .data 7::([] ++ .data 7::[]) := by decide +kernel
  exact absurd (h es _ hrun _ _ _ _ htwice) List.not_mem_nil

end MqttInbound
end MeterLogger
