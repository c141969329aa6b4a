import MeterLogger.MqttMoves

/-!
# Delivery of QoS 2 messages

The client starts a message again from its PUBLISH when the connection is lost. Along every
run in which no connection is lost between the broker's receipt of a PUBREL and the client's
receipt of the PUBCOMP, no message is forwarded twice; otherwise one can be.
-/

namespace MeterLogger
namespace MqttSession

open MessageQueue MqttMessage MqttClient MqttBroker Runs

/-- What is left of the broker's packets when the client became `c'`. -/
inductive Buffers (s : Session) (c' : Client) (up : Bool) (replies : List (List UInt8)) :
    List (List UInt8) → Prop
  | deaf (h : c'.connState.receiving = false) : Buffers s c' up replies []
  | same (h : c'.connState.receiving = true) (hb : c'.inBuffer = s.client.inBuffer) :
      Buffers s c' up replies replies
  | taken {packet : List UInt8} {rest : List (List UInt8)} (h : c'.connState.receiving = true)
      (hr : replies = packet::rest) (hb : s.client.inBuffer = packet ++ c'.inBuffer) :
      Buffers s c' up replies rest
  | empty (h : c'.connState.receiving = true) (hb : c'.inBuffer = []) (hdown : s.conn = false)
      (hgone : up = true ∨ s.b2c = []) : Buffers s c' up replies []

section Joints

variable {method : Method} {s : Session} {packets replies replies' : List (List UInt8)}
  {c' : Client} {up : Bool} {acked cut : Prop}

theorem Buffers.acks (h : Buffers s c' up replies replies') {b : Broker} {c : Client}
    {head? : Option (List UInt8)} {reqs : List (ℕ × List UInt8)}
    (hex : Exchange b c head? (replies.filter isAck) reqs) :
    replies'.filter isAck = replies.filter isAck ∨ replies'.filter isAck = [] := by
  cases h with
  | deaf => exact Or.inr rfl
  | same => exact Or.inl rfl
  | empty => exact Or.inr rfl
  | @taken packet _ _ hr =>
    subst hr
    by_cases ha : isAck packet = true
    · rw [List.filter_cons_of_pos ha] at hex ⊢
      right
      generalize replies'.filter isAck = acks at hex
      cases hex
      rfl
    · rw [List.filter_cons_of_neg ha]
      exact Or.inl rfl

theorem Buffers.stream (hbuf : Buffers s c' up replies replies')
    (h : Joint method s packets replies) (hup : up = true → s.conn = false)
    (hrecv : s.client.connState.receiving = true) (hr : c'.connState.receiving = true) :
    ∃ lost, c'.inBuffer ++ (s.became c' up).b2c ++ lost = replies'.flatten ∧
      (s.conn = true → lost = []) := by
  obtain ⟨lost,hlost,hnone⟩ := h.stream hrecv
  -- bytes that do not arrive any more count as lost
  obtain ⟨lost',heq,hnone'⟩ : ∃ lost', (s.became c' up).b2c ++ lost' = s.b2c ++ lost ∧
      (s.conn = true → lost' = []) := by
    cases hu : up with
    | false => exact ⟨lost,rfl,hnone⟩
    | true => exact ⟨s.b2c ++ lost,rfl,fun hconn => absurd (hconn.symm.trans (hup hu)) (by decide)⟩
  cases hbuf with
  | deaf hd => exact absurd (hd.symm.trans hr) (by decide)
  | same _ hb =>
    refine ⟨lost',?_,hnone'⟩
    rw [List.append_assoc,heq,hb,← List.append_assoc]
    exact hlost
  | taken _ hreplies hb =>
    refine ⟨lost',?_,hnone'⟩
    rw [List.append_assoc,heq]
    rw [hreplies,hb,List.flatten_cons,List.append_assoc,List.append_assoc] at hlost
    exact List.append_cancel_left hlost
  | empty _ hb hdown hgone =>
    have hnil : (s.became c' up).b2c = [] := by
      unfold Session.became
      simp only
      split
      · rfl
      · rename_i hu
        exact hgone.resolve_left hu
    exact ⟨[],by rw [hb,hnil]; rfl,fun _ => rfl⟩

theorem Joint.became (h : Joint method s packets replies)
    (heff : Effects s.client c' packets)
    (hmove : Move acked cut s.client c' packets (newActions s.client c'))
    (hbuf : Buffers s c' up replies replies')
    (hacked : acked → Acked s.client packets (replies.filter isAck) (newActions s.client c') s.broker ∧
      replies'.filter isAck = [])
    (hcut : cut → s.conn = false ∧ replies'.filter isAck = [])
    (hup : up = true → s.conn = false)
    (hrecv : c'.connState.receiving = true → s.client.connState.receiving = true)
    (halloc : c'.allocated = s.client.allocated)
    (hlink : c'.pCon = s.client.pCon ∨ (s.conn = false ∧ (up = true ∨ s.b2c = []))) :
    ∃ packets', Joint method (s.became c' up) packets' replies' := by
  obtain ⟨new,hnew⟩ := heff
  have hall := newActions_eq hnew.log_eq
  rw [hall] at hmove hacked
  have hb2c : (s.became c' up).b2c = s.b2c ∨
      ((s.became c' up).b2c = [] ∧ (up = true ∨ s.b2c = [])) := by
    cases up with
    | true => exact Or.inr ⟨rfl,Or.inl rfl⟩
    | false => exact Or.inl rfl
  have hreqs : ∃ sent, requestsOf (s.became c' up).c2b = requestsOf s.c2b ++ sent ∧
      (sent = [] ∨ sent = (requestsSent new).map fun packet => (done s.client,packet)) := by
    cases hconn : s.conn with
    | false => exact ⟨[],by simp [Session.became,hconn],Or.inl rfl⟩
    | true =>
      refine ⟨_,?_,Or.inr rfl⟩
      simp only [Session.became,hconn,if_true,hall,requestsOf,List.filter_append,requestsSent,
        List.filter_map]
      rfl
  have hheld : ∃ packets', Held c' packets' ∧ accepted c'.log = released c'.log ++ packets' ∧
      (released new = [] → done c' = done s.client ∧
        ∀ head, packets.head? = some head → packets'.head? = some head) := by
    have hcount : done c' = done s.client+(released new).length := by
      rw [done,done,hnew.log_eq,released_append,List.length_append]
    rcases hnew.held with ⟨hr,hh⟩ | ⟨head,rest,hp,hr,hh,_⟩
    · refine ⟨_,hh,?_,fun _ => ⟨by rw [hcount,hr]; rfl,fun head hhead => ?_⟩⟩
      · rw [hnew.log_eq,accepted_append,released_append,h.accepted_eq,hr,List.append_nil,
          List.append_assoc]
      · rw [List.head?_append,hhead]
        rfl
    · refine ⟨_,hh,?_,fun hnil => ?_⟩
      · rw [hnew.log_eq,accepted_append,released_append,h.accepted_eq,hr,hp]
        simp
      · rw [hr] at hnil
        cases hnil
  obtain ⟨packets',hheld',hacc',hdone⟩ := hheld
  obtain ⟨sent,hreq,hsent⟩ := hreqs
  refine ⟨packets',?_⟩
  exact {
    seen := hnew.pubrec h.seen
    held := hheld'
    accepted_eq := hacc'
    down := fun hconn => by
      have hconn : s.conn = false := hconn
      simp only [Session.became,hconn,Bool.false_eq_true,if_false]
      exact h.down hconn
    link := fun hor => by
      rcases hlink with hpc | ⟨hconn,hgone⟩
      · refine hpc.trans (h.link (hor.imp_right fun hne => ?_))
        rcases hb2c with heq | ⟨hnil,_⟩
        · rwa [heq] at hne
        · exact absurd hnil hne
      · rcases hor with hup' | hne
        · exact absurd (hup'.symm.trans hconn) (by decide)
        · refine absurd ?_ hne
          rcases hgone with hu | hnil
          · simp only [Session.became,hu,if_true]
          · rcases hb2c with heq | ⟨hn,_⟩
            · rw [heq,hnil]
            · exact hn
    alloc := fun hr => halloc.trans (h.alloc (hrecv hr))
    framed := fun packet hmem => by
      cases hbuf with
      | deaf => cases hmem
      | same => exact h.framed packet hmem
      | taken _ hr => exact h.framed packet (by rw [hr]; exact List.mem_cons_of_mem _ hmem)
      | empty => cases hmem
    stream := fun hr => by
      exact hbuf.stream h hup (hrecv hr) hr
    deaf := fun hr => by
      cases hbuf with
      | deaf => rfl
      | same h => exact absurd (h.symm.trans hr) (by decide)
      | taken h => exact absurd (h.symm.trans hr) (by decide)
      | empty => rfl
    exchange := by
      rw [hreq]
      refine hmove.exchange h.exchange hacked (fun hc => ?_) (hbuf.acks h.exchange) hheld' hdone hsent
      obtain ⟨hconn,hnil⟩ := hcut hc
      exact ⟨hnil,by rw [h.down hconn]; rfl⟩
    once := hmove.once hnew h.accepted_eq (fun ha => (hacked ha).1) (fun hc => (hcut hc).1) h.once }

/-- An aborted connection was lost before, and one that was not there carries nothing. -/
theorem Joint.gone (h : Joint method s packets replies) (hup : up = true → s.conn = false)
    (hc : s.client.pCon = true → up = true) : s.conn = false ∧ (up = true ∨ s.b2c = []) := by
  cases hp : s.client.pCon with
  | true => exact ⟨hup (hc hp),Or.inl (hc hp)⟩
  | false =>
    have hno := mt h.link (by rw [hp]; decide)
    rw [not_or,not_not] at hno
    exact ⟨Bool.eq_false_iff.mpr hno.1,Or.inr hno.2⟩

theorem Joint.moved (h : Joint method s packets replies) (heff : Effects s.client c' packets)
    (hmove : Move False (Cut s.client c') s.client c' packets (newActions s.client c'))
    (hwire : wire c' = wire s.client ∨ Cut s.client c')
    (hrecv : c'.connState.receiving = true → s.client.connState.receiving = true)
    (halloc : c'.allocated = s.client.allocated) (hup : up = true → s.conn = false)
    (habort : .abort ∈ newActions s.client c' → up = true) :
    ∃ packets' replies', Joint method (s.became c' up) packets' replies' := by
  have hgone : Cut s.client c' → s.conn = false ∧ (up = true ∨ s.b2c = []) := fun hc =>
    h.gone hup fun hp => habort (hc.2 hp)
  have hlink : c'.pCon = s.client.pCon ∨ (s.conn = false ∧ (up = true ∨ s.b2c = [])) := by
    rcases hwire with hw | hc
    · simp only [wire,Prod.mk.injEq] at hw
      exact Or.inl hw.2.1
    · exact Or.inr (hgone hc)
  obtain ⟨replies',hbuf,hcut⟩ : ∃ replies', Buffers s c' up replies replies' ∧
      (Cut s.client c' → s.conn = false ∧ replies'.filter isAck = []) := by
    by_cases hr : c'.connState.receiving = true
    · by_cases hc : Cut s.client c'
      · exact ⟨[],.empty hr hc.1 (hgone hc).1 (hgone hc).2,fun _ => ⟨(hgone hc).1,rfl⟩⟩
      · have hw := hwire.resolve_right hc
        simp only [wire,Prod.mk.injEq] at hw
        exact ⟨replies,.same hr hw.1,fun hc' => absurd hc' hc⟩
    · exact ⟨[],.deaf (Bool.eq_false_iff.mpr hr),fun hc => ⟨(hgone hc).1,rfl⟩⟩
  obtain ⟨packets',hjoint⟩ := h.became heff hmove hbuf False.elim hcut hup hrecv halloc hlink
  exact ⟨packets',replies',hjoint⟩

theorem Joint.neutral (h : Joint method s packets replies) (hn : Neutral Plain s.client c')
    (hg : Grows s.client c') (hup : up = true → s.conn = false)
    (habort : .abort ∈ newActions s.client c' → up = true) :
    ∃ packets' replies', Joint method (s.became c' up) packets' replies' := by
  have hmove : Move False (Cut s.client c') s.client c' packets (newActions s.client c') :=
    move_after [] hn hg (by simp) rfl rfl rfl rfl
  obtain ⟨new,htame,hf⟩ := hn
  refine h.moved (hg.effects h.held) hmove ?_ htame.receiving htame.allocated_eq hup habort
  rcases hf with ⟨hw,_⟩ | ⟨hreset,ha⟩
  · exact Or.inl hw
  · refine Or.inr ⟨hreset.inBuffer_eq,fun hp => ?_⟩
    rw [newActions_eq htame.log_eq]
    exact ha hp

theorem Joint.dropped (h : Joint method s packets replies) {c : Client}
    (hview : view c = view s.client) (hpend : pending c = pending s.client)
    (hlog : c.log = s.client.log) (hstate : c.connState = s.client.connState)
    (halloc : c.allocated = s.client.allocated) (hpc : c.pCon = s.client.pCon)
    (hbuf : s.client.connState.receiving = true → c.inBuffer = [])
    (hup : up = true → s.conn = false)
    (hdisc : .disconnect ∈ newActions s.client c.dropConnection → up = true) :
    ∃ packets' replies', Joint method (s.became c.dropConnection up) packets' replies' := by
  have hframe : ∀ {d : Client}, d = c ∨ d = c.emit .disconnect → view d = view s.client ∧
      pending d = pending s.client ∧ d.connState = s.client.connState ∧
      d.allocated = s.client.allocated ∧ d.pCon = s.client.pCon ∧ d.inBuffer = c.inBuffer := by
    rintro d (rfl | rfl)
    · exact ⟨hview,hpend,hstate,halloc,hpc,rfl⟩
    · exact ⟨hview,hpend,hstate,halloc,hpc,rfl⟩
  have hdrop : c.dropConnection = c ∧ c.pCon = false ∨ c.dropConnection = c.emit .disconnect := by
    unfold Client.dropConnection
    split
    · exact Or.inr rfl
    · rename_i hp
      exact Or.inl ⟨rfl,Bool.eq_false_iff.mpr hp⟩
  obtain ⟨hv,hp,hs,ha,hpc',hb⟩ := hframe (hdrop.imp_left And.left)
  have hnew : newActions s.client c.dropConnection = [] ∧ c.pCon = false ∨
      newActions s.client c.dropConnection = [.disconnect] := by
    rcases hdrop with ⟨heq,hp⟩ | heq
    · left
      refine ⟨newActions_eq ?_,hp⟩
      rw [heq,hlog,List.append_nil]
    · right
      refine newActions_eq ?_
      rw [heq,← hlog]
      rfl
  have hmove : Move False False s.client c.dropConnection packets
      (newActions s.client c.dropConnection) := by
    rcases hnew with ⟨hn,_⟩ | hn
    · rw [hn]
      exact .same hp rfl rfl
    · rw [hn]
      exact .same hp rfl rfl
  have hgrows : Grows s.client c.dropConnection := by
    rcases hdrop with ⟨heq,_⟩ | heq
    · rw [heq]
      exact .same hview hlog
    · rw [heq]
      exact .of_view [.disconnect] hview (by rw [← hlog]; rfl) ⟨rfl,rfl⟩
  have hgone := h.gone hup fun hpc'' => by
    rcases hnew with ⟨_,hno⟩ | hn
    · exact absurd (hno.symm.trans (hpc.trans hpc'')) (by decide)
    · exact hdisc (by rw [hn]; exact List.mem_singleton_self _)
  obtain ⟨replies',hbuffers⟩ : ∃ replies', Buffers s c.dropConnection up replies replies' := by
    by_cases hr : s.client.connState.receiving = true
    · exact ⟨[],.empty (by rw [hs]; exact hr) (hb.trans (hbuf hr)) hgone.1 hgone.2⟩
    · exact ⟨[],.deaf (by rw [hs]; exact Bool.eq_false_iff.mpr hr)⟩
  obtain ⟨packets',hjoint⟩ := h.became (hgrows.effects h.held) hmove hbuffers False.elim False.elim
    hup (fun hr => by rw [← hs]; exact hr) ha (Or.inl hpc')
  exact ⟨packets',replies',hjoint⟩

theorem keeps_handleConnack (c : Client) (returnCode : UInt8) (env : Env)
    (hr : c.connState.receiving = true) :
    Keeps (fun _ => True) c (c.handleConnack returnCode env) := by
  unfold Client.handleConnack
  split
  · exact c.neutral_espconnDisconnect.keeps
  · simp only
    split
    · refine Keeps.trans ?_ (Client.neutral_invoke _ .connected env.calls).keeps
      exact ⟨[],⟨by simp,rfl,by simp,Nat.le_refl _,fun _ => hr,rfl⟩,Or.inl rfl⟩
    · refine Keeps.trans ?_ (Client.neutral_espconnDisconnect _).keeps
      exact ⟨[],⟨by simp,rfl,by simp,Nat.le_refl _,id,rfl⟩,Or.inl rfl⟩

/-- What handling one packet does in a state that handles packets. -/
structure Handling (c d : Client) (packet : List UInt8) (packets : List (List UInt8)) : Prop where
  effects : Effects c d packets
  move : Move (isAck packet = true ∧ ∀ a, .handled a ∈ newActions c d → a = packet) (Cut c d) c d
    packets (newActions c d)
  wire_eq : wire d = wire c ∨ Cut c d
  allocated_eq : d.allocated = c.allocated

theorem handlePacket_handling {c : Client} (h : Held c packets) (hseen : PubrecSeen c)
    (hr : c.connState.receiving = true) {n : ℕ} {packet : List UInt8}
    (htake : c.inBuffer.take n = packet) (hs : AckSound c packet) (env : Env) :
    Handling c (c.handlePacket n env) packet packets := by
  have heff := Client.handlePacket_effects h hseen n env fun _ => by rw [htake]; exact hs
  have hwire : ∀ {d : Client} {xs : List Action} {m : Client}, m.log = c.log ++ xs →
      wire m = wire c → Keeps (fun _ => True) m d →
      (wire d = wire c ∨ Cut c d) ∧ d.allocated = c.allocated ∧
        ∀ a, .handled a ∈ newActions c d → a ∈ handledPackets xs := by
    intro d xs m hlog hw hk
    obtain ⟨new,htame,hf⟩ := hk
    have hall : newActions c d = xs ++ new := by
      refine newActions_eq ?_
      rw [htame.log_eq,hlog,List.append_assoc]
    have hw' := hw
    simp only [wire,Prod.mk.injEq] at hw'
    refine ⟨hf.imp (·.trans hw) fun hc => ⟨hc.1,fun hp => ?_⟩,
      htame.allocated_eq.trans hw'.2.2,fun a ha => ?_⟩
    · rw [hall]
      exact List.mem_append_right _ (hc.2 (hw'.2.1.trans hp))
    · rw [hall] at ha
      have hmem : a ∈ handledPackets (xs ++ new) := List.mem_filterMap.mpr ⟨_,ha,rfl⟩
      rwa [handledPackets_append,htame.handled_eq,List.append_nil] at hmem
  have hmessage : c.handlePacket n env = c.handleMessage packet env →
      Handling c (c.handlePacket n env) packet packets := by
    intro heq
    rw [heq] at heff ⊢
    obtain ⟨hw,ha,hin⟩ := hwire (m := c.emit (.handled packet)) rfl rfl
      (c.keeps_handleMessage packet env)
    have honly : ∀ a, .handled a ∈ newActions c (c.handleMessage packet env) → a = packet :=
      fun a hmem => by simpa [handledPackets,handledBy] using hin a hmem
    have hmove := move_handleMessage h env hs
    exact ⟨heff,hmove.mono rfl (fun hack => ⟨hack,honly⟩) id,hw,ha⟩
  cases hstate : c.connState with
  | mqttConnectSending =>
    have heq : c.handlePacket n env = if mqttGetType packet = connackType then
        c.handleConnack (c.inBuffer.getD 3 env.stale) env else c := by
      unfold Client.handlePacket
      simp only [hstate,htake]
    rw [heq] at heff ⊢
    split at heff
    · rename_i ht
      rw [if_pos ht]
      have hlog : c.log = c.log ++ [] := (List.append_nil _).symm
      obtain ⟨hw,ha,_⟩ := hwire hlog rfl
        (keeps_handleConnack c (c.inBuffer.getD 3 env.stale) env hr)
      exact ⟨heff,(move_handleConnack _ env).mono rfl False.elim id,hw,ha⟩
    · rename_i ht
      rw [if_neg ht]
      refine ⟨heff,?_,Or.inl rfl,rfl⟩
      rw [newActions_eq (List.append_nil _).symm]
      exact .same rfl rfl rfl
  | mqttData =>
    refine hmessage ?_
    unfold Client.handlePacket
    simp only [hstate,htake]
  | mqttKeepaliveSend =>
    refine hmessage ?_
    unfold Client.handlePacket
    simp only [hstate,htake]
  | _ =>
    rw [hstate] at hr
    exact absurd hr (by decide)

/-- In a state that handles packets the first packet of the receive buffer is the first of
the broker's packets not yet handled. -/
theorem Joint.first (h : Joint method s packets replies)
    (hr : s.client.connState.receiving = true)
    (hl : 0 < mqttGetPacketLength s.client.inBuffer s.client.inBuffer.length) :
    ∃ packet rest, replies = packet::rest ∧ WellFramed packet ∧
      s.client.inBuffer <+: packet ++ rest.flatten ∧
      mqttGetPacketLength s.client.inBuffer s.client.inBuffer.length = packet.length := by
  obtain ⟨lost,hlost,_⟩ := h.stream hr
  cases hreplies : replies with
  | nil =>
    rw [hreplies,List.flatten_nil,List.append_eq_nil_iff,List.append_eq_nil_iff] at hlost
    rw [hlost.1.1] at hl
    exact absurd hl (by decide)
  | cons packet rest =>
    have hw := h.framed packet (by rw [hreplies]; exact List.mem_cons_self)
    rw [hreplies,List.flatten_cons,List.append_assoc] at hlost
    have hpre : s.client.inBuffer <+: packet ++ rest.flatten := ⟨_,hlost⟩
    refine ⟨packet,rest,rfl,hw,hpre,?_⟩
    rcases packetLength_prefix hw hpre with hlen | ⟨hlen,_⟩
    · exact hlen
    · rw [hlen] at hl
      exact absurd hl (by decide)

theorem Joint.handled (h : Joint method s packets replies) {d : Client} {packet : List UInt8}
    {rest : List (List UInt8)} {tail : List UInt8}
    (hr : s.client.connState.receiving = true) (hreplies : replies = packet::rest)
    (hsplit : s.client.inBuffer = packet ++ tail) (hd : Handling s.client d packet packets)
    (hview : view c' = view d) (hpend : pending c' = pending d) (hlog : c'.log = d.log)
    (hpc : c'.pCon = d.pCon) (halloc : c'.allocated = d.allocated)
    (hempty : d.inBuffer = [] → c'.inBuffer = [])
    (hbuf : wire d = wire s.client → c'.connState.receiving = true → c'.inBuffer = tail)
    (hup : up = true → s.conn = false)
    (habort : .abort ∈ newActions s.client c' → up = true) :
    ∃ packets' replies', Joint method (s.became c' up) packets' replies' := by
  have hnew : newActions s.client c' = newActions s.client d := by
    rw [newActions,newActions,hlog]
  have hcut : Cut s.client d → Cut s.client c' := fun hc =>
    ⟨hempty hc.1,fun hp => by rw [hnew]; exact hc.2 hp⟩
  have hgone : Cut s.client c' → s.conn = false ∧ (up = true ∨ s.b2c = []) := fun hc =>
    h.gone hup fun hp => habort (hc.2 hp)
  have hmove := hd.move.mono hpend id hcut
  rw [← hnew] at hmove
  have hlink : c'.pCon = s.client.pCon ∨ (s.conn = false ∧ (up = true ∨ s.b2c = [])) := by
    rcases hd.wire_eq with hw | hc
    · simp only [wire,Prod.mk.injEq] at hw
      exact Or.inl (hpc.trans hw.2.1)
    · exact Or.inr (hgone (hcut hc))
  have hex := h.exchange
  rw [hreplies] at hex
  -- an acknowledgement was the only packet of the exchange on its way
  have hack : isAck packet = true → rest.filter isAck = [] ∧
      ((∀ a, .handled a ∈ newActions s.client c' → a = packet) →
        Acked s.client packets (replies.filter isAck) (newActions s.client c') s.broker) := by
    intro ha
    rw [List.filter_cons_of_pos ha] at hex
    rw [hreplies,List.filter_cons_of_pos ha]
    generalize rest.filter isAck = acks, requestsOf s.c2b = reqs at hex
    cases hex with
    | answer hh hw hf hne hans => exact ⟨rfl,fun honly => ⟨_,packet,rfl,hh,hf,hne,hans,honly⟩⟩
  obtain ⟨replies',hbuffers,hnil,hcutnil⟩ : ∃ replies', Buffers s c' up replies replies' ∧
      (isAck packet = true → replies'.filter isAck = []) ∧
      (Cut s.client c' → s.conn = false ∧ replies'.filter isAck = []) := by
    by_cases hr' : c'.connState.receiving = true
    · by_cases hc : Cut s.client c'
      · exact ⟨[],.empty hr' hc.1 (hgone hc).1 (hgone hc).2,fun _ => rfl,
          fun _ => ⟨(hgone hc).1,rfl⟩⟩
      · have hw := hd.wire_eq.resolve_right fun hcd => hc (hcut hcd)
        exact ⟨rest,.taken hr' hreplies (by rw [hbuf hw hr']; exact hsplit),
          fun ha => (hack ha).1,fun hc' => absurd hc' hc⟩
    · exact ⟨[],.deaf (Bool.eq_false_iff.mpr hr'),fun _ => rfl,fun hc => ⟨(hgone hc).1,rfl⟩⟩
  have heff : Effects s.client c' packets := hd.effects.trans_grows (.same hview hlog)
  obtain ⟨packets',hjoint⟩ := h.became heff hmove hbuffers
    (fun ha => ⟨(hack ha.1).2 ha.2,hnil ha.1⟩) hcutnil hup (fun _ => hr)
    (halloc.trans hd.allocated_eq) hlink
  exact ⟨packets',replies',hjoint⟩

theorem Joint.process (h : Joint method s packets replies) (env : Env)
    (hup : up = true → s.conn = false)
    (hgive : ∀ a ∈ newActions s.client (s.client.processPacket env),
      a = .abort ∨ a = .disconnect → up = true) :
    ∃ packets' replies', Joint method (s.became (s.client.processPacket env) up) packets' replies' := by
  have hpost : ∃ packets' replies', Joint method (s.became s.client.post up) packets' replies' := by
    refine h.neutral s.client.neutral_post s.client.grows_post hup fun hm => ?_
    have hnil : newActions s.client s.client.post = [] := newActions_eq (List.append_nil _).symm
    rw [hnil] at hm
    cases hm
  unfold Client.processPacket at hgive ⊢
  split at hgive
  · rename_i he
    rw [if_pos he]
    exact hpost
  rename_i hne
  rw [if_neg hne]
  simp only at hgive ⊢
  split at hgive
  · rename_i hbad
    rw [if_pos hbad]
    exact h.dropped (c := { s.client with inBuffer := [] }) rfl rfl rfl rfl rfl rfl (fun _ => rfl)
      hup fun hm => hgive _ hm (Or.inr rfl)
  rename_i hbad
  rw [if_neg hbad]
  split at hgive
  case isFalse hshort =>
    rw [if_neg hshort]
    exact hpost
  case isTrue hcomplete =>
  rw [if_pos hcomplete]
  by_cases hr : s.client.connState.receiving = true
  · obtain ⟨packet,rest,hreplies,hw,hpre,hlen⟩ := h.first hr hcomplete.1
    obtain ⟨tail,htail⟩ := List.prefix_of_prefix_length_le (List.prefix_append packet rest.flatten)
      hpre (by rw [hlen] at hcomplete; omega)
    have hsplit : s.client.inBuffer = packet ++ tail := htail.symm
    rw [hlen,Int.toNat_natCast] at hgive ⊢
    have htake : s.client.inBuffer.take packet.length = packet := by
      rw [hsplit,List.take_left']
      rfl
    have hpos := hw.length_pos
    have hs : AckSound s.client packet := h.exchange.ackSound fun ha => by
      rw [hreplies,List.filter_cons_of_pos ha]
      exact List.mem_cons_self
    have hd := handlePacket_handling h.held h.seen hr htake hs env
    generalize s.client.handlePacket packet.length env = d at hd hgive ⊢
    split at hgive
    · rename_i hdown
      rw [if_pos hdown]
      refine h.handled hr hreplies hsplit hd rfl rfl rfl rfl rfl (fun _ => rfl) (fun _ hr' => ?_) hup
        fun hm => hgive _ hm (Or.inl rfl)
      rw [show d.connState = _ from hdown] at hr'
      exact absurd hr' (by decide)
    rename_i hdown
    rw [if_neg hdown]
    split at hgive
    · rename_i hlost
      rw [if_pos hlost]
      refine h.handled hr hreplies hsplit hd rfl rfl rfl rfl rfl (fun _ => rfl) (fun hwire _ => ?_) hup
        fun hm => hgive _ hm (Or.inl rfl)
      simp only [wire,Prod.mk.injEq] at hwire
      rcases hlost with hlost | hlost
      · exact absurd (by rw [hwire.1]) hlost
      · exact absurd (hlost.symm.trans (hwire.2.2.trans (h.alloc hr))) (by decide)
    · rename_i hlost
      rw [if_neg hlost]
      refine h.handled hr hreplies hsplit hd rfl rfl rfl rfl rfl (fun hnil => ?_) (fun hwire _ => ?_)
        hup fun hm => hgive _ hm (Or.inl rfl)
      · show d.inBuffer.drop packet.length = []
        rw [hnil,List.drop_nil]
      · simp only [wire,Prod.mk.injEq] at hwire
        show d.inBuffer.drop packet.length = tail
        rw [hwire.1,hsplit,List.drop_left']
        rfl
  · have hidle : ∀ n, s.client.handlePacket n env = s.client := by
      intro n
      unfold Client.handlePacket
      cases hs : s.client.connState <;> rw [hs] at hr <;> first | rfl | exact absurd rfl hr
    have hquiet : ∀ {c' : Client}, view c' = view s.client → pending c' = pending s.client →
        c'.log = s.client.log → c'.connState = s.client.connState →
        c'.allocated = s.client.allocated → c'.pCon = s.client.pCon →
        ∃ packets' replies', Joint method (s.became c' up) packets' replies' := by
      intro c' hv hp hl hs ha hpc
      have hr' : c'.connState.receiving = false := by rw [hs]; exact Bool.eq_false_iff.mpr hr
      have hmove : Move False False s.client c' packets (newActions s.client c') := by
        rw [newActions_eq (hl.trans (List.append_nil _).symm)]
        exact .same hp rfl rfl
      obtain ⟨packets',hjoint⟩ := h.became (Grows.effects (.same hv hl) h.held) hmove (.deaf hr')
        False.elim False.elim hup (fun hr'' => absurd (hr'.symm.trans hr'') (by decide)) ha
        (Or.inl hpc)
      exact ⟨packets',[],hjoint⟩
    simp only [hidle]
    split
    · exact hquiet rfl rfl rfl rfl rfl rfl
    · split
      · exact hquiet rfl rfl rfl rfl rfl rfl
      · exact hquiet rfl rfl rfl rfl rfl rfl

theorem Joint.task (h : Joint method s packets replies) (env : Env)
    (halive : s.client.connState ≠ .mqttDeleted) (hup : up = true → s.conn = false)
    (hgive : ∀ a ∈ newActions s.client (s.client.mqttTask env),
      a = .abort ∨ a = .disconnect → up = true) :
    ∃ packets' replies', Joint method (s.became (s.client.mqttTask env) up) packets' replies' := by
  have hneutral : ∀ {c' : Client}, Neutral Plain s.client c' → Grows s.client c' →
      (.abort ∈ newActions s.client c' → up = true) →
      ∃ packets' replies', Joint method (s.became c' up) packets' replies' :=
    fun hn hg ha => h.neutral hn hg hup ha
  unfold Client.mqttTask at hgive ⊢
  split at hgive
  · rename_i ha
    rw [if_pos ha]
    exact hneutral (.refl _) (.refl _) fun hm => hgive _ hm (Or.inl rfl)
  rename_i ha
  rw [if_neg ha]
  split at hgive
  · rename_i hr
    rw [if_pos hr]
    rw [Client.mqttTcpclientRecv,if_pos rfl] at hgive ⊢
    exact h.process env hup hgive
  rename_i hr
  rw [if_neg hr]
  have habort : .abort ∈ newActions s.client (s.client.taskSwitch env) → up = true :=
    fun hm => hgive _ hm (Or.inl rfl)
  clear hgive
  have hclose : ∀ {d : Client}, d = (if s.client.pCon then s.client.espconnDisconnect else s.client) →
      Neutral Plain s.client d ∧ Grows s.client d := by
    rintro d rfl
    split
    · exact ⟨s.client.neutral_espconnDisconnect,s.client.grows_espconnDisconnect⟩
    · exact ⟨.refl _,.refl _⟩
  unfold Client.taskSwitch at habort ⊢
  cases hs : s.client.connState with
  | mqttDeleted => exact absurd hs halive
  | tcpReconnect =>
    simp only [hs] at habort ⊢
    refine hneutral ?_ ?_ habort
    · refine Neutral.trans (s.client.neutral_mqttTcpclientDelete.trans
        (Client.neutral_mqttConnect _ env.dns)) ?_
      exact .same rfl rfl rfl (Nat.le_refl _) (fun hr' => absurd hr' Bool.false_ne_true)
    · refine Grows.trans (s.client.grows_mqttTcpclientDelete.trans
        (Client.grows_mqttConnect _ env.dns)) ?_
      exact .same rfl rfl
  | mqttDeleting =>
    simp only [hs] at habort ⊢
    exact hneutral (hclose rfl).1 (hclose rfl).2 habort
  | tcpDisconnecting =>
    simp only [hs] at habort ⊢
    exact hneutral (hclose rfl).1 (hclose rfl).2 habort
  | tcpReconnectDisconnecting =>
    simp only [hs] at habort ⊢
    exact hneutral (hclose rfl).1 (hclose rfl).2 habort
  | tcpDisconnected =>
    simp only [hs] at habort ⊢
    exact hneutral s.client.neutral_mqttTcpclientDelete s.client.grows_mqttTcpclientDelete habort
  | mqttKeepaliveSend =>
    simp only [hs] at habort ⊢
    exact hneutral (s.client.neutral_mqttSendKeepalive env.sendOk (by rw [hs]; rfl)
      fun p hp => mqttMsgEmpty_plain (by decide) hp) (s.client.grows_mqttSendKeepalive env.sendOk)
      habort
  | mqttData =>
    simp only [hs] at habort ⊢
    obtain ⟨new,htame,hf⟩ := s.client.keeps_taskData env
    refine h.moved (Client.taskData_effects h.held env) (move_taskData h.held env) (hf.imp_right ?_)
      htame.receiving htame.allocated_eq hup habort
    rintro ⟨hnil,ha⟩
    refine ⟨hnil,fun hp => ?_⟩
    rw [newActions_eq htame.log_eq]
    exact ha hp
  | _ =>
    simp only [hs] at habort ⊢
    exact hneutral (.refl _) (.refl _) habort

theorem Joint.discon (h : Joint method s packets replies) (env : Env) (hconn : s.conn = false) :
    ∃ packets' replies',
      Joint method (s.became (s.client.mqttTcpclientDisconCb env) true) packets' replies' := by
  have hgrows := s.client.grows_mqttTcpclientDisconCb env
  generalize hm : ({ s.client with
    inBuffer := [], isWaitingForAck := false, pendingMsgId := 0, pendingMsgType := 0
    sendTimeout := 0, isWaitingForPingresp := false, pingrespTimeout := 0
    publishSendCallbackPending := false
    connState := Client.disconnectedState s.client.connState } : Client) = m
  have hcb : s.client.mqttTcpclientDisconCb env = (m.invoke .disconnected env.calls).post := by
    rw [← hm]
    rfl
  have hstate : m.connState.receiving = false := by
    rw [← hm]
    show (Client.disconnectedState s.client.connState).receiving = false
    cases s.client.connState <;> rfl
  have hneutral : Neutral Plain m (s.client.mqttTcpclientDisconCb env) := by
    rw [hcb]
    exact (m.neutral_invoke .disconnected env.calls).trans (Client.neutral_post _)
  obtain ⟨new,hnew⟩ := hgrows
  have hmove : Move False True s.client (s.client.mqttTcpclientDisconCb env) packets
      (newActions s.client (s.client.mqttTcpclientDisconCb env)) := by
    obtain ⟨new',htame,hf⟩ := hneutral
    have hlog : (s.client.mqttTcpclientDisconCb env).log = s.client.log ++ new' := by
      rw [htame.log_eq,← hm]
    rw [newActions_eq hlog]
    refine .cleared ?_ (requestsSent_plain htame.sends) (Or.inr (Or.inr (Or.inr ⟨trivial,?_⟩)))
    · rcases hf with ⟨_,hp⟩ | ⟨hreset,_⟩
      · simp only [pending,Prod.mk.injEq] at hp
        rw [hp.2.2.2,← hm]
      · exact hreset.isWaiting_eq
    · rw [← newActions_eq hlog,newActions_eq hnew.log_eq]
      exact hnew.released_eq
  obtain ⟨new',htame,_⟩ := hneutral
  have hdeaf : (s.client.mqttTcpclientDisconCb env).connState.receiving = false := by
    rw [← Bool.not_eq_true]
    intro hr
    exact absurd (hstate.symm.trans (htame.receiving hr)) (by decide)
  obtain ⟨packets',hjoint⟩ := h.became (Grows.effects ⟨new,hnew⟩ h.held) hmove
    (.deaf hdeaf) False.elim (fun _ => ⟨hconn,rfl⟩) (fun _ => hconn)
    (fun hr => absurd (hdeaf.symm.trans hr) (by decide)) (htame.allocated_eq.trans (by rw [← hm]))
    (Or.inr ⟨hconn,Or.inl rfl⟩)
  exact ⟨packets',[],hjoint⟩

theorem Joint.arrive (h : Joint method s packets replies) (k : ℕ) :
    Joint method { s with
      client := { s.client with inBuffer := s.client.inBuffer ++ s.b2c.take k }
      b2c := s.b2c.drop k } packets replies where
  seen := h.seen
  held := h.held.of_view rfl
  accepted_eq := h.accepted_eq
  down := h.down
  link hor := h.link (hor.imp_right fun hne hnil => hne (by rw [hnil,List.drop_nil]))
  alloc := h.alloc
  framed := h.framed
  stream hr := by
    obtain ⟨lost,hlost,hnone⟩ := h.stream hr
    refine ⟨lost,?_,hnone⟩
    show s.client.inBuffer ++ s.b2c.take k ++ s.b2c.drop k ++ lost = _
    rw [List.append_assoc s.client.inBuffer,List.take_append_drop]
    exact hlost
  deaf := h.deaf
  exchange := h.exchange.of_pending rfl rfl fun _ hh => hh
  once := h.once

theorem givesUp_of_mem {e : Event} {new : List Action} {a : Action} (hm : a ∈ new)
    (ha : a = .abort ∨ a = .disconnect) : givesUp e new = true := by
  unfold givesUp
  rcases ha with rfl | rfl
  · simp [hm]
  · simp [hm]

theorem Joint.deliver (h : Joint method s packets replies) (k : ℕ) (env : Env)
    (hcan : s.Can (.deliver k env)) :
    ∃ packets' replies', Joint method (s.next method (.deliver k env)) packets' replies' := by
  have harrive := h.arrive k
  show ∃ packets' replies', Joint method (Session.became { s with b2c := s.b2c.drop k }
    (s.client.mqttTcpclientRecv (s.b2c.take k) env) _) packets' replies'
  have hup : givesUp (.recv (s.b2c.take k) env)
      (newActions s.client (s.client.mqttTcpclientRecv (s.b2c.take k) env)) = true →
      s.conn = false := hcan
  have hgive : ∀ a ∈ newActions s.client (s.client.mqttTcpclientRecv (s.b2c.take k) env),
      a = .abort ∨ a = .disconnect → givesUp (.recv (s.b2c.take k) env)
        (newActions s.client (s.client.mqttTcpclientRecv (s.b2c.take k) env)) = true :=
    fun a hm ha => givesUp_of_mem hm ha
  have hact : newActions s.client (MqttClient.next s.client (.recv (s.b2c.take k) env)) =
      newActions s.client (s.client.mqttTcpclientRecv (s.b2c.take k) env) := rfl
  rw [hact]
  generalize givesUp (.recv (s.b2c.take k) env)
    (newActions s.client (s.client.mqttTcpclientRecv (s.b2c.take k) env)) = up at hup hgive ⊢
  unfold Client.mqttTcpclientRecv at hgive ⊢
  split at hgive
  · rename_i hnil
    rw [if_pos hnil]
    rw [hnil,List.append_nil] at harrive
    exact harrive.process env hup hgive
  rename_i hne
  rw [if_neg hne]
  split at hgive
  · rename_i hover
    rw [if_pos hover]
    exact harrive.dropped (c := { s.client with inBuffer := [] }) rfl rfl rfl rfl rfl rfl
      (fun _ => rfl) hup fun hm => hgive _ hm (Or.inr rfl)
  rename_i hover
  rw [if_neg hover]
  split at hgive
  · rename_i ha
    rw [if_pos ha]
    exact harrive.dropped (c := s.client) rfl rfl rfl rfl rfl rfl
      (fun hr => absurd (ha.symm.trans (h.alloc hr)) (by decide)) hup
      fun hm => hgive _ hm (Or.inr rfl)
  · rename_i ha
    rw [if_neg ha]
    exact harrive.process env hup hgive

theorem Joint.client (h : Joint method s packets replies) (e : Event) (hcan : s.Can (.client e))
    (halive : s.client.connState ≠ .mqttDeleted) :
    ∃ packets' replies', Joint method (s.act e) packets' replies' := by
  obtain ⟨_,hown,hup⟩ := hcan
  have hgive : ∀ a ∈ newActions s.client (MqttClient.next s.client e),
      a = .abort ∨ a = .disconnect → givesUp e (newActions s.client (MqttClient.next s.client e)) =
        true := fun a hm ha => givesUp_of_mem hm ha
  have habort : .abort ∈ newActions s.client (MqttClient.next s.client e) →
      givesUp e (newActions s.client (MqttClient.next s.client e)) = true :=
    fun hm => hgive _ hm (Or.inl rfl)
  cases e with
  | api call => exact h.neutral (s.client.neutral_runCall call) (s.client.grows_runCall call) hup habort
  | task env =>
    have hposted : Joint method { s with client := { s.client with posted := s.client.posted-1 } }
        packets replies :=
      ⟨h.seen,h.held.of_view rfl,h.accepted_eq,h.down,h.link,h.alloc,h.framed,h.stream,h.deaf,
        h.exchange.of_pending rfl rfl fun _ hh => hh,h.once⟩
    exact hposted.task env halive hup hgive
  | tick env => exact h.neutral (s.client.neutral_mqttTimer env) (s.client.grows_mqttTimer env) hup habort
  | recv pdata env => exact absurd (show true = false from hown) (by decide)
  | sent env =>
    exact h.neutral (s.client.neutral_mqttTcpclientSentCb env)
      (s.client.grows_mqttTcpclientSentCb env) hup habort
  | discon env => exact h.discon env (hup rfl)
  | recon =>
    refine h.neutral ?_ ?_ hup habort
    · exact .same rfl rfl rfl (Nat.le_succ _) (fun hr => absurd hr Bool.false_ne_true)
    · exact .same rfl rfl
  | connected env => exact absurd (show true = false from hown) (by decide)
  | dnsFound addr =>
    exact h.neutral (s.client.neutral_mqttDnsFound addr) (s.client.grows_mqttDnsFound addr) hup habort

/-- What the connect callback leaves of a client with an empty receive buffer. -/
theorem connectCb_facts (c : Client) (env : Env) :
    (c.mqttTcpclientConnectCb env).inBuffer = c.inBuffer ∧
      (c.mqttTcpclientConnectCb env).pCon = c.pCon ∧
      ((c.mqttTcpclientConnectCb env).connState.receiving = true →
        (c.mqttTcpclientConnectCb env).allocated = true) ∧
      requestsSent (newActions c (c.mqttTcpclientConnectCb env)) = [] := by
  have hnone : ∀ {d : Client}, d.log = c.log → requestsSent (newActions c d) = [] := fun hl => by
    rw [newActions_eq (hl.trans (List.append_nil _).symm)]
    rfl
  unfold Client.mqttTcpclientConnectCb
  split
  · exact ⟨rfl,rfl,fun hr => absurd hr Bool.false_ne_true,hnone rfl⟩
  rename_i ha
  have ha : c.allocated = true := by simpa using ha
  cases hm : (mqttMsgConnect (mqttMsgInit mqttBufSize) c.connectInfo).message with
  | none =>
    simp only [hm]
    exact ⟨rfl,rfl,fun hr => absurd hr Bool.false_ne_true,hnone rfl⟩
  | some packet =>
    simp only [hm]
    have hplain : isRequest packet = false := by
      rw [isRequest,mqttMsgConnect_type hm]
      simp [connectType,publishType,pubrelType,subscribeType,unsubscribeType]
    unfold Client.espconnSend Client.connectSent
    split
    · refine ⟨rfl,rfl,fun _ => ha,?_⟩
      rw [newActions_eq rfl,requestsSent,show sentPackets [.send packet] = [packet] from rfl,
        List.filter_cons_of_neg (by rw [hplain]; decide),List.filter_nil]
    · exact ⟨rfl,rfl,fun hr => absurd hr Bool.false_ne_true,hnone rfl⟩

theorem Joint.connect (h : Joint method s packets replies) (env : Env)
    (hcan : s.Can (.connect env)) (hempty : s.client.inBuffer = []) :
    ∃ packets' replies', Joint method (s.next method (.connect env)) packets' replies' := by
  obtain ⟨hconn,hb2c,hpc⟩ := hcan
  obtain ⟨hbuf,hpc',halloc,hreqs⟩ := connectCb_facts s.client env
  obtain ⟨new,hnew⟩ := s.client.grows_mqttTcpclientConnectCb env
  have hcount : done (s.client.mqttTcpclientConnectCb env) = done s.client := by
    rw [done,done,hnew.log_eq,released_append,hnew.released_eq,List.append_nil]
  have hall : ((s.next method (.connect env)).c2b) =
      (sentPackets (newActions s.client (s.client.mqttTcpclientConnectCb env))).map
        fun packet => (done s.client,packet) := rfl
  have hb : (s.next method (.connect env)).b2c = [] := by
    show (if _ then [] else s.b2c) = []
    split
    · rfl
    · exact hb2c
  have hreq : requestsOf (s.next method (.connect env)).c2b = [] := by
    rw [hall,requestsOf,List.filter_map]
    have hnone : (sentPackets (newActions s.client (s.client.mqttTcpclientConnectCb env))).filter
        ((fun x => isRequest x.2) ∘ fun packet => (done s.client,packet)) = [] := hreqs
    rw [hnone,List.map_nil]
  refine ⟨packets ++ accepted new,[],?_⟩
  exact {
    seen := hnew.pubrec h.seen
    held := hnew.held _ h.held
    accepted_eq := by
      show accepted (s.client.mqttTcpclientConnectCb env).log =
        released (s.client.mqttTcpclientConnectCb env).log ++ (packets ++ accepted new)
      rw [hnew.log_eq,accepted_append,released_append,h.accepted_eq,hnew.released_eq,
        List.append_nil,List.append_assoc]
    down := fun hc => absurd (show true = false from hc) (by decide)
    link := fun _ => hpc'.trans hpc
    alloc := halloc
    framed := fun _ hm => by cases hm
    stream := fun _ => by
      refine ⟨[],?_,fun _ => rfl⟩
      rw [hb]
      show (s.client.mqttTcpclientConnectCb env).inBuffer ++ [] ++ [] = _
      rw [hbuf,hempty]
      rfl
    deaf := fun _ => rfl
    exchange := by
      rw [hreq]
      exact .quiet
    once := by
      show Once method (accepted (s.client.mqttTcpclientConnectCb env).log)
        (done (s.client.mqttTcpclientConnectCb env)) _ s.broker
      rw [hcount]
      refine h.once.mono ?_ fun hw => absurd (hconn.symm.trans hw.1) (by decide)
      rw [hnew.log_eq,accepted_append]
      exact List.prefix_append _ _ }

theorem window_iff {conn : Bool} {c : Client} (hconn : conn = true) : Window conn c ↔ Awaits c :=
  ⟨fun h => h.2,fun h => ⟨hconn,h⟩⟩

/-- What the broker sends joins the bytes on their way to a client that listens. -/
theorem Joint.reply (h : Joint method s packets replies) (hconn : s.conn = true)
    {reply : List UInt8} (hw : WellFramed reply) {b : Broker} {c2b : List (ℕ × List UInt8)}
    (hex : Exchange b s.client packets.head? ((replies ++ [reply]).filter isAck) (requestsOf c2b))
    (honce : Once method (accepted s.client.log) (done s.client) (Window s.conn s.client) b) :
    ∃ replies', Joint method { s with broker := b, c2b := c2b, b2c := s.b2c ++ reply }
      packets replies' := by
  have hframe : ∀ replies' : List (List UInt8), (∀ p ∈ replies', WellFramed p) →
      (s.client.connState.receiving = true → ∃ lost,
        s.client.inBuffer ++ (s.b2c ++ reply) ++ lost = replies'.flatten ∧
          (s.conn = true → lost = [])) →
      (s.client.connState.receiving = false → replies' = []) →
      Exchange b s.client packets.head? (replies'.filter isAck) (requestsOf c2b) →
      Joint method { s with broker := b, c2b := c2b, b2c := s.b2c ++ reply } packets replies' :=
    fun replies' hf hs hd he => ⟨h.seen,h.held,h.accepted_eq,
      fun hc => absurd (hconn.symm.trans hc) (by decide),fun _ => h.link (Or.inl hconn),h.alloc,hf,
      hs,hd,he,honce⟩
  by_cases hr : s.client.connState.receiving = true
  · refine ⟨replies ++ [reply],hframe _ (fun p hm => ?_) (fun _ => ?_)
      (fun hd => absurd (hr.symm.trans hd) (by decide)) hex⟩
    · rcases List.mem_append.mp hm with hm | hm
      · exact h.framed p hm
      · rw [List.mem_singleton.mp hm]
        exact hw
    · obtain ⟨lost,hlost,hnone⟩ := h.stream hr
      obtain rfl := hnone hconn
      refine ⟨[],?_,fun _ => rfl⟩
      rw [List.append_nil] at hlost
      rw [List.append_nil,List.flatten_append,← hlost,← List.append_assoc]
      simp
  · exact ⟨[],hframe [] (fun p hm => by cases hm) (fun hr' => absurd hr' hr) (fun _ => rfl)
      hex.drop_acks⟩

theorem Joint.broker (h : Joint method s packets replies) (hconn : s.conn = true) :
    ∃ replies', Joint method (s.next method .broker) packets replies' := by
  cases hq : s.c2b with
  | nil =>
    have hsame : s.next method .broker = s := by
      simp only [Session.next,hq]
    rw [hsame]
    exact ⟨replies,h⟩
  | cons x xs =>
    obtain ⟨n,packet⟩ := x
    have hnext : s.next method .broker =
        { s with
          broker := (s.broker.receive method n packet).1
          c2b := xs
          b2c := s.b2c ++ (s.broker.receive method n packet).2.getD [] } := by
      simp only [Session.next,hq]
    rw [hnext]
    have hex := h.exchange
    rw [hq] at hex
    have hsilent : ∀ b, Exchange b s.client packets.head? (replies.filter isAck) (requestsOf xs) →
        Once method (accepted s.client.log) (done s.client) (Window s.conn s.client) b →
        Joint method { s with broker := b, c2b := xs, b2c := s.b2c ++ [] } packets replies :=
      fun b he ho => by
        rw [List.append_nil]
        exact ⟨h.seen,h.held,h.accepted_eq,fun hc => absurd (hconn.symm.trans hc) (by decide),
          h.link,h.alloc,h.framed,h.stream,h.deaf,he,ho⟩
    by_cases hreq : isRequest packet = true
    · rw [requestsOf,List.filter_cons_of_pos (by exact hreq)] at hex
      obtain ⟨hacks,hreqs,hreply,honce⟩ := hex.receive hreq h.held h.accepted_eq
        (window_iff hconn) h.once
      have hrest : requestsOf xs = [] := hreqs
      cases hr : (s.broker.receive method n packet).2 with
      | none =>
        refine ⟨replies,hsilent _ ?_ honce⟩
        rw [hacks,hrest]
        exact .quiet
      | some reply =>
        obtain ⟨hw,ha,he⟩ := hreply reply hr
        refine h.reply hconn hw ?_ honce
        rw [List.filter_append,hacks,hrest,List.filter_cons_of_pos ha]
        exact he
    · rw [requestsOf,List.filter_cons_of_neg (by exact hreq)] at hex
      obtain ⟨hsame,hreply⟩ := receive_other s.broker method n (Bool.eq_false_iff.mpr hreq)
      rw [hsame]
      cases hr : (s.broker.receive method n packet).2 with
      | none => exact ⟨replies,hsilent _ hex h.once⟩
      | some reply =>
        obtain ⟨hw,ha⟩ := hreply reply hr
        refine h.reply hconn hw ?_ h.once
        rw [List.filter_append,List.filter_cons_of_neg (by rw [ha]; decide),List.filter_nil,
          List.append_nil]
        exact hex

/-- A connection is lost, unless the client waits for a PUBCOMP of a message whose id the
broker does not hold any more. -/
theorem Joint.lose (h : Joint method s packets replies) (n m : ℕ) (hconn : s.conn = true)
    (hsafe : s.Safe method (.lose n m)) :
    Joint method (s.next method (.lose n m)) packets replies := by
  have hsub : (requestsOf (s.c2b.take n)).Sublist (requestsOf s.c2b) :=
    (List.take_sublist n s.c2b).filter _
  obtain ⟨hex,honce⟩ := (h.exchange.sublist hsub).receiveAll h.held h.accepted_eq
    (window_iff hconn) h.once
  exact {
    seen := h.seen
    held := h.held
    accepted_eq := h.accepted_eq
    down := fun _ => rfl
    link := fun hor => by
      rcases hor with hc | _
      · exact absurd (show false = true from hc) (by decide)
      · exact h.link (Or.inl hconn)
    alloc := h.alloc
    framed := h.framed
    stream := fun hr => by
      obtain ⟨lost,hlost,_⟩ := h.stream hr
      refine ⟨s.b2c.drop m ++ lost,?_,fun hc => absurd (show false = true from hc) (by decide)⟩
      show s.client.inBuffer ++ s.b2c.take m ++ (s.b2c.drop m ++ lost) = _
      rw [← hlost,List.append_assoc,List.append_assoc,← List.append_assoc (s.b2c.take m),
        List.take_append_drop]
    deaf := h.deaf
    exchange := hex
    once := by
      refine honce.mono (List.prefix_refl _) fun hw => Or.inr fun packet hq => ?_
      obtain ⟨head,rest,hp,_,_,_,hid⟩ := awaits_head h.held hw.2
      have hget := (get_done h.accepted_eq).symm.trans hq.get_eq
      rw [hp] at hget
      cases hget
      rw [← hid]
      exact hsafe hw.2.2 }

end Joints

def Sane (method : Method) (s : Session) : Prop :=
  ∃ packets replies, Joint method s packets replies

theorem sane_step (method : Method) (s : Session) (e : SessionEvent) (s' : Session)
    (h : Sane method s) (hstep : Guarded (Session.Safe method) (Session.Step method) s e s') :
    Sane method s' := by
  obtain ⟨packets,replies,hj⟩ := h
  obtain ⟨hsafe,hcan,rfl⟩ := hstep
  cases e with
  | client e => exact hj.client e hcan hsafe
  | deliver k env => exact hj.deliver k env hcan
  | connect env => exact hj.connect env hcan hsafe.2
  | broker => exact ⟨packets,hj.broker hcan⟩
  | brokerSend packet =>
    obtain ⟨hconn,hw,ha⟩ := hcan
    refine ⟨packets,hj.reply hconn hw ?_ hj.once⟩
    rw [List.filter_append,List.filter_cons_of_neg (by rw [ha]; decide),List.filter_nil,
      List.append_nil]
    exact hj.exchange
  | lose n m => exact ⟨packets,replies,hj.lose n m hcan hsafe⟩

/-- The client behind `MQTT_InitClient`, not connected, and a broker that may hold ids of an
earlier life of the client. -/
def start (host : List UInt8) (security : Bool) (info : ConnectInfo) (queueBufferSize : ℤ)
    (held : ℕ → Bool) : Session where
  client := mqttInitClient host security info queueBufferSize
  conn := false
  c2b := []
  b2c := []
  broker := ⟨fun id => if held id then some none else none,[]⟩

theorem start_sane (method : Method) (host : List UInt8) (security : Bool) (info : ConnectInfo)
    (queueBufferSize : ℤ) (held : ℕ → Bool) :
    Sane method (start host security info queueBufferSize held) := by
  obtain ⟨hseen,packets,hheld,hacc⟩ :=
    mqttInitClient_conserved host security info queueBufferSize
  refine ⟨packets,[],hseen,hheld,hacc,fun _ => rfl,fun hor => ?_,fun _ => rfl,
    fun _ hm => absurd hm List.not_mem_nil,fun hr => absurd hr Bool.false_ne_true,fun _ => rfl,
    .quiet,?_⟩
  · rcases hor with hc | hne
    · exact absurd (show false = true from hc) (by decide)
    · exact absurd rfl hne
  · refine ⟨List.nodup_nil,fun _ hm => absurd hm List.not_mem_nil,
      fun hm => absurd hm List.not_mem_nil,fun _ id i hs => ?_⟩
    have hs : (if held id then some none else none) = some (some i) := hs
    split at hs
    · cases hs
    · cases hs

/-- In a run whose steps all meet the condition, every message the broker forwards is a
QoS 2 message the client accepted, and none is forwarded twice. -/
theorem forwarded_once {method : Method} {host : List UInt8} {security : Bool}
    {info : ConnectInfo} {queueBufferSize : ℤ} {held : ℕ → Bool} {es : List SessionEvent}
    {s : Session}
    (hrun : Run (Guarded (Session.Safe method) (Session.Step method))
      (start host security info queueBufferSize held) es s) :
    s.broker.forwards.Nodup ∧
      ∀ i ∈ s.broker.forwards, ∃ packet, IsQos2 (accepted s.client.log) i packet := by
  obtain ⟨packets,replies,hj⟩ := hrun.invariant (sane_step method)
    (start_sane method host security info queueBufferSize held)
  exact ⟨hj.once.nodup,fun i hi => (hj.once.past i hi).2⟩

/-- The client for the broker at 1.1.1.1, and a broker that holds no ids. -/
def exampleStart : Session :=
  start [0x31,0x2E,0x31,0x2E,0x31,0x2E,0x31] false
    ⟨some [0x31],none,none,none,[],60,0,false,false⟩ 2048 fun _ => false

def connecting : List SessionEvent :=
  [.client (.api (.connect .inProgress)),.connect exampleEnv,.broker,.brokerSend [0x20,2,0,0],
    .deliver 4 exampleEnv]

/-- The exchange of the head of the queue up to the PUBCOMP, which is on its way. -/
def exchanging : List SessionEvent :=
  [.client (.task exampleEnv),.broker,.deliver 4 exampleEnv,.broker]

def goTo (s : Session) (es : List SessionEvent) : Session := es.foldl (Session.next .onPubrel) s

theorem connack_framed : WellFramed [0x20,2,0,0] :=
  ⟨⟨0x20,[2],[0,0],rfl,.last 2 (by decide)⟩,by decide⟩

/-- Every event of a list can happen in its turn and meets the condition. -/
def Passes (s : Session) : List SessionEvent → Prop
  | [] => True
  | e::es => (s.Safe .onPubrel e ∧ s.Can e) ∧ Passes (s.next .onPubrel e) es

theorem run_of_passes {s : Session} {es : List SessionEvent} (h : Passes s es) :
    Run (Guarded (Session.Safe .onPubrel) (Session.Step .onPubrel)) s es (goTo s es) := by
  induction es generalizing s with
  | nil => exact .nil s
  | cons e es ih => exact .cons ⟨h.1.1,h.1.2,rfl⟩ (ih h.2)

section Passing

variable {s : Session}

theorem pass_client {e : Event} (ha : s.client.connState ≠ .mqttDeleted)
    (he : Enabled s.client e) (hown : Session.fromBroker e = false)
    (hup : givesUp e (newActions s.client (MqttClient.next s.client e)) = true → s.conn = false) :
    s.Safe .onPubrel (.client e) ∧ s.Can (.client e) := ⟨ha,he,hown,hup⟩

theorem pass_deliver {k : ℕ} {env : Env} (ha : s.client.connState ≠ .mqttDeleted)
    (hup : givesUp (.recv (s.b2c.take k) env) (newActions s.client
      (MqttClient.next s.client (.recv (s.b2c.take k) env))) = true → s.conn = false) :
    s.Safe .onPubrel (.deliver k env) ∧ s.Can (.deliver k env) := ⟨ha,hup⟩

theorem pass_connect {env : Env} (ha : s.client.connState ≠ .mqttDeleted ∧ s.client.inBuffer = [])
    (hcan : s.conn = false ∧ s.b2c = [] ∧ s.client.pCon = true) :
    s.Safe .onPubrel (.connect env) ∧ s.Can (.connect env) := ⟨ha,hcan⟩

theorem pass_broker (ha : s.client.connState ≠ .mqttDeleted) (hconn : s.conn = true) :
    s.Safe .onPubrel .broker ∧ s.Can .broker := ⟨ha,hconn⟩

theorem pass_connack (ha : s.client.connState ≠ .mqttDeleted) (hconn : s.conn = true) :
    s.Safe .onPubrel (.brokerSend [0x20,2,0,0]) ∧ s.Can (.brokerSend [0x20,2,0,0]) :=
  ⟨ha,hconn,connack_framed,by decide⟩

end Passing

/-- The client connects and accepts a QoS 2 message. -/
def publishing : List SessionEvent :=
  connecting ++ [.client (.api (.publish (some [0x61]) (some [0x78]) 2 0))]

theorem publishing_passes : Passes exampleStart publishing := by
  refine ⟨pass_client (by decide) (by decide) rfl (by decide),?_⟩
  refine ⟨pass_connect (by decide) (by decide),?_⟩
  refine ⟨pass_broker (by decide) (by decide),?_⟩
  refine ⟨pass_connack (by decide) (by decide),?_⟩
  refine ⟨pass_deliver (by decide) (by decide),?_⟩
  exact ⟨pass_client (by decide) (by decide) rfl (by decide),trivial⟩

theorem exchanging_passes : Passes (goTo exampleStart publishing) exchanging := by
  refine ⟨pass_client (by decide +kernel) (by decide +kernel) rfl (by decide +kernel),?_⟩
  refine ⟨pass_broker (by decide +kernel) (by decide +kernel),?_⟩
  refine ⟨pass_deliver (by decide +kernel) (by decide +kernel),?_⟩
  exact ⟨pass_broker (by decide +kernel) (by decide +kernel),trivial⟩

/-- A message on an undisturbed connection is forwarded once. -/
theorem forwarded_once_undisturbed :
    (goTo (goTo exampleStart publishing) exchanging).broker.forwards = [0] ∧
      (goTo (goTo exampleStart publishing) exchanging).broker.forwards.Nodup := by
  have h := forwarded_once ((run_of_passes publishing_passes).append (run_of_passes exchanging_passes))
  exact ⟨by decide +kernel,h.1⟩

def lost : Session := (goTo (goTo exampleStart publishing) exchanging).next .onPubrel (.lose 0 0)

def reconnecting : List SessionEvent := .client (.discon exampleEnv) :: connecting

theorem reconnecting_passes : Passes lost reconnecting := by
  refine ⟨pass_client (by decide +kernel) (by decide +kernel) rfl (by decide +kernel),?_⟩
  refine ⟨pass_client (by decide +kernel) (by decide +kernel) rfl (by decide +kernel),?_⟩
  refine ⟨pass_connect (by decide +kernel) (by decide +kernel),?_⟩
  refine ⟨pass_broker (by decide +kernel) (by decide +kernel),?_⟩
  refine ⟨pass_connack (by decide +kernel) (by decide +kernel),?_⟩
  exact ⟨pass_deliver (by decide +kernel) (by decide +kernel),trivial⟩

theorem again_passes : Passes (goTo lost reconnecting) exchanging := by
  refine ⟨pass_client (by decide +kernel) (by decide +kernel) rfl (by decide +kernel),?_⟩
  refine ⟨pass_broker (by decide +kernel) (by decide +kernel),?_⟩
  refine ⟨pass_deliver (by decide +kernel) (by decide +kernel),?_⟩
  exact ⟨pass_broker (by decide +kernel) (by decide +kernel),trivial⟩

/-- The client publishes the message again, and the broker does not know it any more. -/
theorem forwarded_twice :
    ¬∀ (es : List SessionEvent) (s : Session), Run (Session.Step .onPubrel) exampleStart es s →
      s.broker.forwards.Nodup := by
  intro h
  have hplain : ∀ {s t : Session} {es : List SessionEvent},
      Run (Guarded (Session.Safe .onPubrel) (Session.Step .onPubrel)) s es t →
      Run (Session.Step .onPubrel) s es t := fun hrun => hrun.mono fun _ _ _ hs => hs.2
  have hup : (goTo (goTo exampleStart publishing) exchanging).conn = true := by decide +kernel
  have hfirst := hplain
    ((run_of_passes publishing_passes).append (run_of_passes exchanging_passes))
  have hlost : Run (Session.Step .onPubrel) exampleStart (publishing ++ exchanging ++ [.lose 0 0])
      lost := hfirst.snoc ⟨hup,rfl⟩
  have hsecond := hplain
    ((run_of_passes reconnecting_passes).append (run_of_passes again_passes))
  have hnodup := h _ _ (hlost.append hsecond)
  have htwice : (goTo (goTo lost reconnecting) exchanging).broker.forwards = [0,0] := by
    decide +kernel
  rw [htwice] at hnodup
  exact absurd hnodup (by decide)

end MqttSession
end MeterLogger
