import MeterLogger.MqttExactlyOnce
import MeterLogger.MqttInbound

/-!
# The packets on their way to the client

The broker's bytes are cut into chunks and put together again in the receive buffer. What every
step of the client means for the packets behind these bytes is that it works at the first of them or
at none, and that some of the others may not arrive any more.
-/

namespace MeterLogger
namespace MqttInbound

open MqttMessage MqttClient MqttSession

theorem packetLength_framed {packet rest buffer : List UInt8} (hf : Framed packet)
    (h : buffer <+: packet ++ rest) :
    mqttGetPacketLength buffer buffer.length = packet.length ∨
      (mqttGetPacketLength buffer buffer.length = 0 ∧ buffer.length < packet.length) := by
  obtain ⟨first,field,body,rfl,hfield⟩ := hf
  exact packetLength_field hfield h

theorem Framed.length_pos {packet : List UInt8} (h : Framed packet) : 0 < packet.length := by
  obtain ⟨first,field,body,rfl,_⟩ := h
  simp

theorem lengthField_of_loop {buffer : List UInt8} {n i remaining multiplier total : ℕ}
    (h : packetLengthLoop buffer buffer.length n i remaining multiplier = total) (hpos : 0 < total) :
    ∃ field value, field <+: buffer.drop i ∧ LengthField n field value ∧
      total = i+field.length+(remaining+value*multiplier) := by
  induction n generalizing i remaining multiplier with
  | zero =>
    rw [packetLengthLoop] at h
    omega
  | succ n ih =>
    by_cases hi : i < buffer.length
    · have hdrop := List.drop_eq_getElem_cons hi
      have hget : (buffer.getD i 0).toNat = buffer[i].toNat := by simp [List.getD,hi]
      rw [packetLengthLoop_succ _ _ _ _ _ _ _ hget hi] at h
      split at h
      · rename_i hb
        refine ⟨[buffer[i]],buffer[i].toNat,?_,.last _ hb,?_⟩
        · rw [hdrop]
          exact ⟨_,rfl⟩
        · rw [Nat.mod_eq_of_lt hb] at h
          rw [List.length_singleton]
          omega
      · rename_i hb
        obtain ⟨field,value,hpre,hfield,htotal⟩ := ih h
        refine ⟨buffer[i]::field,_,?_,.more _ (by omega) hfield,?_⟩
        · rw [hdrop,List.cons_prefix_cons]
          exact ⟨rfl,hpre⟩
        · rw [htotal,List.length_cons]
          ring
    · rw [packetLengthLoop,if_pos (by omega)] at h
      omega

theorem framed_iff {packet : List UInt8} : Framed packet ↔
    0 < packet.length ∧ mqttGetPacketLength packet packet.length = packet.length := by
  constructor
  · intro h
    have hpre : packet <+: packet ++ [] := List.prefix_append packet []
    refine ⟨h.length_pos,?_⟩
    rcases packetLength_framed h hpre with hlen | ⟨_,hlt⟩
    · exact hlen
    · exact absurd hlt (Nat.lt_irrefl _)
  · rintro ⟨hpos,hlen⟩
    rw [mqttGetPacketLength] at hlen
    split at hlen
    · omega
    · obtain ⟨field,value,⟨body,hbody⟩,hfield,htotal⟩ := lengthField_of_loop hlen hpos
      cases packet with
      | nil => simp at hpos
      | cons first rest =>
        have hrest : rest = field ++ body := hbody.symm
        have hvalue : value = body.length := by
          rw [hrest] at htotal
          simp only [List.length_cons,List.length_append] at htotal
          omega
        refine ⟨first,field,body,by rw [hrest],?_⟩
        rwa [← hvalue]

instance (packet : List UInt8) : Decidable (Framed packet) := decidable_of_iff _ framed_iff.symm

theorem packetsIn_flatten {packets : List (List UInt8)} (h : ∀ p ∈ packets, Framed p) {n : ℕ}
    (hn : packets.flatten.length ≤ n) : packetsIn n packets.flatten = packets := by
  induction packets generalizing n with
  | nil =>
    cases n with
    | zero => rfl
    | succ n => simp [packetsIn,mqttGetPacketLength]
  | cons packet rest ih =>
    have hf := h packet List.mem_cons_self
    have hpos := hf.length_pos
    rw [List.flatten_cons] at hn ⊢
    rw [List.length_append] at hn
    obtain ⟨n,rfl⟩ : ∃ m, n = m+1 := ⟨n-1,by omega⟩
    have hlen : mqttGetPacketLength (packet ++ rest.flatten) (packet ++ rest.flatten).length =
        packet.length := by
      rcases packetLength_framed hf (List.prefix_refl _) with hlen | ⟨_,hlt⟩
      · exact hlen
      · rw [List.length_append] at hlt
        omega
    have hle : (packet.length : ℤ) ≤ (packet ++ rest.flatten).length := by
      rw [List.length_append]
      omega
    have hrest := ih (fun p hp => h p (List.mem_cons_of_mem _ hp)) (n := n) (by omega)
    simp only [packetsIn,hlen]
    rw [if_pos ⟨by omega,hle⟩]
    simp [hrest]

/-- A part of the client works at the first packet on its way. -/
def Works (c c' : Client) (packet : List UInt8) : Prop :=
  ∃ (m : Client) (env : Env), m.log = c.log ∧ m.allocated = true ∧
    c'.log = (m.handleMessage packet env).log

/-- What a step of the client means for the packets on their way. -/
inductive Takes (c c' : Client) : List (List UInt8) → List (List UInt8) → Prop
  | none {flight flight' : List (List UInt8)} (h : Adds Mild c c')
      (hs : flight'.Sublist flight) : Takes c c' flight flight'
  | one {packet : List UInt8} {rest flight' : List (List UInt8)} (h : Works c c' packet)
      (hs : flight'.Sublist rest) : Takes c c' (packet::rest) flight'

theorem Takes.of_log {c₁ c c' : Client} {flight flight' : List (List UInt8)}
    (h : Takes c₁ c' flight flight') (hlog : c₁.log = c.log) : Takes c c' flight flight' := by
  cases h with
  | none hm hs => exact .none (hm.after hlog) hs
  | one hw hs =>
    obtain ⟨m,env,hm,ha,heq⟩ := hw
    exact .one ⟨m,env,hm.trans hlog,ha,heq⟩ hs

/-- The bytes of the receive buffer and those on their way are the packets of `flight`, as far as
they still arrive. A client that does not listen has none. -/
structure Stream (c : Client) (conn : Bool) (b2c : List UInt8) (flight : List (List UInt8)) :
    Prop where
  framed : ∀ p ∈ flight, Framed p
  bytes : c.connState.receiving = true → ∃ lost, c.inBuffer ++ b2c ++ lost = flight.flatten ∧
    (conn = true → lost = [])
  deaf : c.connState.receiving = false → flight = []
  alloc : c.connState.receiving = true → c.allocated = true
  link : conn = true ∨ b2c ≠ [] → c.pCon = true

namespace Stream

variable {c c' : Client} {conn up : Bool} {b2c : List UInt8} {flight : List (List UInt8)}

/-- An aborted connection was lost before, and one that was not there carries nothing. -/
theorem gone (h : Stream c conn b2c flight) (hup : up = true → conn = false)
    (hc : c.pCon = true → up = true) : conn = false ∧ (if up then [] else b2c) = [] := by
  cases hp : c.pCon with
  | true =>
    have hu := hc hp
    exact ⟨hup hu,by rw [hu]; rfl⟩
  | false =>
    have hno := mt h.link (by rw [hp]; decide)
    rw [not_or,not_not] at hno
    exact ⟨Bool.eq_false_iff.mpr hno.1,by rw [hno.2]; split <;> rfl⟩

/-- The link after a part of the client that leaves the connection alone or gives it up. -/
theorem link_after (h : Stream c conn b2c flight)
    (hl : c'.pCon = c.pCon ∨ (conn = false ∧ (if up then [] else b2c) = [])) :
    conn = true ∨ (if up then [] else b2c) ≠ [] → c'.pCon = true := by
  rcases hl with hp | ⟨hconn,hnil⟩
  · intro hor
    rw [hp]
    refine h.link (hor.imp_right fun hne hnil => hne ?_)
    rw [hnil]
    split <;> rfl
  · rintro (hc | hne)
    · exact absurd (hc.symm.trans hconn) (by decide)
    · exact absurd hnil hne

theorem silenced (h : Stream c conn b2c flight) (hr : c'.connState.receiving = false)
    (hl : c'.pCon = c.pCon ∨ (conn = false ∧ (if up then [] else b2c) = [])) :
    Stream c' conn (if up then [] else b2c) [] where
  framed _ hp := absurd hp List.not_mem_nil
  bytes hr' := absurd (hr.symm.trans hr') (by decide)
  deaf _ := rfl
  alloc hr' := absurd (hr.symm.trans hr') (by decide)
  link := h.link_after hl

theorem emptied (h : Stream c conn b2c flight) (hb : c'.inBuffer = [])
    (ha : c'.connState.receiving = true → c'.allocated = true)
    (hgone : conn = false ∧ (if up then [] else b2c) = []) :
    Stream c' conn (if up then [] else b2c) [] where
  framed _ hp := absurd hp List.not_mem_nil
  bytes _ := ⟨[],by rw [hb,hgone.2]; rfl,fun _ => rfl⟩
  deaf _ := rfl
  alloc := ha
  link := h.link_after (Or.inr hgone)

/-- What is taken out of the receive buffer is the first packet, or nothing is. Bytes that do not
arrive any more are lost. -/
theorem advanced (taken : List UInt8) {rest : List (List UInt8)} (h : Stream c conn b2c flight)
    (hup : up = true → conn = false) (hr : c.connState.receiving = true)
    (hflight : flight.flatten = taken ++ rest.flatten) (hsub : rest.Sublist flight)
    (hb : c.inBuffer = taken ++ c'.inBuffer) (hr' : c'.connState.receiving = true)
    (ha : c'.allocated = c.allocated) (hp : c'.pCon = c.pCon) :
    Stream c' conn (if up then [] else b2c) rest where
  framed p hm := h.framed p (hsub.subset hm)
  bytes _ := by
    obtain ⟨lost,hlost,hnone⟩ := h.bytes hr
    rw [hflight,hb,List.append_assoc,List.append_assoc] at hlost
    have hlost := List.append_cancel_left hlost
    cases up with
    | false => exact ⟨lost,by rw [← hlost]; simp,hnone⟩
    | true =>
      refine ⟨b2c ++ lost,?_,fun hc => absurd (hc.symm.trans (hup rfl)) (by decide)⟩
      rw [← hlost]
      simp
  deaf hd := absurd (hr'.symm.trans hd) (by decide)
  alloc _ := ha.trans (h.alloc hr)
  link := h.link_after (Or.inl hp)

theorem kept (h : Stream c conn b2c flight) (hk : Keeps (fun _ => True) c c')
    (hup : up = true → conn = false) (habort : .abort ∈ newActions c c' → up = true) :
    ∃ flight', flight'.Sublist flight ∧ Stream c' conn (if up then [] else b2c) flight' := by
  obtain ⟨new,htame,hf⟩ := hk
  rw [newActions_eq htame.log_eq] at habort
  rcases hf with hw | ⟨hnil,ha⟩
  · simp only [wire,Prod.mk.injEq] at hw
    by_cases hr : c'.connState.receiving = true
    · exact ⟨flight,List.Sublist.refl _,h.advanced [] hup (htame.receiving hr) rfl
        (List.Sublist.refl _) hw.1.symm hr hw.2.2 hw.2.1⟩
    · exact ⟨[],List.nil_sublist _,h.silenced (Bool.eq_false_iff.mpr hr) (Or.inl hw.2.1)⟩
  · refine ⟨[],List.nil_sublist _,h.emptied hnil (fun hr => ?_)
      (h.gone hup fun hp => habort (ha hp))⟩
    exact htame.allocated_eq.trans (h.alloc (htame.receiving hr))

theorem dropped {d : Client} (h : Stream c conn b2c flight) (hlog : d.log = c.log)
    (hstate : d.connState = c.connState) (halloc : d.allocated = c.allocated)
    (hpc : d.pCon = c.pCon) (hbuf : c.connState.receiving = true → d.inBuffer = [])
    (hup : up = true → conn = false)
    (hdisc : .disconnect ∈ newActions c d.dropConnection → up = true) :
    Adds Mild c d.dropConnection ∧ Stream d.dropConnection conn (if up then [] else b2c) [] := by
  refine ⟨(mild_dropConnection d).after hlog,?_⟩
  unfold Client.dropConnection at hdisc ⊢
  cases hp : d.pCon with
  | true =>
    simp only [hp,if_true] at hdisc ⊢
    have hgone := h.gone hup fun _ => hdisc (by
      have hnew : (d.emit .disconnect).log = c.log ++ [.disconnect] := by
        rw [← hlog]
        rfl
      rw [newActions_eq hnew]
      exact List.mem_singleton_self _)
    by_cases hr : c.connState.receiving = true
    · exact h.emptied (hbuf hr) (fun _ => halloc.trans (h.alloc hr)) hgone
    · refine h.silenced ?_ (Or.inl hpc)
      show d.connState.receiving = false
      rw [hstate]
      exact Bool.eq_false_iff.mpr hr
  | false =>
    simp only [Bool.false_eq_true,if_false]
    have hgone := h.gone hup fun hp' => absurd (hp.symm.trans (hpc.trans hp')) (by decide)
    by_cases hr : c.connState.receiving = true
    · exact h.emptied (hbuf hr) (fun _ => halloc.trans (h.alloc hr)) hgone
    · exact h.silenced (by rw [hstate]; exact Bool.eq_false_iff.mpr hr) (Or.inl hpc)

/-- In a state that handles packets the first packet of the receive buffer is the first on its
way. -/
theorem first (h : Stream c conn b2c flight) (hr : c.connState.receiving = true)
    (hl : 0 < mqttGetPacketLength c.inBuffer c.inBuffer.length) :
    ∃ packet rest, flight = packet::rest ∧ c.inBuffer <+: packet ++ rest.flatten ∧
      mqttGetPacketLength c.inBuffer c.inBuffer.length = packet.length := by
  obtain ⟨lost,hlost,_⟩ := h.bytes hr
  cases hflight : flight with
  | nil =>
    rw [hflight,List.flatten_nil,List.append_eq_nil_iff,List.append_eq_nil_iff] at hlost
    rw [hlost.1.1] at hl
    exact absurd hl (by decide)
  | cons packet rest =>
    have hf := h.framed packet (by rw [hflight]; exact List.mem_cons_self)
    rw [hflight,List.flatten_cons,List.append_assoc] at hlost
    have hpre : c.inBuffer <+: packet ++ rest.flatten := ⟨_,hlost⟩
    refine ⟨packet,rest,rfl,hpre,?_⟩
    rcases packetLength_framed hf hpre with hlen | ⟨hlen,_⟩
    · exact hlen
    · rw [hlen] at hl
      exact absurd hl (by decide)

end Stream

/-- What the handler of a packet does to the connection and to the log. -/
structure Handles (c d : Client) (packet : List UInt8) : Prop where
  wire_eq : wire d = wire c ∨ (d.inBuffer = [] ∧ (c.pCon = true → .abort ∈ newActions c d))
  allocated_eq : d.allocated = c.allocated
  log_of : Works c d packet ∨ Adds Mild c d

theorem handlePacket_handles {c : Client} (hr : c.connState.receiving = true)
    (ha : c.allocated = true) {n : ℕ} {packet : List UInt8} (htake : c.inBuffer.take n = packet)
    (env : Env) : Handles c (c.handlePacket n env) packet := by
  have hwire : ∀ {d m : Client} {xs : List Action}, m.log = c.log ++ xs → wire m = wire c →
      Keeps (fun _ => True) m d →
      (wire d = wire c ∨ (d.inBuffer = [] ∧ (c.pCon = true → .abort ∈ newActions c d))) ∧
        d.allocated = c.allocated := by
    intro d m xs hlog hw hk
    obtain ⟨new,htame,hf⟩ := hk
    have hall : newActions c d = xs ++ new := by
      refine newActions_eq ?_
      rw [htame.log_eq,hlog,List.append_assoc]
    have hw' := hw
    simp only [wire,Prod.mk.injEq] at hw'
    refine ⟨hf.imp (·.trans hw) fun hc => ⟨hc.1,fun hp => ?_⟩,htame.allocated_eq.trans hw'.2.2⟩
    rw [hall]
    exact List.mem_append_right _ (hc.2 (hw'.2.1.trans hp))
  have hmessage : Handles c (c.handleMessage packet env) packet := by
    obtain ⟨hw,halloc⟩ := hwire (m := c.emit (.handled packet)) rfl rfl
      (c.keeps_handleMessage packet env)
    exact ⟨hw,halloc,Or.inl ⟨c,env,rfl,ha,rfl⟩⟩
  unfold Client.handlePacket
  simp only [htake]
  cases hstate : c.connState with
  | mqttConnectSending =>
    simp only
    split
    · obtain ⟨hw,halloc⟩ := hwire (List.append_nil _).symm rfl
        (keeps_handleConnack c (c.inBuffer.getD 3 env.stale) env hr)
      exact ⟨hw,halloc,Or.inr (mild_handleConnack c _ env)⟩
    · exact ⟨Or.inl rfl,rfl,Or.inr (.refl c)⟩
  | mqttData => exact hmessage
  | mqttKeepaliveSend => exact hmessage
  | _ =>
    rw [hstate] at hr
    exact absurd hr (by decide)

namespace Stream

variable {c c' : Client} {conn up : Bool} {b2c : List UInt8} {flight : List (List UInt8)}

theorem worked {d : Client} {packet tail : List UInt8} {rest : List (List UInt8)}
    (h : Stream c conn b2c flight) (hr : c.connState.receiving = true)
    (hflight : flight = packet::rest) (hsplit : c.inBuffer = packet ++ tail)
    (hd : Handles c d packet) (hlog : c'.log = d.log) (hpc : c'.pCon = d.pCon)
    (halloc : c'.allocated = d.allocated) (hempty : d.inBuffer = [] → c'.inBuffer = [])
    (hbuf : wire d = wire c → c'.connState.receiving = true → c'.inBuffer = tail)
    (hup : up = true → conn = false) (habort : .abort ∈ newActions c c' → up = true) :
    ∃ flight', Takes c c' flight flight' ∧ Stream c' conn (if up then [] else b2c) flight' := by
  have htakes : ∀ {flight' : List (List UInt8)}, flight'.Sublist rest → Takes c c' flight flight' := by
    intro flight' hs
    subst hflight
    rcases hd.log_of with ⟨m,env,hm,ha,hw⟩ | hm
    · exact .one ⟨m,env,hm,ha,hlog.trans hw⟩ hs
    · exact .none (hm.before hlog) (hs.cons packet)
  rw [newActions,hlog] at habort
  have hcut : d.inBuffer = [] ∧ (c.pCon = true → .abort ∈ newActions c d) →
      Stream c' conn (if up then [] else b2c) [] := fun hc =>
    h.emptied (hempty hc.1) (fun _ => (halloc.trans hd.allocated_eq).trans (h.alloc hr))
      (h.gone hup fun hp => habort (hc.2 hp))
  rcases hd.wire_eq with hw | hc
  · have hw' := hw
    simp only [wire,Prod.mk.injEq] at hw'
    by_cases hr' : c'.connState.receiving = true
    · refine ⟨rest,htakes (List.Sublist.refl _),?_⟩
      refine h.advanced packet hup hr ?_ ?_ ?_ hr' (halloc.trans hd.allocated_eq)
        (hpc.trans hw'.2.1)
      · rw [hflight,List.flatten_cons]
      · rw [hflight]
        exact List.sublist_cons_self packet rest
      · rw [hsplit,hbuf hw hr']
    · exact ⟨[],htakes (List.nil_sublist _),h.silenced (Bool.eq_false_iff.mpr hr')
        (Or.inl (hpc.trans hw'.2.1))⟩
  · exact ⟨[],htakes (List.nil_sublist _),hcut hc⟩

theorem process (h : Stream c conn b2c flight) (env : Env) (hup : up = true → conn = false)
    (hgive : ∀ a ∈ newActions c (c.processPacket env), a = .abort ∨ a = .disconnect → up = true) :
    ∃ flight', Takes c (c.processPacket env) flight flight' ∧
      Stream (c.processPacket env) conn (if up then [] else b2c) flight' := by
  have hpost : ∃ flight', Takes c c.post flight flight' ∧
      Stream c.post conn (if up then [] else b2c) flight' := by
    have hnil : newActions c c.post = [] := newActions_eq (List.append_nil _).symm
    obtain ⟨flight',hs,hstream⟩ := h.kept c.neutral_post.keeps hup fun hm => by
      rw [hnil] at hm
      cases hm
    exact ⟨flight',.none (.post c) hs,hstream⟩
  unfold Client.processPacket at hgive ⊢
  split at hgive
  · rename_i he
    rw [if_pos he]
    exact hpost
  rename_i hne
  rw [if_neg hne]
  simp only at hgive ⊢
  split at hgive
  · rename_i hbad
    rw [if_pos hbad]
    obtain ⟨hmild,hstream⟩ := h.dropped (d := { c with inBuffer := [] }) rfl rfl rfl rfl
      (fun _ => rfl) hup fun hm => hgive _ hm (Or.inr rfl)
    exact ⟨[],.none hmild (List.nil_sublist _),hstream⟩
  rename_i hbad
  rw [if_neg hbad]
  split at hgive
  case isFalse hshort =>
    rw [if_neg hshort]
    exact hpost
  case isTrue hcomplete =>
  rw [if_pos hcomplete]
  by_cases hr : c.connState.receiving = true
  · obtain ⟨packet,rest,hflight,hpre,hlen⟩ := h.first hr hcomplete.1
    obtain ⟨tail,htail⟩ := List.prefix_of_prefix_length_le (List.prefix_append packet rest.flatten)
      hpre (by rw [hlen] at hcomplete; omega)
    have hsplit : c.inBuffer = packet ++ tail := htail.symm
    rw [hlen,Int.toNat_natCast] at hgive ⊢
    have htake : c.inBuffer.take packet.length = packet := by
      rw [hsplit,List.take_left']
      rfl
    have hd := handlePacket_handles hr (h.alloc hr) htake env
    generalize c.handlePacket packet.length env = d at hd hgive ⊢
    split at hgive
    · rename_i hdown
      rw [if_pos hdown]
      refine h.worked hr hflight hsplit hd rfl rfl rfl (fun _ => rfl) (fun _ hr' => ?_) hup
        fun hm => hgive _ hm (Or.inl rfl)
      rw [show d.connState = _ from hdown] at hr'
      exact absurd hr' (by decide)
    rename_i hdown
    rw [if_neg hdown]
    split at hgive
    · rename_i hlost
      rw [if_pos hlost]
      refine h.worked hr hflight hsplit hd rfl rfl rfl (fun _ => rfl) (fun hwire _ => ?_) hup
        fun hm => hgive _ hm (Or.inl rfl)
      simp only [wire,Prod.mk.injEq] at hwire
      rcases hlost with hlost | hlost
      · exact absurd (by rw [hwire.1]) hlost
      · exact absurd (hlost.symm.trans (hwire.2.2.trans (h.alloc hr))) (by decide)
    · rename_i hlost
      rw [if_neg hlost]
      refine h.worked hr hflight hsplit hd rfl rfl rfl (fun hnil => ?_) (fun hwire _ => ?_) hup
        fun hm => hgive _ hm (Or.inl rfl)
      · show d.inBuffer.drop packet.length = []
        rw [hnil,List.drop_nil]
      · simp only [wire,Prod.mk.injEq] at hwire
        show d.inBuffer.drop packet.length = tail
        rw [hwire.1,hsplit,List.drop_left']
        rfl
  · have hidle : ∀ n, c.handlePacket n env = c := by
      intro n
      unfold Client.handlePacket
      cases hs : c.connState <;> rw [hs] at hr <;> first | rfl | exact absurd rfl hr
    have hquiet : ∀ {c' : Client}, c'.log = c.log → c'.connState = c.connState →
        c'.pCon = c.pCon → ∃ flight', Takes c c' flight flight' ∧
          Stream c' conn (if up then [] else b2c) flight' := by
      intro c' hl hs hpc
      refine ⟨[],.none (.same hl) (List.nil_sublist _),h.silenced ?_ (Or.inl hpc)⟩
      rw [hs]
      exact Bool.eq_false_iff.mpr hr
    simp only [hidle]
    split
    · exact hquiet rfl rfl rfl
    · split
      · exact hquiet rfl rfl rfl
      · exact hquiet rfl rfl rfl

theorem keeps_taskSwitch (c : Client) (env : Env) (halive : c.connState ≠ .mqttDeleted) :
    Keeps (fun _ => True) c (c.taskSwitch env) := by
  have hclose : Keeps (fun _ => True) c (if c.pCon then c.espconnDisconnect else c) := by
    split
    · exact c.neutral_espconnDisconnect.keeps
    · exact (Neutral.refl c).keeps
  unfold Client.taskSwitch
  cases hs : c.connState with
  | mqttDeleted => exact absurd hs halive
  | tcpReconnect =>
    refine Neutral.keeps (Neutral.trans (c.neutral_mqttTcpclientDelete.trans
      (Client.neutral_mqttConnect _ env.dns)) ?_)
    exact .same rfl rfl rfl (Nat.le_refl _) (fun hr => absurd hr Bool.false_ne_true)
  | mqttDeleting => exact hclose
  | tcpDisconnecting => exact hclose
  | tcpReconnectDisconnecting => exact hclose
  | tcpDisconnected => exact c.neutral_mqttTcpclientDelete.keeps
  | mqttKeepaliveSend =>
    exact (c.neutral_mqttSendKeepalive env.sendOk (by rw [hs]; rfl) fun _ _ => trivial).keeps
  | mqttData => exact c.keeps_taskData env
  | _ => exact (Neutral.refl c).keeps

theorem deleted (h : Stream c conn b2c flight) (hup : up = true → conn = false)
    (habort : .abort ∈ newActions c c.mqttClientDelete → up = true) :
    Stream c.mqttClientDelete conn (if up then [] else b2c) [] := by
  refine h.silenced rfl ?_
  cases hp : c.pCon with
  | true =>
    refine Or.inr (h.gone hup fun _ => habort ?_)
    have hlog : c.mqttClientDelete.log = c.log ++ [.abort] := by
      simp [Client.mqttClientDelete,Client.mqttTcpclientDelete,Client.emit,hp]
    rw [newActions_eq hlog]
    exact List.mem_singleton_self _
  | false => exact Or.inl (by simp [Client.mqttClientDelete,hp])

theorem task (h : Stream c conn b2c flight) {packets : List (List UInt8)} (hn : Numbered c packets)
    (env : Env) (hup : up = true → conn = false)
    (hgive : ∀ a ∈ newActions c (c.mqttTask env), a = .abort ∨ a = .disconnect → up = true) :
    ∃ flight', Takes c (c.mqttTask env) flight flight' ∧
      Stream (c.mqttTask env) conn (if up then [] else b2c) flight' := by
  have hkept : ∀ {c' : Client}, Keeps (fun _ => True) c c' → Adds Mild c c' →
      (.abort ∈ newActions c c' → up = true) →
      ∃ flight', Takes c c' flight flight' ∧ Stream c' conn (if up then [] else b2c) flight' := by
    intro c' hk hm ha
    obtain ⟨flight',hs,hstream⟩ := h.kept hk hup ha
    exact ⟨flight',.none hm hs,hstream⟩
  unfold Client.mqttTask at hgive ⊢
  split at hgive
  · rename_i ha
    rw [if_pos ha]
    exact hkept (Neutral.refl c).keeps (.refl c) fun hm => hgive _ hm (Or.inl rfl)
  rename_i ha
  rw [if_neg ha]
  split at hgive
  · rename_i hr
    rw [if_pos hr]
    rw [Client.mqttTcpclientRecv,if_pos rfl] at hgive ⊢
    exact h.process env hup hgive
  rename_i hr
  rw [if_neg hr]
  by_cases halive : c.connState = .mqttDeleted
  · have hswitch : c.taskSwitch env = c.mqttClientDelete := by simp [Client.taskSwitch,halive]
    rw [hswitch] at hgive ⊢
    exact ⟨[],.none (mild_mqttClientDelete c) (List.nil_sublist _),
      h.deleted hup fun hm => hgive _ hm (Or.inl rfl)⟩
  · exact hkept (keeps_taskSwitch c env halive) (mild_taskSwitch hn env)
      fun hm => hgive _ hm (Or.inl rfl)

theorem discon (h : Stream c conn b2c flight) (env : Env) (hconn : conn = false) :
    Stream (c.mqttTcpclientDisconCb env) conn [] [] := by
  have hdeaf : (c.mqttTcpclientDisconCb env).connState.receiving = false := by
    obtain ⟨_,htame,_⟩ := (Client.neutral_invoke (P := fun _ => True) { c with
      inBuffer := [], isWaitingForAck := false, pendingMsgId := 0, pendingMsgType := 0
      sendTimeout := 0, isWaitingForPingresp := false, pingrespTimeout := 0
      publishSendCallbackPending := false
      connState := Client.disconnectedState c.connState } .disconnected env.calls)
    rw [← Bool.not_eq_true]
    intro hr
    have hstate := htame.receiving hr
    cases hs : c.connState <;> simp [hs,Client.disconnectedState,ConnState.receiving] at hstate
  have hstream : Stream (c.mqttTcpclientDisconCb env) conn
      (if (true : Bool) then [] else b2c) [] := h.silenced hdeaf (Or.inr ⟨hconn,rfl⟩)
  exact hstream

theorem event (h : Stream c conn b2c flight) {packets : List (List UInt8)} (hn : Numbered c packets)
    (e : Event) (hown : Session.fromBroker e = false)
    (hup : givesUp e (newActions c (next c e)) = true → conn = false) :
    ∃ flight', Takes c (next c e) flight flight' ∧
      Stream (next c e) conn (if givesUp e (newActions c (next c e)) then [] else b2c) flight' := by
  have hgive : ∀ a ∈ newActions c (next c e), a = .abort ∨ a = .disconnect →
      givesUp e (newActions c (next c e)) = true := fun a hm ha => givesUp_of_mem hm ha
  have hneutral : Neutral (fun _ => True) c (next c e) → Adds Mild c (next c e) →
      ∃ flight', Takes c (next c e) flight flight' ∧
        Stream (next c e) conn (if givesUp e (newActions c (next c e)) then [] else b2c) flight' := by
    intro hk hm
    obtain ⟨flight',hs,hstream⟩ := h.kept hk.keeps hup fun ha => hgive _ ha (Or.inl rfl)
    exact ⟨flight',.none hm hs,hstream⟩
  cases e with
  | api call => exact hneutral (c.neutral_runCall call) (mild_runCall c call)
  | task env =>
    have hposted : Stream { c with posted := c.posted-1 } conn b2c flight :=
      ⟨h.framed,h.bytes,h.deaf,h.alloc,h.link⟩
    have hn' : Numbered { c with posted := c.posted-1 } packets :=
      ⟨hn.represents,hn.bufferLength_eq,hn.counter_le,hn.queueable⟩
    obtain ⟨flight',ht,hstream⟩ := hposted.task hn' env hup hgive
    exact ⟨flight',ht.of_log rfl,hstream⟩
  | tick env => exact hneutral (c.neutral_mqttTimer env) (mild_mqttTimer c env)
  | recv pdata env => exact absurd (show true = false from hown) (by decide)
  | sent env =>
    exact hneutral (c.neutral_mqttTcpclientSentCb env) (mild_mqttTcpclientSentCb c env)
  | discon env =>
    exact ⟨[],.none (mild_mqttTcpclientDisconCb c env) (List.nil_sublist _),h.discon env (hup rfl)⟩
  | recon =>
    refine hneutral ?_ (.same rfl)
    exact .same rfl rfl rfl (Nat.le_succ _) (fun hr => absurd hr Bool.false_ne_true)
  | connected env => exact absurd (show true = false from hown) (by decide)
  | dnsFound addr => exact hneutral (c.neutral_mqttDnsFound addr) (mild_mqttDnsFound c addr)

theorem deliver (h : Stream c conn b2c flight) (k : ℕ) (env : Env)
    (hup : givesUp (.recv (b2c.take k) env)
      (newActions c (c.mqttTcpclientRecv (b2c.take k) env)) = true → conn = false) :
    ∃ flight', Takes c (c.mqttTcpclientRecv (b2c.take k) env) flight flight' ∧
      Stream (c.mqttTcpclientRecv (b2c.take k) env) conn
        (if givesUp (.recv (b2c.take k) env)
          (newActions c (c.mqttTcpclientRecv (b2c.take k) env)) then [] else b2c.drop k) flight' := by
  have harrive : Stream { c with inBuffer := c.inBuffer ++ b2c.take k } conn (b2c.drop k) flight := by
    refine ⟨h.framed,fun hr => ?_,h.deaf,h.alloc,fun hor => h.link (hor.imp_right fun hne hnil => ?_)⟩
    · obtain ⟨lost,hlost,hnone⟩ := h.bytes hr
      refine ⟨lost,?_,hnone⟩
      show c.inBuffer ++ b2c.take k ++ b2c.drop k ++ lost = _
      rw [List.append_assoc c.inBuffer,List.take_append_drop]
      exact hlost
    · exact hne (by rw [hnil,List.drop_nil])
  have hgive : ∀ a ∈ newActions c (c.mqttTcpclientRecv (b2c.take k) env),
      a = .abort ∨ a = .disconnect → givesUp (.recv (b2c.take k) env)
        (newActions c (c.mqttTcpclientRecv (b2c.take k) env)) = true :=
    fun a hm ha => givesUp_of_mem hm ha
  generalize givesUp (.recv (b2c.take k) env)
    (newActions c (c.mqttTcpclientRecv (b2c.take k) env)) = up at hup hgive ⊢
  have hdropped : ∀ {d : Client}, d.log = c.log → d.connState = c.connState →
      d.allocated = c.allocated → d.pCon = c.pCon →
      (c.connState.receiving = true → d.inBuffer = []) →
      (.disconnect ∈ newActions c d.dropConnection → up = true) →
      ∃ flight', Takes c d.dropConnection flight flight' ∧
        Stream d.dropConnection conn (if up then [] else b2c.drop k) flight' := by
    intro d hl hs ha hp hb hd
    obtain ⟨hmild,hstream⟩ := harrive.dropped hl hs ha hp hb hup hd
    exact ⟨[],.none (hmild.after rfl) (List.nil_sublist _),hstream⟩
  unfold Client.mqttTcpclientRecv at hgive ⊢
  split at hgive
  · rename_i hnil
    rw [if_pos hnil]
    rw [hnil,List.append_nil] at harrive
    exact harrive.process env hup hgive
  rename_i hne
  rw [if_neg hne]
  split at hgive
  · rename_i hover
    rw [if_pos hover]
    refine hdropped rfl rfl rfl rfl (fun _ => rfl) fun hm => hgive _ hm (Or.inr rfl)
  rename_i hover
  rw [if_neg hover]
  split at hgive
  · rename_i ha
    rw [if_pos ha]
    exact hdropped rfl rfl rfl rfl (fun hr => absurd (ha.symm.trans (h.alloc hr)) (by decide))
      fun hm => hgive _ hm (Or.inr rfl)
  · rename_i ha
    rw [if_neg ha]
    obtain ⟨flight',ht,hstream⟩ := harrive.process env hup hgive
    exact ⟨flight',ht.of_log rfl,hstream⟩

theorem connect (c : Client) (env : Env) (hp : c.pCon = true) (hb : c.inBuffer = []) :
    Stream (c.mqttTcpclientConnectCb env) true [] [] := by
  obtain ⟨hbuf,hpc,halloc,_⟩ := connectCb_facts c env
  refine ⟨fun _ hm => absurd hm List.not_mem_nil,fun _ => ⟨[],?_,fun _ => rfl⟩,fun _ => rfl,halloc,
    fun _ => hpc.trans hp⟩
  rw [hbuf,hb]
  rfl

theorem send (h : Stream c true b2c flight) {packet : List UInt8} (hf : Framed packet) :
    ∃ flight', flight'.Sublist (flight ++ [packet]) ∧ Stream c true (b2c ++ packet) flight' := by
  have hp := h.link (Or.inl rfl)
  by_cases hr : c.connState.receiving = true
  · refine ⟨flight ++ [packet],List.Sublist.refl _,fun p hm => ?_,fun _ => ?_,
      fun hd => absurd (hr.symm.trans hd) (by decide),h.alloc,fun _ => hp⟩
    · rcases List.mem_append.mp hm with hm | hm
      · exact h.framed p hm
      · rw [List.mem_singleton.mp hm]
        exact hf
    · obtain ⟨lost,hlost,hnone⟩ := h.bytes hr
      obtain rfl := hnone rfl
      refine ⟨[],?_,fun _ => rfl⟩
      rw [List.append_nil] at hlost
      simp [← hlost]
  · exact ⟨[],List.nil_sublist _,fun _ hm => absurd hm List.not_mem_nil,fun hr' => absurd hr' hr,
      fun _ => rfl,h.alloc,fun _ => hp⟩

theorem lose (h : Stream c true b2c flight) (m : ℕ) : Stream c false (b2c.take m) flight where
  framed := h.framed
  bytes hr := by
    obtain ⟨lost,hlost,_⟩ := h.bytes hr
    refine ⟨b2c.drop m ++ lost,?_,fun hc => absurd hc Bool.false_ne_true⟩
    rw [← hlost,List.append_assoc,List.append_assoc,← List.append_assoc (b2c.take m),
      List.take_append_drop]
  deaf := h.deaf
  alloc := h.alloc
  link _ := h.link (Or.inl rfl)

end Stream

end MqttInbound
end MeterLogger
