import Mathlib.Tactic.Ring
import MeterLogger.MqttFrames

/-!
# Reassembly of received packets

The receive callback appends a chunk to the receive buffer and processes one packet; what
stays complete in the buffer is left to a posted `MQTT_Task`. For every way of cutting a
stream of packets into chunks, and every order of callbacks and tasks that leaves the
connection up, the packets handled are those of the stream.
-/

namespace MeterLogger
namespace MqttClient

open MessageQueue MqttMessage Runs

/-- A Remaining Length field of at most `k` bytes: seven bits a byte, lowest first, with the
top bit set on all bytes but the last. -/
inductive LengthField : ℕ → List UInt8 → ℕ → Prop
  | last {k : ℕ} (b : UInt8) (hb : b.toNat < 128) : LengthField (k+1) [b] b.toNat
  | more {k n : ℕ} {field : List UInt8} (b : UInt8) (hb : 128 ≤ b.toNat)
      (h : LengthField k field n) : LengthField (k+1) (b::field) (b.toNat%128+128*n)

/-- A packet whose length field gives the number of bytes behind it, and which fits the
receive buffer. -/
structure WellFramed (packet : List UInt8) : Prop where
  shape : ∃ first field body, packet = first::(field ++ body) ∧ LengthField 4 field body.length
  bounded : packet.length ≤ mqttBufSize

theorem LengthField.length_pos {k n : ℕ} {field : List UInt8} (h : LengthField k field n) :
    0 < field.length := by
  cases h <;> simp

theorem prefix_at {buffer tail : List UInt8} {b : UInt8} {i : ℕ}
    (h : buffer.drop i <+: b::tail) (hi : i < buffer.length) :
    buffer.getD i 0 = b ∧ buffer.drop (i+1) <+: tail := by
  rw [List.drop_eq_getElem_cons hi,List.cons_prefix_cons] at h
  exact ⟨by simp [List.getD,hi,h.1],h.2⟩

/-- The loop reads a length field that is there and stops at the end of a partial one. -/
theorem packetLengthLoop_field {k n : ℕ} {field : List UInt8} (h : LengthField k field n)
    {buffer tail : List UInt8} {i : ℕ} (hpre : buffer.drop i <+: field ++ tail)
    (remaining multiplier : ℕ) :
    packetLengthLoop buffer buffer.length k i remaining multiplier =
      if buffer.length < i+field.length then 0
      else ((i+field.length+(remaining+n*multiplier) : ℕ) : ℤ) := by
  induction h generalizing i remaining multiplier with
  | last b hb =>
    by_cases hi : i < buffer.length
    · obtain ⟨hget,_⟩ := prefix_at hpre hi
      rw [packetLengthLoop_succ _ _ _ _ _ _ b.toNat (by rw [hget]) hi,if_pos hb,
        Nat.mod_eq_of_lt hb,if_neg (by simp; omega)]
      rfl
    · rw [packetLengthLoop,if_pos (by omega),if_pos (by simp; omega)]
  | more b hb hfield ih =>
    by_cases hi : i < buffer.length
    · obtain ⟨hget,hrest⟩ := prefix_at hpre hi
      rw [packetLengthLoop_succ _ _ _ _ _ _ b.toNat (by rw [hget]) hi,if_neg (by omega),ih hrest]
      simp only [List.length_cons]
      split
      · rw [if_pos (by omega)]
      · rw [if_neg (by omega)]
        congr 1
        ring
    · rw [packetLengthLoop,if_pos (by omega),if_pos (by simp; omega)]

/-- What `mqtt_get_packet_length` says of a buffer that starts with a part of a packet, also of
one that does not fit the buffer. -/
theorem packetLength_field {first : UInt8} {field body rest buffer : List UInt8}
    (hfield : LengthField 4 field body.length)
    (h : buffer <+: first::(field ++ body) ++ rest) :
    mqttGetPacketLength buffer buffer.length = (first::(field ++ body)).length ∨
      (mqttGetPacketLength buffer buffer.length = 0 ∧
        buffer.length < (first::(field ++ body)).length) := by
  have hpos := hfield.length_pos
  rw [mqttGetPacketLength]
  by_cases hl : buffer.length < 2
  · rw [if_pos hl]
    refine Or.inr ⟨rfl,?_⟩
    simp only [List.length_cons,List.length_append]
    omega
  · have hdrop : buffer.drop 1 <+: field ++ (body ++ rest) := by
      obtain ⟨b,buffer,rfl⟩ : ∃ b bs, buffer = b::bs := by
        cases buffer with
        | nil => simp at hl
        | cons b bs => exact ⟨b,bs,rfl⟩
      rw [List.cons_append,List.cons_prefix_cons,List.append_assoc] at h
      exact h.2
    rw [if_neg hl,packetLengthLoop_field hfield hdrop]
    split
    · refine Or.inr ⟨rfl,?_⟩
      simp only [List.length_cons,List.length_append]
      omega
    · left
      simp only [List.length_cons,List.length_append]
      push_cast
      ring

theorem packetLength_prefix {packet rest buffer : List UInt8} (hw : WellFramed packet)
    (h : buffer <+: packet ++ rest) :
    mqttGetPacketLength buffer buffer.length = packet.length ∨
      (mqttGetPacketLength buffer buffer.length = 0 ∧ buffer.length < packet.length) := by
  obtain ⟨first,field,body,rfl,hfield⟩ := hw.shape
  exact packetLength_field hfield h

theorem WellFramed.length_pos {packet : List UInt8} (hw : WellFramed packet) : 0 < packet.length := by
  obtain ⟨first,field,body,rfl,_⟩ := hw.shape
  simp

/-- The next packet of a buffer filled from a stream is the next one of the stream. -/
theorem nextPacket_append {packet rest buffer : List UInt8} (hw : WellFramed packet)
    (h : buffer <+: packet ++ rest) :
    nextPacket buffer = if packet.length ≤ buffer.length then some packet else none := by
  have hpos := hw.length_pos
  have hbound := hw.bounded
  rw [nextPacket]
  rcases packetLength_prefix hw h with hl | ⟨hl,hlt⟩
  · rw [hl]
    by_cases hle : packet.length ≤ buffer.length
    · rw [if_pos ⟨by omega,by omega,by omega⟩,if_pos hle,Int.toNat_natCast]
      have hb := List.prefix_of_prefix_length_le (List.prefix_append packet rest) h hle
      rw [← List.prefix_iff_eq_take.mp hb]
    · rw [if_neg (by omega),if_neg hle]
  · rw [hl,if_neg (by omega),if_neg (by omega)]

/-- The client is past CONNACK and connected. -/
structure Connected (c : Client) : Prop where
  state : c.connState = .mqttData ∨ c.connState = .mqttKeepaliveSend
  pCon_eq : c.pCon = true
  allocated_eq : c.allocated = true

def recvData : Event → List UInt8
  | .recv pdata _ => pdata
  | _ => []

/-- A step that leaves the connection up: no handler fails a send or tears the connection
down, and what is delivered fits the receive buffer. -/
structure Calm (c : Client) (e : Event) (c' : Client) : Prop where
  step : Step c e c'
  up : c'.connState = .mqttData ∨ c'.connState = .mqttKeepaliveSend
  noAbort : .abort ∉ newActions c c'
  fits : c.inBuffer.length+(recvData e).length ≤ mqttBufSize

/-- After `arrived` was delivered, the packets handled since the log was `base` are the
first of the stream and the rest of the bytes is in the receive buffer. -/
structure Received (base : List Action) (stream : List (List UInt8)) (arrived : List UInt8)
    (c : Client) : Prop where
  connected : Connected c
  split : ∃ new ps, c.log = base ++ new ∧ stream = handledPackets new ++ ps ∧
    arrived = (handledPackets new).flatten ++ c.inBuffer

/-- A complete packet in the receive buffer has a task posted. -/
def Attended (c : Client) : Prop := nextPacket c.inBuffer ≠ none → 0 < c.posted

theorem receiving_of_up {c : Client}
    (h : c.connState = .mqttData ∨ c.connState = .mqttKeepaliveSend) :
    c.connState.receiving = true := by
  rcases h with h | h
  · rw [h]; rfl
  · rw [h]; rfl

/-- A part of the client that keeps the receive buffer keeps what was received. -/
theorem Received.of_keeps {base : List Action} {stream : List (List UInt8)} {arrived : List UInt8} {c c' : Client}
    {P : List UInt8 → Prop} (h : Received base stream arrived c) (hk : Keeps P c c')
    (hup : c'.connState = .mqttData ∨ c'.connState = .mqttKeepaliveSend)
    (hab : .abort ∉ newActions c c') :
    Received base stream arrived c' ∧ c'.inBuffer = c.inBuffer ∧ c.posted ≤ c'.posted := by
  obtain ⟨new,htame,hw⟩ := hk
  rw [newActions_eq htame.log_eq] at hab
  have hwire : wire c' = wire c := hw.resolve_right fun ha => hab (ha.2 h.connected.pCon_eq)
  simp only [wire,Prod.mk.injEq] at hwire
  obtain ⟨hbuf,hpc,hal⟩ := hwire
  obtain ⟨past,ps,hlog,hstream,harr⟩ := h.split
  have hsame : handledPackets (past ++ new) = handledPackets past := by
    rw [handledPackets_append,htame.handled_eq,List.append_nil]
  exact ⟨⟨⟨hup,hpc.trans h.connected.pCon_eq,hal.trans h.connected.allocated_eq⟩,past ++ new,ps,
    by rw [htame.log_eq,hlog,List.append_assoc],by rw [hsame,hstream],by rw [hsame,hbuf,harr]⟩,
    hbuf,htame.posted_le⟩

namespace Client

/-- What `processPacket` does with a buffer filled from a stream of packets: it handles the
first packet if it is complete. -/
theorem processPacket_cases {c : Client} (hc : Connected c) {packet rest : List UInt8}
    (hw : WellFramed packet) (hpre : c.inBuffer <+: packet ++ rest) (env : Env) :
    (c.inBuffer.length < packet.length ∧ c.processPacket env = c.post) ∨
      ∃ tail, c.inBuffer = packet ++ tail ∧
        let d := c.handleMessage packet env
        c.processPacket env =
          if d.connState = .tcpReconnectDisconnecting then { d with inBuffer := [] }
          else if d.inBuffer.length ≠ c.inBuffer.length ∨ d.allocated = false then
            { d with inBuffer := [] }
          else post { d with inBuffer := d.inBuffer.drop packet.length } := by
  have hpos := hw.length_pos
  have hbound := hw.bounded
  unfold processPacket
  by_cases he : c.inBuffer = []
  · left
    rw [if_pos he,he]
    exact ⟨hpos,rfl⟩
  rw [if_neg he]
  simp only
  rcases packetLength_prefix hw hpre with hl | ⟨hl,hlt⟩
  · rw [hl,if_neg (by omega)]
    by_cases hle : packet.length ≤ c.inBuffer.length
    · right
      obtain ⟨tail,htail⟩ := List.prefix_of_prefix_length_le (List.prefix_append packet rest) hpre hle
      refine ⟨tail,htail.symm,?_⟩
      have htake : c.inBuffer.take packet.length = packet := by rw [← htail,List.take_left']; rfl
      have hhandle : c.handlePacket packet.length env = c.handleMessage packet env := by
        unfold handlePacket
        rcases hc.state with hs | hs
        · simp only [hs,htake]
        · simp only [hs,htake]
      rw [if_pos (by omega),Int.toNat_natCast,hhandle]
    · left
      rw [if_neg (by omega)]
      exact ⟨by omega,rfl⟩
  · left
    rw [hl,if_neg (by omega),if_neg (by omega)]
    exact ⟨hlt,rfl⟩

theorem processPacket_nil {c : Client} (h : c.inBuffer = []) (env : Env) :
    c.processPacket env = c.post := by
  rw [processPacket,if_pos h]

end Client

theorem Received.process {base : List Action} {stream : List (List UInt8)} {arrived : List UInt8} {c : Client}
    (h : Received base stream arrived c) (hw : ∀ p ∈ stream, WellFramed p)
    (hpre : arrived <+: stream.flatten) {env : Env}
    (hup : (c.processPacket env).connState = .mqttData ∨
      (c.processPacket env).connState = .mqttKeepaliveSend)
    (hab : .abort ∉ newActions c (c.processPacket env)) :
    Received base stream arrived (c.processPacket env) ∧ 0 < (c.processPacket env).posted ∧
      handledPackets (newActions c (c.processPacket env)) = (nextPacket c.inBuffer).toList := by
  have hpost : Received base stream arrived c.post ∧ 0 < c.post.posted ∧
      handledPackets (newActions c c.post) = [] :=
    ⟨⟨⟨h.connected.state,h.connected.pCon_eq,h.connected.allocated_eq⟩,h.split⟩,
      Nat.succ_pos _,by simp [newActions,Client.post,handledPackets]⟩
  obtain ⟨past,ps,hpast,hstream,harr⟩ := h.split
  have hbuf : c.inBuffer <+: ps.flatten := by
    rw [hstream,harr,List.flatten_append] at hpre
    exact (List.prefix_append_right_inj _).mp hpre
  cases ps with
  | nil =>
    have hnil : c.inBuffer = [] := List.prefix_nil.mp hbuf
    rw [Client.processPacket_nil hnil,hnil]
    exact hpost
  | cons packet ps =>
    have hwf := hw packet (by rw [hstream]; simp)
    rcases Client.processPacket_cases h.connected hwf hbuf env with ⟨hlt,heq⟩ | ⟨tail,htail,heq⟩
    · rw [heq,nextPacket_append hwf hbuf,if_neg (by omega)]
      exact hpost
    · rw [heq] at hup hab ⊢
      have hnext : nextPacket c.inBuffer = some packet := by
        rw [nextPacket_append hwf hbuf,if_pos (by rw [htail]; simp)]
      obtain ⟨new,htame,hwire⟩ := c.keeps_handleMessage packet env
      have hlog : (c.handleMessage packet env).log = c.log ++ (.handled packet::new) := by
        rw [htame.log_eq]
        simp [Client.emit]
      have hnew : (c.handleMessage packet env).log.drop c.log.length = .handled packet::new :=
        newActions_eq hlog
      have hkept : .abort ∉ (c.handleMessage packet env).log.drop c.log.length →
          wire (c.handleMessage packet env) = wire c := fun hn => hwire.resolve_right fun ha =>
        hn (by rw [hnew]; exact List.mem_cons_of_mem _ (ha.2 h.connected.pCon_eq))
      split at hup
      · rcases hup with hup | hup
        all_goals
          rename_i hdown
          rw [show (c.handleMessage packet env).connState = _ from hup] at hdown
          exact absurd hdown (by decide)
      · split at hup
        · rename_i hdown hlost
          rw [if_neg hdown,if_pos hlost] at hab
          have hsame := hkept hab
          simp only [wire,Prod.mk.injEq] at hsame
          rcases hlost with hlost | hlost
          · exact absurd (by rw [hsame.1]) hlost
          · exact absurd (hlost.symm.trans (hsame.2.2.trans h.connected.allocated_eq))
              Bool.false_ne_true
        · rename_i hdown hlost
          rw [if_neg hdown,if_neg hlost] at hab ⊢
          have hsame := hkept hab
          simp only [wire,Prod.mk.injEq] at hsame
          have hrest : (c.handleMessage packet env).inBuffer.drop packet.length = tail := by
            rw [hsame.1,htail,List.drop_left']; rfl
          have hmore : handledPackets (past ++ .handled packet::new) =
              handledPackets past ++ [packet] := by
            rw [handledPackets_append,
              show handledPackets (.handled packet::new) = packet::handledPackets new from rfl,
              htame.handled_eq]
          refine ⟨⟨⟨hup,hsame.2.1.trans h.connected.pCon_eq,
            hsame.2.2.trans h.connected.allocated_eq⟩,past ++ .handled packet::new,ps,?_,?_,?_⟩,
            Nat.succ_pos _,?_⟩
          · show (c.handleMessage packet env).log = _
            rw [hlog,hpast,List.append_assoc]
          · rw [hmore,hstream]
            simp
          · show arrived = _ ++ (c.handleMessage packet env).inBuffer.drop packet.length
            rw [hrest,hmore,harr,htail]
            simp
          · show handledPackets ((c.handleMessage packet env).log.drop c.log.length) = _
            rw [hnew,hnext]
            simpa [handledPackets,handledBy] using htame.handled_eq

theorem taskReceives_iff {c : Client} (hc : Connected c) :
    c.taskReceives = true ↔ nextPacket c.inBuffer ≠ none := by
  have hstate : c.connState ≠ .tcpReconnectDisconnecting := by
    rcases hc.state with hs | hs
    · rw [hs]; decide
    · rw [hs]; decide
  have hne : 0 < mqttGetPacketLength c.inBuffer c.inBuffer.length → c.inBuffer ≠ [] := by
    intro hl he
    rw [he] at hl
    exact absurd hl (by decide)
  simp only [Client.taskReceives,nextPacket,decide_eq_true_eq,ne_eq,hstate,not_false_eq_true,
    hc.pCon_eq,true_and]
  split
  · rename_i hcomplete
    exact iff_of_true ⟨hne hcomplete.1,hcomplete⟩ (by simp)
  · rename_i hcomplete
    exact iff_of_false (fun h => hcomplete h.2) (by simp)

theorem not_up {c : Client} (h : c.connState.receiving ≠ true)
    (hup : c.connState = .mqttData ∨ c.connState = .mqttKeepaliveSend) : False :=
  h (receiving_of_up hup)

/-- A task handles the packet that is complete in the buffer, and only that one. -/
theorem Received.task {base : List Action} {stream : List (List UInt8)} {arrived : List UInt8} {c c' : Client}
    (h : Received base stream arrived c) (hw : ∀ p ∈ stream, WellFramed p)
    (hpre : arrived <+: stream.flatten) {env : Env} (hcalm : Calm c (.task env) c') :
    Received base stream arrived c' ∧ Attended c' ∧
      handledPackets (newActions c c') = (nextPacket c.inBuffer).toList := by
  have hup := hcalm.up
  have hab := hcalm.noAbort
  obtain ⟨_,rfl⟩ := hcalm.step
  let d : Client := { c with posted := c.posted-1 }
  have hd : Received base stream arrived d :=
    ⟨⟨h.connected.state,h.connected.pCon_eq,h.connected.allocated_eq⟩,h.split⟩
  have hnext : next c (.task env) = d.mqttTask env := rfl
  have htask : d.mqttTask env =
      if d.taskReceives then d.processPacket env else d.taskSwitch env := by
    rw [Client.mqttTask,if_neg (by rw [hd.connected.allocated_eq]; decide),
      Client.mqttTcpclientRecv,if_pos rfl]
  rw [hnext,htask] at hup hab ⊢
  by_cases hr : d.taskReceives = true
  · rw [if_pos hr] at hup hab ⊢
    obtain ⟨hrec,hposted,hhandled⟩ := hd.process hw hpre hup hab
    exact ⟨hrec,fun _ => hposted,hhandled⟩
  · rw [if_neg hr] at hup hab ⊢
    have hnone : nextPacket c.inBuffer = none := by
      by_contra hn
      exact hr ((taskReceives_iff hd.connected).mpr hn)
    have hk : Keeps (fun _ => True) d (d.taskSwitch env) := by
      unfold Client.taskSwitch
      rcases hd.connected.state with hs | hs
      · simp only [hs]
        exact d.keeps_taskData env
      · simp only [hs]
        exact (d.neutral_mqttSendKeepalive env.sendOk (by rw [hs]; rfl) fun _ _ => trivial).keeps
    obtain ⟨hrec,hbuf,_⟩ := hd.of_keeps hk hup hab
    have hsame : (d.taskSwitch env).inBuffer = c.inBuffer := hbuf
    refine ⟨hrec,fun hn => absurd (by rw [hsame]; exact hnone) hn,?_⟩
    obtain ⟨new,htame,_⟩ := hk
    have hlog : (d.taskSwitch env).log = c.log ++ new := htame.log_eq
    rw [newActions_eq hlog,htame.handled_eq,hnone]
    rfl

theorem Received.step {base : List Action} {stream : List (List UInt8)} {arrived : List UInt8} {c c' : Client}
    {e : Event} (h : Received base stream arrived c) (hatt : Attended c)
    (hw : ∀ p ∈ stream, WellFramed p) (hpre : arrived ++ recvData e <+: stream.flatten)
    (hcalm : Calm c e c') : Received base stream (arrived ++ recvData e) c' ∧ Attended c' := by
  have hkeeps : recvData e = [] → Keeps (fun _ => True) c c' →
      Received base stream (arrived ++ recvData e) c' ∧ Attended c' := by
    intro hnil hk
    obtain ⟨hrec,hbuf,hposted⟩ := h.of_keeps hk hcalm.up hcalm.noAbort
    refine ⟨by rwa [hnil,List.append_nil],fun hn => ?_⟩
    rw [hbuf] at hn
    exact (hatt hn).trans_le hposted
  have hup := hcalm.up
  have hab := hcalm.noAbort
  have hnext := hcalm.step.2
  cases e with
  | api call => exact hkeeps rfl (hnext ▸ (c.neutral_runCall call).keeps)
  | task env =>
    have hnil : arrived ++ recvData (.task env) = arrived := List.append_nil arrived
    rw [hnil] at hpre ⊢
    obtain ⟨hrec,hatt',_⟩ := h.task hw hpre hcalm
    exact ⟨hrec,hatt'⟩
  | tick env => exact hkeeps rfl (hnext ▸ (c.neutral_mqttTimer env).keeps)
  | recv pdata env =>
    subst hnext
    let d : Client := { c with inBuffer := c.inBuffer ++ pdata }
    have hd : Received base stream (arrived ++ pdata) d := by
      obtain ⟨past,ps,hlog,hstream,harr⟩ := h.split
      exact ⟨⟨h.connected.state,h.connected.pCon_eq,h.connected.allocated_eq⟩,past,ps,hlog,hstream,
        by rw [harr,List.append_assoc]⟩
    have hnext : next c (.recv pdata env) = d.processPacket env := by
      show c.mqttTcpclientRecv pdata env = _
      rw [Client.mqttTcpclientRecv]
      by_cases hnil : pdata = []
      · subst hnil
        rw [if_pos rfl]
        simp only [d,List.append_nil]
      · have hfits : c.inBuffer.length+pdata.length ≤ mqttBufSize := hcalm.fits
        rw [if_neg hnil,if_neg (by omega),if_neg (by rw [h.connected.allocated_eq]; decide)]
    rw [hnext] at hup hab ⊢
    obtain ⟨hrec,hposted,_⟩ := hd.process hw hpre hup hab
    exact ⟨hrec,fun _ => hposted⟩
  | sent env => exact hkeeps rfl (hnext ▸ (c.neutral_mqttTcpclientSentCb env).keeps)
  | discon env =>
    -- the callback leaves a state of disconnection whatever the application does in it
    subst hnext
    refine (not_up (fun hr => ?_) hup).elim
    obtain ⟨_,htame,_⟩ := Client.neutral_invoke (P := fun _ => True) { c with
      inBuffer := [], isWaitingForAck := false, pendingMsgId := 0, pendingMsgType := 0
      sendTimeout := 0, isWaitingForPingresp := false, pingrespTimeout := 0
      publishSendCallbackPending := false, connState := Client.disconnectedState c.connState }
      .disconnected env.calls
    have hdown := htame.receiving hr
    revert hdown
    show (Client.disconnectedState c.connState).receiving ≠ true
    cases c.connState <;> decide
  | recon =>
    subst hnext
    exact absurd (receiving_of_up hup) Bool.false_ne_true
  | connected env =>
    subst hnext
    have hstate : (c.mqttTcpclientConnectCb env).connState = .tcpReconnectDisconnecting ∨
        (c.mqttTcpclientConnectCb env).connState = .mqttConnectSending := by
      unfold Client.mqttTcpclientConnectCb Client.connectSent
      split
      · exact Or.inl rfl
      · simp only
        split
        · exact Or.inl rfl
        · split
          · exact Or.inr rfl
          · exact Or.inl rfl
    have hup : (c.mqttTcpclientConnectCb env).connState = .mqttData ∨
        (c.mqttTcpclientConnectCb env).connState = .mqttKeepaliveSend := hup
    rcases hstate with hs | hs
    · rw [hs] at hup
      exact absurd hup (by decide)
    · rw [hs] at hup
      exact absurd hup (by decide)
  | dnsFound addr => exact hkeeps rfl (hnext ▸ (c.neutral_mqttDnsFound addr).keeps)

def delivered (es : List Event) : List UInt8 := es.flatMap recvData

theorem Received.run {base : List Action} {stream : List (List UInt8)} {arrived : List UInt8} {c c' : Client}
    {es : List Event} (h : Received base stream arrived c) (hatt : Attended c)
    (hw : ∀ p ∈ stream, WellFramed p) (hpre : arrived ++ delivered es <+: stream.flatten)
    (hrun : Run Calm c es c') : Received base stream (arrived ++ delivered es) c' ∧ Attended c' := by
  induction hrun generalizing arrived with
  | nil => simpa [delivered] using ⟨h,hatt⟩
  | cons hstep _ ih =>
    rename_i e es _
    have hsplit : delivered (e::es) = recvData e ++ delivered es := rfl
    rw [hsplit,← List.append_assoc] at hpre ⊢
    obtain ⟨h',hatt'⟩ := h.step hatt hw ((List.prefix_append _ _).trans hpre) hstep
    exact ih h' hatt' hpre

/-- For every stream of well-framed packets, every way of delivering it (the first bytes may
already be in the receive buffer) and every run that leaves the connection up: the packets
handled are the first of the stream, a complete packet in the buffer has a task posted
and the next task handles exactly it, and when everything has arrived and no task is
posted the whole stream has been handled. -/
theorem reassembly {stream : List (List UInt8)} (hw : ∀ p ∈ stream, WellFramed p)
    {c c' : Client} {es : List Event} (hc : Connected c) (hatt : Attended c)
    (hpre : c.inBuffer ++ delivered es <+: stream.flatten) (hrun : Run Calm c es c') :
    (∃ rest, stream = handledPackets (newActions c c') ++ rest) ∧
      (nextPacket c'.inBuffer ≠ none → 0 < c'.posted) ∧
      (∀ env c'', Calm c' (.task env) c'' →
        handledPackets (newActions c' c'') = (nextPacket c'.inBuffer).toList) ∧
      (c.inBuffer ++ delivered es = stream.flatten → c'.posted = 0 →
        handledPackets (newActions c c') = stream) := by
  have hstart : Received c.log stream c.inBuffer c := ⟨hc,[],stream,by simp,rfl,rfl⟩
  obtain ⟨hrec,hatt'⟩ := hstart.run hatt hw hpre hrun
  obtain ⟨new,ps,hlog,hstream,harr⟩ := hrec.split
  rw [newActions_eq hlog]
  refine ⟨⟨ps,hstream⟩,hatt',fun env c'' hcalm => (hrec.task hw hpre hcalm).2.2,fun hall hidle => ?_⟩
  -- what is left of the stream is in the buffer, so its first packet would be complete
  have hbuf : c'.inBuffer = ps.flatten := by
    rw [hall,hstream,List.flatten_append] at harr
    exact (List.append_cancel_left harr).symm
  cases ps with
  | nil => rw [hstream,List.append_nil]
  | cons packet ps =>
    have hwf := hw packet (by rw [hstream]; simp)
    have hpre' : c'.inBuffer <+: packet ++ ps.flatten := by
      rw [hbuf]
      exact List.prefix_refl _
    have hnext : nextPacket c'.inBuffer = some packet := by
      rw [nextPacket_append hwf hpre',if_pos (by rw [hbuf]; simp)]
    have hposted := hatt' (by rw [hnext]; simp)
    omega

/-- Two PINGRESP packets, cut behind the first byte. -/
theorem reassembly_two_packets :
    let c := connectAndPublish.foldl next exampleClient
    let c' := [.recv [0xD0] exampleEnv,.recv [0,0xD0,0] exampleEnv].foldl next c
    (∃ rest, [[0xD0,0],[0xD0,0]] = handledPackets (newActions c c') ++ rest) ∧
      (nextPacket c'.inBuffer ≠ none → 0 < c'.posted) := by
  let stream : List (List UInt8) := [[0xD0,0],[0xD0,0]]
  let c := connectAndPublish.foldl next exampleClient
  have hw : ∀ p ∈ stream, WellFramed p := by
    intro p hp
    have hp : p = [0xD0,0] := by simpa [stream] using hp
    subst hp
    exact ⟨⟨0xD0,[0],[],rfl,.last 0 (by decide)⟩,by decide⟩
  have hc : Connected c := ⟨Or.inl (by decide),by decide,by decide⟩
  have hatt : Attended c := fun _ => by decide
  have hrun : Run Calm c [.recv [0xD0] exampleEnv,.recv [0,0xD0,0] exampleEnv]
      ([.recv [0xD0] exampleEnv,.recv [0,0xD0,0] exampleEnv].foldl next c) := by
    have htwo : ∀ d : Client, [.recv [0xD0] exampleEnv,.recv [0,0xD0,0] exampleEnv].foldl next d =
        next (next d (.recv [0xD0] exampleEnv)) (.recv [0,0xD0,0] exampleEnv) := fun _ => rfl
    rw [htwo]
    refine .cons ⟨⟨trivial,rfl⟩,Or.inl (by decide),by decide,by decide⟩ ?_
    exact .single ⟨⟨trivial,rfl⟩,Or.inl (by decide),by decide,by decide⟩
  have hpre : c.inBuffer ++ delivered [.recv [0xD0] exampleEnv,.recv [0,0xD0,0] exampleEnv] <+:
      stream.flatten := by
    have hnil : c.inBuffer = [] := by decide
    rw [hnil]
    exact List.prefix_refl _
  have h := reassembly hw hc hatt hpre hrun
  exact ⟨h.1,h.2.1⟩

end MqttClient
end MeterLogger
