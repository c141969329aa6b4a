import MeterLogger.MqttDelivery

/-!
# Keepalive and queued pings

A PINGRESP has no packet id, so the client has to know which PINGREQ it answers: the automatic
one of the keepalive or one from the queue. Beside the client there is the connection as the
network stack sees it, with the PINGREQs sent on it and not answered.
-/

namespace MeterLogger
namespace MqttKeepalive

open MessageQueue MqttMessage MqttUtils MqttClient Runs

inductive Link
  | down
  | connecting
  | up
  deriving DecidableEq

/-- Where a PINGREQ comes from; a queued one has as its number how many packets left the queue
before it. -/
inductive Ping
  | automatic
  | queued (number : ℕ)
  deriving DecidableEq

/-- The connection and the PINGREQs on it that are not answered, oldest first. -/
structure Net where
  link : Link
  pings : List Ping
  deriving DecidableEq

/-- How many packets have left the queue. -/
def releases (c : Client) : ℕ := (released c.log).length

/-- What an action of the client means for the connection. A PINGREQ that is sent is `ping`.
`espconn_connect` is refused while there is a connection. -/
def observe (ping : Ping) (n : Net) : Action → Net
  | .connect _ => { n with link := if n.link = .down then .connecting else n.link }
  | .abort => ⟨.down,[]⟩
  | .send packet =>
    if mqttGetType packet = pingreqType then { n with pings := n.pings ++ [ping] } else n
  | .handled packet =>
    if mqttGetType packet = pingrespType then { n with pings := n.pings.tail } else n
  | _ => n

def watch (ping : Ping) (n : Net) (new : List Action) : Net := new.foldl (observe ping) n

def pingOf (c : Client) : Ping :=
  if c.connState = .mqttKeepaliveSend then .automatic else .queued (releases c)

/-- What an event means for the connection before the client acts on it. -/
def arrive (n : Net) : Event → Net
  | .connected _ => ⟨.up,[]⟩
  | .discon _ => ⟨.down,[]⟩
  | .recon => ⟨.down,[]⟩
  | _ => n

structure System where
  client : Client
  net : Net

namespace System

def next (s : System) (e : Event) : System :=
  let c := MqttClient.next s.client e
  ⟨c,watch (pingOf s.client) (arrive s.net e) (newActions s.client c)⟩

/-- A connection comes up when it has been asked for. -/
def Can (s : System) (e : Event) : Prop :=
  Enabled s.client e ∧ match e with
    | .connected _ => s.net.link = .connecting
    | _ => True

def Step : System → Event → System → Prop := Guarded Can (ofFun next)

instance (s : System) : (e : Event) → Decidable (s.Can e)
  | .connected env =>
    inferInstanceAs (Decidable (Enabled s.client (.connected env) ∧ s.net.link = .connecting))
  | .api call => inferInstanceAs (Decidable (Enabled s.client (.api call) ∧ True))
  | .task env => inferInstanceAs (Decidable (Enabled s.client (.task env) ∧ True))
  | .tick env => inferInstanceAs (Decidable (Enabled s.client (.tick env) ∧ True))
  | .recv pdata env => inferInstanceAs (Decidable (Enabled s.client (.recv pdata env) ∧ True))
  | .sent env => inferInstanceAs (Decidable (Enabled s.client (.sent env) ∧ True))
  | .discon env => inferInstanceAs (Decidable (Enabled s.client (.discon env) ∧ True))
  | .recon => inferInstanceAs (Decidable (Enabled s.client .recon ∧ True))
  | .dnsFound addr => inferInstanceAs (Decidable (Enabled s.client (.dnsFound addr) ∧ True))

end System

def isData : ConnState → Bool
  | .mqttData => true
  | .mqttKeepaliveSend => true
  | _ => false

def isLive (state : ConnState) : Bool := isData state || decide (state = .mqttConnectSending)

def awaitsPong (c : Client) : Bool := c.isWaitingForAck && decide (c.pendingMsgType = pingreqType)

/-- The PINGREQs the client takes for unanswered. -/
def expected (c : Client) : List Ping :=
  if c.isWaitingForPingresp then [.automatic]
  else if awaitsPong c then [.queued (releases c)] else []

structure Fair (c : Client) (n : Net) : Prop where
  both : c.isWaitingForAck = true → c.isWaitingForPingresp = false
  down : c.pCon = false → n.link = .down
  connecting : n.link = .connecting → c.isWaitingForPingresp = false
  live : isLive c.connState = true → c.pCon = true ∧ n.link ≠ .connecting
  sending : c.connState = .mqttConnectSending → n.pings = [] ∧ c.isWaitingForPingresp = false
  data : isData c.connState = true → n.pings = expected c
  one : n.pings.length ≤ 1

/-- A part of the client keeps the invariant, with the actions it takes. -/
def Safe (ping : Ping) (c c' : Client) : Prop :=
  ∀ n, Fair c n → ∃ new, c'.log = c.log ++ new ∧ Fair c' (watch ping n new)

/-- The action says nothing of PINGREQs and of the connection. -/
def silent : Action → Bool
  | .connect _ => false
  | .abort => false
  | .send packet => mqttGetType packet ≠ pingreqType
  | .handled packet => mqttGetType packet ≠ pingrespType
  | _ => true

section Watch

variable {ping : Ping} {n : Net} {new : List Action}

@[simp] theorem watch_nil : watch ping n [] = n := rfl

@[simp] theorem watch_cons (a : Action) :
    watch ping n (a::new) = watch ping (observe ping n a) new := rfl

theorem watch_append (xs ys : List Action) :
    watch ping n (xs ++ ys) = watch ping (watch ping n xs) ys := by simp [watch]

theorem observe_silent {a : Action} (h : silent a = true) : observe ping n a = n := by
  cases a <;> simp_all [silent,observe]

theorem watch_silent (h : ∀ a ∈ new, silent a = true) : watch ping n new = n := by
  induction new generalizing n with
  | nil => rfl
  | cons a new ih =>
    rw [watch_cons,observe_silent (h a List.mem_cons_self)]
    exact ih fun b hb => h b (List.mem_cons_of_mem _ hb)

theorem watch_pings_le (h : ∀ packet, .send packet ∉ new) :
    (watch ping n new).pings.length ≤ n.pings.length := by
  induction new generalizing n with
  | nil => simp
  | cons a new ih =>
    have hrest := ih (n := observe ping n a) fun packet hp => h packet (List.mem_cons_of_mem _ hp)
    have hfirst : (observe ping n a).pings.length ≤ n.pings.length := by
      cases a with
      | send packet => exact absurd List.mem_cons_self (h packet)
      | handled packet =>
        simp only [observe]
        split <;> simp
      | _ => simp [observe]
    exact hrest.trans hfirst

end Watch

section Safe

variable {ping : Ping} {c d e : Client} {new : List Action}

theorem Safe.trans (h₁ : Safe ping c d) (h₂ : Safe ping d e) : Safe ping c e := by
  intro n hc
  obtain ⟨xs,hx,hd⟩ := h₁ n hc
  obtain ⟨ys,hy,he⟩ := h₂ _ hd
  refine ⟨xs ++ ys,by rw [hy,hx,List.append_assoc],?_⟩
  rw [watch_append]
  exact he

/-- The client looks the same, and the phase of the connection is the same. -/
structure Alike (c d : Client) : Prop where
  pCon_eq : d.pCon = c.pCon
  data_eq : isData d.connState = isData c.connState
  sending_eq : d.connState = .mqttConnectSending ↔ c.connState = .mqttConnectSending
  ping_eq : d.isWaitingForPingresp = c.isWaitingForPingresp
  ack : d.isWaitingForAck = true → c.isWaitingForAck = true
  pong_eq : awaitsPong d = awaitsPong c

variable (new) in
theorem Safe.alike (h : Alike c d) (hlog : d.log = c.log ++ new)
    (hnew : ∀ a ∈ new, silent a = true) (hrel : awaitsPong c = true → released new = []) :
    Safe ping c d := by
  intro n hc
  refine ⟨new,hlog,?_⟩
  rw [watch_silent hnew]
  have hlive : isLive d.connState = isLive c.connState := by
    simp only [isLive,h.data_eq,h.sending_eq]
  have hexpected : expected d = expected c := by
    simp only [expected,h.ping_eq,h.pong_eq]
    cases hp : awaitsPong c with
    | false => rfl
    | true => simp [releases,hlog,hrel hp]
  refine ⟨?_,?_,?_,?_,?_,?_,hc.one⟩
  · rw [h.ping_eq]
    exact fun hack => hc.both (h.ack hack)
  · rw [h.pCon_eq]
    exact hc.down
  · rw [h.ping_eq]
    exact hc.connecting
  · rw [hlive,h.pCon_eq]
    exact hc.live
  · rw [h.sending_eq,h.ping_eq]
    exact hc.sending
  · rw [h.data_eq,hexpected]
    exact hc.data

/-- The client stops to handle packets. -/
structure Leaves (c d : Client) : Prop where
  pCon_eq : d.pCon = c.pCon
  idle : isLive d.connState = false
  ping : d.isWaitingForPingresp = true → c.isWaitingForPingresp = true
  ack : d.isWaitingForAck = true → c.isWaitingForAck = true

theorem not_isData {state : ConnState} (h : isLive state = false) : isData state = false := by
  simp only [isLive,Bool.or_eq_false_iff] at h
  exact h.1

theorem ne_connectSending {state : ConnState} (h : isLive state = false) :
    state ≠ .mqttConnectSending := by
  simp only [isLive,Bool.or_eq_false_iff,decide_eq_false_iff_not] at h
  exact h.2

theorem Fair.of_idle {n : Net} (hidle : isLive c.connState = false)
    (hboth : c.isWaitingForAck = true → c.isWaitingForPingresp = false)
    (hdown : c.pCon = false → n.link = .down)
    (hconnecting : n.link = .connecting → c.isWaitingForPingresp = false)
    (hone : n.pings.length ≤ 1) : Fair c n := by
  refine ⟨hboth,hdown,hconnecting,fun h => ?_,fun h => ?_,fun h => ?_,hone⟩
  · simp [hidle] at h
  · exact absurd h (ne_connectSending hidle)
  · simp [not_isData hidle] at h

variable (new) in
theorem Safe.leaves (h : Leaves c d) (hlog : d.log = c.log ++ new)
    (hnew : ∀ a ∈ new, silent a = true) : Safe ping c d := by
  intro n hc
  refine ⟨new,hlog,?_⟩
  rw [watch_silent hnew]
  have hping : c.isWaitingForPingresp = false → d.isWaitingForPingresp = false := fun hp => by
    rw [← Bool.not_eq_true] at hp ⊢
    exact mt h.ping hp
  refine .of_idle h.idle (fun hack => hping (hc.both (h.ack hack))) ?_
    (fun hl => hping (hc.connecting hl)) hc.one
  rw [h.pCon_eq]
  exact hc.down

variable (new) in
theorem Safe.reset (hlog : d.log = c.log ++ new) (hsend : ∀ packet, .send packet ∉ new)
    (hidle : isLive d.connState = false) (hping : d.isWaitingForPingresp = false)
    (hdown : d.pCon = false → ∀ n, Fair c n → (watch ping n new).link = .down) :
    Safe ping c d := by
  intro n hc
  refine ⟨new,hlog,?_⟩
  exact .of_idle hidle (fun _ => hping) (fun hp => hdown hp n hc) (fun _ => hping)
    ((watch_pings_le hsend).trans hc.one)

theorem Safe.same (h : Alike c d) (hlog : d.log = c.log) : Safe ping c d :=
  .alike [] h (by simp [hlog]) (by simp) fun _ => rfl

theorem Safe.idle (h : Leaves c d) (hlog : d.log = c.log) : Safe ping c d :=
  .leaves [] h (by simp [hlog]) (by simp)

theorem Safe.refl (c : Client) : Safe ping c c := .same ⟨rfl,rfl,Iff.rfl,rfl,id,rfl⟩ rfl

end Safe

section Functions

variable {ping : Ping}

theorem safe_post (c : Client) : Safe ping c c.post := .same ⟨rfl,rfl,Iff.rfl,rfl,id,rfl⟩ rfl

theorem safe_emit (c : Client) {a : Action} (h : silent a = true) (hrel : released [a] = []) :
    Safe ping c (c.emit a) :=
  .alike [a] ⟨rfl,rfl,Iff.rfl,rfl,id,rfl⟩ rfl (by simpa using h) fun _ => hrel

theorem safe_espconnDisconnect (c : Client) : Safe ping c c.espconnDisconnect := by
  unfold Client.espconnDisconnect
  split
  · exact .refl c
  · exact safe_emit c rfl rfl

theorem safe_mqttConnect (c : Client) (dns : DnsOutcome) : Safe ping c (c.mqttConnect dns) := by
  unfold Client.mqttConnect
  cases c.host with
  | none => exact .refl c
  | some host =>
    simp only
    split
    · exact .refl c
    · generalize hd : (if c.pCon then c.mqttTcpclientDelete else c) = d
      have hdel : d.log = c.log ++ (if c.pCon then [.abort] else []) ∧ d.connState = c.connState := by
        cases hc : c.pCon <;> simp [← hd,Client.mqttTcpclientDelete,hc,Client.emit]
      have hreset : ∀ {e : Client} (xs : List Action), e.log = d.log ++ xs →
          (∀ packet, .send packet ∉ xs) → isLive e.connState = false →
          e.isWaitingForPingresp = false → e.pCon = true → Safe ping c e := by
        intro e xs hlog hxs hidle hping hp
        refine .reset ((if c.pCon then [.abort] else []) ++ xs) ?_ ?_ hidle hping ?_
        · rw [hlog,hdel.1,List.append_assoc]
        · intro packet
          cases c.pCon <;> simp [hxs packet]
        · exact fun hno => absurd (hp.symm.trans hno) (by decide)
      cases utilsStrToIP host with
      | some ip =>
        cases hsec : d.security
        · exact hreset [.connect ip] (by simp [Client.emit]) (by simp) rfl rfl rfl
        · exact hreset [] (by simp) (by simp) rfl rfl rfl
      | none =>
        cases dns with
        | ok addr =>
          simp only [Client.mqttDnsFound,Client.emit,Bool.true_eq_false,if_false]
          split
          · cases hsec : d.security
            · exact hreset [.resolve host,.connect (ipBytes addr)] (by simp [Client.post]) (by simp)
                rfl rfl rfl
            · exact hreset [.resolve host] (by simp [Client.post]) (by simp) rfl rfl rfl
          · -- An address of 0 leaves the state as it is, with the old connection gone.
            intro n hc
            refine ⟨(if c.pCon then [.abort] else []) ++ [.resolve host],?_,?_⟩
            · simp [Client.post,hdel.1]
            · cases hp : c.pCon with
              | true => exact ⟨fun _ => rfl,fun _ => rfl,fun _ => rfl,fun _ => ⟨rfl,by simp [observe]⟩,
                  fun _ => ⟨rfl,rfl⟩,fun _ => rfl,Nat.zero_le _⟩
              | false =>
                have hidle : isLive d.connState = false := by
                  rw [hdel.2,← Bool.not_eq_true]
                  exact fun h => absurd (hp.symm.trans (hc.live h).1) (by decide)
                exact .of_idle hidle (fun _ => rfl) (fun _ => hc.down hp) (fun _ => rfl) hc.one
        | inProgress => exact hreset [.resolve host] rfl (by simp) rfl rfl rfl
        | failed => exact hreset [.resolve host] rfl (by simp) rfl rfl rfl

theorem safe_queueMessage (c : Client) (built : Built) : Safe ping c (c.queueMessage built).1 := by
  unfold Client.queueMessage
  cases built.message with
  | none => exact .same ⟨rfl,rfl,Iff.rfl,rfl,id,rfl⟩ rfl
  | some packet =>
    simp only
    split
    · exact .same ⟨rfl,rfl,Iff.rfl,rfl,id,rfl⟩ rfl
    · exact .alike [.accept packet] ⟨rfl,rfl,Iff.rfl,rfl,id,rfl⟩ rfl (by simp [silent])
        fun _ => rfl

theorem safe_runCall (c : Client) (call : ApiCall) : Safe ping c (c.runCall call) := by
  cases call with
  | publish topic data qos retain =>
    simp only [Client.runCall,Client.mqttPublish]
    split
    · split
      · exact .refl c
      · exact safe_queueMessage c _
    · exact .refl c
  | subscribe topic qos =>
    simp only [Client.runCall,Client.mqttSubscribe]
    split
    · split
      · exact .refl c
      · exact safe_queueMessage c _
    · exact .refl c
  | unSubscribe topic =>
    simp only [Client.runCall,Client.mqttUnSubscribe]
    split
    · split
      · exact .refl c
      · exact safe_queueMessage c _
    · exact .refl c
  | ping =>
    simp only [Client.runCall,Client.mqttPing]
    split
    · exact .refl c
    · exact safe_queueMessage c _
  | connect dns => exact safe_mqttConnect c dns
  | disconnect => exact .idle ⟨rfl,rfl,id,id⟩ rfl
  | deleteClient => exact .idle ⟨rfl,rfl,id,id⟩ rfl

theorem safe_runCalls (c : Client) (calls : List ApiCall) : Safe ping c (c.runCalls calls) := by
  induction calls generalizing c with
  | nil => exact .refl c
  | cons call calls ih => exact (safe_runCall c call).trans (ih _)

theorem safe_invoke (c : Client) (cb : Callback) (calls : List ApiCall) :
    Safe ping c (c.invoke cb calls) := by
  unfold Client.invoke
  split
  · exact (safe_emit c rfl rfl).trans (safe_runCalls _ calls)
  · exact .refl c

theorem safe_sendBuilt (c : Client) {built : Built} (sendOk : Bool)
    (h : ∀ packet, built.message = some packet → mqttGetType packet ≠ pingreqType) :
    Safe ping c (c.sendBuilt built sendOk) := by
  unfold Client.sendBuilt Client.mqttSendDirect
  split
  · exact .idle ⟨rfl,rfl,id,id⟩ rfl
  · cases hm : built.message with
    | none => exact .idle ⟨rfl,rfl,id,id⟩ rfl
    | some packet =>
      have hne := h packet hm
      unfold Client.espconnSend
      simp only
      split
      · exact .alike [.send packet] ⟨rfl,rfl,Iff.rfl,rfl,id,rfl⟩ rfl
          (by simp [silent,hne]) fun _ => rfl
      · exact .idle ⟨rfl,rfl,id,id⟩ rfl

theorem safe_sendAck (c : Client) (type qos msgId : ℕ) (connection : MqttConnection)
    (sendOk : Bool) (ht : type < 16) (hq : qos < 4) (hne : type ≠ pingreqType) :
    Safe ping c (c.sendBuilt (mqttMsgAck type qos connection msgId) sendOk) := by
  refine safe_sendBuilt c sendOk fun packet hp => ?_
  rw [mqttMsgAck_type ht hq hp]
  exact hne

theorem safe_finishPending (c : Client) (env : Env) (h : c.pendingMsgType ≠ pingreqType) :
    Safe ping c (c.finishPending env) := by
  have hpong : awaitsPong c = false := by simp [awaitsPong,h]
  refine .alike (((queueGets c.msgQueue mqttBufSize env.isBegin).2.map
    Action.release).toList) ⟨rfl,rfl,Iff.rfl,rfl,fun hack => ?_,?_⟩ rfl ?_ ?_
  · exact absurd hack Bool.false_ne_true
  · rw [hpong]
    rfl
  · cases (queueGets c.msgQueue mqttBufSize env.isBegin).2 <;> simp [silent]
  · simp [hpong]

theorem safe_handleAck (pendingType : ℕ) (c : Client) (msgId : ℕ) (env : Env)
    (h : pendingType ≠ pingreqType) : Safe ping c (Client.handleAck pendingType c msgId env) := by
  unfold Client.handleAck
  split
  · rename_i hmatch
    exact safe_finishPending c env (by rw [hmatch.1]; exact h)
  · exact .refl c

theorem safe_handlePublish (c : Client) (packet : List UInt8) (env : Env) :
    Safe ping c (c.handlePublish packet env) := by
  unfold Client.handlePublish
  refine Safe.trans ?_ (safe_invoke _ _ env.calls)
  split
  · exact safe_sendAck c _ _ _ _ _ (by decide) (by decide) (by decide)
  · split
    · exact safe_sendAck c _ _ _ _ _ (by decide) (by decide) (by decide)
    · exact .refl c

theorem safe_handlePubrec (c : Client) (msgId : ℕ) (env : Env) :
    Safe ping c (c.handlePubrec msgId env) := by
  unfold Client.handlePubrec
  split
  · rename_i hmatch
    have hpong : Safe ping c
        { c with pendingMsgType := pubrelType, sendTimeout := mqttSendTimout } := by
      refine .same ⟨rfl,rfl,Iff.rfl,rfl,id,?_⟩ rfl
      rcases hmatch.2.2 with ht | ht <;> simp [awaitsPong,ht,publishType,pubrelType,pingreqType]
    exact hpong.trans (safe_sendAck _ pubrelType 1 msgId _ env.sendOk (by decide) (by decide)
      (by decide))
  · exact .refl c

theorem safe_handlePingreq (c : Client) (env : Env) : Safe ping c (c.handlePingreq env) := by
  refine safe_sendBuilt c env.sendOk fun packet hp => ?_
  cases hp
  rw [finiMessage_type _ (by decide) (by decide) (by decide)]
  decide

theorem safe_pingresp {c : Client} (hdata : isData c.connState = true) {packet : List UInt8}
    (ht : mqttGetType packet = pingrespType) (env : Env) :
    Safe ping c ((c.emit (.handled packet)).handlePingresp env) := by
  unfold Client.handlePingresp
  refine Safe.trans ?_ (safe_invoke _ .pingresp env.calls)
  intro n hc
  have hpings := hc.data hdata
  have hobserve : watch ping n [.handled packet] = { n with pings := n.pings.tail } := by
    simp [observe,ht]
  have hlive := hc.live (by simp [isLive,hdata])
  have hsend : c.connState ≠ .mqttConnectSending := fun h => by
    rw [h] at hdata
    cases hdata
  -- Every branch leaves no PINGREQ unanswered and waits for none.
  have hnone : ∀ {d : Client} (xs : List Action), d.log = c.log ++ .handled packet::xs →
      (∀ a ∈ xs, silent a = true) → d.pCon = c.pCon → d.connState = c.connState →
      d.isWaitingForPingresp = false → awaitsPong d = false →
      ∃ new, d.log = c.log ++ new ∧ Fair d (watch ping n new) := by
    intro d xs hlog hxs hp hs hping hpong
    refine ⟨.handled packet::xs,hlog,?_⟩
    have htail : n.pings.tail = [] := by
      have hone := hc.one
      rw [← List.length_eq_zero_iff,List.length_tail]
      omega
    have hwatch : watch ping n (.handled packet::xs) = { n with pings := [] } := by
      rw [← htail,← hobserve,watch_cons,watch_silent hxs,watch_cons,watch_nil]
    rw [hwatch]
    refine ⟨fun _ => hping,?_,fun _ => hping,fun _ => ?_,fun h => ⟨rfl,hping⟩,fun _ => ?_,
      Nat.zero_le _⟩
    · rw [hp]
      exact hc.down
    · rw [hp]
      exact hlive
    · simp [expected,hping,hpong]
  split
  · rename_i hping
    have hpong : awaitsPong c = false := by
      cases hack : c.isWaitingForAck with
      | false => simp [awaitsPong,hack]
      | true => exact absurd (hping.symm.trans (hc.both hack)) (by decide)
    exact hnone [] rfl (by simp) rfl rfl rfl hpong
  · rename_i hping
    have hping := Bool.eq_false_iff.mpr hping
    split
    · refine hnone ((queueGets c.msgQueue mqttBufSize env.isBegin).2.map
        Action.release).toList ?_ ?_ rfl rfl hping rfl
      · simp [Client.finishPending,Client.emit]
      · cases (queueGets c.msgQueue mqttBufSize env.isBegin).2 <;> simp [silent]
    · rename_i hno
      have hpong : awaitsPong c = false := by
        simp only [awaitsPong,Bool.and_eq_false_iff,decide_eq_false_iff_not]
        by_cases ht : c.pendingMsgType = pingreqType
        · exact Or.inl (Bool.eq_false_iff.mpr fun hw => hno ⟨ht,hw⟩)
        · exact Or.inr ht
      exact hnone [] rfl (by simp) rfl rfl hping hpong

theorem handleMessage_pingresp {c : Client} {packet : List UInt8}
    (ht : mqttGetType packet = pingrespType) (env : Env) :
    c.handleMessage packet env = (c.emit (.handled packet)).handlePingresp env := by
  simp [Client.handleMessage,ht,subackType,unsubackType,publishType,pubackType,pubrecType,
    pubrelType,pubcompType,pingreqType,pingrespType]

theorem safe_handleMessage {c : Client} (hdata : isData c.connState = true) (packet : List UInt8)
    (env : Env) : Safe ping c (c.handleMessage packet env) := by
  by_cases ht : mqttGetType packet = pingrespType
  · rw [handleMessage_pingresp ht]
    exact safe_pingresp hdata ht env
  · unfold Client.handleMessage
    refine (safe_emit c (a := .handled packet) (by simp [silent,ht]) rfl).trans ?_
    simp only
    split
    · exact safe_handleAck _ _ _ env (by decide)
    split
    · exact safe_handleAck _ _ _ env (by decide)
    split
    · exact safe_handlePublish _ packet env
    split
    · exact safe_handleAck _ _ _ env (by decide)
    split
    · exact safe_handlePubrec _ _ env
    split
    · exact safe_sendAck _ _ _ _ _ _ (by decide) (by decide) (by decide)
    split
    · exact safe_handleAck _ _ _ env (by decide)
    split
    · exact safe_handlePingreq _ env
    · exact .refl _

theorem safe_handleConnack {c : Client} (hs : c.connState = .mqttConnectSending)
    (returnCode : UInt8) (env : Env) : Safe ping c (c.handleConnack returnCode env) := by
  unfold Client.handleConnack
  split
  · exact safe_espconnDisconnect c
  · rename_i ht
    have ht := not_not.mp ht
    simp only
    split
    · refine Safe.trans ?_ (safe_invoke _ .connected env.calls)
      intro n hc
      obtain ⟨hpings,hping⟩ := hc.sending hs
      refine ⟨[],by simp,?_⟩
      refine ⟨fun _ => hping,hc.down,hc.connecting,fun _ => hc.live (by simp [isLive,hs]),
        fun h => ?_,fun _ => ?_,hc.one⟩
      · cases h
      · simp [expected,hping,awaitsPong,hpings]
    · refine Safe.trans ?_ (safe_espconnDisconnect _)
      refine .same ⟨rfl,rfl,Iff.rfl,rfl,fun h => absurd h Bool.false_ne_true,?_⟩ rfl
      simp [awaitsPong,ht,connectType,pingreqType]

theorem safe_handlePacket (c : Client) (length : ℕ) (env : Env) :
    Safe ping c (c.handlePacket length env) := by
  unfold Client.handlePacket
  cases hs : c.connState with
  | mqttConnectSending =>
    simp only
    split
    · exact safe_handleConnack hs _ env
    · exact .refl c
  | mqttData => exact safe_handleMessage (by rw [hs]; rfl) _ env
  | mqttKeepaliveSend => exact safe_handleMessage (by rw [hs]; rfl) _ env
  | _ => exact .refl c

theorem safe_dropConnection (c : Client) : Safe ping c c.dropConnection := by
  unfold Client.dropConnection
  split
  · exact safe_emit c rfl rfl
  · exact .refl c

theorem safe_inBuffer (c : Client) (buffer : List UInt8) :
    Safe ping c { c with inBuffer := buffer } := .same ⟨rfl,rfl,Iff.rfl,rfl,id,rfl⟩ rfl

theorem safe_processPacket (c : Client) (env : Env) : Safe ping c (c.processPacket env) := by
  unfold Client.processPacket
  split
  · exact safe_post c
  simp only
  split
  · exact (safe_inBuffer c []).trans (safe_dropConnection _)
  · split
    · have hpacket : Safe ping c (c.handlePacket
          (mqttGetPacketLength c.inBuffer c.inBuffer.length).toNat env) := safe_handlePacket c _ env
      split
      · exact hpacket.trans (safe_inBuffer _ _)
      · split
        · exact hpacket.trans (safe_inBuffer _ _)
        · exact (hpacket.trans (safe_inBuffer _ _)).trans (safe_post _)
    · exact safe_post c

theorem safe_mqttTcpclientRecv (c : Client) (pdata : List UInt8) (env : Env) :
    Safe ping c (c.mqttTcpclientRecv pdata env) := by
  unfold Client.mqttTcpclientRecv
  split
  · exact safe_processPacket c env
  · split
    · exact (safe_inBuffer c []).trans (safe_dropConnection _)
    · split
      · exact safe_dropConnection c
      · exact (safe_inBuffer c _).trans (safe_processPacket _ env)

theorem safe_mqttTcpclientSentCb (c : Client) (env : Env) :
    Safe ping c (c.mqttTcpclientSentCb env) := by
  unfold Client.mqttTcpclientSentCb
  simp only
  refine Safe.trans ?_ (safe_post _)
  split
  · split
    · refine Safe.trans ?_ (safe_invoke _ .published env.calls)
      exact .same ⟨rfl,rfl,Iff.rfl,rfl,id,rfl⟩ rfl
    · exact .same ⟨rfl,rfl,Iff.rfl,rfl,id,rfl⟩ rfl
  · exact .same ⟨rfl,rfl,Iff.rfl,rfl,id,rfl⟩ rfl

theorem safe_timerConnState (c : Client) (env : Env) : Safe ping c (c.timerConnState env) := by
  unfold Client.timerConnState
  cases hs : c.connState with
  | mqttData =>
    simp only
    split
    · exact .same ⟨rfl,by rw [hs]; rfl,by rw [hs]; exact ⟨nofun,nofun⟩,rfl,id,rfl⟩ rfl
    · exact .same ⟨rfl,by rw [hs],by rw [hs],rfl,id,rfl⟩ rfl
  | tcpReconnectReq =>
    simp only
    split
    · refine Safe.trans ?_ (safe_invoke _ .timeout env.calls)
      exact .idle ⟨rfl,rfl,id,id⟩ rfl
    · exact .same ⟨rfl,by rw [hs],by rw [hs],rfl,id,rfl⟩ rfl
  | tcpConnecting =>
    simp only
    split
    · refine Safe.trans ?_ (safe_invoke _ .timeout env.calls)
      exact .idle ⟨rfl,rfl,id,id⟩ rfl
    · exact .same ⟨rfl,by rw [hs],by rw [hs],rfl,id,rfl⟩ rfl
  | _ => exact .refl c

theorem safe_timerPingresp (c : Client) : Safe ping c c.timerPingresp := by
  unfold Client.timerPingresp
  split
  · simp only
    split
    · exact .idle ⟨rfl,rfl,fun h => absurd h Bool.false_ne_true,id⟩ rfl
    · exact .same ⟨rfl,rfl,Iff.rfl,rfl,id,rfl⟩ rfl
  · exact .refl c

theorem safe_timerSend (c : Client) : Safe ping c c.timerSend := by
  unfold Client.timerSend
  split
  · simp only
    split
    · exact .idle ⟨rfl,rfl,id,id⟩ rfl
    · exact .same ⟨rfl,rfl,Iff.rfl,rfl,id,rfl⟩ rfl
  · exact .refl c

theorem safe_mqttTimer (c : Client) (env : Env) : Safe ping c (c.mqttTimer env) :=
  ((safe_timerConnState c env).trans (safe_timerPingresp _)).trans (safe_timerSend _)

theorem safe_mqttSendKeepalive {c : Client} (hs : c.connState = .mqttKeepaliveSend)
    (sendOk : Bool) : Safe .automatic c (c.mqttSendKeepalive sendOk) := by
  unfold Client.mqttSendKeepalive
  split
  · exact .refl c
  split
  · exact .same ⟨rfl,by rw [hs]; rfl,by rw [hs]; exact ⟨nofun,nofun⟩,rfl,id,rfl⟩ rfl
  rename_i hidle
  simp only [not_or,Bool.not_eq_true] at hidle
  obtain ⟨hping,hack,_⟩ := hidle
  obtain ⟨packet,hm⟩ : ∃ packet, (mqttMsgPingreq c.mqttConnection).message = some packet := ⟨_,rfl⟩
  have htype : mqttGetType packet = pingreqType := by
    cases hm
    exact finiMessage_type _ (by decide) (by decide) (by decide)
  simp only [hm,Client.espconnSend]
  by_cases hok : c.security = false ∧ sendOk = true
  · simp only [if_pos hok,Client.keepaliveSent,if_true]
    intro n hc
    have hpings := hc.data (by rw [hs]; rfl)
    have hnone : n.pings = [] := by simp [hpings,expected,hping,awaitsPong,hack]
    have hlive := hc.live (by rw [hs]; rfl)
    have hwatch : watch .automatic n [.send packet] = { n with pings := [.automatic] } := by
      simp [observe,htype,hnone]
    refine ⟨[.send packet],rfl,?_⟩
    rw [hwatch]
    exact ⟨fun h => absurd (hack.symm.trans h) (by decide),hc.down,
      fun h => absurd h hlive.2,fun _ => hlive,nofun,fun _ => rfl,Nat.le_refl _⟩
  · simp only [if_neg hok,Client.keepaliveSent]
    exact .idle ⟨rfl,rfl,fun h => absurd h Bool.false_ne_true,id⟩ rfl

theorem safe_taskData {c : Client} (hs : c.connState = .mqttData) (env : Env) :
    Safe (.queued (releases c)) c (c.taskData env) := by
  unfold Client.taskData
  split
  · exact .refl c
  split
  · exact .refl c
  split
  · exact .refl c
  rename_i hack hping
  have hack := Bool.eq_false_iff.mpr hack
  have hping := Bool.eq_false_iff.mpr hping
  simp only
  split
  · exact .same ⟨rfl,rfl,Iff.rfl,rfl,id,rfl⟩ rfl
  · rename_i packet _
    simp only [Client.sendQueued,Client.queuedSent_espconnSend]
    split
    · intro n hc
      have hpings := hc.data (by rw [hs]; rfl)
      have hnone : n.pings = [] := by simp [hpings,expected,hping,awaitsPong,hack]
      have hlive := hc.live (by rw [hs]; rfl)
      cases hr : requiresAck packet with
      | true =>
        refine ⟨[.send packet],rfl,?_⟩
        simp only [watch_cons,watch_nil,observe,hnone]
        by_cases ht : mqttGetType packet = pingreqType
        · rw [if_pos ht]
          refine ⟨fun _ => hping,hc.down,fun h => absurd h hlive.2,fun _ => hlive,?_,fun _ => ?_,
            Nat.le_refl _⟩
          · exact fun h => absurd (hs.symm.trans h) (by decide)
          · simp [expected,hping,awaitsPong,ht,releases,Client.emit,releasedBy,released]
        · rw [if_neg ht]
          refine ⟨fun _ => hping,hc.down,fun h => absurd h hlive.2,fun _ => hlive,?_,fun _ => ?_,
            hc.one⟩
          · exact fun h => absurd (hs.symm.trans h) (by decide)
          · simp [expected,hping,awaitsPong,ht,hnone,Client.emit]
      | false =>
        have ht : mqttGetType packet ≠ pingreqType := by
          intro ht
          simp [requiresAck,ht] at hr
        refine ⟨[.send packet,.release packet],by simp [Client.emit],?_⟩
        simp only [watch_cons,watch_nil,observe,if_neg ht]
        refine ⟨fun _ => hping,hc.down,fun h => absurd h hlive.2,fun _ => hlive,?_,fun _ => ?_,
          hc.one⟩
        · exact fun h => absurd (hs.symm.trans h) (by decide)
        · simp [expected,hping,awaitsPong,ht,hnone,Client.emit]
    · exact .idle ⟨rfl,rfl,id,fun h => absurd h Bool.false_ne_true⟩ rfl

theorem safe_mqttTcpclientDelete {c : Client} (hidle : isLive c.connState = false) :
    Safe ping c c.mqttTcpclientDelete := by
  cases hp : c.pCon with
  | true =>
    refine .reset [.abort] ?_ (by simp) ?_ ?_ fun _ n _ => rfl
    · simp [Client.mqttTcpclientDelete,hp,Client.emit]
    · simpa [Client.mqttTcpclientDelete,hp,Client.emit] using hidle
    · simp [Client.mqttTcpclientDelete,hp,Client.emit]
  | false =>
    refine .reset [] ?_ (by simp) ?_ ?_ fun _ n hc => hc.down hp
    · simp [Client.mqttTcpclientDelete,hp]
    · simpa [Client.mqttTcpclientDelete,hp] using hidle
    · simp [Client.mqttTcpclientDelete,hp]

theorem safe_mqttClientDelete {c : Client} (hidle : isLive c.connState = false) :
    Safe ping c c.mqttClientDelete := by
  unfold Client.mqttClientDelete
  have hstart : Safe ping c { c with timerArmed := false } :=
    .same ⟨rfl,rfl,Iff.rfl,rfl,id,rfl⟩ rfl
  simp only
  split
  · refine (hstart.trans (safe_mqttTcpclientDelete (c := { c with timerArmed := false }) hidle)).trans
      ?_
    exact .idle ⟨rfl,rfl,fun h => absurd h Bool.false_ne_true,
      fun h => absurd h Bool.false_ne_true⟩ rfl
  · exact .idle ⟨rfl,rfl,fun h => absurd h Bool.false_ne_true,
      fun h => absurd h Bool.false_ne_true⟩ rfl

theorem safe_taskSwitch (c : Client) (env : Env) : Safe (pingOf c) c (c.taskSwitch env) := by
  have hdisc : ∀ {ping : Ping}, Safe ping c (if c.pCon then c.espconnDisconnect else c) := by
    intro ping
    split
    · exact safe_espconnDisconnect c
    · exact .refl c
  unfold Client.taskSwitch
  cases hs : c.connState with
  | tcpReconnect =>
    have hdel : Safe (pingOf c) c c.mqttTcpclientDelete :=
      safe_mqttTcpclientDelete (by rw [hs]; rfl)
    exact (hdel.trans (safe_mqttConnect _ env.dns)).trans (.idle ⟨rfl,rfl,id,id⟩ rfl)
  | mqttDeleting => exact hdisc
  | tcpDisconnecting => exact hdisc
  | tcpReconnectDisconnecting => exact hdisc
  | tcpDisconnected => exact safe_mqttTcpclientDelete (by rw [hs]; rfl)
  | mqttDeleted => exact safe_mqttClientDelete (by rw [hs]; rfl)
  | mqttKeepaliveSend =>
    rw [pingOf,if_pos hs]
    exact safe_mqttSendKeepalive hs env.sendOk
  | mqttData =>
    rw [pingOf,if_neg (by rw [hs]; decide)]
    exact safe_taskData hs env
  | _ => exact .refl c

theorem safe_mqttTask (c : Client) (env : Env) : Safe (pingOf c) c (c.mqttTask env) := by
  unfold Client.mqttTask
  split
  · exact .refl c
  · split
    · exact safe_mqttTcpclientRecv c [] env
    · exact safe_taskSwitch c env

end Functions

/-- No answer to a name lookup asks for a connection while the automatic PINGREQ of a lost one
is still waited for. -/
def LookupClean (s : System) : Event → Prop
  | .dnsFound (some addr) => addr ≠ 0 → s.client.pCon = true → s.net.link = .down →
    s.client.isWaitingForPingresp = false
  | _ => True

instance (s : System) (e : Event) : Decidable (LookupClean s e) := by
  unfold LookupClean
  split <;> infer_instance

/-- A name is found: the connection there is stays, or a new one is asked for. -/
theorem fair_dnsFound {c : Client} {n : Net} (h : Fair c n) (ping : Ping) (addr : Option ℕ)
    (hclean : LookupClean ⟨c,n⟩ (.dnsFound addr)) :
    ∃ new, (c.mqttDnsFound addr).log = c.log ++ new ∧
      Fair (c.mqttDnsFound addr) (watch ping n new) := by
  unfold Client.mqttDnsFound
  cases addr with
  | none =>
    have hsafe : Safe ping c { c with connState := .tcpReconnectReq } := .idle ⟨rfl,rfl,id,id⟩ rfl
    exact hsafe n h
  | some addr =>
    simp only
    by_cases haddr : addr = 0
    · rw [if_neg (not_not.mpr haddr)]
      exact safe_post c n h
    rw [if_pos haddr]
    cases hp : c.pCon with
    | false => exact Safe.refl c n h
    | true =>
      simp only [Bool.true_eq_false,if_false]
      cases hsec : c.security with
      | true =>
        have hsafe : Safe ping c (Client.post { c with connState := .tcpConnecting }) :=
          .idle ⟨rfl,rfl,id,id⟩ rfl
        simpa [hp,hsec] using hsafe n h
      | false =>
        refine ⟨[.connect (ipBytes addr)],rfl,?_⟩
        refine .of_idle rfl h.both (fun hno => absurd (hp.symm.trans hno) (by decide)) ?_ h.one
        intro hlink
        by_cases hdown : n.link = .down
        · exact hclean haddr hp hdown
        · refine h.connecting ?_
          simpa [observe,hdown] using hlink

theorem fair_connected {c : Client} {n : Net} (h : Fair c n) (hlink : n.link = .connecting)
    (ping : Ping) (env : Env) :
    ∃ new, (c.mqttTcpclientConnectCb env).log = c.log ++ new ∧
      Fair (c.mqttTcpclientConnectCb env) (watch ping ⟨.up,[]⟩ new) := by
  have hping := h.connecting hlink
  have hp : c.pCon = true := by
    cases hp : c.pCon with
    | true => rfl
    | false => exact absurd (hlink.symm.trans (h.down hp)) (by decide)
  have hidle : ∀ {d : Client}, d.log = c.log → isLive d.connState = false → d.pCon = true →
      d.isWaitingForPingresp = false →
      ∃ new, d.log = c.log ++ new ∧ Fair d (watch ping ⟨.up,[]⟩ new) := by
    intro d hlog hs hpd hpingd
    exact ⟨[],by simp [hlog],.of_idle hs (fun _ => hpingd)
      (fun hno => absurd (hpd.symm.trans hno) (by decide)) (fun _ => hpingd) (Nat.zero_le _)⟩
  unfold Client.mqttTcpclientConnectCb
  split
  · exact hidle rfl rfl hp hping
  cases hm : (mqttMsgConnect (mqttMsgInit mqttBufSize) c.connectInfo).message with
  | none =>
    simp only [hm]
    exact hidle rfl rfl hp hping
  | some packet =>
    have htype : mqttGetType packet ≠ pingreqType := by
      rw [mqttMsgConnect_type hm]
      decide
    simp only [hm,Client.espconnSend]
    by_cases hok : c.security = false ∧ env.sendOk = true
    · simp only [if_pos hok,Client.connectSent,if_true]
      refine ⟨[.send packet],rfl,?_⟩
      simp only [watch_cons,watch_nil,observe,if_neg htype]
      exact ⟨fun _ => hping,fun hno => absurd (hp.symm.trans hno) (by decide),nofun,
        fun _ => ⟨hp,nofun⟩,fun _ => ⟨rfl,hping⟩,nofun,Nat.zero_le _⟩
    · simp only [if_neg hok,Client.connectSent]
      exact hidle rfl rfl hp hping

theorem fair_step (s : System) (e : Event) (s' : System) (h : Fair s.client s.net)
    (hstep : Guarded LookupClean System.Step s e s') : Fair s'.client s'.net := by
  obtain ⟨hclean,⟨_,hcan⟩,rfl⟩ := hstep
  have hnew : (∃ new, (MqttClient.next s.client e).log = s.client.log ++ new ∧
      Fair (MqttClient.next s.client e) (watch (pingOf s.client) (arrive s.net e) new)) →
      Fair (s.next e).client (s.next e).net := by
    rintro ⟨new,hlog,hfair⟩
    rw [← newActions_eq hlog] at hfair
    exact hfair
  apply hnew
  cases e with
  | api call => exact safe_runCall s.client call _ h
  | task env =>
    have hposted : Safe (pingOf s.client) s.client { s.client with posted := s.client.posted-1 } :=
      .same ⟨rfl,rfl,Iff.rfl,rfl,id,rfl⟩ rfl
    have htask : Safe (pingOf s.client) { s.client with posted := s.client.posted-1 } _ :=
      safe_mqttTask { s.client with posted := s.client.posted-1 } env
    exact hposted.trans htask _ h
  | tick env => exact safe_mqttTimer s.client env _ h
  | recv pdata env => exact safe_mqttTcpclientRecv s.client pdata env _ h
  | sent env => exact safe_mqttTcpclientSentCb s.client env _ h
  | discon env =>
    have hcleared : Fair { s.client with
        inBuffer := []
        isWaitingForAck := false
        pendingMsgId := 0
        pendingMsgType := 0
        sendTimeout := 0
        isWaitingForPingresp := false
        pingrespTimeout := 0
        publishSendCallbackPending := false
        connState := Client.disconnectedState s.client.connState } ⟨.down,[]⟩ := by
      refine .of_idle ?_ (fun _ => rfl) (fun _ => rfl) (fun _ => rfl) (Nat.zero_le _)
      show isLive (Client.disconnectedState s.client.connState) = false
      cases s.client.connState <;> rfl
    exact ((safe_invoke _ .disconnected env.calls).trans (safe_post _)) _ hcleared
  | recon =>
    refine ⟨[],by simp [MqttClient.next,Client.mqttTcpclientReconCb,Client.post],?_⟩
    exact .of_idle rfl h.both (fun _ => rfl) (fun hlink => Link.noConfusion hlink) (Nat.zero_le _)
  | connected env => exact fair_connected h hcan _ env
  | dnsFound addr => exact fair_dnsFound h _ addr hclean

/-- The event makes the client handle a PINGRESP. -/
def HandlesPingresp (c : Client) (e : Event) : Prop :=
  isData c.connState = true ∧ ∃ packet, incoming c e = some packet ∧
    mqttGetType packet = pingrespType

/-- What a PINGRESP may do: it ends the wait of the keepalive, or it removes the packet from the
queue, for the PINGREQ that is not answered. -/
structure Credited (s : System) (e : Event) : Prop where
  automatic : s.client.isWaitingForPingresp = true →
    (s.next e).client.isWaitingForPingresp = false → s.net.pings = [.automatic]
  queued : ∀ packet, .release packet ∈ newActions s.client (s.next e).client →
    s.net.pings = [.queued (releases s.client)]

/-- At most one request is waited for, and at most one PINGREQ is not answered. -/
structure OneRequest (s : System) : Prop where
  flags : ¬(s.client.isWaitingForAck = true ∧ s.client.isWaitingForPingresp = true)
  pings : s.net.pings.length ≤ 1

theorem Fair.oneRequest {s : System} (h : Fair s.client s.net) : OneRequest s :=
  ⟨fun ⟨hack,hping⟩ => absurd (hping.symm.trans (h.both hack)) (by decide),h.one⟩

section Credit

variable {c : Client} {packet p : List UInt8}

theorem release_handlePingresp (env : Env) (h : .release p ∈
    newActions c ((c.emit (.handled packet)).handlePingresp env)) :
    c.isWaitingForPingresp = false ∧ awaitsPong c = true := by
  -- The callback behind it removes nothing.
  have hcallback : ∀ d : Client, d.log = c.log ++ [.handled packet] →
      .release p ∉ newActions c (d.invoke .pingresp env.calls) := by
    intro d hlog hmem
    obtain ⟨new,hnew⟩ := d.grows_invoke .pingresp env.calls
    rw [newActions_eq (by rw [hnew.log_eq,hlog,List.append_assoc])] at hmem
    have hrel : p ∈ released new := mem_released (by simpa using hmem)
    rw [hnew.released_eq] at hrel
    cases hrel
  unfold Client.handlePingresp at h
  simp only at h
  split at h
  · exact absurd h (hcallback _ rfl)
  · rename_i hping
    split at h
    · rename_i hpong
      have ht : c.pendingMsgType = pingreqType := hpong.1
      have hw : c.isWaitingForAck = true := hpong.2
      exact ⟨Bool.eq_false_iff.mpr hping,by simp [awaitsPong,ht,hw]⟩
    · exact absurd h (hcallback _ rfl)

theorem release_handlePacket (hdata : isData c.connState = true)
    (ht : mqttGetType packet = pingrespType) {length : ℕ} (htake : c.inBuffer.take length = packet)
    (env : Env) (h : .release p ∈ newActions c (c.handlePacket length env)) :
    c.isWaitingForPingresp = false ∧ awaitsPong c = true := by
  have hcase : c.handlePacket length env = (c.emit (.handled packet)).handlePingresp env := by
    rw [← handleMessage_pingresp ht,Client.handlePacket,htake]
    cases hs : c.connState <;> simp [hs,isData] at hdata ⊢
  rw [hcase] at h
  exact release_handlePingresp env h

theorem release_processPacket (hdata : isData c.connState = true)
    (ht : mqttGetType packet = pingrespType) (hnext : nextPacket c.inBuffer = some packet)
    (env : Env) (h : .release p ∈ newActions c (c.processPacket env)) :
    c.isWaitingForPingresp = false ∧ awaitsPong c = true := by
  simp only [nextPacket] at hnext
  split at hnext
  · rename_i hcomplete
    cases hnext
    refine release_handlePacket (p := p) hdata ht rfl env ?_
    have hlog : (c.processPacket env).log = (c.handlePacket
        (mqttGetPacketLength c.inBuffer c.inBuffer.length).toNat env).log := by
      have hne : c.inBuffer ≠ [] := by
        intro hnil
        rw [hnil] at hcomplete
        simp only [List.length_nil] at hcomplete
        omega
      unfold Client.processPacket
      rw [if_neg hne]
      simp only
      rw [if_neg (by omega),if_pos ⟨hcomplete.1,hcomplete.2.1⟩]
      split
      · rfl
      · split <;> rfl
    rw [newActions,← hlog]
    exact h
  · cases hnext

theorem release_mqttTcpclientRecv (hdata : isData c.connState = true)
    (ht : mqttGetType packet = pingrespType) {pdata : List UInt8} {env : Env}
    (hnext : incoming c (.recv pdata env) = some packet)
    (h : .release p ∈ newActions c (c.mqttTcpclientRecv pdata env)) :
    c.isWaitingForPingresp = false ∧ awaitsPong c = true := by
  simp only [incoming] at hnext
  unfold Client.mqttTcpclientRecv at h
  by_cases hnil : pdata = []
  · rw [if_pos hnil] at h
    rw [if_neg (by simp [hnil]),hnil,List.append_nil] at hnext
    exact release_processPacket hdata ht hnext env h
  rw [if_neg hnil] at h
  by_cases hover : mqttBufSize < c.inBuffer.length+pdata.length
  · rw [if_pos ⟨hnil,hover⟩] at hnext
    cases hnext
  rw [if_neg fun hboth => hover hboth.2] at hnext
  rw [if_neg hover] at h
  by_cases halloc : c.allocated = false
  · rw [if_pos halloc] at h
    unfold Client.dropConnection at h
    split at h <;> simp [newActions,Client.emit] at h
  · rw [if_neg halloc] at h
    exact release_processPacket (c := { c with inBuffer := c.inBuffer ++ pdata }) hdata ht hnext
      env h

/-- The event that handles a PINGRESP removes a packet only for a queued ping. -/
theorem release_next {e : Event} (hp : c.pCon = true) (hhandles : HandlesPingresp c e)
    (h : .release p ∈ newActions c (next c e)) :
    c.isWaitingForPingresp = false ∧ awaitsPong c = true := by
  obtain ⟨hdata,packet,hnext,ht⟩ := hhandles
  cases e with
  | recv pdata env => exact release_mqttTcpclientRecv hdata ht hnext h
  | task env =>
    have hreceives : Client.taskReceives { c with posted := c.posted-1 } = true := by
      have hstate : c.connState ≠ .tcpReconnectDisconnecting := by
        intro hs
        rw [hs] at hdata
        cases hdata
      simp only [incoming,nextPacket] at hnext
      split at hnext
      · rename_i hcomplete
        have hne : c.inBuffer ≠ [] := by
          intro hnil
          rw [hnil] at hcomplete
          simp only [List.length_nil] at hcomplete
          omega
        simp [Client.taskReceives,hne,hstate,hp,hcomplete]
      · cases hnext
    simp only [next,Client.mqttTask] at h
    split at h
    · simp [newActions] at h
    · have hrecv : incoming { c with posted := c.posted-1 } (.recv [] env) = some packet := by
        simpa [incoming] using hnext
      exact release_mqttTcpclientRecv (c := { c with posted := c.posted-1 }) hdata ht hrecv h
  | _ => cases hnext

end Credit

theorem Fair.credited {s : System} (h : Fair s.client s.net) {e : Event}
    (hhandles : HandlesPingresp s.client e) : Credited s e := by
  have hpings := h.data hhandles.1
  have hp := (h.live (by simp [isLive,hhandles.1])).1
  refine ⟨fun hwait _ => ?_,fun packet hmem => ?_⟩
  · simp [hpings,expected,hwait]
  · obtain ⟨hping,hpong⟩ := release_next hp hhandles hmem
    simp [hpings,expected,hping,hpong]

/-- The client after it was set up, without a connection. -/
def initial (host : List UInt8) (security : Bool) (info : ConnectInfo) (queueBufferSize : ℤ) :
    System := ⟨mqttInitClient host security info queueBufferSize,⟨.down,[]⟩⟩

theorem initial_fair (host : List UInt8) (security : Bool) (info : ConnectInfo)
    (queueBufferSize : ℤ) : Fair (initial host security info queueBufferSize).client
      (initial host security info queueBufferSize).net :=
  .of_idle rfl (fun _ => rfl) (fun _ => rfl) (fun _ => rfl) (Nat.zero_le _)

/-- While no lookup that was overtaken asks for a connection, one request is waited for at a time
and every PINGRESP goes to the PINGREQ it answers. -/
theorem requests_exclusive {host : List UInt8} {security : Bool} {info : ConnectInfo}
    {queueBufferSize : ℤ} {es : List Event} {s : System}
    (h : Run (Guarded LookupClean System.Step) (initial host security info queueBufferSize) es s) :
    OneRequest s ∧ ∀ e, HandlesPingresp s.client e → Credited s e := by
  have hfair := h.invariant (I := fun s => Fair s.client s.net) fair_step
    (initial_fair host security info queueBufferSize)
  exact ⟨hfair.oneRequest,fun _ => hfair.credited⟩

/-- A client for the broker `a`, whose name has to be looked up. -/
def namedSystem : System := initial [0x61] false ⟨some [0x31],none,none,none,[],60,0,false,false⟩ 2048

/-- The first lookup does not answer in time, and the second one is asked; the connection comes up
and after half the keepalive time a PINGREQ is sent. -/
def keepaliveSent : List Event :=
  .api (.connect .inProgress)::(List.replicate 6 (.tick exampleEnv) ++
    [.task exampleEnv,.dnsFound (some 1),.connected exampleEnv,.recv [0x20,2,0,0] exampleEnv] ++
    List.replicate 31 (.tick exampleEnv) ++ [.task exampleEnv])

theorem requests_exclusive_keepalive :
    OneRequest (keepaliveSent.foldl System.next namedSystem) ∧
      ∀ e, HandlesPingresp (keepaliveSent.foldl System.next namedSystem).client e →
        Credited (keepaliveSent.foldl System.next namedSystem) e := by
  have hrun : Run (Guarded (fun s e => LookupClean s e ∧ s.Can e) (ofFun System.next))
      namedSystem keepaliveSent (keepaliveSent.foldl System.next namedSystem) :=
    run_of_allowed (by decide)
  exact requests_exclusive (hrun.mono fun s e t h => ⟨h.1.1,h.1.2,h.2⟩)

/-- The connection is lost without `mqtt_tcpclient_discon_cb`, the other lookup is answered, and
the CONNECT of the new connection leaves the client waiting for two answers. -/
theorem requests_overlap :
    ¬∀ (es : List Event) (s : System), Run System.Step namedSystem es s → OneRequest s := by
  intro h
  let es := keepaliveSent ++ [.recon,.dnsFound (some 1),.connected exampleEnv]
  have hrun : Run System.Step namedSystem es (es.foldl System.next namedSystem) :=
    run_of_allowed (by decide)
  refine (h es _ hrun).flags ?_
  decide

end MqttKeepalive
end MeterLogger
