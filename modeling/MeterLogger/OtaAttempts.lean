import MeterLogger.OtaFailure
import Mathlib.Tactic.IntervalCases

/-!
# Attempts of a download

A download costs a bounded number of attempts. A failure uses up one of the retries, whatever it
does to the offset, and a continued range moves the offset up without one; so the pair of both is
counted by `budget`. While the download is in progress exactly one of its two timers is armed, and
the packets that restart the timeout are bounded too, so that it comes to an end.
-/

namespace MeterLogger
namespace Ota

open CStrings FlashWriter OtaHeader Runs

variable {P : Platform}

/-- The attempts that can have been made before the retry `retries` goes on at `bytes`. -/
def budget (retries bytes : ℕ) : ℕ := retries*(maxFirmwareSize+1)+bytes

def maxLookups : ℕ := (otaMaxRetries+1)*(maxFirmwareSize+1)

def maxConnects : ℕ := maxLookups+otaMaxRetries+1

/-- The packets of one connection: each brings a byte of the header or of the image. -/
def perConnection : ℕ := otaMaxHeaderSize-1+maxFirmwareSize

def maxPackets : ℕ := perConnection*maxConnects+1

theorem budget_mono (retries : ℕ) {b c : ℕ} (h : b ≤ c) : budget retries b ≤ budget retries c :=
  Nat.add_le_add_left h _

/-- A continued range needs one attempt more, and is at least one byte ahead. -/
theorem budget_ahead (retries bytes : ℕ) : budget retries (bytes+1) = budget retries bytes+1 :=
  (Nat.add_assoc _ _ _).symm

theorem budget_retry (retries bytes : ℕ) :
    budget retries maxFirmwareSize+1 ≤ budget (retries+1) bytes := by
  rw [budget,budget,Nat.add_mul]
  omega

theorem budget_le {retries : ℕ} (h : retries ≤ otaMaxRetries) :
    budget retries maxFirmwareSize+1 ≤ maxLookups := by
  have hmul := Nat.mul_le_mul_right (maxFirmwareSize+1) h
  rw [budget,maxLookups,Nat.add_mul]
  omega

/-- The lookups of the host, the connections tried, the timers that have fired and the packets that
have restarted the timeout, all while the download was in progress. -/
structure Counted (P : Platform) where
  ota : State P
  lookups : ℕ
  connects : ℕ
  fired : ℕ
  packets : ℕ

/-- `dns_gethostbyname` is called. -/
def looksUp (s : State P) : Event → Bool
  | .retry _ => s.inProgress
  | _ => false

def DnsResult.isOk : DnsResult → Bool
  | .ok _ => true
  | _ => false

/-- `espconn_connect` is called. -/
def triesConnect (s : State P) : Event → Bool
  | .dnsFound found _ => s.inProgress && !s.retryPending && found
  | .retry dns => s.inProgress && dns.isOk
  | _ => false

def firesTimer (s : State P) : Event → Bool
  | .timeout => s.inProgress
  | .retry _ => s.inProgress
  | _ => false

def restartsTimeout (s : State P) : Event → Bool
  | .received data _ => s.inProgress && !s.retryPending && !data.isEmpty
  | _ => false

def Counted.next (P : Platform) (w : Counted P) (e : Event) : Counted P where
  ota := Ota.next P w.ota e
  lookups := w.lookups+(looksUp w.ota e).toNat
  connects := w.connects+(triesConnect w.ota e).toNat
  fired := w.fired+(firesTimer w.ota e).toNat
  packets := w.packets+(restartsTimeout w.ota e).toNat

def Counted.Step (P : Platform) : Counted P → Event → Counted P → Prop :=
  Guarded (fun w e => Enabled w.ota e) (ofFun (Counted.next P))

/-- The start of a download, from any state. -/
def Counted.start (s : State P) (a : StartArgs) : Counted P where
  ota := (startOtaUpdate s a).1
  lookups := (startOtaUpdate s a).2.toNat
  connects := ((startOtaUpdate s a).2 && a.dns.isOk).toNat
  fired := 0
  packets := 0

section Invariant

variable {w : Counted P} {t : State P}

/-- What the counters are at most. -/
structure Bounded (w : Counted P) : Prop where
  lookups : w.lookups ≤ maxLookups
  connects : w.connects ≤ maxConnects
  fired : w.fired ≤ maxConnects
  packets : w.packets ≤ maxPackets

/-- An attempt that goes on: how far the next one can begin tells how many there have been. -/
structure Attempt (w : Counted P) : Prop where
  lookups : w.lookups ≤ budget w.ota.retryCount maxFirmwareSize+1
  before : w.ota.phase ≠ .established → w.lookups ≤ budget w.ota.retryCount w.ota.receivedBytes+1
  header : w.ota.phase = .established → w.ota.headersParsed = false →
    w.lookups ≤ budget w.ota.retryCount w.ota.requestOffset+1
  range : w.ota.phase = .established → w.ota.responseRangeValid = true →
    w.lookups ≤ budget w.ota.retryCount w.ota.responseRangeEnd+1
  idle : w.ota.phase = .idle → w.connects+1 ≤ w.lookups+w.ota.retryCount
  connecting : w.ota.phase = .connecting → w.packets+perConnection ≤ perConnection*w.connects
  established : w.ota.phase = .established → w.packets+perConnection ≤
    perConnection*w.connects+w.ota.headerBuffer.length+w.ota.responseReceivedBytes
  unsent : w.ota.phase ≠ .established → w.ota.headerBuffer = []
  buffer : w.ota.headerBuffer.length ≤ otaMaxHeaderSize-1
  body : w.ota.phase = .established → w.ota.responseReceivedBytes ≤ w.ota.receivedBytes
  short : w.ota.headersParsed = false → w.ota.phase = .established →
    w.ota.headerBuffer.length < otaMaxHeaderSize-1 ∧ w.ota.responseReceivedBytes = 0

/-- A download in progress. -/
structure Running (w : Counted P) : Prop where
  retryCount : w.ota.retryCount ≤ otaMaxRetries
  receivedBytes : w.ota.receivedBytes ≤ maxFirmwareSize
  timeoutTimer : w.ota.timeoutTimer = !w.ota.retryPending
  retryTimer : w.ota.retryTimer = w.ota.retryPending
  connects : w.connects ≤ w.lookups+w.ota.retryCount
  fired : w.fired ≤ w.lookups+w.ota.retryCount
  packets : w.packets ≤ perConnection*w.connects
  pending : w.ota.retryPending = true → w.lookups ≤ budget w.ota.retryCount w.ota.receivedBytes
  attempt : w.ota.retryPending = false → Attempt w

structure Limited (w : Counted P) : Prop where
  running : w.ota.inProgress = true → Running w
  bounded : Bounded w

theorem Running.lookups (h : Running w) :
    w.lookups ≤ budget w.ota.retryCount maxFirmwareSize+1 := by
  cases hp : w.ota.retryPending with
  | true =>
    have hmono := budget_mono w.ota.retryCount h.receivedBytes
    exact Nat.le_succ_of_le ((h.pending hp).trans hmono)
  | false => exact (h.attempt hp).lookups

/-- The counters of a download that is in progress or that ends with this event. -/
theorem Running.ends (h : Running w) (ht : t.inProgress = false) {a b c : ℕ} (ha : a ≤ 1)
    (hb : b ≤ 1) (hc : c ≤ 1) :
    Limited ⟨t,w.lookups,w.connects+a,w.fired+b,w.packets+c⟩ where
  running := fun hin => absurd (hin.symm.trans ht) (by decide)
  bounded := by
    have hlookups := h.lookups.trans (budget_le h.retryCount)
    have hretry := h.retryCount
    have hconnects := h.connects
    have hfired := h.fired
    have hle : w.connects ≤ maxConnects := by
      rw [maxConnects]
      omega
    have hpackets := h.packets.trans (Nat.mul_le_mul_left perConnection hle)
    refine ⟨hlookups,?_,?_,Nat.add_le_add hpackets hc⟩
    · show w.connects+a ≤ maxLookups+otaMaxRetries+1
      omega
    · show w.fired+b ≤ maxLookups+otaMaxRetries+1
      omega

theorem Running.limited (h : Running w) : Limited w where
  running := fun _ => h
  bounded := by
    have hends := h.ends (t := { w.ota with inProgress := false }) rfl (Nat.zero_le 1)
      (Nat.zero_le 1) (Nat.zero_le 1)
    exact ⟨hends.bounded.lookups,hends.bounded.connects,hends.bounded.fired,hends.bounded.packets⟩

/-- Another attempt is to be made, after `retries` that went before and from no more than `bytes`
on. -/
structure Retrying (retries bytes : ℕ) (t : State P) : Prop where
  left : retries < otaMaxRetries
  retryCount : t.retryCount = retries+1
  bytes : t.receivedBytes ≤ bytes
  pending : t.retryPending = true
  retryTimer : t.retryTimer = true
  timeoutTimer : t.timeoutTimer = false

/-- A failure ends the download or uses up a retry. -/
def Fails (retries bytes : ℕ) (t : State P) : Prop :=
  t.inProgress = false ∨ Retrying retries bytes t

theorem retryLater_retrying (s : State P) (reason : RetryReason) (hleft : s.retryCount < otaMaxRetries)
    (htimer : s.timeoutTimer = false) :
    Retrying s.retryCount s.receivedBytes (retryLater s reason) := by
  rw [retryLater]
  have hbytes := Nat.div_mul_le_self s.receivedBytes sectorSize
  split
  · exact ⟨hleft,rfl,hbytes,rfl,rfl,htimer⟩
  · exact ⟨hleft,rfl,hbytes,rfl,rfl,htimer⟩

theorem otaTriggerReconnect_fails {s : State P} (h : Listening s) (reason : RetryReason)
    {retries bytes : ℕ} (hretries : s.retryCount = retries) (hbytes : s.receivedBytes = bytes) :
    Fails retries bytes (otaTriggerReconnect s reason) := by
  subst hretries hbytes
  have hseen : ∀ u : State P, u.timeoutTimer = false → Fails u.retryCount u.receivedBytes
      (if u.retryCount < otaMaxRetries then retryLater u reason else retryExhausted u) := by
    intro u hu
    split
    · exact Or.inr (retryLater_retrying u reason ‹_› hu)
    · exact Or.inl rfl
  rw [otaTriggerReconnect,h.guard,if_neg Bool.false_ne_true]
  have hfails := hseen (seeFailure { s with
    timeoutTimer := false, dnsPending := false, continuePending := false } reason)
  cases reason <;> exact hfails rfl

theorem Fails.abort {retries bytes : ℕ} (h : Fails retries bytes t) :
    Fails retries bytes (espconnAbort t) :=
  h.imp_right fun hr =>
    ⟨hr.left,hr.retryCount,hr.bytes,hr.pending,hr.retryTimer,hr.timeoutTimer⟩

/-- A failure of an attempt keeps within the limits: the retry has a budget of its own. -/
theorem Running.fails (h : Running w) (ht : Fails w.ota.retryCount w.ota.receivedBytes t) {a b : ℕ}
    (ha : a ≤ 1) (hb : b ≤ 1) : Limited ⟨t,w.lookups,w.connects+a,w.fired+b,w.packets⟩ := by
  rcases ht with hstop | hr
  · exact h.ends hstop ha hb (Nat.zero_le 1)
  · have hlookups := h.lookups
    have hconnects := h.connects
    have hfired := h.fired
    have hretry := budget_retry w.ota.retryCount t.receivedBytes
    apply Running.limited
    refine ⟨?_,?_,?_,?_,?_,?_,?_,?_,?_⟩
    · rw [hr.retryCount]
      exact hr.left
    · exact hr.bytes.trans h.receivedBytes
    · rw [hr.timeoutTimer,hr.pending]
      rfl
    · rw [hr.retryTimer,hr.pending]
    · show w.connects+a ≤ w.lookups+t.retryCount
      rw [hr.retryCount]
      omega
    · show w.fired+b ≤ w.lookups+t.retryCount
      rw [hr.retryCount]
      omega
    · exact h.packets.trans (Nat.mul_le_mul_left _ (Nat.le_add_right _ _))
    · intro _
      show w.lookups ≤ budget t.retryCount t.receivedBytes
      rw [hr.retryCount]
      exact hlookups.trans hretry
    · exact fun hp => absurd (hr.pending.symm.trans hp) (by decide)

/-- An answer for the host: the connection is tried, or the attempt has failed. -/
theorem Running.dnsFound (h : Running w) (hl : Listening w.ota) {found connectOk : Bool}
    (hidle : connectOk = true → w.ota.phase = .idle) :
    Limited ⟨otaDnsFoundCb w.ota found connectOk,w.lookups,w.connects+found.toNat,w.fired,
      w.packets⟩ := by
  have hlistening : Listening { w.ota with dnsPending := false, timeoutTimer := false } :=
    ⟨hl.inProgress,hl.retryPending⟩
  rw [otaDnsFoundCb,hl.guard,if_neg Bool.false_ne_true]
  cases found with
  | false =>
    exact h.fails (otaTriggerReconnect_fails hlistening .dns rfl rfl) (Nat.zero_le 1)
      (Nat.zero_le 1)
  | true =>
    cases connectOk with
    | false =>
      exact h.fails (otaTriggerReconnect_fails hlistening .tcp rfl rfl) le_rfl (Nat.zero_le 1)
    | true =>
      have hphase := hidle rfl
      have hne : w.ota.phase ≠ .established := by
        rw [hphase]
        decide
      obtain ⟨hlookups,hbefore,_,_,hroom,_,_,hunsent,hbuffer,_,_⟩ := h.attempt hl.retryPending
      have hpackets : w.packets ≤ perConnection*(w.connects+1) :=
        h.packets.trans (Nat.mul_le_mul_left _ (Nat.le_succ _))
      apply Running.limited
      refine ⟨h.retryCount,h.receivedBytes,h.timeoutTimer,h.retryTimer,hroom hphase,h.fired,hpackets,
        h.pending,fun _ => ?_⟩
      refine ⟨hlookups,fun _ => hbefore hne,?_,?_,?_,fun _ => ?_,?_,fun _ => hunsent hne,hbuffer,
        ?_,?_⟩
      · exact fun hno => absurd hno (by simp)
      · exact fun hno => absurd hno (by simp)
      · exact fun hno => absurd hno (by simp)
      · exact Nat.add_le_add_right h.packets perConnection
      · exact fun hno => absurd hno (by simp)
      · exact fun hno => absurd hno (by simp)
      · exact fun _ hno => absurd hno (by simp)

theorem Running.dnsGethostbyname (h : Running w) (hl : Listening w.ota)
    (hidle : w.ota.phase = .idle) (dns : DnsResult) :
    Limited ⟨dnsGethostbyname w.ota dns,w.lookups,w.connects+dns.isOk.toNat,w.fired,w.packets⟩ := by
  cases dns with
  | ok connectOk => exact h.dnsFound hl fun _ => hidle
  | inProgress => exact h.limited
  | error =>
    have hlistening : Listening { w.ota with dnsPending := false, timeoutTimer := false } :=
      ⟨hl.inProgress,hl.retryPending⟩
    exact h.fails (otaTriggerReconnect_fails hlistening .dns rfl rfl) (Nat.zero_le 1)
      (Nat.zero_le 1)

/-- The next attempt, whose lookup the failure or the range before has paid for. -/
theorem Running.retry (h : Running w) (hin : w.ota.inProgress = true)
    (hp : w.ota.retryPending = true) (dns : DnsResult) :
    Limited ⟨otaRetryTimerCb { w.ota with retryTimer := false } dns,w.lookups+1,
      w.connects+dns.isOk.toNat,w.fired+1,w.packets⟩ := by
  have hlookups := h.pending hp
  have hconnects := h.connects
  have hfired := h.fired
  have hfar := budget_mono w.ota.retryCount h.receivedBytes
  have hattempt : ∀ u : State P, Running ⟨u,w.lookups+1,w.connects,w.fired+1,w.packets⟩ →
      Listening u → u.phase = .idle → Limited ⟨Ota.dnsGethostbyname u dns,w.lookups+1,
        w.connects+dns.isOk.toNat,w.fired+1,w.packets⟩ :=
    fun _ hu hl hidle => hu.dnsGethostbyname hl hidle dns
  rw [otaRetryTimerCb,if_neg (by simp [hin])]
  refine hattempt _ ?_ ⟨hin,rfl⟩ rfl
  refine ⟨h.retryCount,h.receivedBytes,rfl,rfl,?_,?_,h.packets,?_,fun _ => ?_⟩
  · show w.connects ≤ w.lookups+1+w.ota.retryCount
    omega
  · show w.fired+1 ≤ w.lookups+1+w.ota.retryCount
    omega
  · exact fun hno => absurd hno (by simp)
  · refine ⟨?_,fun _ => ?_,?_,?_,fun _ => ?_,?_,?_,fun _ => rfl,Nat.zero_le _,fun _ => Nat.zero_le _,
      ?_⟩
    · exact Nat.succ_le_succ (hlookups.trans hfar)
    · exact Nat.succ_le_succ hlookups
    · exact fun hno => absurd hno (by simp)
    · exact fun hno => absurd hno (by simp)
    · show w.connects+1 ≤ w.lookups+1+w.ota.retryCount
      omega
    · exact fun hno => absurd hno (by simp)
    · exact fun hno => absurd hno (by simp)
    · exact fun _ hno => absurd hno (by simp)

theorem Running.connected (h : Running w) (hl : Listening w.ota) (hphase : w.ota.phase = .connecting)
    (sendOk : Bool) :
    Limited { w with ota := otaTcpConnectCb { w.ota with phase := .established } sendOk } := by
  have hne : w.ota.phase ≠ .established := by
    rw [hphase]
    decide
  obtain ⟨hlookups,hbefore,_,_,_,hroom,_,hunsent,_,_,_⟩ := h.attempt hl.retryPending
  have hguard : (!({ w.ota with phase := .established } : State P).inProgress ||
      ({ w.ota with phase := .established } : State P).retryPending) = false := hl.guard
  rw [otaTcpConnectCb,hguard,if_neg Bool.false_ne_true]
  cases sendOk with
  | true =>
    apply Running.limited
    refine ⟨h.retryCount,h.receivedBytes,h.timeoutTimer,h.retryTimer,h.connects,h.fired,h.packets,
      h.pending,fun _ => ?_⟩
    have hbuffer : w.ota.headerBuffer.length = 0 := by
      rw [hunsent hne]
      rfl
    refine ⟨hlookups,fun hno => absurd rfl hno,fun _ _ => hbefore hne,?_,?_,?_,fun _ => ?_,
      fun hno => absurd rfl hno,?_,fun _ => Nat.zero_le _,fun _ _ => ⟨?_,rfl⟩⟩
    · exact fun _ hno => absurd hno (by simp [State.post])
    · exact fun hno => absurd hno (by simp [State.post])
    · exact fun hno => absurd hno (by simp [State.post])
    · show w.packets+perConnection ≤ perConnection*w.connects+w.ota.headerBuffer.length+0
      rw [hbuffer]
      exact hroom hphase
    · show w.ota.headerBuffer.length ≤ otaMaxHeaderSize-1
      rw [hbuffer]
      exact Nat.zero_le _
    · show w.ota.headerBuffer.length < otaMaxHeaderSize-1
      rw [hbuffer]
      decide
  | false =>
    refine h.fails (Fails.abort ?_) (Nat.zero_le 1) (Nat.zero_le 1)
    refine otaTriggerReconnect_fails ?_ .tcp ?_ ?_
    · exact ⟨hl.inProgress,hl.retryPending⟩
    · rfl
    · rfl

/-- What a packet of an attempt leaves as it is. -/
structure Kept (s t : State P) : Prop where
  retryCount : t.retryCount = s.retryCount
  retryPending : t.retryPending = s.retryPending
  timeoutTimer : t.timeoutTimer = s.timeoutTimer
  retryTimer : t.retryTimer = s.retryTimer
  phase : t.phase = s.phase
  headerBuffer : t.headerBuffer = s.headerBuffer

/-- An accepted header: the body begins where it was asked for, or at the start of the image. -/
structure Begun (s t : State P) : Prop where
  kept : Kept s t
  headersParsed : t.headersParsed = true
  responseReceivedBytes : t.responseReceivedBytes = 0
  receivedBytes : t.receivedBytes ≤ s.receivedBytes
  range : t.responseRangeValid = true → s.requestOffset ≤ t.responseRangeEnd

/-- Body bytes of the response. -/
structure Took (s t : State P) (n : ℕ) : Prop where
  kept : Kept s t
  headersParsed : t.headersParsed = s.headersParsed
  responseRangeValid : t.responseRangeValid = s.responseRangeValid
  responseRangeEnd : t.responseRangeEnd = s.responseRangeEnd
  receivedBytes : t.receivedBytes = s.receivedBytes+n
  responseReceivedBytes : t.responseReceivedBytes = s.responseReceivedBytes+n

theorem acceptRange_begun (s : State P) (length start stop total n : ℕ)
    (h : (acceptRange s length start stop total).2 = none) :
    Begun s (openBody (acceptRange s length start stop total).1 n) := by
  rw [acceptRange] at h ⊢
  obtain ⟨hrange,heq₁⟩ := passed h
  rw [heq₁] at h ⊢
  obtain ⟨_,heq₂⟩ := passed h
  rw [heq₂] at h ⊢
  obtain ⟨_,heq₃⟩ := passed h
  rw [heq₃] at h ⊢
  obtain ⟨_,heq₄⟩ := passed h
  rw [heq₄]
  refine ⟨⟨rfl,rfl,rfl,rfl,rfl,rfl⟩,rfl,rfl,le_rfl,fun _ => ?_⟩
  show s.requestOffset ≤ stop
  omega

theorem acceptHeader_begun (s : State P) (header : List UInt8)
    (h : (acceptHeader s header).2 = none) : Begun s (acceptHeader s header).1 := by
  have hanswered : ∀ (code : ℕ) (t : State P), Begun (answered s code) t → Begun s t :=
    fun _ _ hb => ⟨⟨hb.kept.retryCount,hb.kept.retryPending,hb.kept.timeoutTimer,hb.kept.retryTimer,
      hb.kept.phase,hb.kept.headerBuffer⟩,hb.headersParsed,hb.responseReceivedBytes,hb.receivedBytes,
      hb.range⟩
  have hresponse : ∀ code length n, (acceptResponse s header code length).2 = none →
      Begun s (openBody (acceptResponse s header code length).1 n) := by
    intro code length n hr
    apply hanswered code
    rw [acceptResponse] at hr ⊢
    split at hr
    · rename_i hcode
      rw [if_pos hcode]
      rw [acceptWhole] at hr ⊢
      obtain ⟨_,heq⟩ := passed hr
      rw [heq]
      exact ⟨⟨rfl,rfl,rfl,rfl,rfl,rfl⟩,rfl,rfl,Nat.zero_le _,fun hno => absurd hno (by simp [openBody])⟩
    · rename_i hcode
      rw [if_neg hcode]
      rcases hrange : contentRange header with _ | ⟨start,stop,total⟩
      · rw [hrange] at hr
        exact absurd hr (by simp)
      · rw [hrange] at hr
        exact acceptRange_begun (answered s code) length start stop total n hr
  rw [acceptHeader] at h ⊢
  cases hstatus : otaParseStatusCode header with
  | none =>
    rw [hstatus] at h
    exact absurd h (by simp)
  | some code =>
    rw [hstatus] at h
    dsimp only at h ⊢
    obtain ⟨_,heq⟩ := passed h
    rw [heq] at h ⊢
    cases hlength : contentLength header with
    | none =>
      rw [hlength] at h
      exact absurd h (by simp)
    | some length =>
      rw [hlength] at h
      dsimp only at h ⊢
      have hbegun := hresponse code length length
      rcases hr : acceptResponse s header code length with ⟨t,_ | error⟩
      · rw [hr] at hbegun
        exact hbegun rfl
      · rw [hr] at h
        exact absurd h (by simp)

theorem Took.after {s t u : State P} {n : ℕ} (h : Took s t 0) (h' : Took t u n) : Took s u n where
  kept := ⟨h'.kept.retryCount.trans h.kept.retryCount,h'.kept.retryPending.trans h.kept.retryPending,
    h'.kept.timeoutTimer.trans h.kept.timeoutTimer,h'.kept.retryTimer.trans h.kept.retryTimer,
    h'.kept.phase.trans h.kept.phase,h'.kept.headerBuffer.trans h.kept.headerBuffer⟩
  headersParsed := h'.headersParsed.trans h.headersParsed
  responseRangeValid := h'.responseRangeValid.trans h.responseRangeValid
  responseRangeEnd := h'.responseRangeEnd.trans h.responseRangeEnd
  receivedBytes := by rw [h'.receivedBytes,h.receivedBytes,Nat.add_zero]
  responseReceivedBytes := by rw [h'.responseReceivedBytes,h.responseReceivedBytes,Nat.add_zero]

theorem took_zero (s : State P) : Took s s 0 :=
  ⟨⟨rfl,rfl,rfl,rfl,rfl,rfl⟩,rfl,rfl,rfl,rfl,rfl⟩

theorem writeBody_took (io : FlashIo) (s : State P) (data : List UInt8) :
    (writeBody P io s data).inProgress = false ∨ Took s (writeBody P io s data) data.length := by
  rw [writeBody]
  generalize hu : (if s.hasSha256 then { s with shaCtx := s.shaCtx ++ data } else s) = u
  have htook : Took s u 0 := by
    rw [← hu]
    split
    · exact ⟨⟨rfl,rfl,rfl,rfl,rfl,rfl⟩,rfl,rfl,rfl,rfl,rfl⟩
    · exact took_zero s
  split
  · exact Or.inl rfl
  · right
    exact htook.after ⟨⟨rfl,rfl,rfl,rfl,rfl,rfl⟩,rfl,rfl,rfl,rfl,rfl⟩

theorem startWriter_took (io : FlashIo) (s : State P) (magicByte : UInt8) :
    Took s (startWriter P io s magicByte).1 0 := by
  rw [startWriter]
  split
  · exact took_zero s
  · dsimp only
    split
    · exact ⟨⟨rfl,rfl,rfl,rfl,rfl,rfl⟩,rfl,rfl,rfl,rfl,rfl⟩
    · split
      · exact ⟨⟨rfl,rfl,rfl,rfl,rfl,rfl⟩,rfl,rfl,rfl,rfl,rfl⟩
      · exact ⟨⟨rfl,rfl,rfl,rfl,rfl,rfl⟩,rfl,rfl,rfl,rfl,rfl⟩

theorem receiveBody_took (io : FlashIo) (s : State P) (data : List UInt8)
    (hmax : s.receivedBytes ≤ maxFirmwareSize) :
    (receiveBody P io s data).inProgress = false ∨
      Took s (receiveBody P io s data) data.length ∧
        s.receivedBytes+data.length ≤ maxFirmwareSize := by
  rw [receiveBody]
  split
  · rename_i hnil
    rw [hnil]
    exact Or.inr ⟨took_zero s,hmax⟩
  · split
    · exact Or.inl rfl
    · split
      · exact Or.inl rfl
      · rename_i hfits
        have hle : s.receivedBytes+data.length ≤ maxFirmwareSize := by
          rw [not_or,not_or,not_or,Nat.not_lt (a := maxFirmwareSize)] at hfits
          exact hfits.2.2.2
        split
        · exact (writeBody_took io s data).imp_right fun ht => ⟨ht,hle⟩
        · have hstart := startWriter_took io s (data.headD 0)
          rcases hw : startWriter P io s (data.headD 0) with ⟨u,_ | error⟩
          · rw [hw] at hstart
            exact (writeBody_took io u data).imp_right fun ht => ⟨hstart.after ht,hle⟩
          · exact Or.inl rfl

theorem Running.receivedBody (h : Running w) (hl : w.ota.retryPending = false)
    (hphase : w.ota.phase = .established) (hparsed : w.ota.headersParsed = true) (io : FlashIo)
    (data : List UInt8) {c : ℕ} (hc : c ≤ 1) (hle : c ≤ data.length) :
    Limited ⟨receiveBody P io w.ota data,w.lookups,w.connects,w.fired,w.packets+c⟩ := by
  rcases receiveBody_took io w.ota data h.receivedBytes with hstop | ⟨ht,hmax⟩
  · exact h.ends hstop (Nat.zero_le 1) (Nat.zero_le 1) hc
  · obtain ⟨hlookups,_,_,hrange,_,_,hroom,_,hbuffer,hbody,_⟩ := h.attempt hl
    generalize receiveBody P io w.ota data = t at ht
    have htphase : t.phase = .established := ht.kept.phase.trans hphase
    have hpackets := hroom hphase
    have hbytes := hbody hphase
    have hfew : w.packets+c+perConnection ≤ perConnection*w.connects+
        t.headerBuffer.length+t.responseReceivedBytes := by
      rw [ht.kept.headerBuffer,ht.responseReceivedBytes]
      omega
    apply Running.limited
    refine ⟨?_,?_,?_,?_,?_,?_,?_,?_,fun _ => ⟨?_,?_,?_,?_,?_,?_,fun _ => hfew,?_,?_,fun _ => ?_,?_⟩⟩
    · rw [ht.kept.retryCount]
      exact h.retryCount
    · rw [ht.receivedBytes]
      exact hmax
    · rw [ht.kept.timeoutTimer,ht.kept.retryPending]
      exact h.timeoutTimer
    · rw [ht.kept.retryTimer,ht.kept.retryPending]
      exact h.retryTimer
    · rw [ht.kept.retryCount]
      exact h.connects
    · rw [ht.kept.retryCount]
      exact h.fired
    · show w.packets+c ≤ perConnection*w.connects
      rw [ht.kept.headerBuffer,ht.responseReceivedBytes] at hfew
      rw [perConnection] at hfew ⊢
      omega
    · exact fun hp => absurd (hp.symm.trans (ht.kept.retryPending.trans hl)) (by decide)
    · rw [ht.kept.retryCount]
      exact hlookups
    · exact fun hno => absurd htphase hno
    · exact fun _ hno => absurd (hno.symm.trans (ht.headersParsed.trans hparsed)) (by decide)
    · rw [ht.kept.retryCount,ht.responseRangeEnd,ht.responseRangeValid]
      exact fun _ => hrange hphase
    · exact fun hno => absurd (hno.symm.trans htphase) (by decide)
    · exact fun hno => absurd (hno.symm.trans htphase) (by decide)
    · exact fun hno => absurd htphase hno
    · rw [ht.kept.headerBuffer]
      exact hbuffer
    · rw [ht.responseReceivedBytes,ht.receivedBytes]
      exact Nat.add_le_add_right hbytes _
    · exact fun hno => absurd (hno.symm.trans (ht.headersParsed.trans hparsed)) (by decide)

theorem receiveHeader_cases (s : State P) (data : List UInt8) (hparsed : s.headersParsed = false)
    (hshort : s.headerBuffer.length < otaMaxHeaderSize-1) :
    ∃ buffer : List UInt8, s.headerBuffer.length+min 1 data.length ≤ buffer.length ∧
      buffer.length ≤ otaMaxHeaderSize-1 ∧
      ((receiveHeader s data).2 = none ∧ (receiveHeader s data).1.inProgress = false ∨
        receiveHeader s data = ({ s with headerBuffer := buffer },none) ∧
          buffer.length < otaMaxHeaderSize-1 ∨
        ∃ body, (receiveHeader s data).2 = some body ∧
          Begun { s with headerBuffer := buffer } (receiveHeader s data).1) := by
  refine ⟨(s.headerBuffer ++ data).take (otaMaxHeaderSize-1),?_,?_,?_⟩
  · rw [List.length_take,List.length_append]
    omega
  · rw [List.length_take]
    exact Nat.min_le_left _ _
  · rw [receiveHeader,if_neg (by simp [hparsed]),collectHeader_eq hshort]
    dsimp only
    generalize (s.headerBuffer ++ data).take (otaMaxHeaderSize-1) = buffer
    split
    · split
      · exact Or.inl ⟨rfl,rfl⟩
      · exact Or.inr (Or.inl ⟨rfl,by omega⟩)
    · rename_i n _
      have hbegun := acceptHeader_begun { s with headerBuffer := buffer } (cstr buffer)
      rw [endHeader]
      rcases ha : acceptHeader { s with headerBuffer := buffer } (cstr buffer) with ⟨t,_ | error⟩
      · rw [ha] at hbegun
        dsimp only
        split
        · exact Or.inl ⟨rfl,rfl⟩
        · split
          · exact Or.inl ⟨rfl,rfl⟩
          · exact Or.inr (Or.inr ⟨_,rfl,hbegun rfl⟩)
      · exact Or.inl ⟨rfl,rfl⟩

theorem Running.collected (h : Running w) (hl : w.ota.retryPending = false)
    (hphase : w.ota.phase = .established) (hparsed : w.ota.headersParsed = false)
    {buffer : List UInt8} {c : ℕ} (hgrown : w.ota.headerBuffer.length+c ≤ buffer.length)
    (hshort : buffer.length < otaMaxHeaderSize-1) :
    Running ⟨{ w.ota with headerBuffer := buffer },w.lookups,w.connects,w.fired,w.packets+c⟩ := by
  obtain ⟨hlookups,_,hheader,hrange,_,_,hroom,_,_,hbody,hempty⟩ := h.attempt hl
  have hzero := (hempty hparsed hphase).2
  have hpackets := hroom hphase
  have hfew : w.packets+c+perConnection ≤
      perConnection*w.connects+buffer.length+w.ota.responseReceivedBytes := by omega
  refine ⟨h.retryCount,h.receivedBytes,h.timeoutTimer,h.retryTimer,h.connects,h.fired,?_,?_,
    fun _ => ⟨hlookups,fun hno => absurd hphase hno,hheader,hrange,?_,?_,fun _ => hfew,
      fun hno => absurd hphase hno,Nat.le_of_lt hshort,hbody,fun _ _ => ⟨hshort,hzero⟩⟩⟩
  · show w.packets+c ≤ perConnection*w.connects
    rw [hzero,perConnection] at hfew
    rw [perConnection]
    omega
  · exact fun hp => absurd (hp.symm.trans hl) (by decide)
  · exact fun hno => absurd (hno.symm.trans hphase) (by decide)
  · exact fun hno => absurd (hno.symm.trans hphase) (by decide)

/-- The header has been accepted: a range that continues is as far as the request at least. -/
theorem Running.begun (h : Running w) (hl : w.ota.retryPending = false)
    (hphase : w.ota.phase = .established) (hparsed : w.ota.headersParsed = false)
    {buffer : List UInt8} {c : ℕ} (hgrown : w.ota.headerBuffer.length+c ≤ buffer.length)
    (hbuffer : buffer.length ≤ otaMaxHeaderSize-1)
    (ht : Begun { w.ota with headerBuffer := buffer } t) :
    Running ⟨t,w.lookups,w.connects,w.fired,w.packets+c⟩ := by
  obtain ⟨hlookups,_,hheader,_,_,_,hroom,_,_,_,hempty⟩ := h.attempt hl
  have hzero := (hempty hparsed hphase).2
  have hpackets := hroom hphase
  have hcount : t.retryCount = w.ota.retryCount := ht.kept.retryCount
  have htphase : t.phase = .established := ht.kept.phase.trans hphase
  have htbuffer : t.headerBuffer = buffer := ht.kept.headerBuffer
  have hpending : t.retryPending = w.ota.retryPending := ht.kept.retryPending
  have hfew : w.packets+c+perConnection ≤
      perConnection*w.connects+t.headerBuffer.length+t.responseReceivedBytes := by
    rw [htbuffer,ht.responseReceivedBytes]
    omega
  refine ⟨?_,ht.receivedBytes.trans h.receivedBytes,?_,?_,?_,?_,?_,?_,fun _ => ⟨?_,?_,?_,?_,?_,?_,
    fun _ => hfew,?_,?_,fun _ => ?_,?_⟩⟩
  · rw [hcount]
    exact h.retryCount
  · rw [hpending]
    exact ht.kept.timeoutTimer.trans h.timeoutTimer
  · rw [hpending]
    exact ht.kept.retryTimer.trans h.retryTimer
  · rw [hcount]
    exact h.connects
  · rw [hcount]
    exact h.fired
  · show w.packets+c ≤ perConnection*w.connects
    rw [htbuffer,ht.responseReceivedBytes,perConnection] at hfew
    rw [perConnection]
    omega
  · exact fun hp => absurd (hp.symm.trans (hpending.trans hl)) (by decide)
  · rw [hcount]
    exact hlookups
  · exact fun hno => absurd htphase hno
  · exact fun _ hno => absurd (hno.symm.trans ht.headersParsed) (by decide)
  · intro _ hvalid
    have hahead := budget_mono w.ota.retryCount (ht.range hvalid)
    rw [hcount]
    exact (hheader hphase hparsed).trans (Nat.succ_le_succ hahead)
  · exact fun hno => absurd (hno.symm.trans htphase) (by decide)
  · exact fun hno => absurd (hno.symm.trans htphase) (by decide)
  · exact fun hno => absurd htphase hno
  · rw [htbuffer]
    exact hbuffer
  · rw [ht.responseReceivedBytes]
    exact Nat.zero_le _
  · exact fun hno => absurd (hno.symm.trans ht.headersParsed) (by decide)

theorem Running.received (h : Running w) (hl : Listening w.ota) (hphase : w.ota.phase = .established)
    (io : FlashIo) (data : List UInt8) :
    Limited ⟨otaTcpRecvCb P io w.ota data,w.lookups,w.connects,w.fired,
      w.packets+(!data.isEmpty).toNat⟩ := by
  have hone : (!data.isEmpty).toNat = min 1 data.length := by
    cases data with
    | nil => rfl
    | cons x xs => simp
  have harmed : ({ w.ota with timeoutTimer := true } : State P) = w.ota := by
    have htimer := h.timeoutTimer
    rw [hl.retryPending] at htimer
    rw [← show w.ota.timeoutTimer = true from htimer]
  rw [otaTcpRecvCb,hl.guard,if_neg Bool.false_ne_true,hone]
  dsimp only
  rw [harmed]
  cases hparsed : w.ota.headersParsed with
  | true =>
    rw [receiveHeader,hparsed,if_pos rfl]
    exact h.receivedBody hl.retryPending hphase hparsed io data (Nat.min_le_left _ _)
      (Nat.min_le_right _ _)
  | false =>
    have hshort := ((h.attempt hl.retryPending).short hparsed hphase).1
    obtain ⟨buffer,hgrown,hbuffer,hcases⟩ := receiveHeader_cases w.ota data hparsed hshort
    rcases hr : receiveHeader w.ota data with ⟨t,_ | body⟩
    · rw [hr] at hcases
      rcases hcases with ⟨_,hstop⟩ | ⟨heq,hroom⟩ | ⟨body,hno,_⟩
      · exact h.ends hstop (Nat.zero_le 1) (Nat.zero_le 1) (Nat.min_le_left _ _)
      · obtain ⟨rfl,_⟩ := Prod.mk.inj heq
        exact (h.collected hl.retryPending hphase hparsed hgrown hroom).limited
      · exact absurd hno (by simp)
    · rw [hr] at hcases
      rcases hcases with ⟨hno,_⟩ | ⟨hno,_⟩ | ⟨_,_,ht⟩
      · exact absurd hno (by simp)
      · exact absurd (Prod.mk.inj hno).2 (by simp)
      · have hrunning := h.begun hl.retryPending hphase hparsed hgrown hbuffer ht
        have hpending : t.retryPending = false := ht.kept.retryPending.trans hl.retryPending
        have htphase : t.phase = .established := ht.kept.phase.trans hphase
        exact hrunning.receivedBody hpending htphase ht.headersParsed io body (Nat.zero_le 1)
          (Nat.zero_le _)

theorem Running.timeout (h : Running w) (hl : Listening w.ota) :
    Limited ⟨otaTimeoutTimerCb { w.ota with timeoutTimer := false },w.lookups,w.connects,w.fired+1,
      w.packets⟩ := by
  have hfails : ∀ (seen : Bool) (reason : RetryReason), Fails w.ota.retryCount w.ota.receivedBytes
      (otaTriggerReconnect { w.ota with
        dnsPending := false, timeoutTimer := false, tcpFailureSeen := seen } reason) := by
    intro seen reason
    refine otaTriggerReconnect_fails ?_ reason ?_ ?_
    · exact ⟨hl.inProgress,hl.retryPending⟩
    · rfl
    · rfl
  have hguard : (!({ w.ota with timeoutTimer := false } : State P).inProgress ||
      ({ w.ota with timeoutTimer := false } : State P).retryPending) = false := hl.guard
  rw [otaTimeoutTimerCb,hguard,if_neg Bool.false_ne_true]
  dsimp only
  split
  · split
    · exact h.fails (hfails true .incompleteHttpResponse) (Nat.zero_le 1) le_rfl
    · exact h.fails (hfails w.ota.tcpFailureSeen .dns) (Nat.zero_le 1) le_rfl
  · split
    · exact h.fails (hfails true .incompleteHttpResponse).abort (Nat.zero_le 1) le_rfl
    · exact h.fails (hfails w.ota.tcpFailureSeen .tcp).abort (Nat.zero_le 1) le_rfl

theorem Running.connectionError (h : Running w) (hl : Listening w.ota) :
    Limited { w with ota := otaTcpReconCb { w.ota with phase := .idle } } := by
  have hguard : (!({ w.ota with phase := .idle } : State P).inProgress ||
      ({ w.ota with phase := .idle } : State P).retryPending) = false := hl.guard
  rw [otaTcpReconCb,hguard,if_neg Bool.false_ne_true]
  have hfails : ∀ reason, Fails w.ota.retryCount w.ota.receivedBytes
      (otaTriggerReconnect { w.ota with
        phase := .idle, timeoutTimer := false, tcpFailureSeen := true } reason) := by
    intro reason
    refine otaTriggerReconnect_fails ?_ reason ?_ ?_
    · exact ⟨hl.inProgress,hl.retryPending⟩
    · rfl
    · rfl
  dsimp only
  split
  · exact h.fails (hfails .incompleteHttpResponse) (Nat.zero_le 1) (Nat.zero_le 1)
  · exact h.fails (hfails .tcp) (Nat.zero_le 1) (Nat.zero_le 1)

theorem stageImage_inProgress (s : State P) (io : StageIo) :
    (stageImage P io s).inProgress = false := by
  rw [stageImage]
  split
  · exact otaFailUpdate_inProgress _ _ _
  · dsimp only
    split
    · exact otaFailUpdate_inProgress _ _ _
    · rw [commitImage]
      split
      · exact otaFailUpdate_inProgress _ _ _
      · rfl

/-- The part of the image that was asked for has come: the next one is ahead of it. -/
theorem Running.continued (h : Running w) (hl : Listening w.ota)
    (hphase : w.ota.phase = .established) (hpart : partComplete w.ota = true) :
    Limited { w with ota := otaScheduleRangeContinue { w.ota with
      phase := .idle, timeoutTimer := false } } := by
  have hguard : (!({ w.ota with phase := .idle, timeoutTimer := false } : State P).inProgress ||
      ({ w.ota with phase := .idle, timeoutTimer := false } : State P).retryPending) = false := hl.guard
  rw [partComplete] at hpart
  simp only [Bool.and_eq_true,decide_eq_true_eq] at hpart
  obtain ⟨⟨⟨⟨_,hvalid⟩,_⟩,hend⟩,_⟩ := hpart
  have hrange := (h.attempt hl.retryPending).range hphase hvalid
  rw [otaScheduleRangeContinue,hguard,if_neg Bool.false_ne_true]
  apply Running.limited
  refine ⟨h.retryCount,h.receivedBytes,rfl,rfl,h.connects,h.fired,h.packets,fun _ => ?_,
    fun hno => absurd hno (by simp)⟩
  show w.lookups ≤ budget w.ota.retryCount w.ota.receivedBytes
  rw [hend,budget_ahead]
  exact hrange

theorem Running.disconnected (h : Running w) (hl : Listening w.ota)
    (hphase : w.ota.phase = .established) (io : StageIo) :
    Limited { w with ota := otaTcpDisconCb P io { w.ota with phase := .idle } } := by
  have hguard : (!({ w.ota with phase := .idle } : State P).inProgress ||
      ({ w.ota with phase := .idle } : State P).retryPending) = false := hl.guard
  have hfails : ∀ (seen : Bool) (reason : RetryReason), Limited { w with
      ota := otaTriggerReconnect { w.ota with
        phase := .idle, timeoutTimer := false, tcpFailureSeen := seen } reason } := by
    intro seen reason
    refine h.fails (otaTriggerReconnect_fails ?_ reason ?_ ?_) (Nat.zero_le 1) (Nat.zero_le 1)
    · exact ⟨hl.inProgress,hl.retryPending⟩
    · rfl
    · rfl
  rw [otaTcpDisconCb,hguard,if_neg Bool.false_ne_true,endResponse]
  split
  · exact h.ends (stageImage_inProgress _ io) (Nat.zero_le 1) (Nat.zero_le 1) (Nat.zero_le 1)
  · split
    · exact hfails w.ota.tcpFailureSeen .incompleteHttpResponse
    · split
      · exact hfails true .tcp
      · split
        · rename_i hpart
          exact h.continued hl hphase hpart
        · exact hfails w.ota.tcpFailureSeen .other

theorem Running.progress (h : Running w) :
    Limited { w with ota := otaProgressTimerCb w.ota } := by
  rw [otaProgressTimerCb]
  split
  · exact h.limited
  · dsimp only
    split
    · exact h.limited
    · exact Running.limited ⟨h.retryCount,h.receivedBytes,h.timeoutTimer,h.retryTimer,h.connects,
        h.fired,h.packets,h.pending,fun hp => have ha := h.attempt hp
          ⟨ha.lookups,ha.before,ha.header,ha.range,ha.idle,ha.connecting,ha.established,ha.unsent,
            ha.buffer,ha.body,ha.short⟩⟩

theorem Limited.stopped (h : Limited w) (hin : w.ota.inProgress = false) (e : Event) :
    Limited (w.next P e) := by
  have hstays := (next_stays hin e).inProgress
  have hcounts : looksUp w.ota e = false ∧ triesConnect w.ota e = false ∧
      firesTimer w.ota e = false ∧ restartsTimeout w.ota e = false := by
    cases e <;> simp [looksUp,triesConnect,firesTimer,restartsTimeout,hin]
  refine ⟨fun hno => absurd (hno.symm.trans hstays) (by decide),?_⟩
  rw [Counted.next,hcounts.1,hcounts.2.1,hcounts.2.2.1,hcounts.2.2.2]
  exact ⟨h.bounded.lookups,h.bounded.connects,h.bounded.fired,h.bounded.packets⟩

/-- While a retry is pending nothing is done, but that the retry timer fires. -/
theorem Running.ignored (h : Running w) (hp : w.ota.retryPending = true) (phase : Phase) :
    Limited { w with ota := { w.ota with phase := phase } } :=
  Running.limited ⟨h.retryCount,h.receivedBytes,h.timeoutTimer,h.retryTimer,h.connects,h.fired,
    h.packets,h.pending,fun hno => absurd (hp.symm.trans hno) (by decide)⟩

theorem Running.next (h : Running w) (hin : w.ota.inProgress = true) {e : Event}
    (he : Enabled w.ota e) : Limited (w.next P e) := by
  cases hp : w.ota.retryPending with
  | true =>
    have hguard : (!w.ota.inProgress || w.ota.retryPending) = true := by
      rw [hp,Bool.or_true]
    cases e with
    | dnsFound found connectOk =>
      rw [Counted.next,Ota.next,otaDnsFoundCb,if_pos hguard,triesConnect,hp,Bool.not_true,
        Bool.and_false,Bool.false_and]
      exact h.limited
    | connected sendOk =>
      rw [Counted.next,Ota.next,otaTcpConnectCb,if_pos hguard]
      exact h.ignored hp .established
    | received data io =>
      rw [Counted.next,Ota.next,otaTcpRecvCb,if_pos hguard,restartsTimeout,hp,Bool.not_true,
        Bool.and_false,Bool.false_and]
      exact h.limited
    | disconnected io =>
      rw [Counted.next,Ota.next,otaTcpDisconCb,if_pos hguard]
      exact h.ignored hp .idle
    | connectionError =>
      rw [Counted.next,Ota.next,otaTcpReconCb,if_pos hguard]
      exact h.ignored hp .idle
    | timeout =>
      have hno := h.timeoutTimer
      rw [hp] at hno
      exact absurd ((show w.ota.timeoutTimer = true from he).symm.trans hno) (by decide)
    | retry dns =>
      rw [Counted.next,looksUp,triesConnect,firesTimer,hin,Bool.true_and]
      exact h.retry hin hp dns
    | progress => exact h.progress
  | false =>
    have hl : Listening w.ota := ⟨hin,hp⟩
    cases e with
    | dnsFound found connectOk =>
      rw [Counted.next,triesConnect,hin,hp,Bool.not_false,Bool.and_self,Bool.true_and]
      exact h.dnsFound hl he
    | connected sendOk => exact h.connected hl he sendOk
    | received data io =>
      rw [Counted.next,restartsTimeout,hin,hp,Bool.not_false,Bool.and_self,Bool.true_and]
      exact h.received hl he io data
    | disconnected io => exact h.disconnected hl he io
    | connectionError => exact h.connectionError hl
    | timeout =>
      rw [Counted.next,firesTimer,hin]
      exact h.timeout hl
    | retry dns =>
      have hno := h.retryTimer
      rw [hp] at hno
      exact absurd ((show w.ota.retryTimer = true from he).symm.trans hno) (by decide)
    | progress => exact h.progress

theorem Limited.step {e : Event} {w' : Counted P} (h : Limited w) (hs : Counted.Step P w e w') :
    Limited w' := by
  obtain ⟨he,rfl⟩ := hs
  cases hin : w.ota.inProgress with
  | true => exact (h.running hin).next hin he
  | false => exact h.stopped hin e

theorem start_limited (s : State P) (a : StartArgs) : Limited (Counted.start s a) := by
  have hfailed : ∀ u : State P, u.inProgress = false → Limited ⟨u,0,0,0,0⟩ := fun u hu =>
    ⟨fun hno => absurd (hno.symm.trans hu) (by decide),Nat.zero_le _,Nat.zero_le _,Nat.zero_le _,
      Nat.zero_le _⟩
  have hspec := setDigests_spec (s := resetForStart s) a.hexSha256₁ a.hexSha256₂
  rw [Counted.start,startOtaUpdate]
  rcases hset : setDigests (resetForStart s) a.hexSha256₁ a.hexSha256₂ with ⟨t,_ | _⟩
  · exact hfailed _ (otaFailUpdate_inProgress _ _ _)
  · rw [hset] at hspec
    obtain ⟨digest₁,digest₂,_,_,ht⟩ := hspec rfl
    dsimp only at ht ⊢
    cases a.url.bind parseUrl with
    | none => exact hfailed _ (otaFailUpdate_inProgress _ _ _)
    | some url =>
      have hselected : ∃ ctx rom, selectTarget t a =
          { resetForStart s with
            expectedSha256₁ := digest₁
            expectedSha256₂ := digest₂
            shaCtx := ctx
            targetRom := rom } := by
        rw [selectTarget,ht]
        split
        · exact ⟨_,_,rfl⟩
        · exact ⟨_,_,rfl⟩
      obtain ⟨ctx,rom,heq⟩ := hselected
      have hattempt : ∀ u : State P, Running ⟨u,1,0,0,0⟩ → Listening u → u.phase = .idle →
          Limited ⟨Ota.dnsGethostbyname u a.dns,1,a.dns.isOk.toNat,0,0⟩ := by
        intro u hu hl hidle
        rw [← Nat.zero_add a.dns.isOk.toNat]
        exact hu.dnsGethostbyname hl hidle a.dns
      rw [heq]
      refine hattempt _ ?_ ⟨rfl,rfl⟩ rfl
      refine ⟨Nat.zero_le _,Nat.zero_le _,rfl,rfl,Nat.zero_le _,Nat.zero_le _,Nat.zero_le _,
        fun hno => absurd (show false = true from hno) (by decide),fun _ => ⟨?_,fun _ => ?_,?_,?_,
          fun _ => le_rfl,?_,?_,fun _ => rfl,Nat.zero_le _,fun _ => Nat.zero_le _,?_⟩⟩
      · exact Nat.le_add_left 1 _
      · exact Nat.le_add_left 1 _
      · exact fun hno => absurd hno (by simp [resolveHost])
      · exact fun hno => absurd hno (by simp [resolveHost])
      · exact fun hno => absurd hno (by simp [resolveHost])
      · exact fun hno => absurd hno (by simp [resolveHost])
      · exact fun _ hno => absurd hno (by simp [resolveHost])

theorem retryPending_next {s : State P} (hp : s.retryPending = true) {e : Event}
    (he : ∀ dns, e ≠ .retry dns) : (Ota.next P s e).retryPending = true := by
  have hguard : (!s.inProgress || s.retryPending) = true := by
    rw [hp,Bool.or_true]
  cases e with
  | dnsFound found connectOk =>
    rw [Ota.next,otaDnsFoundCb,if_pos hguard]
    exact hp
  | connected sendOk =>
    rw [Ota.next,otaTcpConnectCb,if_pos hguard]
    exact hp
  | received data io =>
    rw [Ota.next,otaTcpRecvCb,if_pos hguard]
    exact hp
  | disconnected io =>
    rw [Ota.next,otaTcpDisconCb,if_pos hguard]
    exact hp
  | connectionError =>
    rw [Ota.next,otaTcpReconCb,if_pos hguard]
    exact hp
  | timeout =>
    rw [Ota.next,otaTimeoutTimerCb,if_pos hguard]
    exact hp
  | retry dns => exact absurd rfl (he dns)
  | progress =>
    rw [Ota.next,otaProgressTimerCb,if_pos (by rw [hguard]; rfl)]
    exact hp

/-- A timer that is armed fires, unless it is disarmed or restarted before. -/
structure Fair (states : ℕ → Counted P) (events : ℕ → Event) : Prop where
  timeout : ∀ n, (states n).ota.timeoutTimer = true → ∃ m, n ≤ m ∧ (events m = .timeout ∨
    restartsTimeout (states m).ota (events m) = true ∨ (states m).ota.timeoutTimer = false)
  retry : ∀ n, (states n).ota.retryTimer = true → ∃ m, n ≤ m ∧
    ((∃ dns, events m = .retry dns) ∨ (states m).ota.retryTimer = false)

section Ends

variable {s : Counted P} {states : ℕ → Counted P} {events : ℕ → Event}

theorem quiet_at_last (h : Endless (Counted.Step P) s states events)
    (hlimited : ∀ n, Limited (states n)) : ∃ n, ∀ m, n ≤ m →
      firesTimer (states m).ota (events m) = false ∧
        restartsTimeout (states m).ota (events m) = false := by
  obtain ⟨n,hrest⟩ := h.comes_to_rest (fun w : Counted P => w.fired+w.packets)
    (maxConnects+maxPackets)
    (by rintro w e _ ⟨_,rfl⟩; exact Nat.add_le_add (Nat.le_add_right _ _) (Nat.le_add_right _ _))
    (fun n => Nat.add_le_add (hlimited n).bounded.fired (hlimited n).bounded.packets)
  refine ⟨n,fun m hm => ?_⟩
  have hsame := hrest m hm
  have hnext : states (m+1) = (states m).next P (events m) := (h.step m).2
  rw [hnext] at hsame
  have hfires : (firesTimer (states m).ota (events m)).toNat+
      (restartsTimeout (states m).ota (events m)).toNat = 0 := by
    rw [Counted.next] at hsame
    dsimp only at hsame
    omega
  rw [Nat.add_eq_zero_iff,Bool.toNat_eq_zero,Bool.toNat_eq_zero] at hfires
  exact hfires

theorem silent_of_quiet {w : Counted P} {e : Event} (hin : w.ota.inProgress = true)
    (h : firesTimer w.ota e = false) : e ≠ .timeout ∧ ∀ dns, e ≠ .retry dns := by
  refine ⟨fun he => ?_,fun dns he => ?_⟩
  · rw [he,firesTimer,hin] at h
    exact absurd h (by decide)
  · rw [he,firesTimer,hin] at h
    exact absurd h (by decide)

/-- Where no retry fires any more none is pending, for a pending one would fire. -/
theorem Fair.none_pending (hfair : Fair states events)
    (h : Endless (Counted.Step P) s states events) (hlimited : ∀ n, Limited (states n))
    (hin : ∀ n, (states n).ota.inProgress = true) {n : ℕ}
    (hsilent : ∀ m, n ≤ m → ∀ dns, events m ≠ .retry dns) {m : ℕ} (hm : n ≤ m) :
    (states m).ota.retryPending = false := by
  by_contra hp
  rw [Bool.not_eq_false] at hp
  have hstays : ∀ k, m ≤ k → (states k).ota.retryPending = true := by
    intro k hk
    induction k, hk using Nat.le_induction with
    | base => exact hp
    | succ k hk ih =>
      have hnext : states (k+1) = (states k).next P (events k) := (h.step k).2
      rw [hnext]
      exact retryPending_next ih (hsilent k (hm.trans hk))
  obtain ⟨k,hk,⟨dns,hfires⟩ | hoff⟩ :=
    hfair.retry m ((((hlimited m).running (hin m)).retryTimer).trans hp)
  · exact hsilent k (hm.trans hk) dns hfires
  · have htimer := ((hlimited k).running (hin k)).retryTimer
    rw [hstays k hk] at htimer
    exact absurd (htimer.symm.trans hoff) (by decide)

theorem Fair.ends (h : Endless (Counted.Step P) s states events) (hs : Limited s)
    (hfair : Fair states events) : ∃ n, (states n).ota.inProgress = false := by
  have hlimited : ∀ n, Limited (states n) := h.invariant (fun _ _ _ hw hst => hw.step hst) hs
  by_contra hno
  have hin : ∀ n, (states n).ota.inProgress = true := by
    intro n
    by_contra hstop
    exact hno ⟨n,Bool.eq_false_iff.mpr hstop⟩
  obtain ⟨n,hquiet⟩ := quiet_at_last h hlimited
  have hsilent : ∀ m, n ≤ m → events m ≠ .timeout ∧ ∀ dns, events m ≠ .retry dns :=
    fun m hm => silent_of_quiet (hin m) (hquiet m hm).1
  have hidle : ∀ m, n ≤ m → (states m).ota.retryPending = false :=
    fun _ hm => hfair.none_pending h hlimited hin (fun k hk => (hsilent k hk).2) hm
  -- no retry is pending, so the timeout is armed and would fire
  have harmed := ((hlimited n).running (hin n)).timeoutTimer
  rw [hidle n le_rfl] at harmed
  obtain ⟨m,hm,hfires | hcomes | hoff⟩ := hfair.timeout n harmed
  · exact (hsilent m hm).1 hfires
  · exact absurd (hcomes.symm.trans (hquiet m hm).2) (by decide)
  · have htimer := ((hlimited m).running (hin m)).timeoutTimer
    rw [hidle m hm] at htimer
    exact absurd (htimer.symm.trans hoff) (by decide)

end Ends

end Invariant

/-- Every update ends: the attempts are bounded, a timer is armed as long as it is in progress, and
so it is not in progress forever. -/
theorem update_ends (s : State P) (a : StartArgs) :
    (∀ es w, Run (Counted.Step P) (Counted.start s a) es w →
      w.lookups ≤ maxLookups ∧ w.connects ≤ maxConnects ∧
        (w.ota.inProgress = true → w.ota.timeoutTimer = true ∨ w.ota.retryTimer = true)) ∧
    ∀ states events, Endless (Counted.Step P) (Counted.start s a) states events →
      Fair states events → ∃ n, (states n).ota.inProgress = false := by
  refine ⟨fun es w h => ?_,fun states events h hfair => hfair.ends h (start_limited s a)⟩
  have hlimited : Limited w := h.invariant (fun _ _ _ hw hst => hw.step hst) (start_limited s a)
  refine ⟨hlimited.bounded.lookups,hlimited.bounded.connects,fun hin => ?_⟩
  have hrunning := hlimited.running hin
  cases hp : w.ota.retryPending with
  | true => exact Or.inr (hrunning.retryTimer.trans hp)
  | false =>
    left
    rw [hrunning.timeoutTimer,hp]
    rfl

/-- A server whose name is never found, and what then comes. -/
def offline (n : ℕ) : Event := unknownServer.getD n (.dnsFound false false)

def offlineState (n : ℕ) : Counted samplePlatform :=
  ((List.range n).map offline).foldl (Counted.next samplePlatform)
    (Counted.start (State.boot samplePlatform fun _ => 0xFF) { sampleArgs with dns := .inProgress })

theorem offlineState_succ (n : ℕ) :
    offlineState (n+1) = (offlineState n).next samplePlatform (offline n) := by
  simp only [offlineState,List.range_succ,List.map_append,List.foldl_append,List.map_cons,
    List.map_nil,List.foldl_cons,List.foldl_nil]

theorem offline_ended : (offlineState 11).ota.inProgress = false ∧
    (offlineState 11).ota.timeoutTimer = false ∧ (offlineState 11).ota.retryTimer = false :=
  ⟨rfl,rfl,rfl⟩

theorem offline_silent {n : ℕ} (hn : 11 ≤ n) : offline n = .dnsFound false false := by
  rw [offline,List.getD,List.getElem?_eq_none hn]
  rfl

theorem offline_rests (n : ℕ) : (offlineState (n+11)).ota = (offlineState 11).ota := by
  induction n with
  | zero => rw [Nat.zero_add]
  | succ n ih =>
    have hguard : (!(offlineState 11).ota.inProgress || (offlineState 11).ota.retryPending) = true := by
      rw [offline_ended.1]
      rfl
    rw [Nat.add_right_comm,offlineState_succ,offline_silent (Nat.le_add_left 11 n),Counted.next]
    show otaDnsFoundCb (offlineState (n+11)).ota false false = _
    rw [ih,otaDnsFoundCb,if_pos hguard]

theorem offline_endless : Endless (Counted.Step samplePlatform) (offlineState 0) offlineState
    offline where
  start := rfl
  step := by
    intro n
    refine ⟨?_,offlineState_succ n⟩
    show Enabled (offlineState n).ota (offline n)
    by_cases hn : n < 11
    · interval_cases n
      all_goals first | exact fun h => absurd h Bool.false_ne_true | rfl
    · rw [offline_silent (Nat.le_of_not_lt hn)]
      exact fun h => absurd h Bool.false_ne_true

theorem update_ends_offline :
    Fair offlineState offline ∧ ∃ n, (offlineState n).ota.inProgress = false := by
  have hfair : Fair offlineState offline := by
    refine ⟨fun n _ => ⟨n+11,by omega,Or.inr (Or.inr ?_)⟩,fun n _ => ⟨n+11,by omega,Or.inr ?_⟩⟩
    · rw [offline_rests]
      exact offline_ended.2.1
    · rw [offline_rests]
      exact offline_ended.2.2
  exact ⟨hfair,(update_ends (State.boot samplePlatform fun _ => 0xFF)
    { sampleArgs with dns := .inProgress }).2 _ _ offline_endless hfair⟩

end Ota
end MeterLogger
