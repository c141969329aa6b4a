import MeterLogger.OtaAttempts

/-!
# Range requests

An attempt that fails goes on at the start of the sector it was in, and the request of the next one
asks for what is missing from there on. That is inside the image, unless the failure comes behind the
last byte of an image that ends with a sector: nothing is missing then, and the request asks for
what stands behind the image.
-/

namespace MeterLogger
namespace Ota

open CStrings FlashWriter OtaHeader Runs

variable {P : Platform}

/-- A request, and the size of the image if it is known when the request is sent. -/
structure Request where
  offset : ℕ
  size : Option ℕ
  deriving DecidableEq

/-- The machine, and the requests that it has sent. -/
structure Asked (P : Platform) where
  ota : State P
  requests : List Request

/-- `ota_tcp_connect_cb` sends a request. -/
def asks (s : State P) : Event → Bool
  | .connected _ => s.inProgress && !s.retryPending
  | _ => false

def requestOf (s : State P) : Request :=
  ⟨s.requestOffset,if s.firmwareSizeKnown then some s.firmwareSize else none⟩

def Asked.next (P : Platform) (w : Asked P) (e : Event) : Asked P where
  ota := Ota.next P w.ota e
  requests := w.requests ++ if asks w.ota e then [requestOf (Ota.next P w.ota e)] else []

def Asked.Step (P : Platform) : Asked P → Event → Asked P → Prop :=
  Guarded (fun w e => Enabled w.ota e) (ofFun (Asked.next P))

/-- The start of a download, from any state. -/
def Asked.start (s : State P) (a : StartArgs) : Asked P := ⟨(startOtaUpdate s a).1,[]⟩

/-- A request with a Range header asks for a byte of the image. -/
def Request.Inside (r : Request) : Prop := 0 < r.offset → ∀ size, r.size = some size → r.offset < size

/-- The last byte of an image that ends with a sector has come, and a retry is left. -/
structure AtEnd (s : State P) : Prop where
  left : s.retryCount < otaMaxRetries
  known : s.firmwareSizeKnown = true
  complete : s.receivedBytes = s.firmwareSize
  aligned : s.firmwareSize%sectorSize = 0

instance (s : State P) : Decidable (AtEnd s) :=
  decidable_of_iff (s.retryCount < otaMaxRetries ∧ s.firmwareSizeKnown = true ∧
    s.receivedBytes = s.firmwareSize ∧ s.firmwareSize%sectorSize = 0)
    ⟨fun ⟨hleft,hknown,hcomplete,haligned⟩ => ⟨hleft,hknown,hcomplete,haligned⟩,
      fun h => ⟨h.left,h.known,h.complete,h.aligned⟩⟩

/-- The attempt fails when nothing is missing. -/
def FailsAtEnd (s : State P) (e : Event) : Prop :=
  listens s e = true ∧ failsAttempt s e = true ∧ AtEnd s

instance (s : State P) (e : Event) : Decidable (FailsAtEnd s e) :=
  inferInstanceAs (Decidable (_ ∧ _ ∧ _))

section Failures

variable {s t u : State P}

/-- What another attempt begins with. -/
structure Resumed (s t : State P) : Prop where
  inProgress : t.inProgress = true
  retryPending : t.retryPending = true
  retryTimer : t.retryTimer = true
  receivedBytes : t.receivedBytes = s.receivedBytes/sectorSize*sectorSize
  firmwareSize : t.firmwareSize = s.firmwareSize
  firmwareSizeKnown : t.firmwareSizeKnown = s.firmwareSizeKnown

/-- A failure, which another attempt follows if a retry is left. -/
structure Lost (s t : State P) : Prop where
  ends : ¬s.retryCount < otaMaxRetries → t.inProgress = false
  resumes : s.retryCount < otaMaxRetries → Resumed s t

/-- What a failure looks at. -/
structure SameOffset (s u : State P) : Prop where
  retryCount : u.retryCount = s.retryCount
  receivedBytes : u.receivedBytes = s.receivedBytes
  firmwareSize : u.firmwareSize = s.firmwareSize
  firmwareSizeKnown : u.firmwareSizeKnown = s.firmwareSizeKnown

theorem Lost.of_same (h : Lost u t) (hs : SameOffset s u) : Lost s t := by
  obtain ⟨hends,hresumes⟩ := h
  rw [hs.retryCount] at hends hresumes
  refine ⟨hends,fun hleft => ?_⟩
  obtain ⟨hin,hpending,htimer,hbytes,hsize,hknown⟩ := hresumes hleft
  exact ⟨hin,hpending,htimer,by rw [hbytes,hs.receivedBytes],hsize.trans hs.firmwareSize,
    hknown.trans hs.firmwareSizeKnown⟩

theorem Lost.abort (h : Lost s t) : Lost s (espconnAbort t) where
  ends := h.ends
  resumes := fun hleft => have hr := h.resumes hleft
    ⟨hr.inProgress,hr.retryPending,hr.retryTimer,hr.receivedBytes,hr.firmwareSize,
      hr.firmwareSizeKnown⟩

theorem retryLater_resumed (hin : s.inProgress = true) (reason : RetryReason) :
    Resumed s (retryLater s reason) := by
  rw [retryLater]
  split
  · exact ⟨hin,rfl,rfl,rfl,rfl,rfl⟩
  · exact ⟨hin,rfl,rfl,rfl,rfl,rfl⟩

theorem otaTriggerReconnect_lost (h : Listening u) (hs : SameOffset s u) (reason : RetryReason) :
    Lost s (otaTriggerReconnect u reason) := by
  have hseen : ∀ v : State P, v.inProgress = true → SameOffset s v → Lost s
      (if v.retryCount < otaMaxRetries then retryLater v reason else retryExhausted v) := by
    intro v hv hsame
    refine Lost.of_same ⟨fun hno => ?_,fun hleft => ?_⟩ hsame
    · rw [if_neg hno]
      rfl
    · rw [if_pos hleft]
      exact retryLater_resumed hv reason
  rw [otaTriggerReconnect,h.guard,if_neg Bool.false_ne_true]
  cases reason <;>
    exact hseen _ h.inProgress ⟨hs.retryCount,hs.receivedBytes,hs.firmwareSize,hs.firmwareSizeKnown⟩

theorem listening_of_listens (h : (s.inProgress && !s.retryPending) = true) : Listening s := by
  rw [Bool.and_eq_true,Bool.not_eq_true'] at h
  exact ⟨h.1,h.2⟩

theorem otaDnsFoundCb_lost (h : Listening u) (hs : SameOffset s u) {found connectOk : Bool}
    (hf : (!found || !connectOk) = true) : Lost s (otaDnsFoundCb u found connectOk) := by
  have hlost : ∀ reason, Lost s (otaTriggerReconnect { u with
      dnsPending := false, timeoutTimer := false } reason) := by
    intro reason
    apply otaTriggerReconnect_lost
    · exact ⟨h.inProgress,h.retryPending⟩
    · exact ⟨hs.retryCount,hs.receivedBytes,hs.firmwareSize,hs.firmwareSizeKnown⟩
  rw [otaDnsFoundCb,h.guard,if_neg Bool.false_ne_true]
  cases found with
  | false => exact hlost .dns
  | true =>
    cases connectOk with
    | false => exact hlost .tcp
    | true => exact absurd hf Bool.false_ne_true

theorem endResponse_lost (h : Listening u) (hs : SameOffset s u) (io : StageIo)
    (hcomplete : complete u = false)
    (hf : (otaIncompleteHttpResponse u || !u.headersParsed || !u.responseLengthKnown ||
      !partComplete u) = true) : Lost s (endResponse P io u) := by
  have hlost : ∀ reason, Lost s (otaTriggerReconnect u reason) :=
    otaTriggerReconnect_lost h hs
  rw [endResponse,hcomplete,if_neg Bool.false_ne_true]
  split
  · exact hlost .incompleteHttpResponse
  · rename_i hwhole
    split
    · apply otaTriggerReconnect_lost
      · exact ⟨h.inProgress,h.retryPending⟩
      · exact ⟨hs.retryCount,hs.receivedBytes,hs.firmwareSize,hs.firmwareSizeKnown⟩
    · rename_i hheaders
      split
      · rename_i hpart
        rw [Bool.or_assoc (otaIncompleteHttpResponse u),Bool.eq_false_iff.mpr hwhole,
          Bool.eq_false_iff.mpr hheaders,hpart] at hf
        exact absurd hf Bool.false_ne_true
      · exact hlost .other

theorem next_lost {e : Event} (hl : listens s e = true) (hf : failsAttempt s e = true) :
    Lost s (next P s e) := by
  have hsame : SameOffset s s := ⟨rfl,rfl,rfl,rfl⟩
  cases e with
  | dnsFound found connectOk => exact otaDnsFoundCb_lost (listening_of_listens hl) hsame hf
  | connected sendOk =>
    cases sendOk with
    | true => exact absurd hf Bool.false_ne_true
    | false =>
      have hs := listening_of_listens hl
      rw [next,otaTcpConnectCb,if_neg (by simp [hs.inProgress,hs.retryPending])]
      refine Lost.abort (otaTriggerReconnect_lost ?_ ?_ .tcp)
      · exact ⟨hs.inProgress,hs.retryPending⟩
      · exact ⟨rfl,rfl,rfl,rfl⟩
  | received data io => exact absurd hf Bool.false_ne_true
  | disconnected io =>
    have hs := listening_of_listens hl
    rw [failsAttempt,Bool.and_eq_true,Bool.not_eq_true'] at hf
    rw [next,otaTcpDisconCb,if_neg (by simp [hs.inProgress,hs.retryPending])]
    apply endResponse_lost
    · exact ⟨hs.inProgress,hs.retryPending⟩
    · exact ⟨rfl,rfl,rfl,rfl⟩
    · exact hf.1
    · exact hf.2
  | connectionError =>
    have hs := listening_of_listens hl
    rw [next,otaTcpReconCb,if_neg (by simp [hs.inProgress,hs.retryPending])]
    have hlost : ∀ reason, Lost s (otaTriggerReconnect { s with
        phase := .idle, timeoutTimer := false, tcpFailureSeen := true } reason) := by
      intro reason
      apply otaTriggerReconnect_lost
      · exact ⟨hs.inProgress,hs.retryPending⟩
      · exact ⟨rfl,rfl,rfl,rfl⟩
    dsimp only
    split
    · exact hlost .incompleteHttpResponse
    · exact hlost .tcp
  | timeout =>
    have hs := listening_of_listens hl
    have hlost : ∀ seen reason, Lost s (otaTriggerReconnect { s with
        timeoutTimer := false, dnsPending := false, tcpFailureSeen := seen } reason) := by
      intro seen reason
      apply otaTriggerReconnect_lost
      · exact ⟨hs.inProgress,hs.retryPending⟩
      · exact ⟨rfl,rfl,rfl,rfl⟩
    rw [next,otaTimeoutTimerCb,if_neg (by simp [hs.inProgress,hs.retryPending])]
    dsimp only
    split
    · split
      · exact hlost true .incompleteHttpResponse
      · exact hlost s.tcpFailureSeen .dns
    · split
      · exact (hlost true .incompleteHttpResponse).abort
      · exact (hlost s.tcpFailureSeen .tcp).abort
  | retry dns =>
    have hin : s.inProgress = true := hl
    rw [next,otaRetryTimerCb,if_neg (by simp [hin])]
    cases dns with
    | ok connectOk =>
      apply otaDnsFoundCb_lost
      · exact ⟨hin,rfl⟩
      · exact ⟨rfl,rfl,rfl,rfl⟩
      · exact hf
    | inProgress => exact absurd hf Bool.false_ne_true
    | error =>
      apply otaTriggerReconnect_lost
      · exact ⟨hin,rfl⟩
      · exact ⟨rfl,rfl,rfl,rfl⟩
  | progress => exact absurd hf Bool.false_ne_true

end Failures

/-- No more than the image has been received, and some of it is missing unless a response comes. -/
structure InImage (s : State P) : Prop where
  unknown : s.firmwareSizeKnown = false → s.receivedBytes = 0
  known : s.firmwareSizeKnown = true → s.receivedBytes ≤ s.firmwareSize
  missing : s.firmwareSizeKnown = true → s.retryPending = true ∨ s.phase ≠ .established →
    s.receivedBytes < s.firmwareSize
  armed : s.retryTimer = true → s.retryPending = true

section InImage

variable {s t : State P} {io : FlashIo} {data : List UInt8}

/-- The start of the sector is inside the image, unless nothing is missing of its last one. -/
theorem Resumed.inImage (h : InImage s) (hleft : s.retryCount < otaMaxRetries) (hend : ¬AtEnd s)
    (hr : Resumed s t) : InImage t := by
  have hfloor : s.receivedBytes/sectorSize*sectorSize ≤ s.receivedBytes := Nat.div_mul_le_self _ _
  have hmissing : s.firmwareSizeKnown = true → t.receivedBytes < s.firmwareSize := by
    intro hknown
    rw [hr.receivedBytes]
    rcases Nat.lt_or_eq_of_le (h.known hknown) with hlt | heq
    · exact hfloor.trans_lt hlt
    · have hodd : s.firmwareSize%sectorSize ≠ 0 := fun hz => hend ⟨hleft,hknown,heq,hz⟩
      have hdiv := Nat.div_add_mod' s.firmwareSize sectorSize
      rw [heq]
      omega
  refine ⟨fun hno => ?_,fun hknown => ?_,fun hknown _ => ?_,fun _ => hr.retryPending⟩
  · have hzero := h.unknown (hr.firmwareSizeKnown.symm.trans hno)
    rw [hr.receivedBytes,hzero]
    rfl
  · rw [hr.firmwareSize]
    exact (hmissing (hr.firmwareSizeKnown.symm.trans hknown)).le
  · rw [hr.firmwareSize]
    exact hmissing (hr.firmwareSizeKnown.symm.trans hknown)

theorem Lost.inImage (h : InImage s) (hend : ¬AtEnd s) (hl : Lost s t) (hin : t.inProgress = true) :
    InImage t := by
  by_cases hleft : s.retryCount < otaMaxRetries
  · exact (hl.resumes hleft).inImage h hleft hend
  · exact absurd (hin.symm.trans (hl.ends hleft)) (by decide)

theorem writeBody_size (io : FlashIo) (s : State P) (data : List UInt8) :
    (writeBody P io s data).firmwareSize = s.firmwareSize ∧
      (writeBody P io s data).firmwareSizeKnown = s.firmwareSizeKnown := by
  rw [writeBody]
  generalize hu : (if s.hasSha256 then { s with shaCtx := s.shaCtx ++ data } else s) = u
  have hsize : u.firmwareSize = s.firmwareSize ∧ u.firmwareSizeKnown = s.firmwareSizeKnown := by
    rw [← hu]
    split <;> exact ⟨rfl,rfl⟩
  split
  · exact hsize
  · exact hsize

theorem startWriter_size (io : FlashIo) (s : State P) (magicByte : UInt8) :
    (startWriter P io s magicByte).1.firmwareSize = s.firmwareSize ∧
      (startWriter P io s magicByte).1.firmwareSizeKnown = s.firmwareSizeKnown := by
  rw [startWriter]
  split
  · exact ⟨rfl,rfl⟩
  · dsimp only
    split
    · exact ⟨rfl,rfl⟩
    · split
      · exact ⟨rfl,rfl⟩
      · exact ⟨rfl,rfl⟩

theorem InImage.took (h : InImage s) (hphase : s.phase = .established) (hl : s.retryPending = false)
    {n : ℕ} (ht : Took s t n) (hsize : t.firmwareSize = s.firmwareSize)
    (hknown : t.firmwareSizeKnown = true) (hfits : s.receivedBytes+n ≤ s.firmwareSize) :
    InImage t := by
  have hpending : t.retryPending = false := ht.kept.retryPending.trans hl
  refine ⟨fun hno => absurd (hno.symm.trans hknown) (by decide),fun _ => ?_,fun _ hwait => ?_,?_⟩
  · rw [hsize,ht.receivedBytes]
    exact hfits
  · rw [hpending,ht.kept.phase,hphase] at hwait
    exact absurd hwait (by simp)
  · rw [ht.kept.retryTimer,ht.kept.retryPending]
    exact h.armed

theorem receiveBody_inImage (h : InImage s) (hphase : s.phase = .established)
    (hl : s.retryPending = false) (io : FlashIo) (data : List UInt8) :
    (receiveBody P io s data).inProgress = false ∨ InImage (receiveBody P io s data) ∧
      (receiveBody P io s data).retryCount = s.retryCount := by
  rw [receiveBody]
  split
  · exact Or.inr ⟨h,rfl⟩
  · split
    · exact Or.inl rfl
    · split
      · exact Or.inl rfl
      · rename_i hfits
        rw [not_or,not_or,not_or] at hfits
        obtain ⟨hknown,_,hroom,_⟩ := hfits
        have hknown' : s.firmwareSizeKnown = true := by simpa using hknown
        have hle : s.receivedBytes+data.length ≤ s.firmwareSize := by
          have hbound := h.known hknown'
          omega
        split
        · obtain ⟨hsize,hsame⟩ := writeBody_size (P := P) io s data
          exact (writeBody_took io s data).imp_right fun ht =>
            ⟨h.took hphase hl ht hsize (hsame.trans hknown') hle,ht.kept.retryCount⟩
        · have hstart := startWriter_took (P := P) io s (data.headD 0)
          obtain ⟨hsize₁,hsame₁⟩ := startWriter_size (P := P) io s (data.headD 0)
          rcases hw : startWriter P io s (data.headD 0) with ⟨u,_ | error⟩
          · rw [hw] at hstart hsize₁ hsame₁
            obtain ⟨hsize₂,hsame₂⟩ := writeBody_size (P := P) io u data
            exact (writeBody_took io u data).imp_right fun ht =>
              ⟨h.took hphase hl (hstart.after ht) (hsize₂.trans hsize₁)
                (hsame₂.trans (hsame₁.trans hknown')) hle,(hstart.after ht).kept.retryCount⟩
          · exact Or.inl rfl

theorem acceptWhole_inImage (h : InImage s) {length : ℕ} (ha : (acceptWhole s length).2 = none) :
    InImage (acceptWhole s length).1 := by
  rw [acceptWhole] at ha ⊢
  obtain ⟨hsize,heq⟩ := passed ha
  rw [heq]
  have hpos : 0 < length := by
    rw [minFirmwareSize] at hsize
    omega
  exact ⟨fun hno => absurd hno (by simp),fun _ => Nat.zero_le _,fun _ _ => hpos,h.armed⟩

theorem acceptRange_inImage (h : InImage s) {length start stop total : ℕ}
    (ha : (acceptRange s length start stop total).2 = none) :
    InImage (acceptRange s length start stop total).1 := by
  rw [acceptRange] at ha ⊢
  obtain ⟨_,heq₁⟩ := passed ha
  rw [heq₁] at ha ⊢
  obtain ⟨hsize,heq₂⟩ := passed ha
  rw [heq₂] at ha ⊢
  obtain ⟨_,heq₃⟩ := passed ha
  rw [heq₃] at ha ⊢
  obtain ⟨hsame,heq₄⟩ := passed ha
  rw [heq₄]
  have hpos : 0 < total := by
    rw [minFirmwareSize] at hsize
    omega
  refine ⟨fun hno => absurd hno (by simp),fun _ => ?_,fun _ hwait => ?_,h.armed⟩
  · show s.receivedBytes ≤ total
    cases hknown : s.firmwareSizeKnown with
    | true =>
      rw [← not_not.mp fun hne => hsame ⟨hknown,hne⟩]
      exact h.known hknown
    | false =>
      rw [h.unknown hknown]
      exact hpos.le
  · show s.receivedBytes < total
    cases hknown : s.firmwareSizeKnown with
    | true =>
      rw [← not_not.mp fun hne => hsame ⟨hknown,hne⟩]
      exact h.missing hknown hwait
    | false =>
      rw [h.unknown hknown]
      exact hpos

theorem acceptHeader_inImage (h : InImage s) (header : List UInt8)
    (ha : (acceptHeader s header).2 = none) : InImage (acceptHeader s header).1 := by
  have hanswered : ∀ code, InImage (answered s code) := fun _ =>
    ⟨h.unknown,h.known,h.missing,h.armed⟩
  have hopen : ∀ (t : State P) (n : ℕ), InImage t → InImage (openBody t n) := fun _ _ ht =>
    ⟨ht.unknown,ht.known,ht.missing,ht.armed⟩
  have hresponse : ∀ code length, (acceptResponse s header code length).2 = none →
      InImage (acceptResponse s header code length).1 := by
    intro code length hr
    rw [acceptResponse] at hr ⊢
    split at hr
    · rename_i hcode
      rw [if_pos hcode]
      exact acceptWhole_inImage (hanswered code) hr
    · rename_i hcode
      rw [if_neg hcode]
      rcases hrange : contentRange header with _ | ⟨start,stop,total⟩
      · rw [hrange] at hr
        exact absurd hr (by simp)
      · rw [hrange] at hr
        exact acceptRange_inImage (hanswered code) hr
  rw [acceptHeader] at ha ⊢
  cases hstatus : otaParseStatusCode header with
  | none =>
    rw [hstatus] at ha
    exact absurd ha (by simp)
  | some code =>
    rw [hstatus] at ha
    dsimp only at ha ⊢
    obtain ⟨_,heq⟩ := passed ha
    rw [heq] at ha ⊢
    cases hlength : contentLength header with
    | none =>
      rw [hlength] at ha
      exact absurd ha (by simp)
    | some length =>
      rw [hlength] at ha
      dsimp only at ha ⊢
      have hkept := hresponse code length
      rcases hr : acceptResponse s header code length with ⟨t,_ | error⟩
      · rw [hr] at hkept
        exact hopen t length (hkept rfl)
      · rw [hr] at ha
        exact absurd ha (by simp)

theorem receiveHeader_inImage (h : InImage s) (data : List UInt8) :
    (receiveHeader s data).2 = none ∧ (receiveHeader s data).1.inProgress = false ∨
      InImage (receiveHeader s data).1 ∧ (receiveHeader s data).1.phase = s.phase ∧
        (receiveHeader s data).1.retryPending = s.retryPending ∧
        (receiveHeader s data).1.retryCount = s.retryCount := by
  rw [receiveHeader]
  split
  · exact Or.inr ⟨h,rfl,rfl,rfl⟩
  · have hcollect : InImage (collectHeader s data) := ⟨h.unknown,h.known,h.missing,h.armed⟩
    dsimp only
    split
    · split
      · exact Or.inl ⟨rfl,rfl⟩
      · exact Or.inr ⟨hcollect,rfl,rfl,rfl⟩
    · have himage := acceptHeader_inImage hcollect (cstr (collectHeader s data).headerBuffer)
      have hbegun := acceptHeader_begun (collectHeader s data)
        (cstr (collectHeader s data).headerBuffer)
      rw [endHeader]
      rcases ha : acceptHeader (collectHeader s data) (cstr (collectHeader s data).headerBuffer) with
        ⟨t,_ | error⟩
      · rw [ha] at himage hbegun
        have hkept := (hbegun rfl).kept
        dsimp only
        split
        · exact Or.inl ⟨rfl,rfl⟩
        · split
          · exact Or.inl ⟨rfl,rfl⟩
          · exact Or.inr ⟨himage rfl,hkept.phase,hkept.retryPending,hkept.retryCount⟩
      · exact Or.inl ⟨rfl,rfl⟩

theorem otaTcpRecvCb_inImage (h : InImage s) (hphase : s.phase = .established) (io : FlashIo)
    (data : List UInt8) :
    (otaTcpRecvCb P io s data).inProgress = false ∨ InImage (otaTcpRecvCb P io s data) ∧
      (otaTcpRecvCb P io s data).retryCount = s.retryCount := by
  rw [otaTcpRecvCb]
  split
  · exact Or.inr ⟨h,rfl⟩
  · rename_i hguard
    rw [Bool.or_eq_true,not_or] at hguard
    have hpending : s.retryPending = false := Bool.eq_false_iff.mpr hguard.2
    dsimp only
    have hcases := receiveHeader_inImage (s := { s with timeoutTimer := true })
      ⟨h.unknown,h.known,h.missing,h.armed⟩ data
    rcases hr : receiveHeader { s with timeoutTimer := true } data with ⟨t,_ | body⟩
    · rw [hr] at hcases
      exact hcases.imp And.right fun hkept => ⟨hkept.1,hkept.2.2.2⟩
    · rw [hr] at hcases
      rcases hcases with ⟨hno,_⟩ | ⟨himage,hsame,hwait,hcount⟩
      · exact absurd hno (by simp)
      · exact (receiveBody_inImage himage (hsame.trans hphase) (hwait.trans hpending) io body).imp_right
          fun hbody => ⟨hbody.1,hbody.2.trans hcount⟩

theorem InImage.otaDnsFoundCb (h : InImage s) (hl : Listening s) (hend : ¬AtEnd s)
    {found connectOk : Bool} (hidle : connectOk = true → s.phase = .idle)
    (hin : (otaDnsFoundCb s found connectOk).inProgress = true) :
    InImage (otaDnsFoundCb s found connectOk) := by
  by_cases hf : (!found || !connectOk) = true
  · exact (otaDnsFoundCb_lost hl ⟨rfl,rfl,rfl,rfl⟩ hf).inImage h hend hin
  · rw [Bool.or_eq_true,not_or,Bool.not_eq_true',Bool.not_eq_true',Bool.not_eq_false,
      Bool.not_eq_false] at hf
    obtain ⟨rfl,rfl⟩ := hf
    have hopen : s.phase ≠ .established := by
      rw [hidle rfl]
      decide
    rw [Ota.otaDnsFoundCb,hl.guard,if_neg Bool.false_ne_true]
    exact ⟨h.unknown,h.known,fun hknown _ => h.missing hknown (Or.inr hopen),h.armed⟩

theorem InImage.not_atEnd (h : InImage s) (hwait : s.retryPending = true ∨ s.phase ≠ .established) :
    ¬AtEnd s := fun hend => (h.missing hend.known hwait).ne hend.complete

theorem InImage.dnsGethostbyname (h : InImage s) (hl : Listening s) (hidle : s.phase = .idle)
    (dns : DnsResult) (hin : (dnsGethostbyname s dns).inProgress = true) :
    InImage (dnsGethostbyname s dns) := by
  have hend : ¬AtEnd s := h.not_atEnd (Or.inr (by rw [hidle]; decide))
  cases dns with
  | ok connectOk => exact h.otaDnsFoundCb hl hend (fun _ => hidle) hin
  | inProgress => exact h
  | error =>
    have hlost : Lost s (Ota.dnsGethostbyname s .error) := by
      apply otaTriggerReconnect_lost
      · exact ⟨hl.inProgress,hl.retryPending⟩
      · exact ⟨rfl,rfl,rfl,rfl⟩
    exact hlost.inImage h hend hin

/-- A connection that is closed at the end of a response: the image is staged, or continued. -/
theorem InImage.disconnected (h : InImage s) (hl : Listening s) (io : StageIo)
    (hf : failsAttempt s (.disconnected io) = false)
    (hin : (next P s (.disconnected io)).inProgress = true) :
    InImage (next P s (.disconnected io)) := by
  have hguard : (!({ s with phase := .idle } : State P).inProgress ||
      ({ s with phase := .idle } : State P).retryPending) = false := hl.guard
  rw [Ota.next,otaTcpDisconCb,hguard,if_neg Bool.false_ne_true,endResponse] at hin ⊢
  by_cases hc : complete { s with phase := .idle, timeoutTimer := false } = true
  · rw [if_pos hc,stageImage_inProgress] at hin
    exact absurd hin (by decide)
  · have hc' : complete s = false := Bool.eq_false_iff.mpr hc
    rw [failsAttempt,hc',Bool.not_false,Bool.true_and] at hf
    obtain ⟨hwhole,hheaders,hlength,hpart⟩ : otaIncompleteHttpResponse s = false ∧
        s.headersParsed = true ∧ s.responseLengthKnown = true ∧ partComplete s = true := by
      simpa [and_assoc] using hf
    have hless : s.receivedBytes < s.firmwareSize := by
      rw [partComplete,Bool.and_eq_true,decide_eq_true_eq] at hpart
      exact hpart.2
    have hwhole' : ¬otaIncompleteHttpResponse { s with phase := .idle, timeoutTimer := false } = true :=
      Bool.eq_false_iff.mp hwhole
    have hpart' : partComplete { s with phase := .idle, timeoutTimer := false } = true := hpart
    rw [if_neg hc,if_neg hwhole',if_neg (by simp [hheaders,hlength]),if_pos hpart',
      otaScheduleRangeContinue,if_neg (by simp [hl.inProgress,hl.retryPending])]
    exact ⟨h.unknown,h.known,fun _ _ => hless,fun _ => rfl⟩

theorem InImage.next (h : InImage s) (hrun : s.inProgress = true) {e : Event} (he : Enabled s e)
    (hok : ¬FailsAtEnd s e) (hin : (next P s e).inProgress = true) : InImage (next P s e) := by
  have hfails : listens s e = true → failsAttempt s e = true → InImage (Ota.next P s e) :=
    fun hl hf => (next_lost hl hf).inImage h (fun hend => hok ⟨hl,hf,hend⟩) hin
  cases hp : s.retryPending with
  | true =>
    have hguard : (!s.inProgress || s.retryPending) = true := by
      rw [hp,Bool.or_true]
    have hmissing := fun hknown => h.missing hknown (Or.inl hp)
    cases e with
    | dnsFound found connectOk =>
      rw [Ota.next,Ota.otaDnsFoundCb,if_pos hguard]
      exact h
    | connected sendOk =>
      rw [Ota.next,otaTcpConnectCb,if_pos hguard]
      exact ⟨h.unknown,h.known,fun hknown _ => hmissing hknown,h.armed⟩
    | received data io =>
      rw [Ota.next,otaTcpRecvCb,if_pos hguard]
      exact h
    | disconnected io =>
      rw [Ota.next,otaTcpDisconCb,if_pos hguard]
      exact ⟨h.unknown,h.known,fun hknown _ => hmissing hknown,h.armed⟩
    | connectionError =>
      rw [Ota.next,otaTcpReconCb,if_pos hguard]
      exact ⟨h.unknown,h.known,fun hknown _ => hmissing hknown,h.armed⟩
    | timeout =>
      rw [Ota.next,otaTimeoutTimerCb,if_pos hguard]
      exact ⟨h.unknown,h.known,h.missing,h.armed⟩
    | retry dns =>
      rw [Ota.next,otaRetryTimerCb,if_neg (by simp [hrun])] at hin ⊢
      refine InImage.dnsGethostbyname ?_ ?_ rfl dns hin
      · exact ⟨h.unknown,h.known,fun hknown _ => hmissing hknown,fun hno => absurd hno (by simp)⟩
      · exact ⟨hrun,rfl⟩
    | progress =>
      rw [Ota.next,otaProgressTimerCb,if_pos (by simp [hp])]
      exact h
  | false =>
    have hl : Listening s := ⟨hrun,hp⟩
    have hlistens : (s.inProgress && !s.retryPending) = true := by
      rw [hrun,hp]
      rfl
    cases e with
    | dnsFound found connectOk =>
      by_cases hf : (!found || !connectOk) = true
      · exact hfails hlistens hf
      · have hconnected : connectOk = true := by
          cases connectOk with
          | true => rfl
          | false => exact absurd (Bool.or_true _) hf
        have hopen : s.phase ≠ .established := by
          rw [show s.phase = .idle from he hconnected]
          decide
        exact h.otaDnsFoundCb hl (h.not_atEnd (Or.inr hopen)) he hin
    | connected sendOk =>
      cases sendOk with
      | false => exact hfails hlistens rfl
      | true =>
        rw [Ota.next,otaTcpConnectCb,if_neg (by simp [hrun,hp])]
        refine ⟨h.unknown,h.known,fun _ hwait => ?_,h.armed⟩
        exact absurd hwait (by simp [State.post,hp])
    | received data io =>
      have hcases := otaTcpRecvCb_inImage h he io data
      exact (hcases.resolve_left fun hno => absurd (hin.symm.trans hno) (by decide)).1
    | disconnected io =>
      cases hf : failsAttempt s (.disconnected io) with
      | true => exact hfails hlistens hf
      | false => exact h.disconnected hl io hf hin
    | connectionError => exact hfails hlistens rfl
    | timeout => exact hfails hlistens rfl
    | retry dns => exact absurd ((h.armed he).symm.trans hp) (by decide)
    | progress =>
      rw [Ota.next,otaProgressTimerCb]
      split
      · exact h
      · dsimp only
        split
        · exact h
        · exact ⟨h.unknown,h.known,h.missing,h.armed⟩

end InImage

section Runs

variable {w w' : Asked P} {s t : State P}

/-- The requests so far ask for bytes of the image, and so will the next one. -/
structure Sound (w : Asked P) : Prop where
  inImage : w.ota.inProgress = true → InImage w.ota
  inside : ∀ r ∈ w.requests, r.Inside

theorem reportExhausted_request (s : State P) : requestOf (reportExhausted s) = requestOf s := by
  have hstep : ∀ (b : Bool) (u : State P) (text : String),
      requestOf (if b then u.report text else u) = requestOf u := by
    intro b u text
    cases b <;> rfl
  rw [reportExhausted]
  split
  · rw [hstep,hstep,hstep,hstep]
  · exact (hstep true _ _).trans (by rw [hstep,hstep,hstep,hstep])

theorem otaTriggerReconnect_request (s : State P) (reason : RetryReason) :
    requestOf (otaTriggerReconnect s reason) = requestOf s := by
  have hlater : ∀ u : State P, requestOf (retryLater u reason) = requestOf u := by
    intro u
    rw [retryLater]
    split <;> rfl
  have hexhausted : ∀ u : State P, requestOf (retryExhausted u) = requestOf u := fun u =>
    reportExhausted_request { otaCleanupTimers u with
      retryPending := false
      continuePending := false
      isValidBinary := false
      dnsPending := false }
  rw [otaTriggerReconnect]
  split
  · rfl
  · dsimp only
    split
    · rw [hlater]
      cases reason <;> rfl
    · rw [hexhausted]
      cases reason <;> rfl

theorem connected_request (hl : Listening s) (sendOk : Bool) :
    requestOf (next P s (.connected sendOk)) =
      ⟨s.receivedBytes,if s.firmwareSizeKnown then some s.firmwareSize else none⟩ := by
  rw [next,otaTcpConnectCb,if_neg (by simp [hl.inProgress,hl.retryPending])]
  cases sendOk with
  | true => rfl
  | false => exact otaTriggerReconnect_request _ .tcp

theorem Sound.step {e : Event} (h : Sound w) (hok : ¬FailsAtEnd w.ota e)
    (hs : Asked.Step P w e w') : Sound w' := by
  obtain ⟨he,rfl⟩ := hs
  have himage : (next P w.ota e).inProgress = true → InImage (next P w.ota e) := by
    intro hin
    cases hrun : w.ota.inProgress with
    | true => exact (h.inImage hrun).next hrun he hok hin
    | false => exact absurd (hin.symm.trans (next_stays hrun e).inProgress) (by decide)
  refine ⟨himage,fun r hr => ?_⟩
  rcases List.mem_append.mp hr with hr | hr
  · exact h.inside r hr
  · cases hasks : asks w.ota e with
    | false =>
      rw [hasks] at hr
      exact absurd hr List.not_mem_nil
    | true =>
      rw [hasks] at hr
      cases e with
      | connected sendOk =>
        have hl := listening_of_listens hasks
        obtain rfl := List.mem_singleton.mp hr
        rw [connected_request hl]
        intro _ size hsize
        dsimp only at hsize ⊢
        cases hknown : w.ota.firmwareSizeKnown with
        | true =>
          have hopen : w.ota.phase ≠ .established := by
            rw [show w.ota.phase = .connecting from he]
            decide
          rw [hknown] at hsize
          rw [← Option.some.inj hsize]
          exact (h.inImage hl.inProgress).missing hknown (Or.inr hopen)
        | false =>
          rw [hknown] at hsize
          cases hsize
      | dnsFound _ _ | received _ _ | disconnected _ | connectionError | timeout | retry _
      | progress => exact absurd hasks Bool.false_ne_true

theorem startOtaUpdate_inImage (s : State P) (a : StartArgs)
    (hin : (startOtaUpdate s a).1.inProgress = true) : InImage (startOtaUpdate s a).1 := by
  have hspec := setDigests_spec (s := resetForStart s) a.hexSha256₁ a.hexSha256₂
  rw [startOtaUpdate] at hin ⊢
  rcases hset : setDigests (resetForStart s) a.hexSha256₁ a.hexSha256₂ with ⟨t,_ | _⟩
  · rw [hset,otaFailUpdate_inProgress] at hin
    exact absurd hin (by decide)
  · rw [hset] at hspec hin
    obtain ⟨digest₁,digest₂,_,_,ht⟩ := hspec rfl
    dsimp only at ht hin ⊢
    cases hurl : a.url.bind parseUrl with
    | none =>
      rw [hurl,otaFailUpdate_inProgress] at hin
      exact absurd hin (by decide)
    | some url =>
      rw [hurl] at hin
      have hselected : ∃ ctx rom, selectTarget t a =
          { resetForStart s with
            expectedSha256₁ := digest₁
            expectedSha256₂ := digest₂
            shaCtx := ctx
            targetRom := rom } := by
        rw [selectTarget,ht]
        split
        · exact ⟨_,_,rfl⟩
        · exact ⟨_,_,rfl⟩
      obtain ⟨ctx,rom,heq⟩ := hselected
      rw [heq] at hin ⊢
      refine InImage.dnsGethostbyname ?_ ⟨rfl,rfl⟩ rfl a.dns hin
      exact ⟨fun _ => rfl,fun hno => absurd hno (by simp [resolveHost,resetForStart,otaCleanupTimers]),
        fun hno => absurd hno (by simp [resolveHost,resetForStart,otaCleanupTimers]),
        fun hno => absurd hno (by simp [resolveHost,resetForStart,otaCleanupTimers])⟩

/-- In a run in which no attempt fails behind the last byte of an image that ends with a sector, each
request asks for bytes of the image. -/
theorem range_requests_inside (P : Platform) (s : State P) (a : StartArgs) {es : List Event}
    {w : Asked P}
    (h : Run (Guarded (fun w e => ¬FailsAtEnd w.ota e) (Asked.Step P)) (Asked.start s a) es w) :
    ∀ r ∈ w.requests, r.Inside := by
  have hsound : Sound w := by
    refine h.invariant (fun _ _ _ hs hstep => hs.step hstep.1 hstep.2) ⟨?_,?_⟩
    · exact startOtaUpdate_inImage s a
    · exact fun _ hr => absurd hr List.not_mem_nil
  exact hsound.inside

theorem retry_connects (hin : s.inProgress = true) :
    Listening (next P s (.retry (.ok true))) ∧
      (next P s (.retry (.ok true))).phase = .connecting ∧
      SameOffset s (next P s (.retry (.ok true))) := by
  rw [next,otaRetryTimerCb,if_neg (by simp [hin])]
  dsimp only
  rw [dnsGethostbyname,otaDnsFoundCb,if_neg (by simp [hin])]
  exact ⟨⟨hin,rfl⟩,rfl,rfl,rfl,rfl,rfl⟩

/-- The condition is exact: a failure at the end can be followed by a request behind the image. -/
theorem end_overruns {e : Event} (he : Enabled w.ota e) (hf : FailsAtEnd w.ota e)
    (hpos : 0 < w.ota.firmwareSize) :
    ∃ w', Run (Asked.Step P) w [e,.retry (.ok true),.connected true] w' ∧
      ∃ r ∈ w'.requests, r = ⟨w.ota.firmwareSize,some w.ota.firmwareSize⟩ ∧ ¬r.Inside := by
  obtain ⟨hlistens,hfails,hend⟩ := hf
  have hresumed := (next_lost hlistens hfails).resumes hend.left
  have hbytes : (next P w.ota e).receivedBytes = w.ota.firmwareSize := by
    have hdiv := Nat.div_add_mod' w.ota.firmwareSize sectorSize
    rw [hend.aligned,Nat.add_zero] at hdiv
    rw [hresumed.receivedBytes,hend.complete,hdiv]
  obtain ⟨hl,hphase,hsame⟩ := retry_connects hresumed.inProgress
  have hrequest := connected_request hl true
  rw [hsame.receivedBytes,hbytes,hsame.firmwareSizeKnown,hresumed.firmwareSizeKnown,hend.known,
    if_pos rfl,hsame.firmwareSize,hresumed.firmwareSize] at hrequest
  have hasks : asks (next P (next P w.ota e) (.retry (.ok true))) (.connected true) = true := by
    rw [asks,hl.inProgress,hl.retryPending]
    rfl
  refine ⟨((w.next P e).next P (.retry (.ok true))).next P (.connected true),?_,
    ⟨w.ota.firmwareSize,some w.ota.firmwareSize⟩,?_,rfl,fun hno => ?_⟩
  · refine .cons ⟨he,rfl⟩ (.cons ⟨?_,rfl⟩ (.single ⟨?_,rfl⟩))
    · exact hresumed.retryTimer
    · exact hphase
  · refine List.mem_append_right _ ?_
    show _ ∈ if asks (next P (next P w.ota e) (.retry (.ok true))) (.connected true) then _ else _
    rw [hasks,if_pos rfl]
    exact List.mem_singleton.mpr hrequest.symm
  · exact absurd (hno hpos _ rfl) (Nat.lt_irrefl _)

end Runs

def sampleAsked : Asked samplePlatform :=
  .start (State.boot samplePlatform fun _ => 0xFF) sampleArgs

/-- The connection fails when 5000 bytes of the image have come, and the rest is asked for. -/
def lostResponse : List Event :=
  [.connected true,.received sampleHeader sampleIo,.received (List.replicate 5000 0xE9) sampleIo,
    .connectionError,.retry (.ok true),.connected true]

theorem range_requests_inside_lost : ∃ w,
    Run (Guarded (fun w e => ¬FailsAtEnd w.ota e) (Asked.Step samplePlatform)) sampleAsked
      lostResponse w ∧ w.requests = [⟨0,none⟩,⟨4096,some 102400⟩] ∧
      ∀ r ∈ w.requests, r.Inside := by
  let w := lostResponse.foldl (Asked.next samplePlatform) sampleAsked
  have hstates : allowed (fun w e => ¬FailsAtEnd w.ota e ∧ Enabled w.ota e)
      (Asked.next samplePlatform) sampleAsked lostResponse = true ∧
      w.requests = [⟨0,none⟩,⟨4096,some 102400⟩] := by decide +kernel
  have hrun := guarded_of_allowed hstates.1
  exact ⟨w,hrun,hstates.2,range_requests_inside samplePlatform _ sampleArgs hrun⟩

theorem reply_atEnd {w : Asked P} {header image : List UInt8} {io : FlashIo} {rom : ℕ}
    (hreply : Reply header image) (hio : Reliable io) (haligned : image.length%sectorSize = 0)
    (h : Requested w.ota .connecting rom) (himage : InImage w.ota)
    (hleft : w.ota.retryCount < otaMaxRetries) :
    ∃ w', Run (Asked.Step P) w [.connected true,.received (header ++ image) io] w' ∧
      Listening w'.ota ∧ w'.ota.phase = .established ∧ w'.ota.firmwareSize = image.length ∧
      AtEnd w'.ota := by
  have hrequested : Requested (w.next P (.connected true)).ota .established rom :=
    otaTcpConnectCb_requested h
  have hsent : InImage (w.next P (.connected true)).ota := by
    have hopen : Enabled w.ota (.connected true) := h.phase
    refine himage.next h.listening.inProgress hopen ?_ hrequested.listening.inProgress
    exact fun hno => absurd hno.2.1 Bool.false_ne_true
  have hcount : (w.next P (.connected true)).ota.retryCount = w.ota.retryCount := by
    rw [Asked.next,next,otaTcpConnectCb,
      if_neg (by simp [h.listening.inProgress,h.listening.retryPending])]
    rfl
  have hreceived := otaTcpRecvCb_reply (P := P) hreply hrequested hio
  have hin := hreceived.listening.inProgress
  have hcases := otaTcpRecvCb_inImage hsent hrequested.phase io (header ++ image)
  obtain ⟨_,hkept⟩ := hcases.resolve_left fun hno => absurd (hin.symm.trans hno) (by decide)
  have hknown : (otaTcpRecvCb P io (w.next P (.connected true)).ota
      (header ++ image)).firmwareSizeKnown = true := by
    have hcomplete := hreceived.complete
    rw [complete] at hcomplete
    simp only [Bool.and_eq_true] at hcomplete
    exact hcomplete.1.2
  refine ⟨(w.next P (.connected true)).next P (.received (header ++ image) io),?_,
    hreceived.listening,hreceived.phase,hreceived.firmwareSize,?_⟩
  · exact .cons ⟨h.phase,rfl⟩ (.single ⟨hrequested.phase,rfl⟩)
  · refine ⟨?_,hknown,hreceived.receivedBytes.trans hreceived.firmwareSize.symm,?_⟩
    · exact (hkept.trans hcount).trans_lt hleft
    · exact (congrArg (· % sectorSize) hreceived.firmwareSize).trans haligned

/-- The connection fails when all 25 sectors have come; the request that follows asks for the next
one. -/
theorem range_request_behind : ¬∀ (P : Platform) (s : State P) (a : StartArgs) es w,
    Run (Asked.Step P) (Asked.start s a) es w → ∀ r ∈ w.requests, r.Inside := by
  intro h
  have hurl : sampleArgs.url.bind parseUrl =
      some ⟨ascii "update.local",80,ascii "update.local",ascii "/fw.bin"⟩ := by decide
  have hstart : Requested sampleAsked.ota .connecting (targetSlot sampleArgs) :=
    startOtaUpdate_connecting hurl rfl rfl rfl
  have himage : InImage sampleAsked.ota := startOtaUpdate_inImage _ _ hstart.listening.inProgress
  have hleft : sampleAsked.ota.retryCount < otaMaxRetries := by decide
  have haligned : sampleImage.length%sectorSize = 0 := by
    rw [sampleImage,List.length_replicate]
    rfl
  obtain ⟨w,hrun,hl,hphase,hsize,hend⟩ := reply_atEnd sampleReply (show Reliable sampleIo from ⟨rfl,rfl⟩)
    haligned hstart himage hleft
  have hpos : 0 < w.ota.firmwareSize := by
    rw [hsize,sampleImage,List.length_replicate]
    decide
  have hlistens : listens w.ota .connectionError = true := by
    rw [listens,hl.inProgress,hl.retryPending]
    · rfl
    · simp
  have hopen : Enabled w.ota .connectionError := by
    rw [Enabled,hphase]
    decide
  obtain ⟨w',hmore,r,hr,_,houtside⟩ := end_overruns hopen ⟨hlistens,rfl,hend⟩ hpos
  exact houtside (h samplePlatform _ sampleArgs _ w' (hrun.append hmore) r hr)

end Ota
end MeterLogger
