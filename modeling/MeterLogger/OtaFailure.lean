import MeterLogger.OtaStaging

/-!
# Failed updates

A download that ends without a staged image leaves the device as it was: no timer is armed, no
later callback does anything, and the scanner is on again. Only a download that has used up its
retries leaves the scanner off.
-/

namespace MeterLogger
namespace Ota

open CStrings FlashWriter OtaHeader Runs

variable {P : Platform}

def scans (on : Bool) : Action → Bool
  | .startScan => true
  | .stopScan => false
  | _ => on

/-- The scanner is on before the command. -/
def scanning (log : List Action) : Bool := log.foldl scans true

/-- What a failed update leaves. -/
structure Restored (s : State P) : Prop where
  inProgress : s.inProgress = false
  timeoutTimer : s.timeoutTimer = false
  retryTimer : s.retryTimer = false
  progressTimer : s.progressTimer = false
  retryPending : s.retryPending = false
  continuePending : s.continuePending = false
  dnsPending : s.dnsPending = false
  isValidBinary : s.isValidBinary = false
  scanning : scanning s.log = true

/-- An event with which an attempt of a listening machine fails. -/
def failsAttempt (s : State P) : Event → Bool
  | .dnsFound found connectOk => !found || !connectOk
  | .connected sendOk => !sendOk
  | .received _ _ => false
  | .disconnected _ =>
    !complete s && (otaIncompleteHttpResponse s || !s.headersParsed || !s.responseLengthKnown ||
      !partComplete s)
  | .connectionError => true
  | .timeout => true
  | .retry dns =>
    match dns with
    | .ok connectOk => !connectOk
    | .inProgress => false
    | .error => true
  | .progress => false

/-- A machine whose callbacks do not return at once; the retry timer ends the wait. -/
def listens (s : State P) : Event → Bool
  | .retry _ => s.inProgress
  | _ => s.inProgress && !s.retryPending

/-- An attempt fails, and no retry is left. -/
def Exhausts (s : State P) (e : Event) : Prop :=
  listens s e = true ∧ failsAttempt s e = true ∧ otaMaxRetries ≤ s.retryCount

/-- Any callback at any time, also of a connection that has been aborted. -/
def anyStep (P : Platform) (s : State P) (e : Event) (t : State P) : Prop := t = next P s e

section Outcomes

variable {s t : State P} {io : FlashIo} {data : List UInt8}

/-- What a step of a download leads to. -/
def Outcome (s : State P) : Prop :=
  s.inProgress = true ∨ .restartDefered ∈ s.log ∨ Restored s

theorem scanning_append (xs ys : List Action) :
    scanning (xs ++ ys) = ys.foldl scans (scanning xs) := List.foldl_append

theorem otaFailUpdate_restored (s : State P) (status : String) (b : Bool) :
    Restored (otaFailUpdate s status b) := by
  have hlog : scanning (s.log ++ [.startScan] ++ [.status (ascii status)]) = true := by
    rw [scanning_append,scanning_append]
    rfl
  cases b with
  | false => exact ⟨rfl,rfl,rfl,rfl,rfl,rfl,rfl,rfl,hlog⟩
  | true =>
    refine ⟨rfl,rfl,rfl,rfl,rfl,rfl,rfl,rfl,?_⟩
    show scanning (s.log ++ [.startScan] ++ [.status (ascii status)] ++ [.abort]) = true
    rw [scanning_append,hlog]
    rfl

theorem otaTriggerReconnect_goes (hin : s.inProgress = true) (hleft : s.retryCount < otaMaxRetries)
    (reason : RetryReason) : (otaTriggerReconnect s reason).inProgress = true := by
  have hlater : ∀ u : State P, u.inProgress = true → u.retryCount < otaMaxRetries →
      (if u.retryCount < otaMaxRetries then retryLater u reason
        else retryExhausted u).inProgress = true := by
    intro u hu hcount
    rw [if_pos hcount,retryLater]
    split
    · exact hu
    · exact hu
  rw [otaTriggerReconnect]
  split
  · exact hin
  · apply hlater
    · cases reason <;> exact hin
    · cases reason <;> exact hleft

theorem otaDnsFoundCb_goes (hin : s.inProgress = true) {found connectOk : Bool}
    (hleft : (!found || !connectOk) = true → s.retryCount < otaMaxRetries) :
    (otaDnsFoundCb s found connectOk).inProgress = true := by
  rw [otaDnsFoundCb]
  split
  · exact hin
  · have hgoes := fun hfails => otaTriggerReconnect_goes (s := { s with
      dnsPending := false, timeoutTimer := false }) hin (hleft hfails)
    cases found with
    | false => exact hgoes rfl .dns
    | true =>
      cases connectOk with
      | false => exact hgoes rfl .tcp
      | true => exact hin

theorem dnsGethostbyname_goes (hin : s.inProgress = true) {dns : DnsResult}
    (hleft : failsAttempt s (.retry dns) = true → s.retryCount < otaMaxRetries) :
    (dnsGethostbyname s dns).inProgress = true := by
  cases dns with
  | ok connectOk => exact otaDnsFoundCb_goes hin hleft
  | inProgress => exact hin
  | error =>
    exact otaTriggerReconnect_goes (s := { s with dnsPending := false, timeoutTimer := false }) hin
      (hleft rfl) .dns

theorem otaFailUpdate_outcome (s : State P) (status : String) (abortConnection : Bool) :
    Outcome (otaFailUpdate s status abortConnection) :=
  Or.inr (Or.inr (otaFailUpdate_restored s status abortConnection))

theorem retryPending_of_guard (h : ¬(!s.inProgress || s.retryPending) = true) :
    s.retryPending = false := by
  rw [Bool.or_eq_true,not_or] at h
  exact Bool.eq_false_iff.mpr h.2

theorem writeBody_outcome (hin : s.inProgress = true) (io : FlashIo) (data : List UInt8) :
    Outcome (writeBody P io s data) := by
  rw [writeBody]
  generalize hu : (if s.hasSha256 then { s with shaCtx := s.shaCtx ++ data } else s) = u
  have hgoes : u.inProgress = true := by
    rw [← hu]
    split
    · exact hin
    · exact hin
  split
  · exact otaFailUpdate_outcome _ _ _
  · exact Or.inl hgoes

theorem startWriter_inProgress (s : State P) (io : FlashIo) (magicByte : UInt8) :
    (startWriter P io s magicByte).1.inProgress = s.inProgress := by
  rw [startWriter]
  split
  · rfl
  · dsimp only
    split
    · rfl
    · split <;> rfl

theorem receiveBody_ends (hin : s.inProgress = true) (io : FlashIo) (data : List UInt8) :
    Outcome (receiveBody P io s data) := by
  rw [receiveBody]
  split
  · exact Or.inl hin
  · split
    · exact otaFailUpdate_outcome _ _ _
    · split
      · exact otaFailUpdate_outcome _ _ _
      · split
        · exact writeBody_outcome hin io data
        · have hstart := startWriter_inProgress s io (data.headD 0)
          rcases hw : startWriter P io s (data.headD 0) with ⟨u,_ | error⟩
          · rw [hw] at hstart
            exact writeBody_outcome (hstart.trans hin) io data
          · exact otaFailUpdate_outcome _ _ _

theorem receiveHeader_outcome (hin : s.inProgress = true) (data : List UInt8) :
    ((receiveHeader s data).2 = none → Outcome (receiveHeader s data).1) ∧
      ((receiveHeader s data).2.isSome = true → (receiveHeader s data).1.inProgress = true) := by
  have hend : ∀ (u : State P) (len total : ℕ), u.inProgress = true →
      ((endHeader u data len total).2 = none → Outcome (endHeader u data len total).1) ∧
        ((endHeader u data len total).2.isSome = true →
          (endHeader u data len total).1.inProgress = true) := by
    intro u len total hu
    obtain ⟨_,hspec⟩ := acceptHeader_spec u (cstr u.headerBuffer)
    rw [endHeader]
    rcases ha : acceptHeader u (cstr u.headerBuffer) with ⟨v,_ | error⟩
    · rw [ha] at hspec
      obtain ⟨_,hopened,_⟩ := hspec rfl
      dsimp only
      split
      · exact ⟨fun _ => otaFailUpdate_outcome _ _ _,fun h => absurd h (by simp)⟩
      · split
        · exact ⟨fun _ => otaFailUpdate_outcome _ _ _,fun h => absurd h (by simp)⟩
        · exact ⟨fun h => absurd h (by simp),fun _ => hopened.inProgress.trans hu⟩
    · exact ⟨fun _ => otaFailUpdate_outcome _ _ _,fun h => absurd h (by simp)⟩
  rw [receiveHeader]
  split
  · exact ⟨fun h => absurd h (by simp),fun _ => hin⟩
  · dsimp only
    split
    · split
      · exact ⟨fun _ => otaFailUpdate_outcome _ _ _,fun h => absurd h (by simp)⟩
      · exact ⟨fun _ => Or.inl hin,fun h => absurd h (by simp)⟩
    · exact hend (collectHeader s data) _ _ hin

theorem otaTcpRecvCb_ends (hin : s.inProgress = true) (io : FlashIo) (data : List UInt8) :
    Outcome (otaTcpRecvCb P io s data) := by
  rw [otaTcpRecvCb]
  split
  · exact Or.inl hin
  · have hheader := receiveHeader_outcome (s := { s with timeoutTimer := true }) hin data
    dsimp only
    rcases hr : receiveHeader { s with timeoutTimer := true } data with ⟨u,_ | body⟩
    · rw [hr] at hheader
      exact hheader.1 rfl
    · rw [hr] at hheader
      exact receiveBody_ends (hheader.2 rfl) io body

theorem stageImage_outcome (s : State P) (io : StageIo) : Outcome (stageImage P io s) := by
  rw [stageImage]
  split
  · exact otaFailUpdate_outcome _ _ _
  · dsimp only
    split
    · exact otaFailUpdate_outcome _ _ _
    · rw [commitImage]
      split
      · exact otaFailUpdate_outcome _ _ _
      · refine Or.inr (Or.inl ?_)
        rw [post_log]
        exact List.mem_append_right _ (List.mem_singleton_self _)

theorem otaTcpDisconCb_outcome (hin : s.inProgress = true) (io : StageIo)
    (hleft : s.retryPending = false → failsAttempt s (.disconnected io) = true →
      s.retryCount < otaMaxRetries) : Outcome (otaTcpDisconCb P io s) := by
  rw [otaTcpDisconCb]
  split
  · exact Or.inl hin
  · rename_i hguard
    have hlisten := retryPending_of_guard hguard
    have hcomplete : complete { s with timeoutTimer := false } = complete s := rfl
    have hincomplete : otaIncompleteHttpResponse { s with timeoutTimer := false } =
        otaIncompleteHttpResponse s := rfl
    have hpart : partComplete { s with timeoutTimer := false } = partComplete s := rfl
    rw [endResponse,hcomplete,hincomplete,hpart]
    dsimp only
    rw [failsAttempt] at hleft
    split
    · exact stageImage_outcome _ io
    · rename_i hc
      simp only [Bool.not_eq_true] at hc
      rw [hc,Bool.not_false,Bool.true_and] at hleft
      split
      · rename_i hi
        rw [hi] at hleft
        exact Or.inl (otaTriggerReconnect_goes (s := { s with timeoutTimer := false }) hin
          (hleft hlisten rfl) _)
      · split
        · rename_i hp
          have hfails : (otaIncompleteHttpResponse s || !s.headersParsed || !s.responseLengthKnown ||
              !partComplete s) = true := by
            rw [Bool.or_assoc (otaIncompleteHttpResponse s),hp]
            simp
          exact Or.inl (otaTriggerReconnect_goes (s := { s with
            timeoutTimer := false, tcpFailureSeen := true }) hin (hleft hlisten hfails) _)
        · split
          · rw [otaScheduleRangeContinue]
            split
            · exact Or.inl hin
            · exact Or.inl hin
          · rename_i hp
            have hfails : (otaIncompleteHttpResponse s || !s.headersParsed || !s.responseLengthKnown ||
                !partComplete s) = true := by
              rw [Bool.not_eq_true] at hp
              rw [hp]
              simp
            exact Or.inl (otaTriggerReconnect_goes (s := { s with timeoutTimer := false }) hin
              (hleft hlisten hfails) _)

theorem startOtaUpdate_outcome (s : State P) (a : StartArgs) : Outcome (startOtaUpdate s a).1 := by
  have hspec := setDigests_spec (s := resetForStart s) a.hexSha256₁ a.hexSha256₂
  rw [startOtaUpdate]
  rcases hset : setDigests (resetForStart s) a.hexSha256₁ a.hexSha256₂ with ⟨t,_ | _⟩
  · exact otaFailUpdate_outcome _ _ _
  · rw [hset] at hspec
    obtain ⟨digest₁,digest₂,_,_,ht⟩ := hspec rfl
    dsimp only at ht ⊢
    have hselected : (selectTarget t a).inProgress = true ∧ (selectTarget t a).retryCount = 0 := by
      rw [selectTarget,ht]
      split <;> exact ⟨rfl,rfl⟩
    cases a.url.bind parseUrl with
    | none => exact otaFailUpdate_outcome _ _ _
    | some url =>
      refine Or.inl (dnsGethostbyname_goes (s := resolveHost (selectTarget t a) url) hselected.1 ?_)
      intro _
      show (selectTarget t a).retryCount < otaMaxRetries
      rw [hselected.2]
      decide

theorem next_outcome (hin : s.inProgress = true) {e : Event} (he : ¬Exhausts s e) :
    Outcome (next P s e) := by
  have hleft : listens s e = true → failsAttempt s e = true → s.retryCount < otaMaxRetries :=
    fun hl hf => Nat.lt_of_not_le fun hcount => he ⟨hl,hf,hcount⟩
  have hlistens : s.retryPending = false → (s.inProgress && !s.retryPending) = true := by
    intro hp
    rw [hin,hp]
    rfl
  cases e with
  | dnsFound found connectOk =>
    by_cases hp : s.retryPending = true
    · left
      rw [next,otaDnsFoundCb,hp,Bool.or_true,if_pos rfl]
      exact hin
    · exact Or.inl (otaDnsFoundCb_goes hin (hleft (hlistens (Bool.eq_false_iff.mpr hp))))
  | connected sendOk =>
    left
    rw [next,otaTcpConnectCb]
    split
    · exact hin
    · rename_i hguard
      have hp := retryPending_of_guard hguard
      dsimp only
      split
      · exact hin
      · rename_i hsend
        have hfails : failsAttempt s (.connected sendOk) = true := by
          rw [failsAttempt,Bool.eq_false_iff.mpr hsend]
          rfl
        have hcount := hleft (hlistens hp) hfails
        exact otaTriggerReconnect_goes (s := { State.post { s with
            phase := .established
            dnsPending := false
            requestOffset := s.receivedBytes
            responseReceivedBytes := 0
            responseLength := 0
            responseLengthKnown := false
            responseStatusCode := 0
            responseRangeEnd := 0
            responseRangeTotal := 0
            responseRangeValid := false } (.send (requestText s.url s.receivedBytes)) with
          timeoutTimer := false }) hin hcount .tcp
  | received data io => exact otaTcpRecvCb_ends hin io data
  | disconnected io =>
    exact otaTcpDisconCb_outcome (s := { s with phase := .idle }) hin io
      fun hp hfails => hleft (hlistens hp) hfails
  | connectionError =>
    left
    rw [next,otaTcpReconCb]
    split
    · exact hin
    · rename_i hguard
      have hp := retryPending_of_guard hguard
      have hgoes := otaTriggerReconnect_goes (s := { s with
        phase := .idle, timeoutTimer := false, tcpFailureSeen := true }) hin
        (hleft (hlistens hp) rfl)
      dsimp only
      split
      · exact hgoes _
      · exact hgoes _
  | timeout =>
    left
    rw [next,otaTimeoutTimerCb]
    split
    · exact hin
    · rename_i hguard
      have hp := retryPending_of_guard hguard
      have hgoes := fun seen => otaTriggerReconnect_goes (s := { s with
        dnsPending := false, timeoutTimer := false, tcpFailureSeen := seen }) hin
        (hleft (hlistens hp) rfl)
      dsimp only
      cases s.dnsPending with
      | true => exact hgoes _ .dns
      | false =>
        simp only [Bool.not_false,Bool.true_and,Bool.false_eq_true,if_false]
        split
        · exact hgoes true .incompleteHttpResponse
        · exact hgoes _ .tcp
  | retry dns =>
    left
    rw [next,otaRetryTimerCb,if_neg (by simp [hin])]
    apply dnsGethostbyname_goes
    · exact hin
    · exact hleft hin
  | progress =>
    left
    rw [next,otaProgressTimerCb]
    split
    · exact hin
    · dsimp only
      split
      · exact hin
      · exact hin

/-- Nothing happens to a machine that is not in progress, but that its timers fire and its
connection comes and goes. -/
theorem next_idle (hin : s.inProgress = false) (e : Event) : ∃ phase timeout retry,
    next P s e = { s with phase := phase, timeoutTimer := timeout, retryTimer := retry } ∧
      (timeout = true → s.timeoutTimer = true) ∧ (retry = true → s.retryTimer = true) := by
  have hguard : (!s.inProgress || s.retryPending) = true := by
    rw [hin]
    rfl
  cases e with
  | dnsFound found connectOk =>
    rw [next,otaDnsFoundCb,if_pos hguard]
    exact ⟨s.phase,s.timeoutTimer,s.retryTimer,rfl,id,id⟩
  | connected sendOk =>
    rw [next,otaTcpConnectCb,if_pos hguard]
    exact ⟨.established,s.timeoutTimer,s.retryTimer,rfl,id,id⟩
  | received data io =>
    rw [next,otaTcpRecvCb,if_pos hguard]
    exact ⟨s.phase,s.timeoutTimer,s.retryTimer,rfl,id,id⟩
  | disconnected io =>
    rw [next,otaTcpDisconCb,if_pos hguard]
    exact ⟨.idle,s.timeoutTimer,s.retryTimer,rfl,id,id⟩
  | connectionError =>
    rw [next,otaTcpReconCb,if_pos hguard]
    exact ⟨.idle,s.timeoutTimer,s.retryTimer,rfl,id,id⟩
  | timeout =>
    rw [next,otaTimeoutTimerCb,if_pos hguard]
    exact ⟨s.phase,false,s.retryTimer,rfl,fun h => absurd h Bool.false_ne_true,id⟩
  | retry dns =>
    rw [next,otaRetryTimerCb,if_pos (by simp [hin])]
    exact ⟨s.phase,s.timeoutTimer,false,rfl,id,fun h => absurd h Bool.false_ne_true⟩
  | progress =>
    rw [next,otaProgressTimerCb,if_pos (by simp [hin])]
    exact ⟨s.phase,s.timeoutTimer,s.retryTimer,rfl,id,id⟩

/-- What stays as it is after the end. -/
structure Idle (s t : State P) : Prop where
  inProgress : t.inProgress = false
  flash : t.flash = s.flash
  log : t.log = s.log
  restored : Restored s → Restored t

theorem next_stays (hin : s.inProgress = false) (e : Event) : Idle s (next P s e) := by
  obtain ⟨phase,timeout,retry,heq,htimeout,hretry⟩ := next_idle hin e
  rw [heq]
  refine ⟨hin,rfl,rfl,fun hr => ?_⟩
  refine ⟨hr.inProgress,?_,?_,hr.progressTimer,hr.retryPending,hr.continuePending,hr.dnsPending,
    hr.isValidBinary,hr.scanning⟩
  · exact Bool.eq_false_iff.mpr fun h => absurd (hr.timeoutTimer.symm.trans (htimeout h)) (by decide)
  · exact Bool.eq_false_iff.mpr fun h => absurd (hr.retryTimer.symm.trans (hretry h)) (by decide)

theorem run_stays {es : List Event} (h : Run (anyStep P) s es t) (hin : s.inProgress = false) :
    Idle s t := by
  induction h with
  | nil => exact ⟨hin,rfl,rfl,id⟩
  | @cons s _ _ e _ hs _ ih =>
    subst hs
    have hnext := next_stays hin e
    have hlater := ih hnext.inProgress
    exact ⟨hlater.inProgress,hlater.flash.trans hnext.flash,hlater.log.trans hnext.log,
      fun hr => hlater.restored (hnext.restored hr)⟩

theorem Outcome.step (h : Outcome s) {e : Event} (he : ¬Exhausts s e) : Outcome (next P s e) := by
  by_cases hin : s.inProgress = true
  · exact next_outcome hin he
  · have hidle := next_stays (Bool.eq_false_iff.mpr hin) e
    rcases h with hno | hstaged | hr
    · exact absurd hno hin
    · exact Or.inr (Or.inl (hidle.log ▸ hstaged))
    · exact Or.inr (Or.inr (hidle.restored hr))

end Outcomes

section Scanner

variable {s : State P}

theorem report_scanning (s : State P) (status : String) :
    scanning (s.report status).log = scanning s.log := scanning_append _ _

theorem espconnAbort_scanning (s : State P) : scanning (espconnAbort s).log = scanning s.log :=
  scanning_append _ _

theorem retryLater_scanning (s : State P) (reason : RetryReason) :
    scanning (retryLater s reason).log = scanning s.log := by
  rw [retryLater]
  split
  · exact scanning_append s.log _
  · rfl

theorem reportExhausted_scanning (s : State P) :
    scanning (reportExhausted s).log = scanning s.log := by
  have hreport : ∀ (b : Bool) (t : State P) (status : String),
      scanning (if b then t.report status else t).log = scanning t.log := by
    intro b t status
    split
    · exact report_scanning t status
    · rfl
  rw [reportExhausted]
  split
  · simp only [hreport]
  · simp only [report_scanning,hreport]

theorem otaTriggerReconnect_scanning (s : State P) (reason : RetryReason) :
    scanning (otaTriggerReconnect s reason).log = scanning s.log := by
  have hseen : ∀ u : State P, (seeFailure u reason).log = u.log := by
    intro u
    cases reason <;> rfl
  rw [otaTriggerReconnect]
  split
  · rfl
  · dsimp only
    split
    · rw [retryLater_scanning,hseen]
    · show scanning (reportExhausted _).log = _
      rw [reportExhausted_scanning]
      exact congrArg scanning (hseen _)

theorem failsAttempt_scanning {e : Event} (he : failsAttempt s e = true) :
    scanning (next P s e).log = scanning s.log := by
  have hdns : ∀ (u : State P) found connectOk,
      scanning (otaDnsFoundCb u found connectOk).log = scanning u.log := by
    intro u found connectOk
    rw [otaDnsFoundCb]
    split
    · rfl
    · cases found with
      | false => exact otaTriggerReconnect_scanning _ _
      | true =>
        cases connectOk with
        | false => exact otaTriggerReconnect_scanning _ _
        | true => rfl
  cases e with
  | dnsFound found connectOk => exact hdns s found connectOk
  | connected sendOk =>
    cases sendOk with
    | true => exact absurd he Bool.false_ne_true
    | false =>
      rw [next,otaTcpConnectCb]
      split
      · rfl
      · simp only [Bool.false_eq_true,if_false]
        rw [espconnAbort_scanning,otaTriggerReconnect_scanning]
        exact scanning_append s.log _
  | received data io => exact absurd he Bool.false_ne_true
  | disconnected io =>
    rw [failsAttempt,Bool.and_eq_true,Bool.not_eq_true'] at he
    obtain ⟨hc,hfails⟩ := he
    rw [next,otaTcpDisconCb]
    split
    · rfl
    · rw [endResponse]
      split
      · rename_i hcomplete
        exact absurd (hcomplete.symm.trans hc) (by decide)
      · split
        · exact otaTriggerReconnect_scanning _ _
        · split
          · exact otaTriggerReconnect_scanning _ _
          · split
            · rw [otaScheduleRangeContinue]
              split
              · rfl
              · rfl
            · exact otaTriggerReconnect_scanning _ _
  | connectionError =>
    rw [next,otaTcpReconCb]
    split
    · rfl
    · dsimp only
      split <;> exact otaTriggerReconnect_scanning _ _
  | timeout =>
    rw [next,otaTimeoutTimerCb]
    split
    · rfl
    · dsimp only
      cases s.dnsPending with
      | true => exact otaTriggerReconnect_scanning _ .dns
      | false =>
        simp only [Bool.not_false,Bool.true_and,Bool.false_eq_true,if_false]
        rw [espconnAbort_scanning]
        split
        · exact otaTriggerReconnect_scanning _ _
        · exact otaTriggerReconnect_scanning _ _
  | retry dns =>
    rw [next,otaRetryTimerCb]
    split
    · rfl
    · cases dns with
      | ok connectOk => exact hdns _ true connectOk
      | inProgress => exact absurd he Bool.false_ne_true
      | error => exact otaTriggerReconnect_scanning _ _
  | progress => exact absurd he Bool.false_ne_true

/-- The condition is exact: an update that has used up its retries leaves the scanner off. -/
theorem exhausts_unrestored {e : Event} (he : Exhausts s e) (hoff : scanning s.log = false) :
    ¬Restored (next P s e) := by
  intro hr
  have hon := (failsAttempt_scanning he.2.1).symm.trans hr.scanning
  exact absurd (hoff.symm.trans hon) Bool.false_ne_true

end Scanner

/-- In a run in which no failure finds the retries used up, an update that ends without a staged
image leaves the device as it was, and nothing that comes later writes the flash. -/
theorem failed_restored (s : State P) (a : StartArgs) {es : List Event} {t : State P}
    (h : Run (Guarded (fun s e => ¬Exhausts s e) (anyStep P))
      (startOtaUpdate { s with log := [] } a).1 es t)
    (hin : t.inProgress = false) (hstaged : .restartDefered ∉ t.log) :
    Restored t ∧ ∀ es u, Run (anyStep P) t es u → u.flash = t.flash ∧ u.log = t.log := by
  have hout : Outcome t := by
    refine h.invariant (I := Outcome) ?_ (startOtaUpdate_outcome _ a)
    rintro s e t hs ⟨he,rfl⟩
    exact hs.step he
  have hrestored : Restored t := by
    rcases hout with hno | hno | hr
    · exact absurd (hin.symm.trans hno) (by decide)
    · exact absurd hno hstaged
    · exact hr
  refine ⟨hrestored,fun es u hrun => ?_⟩
  have hidle := run_stays hrun hin
  exact ⟨hidle.flash,hidle.log⟩

/-- A command with an address that is not one. -/
theorem failed_restored_invalid :
    (startOtaUpdate { State.boot samplePlatform (fun _ => 0xFF) with log := [] }
      { sampleArgs with url := none }).1.inProgress = false ∧
    Restored (startOtaUpdate { State.boot samplePlatform (fun _ => 0xFF) with log := [] }
      { sampleArgs with url := none }).1 :=
  ⟨rfl,(failed_restored (State.boot samplePlatform fun _ => 0xFF) { sampleArgs with url := none }
    (.nil _) rfl (by decide)).1⟩

/-- A server whose name is never found. -/
def unknownServer : List Event :=
  [.dnsFound false false,.retry .inProgress,.dnsFound false false,.retry .inProgress,
    .dnsFound false false,.retry .inProgress,.dnsFound false false,.retry .inProgress,
    .dnsFound false false,.retry .inProgress,.dnsFound false false]

/-- When the retries are used up the update is over, and the scanner stays off. -/
theorem failed_unrestored : ¬∀ (P : Platform) (s : State P) (a : StartArgs) es w,
    Run (worldStep P) (started s a) es w → w.ota.inProgress = false →
      .restartDefered ∉ w.ota.log → Restored w.ota := by
  intro h
  have hr := h samplePlatform (State.boot samplePlatform fun _ => 0xFF)
    { sampleArgs with dns := .inProgress } unknownServer
    (unknownServer.foldl (worldNext samplePlatform)
      (started (State.boot samplePlatform fun _ => 0xFF) { sampleArgs with dns := .inProgress }))
    (by
      rw [unknownServer]
      repeat refine .cons ⟨fun h => absurd h Bool.false_ne_true,rfl⟩ (.cons ⟨rfl,rfl⟩ ?_)
      exact .cons ⟨fun h => absurd h Bool.false_ne_true,rfl⟩ (.nil _)) rfl (by decide)
  exact absurd hr.scanning (by decide)

end Ota
end MeterLogger
