import MeterLogger.WifiSystem

/-!
# Testing a network

What the events other than requests, timers and the link leave alone; and a test comes to its
end, unless a repeated request for the network under test disarms the timeout, which is armed
again only when `wifi_default_status`, a reason or a channel, happens to be `STATION_GOT_IP`.
-/

namespace MeterLogger
namespace Wifi

open CStrings CharArray Runs

/-- A request has not been dealt with to its end. -/
def Test.active (t : Test) : Bool := t.isTesting || t.startTimer.isSome || t.timeoutTimer.isSome

/-- A name of at most 31 bytes and a password of at most 63. -/
def StationConf.Short (c : StationConf) : Prop :=
  (str c.ssid).length ≤ 31 ∧ (str c.password).length ≤ 63

def StationConf.names (c : StationConf) : List UInt8 × List UInt8 := (str c.ssid,str c.password)

theorem printConf_short (c : StationConf) (ssid password : List UInt8) :
    (printConf c ssid password).Short := by
  have hend : ∀ {n : ℕ} {a : Vector UInt8 n} {text : List UInt8}, 0 < n →
      (str (snprintf a n text)).length ≤ n-1 := by
    intro n a text hn
    have hlt : min text.length (n-1) < n := by omega
    refine (str_length_le hlt ?_).trans (Nat.min_le_right _ _)
    rw [snprintf_get,if_neg (Nat.lt_irrefl _),if_pos rfl]
  exact ⟨hend (by decide),hend (by decide)⟩

theorem savedConf_short (t : Test) : (savedConf t).Short :=
  ⟨str_length_le (by decide) (by simp [savedConf]),str_length_le (by decide) (by simp [savedConf])⟩

/-- The test is as it was, and the station gets no longer name or password than it should. -/
structure Quiet (s t : State) : Prop where
  test : t.test = s.test
  short : s.sdk.stationConf.Short → t.sdk.stationConf.Short

theorem Quiet.refl (s : State) : Quiet s s := ⟨rfl,id⟩

theorem quiet_calm {s t : State} (h : System.Calm s t) : Quiet s t :=
  ⟨h.test,fun hshort => h.conf ▸ hshort⟩

section Quiet

variable (s : State)

theorem quiet_default : Quiet s (wifiDefault s) := ⟨rfl,fun _ => printConf_short _ _ _⟩

theorem quiet_event (evt : SystemEvent) (env : ApNetwork.Env) : Quiet s (handleEvent evt env s) := by
  obtain ⟨kind,reason⟩ := evt
  cases kind with
  | connected =>
    rw [handleEvent]
    dsimp only
    split <;> exact ⟨rfl,id⟩
  | disconnected => exact ⟨rfl,id⟩
  | authmodeChange => exact ⟨rfl,id⟩
  | gotIp ip mask => exact ⟨rfl,id⟩
  | dhcpTimeout => exact ⟨rfl,id⟩
  | staConnected => exact ⟨rfl,id⟩
  | staDisconnected => exact ⟨rfl,id⟩

theorem quiet_hysteresis (connectStatus : UInt8) : Quiet s (hysteresis connectStatus s).1 := by
  obtain ⟨f,h | h | h⟩ := hysteresis_cases connectStatus s <;> rw [h]
  · exact ⟨rfl,id⟩
  · exact ⟨rfl,fun _ => printConf_short _ _ _⟩
  · exact ⟨rfl,fun _ => printConf_short _ _ _⟩

theorem quiet_scanDone (results : Option (List BssInfo)) (connectStatus : UInt8) :
    Quiet s (wifiScanDoneCb results connectStatus s).1 := by
  by_cases hrunning : s.scan.running = true
  · cases results with
    | none =>
      rw [wifiScanDoneCb,if_neg (by simp [hrunning])]
      exact ⟨rfl,id⟩
    | some infos =>
      rw [wifiScanDoneCb_some infos connectStatus hrunning]
      have h := quiet_hysteresis (judged infos s) connectStatus
      exact ⟨h.test,h.short⟩
  · rw [wifiScanDoneCb_aborted results connectStatus hrunning]
    exact Quiet.refl s

theorem quiet_reconnect (s : System) :
    Quiet s.toState (System.wifiReconnectTimerFunc s).toState := by
  rw [System.wifiReconnectTimerFunc]
  split
  · exact Quiet.refl _
  · exact ⟨rfl,fun _ => printConf_short _ _ _⟩

end Quiet

/-- Events of the test itself, and the restart that stops its timers. -/
def System.Event.quiet : System.Event → Bool
  | .wifiEvent _ _ => false
  | .testSsidPwd _ _ _ => false
  | .testStartTimer => false
  | .testTimeoutTimer _ => false
  | .destroy => false
  | _ => true

theorem next_quiet (s : System) {e : System.Event} (h : e.quiet = true) :
    Quiet s.toState (s.next e).toState := by
  cases e with
  | scanDone results connectStatus => exact quiet_scanDone s.toState results connectStatus
  | delayedWifiDefaultTimer => exact quiet_default s.toState
  | wifiReconnectTimer => exact quiet_reconnect { s with wifiReconnectTimer := none }
  | mqttConnected => exact ⟨rfl,id⟩
  | mqttDisconnected => exact ⟨rfl,id⟩
  | wifiEvent evt env => exact Bool.noConfusion h
  | testSsidPwd ssid pwd stayTimeMs => exact Bool.noConfusion h
  | testStartTimer => exact Bool.noConfusion h
  | testTimeoutTimer env => exact Bool.noConfusion h
  | destroy => exact Bool.noConfusion h
  | _ => exact quiet_calm (System.next_calm s rfl)

/-- The station is back in the configuration that was saved, and the scanner resumes unless the
fallback access point holds it. -/
structure Reverted (s : State) : Prop where
  ended : s.test.isTesting = false
  conf : s.sdk.stationConf = savedConf s.test
  scan : s.fallbackApIsRunning = false → s.scan.timer = some wifiScanIntervalLong

theorem reverted_timeout (s : State) (env : ApNetwork.Env) :
    Reverted (wifiTestTimeoutTimerFunc env s) := by
  have hover : (endTest s.test).isTesting = false := by
    rw [endTest]
    split
    · rfl
    · exact Bool.eq_false_iff.mpr ‹_›
  rw [wifiTestTimeoutTimerFunc]
  dsimp only
  split
  · exact ⟨hover,rfl,fun hidle => absurd ‹_› (Bool.eq_false_iff.mp hidle)⟩
  · exact ⟨hover,rfl,fun _ => rfl⟩

/-- The request is for the network under test, and `wifi_default_status` keeps it from arming the
timeout again. -/
def disarms (ssid : List UInt8) (s : State) : Bool :=
  s.test.isTesting && s.test.startTimer.isNone && isRepeat ssid s &&
    !decide (s.link.defaultStatus = stationGotIp)

/-- Until a restart, no request disarms the timeout for good. -/
def rearming (s : System) : System.Event → Bool
  | .testSsidPwd ssid _ _ => !disarms ssid s.toState
  | .destroy => false
  | _ => true

/-- A timer is armed while a network is tested. -/
def Test.Armed (t : Test) : Prop :=
  t.isTesting = true → t.startTimer.isSome = true ∨ t.timeoutTimer.isSome = true

theorem Test.Armed.of_eq {t u : Test} (h : t.Armed) (heq : u = t) : u.Armed := heq.symm ▸ h

/-- Where a test goes on from here: something is armed, and what is armed leads to the end. -/
structure Ending (s : System) : Prop where
  armed : s.test.Armed
  start : (s.next .testStartTimer).test.timeoutTimer = some wifiTestTimeoutMs
  timeout : ∀ env, Reverted (s.next (.testTimeoutTimer env)).toState
  ends : ∀ e, rearming s e = true → s.test.isTesting = true →
    (s.next e).test.isTesting = false →
      (s.next e).test.timeoutTimer.isSome = true ∨ Reverted (s.next e).toState
  hold : ∀ e, rearming s e = true → (∀ env, e ≠ .testTimeoutTimer env) →
    s.test.isTesting = false → s.test.timeoutTimer.isSome = true →
      (s.next e).test.timeoutTimer.isSome = true
  scan : ∀ env, (s.next (.fallbackApTimer env)).scan.timer = some wifiScanIntervalLong

theorem handle_cases (s : State) (evt : SystemEvent) (env : ApNetwork.Env) :
    (wifiHandleEventCb evt env s).test = s.test ∨ s.test.isTesting = true ∧
      ((wifiHandleEventCb evt env s).test = (testSucceeded s).test ∨
        Reverted (wifiHandleEventCb evt env s)) := by
  rcases wifiHandleEventCb_cases evt env s with h | ⟨htest,h | h | h⟩ <;> rw [h]
  · exact Or.inl (quiet_event s evt env).test
  · exact Or.inl rfl
  · exact Or.inr ⟨htest,Or.inl (quiet_event (testSucceeded s) evt env).test⟩
  · exact Or.inr ⟨htest,Or.inr (reverted_timeout (markFailed evt.reason s) env)⟩

theorem request_repeat {s : State} {ssid : List UInt8} (pwd : List UInt8) (stayTimeMs : ℕ)
    (h : isRepeat ssid s = true) : (wifiTestSsidPwd ssid pwd stayTimeMs s).1 =
      { s with test := { s.test with
          stayTimeMs := stayTimeMs
          timeoutTimer :=
            if s.link.defaultStatus = stationGotIp then some (holdMs stayTimeMs) else none } } := by
  rw [wifiTestSsidPwd,if_pos h]

theorem request_busy {s : State} {ssid : List UInt8} (pwd : List UInt8) (stayTimeMs : ℕ)
    (h : isRepeat ssid s ≠ true) (htest : s.test.isTesting = true) :
    wifiTestSsidPwd ssid pwd stayTimeMs s = (s,false) := by
  rw [wifiTestSsidPwd,if_neg h,if_pos htest]

/-- A new test: what is in force is saved, and the start is armed. -/
structure Begun (s t : State) : Prop where
  isTesting : t.test.isTesting = true
  start : t.test.startTimer = some 5000
  timeout : t.test.timeoutTimer = s.test.timeoutTimer
  sdk : t.sdk = s.sdk
  ssid : t.test.savedSsid = strncpy s.test.savedSsid s.sdk.stationConf.ssid.toList 32
  pwd : t.test.savedPwd = strncpy s.test.savedPwd s.sdk.stationConf.password.toList 64

theorem request_begun {s : State} {ssid : List UInt8} (pwd : List UInt8) (stayTimeMs : ℕ)
    (h : isRepeat ssid s ≠ true) (htest : s.test.isTesting ≠ true) :
    Begun s (wifiTestSsidPwd ssid pwd stayTimeMs s).1 := by
  rw [wifiTestSsidPwd,if_neg h,if_neg htest]
  exact ⟨rfl,rfl,rfl,rfl,rfl,rfl⟩

/-- With no test in progress, a repeated request finds the status that arms the timeout. -/
theorem status_of_repeat {s : State} {ssid : List UInt8} (h : isRepeat ssid s = true)
    (htest : s.test.isTesting = false) : s.link.defaultStatus = stationGotIp := by
  simpa [isRepeat,htest] using (Bool.and_eq_true_iff.mp h).1

section Ending

variable {s : System}

theorem armed_request {ssid : List UInt8} (pwd : List UInt8) (stayTimeMs : ℕ)
    (h : s.test.Armed) (hok : rearming s (.testSsidPwd ssid pwd stayTimeMs) = true) :
    (wifiTestSsidPwd ssid pwd stayTimeMs s.toState).1.test.Armed := by
  by_cases hrepeat : isRepeat ssid s.toState = true
  · rw [request_repeat pwd stayTimeMs hrepeat]
    intro htest
    by_cases hstatus : s.link.defaultStatus = stationGotIp
    · exact Or.inr (by simp [hstatus])
    · have hstart : s.test.startTimer.isSome = true := by
        by_contra hnone
        have hnone : s.test.startTimer.isNone = true := by simpa using hnone
        have htest : s.test.isTesting = true := htest
        simp [rearming,disarms,htest,hnone,hrepeat,hstatus] at hok
      exact Or.inl hstart
  · by_cases htest : s.test.isTesting = true
    · rw [request_busy pwd stayTimeMs hrepeat htest]
      exact h
    · have hbegun := request_begun pwd stayTimeMs hrepeat htest
      exact fun _ => Or.inl (by rw [hbegun.start]; rfl)

theorem armed_next {e : System.Event} (h : s.test.Armed) (hok : rearming s e = true) :
    (s.next e).test.Armed := by
  cases e with
  | wifiEvent evt env =>
    rcases handle_cases s.toState evt env with heq | ⟨_,heq | hrev⟩
    · exact h.of_eq heq
    · intro _
      have htimer := congrArg Test.timeoutTimer heq
      exact Or.inr (htimer.symm ▸ rfl)
    · exact fun htest => absurd htest (Bool.eq_false_iff.mp hrev.ended)
  | testSsidPwd ssid pwd stayTimeMs => exact armed_request pwd stayTimeMs h hok
  | testStartTimer => exact fun _ => Or.inr rfl
  | testTimeoutTimer env =>
    have hrev := reverted_timeout (System.timeoutFired s.toState) env
    exact fun htest => absurd htest (Bool.eq_false_iff.mp hrev.ended)
  | destroy => exact Bool.noConfusion hok
  | _ => exact h.of_eq (next_quiet s rfl).test

theorem over_next {e : System.Event} (hok : rearming s e = true) (htest : s.test.isTesting = true)
    (hover : (s.next e).test.isTesting = false) :
    (s.next e).test.timeoutTimer.isSome = true ∨ Reverted (s.next e).toState := by
  have hstill : (s.next e).test.isTesting = s.test.isTesting →
      (s.next e).test.timeoutTimer.isSome = true ∨ Reverted (s.next e).toState := by
    intro heq
    rw [heq,htest] at hover
    exact Bool.noConfusion hover
  cases e with
  | wifiEvent evt env =>
    rcases handle_cases s.toState evt env with heq | ⟨_,heq | hrev⟩
    · exact hstill (congrArg Test.isTesting heq)
    · have htimer := congrArg Test.timeoutTimer heq
      exact Or.inl (htimer.symm ▸ rfl)
    · exact Or.inr hrev
  | testSsidPwd ssid pwd stayTimeMs =>
    by_cases hrepeat : isRepeat ssid s.toState = true
    · exact hstill (congrArg (fun t => t.test.isTesting) (request_repeat pwd stayTimeMs hrepeat))
    · exact hstill (congrArg (fun r => r.1.test.isTesting)
        (request_busy pwd stayTimeMs hrepeat htest))
  | testStartTimer => exact hstill rfl
  | testTimeoutTimer env => exact Or.inr (reverted_timeout (System.timeoutFired s.toState) env)
  | destroy => exact Bool.noConfusion hok
  | _ => exact hstill (congrArg Test.isTesting (next_quiet s rfl).test)

theorem hold_next {e : System.Event} (hok : rearming s e = true)
    (hne : ∀ env, e ≠ .testTimeoutTimer env) (htest : s.test.isTesting = false)
    (htimer : s.test.timeoutTimer.isSome = true) : (s.next e).test.timeoutTimer.isSome = true := by
  have hstill : (s.next e).test.timeoutTimer = s.test.timeoutTimer →
      (s.next e).test.timeoutTimer.isSome = true := fun heq => heq.symm ▸ htimer
  cases e with
  | wifiEvent evt env =>
    rcases handle_cases s.toState evt env with heq | ⟨hbusy,_⟩
    · exact hstill (congrArg Test.timeoutTimer heq)
    · exact absurd hbusy (Bool.eq_false_iff.mp htest)
  | testSsidPwd ssid pwd stayTimeMs =>
    by_cases hrepeat : isRepeat ssid s.toState = true
    · have harm := congrArg (fun t => t.test.timeoutTimer) (request_repeat pwd stayTimeMs hrepeat)
      dsimp only at harm
      rw [if_pos (status_of_repeat hrepeat htest)] at harm
      exact harm.symm ▸ rfl
    · exact hstill (request_begun pwd stayTimeMs hrepeat (Bool.eq_false_iff.mp htest)).timeout
  | testStartTimer => rfl
  | testTimeoutTimer env => exact absurd rfl (hne env)
  | destroy => exact Bool.noConfusion hok
  | _ => exact hstill (congrArg Test.timeoutTimer (next_quiet s rfl).test)

end Ending

/-- In a run without a restart and without a request that disarms the timeout, a timer is armed
in every state in which a network is tested, and the test goes on to its end. -/
theorem test_ends {c : WifiCfg} {meshSsid : List UInt8} {env : ApNetwork.Env}
    {es : List System.Event} {s : System}
    (h : Run (Guarded (fun s e => rearming s e = true) System.Step) (.start c meshSsid env) es s) :
    Ending s := by
  have hstart : (System.start c meshSsid env).test.Armed := fun htest => Bool.noConfusion htest
  have harmed : s.test.Armed := by
    refine h.invariant (I := fun s => s.test.Armed) ?_ hstart
    rintro s e t hs ⟨hok,_,rfl⟩
    exact armed_next hs hok
  exact ⟨harmed,rfl,fun env => reverted_timeout (System.timeoutFired s.toState) env,
    fun e => over_next,fun e => hold_next,fun env => rfl⟩

/-- The request for `cafe`, the start of its test, and an event. -/
def testCafe (e : System.Event) : List System.Event :=
  [.testSsidPwd (ascii "cafe") [] 0,.testStartTimer,e]

/-- The test of `cafe` succeeds. -/
theorem test_ends_cafe :
    Ending ((testCafe (.wifiEvent ⟨.gotIp 0 0,0⟩ ⟨true,0⟩)).foldl System.next System.home) := by
  have hallowed : allowed (fun s e => rearming s e = true ∧ s.can e = true) System.next System.home
      (testCafe (.wifiEvent ⟨.gotIp 0 0,0⟩ ⟨true,0⟩)) = true := by decide
  exact test_ends (guarded_of_allowed hallowed)

/-- A second request for `cafe` during its test leaves nothing armed. -/
theorem test_hangs : ¬∀ (c : WifiCfg) (meshSsid : List UInt8) (env : ApNetwork.Env)
    (es : List System.Event) (s : System), (∀ e ∈ es, e ≠ .destroy) →
      Run System.Step (.start c meshSsid env) es s → s.test.Armed := by
  intro h
  have hallowed : allowed (fun s e => s.can e = true) System.next System.home
      (testCafe (.testSsidPwd (ascii "cafe") [] 0)) = true := by decide
  have harmed := h _ _ _ _ _ (by simp [testCafe]) (run_of_allowed hallowed)
  have hidle : ¬Test.Armed (((testCafe (.testSsidPwd (ascii "cafe") [] 0)).foldl System.next
      System.home).test) := by
    have hnow : ∀ t : Test, t.isTesting = true ∧ t.startTimer = none ∧ t.timeoutTimer = none →
        ¬t.Armed := by
      rintro t ⟨htest,hstart,htimer⟩ harmed
      rcases harmed htest with h | h
      · exact absurd h (by rw [hstart]; exact Bool.noConfusion)
      · exact absurd h (by rw [htimer]; exact Bool.noConfusion)
    exact hnow _ (by decide +kernel)
  exact hidle harmed

end Wifi
end MeterLogger
