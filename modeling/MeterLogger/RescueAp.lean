import MeterLogger.WifiSystem

/-!
# The rescue access point

While the fallback access point runs, the radio stays in its mode, with the rescue name and
password, and nothing is scanned. The commands and the test of a network look at
`fallback_ap_is_running`; the cron job that stops the access point, a new mesh password, the
watchdog, an update that fails and the switch to another network do not.
-/

namespace MeterLogger
namespace Wifi

open CStrings CharArray Runs

/-- The access point is up with the rescue name and password, and the scanner is at rest. -/
structure Rescue (s : State) : Prop where
  mode : s.sdk.opmode = .stationAp
  ssid : str s.sdk.softapConf.ssid = staFallbackSsid
  password : str s.sdk.softapConf.password = staFallbackPass
  running : s.scan.running = false
  timer : s.scan.timer = none
  timeout : s.scan.timeoutTimer = none

def Protected (s : State) : Prop := s.fallbackApIsRunning = true → Rescue s

/-- What may happen while the access point runs: no other network without an access point, no
restart of the network, no other mesh password, no job that stops the access point, and no
update that fails. -/
def harmless (s : System) : System.Event → Bool
  | .delayedWifiDefaultTimer => s.sysCfg.apEnabled
  | .networkRestart => false
  | .wifiReconnectTimer => false
  | .setApMeshPwd pwd ok _ _ => !ok || (str s.sysCfg.apMeshPwd).take 63 = pwd.take 63
  | .cronStopAp _ => false
  | .otaFail => false
  | _ => true

def sheltered (s : System) (e : System.Event) : Bool := !s.fallbackApIsRunning || harmless s e

/-- The access point, if it runs, ran before and is spared. -/
structure Spares (s t : State) : Prop where
  running : t.fallbackApIsRunning = true → s.fallbackApIsRunning = true
  rescue : s.fallbackApIsRunning = true → Rescue s → Rescue t

theorem Spares.refl (s : State) : Spares s s := ⟨id,fun _ => id⟩

theorem Protected.after {s t : State} (hs : Protected s) (h : Spares s t) : Protected t :=
  fun hrunning => h.rescue (h.running hrunning) (hs (h.running hrunning))

theorem Spares.of_eq {s t : State} (hrunning : t.fallbackApIsRunning = s.fallbackApIsRunning)
    (hmode : t.sdk.opmode = s.sdk.opmode) (hsoftap : t.sdk.softapConf = s.sdk.softapConf)
    (hscan : t.scan = s.scan) : Spares s t := by
  refine ⟨fun h => hrunning ▸ h,fun _ h => ⟨hmode.trans h.mode,?_,?_,?_,?_,?_⟩⟩
  · exact hsoftap.symm ▸ h.ssid
  · exact hsoftap.symm ▸ h.password
  · exact hscan.symm ▸ h.running
  · exact hscan.symm ▸ h.timer
  · exact hscan.symm ▸ h.timeout

theorem rescue_startSoftap (s : State) (env : ApNetwork.Env) (hrunning : s.scan.running = false)
    (htimer : s.scan.timer = none) (htimeout : s.scan.timeoutTimer = none) :
    Rescue (startSoftap staFallbackSsid staFallbackPass env s) :=
  ⟨rfl,str_snprintf (by decide) (by decide),str_snprintf (by decide) (by decide),hrunning,htimer,
    htimeout⟩

section Spares

variable (s : State) (env : ApNetwork.Env)

theorem spares_stopScan : Spares s (wifiStopScan s) :=
  ⟨id,fun _ h => ⟨h.mode,h.ssid,h.password,rfl,rfl,rfl⟩⟩

theorem spares_timeout : Spares s (wifiTestTimeoutTimerFunc env s) := by
  rw [wifiTestTimeoutTimerFunc]
  dsimp only
  split
  · exact ⟨id,fun _ h => rescue_startSoftap _ env h.running h.timer h.timeout⟩
  · exact ⟨id,fun hrunning => absurd hrunning ‹_›⟩

theorem spares_event (evt : SystemEvent) : Spares s (handleEvent evt env s) := by
  obtain ⟨kind,reason⟩ := evt
  cases kind with
  | connected =>
    rw [handleEvent]
    dsimp only
    split <;> exact Spares.of_eq rfl rfl rfl rfl
  | disconnected => exact Spares.of_eq rfl rfl rfl rfl
  | authmodeChange => exact Spares.refl s
  | gotIp ip mask => exact Spares.of_eq rfl rfl rfl rfl
  | dhcpTimeout => exact Spares.of_eq rfl rfl rfl rfl
  | staConnected => exact Spares.refl s
  | staDisconnected => exact Spares.refl s

theorem spares_handle (evt : SystemEvent) : Spares s (wifiHandleEventCb evt env s) := by
  rcases wifiHandleEventCb_cases evt env s with h | ⟨_,h | h | h⟩ <;> rw [h]
  · exact spares_event s env evt
  · exact Spares.refl s
  · obtain ⟨hrunning,hrescue⟩ := spares_event (testSucceeded s) env evt
    exact ⟨hrunning,fun hap h => hrescue hap ⟨h.mode,h.ssid,h.password,h.running,h.timer,h.timeout⟩⟩
  · obtain ⟨hrunning,hrescue⟩ := spares_timeout (markFailed evt.reason s) env
    exact ⟨hrunning,fun hap h => hrescue hap ⟨h.mode,h.ssid,h.password,h.running,h.timer,h.timeout⟩⟩

theorem spares_request (ssid pwd : List UInt8) (stayTimeMs : ℕ) :
    Spares s (wifiTestSsidPwd ssid pwd stayTimeMs s).1 := by
  rw [wifiTestSsidPwd]
  split
  · exact Spares.of_eq rfl rfl rfl rfl
  · split
    · exact Spares.refl s
    · exact ⟨id,fun _ h => ⟨h.mode,h.ssid,h.password,rfl,rfl,rfl⟩⟩

theorem spares_reconnect : Spares s (delayedReconnectTimerFunc s) := by
  rw [delayedReconnectTimerFunc]
  split
  · split <;> exact Spares.of_eq rfl rfl rfl rfl
  · exact Spares.refl s

theorem hysteresis_running (connectStatus : UInt8) :
    (hysteresis connectStatus s).1.fallbackApIsRunning = s.fallbackApIsRunning := by
  obtain ⟨f,h | h | h⟩ := hysteresis_cases connectStatus s <;> rw [h] <;> rfl

theorem spares_scanDone (results : Option (List BssInfo)) (connectStatus : UInt8) :
    Spares s (wifiScanDoneCb results connectStatus s).1 := by
  by_cases hscan : s.scan.running = true
  · have hbusy : ∀ {t : State}, Rescue s → Rescue t := fun h =>
      absurd hscan (Bool.eq_false_iff.mp h.running)
    cases results with
    | none =>
      rw [wifiScanDoneCb,if_neg (by simp [hscan])]
      exact ⟨id,fun _ => hbusy⟩
    | some infos =>
      rw [wifiScanDoneCb_some infos connectStatus hscan]
      exact ⟨fun hrunning => (hysteresis_running (judged infos s) connectStatus).symm.trans hrunning,
        fun _ => hbusy⟩
  · rw [wifiScanDoneCb_aborted results connectStatus hscan]
    exact Spares.refl s

theorem spares_scanTimer (scanOk : Bool) (hcan : s.scan.timer.isSome = true) :
    Spares s (wifiScanTimerFunc scanOk { s with scan := { s.scan with timer := none } }) := by
  have hrunning : (wifiScanTimerFunc scanOk
      { s with scan := { s.scan with timer := none } }).fallbackApIsRunning =
        s.fallbackApIsRunning := by
    rw [wifiScanTimerFunc]
    split
    · rfl
    · split
      · rfl
      · dsimp only
        split <;> rfl
  exact ⟨fun h => hrunning ▸ h,fun _ h => absurd hcan (by rw [h.timer]; exact Bool.noConfusion)⟩

theorem spares_scanTimeout (hcan : s.scan.timeoutTimer.isSome = true) :
    Spares s (wifiScanTimeoutTimerFunc s) :=
  ⟨id,fun _ h => absurd hcan (by rw [h.timeout]; exact Bool.noConfusion)⟩

end Spares

section System

variable (s : System) (c : WifiCfg) (env : ApNetwork.Env)

theorem spares_startAp : Spares s.toState (System.startAp c env s).toState := by
  rw [System.startAp]
  split
  · exact Spares.refl _
  · rename_i hmode
    have hnot : ∀ {t : State}, Rescue s.toState → Rescue t := fun h => absurd h.mode hmode
    dsimp only
    split <;> exact ⟨id,fun _ => hnot⟩

theorem spares_stopAp (hidle : s.fallbackApIsRunning = false) :
    Spares s.toState (System.stopAp c s).toState := by
  have hnot : ∀ {t : State}, s.fallbackApIsRunning = true → Rescue s.toState → Rescue t :=
    fun hrunning => absurd hrunning (Bool.eq_false_iff.mp hidle)
  rw [System.stopAp]
  split
  · exact Spares.refl _
  · dsimp only
    split <;> exact ⟨id,hnot⟩

theorem protected_fallbackApTimer :
    Protected (System.fallbackApTimerFunc env s).toState := by
  intro hrunning
  rw [System.fallbackApTimerFunc] at hrunning
  split at hrunning <;> exact Bool.noConfusion hrunning

theorem protected_startFallbackAp (timeMs : ℕ) (h : Protected s.toState) :
    Protected (System.mqttRpcStartFallbackAp timeMs env s).toState := by
  rw [System.mqttRpcStartFallbackAp]
  split
  · split
    · exact protected_fallbackApTimer { s with fallbackApTimer := none } env
    · exact h
  · split
    · exact h
    · exact fun _ => ⟨rfl,str_snprintf (by decide) (by decide),str_snprintf (by decide) (by decide),
        rfl,rfl,rfl⟩

theorem spares_setApMeshPwd (pwd : List UInt8) (ok : Bool)
    (hok : s.fallbackApIsRunning = true → (str s.sysCfg.apMeshPwd).take 63 ≠ pwd.take 63 →
      ok = false) :
    Spares s.toState (System.mqttRpcSetApMeshPwd pwd ok c env s).toState := by
  rw [System.mqttRpcSetApMeshPwd]
  split
  · exact Spares.refl _
  · rename_i hnew
    dsimp only
    split
    · rename_i hsaved
      refine ⟨id,fun hrunning _ => absurd hsaved.1 ?_⟩
      exact Bool.eq_false_iff.mp (hok hrunning hnew)
    · exact Spares.of_eq rfl rfl rfl rfl

theorem spares_setSsidPwd (ok : Bool) :
    Spares s.toState (System.mqttRpcSetSsidPwd ok c s).toState := by
  rw [System.mqttRpcSetSsidPwd]
  split <;> exact Spares.of_eq rfl rfl rfl rfl

/-- The switch to another network keeps an access point that the configuration asks for. -/
theorem spares_default (s : State) (h : s.fallbackApIsRunning = true → s.sysCfg.apEnabled = true) :
    Spares s (wifiDefault s) :=
  ⟨id,fun hrunning hr =>
    ⟨if_pos (h hrunning),hr.ssid,hr.password,hr.running,hr.timer,hr.timeout⟩⟩

theorem spares_wifiReconnect (hidle : s.fallbackApIsRunning = false) :
    Spares s.toState (System.wifiReconnectTimerFunc s).toState := by
  have hnot : ∀ {t : State}, s.fallbackApIsRunning = true → Rescue s.toState → Rescue t :=
    fun hrunning => absurd hrunning (Bool.eq_false_iff.mp hidle)
  rw [System.wifiReconnectTimerFunc]
  split
  · exact Spares.refl _
  · exact ⟨id,hnot⟩

variable {s}

theorem idle_of_sheltered {e : System.Event} (hok : sheltered s e = true)
    (hharm : harmless s e = false) : s.fallbackApIsRunning = false := by
  rw [sheltered,hharm,Bool.or_false,Bool.not_eq_true'] at hok
  exact hok

theorem protected_next {e : System.Event} (h : Protected s.toState) (hok : sheltered s e = true)
    (hcan : s.can e = true) : Protected (s.next e).toState := by
  have hnot : harmless s e = false → ∀ {t : State}, s.fallbackApIsRunning = true →
      Rescue s.toState → Rescue t := fun hharm _ hrunning =>
    absurd hrunning (Bool.eq_false_iff.mp (idle_of_sheltered hok hharm))
  cases e with
  | wifiEvent evt env => exact h.after (spares_handle s.toState env evt)
  | scanTimer scanOk => exact h.after (spares_scanTimer s.toState scanOk hcan)
  | scanTimeoutTimer => exact h.after (spares_scanTimeout s.toState hcan)
  | scanDone results connectStatus =>
    exact h.after (spares_scanDone s.toState results connectStatus)
  | delayedReconnectTimer =>
    have hfired : Protected { s.toState with
        link := { s.link with delayedReconnectTimer := none } } :=
      h.after (Spares.of_eq rfl rfl rfl rfl)
    exact hfired.after (spares_reconnect _)
  | testSsidPwd ssid pwd stayTimeMs =>
    exact h.after (spares_request s.toState ssid pwd stayTimeMs)
  | testStartTimer => exact h.after (Spares.of_eq rfl rfl rfl rfl)
  | testTimeoutTimer env =>
    have hfired : Protected (System.timeoutFired s.toState) :=
      h.after (Spares.of_eq rfl rfl rfl rfl)
    exact hfired.after (spares_timeout _ env)
  | startAp c env =>
    simp only [System.next]
    rw [System.mqttRpcStartAp]
    split
    · exact h
    · exact h.after (spares_startAp s c env)
  | stopAp c =>
    simp only [System.next]
    rw [System.mqttRpcStopAp]
    split
    · exact h
    · exact h.after (spares_stopAp s c (Bool.eq_false_iff.mpr ‹_›))
  | cronStartAp c env => exact h.after (spares_startAp s c env)
  | cronStopAp c => exact h.after (spares_stopAp s c (idle_of_sheltered hok rfl))
  | startFallbackAp timeMs env => exact protected_startFallbackAp s env timeMs h
  | fallbackApTimer env => exact protected_fallbackApTimer { s with fallbackApTimer := none } env
  | setApMeshPwd pwd ok c env =>
    refine h.after (spares_setApMeshPwd s c env pwd ok fun hrunning hnew => ?_)
    simpa [sheltered,harmless,hrunning,hnew] using hok
  | setSsidPwd ok c => exact h.after (spares_setSsidPwd s c ok)
  | delayedWifiDefaultTimer =>
    refine h.after (spares_default s.toState fun hrunning => ?_)
    simpa [sheltered,harmless,hrunning] using hok
  | networkRestart => exact h.after ⟨id,hnot rfl⟩
  | wifiReconnectTimer =>
    have hidle := idle_of_sheltered hok rfl
    exact h.after (spares_wifiReconnect { s with wifiReconnectTimer := none } hidle)
  | otaStart => exact h.after (spares_stopScan s.toState)
  | otaFail => exact h.after ⟨id,hnot rfl⟩
  | config c => exact h.after (Spares.of_eq rfl rfl rfl rfl)
  | mqttConnected => exact h.after (Spares.of_eq rfl rfl rfl rfl)
  | mqttDisconnected => exact h.after (Spares.of_eq rfl rfl rfl rfl)
  | destroy =>
    exact h.after ⟨id,fun _ hr => ⟨hr.mode,hr.ssid,hr.password,rfl,rfl,rfl⟩⟩

end System

/-- In a run that leaves the access point alone while it runs, it stays up with the rescue name and
password, and the scanner at rest, until its timer ends it. -/
theorem rescue_protected {c : WifiCfg} {meshSsid : List UInt8} {env : ApNetwork.Env}
    {es : List System.Event} {s : System}
    (h : Run (Guarded (fun s e => sheltered s e = true) System.Step) (.start c meshSsid env) es s)
    (hrunning : s.fallbackApIsRunning = true) : Rescue s.toState := by
  have hstart : Protected (System.start c meshSsid env).toState := fun hrunning =>
    Bool.noConfusion hrunning
  refine h.invariant (I := fun s => Protected s.toState) ?_ hstart hrunning
  rintro s e t hs ⟨hok,hcan,rfl⟩
  exact protected_next hs hok hcan

/-- The access point for a minute, and then `es`. -/
def rescueMinute (es : List System.Event) : List System.Event :=
  .startFallbackAp 60000 ⟨true,0⟩::es

/-- A test that times out, and the command that stops the access point. -/
def rescueTest : List System.Event := rescueMinute
  [.testSsidPwd (ascii "cafe") [] 0,.testStartTimer,.testTimeoutTimer ⟨true,0⟩,
    .stopAp System.homeCfg]

theorem rescue_protected_test : Rescue (rescueTest.foldl System.next System.home).toState := by
  have hallowed : allowed (fun s e => sheltered s e = true ∧ s.can e = true) System.next
      System.home rescueTest = true := by decide
  exact rescue_protected (guarded_of_allowed hallowed) (by decide)

/-- The cron job stops an access point that the command would leave alone. -/
theorem rescue_stopped : ¬∀ (c : WifiCfg) (meshSsid : List UInt8) (env : ApNetwork.Env)
    (es : List System.Event) (s : System), Run System.Step (.start c meshSsid env) es s →
      Protected s.toState := by
  intro h
  have hallowed : allowed (fun s e => s.can e = true) System.next System.home
      (rescueMinute [.cronStopAp System.homeCfg]) = true := by decide
  have hrescue := h _ _ _ _ _ (run_of_allowed hallowed) (by decide)
  have hmode : ((rescueMinute [.cronStopAp System.homeCfg]).foldl System.next
      System.home).sdk.opmode = .station := by decide
  exact absurd (hmode.symm.trans hrescue.mode) (by decide)

end Wifi
end MeterLogger
