import MeterLogger.WifiTest

/-!
# The scanner goes on

Whatever stops the scanner starts it again: in every state a timer of the scanner is armed, or the
scanner is paused by a test, by the rescue access point or by the watchdog, and the end of each
pause arms the timer of the scanner.
-/

namespace MeterLogger
namespace Wifi

open CStrings CharArray Runs

/-- The next scan is due, or the one that is running is watched by its timeout. -/
def Scanner.Going (c : Scanner) : Prop :=
  c.timer.isSome = true ∨ c.running = true ∧ c.timeoutTimer.isSome = true

/-- The test has succeeded, and its network is held. -/
def Test.Held (t : Test) : Prop :=
  t.isTesting = false ∧ t.testResultStatus = 1 ∧ t.timeoutTimer.isSome = true

/-- The deliberate stops. -/
def System.Paused (s : System) : Prop :=
  s.test.isTesting = true ∨ s.test.Held ∨ s.fallbackApIsRunning = true ∨
    s.wifiReconnectTimer.isSome = true

structure System.Alive (s : System) : Prop where
  watched : s.scan.running = true → s.scan.timeoutTimer.isSome = true
  goes : s.scan.Going ∨ s.Paused

/-- Nothing that the scanner depends on has changed. -/
structure System.Bystands (s t : System) : Prop where
  scan : t.scan = s.scan
  test : t.test = s.test
  fallbackAp : t.fallbackApIsRunning = s.fallbackApIsRunning
  reconnect : t.wifiReconnectTimer = s.wifiReconnectTimer

namespace System

section Bystands

variable (s : System) (c : WifiCfg) (env : ApNetwork.Env)

theorem Bystands.refl : s.Bystands s := ⟨rfl,rfl,rfl,rfl⟩

theorem bystands_startAp : s.Bystands (startAp c env s) := by
  rw [startAp]
  split
  · exact .refl s
  · dsimp only
    split <;> exact ⟨rfl,rfl,rfl,rfl⟩

theorem bystands_stopAp : s.Bystands (stopAp c s) := by
  rw [stopAp]
  split
  · exact .refl s
  · dsimp only
    split <;> exact ⟨rfl,rfl,rfl,rfl⟩

theorem bystands_setApMeshPwd (pwd : List UInt8) (ok : Bool) :
    s.Bystands (mqttRpcSetApMeshPwd pwd ok c env s) := by
  rw [mqttRpcSetApMeshPwd]
  split
  · exact .refl s
  · dsimp only
    split <;> exact ⟨rfl,rfl,rfl,rfl⟩

theorem bystands_setSsidPwd (ok : Bool) : s.Bystands (mqttRpcSetSsidPwd ok c s) := by
  rw [mqttRpcSetSsidPwd]
  split <;> exact ⟨rfl,rfl,rfl,rfl⟩

theorem bystands_delayedReconnect (link : Link) :
    s.Bystands (s.act fun w => delayedReconnectTimerFunc { w with link := link }) := by
  simp only [act]
  rw [delayedReconnectTimerFunc]
  split
  · split <;> exact ⟨rfl,rfl,rfl,rfl⟩
  · exact ⟨rfl,rfl,rfl,rfl⟩

end Bystands

variable {s t : System}

theorem Alive.bystands (h : s.Alive) (hb : s.Bystands t) : t.Alive := by
  obtain ⟨hwatched,hgoes⟩ := h
  rw [← hb.scan] at hwatched
  refine ⟨hwatched,?_⟩
  rw [hb.scan,Paused,hb.test,hb.fallbackAp,hb.reconnect]
  exact hgoes

theorem alive_of_timer (hwatched : t.scan.running = true → t.scan.timeoutTimer.isSome = true)
    (htimer : t.scan.timer.isSome = true) : t.Alive :=
  ⟨hwatched,Or.inl (Or.inl htimer)⟩

theorem Alive.scanTimer (h : s.Alive) (scanOk : Bool) : (s.next (.scanTimer scanOk)).Alive := by
  have hwatched := h.watched
  simp only [next,act]
  rw [wifiScanTimerFunc]
  split
  · rename_i hrunning
    exact ⟨hwatched,Or.inl (Or.inr ⟨hrunning,hwatched hrunning⟩)⟩
  · split
    · exact alive_of_timer hwatched rfl
    · cases scanOk with
      | true => exact ⟨fun _ => rfl,Or.inl (Or.inr ⟨rfl,rfl⟩)⟩
      | false => exact alive_of_timer (fun _ => rfl) rfl

theorem alive_scanOver (u : System) (r : State × ScanAction) :
    ({ u with toState := (scanOver r).1 } : System).Alive :=
  alive_of_timer (fun hno => Bool.noConfusion hno) rfl

/-- The callback of a scan that was aborted changes nothing, and the one of a scan that is running
starts the timer again. -/
theorem Alive.scanDone (h : s.Alive) (results : Option (List BssInfo)) (connectStatus : UInt8) :
    (s.next (.scanDone results connectStatus)).Alive := by
  simp only [next,act]
  by_cases hscan : s.scan.running = true
  · cases results with
    | none =>
      rw [wifiScanDoneCb,if_neg (by simp [hscan])]
      exact alive_scanOver s _
    | some infos =>
      rw [wifiScanDoneCb_some infos connectStatus hscan]
      exact alive_scanOver s _
  · rw [wifiScanDoneCb_aborted results connectStatus hscan]
    exact h

/-- The end of a test starts the scanner again, unless the rescue access point is in use. -/
theorem Alive.reverted (h : s.Alive) {w : State} (hscan : w.scan = s.scan) (env : ApNetwork.Env) :
    ({ s with toState := wifiTestTimeoutTimerFunc env w } : System).Alive := by
  have hwatched := h.watched
  rw [← hscan] at hwatched
  rw [wifiTestTimeoutTimerFunc]
  dsimp only
  split
  · rename_i hap
    exact ⟨hwatched,Or.inr (Or.inr (Or.inr (Or.inl hap)))⟩
  · exact alive_of_timer hwatched rfl

theorem bystands_event (s : System) (evt : SystemEvent) (env : ApNetwork.Env) (w : State) :
    ({ s with toState := w } : System).Bystands { s with toState := handleEvent evt env w } := by
  obtain ⟨kind,reason⟩ := evt
  cases kind with
  | connected =>
    rw [handleEvent]
    dsimp only
    split <;> exact ⟨rfl,rfl,rfl,rfl⟩
  | _ => exact ⟨rfl,rfl,rfl,rfl⟩

theorem Alive.wifiEvent (h : s.Alive) (evt : SystemEvent) (env : ApNetwork.Env) :
    (s.next (.wifiEvent evt env)).Alive := by
  simp only [next,act]
  rcases wifiHandleEventCb_cases evt env s.toState with heq | ⟨_,heq | heq | heq⟩ <;> rw [heq]
  · exact h.bystands (bystands_event s evt env s.toState)
  · exact h
  · have hheld : ({ s with toState := testSucceeded s.toState } : System).Alive :=
      ⟨h.watched,Or.inr (Or.inr (Or.inl ⟨rfl,rfl,rfl⟩))⟩
    exact hheld.bystands (bystands_event s evt env (testSucceeded s.toState))
  · exact h.reverted (w := markFailed evt.reason s.toState) rfl env

/-- A request keeps a test in progress and a network that is held, or stops the scanner for a new
test. -/
theorem Alive.testSsidPwd (h : s.Alive) (ssid pwd : List UInt8) (stayTimeMs : ℕ) :
    (s.next (.testSsidPwd ssid pwd stayTimeMs)).Alive := by
  simp only [next,act]
  by_cases hrepeat : isRepeat ssid s.toState = true
  · rw [request_repeat pwd stayTimeMs hrepeat]
    refine ⟨h.watched,h.goes.imp_right ?_⟩
    rintro (htest | ⟨htest,hstatus,_⟩ | hap | hreconnect)
    · exact Or.inl htest
    · have hgotIp := status_of_repeat hrepeat htest
      exact Or.inr (Or.inl ⟨htest,hstatus,by simp [hgotIp]⟩)
    · exact Or.inr (Or.inr (Or.inl hap))
    · exact Or.inr (Or.inr (Or.inr hreconnect))
  · by_cases htest : s.test.isTesting = true
    · rw [request_busy pwd stayTimeMs hrepeat htest]
      exact h
    · rw [wifiTestSsidPwd,if_neg hrepeat,if_neg htest]
      exact ⟨fun hno => Bool.noConfusion hno,Or.inr (Or.inl rfl)⟩

theorem Alive.testStart (h : s.Alive) : (s.next .testStartTimer).Alive := by
  refine ⟨h.watched,h.goes.imp_right ?_⟩
  rintro (htest | ⟨htest,hstatus,_⟩ | hap | hreconnect)
  · exact Or.inl htest
  · exact Or.inr (Or.inl ⟨htest,hstatus,rfl⟩)
  · exact Or.inr (Or.inr (Or.inl hap))
  · exact Or.inr (Or.inr (Or.inr hreconnect))

theorem Alive.fallbackApTimer (h : s.Alive) (env : ApNetwork.Env) :
    (fallbackApTimerFunc env s).Alive := by
  have hwatched := h.watched
  rw [fallbackApTimerFunc]
  split
  · exact alive_of_timer hwatched rfl
  · exact alive_of_timer hwatched rfl

theorem Alive.startFallbackAp (h : s.Alive) (timeMs : ℕ) (env : ApNetwork.Env) :
    (mqttRpcStartFallbackAp timeMs env s).Alive := by
  rw [mqttRpcStartFallbackAp]
  split
  · split
    · have hoff : ({ s with fallbackApTimer := none } : System).Alive :=
        h.bystands ⟨rfl,rfl,rfl,rfl⟩
      exact hoff.fallbackApTimer env
    · exact h
  · split
    · exact h.bystands ⟨rfl,rfl,rfl,rfl⟩
    · exact ⟨fun hno => Bool.noConfusion hno,Or.inr (Or.inr (Or.inr (Or.inl rfl)))⟩

theorem Alive.wifiReconnect (h : s.Alive) : (wifiReconnectTimerFunc s).Alive := by
  have hwatched := h.watched
  rw [wifiReconnectTimerFunc]
  split
  · exact ⟨hwatched,Or.inr (Or.inr (Or.inr (Or.inr rfl)))⟩
  · exact alive_of_timer hwatched rfl

/-- No update, and no restart of the device. -/
def stays : Event → Bool
  | .otaStart => false
  | .otaFail => false
  | .destroy => false
  | _ => true

theorem alive_next (h : s.Alive) {e : Event} (hok : stays e = true) : (s.next e).Alive := by
  cases e with
  | wifiEvent evt env => exact h.wifiEvent evt env
  | scanTimer scanOk => exact h.scanTimer scanOk
  | scanTimeoutTimer => exact alive_of_timer (fun hno => Bool.noConfusion hno) rfl
  | scanDone results connectStatus => exact h.scanDone results connectStatus
  | delayedReconnectTimer => exact h.bystands (bystands_delayedReconnect s _)
  | testSsidPwd ssid pwd stayTimeMs => exact h.testSsidPwd ssid pwd stayTimeMs
  | testStartTimer => exact h.testStart
  | testTimeoutTimer env => exact h.reverted (w := timeoutFired s.toState) rfl env
  | startAp c env =>
    simp only [next]
    rw [mqttRpcStartAp]
    split
    · exact h
    · exact h.bystands (bystands_startAp s c env)
  | stopAp c =>
    simp only [next]
    rw [mqttRpcStopAp]
    split
    · exact h
    · exact h.bystands (bystands_stopAp s c)
  | cronStartAp c env => exact h.bystands (bystands_startAp s c env)
  | cronStopAp c => exact h.bystands (bystands_stopAp s c)
  | startFallbackAp timeMs env => exact h.startFallbackAp timeMs env
  | fallbackApTimer env =>
    have hoff : ({ s with fallbackApTimer := none } : System).Alive :=
      h.bystands ⟨rfl,rfl,rfl,rfl⟩
    exact hoff.fallbackApTimer env
  | setApMeshPwd pwd ok c env => exact h.bystands (bystands_setApMeshPwd s c env pwd ok)
  | setSsidPwd ok c => exact h.bystands (bystands_setSsidPwd s c ok)
  | delayedWifiDefaultTimer => exact h.bystands ⟨rfl,rfl,rfl,rfl⟩
  | networkRestart => exact ⟨fun hno => Bool.noConfusion hno,Or.inr (Or.inr (Or.inr (Or.inr rfl)))⟩
  | wifiReconnectTimer => exact h.wifiReconnect
  | config c => exact h.bystands ⟨rfl,rfl,rfl,rfl⟩
  | mqttConnected => exact h.bystands ⟨rfl,rfl,rfl,rfl⟩
  | mqttDisconnected => exact h.bystands ⟨rfl,rfl,rfl,rfl⟩
  | otaStart => exact Bool.noConfusion hok
  | otaFail => exact Bool.noConfusion hok
  | destroy => exact Bool.noConfusion hok

end System

/-- In a run without an update and without a restart the scanner goes on, or it is paused. -/
theorem scanner_alive {c : WifiCfg} {meshSsid : List UInt8} {env : ApNetwork.Env}
    {es : List System.Event} {s : System}
    (h : Run (Guarded (fun _ e => System.stays e = true) System.Step) (.start c meshSsid env) es s) :
    s.scan.Going ∨ s.Paused := by
  have hstart : (System.start c meshSsid env).Alive :=
    System.alive_of_timer (fun hno => Bool.noConfusion hno) rfl
  have halive : s.Alive := by
    refine h.invariant (I := System.Alive) ?_ hstart
    rintro s e t hs ⟨hok,_,rfl⟩
    exact System.alive_next hs hok
  exact halive.goes

/-- A scan that is put off because the radio is busy, one whose callback comes too late, and the
watchdog. -/
def scanTroubles : List System.Event :=
  [.scanTimer false,.wifiEvent ⟨.disconnected,reasonAssocLeave⟩ ⟨true,0⟩,.scanTimer true,
    .networkRestart,.scanDone none 0,.wifiReconnectTimer]

theorem scanner_alive_troubles : (scanTroubles.foldl System.next System.home).scan.Going ∨
    (scanTroubles.foldl System.next System.home).Paused := by
  have hallowed : allowed (fun s e => System.stays e = true ∧ s.can e = true) System.next
      System.home scanTroubles = true := by decide
  exact scanner_alive (guarded_of_allowed hallowed)

end Wifi
end MeterLogger
