import MeterLogger.Runs
import MeterLogger.Wifi

/-!
# Everything that acts on Wi-Fi

The commands, cron jobs, watchdogs and updates that switch the mode of the radio, configure the
access point or start the scanner, beside the events and timers of `wifi.c`.
-/

namespace MeterLogger
namespace Wifi

open CStrings CharArray Runs

/-- The timers outside `wifi.c`. -/
structure System extends State where
  fallbackApTimer : Option ℕ
  delayedWifiDefaultTimer : Option ℕ
  wifiReconnectTimer : Option ℕ
  meshSsid : List UInt8

namespace System

/-- Something changes the state of `wifi.c` alone. -/
def act (s : System) (f : State → State) : System := { s with toState := f s.toState }

/-- The configuration after `cfg_save`, which may have read another one back. -/
def saved (c : WifiCfg) (s : State) : State := { s with sysCfg := c }

/-- The access point with its own name and the password of the configuration. -/
def startMesh (env : ApNetwork.Env) (s : System) : System :=
  s.act (startSoftap s.meshSsid (str s.sysCfg.apMeshPwd) env)

/-- `start_ap` as a command or a cron job. -/
def startAp (c : WifiCfg) (env : ApNetwork.Env) (s : System) : System :=
  if s.sdk.opmode = .stationAp then s
  else
    let t := startMesh env s
    if s.sysCfg.apEnabled then t else t.act (saved c)

/-- `stop_ap` as a command or a cron job. -/
def stopAp (c : WifiCfg) (s : System) : System :=
  if s.sdk.opmode = .station then s
  else
    let t := s.act (setOpmode .station)
    if s.sysCfg.apEnabled then t.act (saved c) else t

def mqttRpcStartAp (c : WifiCfg) (env : ApNetwork.Env) (s : System) : System :=
  if s.fallbackApIsRunning then s else startAp c env s

def mqttRpcStopAp (c : WifiCfg) (s : System) : System :=
  if s.fallbackApIsRunning then s else stopAp c s

def fallbackApTimerFunc (env : ApNetwork.Env) (s : System) : System :=
  let s := s.act fun w => { w with fallbackApIsRunning := false }
  let s := if s.sysCfg.apEnabled then startMesh env s else s.act (setOpmode .station)
  s.act (wifiStartScan wifiScanIntervalLong)

def mqttRpcStartFallbackAp (timeMs : ℕ) (env : ApNetwork.Env) (s : System) : System :=
  if timeMs = 0 then
    if s.fallbackApIsRunning then fallbackApTimerFunc env { s with fallbackApTimer := none } else s
  else if s.fallbackApIsRunning then { s with fallbackApTimer := some timeMs }
  else
    let s := s.act fun w => wifiStopScan
      (startSoftap staFallbackSsid staFallbackPass env { w with fallbackApIsRunning := true })
    { s with fallbackApTimer := some timeMs }

/-- `ok` is the answer of `cfg_save`. -/
def mqttRpcSetApMeshPwd (pwd : List UInt8) (ok : Bool) (c : WifiCfg) (env : ApNetwork.Env)
    (s : System) : System :=
  if (str s.sysCfg.apMeshPwd).take 63 = pwd.take 63 then s
  else
    let s := s.act (saved c)
    if ok ∧ (s.sdk.opmode = .stationAp ∨ s.sdk.opmode = .softap) then startMesh env s else s

/-- After a save that succeeds the station goes to the new network half a second later. -/
def mqttRpcSetSsidPwd (ok : Bool) (c : WifiCfg) (s : System) : System :=
  let s := s.act (saved c)
  if ok then { s with delayedWifiDefaultTimer := some 500 } else s

def forceResetWifi (s : System) : System :=
  { s.act fun w => setOpmode .null { wifiStopScan w with
      link := { w.link with
        myAutoConnect := false
        disconnectCount := w.link.disconnectCount+1 } } with
    wifiReconnectTimer := some 6000 }

def wifiReconnectTimerFunc (s : System) : System :=
  if s.scan.running then { s with wifiReconnectTimer := some 1000 }
  else
    { s.act fun w => wifiStartScan wifiScanIntervalLong
        (wifiFallbackForceResetState (wifiDefault (setOpmode (cfgMode w.sysCfg) w))) with
      wifiReconnectTimer := none }

/-- A restart stops all these timers (`wifi_destroy`, `stop_watchdog`). -/
def systemRestartDefered (s : System) : System :=
  { s.act fun w =>
      let w := wifiStopScan w
      { w with
        link := { w.link with myAutoConnect := false, delayedReconnectTimer := none }
        test := { w.test with startTimer := none, timeoutTimer := none } } with
    wifiReconnectTimer := none }

/-- A timer that has fired is not armed any more. -/
def startFired (s : State) : State := { s with test := { s.test with startTimer := none } }

def timeoutFired (s : State) : State := { s with test := { s.test with timeoutTimer := none } }

/-- What happens; a timer has fired if it was armed. -/
inductive Event
  | wifiEvent (evt : SystemEvent) (env : ApNetwork.Env)
  | scanTimer (scanOk : Bool)
  | scanTimeoutTimer
  | scanDone (results : Option (List BssInfo)) (connectStatus : UInt8)
  | delayedReconnectTimer
  | testSsidPwd (ssid pwd : List UInt8) (stayTimeMs : ℕ)
  | testStartTimer
  | testTimeoutTimer (env : ApNetwork.Env)
  | startAp (c : WifiCfg) (env : ApNetwork.Env)
  | stopAp (c : WifiCfg)
  | cronStartAp (c : WifiCfg) (env : ApNetwork.Env)
  | cronStopAp (c : WifiCfg)
  | startFallbackAp (timeMs : ℕ) (env : ApNetwork.Env)
  | fallbackApTimer (env : ApNetwork.Env)
  | setApMeshPwd (pwd : List UInt8) (ok : Bool) (c : WifiCfg) (env : ApNetwork.Env)
  | setSsidPwd (ok : Bool) (c : WifiCfg)
  | delayedWifiDefaultTimer
  | networkRestart
  | wifiReconnectTimer
  | otaStart
  | otaFail
  | config (c : WifiCfg)
  | mqttConnected
  | mqttDisconnected
  | destroy

def mqttConnectedCb (s : State) : State :=
  { s with fallback := { s.fallback with mqttConnected := s.fallback.active } }

def mqttDisconnectedCb (s : State) : State :=
  { s with fallback := { s.fallback with
    mqttConnected := if s.fallback.active then false else s.fallback.mqttConnected } }

def next (s : System) : Event → System
  | .wifiEvent evt env => s.act (wifiHandleEventCb evt env)
  | .scanTimer scanOk => s.act fun w =>
    wifiScanTimerFunc scanOk { w with scan := { w.scan with timer := none } }
  | .scanTimeoutTimer => s.act wifiScanTimeoutTimerFunc
  | .scanDone results connectStatus => s.act fun w => (wifiScanDoneCb results connectStatus w).1
  | .delayedReconnectTimer => s.act fun w =>
    delayedReconnectTimerFunc { w with link := { w.link with delayedReconnectTimer := none } }
  | .testSsidPwd ssid pwd stayTimeMs => s.act fun w => (wifiTestSsidPwd ssid pwd stayTimeMs w).1
  | .testStartTimer => s.act fun w => wifiTestStartTimerFunc (startFired w)
  | .testTimeoutTimer env => s.act fun w => wifiTestTimeoutTimerFunc env (timeoutFired w)
  | .startAp c env => mqttRpcStartAp c env s
  | .stopAp c => mqttRpcStopAp c s
  | .cronStartAp c env => s.startAp c env
  | .cronStopAp c => s.stopAp c
  | .startFallbackAp timeMs env => mqttRpcStartFallbackAp timeMs env s
  | .fallbackApTimer env => fallbackApTimerFunc env { s with fallbackApTimer := none }
  | .setApMeshPwd pwd ok c env => mqttRpcSetApMeshPwd pwd ok c env s
  | .setSsidPwd ok c => mqttRpcSetSsidPwd ok c s
  | .delayedWifiDefaultTimer => { s.act wifiDefault with delayedWifiDefaultTimer := none }
  | .networkRestart => forceResetWifi s
  | .wifiReconnectTimer => wifiReconnectTimerFunc { s with wifiReconnectTimer := none }
  | .otaStart => s.act wifiStopScan
  | .otaFail => s.act (wifiStartScan wifiScanInterval)
  | .config c => s.act (saved c)
  | .mqttConnected => s.act mqttConnectedCb
  | .mqttDisconnected => s.act mqttDisconnectedCb
  | .destroy => systemRestartDefered s

/-- A timer fires while it is armed. -/
def can (s : System) : Event → Bool
  | .scanTimer _ => s.scan.timer.isSome
  | .scanTimeoutTimer => s.scan.timeoutTimer.isSome
  | .delayedReconnectTimer => s.link.delayedReconnectTimer.isSome
  | .testStartTimer => s.test.startTimer.isSome
  | .testTimeoutTimer _ => s.test.timeoutTimer.isSome
  | .fallbackApTimer _ => s.fallbackApTimer.isSome
  | .delayedWifiDefaultTimer => s.delayedWifiDefaultTimer.isSome
  | .wifiReconnectTimer => s.wifiReconnectTimer.isSome
  | _ => true

def Step : System → Event → System → Prop := Guarded (fun s e => s.can e = true) (ofFun next)

/-- When `sample_mode_timer_func` has connected the station and started the access point. -/
def start (c : WifiCfg) (meshSsid : List UInt8) (env : ApNetwork.Env) : System where
  toState := wifiSoftapIpConfig env
    (wifiSoftapConfig meshSsid (str c.apMeshPwd) (wifiConnect (boot c)))
  fallbackApTimer := none
  delayedWifiDefaultTimer := none
  wifiReconnectTimer := none
  meshSsid := meshSsid

def homeCfg : WifiCfg :=
  ⟨snprintf (zeros 64) 64 (ascii "home"),zeros 64,snprintf (zeros 64) 64 (ascii "w1reless"),true⟩

def home : System := start homeCfg (ascii "mesh-1234567") ⟨true,0⟩

/-- The flags of the fallback network, the test and the station are as they were. -/
structure Calm (s t : State) : Prop where
  fallback : t.fallback = s.fallback
  test : t.test = s.test
  conf : t.sdk.stationConf = s.sdk.stationConf

theorem Calm.refl (s : State) : Calm s s := ⟨rfl,rfl,rfl⟩

/-- Events that touch only the scanner, the access point and the configuration. -/
def Event.calm : Event → Bool
  | .wifiEvent _ _ => false
  | .scanDone _ _ => false
  | .testSsidPwd _ _ _ => false
  | .testStartTimer => false
  | .testTimeoutTimer _ => false
  | .delayedWifiDefaultTimer => false
  | .wifiReconnectTimer => false
  | .mqttConnected => false
  | .mqttDisconnected => false
  | .destroy => false
  | _ => true

section Calm

variable (s : System) (c : WifiCfg) (env : ApNetwork.Env)

theorem calm_startAp : Calm s.toState (startAp c env s).toState := by
  rw [startAp]
  split
  · exact Calm.refl _
  · dsimp only
    split <;> exact ⟨rfl,rfl,rfl⟩

theorem calm_stopAp : Calm s.toState (stopAp c s).toState := by
  rw [stopAp]
  split
  · exact Calm.refl _
  · dsimp only
    split <;> exact ⟨rfl,rfl,rfl⟩

theorem calm_fallbackApTimer : Calm s.toState (fallbackApTimerFunc env s).toState := by
  rw [fallbackApTimerFunc]
  split <;> exact ⟨rfl,rfl,rfl⟩

theorem calm_startFallbackAp (timeMs : ℕ) :
    Calm s.toState (mqttRpcStartFallbackAp timeMs env s).toState := by
  rw [mqttRpcStartFallbackAp]
  split
  · split
    · exact calm_fallbackApTimer { s with fallbackApTimer := none } env
    · exact Calm.refl _
  · split <;> exact ⟨rfl,rfl,rfl⟩

theorem calm_setApMeshPwd (pwd : List UInt8) (ok : Bool) :
    Calm s.toState (mqttRpcSetApMeshPwd pwd ok c env s).toState := by
  rw [mqttRpcSetApMeshPwd]
  split
  · exact Calm.refl _
  · dsimp only
    split <;> exact ⟨rfl,rfl,rfl⟩

theorem next_calm {e : Event} (h : e.calm = true) : Calm s.toState (s.next e).toState := by
  cases e with
  | scanTimer scanOk =>
    simp only [next,act]
    rw [wifiScanTimerFunc]
    split
    · exact ⟨rfl,rfl,rfl⟩
    · split
      · exact ⟨rfl,rfl,rfl⟩
      · dsimp only
        split <;> exact ⟨rfl,rfl,rfl⟩
  | delayedReconnectTimer =>
    simp only [next,act]
    rw [delayedReconnectTimerFunc]
    split
    · split <;> exact ⟨rfl,rfl,rfl⟩
    · exact ⟨rfl,rfl,rfl⟩
  | startAp c env =>
    simp only [next]
    rw [mqttRpcStartAp]
    split
    · exact Calm.refl _
    · exact calm_startAp s c env
  | stopAp c =>
    simp only [next]
    rw [mqttRpcStopAp]
    split
    · exact Calm.refl _
    · exact calm_stopAp s c
  | cronStartAp c env => exact calm_startAp s c env
  | cronStopAp c => exact calm_stopAp s c
  | startFallbackAp timeMs env => exact calm_startFallbackAp s env timeMs
  | fallbackApTimer env => exact calm_fallbackApTimer { s with fallbackApTimer := none } env
  | setApMeshPwd pwd ok c env => exact calm_setApMeshPwd s c env pwd ok
  | setSsidPwd ok c =>
    simp only [next]
    rw [mqttRpcSetSsidPwd]
    split <;> exact ⟨rfl,rfl,rfl⟩
  | scanTimeoutTimer => exact ⟨rfl,rfl,rfl⟩
  | networkRestart => exact ⟨rfl,rfl,rfl⟩
  | otaStart => exact ⟨rfl,rfl,rfl⟩
  | otaFail => exact ⟨rfl,rfl,rfl⟩
  | config c => exact ⟨rfl,rfl,rfl⟩
  | wifiEvent evt env => exact Bool.noConfusion h
  | scanDone results connectStatus => exact Bool.noConfusion h
  | testSsidPwd ssid pwd stayTimeMs => exact Bool.noConfusion h
  | testStartTimer => exact Bool.noConfusion h
  | testTimeoutTimer env => exact Bool.noConfusion h
  | delayedWifiDefaultTimer => exact Bool.noConfusion h
  | wifiReconnectTimer => exact Bool.noConfusion h
  | mqttConnected => exact Bool.noConfusion h
  | mqttDisconnected => exact Bool.noConfusion h
  | destroy => exact Bool.noConfusion h

end Calm

end System
end Wifi
end MeterLogger
