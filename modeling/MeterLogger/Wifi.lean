import MeterLogger.ApNetwork
import MeterLogger.CharArray

/-!
# Wi-Fi

`wifi.c`: the station and its events, the scanner with the switch to the fallback network, and
the test of another network. A timer is armed with its delay or not.
-/

namespace MeterLogger
namespace Wifi

open CStrings CharArray

/-- `struct station_config` -/
structure StationConf where
  ssid : Vector UInt8 32
  password : Vector UInt8 64
  deriving DecidableEq

/-- `struct softap_config` -/
structure SoftapConf where
  ssid : Vector UInt8 32
  password : Vector UInt8 64
  channel : UInt8
  deriving DecidableEq

inductive OpMode
  | null
  | station
  | softap
  | stationAp
  deriving DecidableEq

/-- What the SDK keeps. -/
structure Sdk where
  stationConf : StationConf
  opmode : OpMode
  softapConf : SoftapConf

/-- The part of `sys_cfg` that is read here. -/
structure WifiCfg where
  staSsid : Vector UInt8 64
  staPwd : Vector UInt8 64
  apMeshPwd : Vector UInt8 64
  apEnabled : Bool

/-- The variables `wifi_fallback_*` and the counter of `wifi_scan_done_cb`. -/
structure Fallback where
  present : Bool
  lastPresent : Bool
  active : Bool
  mqttConnected : Bool
  missCount : UInt8
  deriving DecidableEq

structure Scanner where
  running : Bool
  timer : Option ℕ
  timeoutTimer : Option ℕ
  wifiPresent : Bool
  channel : UInt8
  deriving DecidableEq

/-- The status of the default network and how the station reconnects. -/
structure Link where
  defaultOk : Bool
  defaultStatus : UInt8
  myAutoConnect : Bool
  radioBusyConnecting : Bool
  disconnectCount : ℕ
  delayedReconnectTimer : Option ℕ
  deriving DecidableEq

/-- `wifi_test_ctx_t` and its timers. -/
structure Test where
  savedSsid : Vector UInt8 32
  savedPwd : Vector UInt8 64
  targetSsid : Vector UInt8 32
  targetPwd : Vector UInt8 64
  isTesting : Bool
  pendingReport : Bool
  testResultStatus : UInt8
  failReason : UInt8
  stayTimeMs : ℕ
  startTimer : Option ℕ
  timeoutTimer : Option ℕ
  deriving DecidableEq

/-- `fallbackApIsRunning` belongs to `mqtt_rpc.c`. -/
structure State where
  sdk : Sdk
  sysCfg : WifiCfg
  fallback : Fallback
  scan : Scanner
  link : Link
  test : Test
  net : ApNetwork.State
  fallbackApIsRunning : Bool

def wifiScanInterval : ℕ := 5000
def wifiScanIntervalLong : ℕ := 20000
def wifiScanTimeout : ℕ := 60000
def wifiReconnectDelayMs : ℕ := 3000
def wifiScanDeferDelayMs : ℕ := 1000
def wifiTestTimeoutMs : ℕ := 15000

def reasonUnspecified : UInt8 := 1
def reasonAssocLeave : UInt8 := 8
def stationGotIp : UInt8 := 5

def staFallbackSsid : List UInt8 := ascii "stofferFon"
def staFallbackPass : List UInt8 := ascii "w1reless"

/-- `wifi_test_ctx` before any test. -/
def noTest : Test where
  savedSsid := zeros 32
  savedPwd := zeros 64
  targetSsid := zeros 32
  targetPwd := zeros 64
  isTesting := false
  pendingReport := false
  testResultStatus := 0
  failReason := 0
  stayTimeMs := 0
  startTimer := none
  timeoutTimer := none

def setOpmode (mode : OpMode) (s : State) : State := { s with sdk := { s.sdk with opmode := mode } }

def wifiStationSetConfigCurrent (conf : StationConf) (s : State) : State :=
  { s with sdk := { s.sdk with stationConf := conf } }

/-- `tfp_snprintf` of a name and a password into the current configuration. -/
def printConf (conf : StationConf) (ssid password : List UInt8) : StationConf :=
  ⟨snprintf conf.ssid 32 ssid,snprintf conf.password 64 password⟩

def wifiSoftapConfig (ssid pass : List UInt8) (s : State) : State :=
  { s with
    sdk := { s.sdk with
      softapConf :=
        ⟨snprintf (zeros 32) 32 ssid,snprintf (zeros 64) 64 pass,s.scan.channel⟩ } }

def wifiSoftapIpConfig (env : ApNetwork.Env) (s : State) : State :=
  { s with net := ApNetwork.wifiSoftapIpConfig env s.net }

def startSoftap (ssid pass : List UInt8) (env : ApNetwork.Env) (s : State) : State :=
  wifiSoftapIpConfig env (wifiSoftapConfig ssid pass (setOpmode .stationAp s))

/-- `memcmp` of the name in the configuration, which goes on into the password, with a string and
its NUL. -/
def hasSsid (conf : StationConf) (ssid : List UInt8) : Bool :=
  (conf.ssid.toList ++ conf.password.toList).take (ssid.length+1) = ssid ++ [0]

def cfgMode (c : WifiCfg) : OpMode := if c.apEnabled then .stationAp else .station

def wifiStartScan (interval : ℕ) (s : State) : State :=
  { s with scan := { s.scan with timer := some interval } }

def wifiStopScan (s : State) : State :=
  { s with scan := { s.scan with timer := none, timeoutTimer := none, running := false } }

def wifiFallbackForceResetState (s : State) : State :=
  { s with fallback := { s.fallback with
    present := false, lastPresent := false, active := false, mqttConnected := false } }

def wifiDefault (s : State) : State :=
  { s with
    fallback := { s.fallback with active := false, mqttConnected := false }
    sdk := { s.sdk with
      opmode := cfgMode s.sysCfg
      stationConf := printConf s.sdk.stationConf (str s.sysCfg.staSsid) (str s.sysCfg.staPwd) }
    link := { s.link with myAutoConnect := true, radioBusyConnecting := true } }

def wifiFallback (s : State) : State :=
  { s with
    fallback := { s.fallback with active := true, mqttConnected := false }
    sdk := { s.sdk with
      opmode := cfgMode s.sysCfg
      stationConf := printConf s.sdk.stationConf staFallbackSsid staFallbackPass }
    link := { s.link with myAutoConnect := true, radioBusyConnecting := true } }

/-- A network that a scan has found. -/
structure BssInfo where
  ssid : Vector UInt8 32
  ssidLen : ℕ
  channel : UInt8

def BssInfo.named (info : BssInfo) (ssid : List UInt8) : Bool :=
  info.ssidLen = ssid.length && info.ssid.toList.take info.ssidLen = ssid

def scanResults (infos : List BssInfo) (s : State) : State :=
  let found := infos.filter fun info => info.named (str s.sysCfg.staSsid)
  { s with
    scan := { s.scan with
      wifiPresent := !found.isEmpty
      channel := (found.getLast?).elim s.scan.channel BssInfo.channel }
    fallback := { s.fallback with
      present := !s.fallback.active && infos.any fun info => info.named staFallbackSsid } }

/-- What comes of a scan. -/
inductive ScanAction
  | none
  | switch
  | retryMqtt
  | retryWifi
  | default
  deriving DecidableEq

def wifiIsConnectedToFallback (connectStatus : UInt8) (s : State) : Bool :=
  hasSsid s.sdk.stationConf staFallbackSsid && connectStatus = stationGotIp

/-- Switch to the fallback network when it is there, and back after three scans without it. -/
def hysteresis (connectStatus : UInt8) (s : State) : State × ScanAction :=
  if s.fallback.present then
    let s := { s with fallback := { s.fallback with missCount := 0 } }
    if s.fallback.lastPresent = false then
      let s := wifiFallback s
      ({ s with fallback := { s.fallback with lastPresent := true } },.switch)
    else if s.fallback.mqttConnected = false then
      if wifiIsConnectedToFallback connectStatus s then (s,.retryMqtt)
      else (wifiFallback s,.retryWifi)
    else (s,.none)
  else if s.fallback.lastPresent then
    let s := { s with fallback := { s.fallback with missCount := s.fallback.missCount+1 } }
    if 3 ≤ s.fallback.missCount then
      let s := wifiDefault s
      ({ s with fallback := { s.fallback with lastPresent := false, missCount := 0 } },.default)
    else (s,.none)
  else (s,.none)

/-- The station stays, or goes to the fallback network or to the default one; what is left to say is
the flags. -/
theorem hysteresis_cases (connectStatus : UInt8) (s : State) :
    ∃ f, (hysteresis connectStatus s).1 = { s with fallback := f } ∨
      (hysteresis connectStatus s).1 = { wifiFallback s with fallback := f } ∨
      (hysteresis connectStatus s).1 = { wifiDefault s with fallback := f } := by
  rw [hysteresis]
  split
  · dsimp only
    split
    · exact ⟨_,Or.inr (Or.inl rfl)⟩
    · split
      · split
        · exact ⟨_,Or.inl rfl⟩
        · exact ⟨_,Or.inr (Or.inl rfl)⟩
      · exact ⟨_,Or.inl rfl⟩
  · split
    · dsimp only
      split
      · exact ⟨_,Or.inr (Or.inr rfl)⟩
      · exact ⟨_,Or.inl rfl⟩
    · exact ⟨_,Or.inl rfl⟩

/-- The scan is over, and the next one comes later after a switch. -/
def scanOver (r : State × ScanAction) : State × ScanAction :=
  let s := { r.1 with scan := { r.1.scan with running := false, timeoutTimer := none } }
  (wifiStartScan (if r.2 = .none then wifiScanInterval else wifiScanIntervalLong) s,r.2)

/-- `results` is missing when the scan failed. -/
def wifiScanDoneCb (results : Option (List BssInfo)) (connectStatus : UInt8) (s : State) :
    State × ScanAction :=
  if s.scan.running = false then (s,.none)
  else
    let s := { s with
      scan := { s.scan with wifiPresent := false }
      fallback := { s.fallback with present := false } }
    match results with
    | some infos => scanOver (hysteresis connectStatus (scanResults infos s))
    | none => scanOver (s,.none)

/-- The state in which the results of a scan are judged. -/
def judged (infos : List BssInfo) (s : State) : State :=
  scanResults infos { s with
    scan := { s.scan with wifiPresent := false }
    fallback := { s.fallback with present := false } }

theorem wifiScanDoneCb_some (infos : List BssInfo) (connectStatus : UInt8) {s : State}
    (h : s.scan.running = true) : wifiScanDoneCb (some infos) connectStatus s =
      scanOver (hysteresis connectStatus (judged infos s)) := by
  rw [wifiScanDoneCb,if_neg (by simp [h])]
  rfl

theorem wifiScanDoneCb_aborted (results : Option (List BssInfo)) (connectStatus : UInt8) {s : State}
    (h : s.scan.running ≠ true) : wifiScanDoneCb results connectStatus s = (s,.none) :=
  if_pos (Bool.eq_false_iff.mpr h)

/-- `scanOk` is what `wifi_station_scan` answers. -/
def wifiScanTimerFunc (scanOk : Bool) (s : State) : State :=
  if s.scan.running then s
  else if s.link.radioBusyConnecting then wifiStartScan wifiScanDeferDelayMs s
  else
    let s := { s with
      scan := { s.scan with running := scanOk, timeoutTimer := some wifiScanTimeout } }
    if scanOk then s else wifiStartScan wifiScanInterval s

def wifiScanTimeoutTimerFunc (s : State) : State :=
  wifiStartScan wifiScanInterval
    { s with scan := { s.scan with running := false, timeoutTimer := none } }

def savedConf (t : Test) : StationConf :=
  ⟨(strncpy (zeros 32) t.savedSsid.toList 31).set 31 0 (Nat.lt_succ_self 31),
    (strncpy (zeros 64) t.savedPwd.toList 63).set 63 0 (Nat.lt_succ_self 63)⟩

def wifiTestRestoreSavedStation (s : State) : State :=
  { wifiStationSetConfigCurrent (savedConf s.test) s with
    link := { s.link with myAutoConnect := true, radioBusyConnecting := true } }

def endTest (t : Test) : Test :=
  if t.isTesting then { t with isTesting := false, pendingReport := true } else t

def wifiTestTimeoutTimerFunc (env : ApNetwork.Env) (s : State) : State :=
  let s := wifiTestRestoreSavedStation { s with test := endTest s.test }
  if s.fallbackApIsRunning then startSoftap staFallbackSsid staFallbackPass env s
  else
    wifiStartScan wifiScanIntervalLong (wifiFallbackForceResetState
      { s with scan := { s.scan with wifiPresent := false } })

def wifiTestStartTimerFunc (s : State) : State :=
  let conf : StationConf :=
    ⟨strncpy (zeros 32) s.test.targetSsid.toList 32,strncpy (zeros 64) s.test.targetPwd.toList 64⟩
  let s := wifiStationSetConfigCurrent conf s
  { s with
    test := { s.test with timeoutTimer := some wifiTestTimeoutMs }
    link := { s.link with myAutoConnect := false, radioBusyConnecting := true } }

def holdMs (stayTimeMs : ℕ) : ℕ := if 5000 < stayTimeMs then stayTimeMs else 5000

/-- The request is for the network under test, or for the current one. -/
def isRepeat (ssid : List UInt8) (s : State) : Bool :=
  (s.test.isTesting || s.link.defaultStatus = stationGotIp) &&
    (str s.sdk.stationConf.ssid).take 32 = ssid.take 32

def wifiTestSsidPwd (ssid pwd : List UInt8) (stayTimeMs : ℕ) (s : State) : State × Bool :=
  if isRepeat ssid s then
    ({ s with test := { s.test with
        stayTimeMs := stayTimeMs
        timeoutTimer :=
          if s.link.defaultStatus = stationGotIp then some (holdMs stayTimeMs) else none } },true)
  else if s.test.isTesting then (s,false)
  else
    let s := wifiStopScan s
    ({ s with test := { s.test with
        savedSsid := strncpy s.test.savedSsid s.sdk.stationConf.ssid.toList 32
        savedPwd := strncpy s.test.savedPwd s.sdk.stationConf.password.toList 64
        targetSsid := strncpy s.test.targetSsid ssid 32
        targetPwd := strncpy s.test.targetPwd pwd 64
        testResultStatus := 0
        failReason := 255
        stayTimeMs := stayTimeMs
        isTesting := true
        pendingReport := false
        startTimer := some 5000 } },true)

def delayedReconnectTimerFunc (s : State) : State :=
  if s.link.myAutoConnect then
    if s.scan.running then
      { s with link := { s.link with delayedReconnectTimer := some wifiScanDeferDelayMs } }
    else { s with link := { s.link with radioBusyConnecting := true } }
  else s

inductive EventKind
  | connected
  | disconnected
  | authmodeChange
  | gotIp (ip mask : BitVec 32)
  | dhcpTimeout
  | staConnected
  | staDisconnected
  deriving DecidableEq

/-- `reason` is the byte of the event where `disconnected` has its reason and `connected` its
channel. -/
structure SystemEvent where
  kind : EventKind
  reason : UInt8

def reconnectLater (l : Link) : Link :=
  if l.myAutoConnect then { l with delayedReconnectTimer := some wifiReconnectDelayMs } else l

/-- The rest of `wifi_handle_event_cb`. -/
def handleEvent (evt : SystemEvent) (env : ApNetwork.Env) (s : State) : State :=
  let isDefault := hasSsid s.sdk.stationConf (str s.sysCfg.staSsid)
  match evt.kind with
  | .connected =>
    if isDefault then
      { s with link := { s.link with defaultOk := true, defaultStatus := evt.reason } }
    else s
  | .disconnected =>
    let link := { s.link with radioBusyConnecting := false }
    { s with link := reconnectLater (if isDefault then
        { link with
          defaultOk := false
          defaultStatus := evt.reason
          disconnectCount := link.disconnectCount+if s.fallback.present then 0 else 1 }
      else link) }
  | .gotIp ip mask =>
    { s with
      link := if isDefault then
          { s.link with radioBusyConnecting := false, defaultOk := true, defaultStatus := evt.reason }
        else { s.link with radioBusyConnecting := false }
      fallback := if isDefault then { s.fallback with active := false, mqttConnected := false }
        else if hasSsid s.sdk.stationConf staFallbackSsid then { s.fallback with active := true }
        else s.fallback
      net := ApNetwork.gotIp ip mask env s.net }
  | .dhcpTimeout =>
    let link := { s.link with radioBusyConnecting := false }
    { s with link := reconnectLater (if isDefault then
        { link with
          defaultOk := false
          defaultStatus := evt.reason
          disconnectCount := link.disconnectCount+1 }
      else link) }
  | .authmodeChange => s
  | .staConnected => s
  | .staDisconnected => s

/-- The test has succeeded, and the network is held for a while. -/
def testSucceeded (s : State) : State :=
  { s with test := { s.test with
    testResultStatus := 1
    failReason := 0
    isTesting := false
    pendingReport := true
    timeoutTimer := some (holdMs s.test.stayTimeMs) } }

def markFailed (reason : UInt8) (s : State) : State :=
  { s with test := { s.test with
    failReason := reason
    testResultStatus := 0
    isTesting := false
    pendingReport := true
    timeoutTimer := none } }

def testFailed (reason : UInt8) (env : ApNetwork.Env) (s : State) : State :=
  wifiTestTimeoutTimerFunc env (markFailed reason s)

def wifiHandleEventCb (evt : SystemEvent) (env : ApNetwork.Env) (s : State) : State :=
  if s.test.isTesting then
    match evt.kind with
    | .gotIp _ _ => handleEvent evt env (testSucceeded s)
    | .disconnected =>
      if evt.reason = reasonAssocLeave then handleEvent evt env s else testFailed evt.reason env s
    | _ => s
  else handleEvent evt env s

/-- While a network is tested, an event ends the test or is handled as always, or nothing comes of
it. -/
theorem wifiHandleEventCb_cases (evt : SystemEvent) (env : ApNetwork.Env) (s : State) :
    wifiHandleEventCb evt env s = handleEvent evt env s ∨
      s.test.isTesting = true ∧ (wifiHandleEventCb evt env s = s ∨
        wifiHandleEventCb evt env s = handleEvent evt env (testSucceeded s) ∨
        wifiHandleEventCb evt env s = testFailed evt.reason env s) := by
  rw [wifiHandleEventCb]
  by_cases htest : s.test.isTesting = true
  · rw [if_pos htest]
    obtain ⟨kind,reason⟩ := evt
    cases kind with
    | gotIp ip mask => exact Or.inr ⟨htest,Or.inr (Or.inl rfl)⟩
    | disconnected =>
      by_cases hleave : reason = reasonAssocLeave
      · exact Or.inl (if_pos hleave)
      · exact Or.inr ⟨htest,Or.inr (Or.inr (if_neg hleave))⟩
    | connected => exact Or.inr ⟨htest,Or.inl rfl⟩
    | dhcpTimeout => exact Or.inr ⟨htest,Or.inl rfl⟩
    | authmodeChange => exact Or.inr ⟨htest,Or.inl rfl⟩
    | staConnected => exact Or.inr ⟨htest,Or.inl rfl⟩
    | staDisconnected => exact Or.inr ⟨htest,Or.inl rfl⟩
  · rw [if_neg htest]
    exact Or.inl rfl

/-- The variables before `wifi_connect`. -/
def boot (c : WifiCfg) : State where
  sdk := ⟨⟨zeros 32,zeros 64⟩,.null,⟨zeros 32,zeros 64,0⟩⟩
  sysCfg := c
  fallback := ⟨false,false,false,false,0⟩
  scan := ⟨false,none,none,false,0⟩
  link := ⟨false,reasonUnspecified,true,false,0,none⟩
  test := noTest
  net := ApNetwork.boot
  fallbackApIsRunning := false

def wifiConnect (s : State) : State :=
  wifiStartScan wifiScanIntervalLong
    { s with
      sdk := { s.sdk with
        opmode := cfgMode s.sysCfg
        stationConf :=
          printConf ⟨zeros 32,zeros 64⟩ (str s.sysCfg.staSsid) (str s.sysCfg.staPwd) }
      link := { s.link with myAutoConnect := true, radioBusyConnecting := true } }

end Wifi
end MeterLogger
