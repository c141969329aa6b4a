import MeterLogger.OtaHeader
import MeterLogger.Runs

/-!
# The configuration

`sys_cfg` in RAM and its copy in flash. A setting is changed in RAM and then saved, most of them
only if they differ, at once by `cfg_save` or later by the timer of `cfg_save_defered`; while a
firmware update is in progress neither happens. A restart begins with what is in flash.
-/

namespace MeterLogger
namespace Config

open CStrings Runs

structure CronJob where
  minute : List UInt8
  hour : List UInt8
  dayOfMonth : List UInt8
  month : List UInt8
  dayOfWeek : List UInt8
  command : List UInt8
  commandParams : List UInt8
  deriving DecidableEq

structure CronJobs where
  n : ℕ
  cronJobList : List CronJob
  deriving DecidableEq

def cronJobsMax : ℕ := 16

/-- The settings of `syscfg_t` that change at run time. -/
structure SysCfg where
  deviceId : List UInt8
  staSsid : List UInt8
  staPwd : List UInt8
  apMeshPwd : List UInt8
  apEnabled : Bool
  mqttHost : List UInt8
  key : List UInt8
  acThermoState : Bool
  offlineCloseAt : ℕ
  cronJobs : CronJobs
  deriving DecidableEq

/-- The flash is `none` while what it holds has a wrong checksum. -/
structure State where
  sysCfg : SysCfg
  flash : Option SysCfg
  saveTimer : Bool
  saveTimerRunning : Bool
  otaInProgress : Bool
  restartPending : Bool
  deriving DecidableEq

/-- `cfg_save` without return values. -/
def store (s : State) : State × Bool :=
  if s.otaInProgress then (s,false) else ({ s with flash := some s.sysCfg },true)

def cfgLoad (defaults : SysCfg) (s : State) : State :=
  match s.flash with
  | some saved => { s with sysCfg := saved }
  | none => (store { s with sysCfg := defaults }).1

/-- With `check` the checksums are asked for: what was saved is loaded and compared. -/
def cfgSave (defaults : SysCfg) (check : Bool) (s : State) : State × Bool :=
  let r := store s
  if r.2 && check then
    let t := cfgLoad defaults r.1
    (t,t.sysCfg = s.sysCfg)
  else r

def cfgSaveDefered (s : State) : State := if s.otaInProgress then s else { s with saveTimer := true }

def configSaveTimerFunc (s : State) : State :=
  if s.otaInProgress then { s with saveTimer := false, saveTimerRunning := false }
  else if s.saveTimerRunning then { s with saveTimer := true }
  else (store { s with saveTimer := false, saveTimerRunning := false }).1

/-- `strncpy` into a cleared field of `n+1` bytes. -/
def field (n : ℕ) (value : List UInt8) : List UInt8 := value.take n

def changeDefered (s : State) (new : SysCfg) : State := cfgSaveDefered { s with sysCfg := new }

def changeSaved (defaults : SysCfg) (check : Bool) (s : State) (new : SysCfg) : State :=
  (cfgSave defaults check { s with sysCfg := new }).1

def withThermo (c : SysCfg) (isOpen : Bool) : SysCfg := { c with acThermoState := isOpen }

/-- The part of `ac_thermo_open` and `ac_thermo_close` that keeps the state of the valve. -/
def saveThermoState (s : State) (isOpen : Bool) : State :=
  if s.sysCfg.acThermoState = isOpen then s else changeDefered s (withThermo s.sysCfg isOpen)

/-- The settings with the valve open, to be closed at `target` unless the reading kept is
`intValue` already. -/
def withOpenUntil (c : SysCfg) (intValue target : ℕ) : SysCfg :=
  let c := withThermo c true
  if c.offlineCloseAt = intValue then c else { c with offlineCloseAt := target }

/-- `open_until` and `open_until_delta` differ in the reading they write. -/
def saveCloseAt (defaults : SysCfg) (s : State) (intValue target : ℕ) : State :=
  let s := saveThermoState s true
  if s.sysCfg.offlineCloseAt = intValue then s
  else changeSaved defaults true s { s.sysCfg with offlineCloseAt := target }

/-- The part of `mqtt_rpc_open_until` that keeps settings; the value opens the valve unless it is
negative. -/
def saveOpenUntil (defaults : SysCfg) (s : State) (opens : Bool) (intValue : ℕ) : State :=
  if opens then saveCloseAt defaults s intValue intValue else s

/-- The part of `mqtt_rpc_open_until_delta` that keeps settings; `received` is what the meter sent
last. -/
def saveOpenUntilDelta (defaults : SysCfg) (s : State) (opens : Bool) (intValue received : ℕ) :
    State :=
  if opens then saveCloseAt defaults s intValue ((received+intValue)%2^32) else s

/-- `parsed` is the table that the query leaves. -/
def addCronJobFromQuery (s : State) (parsed : CronJobs) : State :=
  if s.sysCfg.cronJobs.n ≤ cronJobsMax-1 then changeDefered s { s.sysCfg with cronJobs := parsed } else s

/-- The number of jobs and as many bytes of the first job as it takes to clear a `cron_job_t`. -/
def clearCronJobs (s : State) (cleared : List CronJob) : State :=
  changeDefered s { s.sysCfg with cronJobs := ⟨0,cleared⟩ }

def mqttRpcSetSsid (defaults : SysCfg) (s : State) (ssid : List UInt8) : State :=
  if field 31 s.sysCfg.staSsid = field 31 ssid then s
  else changeSaved defaults true s { s.sysCfg with staSsid := field 31 ssid }

def mqttRpcSetPwd (defaults : SysCfg) (s : State) (password : List UInt8) : State :=
  if field 63 s.sysCfg.staPwd = field 63 password then s
  else changeSaved defaults true s { s.sysCfg with staPwd := field 63 password }

def mqttRpcSetApMeshPwd (defaults : SysCfg) (s : State) (password : List UInt8) : State :=
  if field 63 s.sysCfg.apMeshPwd = field 63 password then s
  else changeSaved defaults true s { s.sysCfg with apMeshPwd := field 63 password }

/-- `start_ap` and `stop_ap`, when they change the mode of the radio; from cron nothing is
checked. -/
def setApEnabled (defaults : SysCfg) (check : Bool) (s : State) (enabled : Bool) : State :=
  if s.sysCfg.apEnabled = enabled then s
  else changeSaved defaults check s { s.sysCfg with apEnabled := enabled }

/-- A key of the query of `set_ssid_pwd` with its value; `pwd` may come without one. -/
inductive KeyValue where
  | ssid (value : List UInt8)
  | pwd (value : List UInt8)
  | noPwd
  deriving DecidableEq

def withKeyValue (c : SysCfg) : KeyValue → SysCfg
  | .ssid value =>
    if field 31 c.staSsid = field 31 value then c else { c with staSsid := field 31 value }
  | .pwd value =>
    if field 63 c.staPwd = field 63 value then c else { c with staPwd := field 63 value }
  | .noPwd => { c with staPwd := [] }

def withSsidPwd (c : SysCfg) (query : List KeyValue) : SysCfg := query.foldl withKeyValue c

def cfgSaveSsidPwd (defaults : SysCfg) (s : State) (query : List KeyValue) : State :=
  changeSaved defaults true s (withSsidPwd s.sysCfg query)

def mqttRpcSetMqttHost (defaults : SysCfg) (s : State) (params : List UInt8) : State :=
  if 0 < params.length ∧ params.length < 64 then
    changeSaved defaults false s { s.sysCfg with mqttHost := params }
  else s

/-- The key that `cfg_save_key` reads from 32 digits. -/
def parseKey (keyHexStr : List UInt8) : Option (List UInt8) :=
  if keyHexStr.length = 32 then OtaHeader.hexToBytes keyHexStr else none

def mqttRpcSetKey (defaults : SysCfg) (s : State) (params : List UInt8) : State :=
  match parseKey (field 63 params) with
  | some key => changeSaved defaults false s { s.sysCfg with key := key }
  | none => s

def cgiSetup (defaults : SysCfg) (s : State) (essid passwd mqtthost : List UInt8) : State :=
  changeSaved defaults false s { s.sysCfg with
    staSsid := field 32 essid, staPwd := field 64 passwd, mqttHost := field 64 mqtthost }

/-- The device id is the serial number of the meter. -/
def sampleModeTimerFunc (defaults : SysCfg) (s : State) (meterSerial : List UInt8) : State :=
  let s := cfgLoad defaults s
  if field 15 s.sysCfg.deviceId = field 15 meterSerial then s
  else changeSaved defaults true s { s.sysCfg with deviceId := field 15 meterSerial }

/-- A restart is scheduled once; what ends the program is the timer. -/
def systemRestartDefered (s : State) : State := { s with restartPending := true }

/-- The state after `cfg_load` at boot. -/
def boot (defaults : SysCfg) (flash : Option SysCfg) : State :=
  cfgLoad defaults ⟨defaults,flash,false,false,false,false⟩

/-- `thermo` and what follows it up to `setApEnabled` are commands, by message or by cron; the
meter closes the valve when it has counted enough. -/
inductive Event
  | thermo (isOpen : Bool)
  | openUntil (opens : Bool) (intValue : ℕ)
  | openUntilDelta (opens : Bool) (intValue received : ℕ)
  | addCronJob (parsed : CronJobs)
  | clearCron (cleared : List CronJob)
  | setSsid (ssid : List UInt8)
  | setPwd (password : List UInt8)
  | setSsidPwd (query : List KeyValue)
  | setApMeshPwd (password : List UInt8)
  | setMqttHost (params : List UInt8)
  | setKey (params : List UInt8)
  | setApEnabled (check enabled : Bool)
  | meterClose
  | setup (essid passwd mqtthost : List UInt8)
  | sampleMode (meterSerial : List UInt8)
  | load
  | saveTimer
  | otaStart
  | otaFail
  | otaSuccess
  | restartDefered
  | restart
  deriving DecidableEq

/-- `mqtt_data_cb` and `minute_timer_func` return at once while an update is in progress. -/
def isCommand : Event → Bool
  | .thermo _ | .openUntil _ _ | .openUntilDelta _ _ _ | .addCronJob _ | .clearCron _ | .setSsid _
  | .setPwd _ | .setSsidPwd _ | .setApMeshPwd _ | .setMqttHost _ | .setKey _
  | .setApEnabled _ _ => true
  | _ => false

structure Enabled (s : State) (e : Event) : Prop where
  command : isCommand e = true ∨ e = .otaStart → s.otaInProgress = false
  update : e = .otaFail ∨ e = .otaSuccess → s.otaInProgress = true
  timer : e = .saveTimer → s.saveTimer = true
  restart : e = .restart → s.restartPending = true

def next (defaults : SysCfg) (s : State) : Event → State
  | .thermo isOpen => saveThermoState s isOpen
  | .openUntil opens intValue => saveOpenUntil defaults s opens intValue
  | .openUntilDelta opens intValue received => saveOpenUntilDelta defaults s opens intValue received
  | .addCronJob parsed => addCronJobFromQuery s parsed
  | .clearCron cleared => clearCronJobs s cleared
  | .setSsid ssid => mqttRpcSetSsid defaults s ssid
  | .setPwd password => mqttRpcSetPwd defaults s password
  | .setSsidPwd query => cfgSaveSsidPwd defaults s query
  | .setApMeshPwd password => mqttRpcSetApMeshPwd defaults s password
  | .setMqttHost params => mqttRpcSetMqttHost defaults s params
  | .setKey params => mqttRpcSetKey defaults s params
  | .setApEnabled check enabled => setApEnabled defaults check s enabled
  | .meterClose => saveThermoState s false
  | .setup essid passwd mqtthost => cgiSetup defaults s essid passwd mqtthost
  | .sampleMode meterSerial => sampleModeTimerFunc defaults s meterSerial
  | .load => cfgLoad defaults s
  | .saveTimer => configSaveTimerFunc s
  | .otaStart => { s with otaInProgress := true }
  | .otaFail => { s with otaInProgress := false }
  | .otaSuccess => systemRestartDefered { s with otaInProgress := false }
  | .restartDefered => systemRestartDefered s
  | .restart => boot defaults s.flash

def step (defaults : SysCfg) (s : State) (e : Event) (t : State) : Prop :=
  Enabled s e ∧ t = next defaults s e

/-- The settings that an event asks for. -/
def change (e : Event) (c : SysCfg) : SysCfg :=
  match e with
  | .thermo isOpen => withThermo c isOpen
  | .openUntil opens intValue => if opens then withOpenUntil c intValue intValue else c
  | .openUntilDelta opens intValue received =>
    if opens then withOpenUntil c intValue ((received+intValue)%2^32) else c
  | .addCronJob parsed => if c.cronJobs.n ≤ cronJobsMax-1 then { c with cronJobs := parsed } else c
  | .clearCron cleared => { c with cronJobs := ⟨0,cleared⟩ }
  | .setSsid ssid =>
    if field 31 c.staSsid = field 31 ssid then c else { c with staSsid := field 31 ssid }
  | .setPwd password =>
    if field 63 c.staPwd = field 63 password then c else { c with staPwd := field 63 password }
  | .setSsidPwd query => withSsidPwd c query
  | .setApMeshPwd password =>
    if field 63 c.apMeshPwd = field 63 password then c
    else { c with apMeshPwd := field 63 password }
  | .setMqttHost params =>
    if 0 < params.length ∧ params.length < 64 then { c with mqttHost := params } else c
  | .setKey params =>
    match parseKey (field 63 params) with
    | some key => { c with key := key }
    | none => c
  | .setApEnabled _ enabled => { c with apEnabled := enabled }
  | .meterClose => withThermo c false
  | .setup essid passwd mqtthost =>
    { c with staSsid := field 32 essid, staPwd := field 64 passwd, mqttHost := field 64 mqtthost }
  | .sampleMode meterSerial =>
    if field 15 c.deviceId = field 15 meterSerial then c
    else { c with deviceId := field 15 meterSerial }
  | .load | .saveTimer | .otaStart | .otaFail | .otaSuccess | .restartDefered | .restart => c

def loads : Event → Bool
  | .sampleMode _ | .load | .restart => true
  | _ => false

/-- Nothing is lost: what is in RAM is in flash, or a save is due. -/
def Kept (s : State) : Prop := s.flash = some s.sysCfg ∨ s.saveTimer = true

/-- During an update nothing changes unless a save is due already, and no save is due for what
is not in flash; the configuration is loaded, by a restart as well, only if flash is up to date. -/
structure Ok (s : State) (e : Event) : Prop where
  changes : s.otaInProgress = true → change e s.sysCfg ≠ s.sysCfg → s.saveTimer = true
  fires : s.otaInProgress = true → e = .saveTimer → s.flash = some s.sysCfg
  reload : loads e = true → s.flash = some s.sysCfg

/-- A step to `t` has made the change to `new`. -/
structure Changed (new : SysCfg) (t : State) : Prop where
  sysCfg : t.sysCfg = new
  kept : Kept t
  idle : t.saveTimerRunning = false

section Steps

variable {defaults : SysCfg} {s t : State} {new : SysCfg} {e : Event}

theorem Changed.blocked (hk : Kept s) (hidle : s.saveTimerRunning = false)
    (h : new ≠ s.sysCfg → s.saveTimer = true) : Changed new { s with sysCfg := new } := by
  refine ⟨rfl,?_,hidle⟩
  by_cases hnew : new = s.sysCfg
  · rw [hnew]
    exact hk
  · exact Or.inr (h hnew)

/-- A deferred change: while an update is in progress it must find a save due. -/
theorem changeDefered_changed (hk : Kept s) (hidle : s.saveTimerRunning = false)
    (h : s.otaInProgress = true → new ≠ s.sysCfg → s.saveTimer = true) :
    Changed new (changeDefered s new) := by
  rw [changeDefered,cfgSaveDefered]
  by_cases hota : s.otaInProgress = true
  · rw [if_pos hota]
    exact Changed.blocked hk hidle (h hota)
  · rw [if_neg hota]
    exact ⟨rfl,Or.inr rfl,hidle⟩

theorem cfgLoad_some {saved : SysCfg} (h : s.flash = some saved) :
    cfgLoad defaults s = { s with sysCfg := saved } := by
  obtain ⟨_,f,_,_,_,_⟩ := s
  obtain rfl : f = some saved := h
  rfl

theorem cfgLoad_none (h : s.flash = none) :
    cfgLoad defaults s = (store { s with sysCfg := defaults }).1 := by
  obtain ⟨_,f,_,_,_,_⟩ := s
  obtain rfl : f = none := h
  rfl

theorem cfgLoad_saved (h : s.flash = some s.sysCfg) : cfgLoad defaults s = s := cfgLoad_some h

theorem store_free (h : s.otaInProgress = false) :
    store s = ({ s with flash := some s.sysCfg },true) := by
  rw [store,h]
  rfl

theorem cfgSave_free (h : s.otaInProgress = false) (check : Bool) :
    cfgSave defaults check s = ({ s with flash := some s.sysCfg },true) := by
  rw [cfgSave,store_free h,Bool.true_and]
  cases check with
  | false => rfl
  | true =>
    rw [if_pos rfl]
    dsimp only
    rw [cfgLoad_saved rfl]
    simp

theorem changeSaved_changed (check : Bool) (hk : Kept s) (hidle : s.saveTimerRunning = false)
    (h : s.otaInProgress = true → new ≠ s.sysCfg → s.saveTimer = true) :
    Changed new (changeSaved defaults check s new) := by
  rw [changeSaved]
  by_cases hota : s.otaInProgress = true
  · rw [cfgSave,store,if_pos hota]
    exact Changed.blocked hk hidle (h hota)
  · rw [cfgSave_free (s := { s with sysCfg := new }) (Bool.eq_false_iff.mpr hota)]
    exact ⟨rfl,Or.inl rfl,hidle⟩

theorem Changed.if_differs {p : Prop} [Decidable p] {c : SysCfg} (hk : Kept s)
    (hidle : s.saveTimerRunning = false) (hc : c = if p then s.sysCfg else new)
    (h : ¬p → Changed new t) : Changed c (if p then s else t) := by
  rw [hc]
  by_cases hp : p
  · rw [if_pos hp,if_pos hp]
    exact ⟨rfl,hk,hidle⟩
  · rw [if_neg hp,if_neg hp]
    exact h hp

theorem saveThermoState_changed (hk : Kept s) (hidle : s.saveTimerRunning = false) (isOpen : Bool)
    (h : s.otaInProgress = true → withThermo s.sysCfg isOpen ≠ s.sysCfg → s.saveTimer = true) :
    Changed (withThermo s.sysCfg isOpen) (saveThermoState s isOpen) := by
  apply Changed.if_differs hk hidle
  · split
    · rename_i hsame
      rw [withThermo,← hsame]
    · rfl
  · exact fun _ => changeDefered_changed hk hidle h

theorem configSaveTimerFunc_free (hidle : s.saveTimerRunning = false)
    (hota : s.otaInProgress = false) :
    configSaveTimerFunc s = { s with saveTimer := false, flash := some s.sysCfg } := by
  obtain ⟨c,f,timer,running,ota,_⟩ := s
  obtain rfl : running = false := hidle
  obtain rfl : ota = false := hota
  rfl

theorem saveThermoState_ota (s : State) (isOpen : Bool) :
    (saveThermoState s isOpen).otaInProgress = s.otaInProgress := by
  rw [saveThermoState]
  split
  · rfl
  · rw [changeDefered,cfgSaveDefered]
    split <;> rfl

theorem saveCloseAt_changed (hk : Kept s) (hidle : s.saveTimerRunning = false)
    (hfree : s.otaInProgress = false) (intValue target : ℕ) :
    Changed (withOpenUntil s.sysCfg intValue target) (saveCloseAt defaults s intValue target) := by
  have hblocked : ∀ {p : Prop}, s.otaInProgress = true → p := fun hota =>
    absurd (hota.symm.trans hfree) (by decide)
  have hopen := saveThermoState_changed hk hidle true fun hota => hblocked hota
  have hota := saveThermoState_ota s true
  refine Changed.if_differs hopen.kept hopen.idle ?_ fun _ =>
    changeSaved_changed true hopen.kept hopen.idle fun hno => hblocked (hota.symm.trans hno)
  rw [withOpenUntil,hopen.sysCfg]

theorem boot_saved {flash : Option SysCfg} {c : SysCfg} (h : flash = some c) :
    Changed c (boot defaults flash) := by
  subst h
  exact ⟨rfl,Or.inl rfl,rfl⟩

theorem next_changed (hk : Kept s) (hidle : s.saveTimerRunning = false) (hok : Ok s e)
    (he : Enabled s e) : Changed (change e s.sysCfg) (next defaults s e) := by
  have hchange := hok.changes
  cases e with
  | thermo isOpen => exact saveThermoState_changed hk hidle isOpen hchange
  | openUntil opens intValue =>
    have hfree := he.command (Or.inl rfl)
    cases opens with
    | true => exact saveCloseAt_changed hk hidle hfree intValue intValue
    | false => exact ⟨rfl,hk,hidle⟩
  | openUntilDelta opens intValue received =>
    have hfree := he.command (Or.inl rfl)
    cases opens with
    | true => exact saveCloseAt_changed hk hidle hfree intValue ((received+intValue)%2^32)
    | false => exact ⟨rfl,hk,hidle⟩
  | addCronJob parsed =>
    have hfree := he.command (Or.inl rfl)
    rw [next,addCronJobFromQuery,change]
    split
    · exact changeDefered_changed hk hidle fun hota => absurd (hota.symm.trans hfree) (by decide)
    · exact ⟨rfl,hk,hidle⟩
  | clearCron cleared => exact changeDefered_changed hk hidle hchange
  | setSsid ssid =>
    have hfree := he.command (Or.inl rfl)
    exact Changed.if_differs hk hidle rfl fun _ => changeSaved_changed true hk hidle
      fun hota => absurd (hota.symm.trans hfree) (by decide)
  | setPwd password =>
    have hfree := he.command (Or.inl rfl)
    exact Changed.if_differs hk hidle rfl fun _ => changeSaved_changed true hk hidle
      fun hota => absurd (hota.symm.trans hfree) (by decide)
  | setSsidPwd query => exact changeSaved_changed true hk hidle hchange
  | setApMeshPwd password =>
    have hfree := he.command (Or.inl rfl)
    exact Changed.if_differs hk hidle rfl fun _ => changeSaved_changed true hk hidle
      fun hota => absurd (hota.symm.trans hfree) (by decide)
  | setMqttHost params =>
    have hfree := he.command (Or.inl rfl)
    rw [next,mqttRpcSetMqttHost,change]
    split
    · exact changeSaved_changed false hk hidle fun hota => absurd (hota.symm.trans hfree) (by decide)
    · exact ⟨rfl,hk,hidle⟩
  | setKey params =>
    have hfree := he.command (Or.inl rfl)
    rw [next,mqttRpcSetKey,change]
    split
    · exact changeSaved_changed false hk hidle fun hota => absurd (hota.symm.trans hfree) (by decide)
    · exact ⟨rfl,hk,hidle⟩
  | setApEnabled check enabled =>
    apply Changed.if_differs hk hidle
    · split
      · rename_i hsame
        rw [change,← hsame]
      · rfl
    · exact fun _ => changeSaved_changed check hk hidle hchange
  | meterClose => exact saveThermoState_changed hk hidle false hchange
  | setup essid passwd mqtthost => exact changeSaved_changed false hk hidle hchange
  | sampleMode meterSerial =>
    rw [next,sampleModeTimerFunc,cfgLoad_saved (hok.reload rfl)]
    refine Changed.if_differs hk hidle rfl fun hdiffers => changeSaved_changed true hk hidle ?_
    rw [change,if_neg hdiffers] at hchange
    exact hchange
  | load =>
    rw [next,cfgLoad_saved (hok.reload rfl)]
    exact ⟨rfl,hk,hidle⟩
  | saveTimer =>
    by_cases hota : s.otaInProgress = true
    · rw [next,configSaveTimerFunc,if_pos hota]
      exact ⟨rfl,Or.inl (hok.fires hota rfl),rfl⟩
    · rw [next,configSaveTimerFunc_free hidle (Bool.eq_false_iff.mpr hota)]
      exact ⟨rfl,Or.inl rfl,hidle⟩
  | otaStart => exact ⟨rfl,hk,hidle⟩
  | otaFail => exact ⟨rfl,hk,hidle⟩
  | otaSuccess => exact ⟨rfl,hk,hidle⟩
  | restartDefered => exact ⟨rfl,hk,hidle⟩
  | restart => exact boot_saved (hok.reload rfl)

end Steps

theorem boot_kept (defaults : SysCfg) (flash : Option SysCfg) :
    Kept (boot defaults flash) ∧ (boot defaults flash).saveTimerRunning = false := by
  cases flash with
  | some saved => exact ⟨Or.inl rfl,rfl⟩
  | none => exact ⟨Or.inl rfl,rfl⟩

theorem run_changed {defaults : SysCfg} {s t : State} {es : List Event}
    (h : Run (Guarded Ok (step defaults)) s es t) (hk : Kept s) (hidle : s.saveTimerRunning = false) :
    Changed (es.foldl (fun c e => change e c) s.sysCfg) t := by
  induction h with
  | nil => exact ⟨rfl,hk,hidle⟩
  | cons hs _ ih =>
    obtain ⟨hok,he,rfl⟩ := hs
    have hnext : Changed _ (next defaults _ _) := next_changed hk hidle hok he
    rw [List.foldl_cons,← hnext.sysCfg]
    exact ih hnext.kept hnext.idle

/-- In a run in which nothing changes during an update without a save due, no save falls due
during an update, and nothing is loaded that is older than RAM, every change stays in RAM and
is in flash or will be when the save that is due is made. -/
theorem changes_kept {defaults : SysCfg} {flash : Option SysCfg} {es : List Event} {s : State}
    (h : Run (Guarded Ok (step defaults)) (boot defaults flash) es s) :
    s.sysCfg = es.foldl (fun c e => change e c) (boot defaults flash).sysCfg ∧
      (s.flash = some s.sysCfg ∨ s.saveTimer = true) ∧
      (s.otaInProgress = false → (configSaveTimerFunc s).flash = some s.sysCfg) := by
  obtain ⟨hk,hidle⟩ := boot_kept defaults flash
  have hall := run_changed h hk hidle
  refine ⟨hall.sysCfg,hall.kept,fun hota => ?_⟩
  rw [configSaveTimerFunc_free hall.idle hota]

def sampleCfg : SysCfg where
  deviceId := ascii "6543210"
  staSsid := ascii "home"
  staPwd := ascii "secret"
  apMeshPwd := ascii "mesh"
  apEnabled := true
  mqttHost := ascii "meterlogger"
  key := List.replicate 16 0
  acThermoState := false
  offlineCloseAt := 0
  cronJobs := ⟨0,[]⟩

instance (s : State) (e : Event) : Decidable (Enabled s e) :=
  decidable_of_iff ((isCommand e = true ∨ e = .otaStart → s.otaInProgress = false) ∧
      (e = .otaFail ∨ e = .otaSuccess → s.otaInProgress = true) ∧
      (e = .saveTimer → s.saveTimer = true) ∧ (e = .restart → s.restartPending = true))
    ⟨fun ⟨h₁,h₂,h₃,h₄⟩ => ⟨h₁,h₂,h₃,h₄⟩,fun ⟨h₁,h₂,h₃,h₄⟩ => ⟨h₁,h₂,h₃,h₄⟩⟩

instance (s : State) (e : Event) : Decidable (Ok s e) :=
  decidable_of_iff ((s.otaInProgress = true → change e s.sysCfg ≠ s.sysCfg → s.saveTimer = true) ∧
      (s.otaInProgress = true → e = .saveTimer → s.flash = some s.sysCfg) ∧
      (loads e = true → s.flash = some s.sysCfg))
    ⟨fun ⟨h₁,h₂,h₃⟩ => ⟨h₁,h₂,h₃⟩,fun ⟨h₁,h₂,h₃⟩ => ⟨h₁,h₂,h₃⟩⟩

/-- The valve is opened until a reading, and all is saved before an update that succeeds: the
restart finds it in flash. -/
theorem changes_kept_open :
    Run (Guarded Ok (step sampleCfg)) (boot sampleCfg (some sampleCfg))
      [.openUntil true 1005,.saveTimer,.otaStart,.otaSuccess,.restart]
      (boot sampleCfg (some (withOpenUntil sampleCfg 1005 1005))) ∧
    (boot sampleCfg (some (withOpenUntil sampleCfg 1005 1005))).sysCfg =
      { sampleCfg with acThermoState := true, offlineCloseAt := 1005 } ∧
    (configSaveTimerFunc (boot sampleCfg (some (withOpenUntil sampleCfg 1005 1005)))).flash =
      some { sampleCfg with acThermoState := true, offlineCloseAt := 1005 } := by
  have hrun : Run (Guarded Ok (step sampleCfg)) (boot sampleCfg (some sampleCfg))
      [.openUntil true 1005,.saveTimer,.otaStart,.otaSuccess,.restart]
      (boot sampleCfg (some (withOpenUntil sampleCfg 1005 1005))) :=
    guarded_of_allowed (by decide +kernel)
  obtain ⟨hram,_,hsaved⟩ := changes_kept hrun
  exact ⟨hrun,hram,hsaved rfl⟩

/-- The command to open comes shortly before an update that fails: nothing saves the change. -/
theorem changes_lost : ¬∀ (defaults : SysCfg) (flash : Option SysCfg) (es : List Event) (s : State),
    Run (step defaults) (boot defaults flash) es s → s.flash = some s.sysCfg ∨ s.saveTimer = true := by
  intro h
  have hrun : Run (Guarded (fun _ _ => True) (step sampleCfg)) (boot sampleCfg (some sampleCfg))
      [.thermo true,.otaStart,.saveTimer,.otaFail]
      ⟨withThermo sampleCfg true,some sampleCfg,false,false,false,false⟩ :=
    guarded_of_allowed (by decide +kernel)
  exact absurd (h _ _ _ _ (hrun.mono fun _ _ _ hs => hs.2)) (by decide)

end Config
end MeterLogger
