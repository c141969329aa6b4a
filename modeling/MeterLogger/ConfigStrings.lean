import MeterLogger.ConfigCommands
import MeterLogger.Runs

/-!
# Configuration strings

Every string of the configuration ends within its array, after any sequence of commands, as long
as the form of the web server brings no password or host of 64 bytes. The flash may lose what it
was given, but what it gives back under a correct checksum was written to it, before or after the
last reboot.
-/

namespace MeterLogger
namespace SysCfg

open CStrings CharArray Runs

structure CronJobT.Closed (job : CronJobT) : Prop where
  minute : Terminated job.minute
  hour : Terminated job.hour
  dayOfMonth : Terminated job.dayOfMonth
  month : Terminated job.month
  dayOfWeek : Terminated job.dayOfWeek
  command : Terminated job.command
  commandParams : Terminated job.commandParams

/-- Every string of the configuration contains a NUL. -/
structure Settings.Closed (c : Settings) : Prop where
  deviceId : Terminated c.deviceId
  staSsid : Terminated c.staSsid
  staPwd : Terminated c.staPwd
  apMeshPwd : Terminated c.apMeshPwd
  mqttHost : Terminated c.mqttHost
  mqttUser : Terminated c.mqttUser
  mqttPass : Terminated c.mqttPass
  jobs : ∀ i, ∀ h : i < 16, (c.cronJobList[i]).Closed

/-- What reaches the configuration. The other commands change no string: `numbers`. -/
inductive Call
  | setSsid (ssid : List UInt8)
  | setPwd (password : List UInt8)
  | setSsidPwd (ssidPwd : List UInt8)
  | setApMeshPwd (password : List UInt8)
  | setMqttHost (params : List UInt8)
  | setCron (query : List UInt8)
  | clearCron
  | setup (post : Option (List UInt8)) (stack : Form)
  | numbers (apEnabled acThermoState : UInt8) (offlineCloseAt : UInt32) (key : Vector UInt8 16)
  | sampleMode (meterSerial : List UInt8)
  | save
  | load
  | ota (inProgress : Bool)
  | reboot

/-- An event, with what the flash gives if it is read. -/
structure Event where
  call : Call
  flash : SyscfgT
  readBack : SyscfgT
  sums : Sums

/-- `sys_cfg` before the first `cfg_load`. -/
def unloaded : State := ⟨⟨cleared,0⟩,false,[]⟩

def next (chip : Chip) (s : State) (e : Event) : State :=
  match e.call with
  | .setSsid ssid => mqttRpcSetSsid chip e.flash e.sums s ssid
  | .setPwd password => mqttRpcSetPwd chip e.flash e.sums s password
  | .setSsidPwd ssidPwd => mqttRpcSetSsidPwd chip e.flash e.sums s ssidPwd
  | .setApMeshPwd password => mqttRpcSetApMeshPwd chip e.flash e.sums s password
  | .setMqttHost params => mqttRpcSetMqttHost s params
  | .setCron query => s.change fun c => addCronJobFromQuery c query
  | .clearCron => s.change clearCronJobs
  | .setup post stack => (store (s.change fun c => cgiSetup c (.read post stack))).1
  | .numbers apEnabled acThermoState offlineCloseAt key => s.change fun c =>
    { c with apEnabled := apEnabled, acThermoState := acThermoState,
             offlineCloseAt := offlineCloseAt, key := key }
  | .sampleMode meterSerial => sampleModeTimerFunc chip e.flash e.readBack e.sums s meterSerial
  | .save => (store s).1
  | .load => cfgLoad chip e.flash s
  | .ota inProgress => { s with otaInProgress := inProgress }
  | .reboot => { unloaded with written := s.written }

/-- What the flash was given before a call reads it. The commands save first. -/
def flashed (s : State) : Call → List SyscfgT
  | .setSsid ssid => (store (s.change fun c => changeSsid c ssid)).1.written
  | .setPwd password => (store (s.change fun c => changePwd c password)).1.written
  | .setSsidPwd ssidPwd => (store (s.change fun c => changeSsidPwd c ssidPwd)).1.written
  | .setApMeshPwd password => (store (s.change fun c => changeApMeshPwd c password)).1.written
  | _ => s.written

/-- What the flash gives under a correct checksum was written to it. `sampleMode` reads it a second
time, when it has saved the name. -/
structure Honest (chip : Chip) (s : State) (e : Event) : Prop where
  flash : e.flash.Valid → e.flash ∈ flashed s e.call
  readBack : ∀ meterSerial, e.call = .sampleMode meterSerial → e.readBack.Valid →
    e.readBack ∈ (store (nameDevice (cfgLoad chip e.flash s) meterSerial)).1.written

/-- A call over a flash that makes nothing up. -/
def Step (chip : Chip) : State → Event → State → Prop := Guarded (Honest chip) (ofFun (next chip))

/-- What the form brings fits: a name of less than 32 bytes, unless a NUL stands behind them, and
a password and a host of less than 64. -/
structure Form.Fits (form : Form) (c : Settings) : Prop where
  essid : (str form.essid).length < 32 ∨ ∃ i, ∃ h : i < 64, 32 ≤ i ∧ c.staSsid[i] = 0
  passwd : (str form.passwd).length < 64
  mqtthost : (str form.mqtthost).length < 64

/-- The condition on a step: the form fits. -/
def Ok (s : State) (e : Event) : Prop :=
  ∀ post stack, e.call = .setup post stack → (Form.read post stack).Fits s.sysCfg.toSettings

theorem emptyJob_closed : emptyJob.Closed := by
  constructor <;> exact terminated_zeros (by decide)

theorem cleared_closed : cleared.Closed where
  deviceId := terminated_zeros (by decide)
  staSsid := terminated_zeros (by decide)
  staPwd := terminated_zeros (by decide)
  apMeshPwd := terminated_zeros (by decide)
  mqttHost := terminated_zeros (by decide)
  mqttUser := terminated_zeros (by decide)
  mqttPass := terminated_zeros (by decide)
  jobs i h := by
    simp only [cleared,Vector.getElem_replicate]
    exact emptyJob_closed

theorem defaults_closed (chip : Chip) : (defaults chip).Closed where
  deviceId := terminated_snprintf (by decide) (by decide)
  staSsid := terminated_snprintf (by decide) (by decide)
  staPwd := terminated_snprintf (by decide) (by decide)
  apMeshPwd := terminated_snprintf (by decide) (by decide)
  mqttHost := terminated_snprintf (by decide) (by decide)
  mqttUser := terminated_snprintf (by decide) (by decide)
  mqttPass := terminated_snprintf (by decide) (by decide)
  jobs := cleared_closed.jobs

section Settings

variable {c : Settings} {value token : List UInt8}

theorem changeSsid_closed (h : c.Closed) : (changeSsid c value).Closed := by
  rw [changeSsid]
  split
  · exact h
  · exact { h with staSsid := terminated_strncpy_zeros (by decide) }

theorem changePwd_closed (h : c.Closed) : (changePwd c value).Closed := by
  rw [changePwd]
  split
  · exact h
  · exact { h with staPwd := terminated_strncpy_zeros (by decide) }

theorem changeApMeshPwd_closed (h : c.Closed) : (changeApMeshPwd c value).Closed := by
  rw [changeApMeshPwd]
  split
  · exact h
  · exact { h with apMeshPwd := terminated_strncpy_zeros (by decide) }

theorem clearPwd_closed (h : c.Closed) : (clearPwd c).Closed := by
  rw [clearPwd]
  split
  · exact { h with staPwd := terminated_zeros (by decide) }
  · exact h

theorem changeKeyValue_closed (h : c.Closed) : (changeKeyValue c token).Closed := by
  rw [changeKeyValue]
  split
  · exact h
  · split
    · split
      · exact h
      · exact changeSsid_closed h
    · split
      · split
        · exact clearPwd_closed h
        · exact changePwd_closed h
      · exact h

theorem foldl_closed {f : Settings → List UInt8 → Settings}
    (hf : ∀ c token, c.Closed → (f c token).Closed) (tokens : List (List UInt8)) (h : c.Closed) :
    (tokens.foldl f c).Closed := by
  induction tokens generalizing c with
  | nil => exact h
  | cons token tokens ih => exact ih (hf c token h)

theorem changeSsidPwd_closed (h : c.Closed) : (changeSsidPwd c value).Closed :=
  foldl_closed (fun _ _ h => changeKeyValue_closed h) _ h

theorem cronField_terminated (a : Vector UInt8 8) : Terminated (cronField a value) :=
  terminated_of_get 7 (by decide) (by simp [cronField])

theorem changeJob_closed {i : ℕ} {f : CronJobT → CronJobT} (h : c.Closed)
    (hf : ∀ job, job.Closed → (f job).Closed) : (changeJob c i f).Closed := by
  have hjobs : ∀ k, ∀ hk : k < 16, ((changeJob c i f).cronJobList[k]).Closed := by
    intro k hk
    rw [changeJob,modifyJob_get hk]
    split
    · exact hf _ (h.jobs k hk)
    · exact h.jobs k hk
  exact { h with jobs := hjobs }

theorem writeCommand_closed {params : List UInt8} {job : CronJobT} (h : job.Closed) :
    (writeCommand params value job).Closed := by
  have hparams : Terminated (writeCommand params value job).commandParams := by
    rw [writeCommand]
    dsimp only
    split
    · exact h.commandParams
    · exact terminated_of_get 95 (by decide) (by simp)
  exact { h with
    command := terminated_of_get 31 (by decide) (by simp [writeCommand])
    commandParams := hparams }

theorem addKeyValue_closed {params : List UInt8} (h : c.Closed) :
    (addKeyValue params c token).Closed := by
  rw [addKeyValue]
  split
  · rename_i key value rest _
    dsimp only
    split
    · exact changeJob_closed h fun job hjob => { hjob with minute := cronField_terminated _ }
    split
    · exact changeJob_closed h fun job hjob => { hjob with hour := cronField_terminated _ }
    split
    · exact changeJob_closed h fun job hjob => { hjob with dayOfMonth := cronField_terminated _ }
    split
    · exact changeJob_closed h fun job hjob => { hjob with month := cronField_terminated _ }
    split
    · exact changeJob_closed h fun job hjob => { hjob with dayOfWeek := cronField_terminated _ }
    split
    · have hadded := changeJob_closed (i := c.cronJobsN.toNat) (f := writeCommand params value) h
        fun job hjob => writeCommand_closed hjob
      exact { hadded with }
    · exact h
  · exact h

theorem addCronJobFromQuery_closed (h : c.Closed) : (addCronJobFromQuery c value).Closed := by
  rw [addCronJobFromQuery]
  split
  · exact foldl_closed (fun _ _ h => addKeyValue_closed h) _
      (changeJob_closed h fun _ _ => emptyJob_closed)
  · exact h

theorem clearCronJobs_closed (h : c.Closed) : (clearCronJobs c).Closed := by
  have hfirst := changeJob_closed (i := 0) (f := fun job => { emptyJob with
      commandParams := (zeros 96).set 95 job.commandParams[95] }) h fun job _ =>
    { emptyJob_closed with
      commandParams := terminated_of_get 0 (by decide) (by simp [zeros]) }
  exact { hfirst with }

theorem cgiSetup_closed_iff {form : Form} (h : c.Closed) :
    (cgiSetup c form).Closed ↔ form.Fits c := by
  have hfull : ∀ a : Vector UInt8 64, ¬∃ i, ∃ hi : i < 64, 64 ≤ i ∧ a[i] = 0 := by
    rintro a ⟨i,hi,hle,_⟩
    omega
  constructor
  · intro hall
    refine ⟨(terminated_strncpy_iff (by decide)).mp hall.staSsid,?_,?_⟩
    · exact ((terminated_strncpy_iff (Nat.le_refl 64)).mp hall.staPwd).resolve_right (hfull _)
    · exact ((terminated_strncpy_iff (Nat.le_refl 64)).mp hall.mqttHost).resolve_right (hfull _)
  · intro hfits
    exact { h with
      staSsid := (terminated_strncpy_iff (by decide)).mpr hfits.essid
      staPwd := (terminated_strncpy_iff (Nat.le_refl 64)).mpr (Or.inl hfits.passwd)
      mqttHost := (terminated_strncpy_iff (Nat.le_refl 64)).mpr (Or.inl hfits.mqtthost) }

end Settings

section Steps

variable {chip : Chip} {flash : SyscfgT} {sums : Sums} {s : State}

/-- Every string is terminated, in RAM and in all that was ever written. -/
structure State.Closed (s : State) : Prop where
  ram : s.sysCfg.toSettings.Closed
  written : ∀ c ∈ s.written, c.toSettings.Closed

theorem State.Closed.change {f : Settings → Settings} (h : s.Closed)
    (hf : (f s.sysCfg.toSettings).Closed) : (s.change f).Closed := ⟨hf,h.written⟩

theorem store_closed (h : s.Closed) : (store s).1.Closed := by
  rw [store]
  split
  · exact h
  · refine ⟨h.ram,fun c hc => ?_⟩
    rcases List.mem_append.mp hc with hold | hnew
    · exact h.written c hold
    · rw [List.mem_singleton.mp hnew]
      exact h.ram

theorem cfgLoad_closed (hwritten : ∀ c ∈ s.written, c.toSettings.Closed)
    (hflash : flash.Valid → flash ∈ s.written) : (cfgLoad chip flash s).Closed := by
  rw [cfgLoad]
  split
  · exact ⟨hwritten flash (hflash ‹_›),hwritten⟩
  · exact store_closed ⟨defaults_closed chip,hwritten⟩

theorem cfgSave_closed (h : s.Closed) (hflash : flash.Valid → flash ∈ (store s).1.written) :
    (cfgSave chip flash sums s).1.Closed := by
  have hstore := store_closed h
  rw [cfgSave]
  dsimp only
  split
  · exact cfgLoad_closed hstore.written hflash
  · exact hstore

theorem next_closed {e : Event} (h : s.Closed) (hhonest : Honest chip s e) (hok : Ok s e) :
    (next chip s e).Closed := by
  obtain ⟨call,flash,readBack,sums⟩ := e
  obtain ⟨hflash,hreadBack⟩ := hhonest
  cases call with
  | setSsid ssid =>
    simp only [next]
    rw [mqttRpcSetSsid]
    split
    · exact h
    · exact cfgSave_closed (h.change (changeSsid_closed h.ram)) hflash
  | setPwd password =>
    simp only [next]
    rw [mqttRpcSetPwd]
    split
    · exact h
    · exact cfgSave_closed (h.change (changePwd_closed h.ram)) hflash
  | setSsidPwd ssidPwd => exact cfgSave_closed (h.change (changeSsidPwd_closed h.ram)) hflash
  | setApMeshPwd password =>
    simp only [next]
    rw [mqttRpcSetApMeshPwd]
    split
    · exact h
    · exact cfgSave_closed (h.change (changeApMeshPwd_closed h.ram)) hflash
  | setMqttHost params =>
    simp only [next]
    rw [mqttRpcSetMqttHost]
    split
    · rename_i hlen
      refine store_closed (h.change ?_)
      exact { h.ram with mqttHost := terminated_strncpy_zeros hlen.2 }
    · exact h
  | setCron query => exact h.change (addCronJobFromQuery_closed h.ram)
  | clearCron => exact h.change (clearCronJobs_closed h.ram)
  | setup post stack =>
    exact store_closed (h.change ((cgiSetup_closed_iff h.ram).mpr (hok post stack rfl)))
  | numbers apEnabled acThermoState offlineCloseAt key => exact ⟨{ h.ram with },h.written⟩
  | sampleMode meterSerial =>
    have hload : (cfgLoad chip flash s).Closed := cfgLoad_closed h.written hflash
    simp only [next]
    rw [sampleModeTimerFunc]
    split
    · exact hload
    · refine cfgSave_closed (hload.change ?_) (hreadBack meterSerial rfl)
      exact { hload.ram with deviceId := terminated_snprintf (by decide) (by decide) }
  | save => exact store_closed h
  | load => exact cfgLoad_closed h.written hflash
  | ota inProgress => exact ⟨h.ram,h.written⟩
  | reboot => exact ⟨cleared_closed,h.written⟩

end Steps

/-- Every run whose forms fit keeps every string of the configuration terminated. -/
theorem strings_terminated {chip : Chip} {es : List Event} {s : State}
    (h : Run (Guarded Ok (Step chip)) unloaded es s) : s.sysCfg.toSettings.Closed := by
  have hstart : unloaded.Closed := ⟨cleared_closed,fun c hc => nomatch hc⟩
  refine (h.invariant (I := State.Closed) ?_ hstart).ram
  rintro s e t hs ⟨hok,hhonest,rfl⟩
  exact next_closed hs hhonest hok

def noForm : Form := ⟨zeros 128,zeros 128,zeros 64⟩

/-- The form is sent in the way a browser does, with a password of `n` characters. -/
def sampleForm (n : ℕ) : List UInt8 :=
  ascii "essid=home&passwd=" ++ List.replicate n 0x61 ++ ascii "&mqtthost=meterlogger"

/-- A flash that nothing was written to. -/
def blank : SyscfgT := ⟨cleared,cleared.checksum+1⟩

theorem blank_invalid : ¬blank.Valid := by
  intro h
  have hone : cleared.checksum+1 = cleared.checksum := h
  simp at hone

def setupEvent (n : ℕ) : Event := ⟨.setup (some (sampleForm n)) noForm,blank,blank,⟨0,0⟩⟩

def loadEvent (flash : SyscfgT) : Event := ⟨.load,flash,blank,⟨0,0⟩⟩

/-- What the form with a password of eight characters makes of the defaults. -/
def setUpSettings : Settings :=
  cgiSetup (defaults sampleChip) (Form.read (some (sampleForm 8)) noForm)

/-- The defaults are written to the blank flash, a password of eight characters is sent, and after a
reboot the flash gives back what was saved. -/
theorem strings_terminated_setup :
    Run (Guarded Ok (Step sampleChip)) unloaded
        [loadEvent blank,setupEvent 8,⟨.reboot,blank,blank,⟨0,0⟩⟩,loadEvent setUpSettings.sealed]
        ⟨setUpSettings.sealed,false,[(defaults sampleChip).sealed,setUpSettings.sealed]⟩ ∧
      setUpSettings.Closed := by
  have hblank : ∀ xs : List SyscfgT, blank.Valid → blank ∈ xs := fun xs h => absurd h blank_invalid
  have hload : next sampleChip unloaded (loadEvent blank) =
      ⟨(defaults sampleChip).sealed,false,[(defaults sampleChip).sealed]⟩ := if_neg blank_invalid
  have hback : next sampleChip ⟨⟨cleared,0⟩,false,
        [(defaults sampleChip).sealed,setUpSettings.sealed]⟩ (loadEvent setUpSettings.sealed) =
      ⟨setUpSettings.sealed,false,[(defaults sampleChip).sealed,setUpSettings.sealed]⟩ := if_pos rfl
  have hfits : Ok ⟨(defaults sampleChip).sealed,false,[(defaults sampleChip).sealed]⟩
      (setupEvent 8) := by
    rintro _ _ ⟨⟩
    exact ⟨Or.inl (by decide),by decide,by decide⟩
  have hrun : Run (Guarded Ok (Step sampleChip)) unloaded
      [loadEvent blank,setupEvent 8,⟨.reboot,blank,blank,⟨0,0⟩⟩,loadEvent setUpSettings.sealed]
      ⟨setUpSettings.sealed,false,[(defaults sampleChip).sealed,setUpSettings.sealed]⟩ := by
    refine .cons ⟨by rintro _ _ ⟨⟩,⟨hblank _,by rintro _ ⟨⟩⟩,hload.symm⟩ ?_
    refine .cons ⟨hfits,⟨hblank _,by rintro _ ⟨⟩⟩,rfl⟩ ?_
    refine .cons ⟨by rintro _ _ ⟨⟩,⟨hblank _,by rintro _ ⟨⟩⟩,rfl⟩ ?_
    refine .single ⟨by rintro _ _ ⟨⟩,⟨fun _ => ?_,by rintro _ ⟨⟩⟩,hback.symm⟩
    exact List.mem_cons_of_mem _ List.mem_cons_self
  exact ⟨hrun,strings_terminated hrun⟩

/-- A password of 64 characters leaves no room for the NUL. -/
theorem strings_unterminated : ¬∀ (chip : Chip) (es : List Event) (s : State),
    Run (Step chip) unloaded es s → s.sysCfg.toSettings.Closed := by
  intro h
  have hhonest : Honest sampleChip unloaded (setupEvent 64) :=
    ⟨fun hvalid => absurd hvalid blank_invalid,fun _ h => nomatch h⟩
  have hclosed := (h sampleChip [setupEvent 64] (next sampleChip unloaded (setupEvent 64))
    (.single ⟨hhonest,rfl⟩)).staPwd
  revert hclosed
  decide +kernel

end SysCfg
end MeterLogger
