import MeterLogger.CharArray
import MeterLogger.Crc16

/-!
# The configuration in memory

`sys_cfg` byte by byte, and how `cfg_save` and `cfg_load` keep it in flash under its checksum.
What reading the flash back gives is up to the flash.
-/

namespace MeterLogger
namespace SysCfg

open CStrings CharArray Crc16

/-- `cron_job_t`. -/
structure CronJobT where
  minute : Vector UInt8 8
  hour : Vector UInt8 8
  dayOfMonth : Vector UInt8 8
  month : Vector UInt8 8
  dayOfWeek : Vector UInt8 8
  command : Vector UInt8 32
  commandParams : Vector UInt8 96
  deriving DecidableEq

def cronJobsMax : ℕ := 16

/-- `syscfg_t` up to its checksum, with the bytes that align its numbers. -/
structure Settings where
  cfgHolder : UInt32
  deviceId : Vector UInt8 16
  staSsid : Vector UInt8 64
  staPwd : Vector UInt8 64
  staType : UInt32
  apMeshPwd : Vector UInt8 64
  apEnabled : UInt8
  mqttHost : Vector UInt8 64
  align₁ : Vector UInt8 3
  mqttPort : UInt32
  mqttUser : Vector UInt8 32
  mqttPass : Vector UInt8 32
  mqttKeepalive : UInt32
  security : UInt8
  key : Vector UInt8 16
  acThermoState : UInt8
  align₂ : Vector UInt8 2
  offlineCloseAt : UInt32
  cronJobsN : UInt8
  cronJobList : Vector CronJobT 16
  align₃ : UInt8
  deriving DecidableEq

structure SyscfgT extends Settings where
  ccitCrc16 : UInt16
  deriving DecidableEq

def u32Memory (n : UInt32) : List UInt8 :=
  [n.toUInt8,(n >>> 8).toUInt8,(n >>> 16).toUInt8,(n >>> 24).toUInt8]

def CronJobT.memory (job : CronJobT) : List UInt8 :=
  job.minute.toList ++ job.hour.toList ++ job.dayOfMonth.toList ++ job.month.toList ++
    job.dayOfWeek.toList ++ job.command.toList ++ job.commandParams.toList

def Settings.memory (c : Settings) : List UInt8 :=
  u32Memory c.cfgHolder ++ c.deviceId.toList ++ c.staSsid.toList ++ c.staPwd.toList ++
    u32Memory c.staType ++ c.apMeshPwd.toList ++ [c.apEnabled] ++ c.mqttHost.toList ++
    c.align₁.toList ++ u32Memory c.mqttPort ++ c.mqttUser.toList ++ c.mqttPass.toList ++
    u32Memory c.mqttKeepalive ++ [c.security] ++ c.key.toList ++ [c.acThermoState] ++
    c.align₂.toList ++ u32Memory c.offlineCloseAt ++ [c.cronJobsN] ++
    c.cronJobList.toList.flatMap CronJobT.memory ++ [c.align₃]

@[irreducible] def Settings.checksum (c : Settings) : UInt16 := ccitCrc16 0xffff c.memory

/-- The settings with their checksum, as they are saved. -/
def Settings.sealed (c : Settings) : SyscfgT := ⟨c,c.checksum⟩

/-- The test of `cfg_load`. -/
def SyscfgT.Valid (c : SyscfgT) : Prop := c.ccitCrc16 = c.checksum

instance (c : SyscfgT) : Decidable c.Valid := inferInstanceAs (Decidable (_ = _))

def hexDigit (n : UInt32) : UInt8 := if n < 10 then 48+n.toUInt8 else 55+n.toUInt8

/-- `%08X` -/
def hex8 (n : UInt32) : List UInt8 :=
  [28,24,20,16,12,8,4,0].map fun s : UInt32 => hexDigit ((n >>> s) &&& 0xf)

/-- What the defaults depend on: the build's `KEY` and the number of the chip. -/
structure Chip where
  key : Vector UInt8 16
  chipId : UInt32

def emptyJob : CronJobT := ⟨zeros 8,zeros 8,zeros 8,zeros 8,zeros 8,zeros 32,zeros 96⟩

/-- After `os_memset` of the structure. -/
def cleared : Settings where
  cfgHolder := 0
  deviceId := zeros 16
  staSsid := zeros 64
  staPwd := zeros 64
  staType := 0
  apMeshPwd := zeros 64
  apEnabled := 0
  mqttHost := zeros 64
  align₁ := zeros 3
  mqttPort := 0
  mqttUser := zeros 32
  mqttPass := zeros 32
  mqttKeepalive := 0
  security := 0
  key := zeros 16
  acThermoState := 0
  align₂ := zeros 2
  offlineCloseAt := 0
  cronJobsN := 0
  cronJobList := Vector.replicate 16 emptyJob
  align₃ := 0

/-- What `cfg_load` fills in when the checksum is wrong. -/
def defaults (chip : Chip) : Settings :=
  { cleared with
    staSsid := snprintf (zeros 64) 64 (ascii "Loppen Public")
    staPwd := snprintf (zeros 64) 64 []
    staType := 0
    apMeshPwd := snprintf (zeros 64) 64 (ascii "w1reless")
    apEnabled := 1
    deviceId := snprintf (zeros 16) 16 (ascii "ML_" ++ hex8 chip.chipId)
    mqttHost := snprintf (zeros 64) 64 (ascii "nabovarme.meterlogger.net")
    mqttPort := 1883
    mqttUser := snprintf (zeros 32) 32 (ascii "esp8266")
    mqttPass := snprintf (zeros 32) 32 (ascii "chah5Kai")
    security := 0
    key := chip.key
    mqttKeepalive := 60 }

/-- `written` is what the flash was given to store, the oldest first. -/
structure State where
  sysCfg : SyscfgT
  otaInProgress : Bool
  written : List SyscfgT

/-- `*calculated_crc` and `*saved_crc`. -/
structure Sums where
  calculated : UInt16
  saved : UInt16

/-- `cfg_save` up to the check. -/
def store (s : State) : State × Bool :=
  if s.otaInProgress then (s,false)
  else
    let c := s.sysCfg.sealed
    ({ s with sysCfg := c, written := s.written ++ [c] },true)

/-- `flash` is what `system_param_load` gives. -/
def cfgLoad (chip : Chip) (flash : SyscfgT) (s : State) : State :=
  if flash.Valid then { s with sysCfg := flash }
  else (store { s with sysCfg := ⟨defaults chip,0⟩ }).1

/-- `cfg_save` with the checksums asked for; `sums` is what the two variables held. -/
def cfgSave (chip : Chip) (flash : SyscfgT) (sums : Sums) (s : State) : State × Sums × Bool :=
  let r := store s
  if r.2 then
    let t := cfgLoad chip flash r.1
    let calculated := t.sysCfg.checksum
    let saved := r.1.sysCfg.ccitCrc16
    (t,⟨calculated,saved⟩,calculated = saved)
  else (r.1,sums,false)

/-- A save that fails has changed nothing but the checksum field, has stored nothing else than it
was asked to, and the two checksums differ. -/
structure Harmless (s : State) (r : State × Sums × Bool) : Prop where
  ram : r.1.sysCfg.toSettings = s.sysCfg.toSettings
  stored : ∃ new, r.1.written = s.written ++ new ∧
    ∀ c ∈ new, c.toSettings = s.sysCfg.toSettings
  differ : r.2.1.calculated ≠ r.2.1.saved

/-- What `cfg_load` makes of the flash. -/
def accepted (chip : Chip) (flash : SyscfgT) : Settings :=
  if flash.Valid then flash.toSettings else defaults chip

section Save

variable (chip : Chip) (flash : SyscfgT) (sums : Sums) {s : State}

theorem store_free {s : State} (h : s.otaInProgress = false) :
    store s = (⟨s.sysCfg.sealed,false,s.written ++ [s.sysCfg.sealed]⟩,true) := by
  rw [store,h]
  rfl

theorem cfgLoad_settings (h : s.otaInProgress = false) :
    (cfgLoad chip flash s).sysCfg.toSettings = accepted chip flash := by
  rw [cfgLoad,accepted]
  split
  · rfl
  · have hstore := store_free (s := { s with sysCfg := ⟨defaults chip,0⟩ }) h
    rw [hstore]
    rfl

theorem cfgSave_refused (h : s.otaInProgress = true) :
    cfgSave chip flash sums s = (s,sums,false) := by
  rw [cfgSave,store,h]
  rfl

/-- Outside an update RAM holds what was accepted, and the answer compares its checksum with
that of the settings to save. -/
theorem cfgSave_free (h : s.otaInProgress = false) :
    (cfgSave chip flash sums s).1.sysCfg.toSettings = accepted chip flash ∧
      (cfgSave chip flash sums s).2 = (⟨(accepted chip flash).checksum,s.sysCfg.checksum⟩,
        decide ((accepted chip flash).checksum = s.sysCfg.checksum)) := by
  have hload := cfgLoad_settings chip flash
    (s := ⟨s.sysCfg.sealed,false,s.written ++ [s.sysCfg.sealed]⟩) rfl
  rw [cfgSave,store_free h]
  simp only [if_true]
  rw [hload]
  exact ⟨rfl,rfl⟩

theorem cfgSave_readBack (h : flash = s.sysCfg.toSettings.sealed) :
    (cfgSave chip flash sums s).1.sysCfg.toSettings = s.sysCfg.toSettings := by
  by_cases hota : s.otaInProgress = true
  · rw [cfgSave_refused chip flash sums hota]
  · rw [(cfgSave_free chip flash sums (Bool.eq_false_iff.mpr hota)).1,accepted,h]
    exact if_pos rfl

theorem failed_save_harmful (hota : s.otaInProgress = false)
    (hfailed : (cfgSave chip flash sums s).2.2 = false) :
    ¬Harmless s (cfgSave chip flash sums s) := by
  obtain ⟨hram,hanswer⟩ := cfgSave_free chip flash sums hota
  rw [hanswer] at hfailed
  intro h
  exact of_decide_eq_false hfailed (congrArg Settings.checksum (hram.symm.trans h.ram))

/-- A failed save is harmless just when it did not fail, or was refused because of an update
while the two variables differed. -/
theorem failed_save_harmless (s : State) :
    ((cfgSave chip flash sums s).2.2 = false → Harmless s (cfgSave chip flash sums s)) ↔
      if s.otaInProgress then sums.calculated ≠ sums.saved
      else (accepted chip flash).checksum = s.sysCfg.checksum := by
  by_cases hota : s.otaInProgress = true
  · rw [cfgSave_refused chip flash sums hota,if_pos hota]
    constructor
    · intro h
      exact (h rfl).differ
    · intro hdiffer _
      exact ⟨rfl,⟨[],(List.append_nil _).symm,fun c hc => absurd hc List.not_mem_nil⟩,hdiffer⟩
  · have hfree := Bool.eq_false_iff.mpr hota
    have hanswer := (cfgSave_free chip flash sums hfree).2
    rw [if_neg hota]
    constructor
    · intro h
      by_contra hne
      have hfailed : (cfgSave chip flash sums s).2.2 = false := by
        rw [hanswer]
        exact decide_eq_false hne
      exact failed_save_harmful chip flash sums hfree hfailed (h hfailed)
    · intro heq hfailed
      rw [hanswer] at hfailed
      exact absurd heq (of_decide_eq_false hfailed)

end Save

def sampleChip : Chip := ⟨zeros 16,0x00123456⟩

/-- The default settings are in flash when the name of another network is to be saved. -/
def staleFlash : SyscfgT := (defaults sampleChip).sealed

def renamed : Settings :=
  { defaults sampleChip with staSsid := strncpy (zeros 64) (ascii "home") 31 }

/-- Settings that differ in the checksum of their first bytes differ in the checksum when the rest is
the same. -/
theorem checksum_ne {c d : Settings} {xs ys rest : List UInt8} (hc : c.memory = xs ++ rest)
    (hd : d.memory = ys ++ rest) (hne : ccitCrc16 0xffff xs ≠ ccitCrc16 0xffff ys) :
    c.checksum ≠ d.checksum := by
  intro heq
  rw [Settings.checksum,Settings.checksum,hc,hd,ccitCrc16_append,ccitCrc16_append] at heq
  exact hne (ccitCrc16_inj heq)

theorem exists_rest_append {A : Type*} {f g : A → List UInt8} (h : ∃ rest, ∀ a, f a = g a ++ rest)
    (xs : List UInt8) : ∃ rest, ∀ a, f a ++ xs = g a ++ rest := by
  obtain ⟨rest,hrest⟩ := h
  exact ⟨rest ++ xs,fun a => by rw [hrest,List.append_assoc]⟩

theorem memory_ssid (c : Settings) : ∃ rest, ∀ ssid : Vector UInt8 64,
    ({ c with staSsid := ssid } : Settings).memory =
      u32Memory c.cfgHolder ++ c.deviceId.toList ++ ssid.toList ++ rest := by
  unfold Settings.memory
  dsimp only
  iterate 18 refine exists_rest_append ?_ _
  exact ⟨[],fun _ => (List.append_nil _).symm⟩

theorem renamed_checksum_ne : (defaults sampleChip).checksum ≠ renamed.checksum := by
  obtain ⟨rest,hmemory⟩ := memory_ssid (defaults sampleChip)
  have hpublic : (defaults sampleChip).staSsid.toList =
      ascii "Loppen Public" ++ List.replicate 51 0 := by decide +kernel
  have hhome : (strncpy (zeros 64) (ascii "home") 31).toList =
      (ascii "home" ++ List.replicate 9 0) ++ List.replicate 51 0 := by decide +kernel
  have hdefaults := hmemory (defaults sampleChip).staSsid
  have hrenamed := hmemory (strncpy (zeros 64) (ascii "home") 31)
  rw [hpublic,← List.append_assoc,List.append_assoc _ _ rest] at hdefaults
  rw [hhome,← List.append_assoc,List.append_assoc _ _ rest] at hrenamed
  exact checksum_ne hdefaults hrenamed (by decide +kernel)

/-- The flash keeps what it held, and the new name is lost from RAM as well. -/
theorem failed_save_reverts : ¬∀ (chip : Chip) (flash : SyscfgT) (sums : Sums) (s : State),
    (cfgSave chip flash sums s).2.2 = false → Harmless s (cfgSave chip flash sums s) := by
  intro h
  have hsum := renamed_checksum_ne
  have haccepted : accepted sampleChip staleFlash = defaults sampleChip := if_pos rfl
  obtain ⟨hram,hanswer⟩ := cfgSave_free sampleChip staleFlash ⟨0,0⟩ (s := ⟨⟨renamed,0⟩,false,[]⟩) rfl
  rw [haccepted] at hram hanswer
  have hfailed : (cfgSave sampleChip staleFlash ⟨0,0⟩ ⟨⟨renamed,0⟩,false,[]⟩).2.2 = false := by
    rw [hanswer]
    exact decide_eq_false hsum
  have hsame := (h _ _ _ _ hfailed).ram
  rw [hram] at hsame
  exact hsum (congrArg Settings.checksum hsame)

end SysCfg
end MeterLogger
