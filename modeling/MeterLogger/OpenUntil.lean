import MeterLogger.AcOut
import MeterLogger.Decimal

/-!
# Closing at a reading

`open_until` and `open_until_delta` open the valve and keep the reading of the meter at which
`meter_sent_data` closes it again.
-/

namespace MeterLogger
namespace OpenUntil

open AcOut Config CStrings Decimal

/-- The valve and the energy that the meter sent last, as `kmp_get_received_energy_kwh` and
`en61107_get_received_energy_kwh` give it. -/
structure Device where
  out : AcOut.State
  energyKwh : ℕ

def toUint32 (x : ℤ) : ℕ := (x%2^32).toNat

namespace Device

def sysCfg (d : Device) : SysCfg := d.out.cfg.sysCfg

/-- The reading at which to close is kept in flash. -/
def saveOfflineCloseAt (defaults : SysCfg) (d : Device) (at_ : ℕ) : Device :=
  { d with out := { d.out with
    cfg := changeSaved defaults true d.out.cfg { d.sysCfg with offlineCloseAt := at_ } } }

def statusText (d : Device) : List UInt8 :=
  if d.sysCfg.acThermoState then ascii "open" else ascii "close"

end Device

/-- The valve is opened unless the value is negative; `target` is written unless the value is
the one kept already. -/
def openUntil (b : Build) (defaults : SysCfg) (d : Device) (intValue : ℤ) (target : ℕ) : Device :=
  if 0 ≤ intValue then
    let d := { d with out := acThermoOpen b d.out }
    if d.sysCfg.offlineCloseAt ≠ toUint32 intValue then d.saveOfflineCloseAt defaults target else d
  else d

def mqttRpcOpenUntil (b : Build) (defaults : SysCfg) (d : Device) (value : List UInt8) :
    Device × List (List UInt8) :=
  let intValue := atoi value
  let d := openUntil b defaults d intValue (toUint32 intValue)
  (d,[decimal d.sysCfg.offlineCloseAt,d.statusText])

def mqttRpcOpenUntilDelta (b : Build) (defaults : SysCfg) (d : Device) (value : List UInt8) :
    Device × List (List UInt8) :=
  let intValue := atoi value
  let d := openUntil b defaults d intValue ((d.energyKwh+toUint32 intValue)%2^32)
  (d,[decimal (toUint32 ((d.sysCfg.offlineCloseAt : ℤ)-d.energyKwh)),d.statusText])

def meterSentData (b : Build) (d : Device) : Device × Option (List UInt8) :=
  if d.sysCfg.offlineCloseAt ≤ d.energyKwh then
    if d.sysCfg.acThermoState then
      let d := { d with out := acThermoClose b d.out }
      (d,some d.statusText)
    else (d,none)
  else (d,none)

def samples (b : Build) (d : Device) (readings : List ℕ) : Device :=
  readings.foldl (fun d reading => (meterSentData b { d with energyKwh := reading }).1) d

/-- The output and the state kept say that the valve is open or closed. -/
structure Valve (b : Build) (d : Device) (isOpen : Bool) : Prop where
  gpio14 : d.out.gpio14 = b.level isOpen
  state : d.sysCfg.acThermoState = isOpen

section Proofs

variable {b : Build} {defaults : SysCfg} {d : Device} {readings : List ℕ} {n : ℕ}

theorem saveThermoState_free (c : Config.State) (isOpen : Bool) :
    (saveThermoState c isOpen).otaInProgress = c.otaInProgress ∧
      (saveThermoState c isOpen).sysCfg.offlineCloseAt = c.sysCfg.offlineCloseAt := by
  rw [saveThermoState]
  split
  · exact ⟨rfl,rfl⟩
  · rw [changeDefered,cfgSaveDefered]
    split <;> exact ⟨rfl,rfl⟩

theorem acThermo_valve (b : Build) (d : Device) (isOpen : Bool) :
    Valve b { d with out := acThermo b d.out isOpen } isOpen :=
  ⟨rfl,saveThermoState_state d.out.cfg isOpen⟩

variable (defaults) in
theorem saveOfflineCloseAt_spec (hota : d.out.cfg.otaInProgress = false) (at_ : ℕ) :
    (d.saveOfflineCloseAt defaults at_).sysCfg = { d.sysCfg with offlineCloseAt := at_ } ∧
      (d.saveOfflineCloseAt defaults at_).out.gpio14 = d.out.gpio14 := by
  refine ⟨?_,rfl⟩
  show (changeSaved defaults true d.out.cfg { d.sysCfg with offlineCloseAt := at_ }).sysCfg = _
  rw [changeSaved,cfgSave_free (s := { d.out.cfg with
    sysCfg := { d.sysCfg with offlineCloseAt := at_ } }) hota]

variable (defaults) in
/-- A value that is not negative opens the valve; the reading to close at is written unless it
equals the value. -/
theorem openUntil_spec (hota : d.out.cfg.otaInProgress = false) {intValue : ℤ}
    (hvalue : 0 ≤ intValue) (target : ℕ) :
    Valve b (openUntil b defaults d intValue target) true ∧
      (openUntil b defaults d intValue target).sysCfg.offlineCloseAt =
        if d.sysCfg.offlineCloseAt ≠ toUint32 intValue then target
        else d.sysCfg.offlineCloseAt := by
  have hvalve := acThermo_valve b d true
  obtain ⟨hfree,hkept⟩ := saveThermoState_free d.out.cfg true
  rw [openUntil,if_pos hvalue]
  have hsame : ({ d with out := acThermoOpen b d.out } : Device).sysCfg.offlineCloseAt =
      d.sysCfg.offlineCloseAt := hkept
  dsimp only
  rw [hsame]
  by_cases hne : d.sysCfg.offlineCloseAt ≠ toUint32 intValue
  · rw [if_pos hne,if_pos hne]
    obtain ⟨hcfg,hpin⟩ := saveOfflineCloseAt_spec defaults
      (d := { d with out := acThermoOpen b d.out }) (hfree.trans hota) target
    refine ⟨⟨hpin.trans hvalve.gpio14,?_⟩,?_⟩
    · rw [hcfg]
      exact hvalve.state
    · rw [hcfg]
  · rw [if_neg hne,if_neg hne]
    exact ⟨hvalve,hsame⟩

/-- Of the settings the commands make what the events of the configuration make. -/
theorem openUntil_cfg (b : Build) (defaults : SysCfg) (d : Device) (intValue : ℤ) (target : ℕ) :
    (openUntil b defaults d intValue target).out.cfg =
      if 0 ≤ intValue then saveCloseAt defaults d.out.cfg (toUint32 intValue) target
      else d.out.cfg := by
  rw [openUntil]
  split
  · rw [saveCloseAt]
    dsimp only
    by_cases hsame : (saveThermoState d.out.cfg true).sysCfg.offlineCloseAt = toUint32 intValue
    · rw [if_pos hsame]
      exact congrArg (fun d : Device => d.out.cfg) (if_neg (not_not.mpr hsame))
    · rw [if_neg hsame]
      exact congrArg (fun d : Device => d.out.cfg) (if_pos hsame)
  · rfl

theorem mqttRpcOpenUntil_cfg (b : Build) (defaults : SysCfg) (d : Device) (value : List UInt8) :
    (mqttRpcOpenUntil b defaults d value).1.out.cfg = Config.next defaults d.out.cfg
      (.openUntil (0 ≤ atoi value) (toUint32 (atoi value))) := by
  have hcfg := openUntil_cfg b defaults d (atoi value) (toUint32 (atoi value))
  simp only [Config.next,saveOpenUntil,decide_eq_true_eq]
  exact hcfg

theorem mqttRpcOpenUntilDelta_cfg (b : Build) (defaults : SysCfg) (d : Device)
    (value : List UInt8) :
    (mqttRpcOpenUntilDelta b defaults d value).1.out.cfg = Config.next defaults d.out.cfg
      (.openUntilDelta (0 ≤ atoi value) (toUint32 (atoi value)) d.energyKwh) := by
  have hcfg := openUntil_cfg b defaults d (atoi value)
    ((d.energyKwh+toUint32 (atoi value))%2^32)
  simp only [Config.next,saveOpenUntilDelta,decide_eq_true_eq]
  exact hcfg

theorem samples_closed (h : Valve b d false) : Valve b (samples b d readings) false := by
  induction readings generalizing d with
  | nil => exact h
  | cons reading readings ih =>
    apply ih
    have hstate : ({ d with energyKwh := reading } : Device).sysCfg.acThermoState = false := h.state
    show Valve b (meterSentData b { d with energyKwh := reading }).1 false
    rw [meterSentData,hstate]
    split
    · exact ⟨h.gpio14,h.state⟩
    · exact ⟨h.gpio14,h.state⟩

/-- An open valve is closed by the first reading that has come to the one kept. -/
theorem samples_closed_iff (h : Valve b d true) :
    Valve b (samples b d readings) false ↔ ∃ r ∈ readings, d.sysCfg.offlineCloseAt ≤ r := by
  induction readings generalizing d with
  | nil =>
    constructor
    · intro hclosed
      exact absurd (hclosed.state.symm.trans h.state) (by decide)
    · rintro ⟨r,hr,_⟩
      exact absurd hr List.not_mem_nil
  | cons reading readings ih =>
    have hcons : samples b d (reading::readings) =
        samples b (meterSentData b { d with energyKwh := reading }).1 readings := rfl
    have hstate : ({ d with energyKwh := reading } : Device).sysCfg.acThermoState = true := h.state
    rw [hcons]
    by_cases hle : d.sysCfg.offlineCloseAt ≤ reading
    · have hreached : ({ d with energyKwh := reading } : Device).sysCfg.offlineCloseAt ≤
          ({ d with energyKwh := reading } : Device).energyKwh := hle
      rw [meterSentData,if_pos hreached,if_pos hstate]
      refine iff_of_true ?_ ⟨reading,List.mem_cons_self,hle⟩
      exact samples_closed (acThermo_valve b { d with energyKwh := reading } false)
    · have hbelow : ¬({ d with energyKwh := reading } : Device).sysCfg.offlineCloseAt ≤
          ({ d with energyKwh := reading } : Device).energyKwh := hle
      rw [meterSentData,if_neg hbelow,ih (d := { d with energyKwh := reading }) ⟨h.gpio14,h.state⟩]
      constructor
      · rintro ⟨r,hr,hge⟩
        exact ⟨r,List.mem_cons_of_mem _ hr,hge⟩
      · rintro ⟨r,hr,hge⟩
        rcases List.mem_cons.mp hr with rfl | hr
        · exact absurd hge hle
        · exact ⟨r,hr,hge⟩

theorem toUint32_atoi {value : List UInt8} (h : IsNumeral value n) (hn : n < 2^31) :
    0 ≤ atoi value ∧ toUint32 (atoi value) = n := by
  have heq : atoi value = n := by
    rw [atoi_numeral h]
    omega
  rw [heq,toUint32]
  omega

/-- The command does what it is meant to do unless the delta equals the reading kept before. -/
theorem open_until_delta_iff (b : Build) (defaults : SysCfg) {d : Device} {value : List UInt8}
    {n : ℕ} (hvalue : IsNumeral value n) (hn : n < 2^31) (hsum : d.energyKwh+n < 2^31)
    (hota : d.out.cfg.otaInProgress = false) :
    ((mqttRpcOpenUntilDelta b defaults d value).1.sysCfg.offlineCloseAt = d.energyKwh+n ∧
      Valve b (mqttRpcOpenUntilDelta b defaults d value).1 true ∧
      ∀ readings, Valve b (samples b (mqttRpcOpenUntilDelta b defaults d value).1 readings) false ↔
        ∃ r ∈ readings, d.energyKwh+n ≤ r) ↔
    d.sysCfg.offlineCloseAt ≠ n ∨ d.energyKwh = 0 := by
  obtain ⟨hpos,hint⟩ := toUint32_atoi hvalue hn
  have htarget : (d.energyKwh+toUint32 (atoi value))%2^32 = d.energyKwh+n := by
    rw [hint]
    omega
  obtain ⟨hvalve,hat⟩ := openUntil_spec (b := b) defaults hota hpos
    ((d.energyKwh+toUint32 (atoi value))%2^32)
  rw [htarget,hint] at hat
  have hdevice : (mqttRpcOpenUntilDelta b defaults d value).1 = openUntil b defaults d (atoi value)
      ((d.energyKwh+toUint32 (atoi value))%2^32) := rfl
  rw [hdevice]
  rw [htarget] at hvalve ⊢
  constructor
  · rintro ⟨hset,_,_⟩
    rw [hat] at hset
    by_contra hno
    rw [not_or,not_not] at hno
    rw [if_neg (not_not.mpr hno.1)] at hset
    omega
  · intro hok
    have hset : (openUntil b defaults d (atoi value) (d.energyKwh+n)).sysCfg.offlineCloseAt =
        d.energyKwh+n := by
      rw [hat]
      split
      · rfl
      · rename_i hsame
        rw [not_not] at hsame
        have hzero := hok.resolve_left (not_not.mpr hsame)
        omega
    refine ⟨hset,hvalve,fun readings => ?_⟩
    rw [samples_closed_iff hvalve,hset]

end Proofs

def sampleDevice : Device := ⟨sampleState,1000⟩

def five : List UInt8 := ascii "5"

theorem isNumeral_five : IsNumeral five 5 := ⟨by decide,by decide +kernel,by decide⟩

/-- Five more units from a reading of 1000. -/
theorem open_until_delta_five :
    (mqttRpcOpenUntilDelta sampleBuild sampleCfg sampleDevice five).1.sysCfg.offlineCloseAt = 1000+5 ∧
      Valve sampleBuild
        (samples sampleBuild (mqttRpcOpenUntilDelta sampleBuild sampleCfg sampleDevice five).1
          [1004,1005,1006]) false := by
  have hiff := open_until_delta_iff sampleBuild sampleCfg (d := sampleDevice) isNumeral_five
    (by decide) (by decide) rfl
  obtain ⟨hset,_,hsamples⟩ := hiff.mpr (Or.inl (by decide))
  exact ⟨hset,(hsamples _).mpr ⟨1005,by decide,by decide⟩⟩

/-- The valve was to close at a reading of 5; the same number as a delta changes nothing. -/
theorem open_until_delta_fails : ¬∀ (b : Build) (defaults : SysCfg) (d : Device)
    (value : List UInt8) (n : ℕ), IsNumeral value n → n < 2^31 → d.energyKwh+n < 2^31 →
    d.out.cfg.otaInProgress = false →
    (mqttRpcOpenUntilDelta b defaults d value).1.sysCfg.offlineCloseAt = d.energyKwh+n := by
  intro h
  have hset := h sampleBuild sampleCfg (mqttRpcOpenUntil sampleBuild sampleCfg sampleDevice five).1
    five 5 isNumeral_five (by decide) (by decide) (by decide)
  exact absurd hset (by decide)

end OpenUntil
end MeterLogger
