import MeterLogger.OpenUntil
import MeterLogger.Scaling

/-!
# Negative thresholds

`open_until` and `open_until_delta` in both builds: with `FLOW_METER` the value is a volume in
thousandths. The sign is taken from `atoi` of the text, that is, from the digits in front of the
decimal point.
-/

namespace MeterLogger
namespace OpenUntilVolume

open AcOut Config CStrings Decimal OpenUntil Scaling

/-- `int_value`. Without a value the text has left the array of `multiply_str_by_1000`. -/
def readValue (flowMeter : Bool) (value : List UInt8) : Option ℤ :=
  if flowMeter then
    let scaled := multiplyStrBy1000 value
    if scaled.writes.all (· < resultIntStrL) then some (atoi (cstr scaled.decimalStr)) else none
  else some (atoi value)

/-- The valve is opened if the text is not negative; `target` is written unless the value is the
one kept already. -/
def openUnlessNegative (b : Build) (defaults : SysCfg) (d : Device) (value : List UInt8)
    (intValue : ℤ) (target : ℕ) : Device :=
  if 0 ≤ atoi value then
    let d := { d with out := acThermoOpen b d.out }
    if d.sysCfg.offlineCloseAt ≠ toUint32 intValue then d.saveOfflineCloseAt defaults target else d
  else d

/-- `thousandths` is what `%.3f` makes of a number of thousandths. -/
def shown (flowMeter : Bool) (thousandths : ℕ → List UInt8) (n : ℕ) : List UInt8 :=
  if flowMeter then thousandths n else decimal n

/-- The energy, or with `FLOW_METER` the volume in liters, that the meter sent last. -/
def received (flowMeter : Bool) (d : Device) (volumeL : ℕ) : ℕ :=
  if flowMeter then volumeL else d.energyKwh

section Commands

variable (b : Build) (defaults : SysCfg) (flowMeter : Bool) (thousandths : ℕ → List UInt8)

def mqttRpcOpenUntil (d : Device) (value : List UInt8) : Option (Device × List (List UInt8)) :=
  (readValue flowMeter value).map fun intValue =>
    let d := openUnlessNegative b defaults d value intValue (toUint32 intValue)
    (d,[shown flowMeter thousandths d.sysCfg.offlineCloseAt,d.statusText])

def mqttRpcOpenUntilDelta (volumeL : ℕ) (d : Device) (value : List UInt8) :
    Option (Device × List (List UInt8)) :=
  (readValue flowMeter value).map fun intValue =>
    let d := openUnlessNegative b defaults d value intValue
      ((received flowMeter d volumeL+toUint32 intValue)%2^32)
    (d,[shown flowMeter thousandths
        (toUint32 ((d.sysCfg.offlineCloseAt : ℤ)-received flowMeter d volumeL)),d.statusText])

end Commands

/-- A sign, and digits with or without a point that are not all zero. -/
structure Negative (str whole frac : List UInt8) : Prop where
  digits : ∀ b ∈ whole ++ frac, isDigit b = true
  below : 0 < readDigits 0 (whole ++ frac)
  eq : str = 45::whole ∧ frac = [] ∨ str = 45::(whole ++ 46::frac)

/-- The outputs, and what is kept of the valve in flash, are left alone. -/
structure Kept (d t : Device) : Prop where
  gpio14 : t.out.gpio14 = d.out.gpio14
  gpio15 : t.out.gpio15 = d.out.gpio15
  acThermoState : t.sysCfg.acThermoState = d.sysCfg.acThermoState
  offlineCloseAt : t.sysCfg.offlineCloseAt = d.sysCfg.offlineCloseAt

/-- Neither command moves the valve or its threshold, whatever state the device is in. -/
def Unmoved (b : Build) (flowMeter : Bool) (value : List UInt8) : Prop :=
  ∀ (defaults : SysCfg) (thousandths : ℕ → List UInt8) (volumeL : ℕ) (d : Device),
    (∃ t replies, mqttRpcOpenUntil b defaults flowMeter thousandths d value = some (t,replies) ∧
      Kept d t) ∧
    ∃ t replies, mqttRpcOpenUntilDelta b defaults flowMeter thousandths volumeL d value =
      some (t,replies) ∧ Kept d t

section Proofs

variable {b : Build} {defaults : SysCfg} {flowMeter : Bool} {thousandths : ℕ → List UInt8}
  {volumeL : ℕ} {d : Device} {value whole frac : List UInt8}

theorem openUnlessNegative_negative (h : atoi value < 0) (intValue : ℤ) (target : ℕ) :
    openUnlessNegative b defaults d value intValue target = d := by
  rw [openUnlessNegative,if_neg (by omega)]

theorem openUnlessNegative_gpio14 (h : 0 ≤ atoi value) (intValue : ℤ) (target : ℕ) :
    (openUnlessNegative b defaults d value intValue target).out.gpio14 = b.level true := by
  rw [openUnlessNegative,if_pos h]
  dsimp only
  split <;> rfl

theorem atoi_negative {rest : List UInt8} (h : ∀ b ∈ whole, isDigit b = true)
    (hrest : rest = [] ∨ rest.head? = some 46) :
    atoi (45::(whole ++ rest)) = max (-2^31) (-(readDigits 0 whole : ℤ)) := by
  have htake : (whole ++ rest).takeWhile isDigit = whole := takeWhile_until h rfl hrest
  have hspace : (45::(whole ++ rest)).dropWhile isSpace = 45::(whole ++ rest) :=
    List.dropWhile_cons_of_neg (by decide)
  rw [atoi,hspace]
  simp [htake]

theorem readDigits_nonneg_iff : 0 ≤ max (-2^31) (-(readDigits 0 whole : ℤ)) ↔
    readDigits 0 whole = 0 := by
  omega

theorem negative_before (h : Negative value whole frac) :
    ∃ rest, value = 45::(whole ++ rest) ∧ (rest = [] ∨ rest.head? = some 46) := by
  rcases h.eq with ⟨heq,_⟩ | heq
  · exact ⟨[],by rw [heq,List.append_nil],Or.inl rfl⟩
  · exact ⟨46::frac,heq,Or.inr rfl⟩

theorem atoi_nonneg_iff (h : Negative value whole frac) :
    0 ≤ atoi value ↔ readDigits 0 whole = 0 := by
  obtain ⟨rest,rfl,hrest⟩ := negative_before h
  rw [atoi_negative (fun b hb => h.digits b (List.mem_append_left _ hb)) hrest]
  exact readDigits_nonneg_iff

/-- The sign takes one of the bytes that `multiply_str_by_1000` has room for. -/
theorem readValue_isSome_iff (h : Negative value whole frac) :
    (readValue flowMeter value).isSome ↔ (flowMeter = true → whole.length ≤ 31) := by
  obtain ⟨rest,rfl,hrest⟩ := negative_before h
  have hpoint : (46 : UInt8) ∉ 45::whole := by
    intro hmem
    rcases List.mem_cons.mp hmem with heq | hmem
    · exact absurd heq (by decide)
    · exact absurd (h.digits 46 (List.mem_append_left _ hmem)) (by decide)
  have hbefore := takeWhile_before hpoint hrest
  have hinside := inside_iff (45::(whole ++ rest))
  rw [List.cons_append] at hbefore
  rw [hbefore,List.length_cons] at hinside
  cases flowMeter with
  | false => simp [readValue]
  | true =>
    have hall : (multiplyStrBy1000 (45::(whole ++ rest))).writes.all (· < resultIntStrL) = true ↔
        whole.length ≤ 31 := by
      rw [List.all_eq_true]
      simp only [decide_eq_true_eq]
      rw [hinside]
      omega
    rw [readValue,if_pos rfl,← hall]
    dsimp only
    split
    · rename_i hfits
      exact iff_of_true rfl fun _ => hfits
    · rename_i hfits
      exact iff_of_false (by decide) fun hno => hfits (hno rfl)

theorem Kept.refl (d : Device) : Kept d d := ⟨rfl,rfl,rfl,rfl⟩

def closedDevice (b : Build) : Device :=
  { sampleDevice with out := acThermoClose b sampleDevice.out }

theorem level_ne (b : Build) : b.level true ≠ b.level false := by
  rw [Build.level,Build.level]
  cases b.thermoNo <;> decide

theorem Unmoved.whole_pos (hunmoved : Unmoved b flowMeter value) (h : Negative value whole frac) :
    0 < readDigits 0 whole := by
  obtain ⟨⟨t,replies,heq,hkept⟩,_⟩ := hunmoved sampleCfg (fun _ => []) 0 (closedDevice b)
  rw [mqttRpcOpenUntil] at heq
  obtain ⟨intValue,_,hmap⟩ := Option.map_eq_some_iff.mp heq
  by_contra hzero
  have hopen : (openUnlessNegative b sampleCfg (closedDevice b) value intValue
      (toUint32 intValue)).out.gpio14 = b.level true :=
    openUnlessNegative_gpio14 ((atoi_nonneg_iff h).mpr (by omega)) intValue (toUint32 intValue)
  have hgpio := hkept.gpio14
  rw [← (Prod.mk.inj hmap).1,hopen] at hgpio
  exact level_ne b hgpio

theorem Unmoved.readValue_isSome (hunmoved : Unmoved b flowMeter value) :
    (readValue flowMeter value).isSome := by
  obtain ⟨⟨t,replies,heq,_⟩,_⟩ := hunmoved sampleCfg (fun _ => []) 0 (closedDevice b)
  rw [mqttRpcOpenUntil] at heq
  obtain ⟨intValue,hvalue,_⟩ := Option.map_eq_some_iff.mp heq
  rw [hvalue]
  rfl

/-- A negative number leaves the valve and the threshold alone if and only if it is at most -1,
and with `FLOW_METER` only while 31 digits stand in front of the point. -/
theorem negative_unmoved_iff (b : Build) (flowMeter : Bool) {value whole frac : List UInt8}
    (h : Negative value whole frac) : Unmoved b flowMeter value ↔
      0 < readDigits 0 whole ∧ (flowMeter = true → whole.length ≤ 31) := by
  constructor
  · intro hunmoved
    exact ⟨hunmoved.whole_pos h,(readValue_isSome_iff h).mp hunmoved.readValue_isSome⟩
  · rintro ⟨hpos,hfits⟩ defaults thousandths volumeL d
    obtain ⟨intValue,hvalue⟩ := Option.isSome_iff_exists.mp ((readValue_isSome_iff h).mpr hfits)
    have hbelow : atoi value < 0 := by
      by_contra hno
      have hzero := (atoi_nonneg_iff h).mp (by omega)
      omega
    rw [mqttRpcOpenUntil,mqttRpcOpenUntilDelta,hvalue,Option.map_some,Option.map_some,
      openUnlessNegative_negative hbelow,openUnlessNegative_negative hbelow]
    exact ⟨⟨d,_,rfl,Kept.refl d⟩,⟨d,_,rfl,Kept.refl d⟩⟩

end Proofs

theorem negative_twelve : Negative (ascii "-12.5") (ascii "12") (ascii "5") :=
  ⟨by decide +kernel,by decide +kernel,Or.inr (by decide +kernel)⟩

/-- Minus twelve and a half leaves the valve of a flow meter alone. -/
theorem negative_unmoved_twelve : Unmoved sampleBuild true (ascii "-12.5") :=
  (negative_unmoved_iff sampleBuild true negative_twelve).mpr ⟨by decide,fun _ => by decide⟩

theorem negative_half : Negative (ascii "-0.5") (ascii "0") (ascii "5") :=
  ⟨by decide +kernel,by decide +kernel,Or.inr (by decide +kernel)⟩

/-- Minus one half opens the valve of an energy meter. -/
theorem negative_half_opens : ¬∀ (b : Build) (flowMeter : Bool) (value whole frac : List UInt8),
    Negative value whole frac → Unmoved b flowMeter value := by
  intro h
  have hpos := (h sampleBuild false _ _ _ negative_half).whole_pos negative_half
  exact absurd hpos (by decide)

end OpenUntilVolume
end MeterLogger
