import MeterLogger.KmpSample

/-!
# The energy kept for the valve

`kmp_received_task` scans the text of the value printed last for the energy, and takes it times
1000 when the unit of the energy register is MWh. `meter_sent_data` compares the whole kWh of it
with the limit of the valve. This gives the replies after which it is the meter's energy.
-/

namespace MeterLogger
namespace KmpEnergy

open CStrings KmpText KmpSample
open Kmp hiding Request

/-- `(uint32_t)e1_kwh`; a number outside the range of the type gives anything. -/
def toUint32 (outOfRange : ℚ → UInt32) (x : ℚ) : ℕ :=
  if -1 < x ∧ x < 2^32 then ⌊x⌋.toNat else (outOfRange x).toNat

def kmpGetReceivedEnergyKwh (outOfRange : ℚ → UInt32) (s : Request) : ℕ :=
  toUint32 outOfRange s.e1Kwh

def kwhPerUnit (unit : UInt8) : Option ℚ :=
  match unit.toNat with
  | 0x01 => some (1/1000)
  | 0x02 => some 1
  | 0x03 => some 1000
  | 0x08 => some (2500/9)
  | 0x0c => some 1163
  | _ => none

section Floors

variable {outOfRange : ℚ → UInt32} {x y u : ℚ}

theorem toUint32_eq (h₀ : 0 ≤ x) (h : x < 2^32) : (toUint32 outOfRange x : ℤ) = ⌊x⌋ := by
  rw [toUint32,if_pos ⟨by linarith,h⟩]
  exact Int.toNat_of_nonneg (Int.floor_nonneg.mpr h₀)

theorem toUint32_lt (x : ℚ) : (toUint32 outOfRange x : ℤ) < 2^32 := by
  rw [toUint32]
  split
  · rename_i h
    have hfloor : ⌊x⌋ < 2^32 := Int.floor_lt.mpr (by exact_mod_cast h.2)
    omega
  · exact_mod_cast (outOfRange x).toNat_lt

theorem floor_mul_eq_iff (hx : 0 ≤ x) (hxy : x ≤ y) (hu : 2 ≤ u) : ⌊x⌋ = ⌊y*u⌋ ↔ y*u < 1 := by
  constructor
  · intro h
    by_contra hge
    rw [not_lt] at hge
    have hmul : x+1 ≤ y*u ∨ x < 1 := by
      by_cases hx1 : x < 1
      · exact Or.inr hx1
      · left
        nlinarith
    have hpos : (1 : ℤ) ≤ ⌊y*u⌋ := Int.le_floor.mpr (by exact_mod_cast hge)
    rcases hmul with hmul | hmul
    · have hfloor : ⌊x+1⌋ ≤ ⌊y*u⌋ := Int.floor_mono hmul
      rw [Int.floor_add_one] at hfloor
      omega
    · have hzero : ⌊x⌋ < 1 := Int.floor_lt.mpr (by exact_mod_cast hmul)
      omega
  · intro h
    have hy : y < 1 := by nlinarith
    have hzero : ⌊x⌋ = 0 := Int.floor_eq_zero_iff.mpr ⟨hx,by linarith⟩
    have hzero' : ⌊y*u⌋ = 0 := Int.floor_eq_zero_iff.mpr ⟨by nlinarith,h⟩
    rw [hzero,hzero']

theorem floor_thousandth_iff (hx : 0 ≤ x) : ⌊x⌋ = ⌊x*(1/1000)⌋ ↔ x < 1 := by
  constructor
  · intro h
    by_contra hge
    rw [not_lt] at hge
    have hpos : (1 : ℤ) ≤ ⌊x⌋ := Int.le_floor.mpr (by exact_mod_cast hge)
    have hle : ((⌊x*(1/1000)⌋ : ℤ) : ℚ) ≤ x*(1/1000) := Int.floor_le _
    rw [← h] at hle
    have hlt := Int.lt_floor_add_one x
    have hpos' : (1 : ℚ) ≤ (⌊x⌋ : ℚ) := by exact_mod_cast hpos
    linarith
  · intro h
    have hzero : ⌊x⌋ = 0 := Int.floor_eq_zero_iff.mpr ⟨hx,h⟩
    have hzero' : ⌊x*(1/1000)⌋ = 0 := Int.floor_eq_zero_iff.mpr ⟨by linarith,by linarith⟩
    rw [hzero,hzero']

end Floors

section Register

variable (value : ℤ) (siEx : UInt8)

theorem magnitude_lt : magnitude value < 2^32 := by
  rw [magnitude]
  omega

theorem pow_pos' : (0 : ℚ) < 10^exponent siEx := by positivity

theorem printedMagnitude_nonneg : 0 ≤ printedMagnitude value siEx := by
  rw [printedMagnitude]
  split <;> positivity

theorem printedMagnitude_le : printedMagnitude value siEx ≤ readingMagnitude value siEx := by
  rw [printedMagnitude,readingMagnitude]
  split
  · exact le_refl _
  · exact_mod_cast Nat.mod_le _ _

theorem printedMagnitude_lt : printedMagnitude value siEx < 2^32 := by
  rw [printedMagnitude]
  split
  · have hlt : (magnitude value : ℚ) < 2^32 := by exact_mod_cast magnitude_lt value
    have hone : (1 : ℚ) ≤ 10^exponent siEx := one_le_pow₀ (by norm_num)
    rw [div_lt_iff₀ (pow_pos' siEx)]
    nlinarith
  · exact_mod_cast Nat.mod_lt _ (by decide)

theorem printedMagnitude_eq (h : readingMagnitude value siEx < 2^32) :
    printedMagnitude value siEx = readingMagnitude value siEx := by
  rw [readingMagnitude] at h
  rw [printedMagnitude,readingMagnitude]
  split
  · rfl
  · rename_i hf
    rw [if_neg hf] at h
    rw [Nat.mod_eq_of_lt (by exact_mod_cast h)]

theorem readingMagnitude_eq_zero : readingMagnitude value siEx = 0 ↔ magnitude value = 0 := by
  rw [readingMagnitude,product]
  split <;> simp

/-- The conditions under which the energy register of the unit is read right. -/
def ReadsRight (unit : UInt8) : Prop :=
  if negative siEx then magnitude value = 0
  else
    match unit.toNat with
    | 0x01 =>
      if fraction siEx then readingMagnitude value siEx < 1
      else product value siEx/1000 = product value siEx%2^32
    | 0x02 => readingMagnitude value siEx < 2^32
    | 0x03 => readingMagnitude value siEx*1000 < 2^32
    | 0x08 => readingMagnitude value siEx*(2500/9) < 1
    | 0x0c => readingMagnitude value siEx*1163 < 1
    | _ => False

variable {value siEx} {outOfRange : ℚ → UInt32} {unit : UInt8} {k : ℚ}

theorem kwhPerUnit_pos (h : kwhPerUnit unit = some k) : 0 < k := by
  rw [kwhPerUnit] at h
  split at h
  case h_6 => cases h
  all_goals
    cases h
    norm_num

theorem negative_iff (hn : negative siEx = true) (hk : 0 < k) {factor : ℚ} :
    (toUint32 outOfRange (printed value siEx*factor) : ℤ) = ⌊reading value siEx*k⌋ ↔
      magnitude value = 0 := by
  have hc := printedMagnitude_nonneg value siEx
  have hy := printedMagnitude_le value siEx
  rw [printed,reading,signed,signed,if_pos hn,if_pos hn]
  constructor
  · intro h
    have hfloor : 0 ≤ ⌊-readingMagnitude value siEx*k⌋ := by
      rw [← h]
      exact Int.natCast_nonneg _
    rw [Int.floor_nonneg] at hfloor
    rw [← readingMagnitude_eq_zero value siEx]
    nlinarith
  · intro h
    rw [← readingMagnitude_eq_zero value siEx] at h
    have hzero : printedMagnitude value siEx = 0 := le_antisymm (h ▸ hy) hc
    rw [h,hzero,neg_zero,zero_mul,zero_mul]
    exact toUint32_eq (le_refl 0) (by norm_num)

theorem toUint32_printed :
    (toUint32 outOfRange (printedMagnitude value siEx*1) : ℤ) = ⌊printedMagnitude value siEx⌋ := by
  rw [mul_one]
  exact toUint32_eq (printedMagnitude_nonneg value siEx) (printedMagnitude_lt value siEx)

theorem wattHours_iff : ⌊printedMagnitude value siEx⌋ = ⌊readingMagnitude value siEx*(1/1000)⌋ ↔
    if fraction siEx then readingMagnitude value siEx < 1
    else product value siEx/1000 = product value siEx%2^32 := by
  have hc := printedMagnitude_nonneg value siEx
  rw [printedMagnitude] at hc ⊢
  rw [readingMagnitude]
  split
  · rename_i hf
    rw [if_pos hf] at hc
    exact floor_thousandth_iff hc
  · have hdiv : ⌊(product value siEx : ℚ)*(1/1000)⌋ = ((product value siEx/1000 : ℕ) : ℤ) := by
      have hfloor := Rat.floor_natCast_div_natCast (product value siEx) 1000
      rw [mul_one_div]
      exact_mod_cast hfloor
    rw [hdiv,Int.floor_natCast]
    constructor
    · intro h
      exact_mod_cast h.symm
    · intro h
      exact_mod_cast h.symm

theorem kilowattHours_iff : ⌊printedMagnitude value siEx⌋ = ⌊readingMagnitude value siEx*1⌋ ↔
    readingMagnitude value siEx < 2^32 := by
  rw [mul_one]
  constructor
  · intro h
    have hlt : ⌊printedMagnitude value siEx⌋ < 2^32 :=
      Int.floor_lt.mpr (by exact_mod_cast printedMagnitude_lt value siEx)
    rw [h] at hlt
    exact_mod_cast Int.floor_lt.mp hlt
  · intro h
    rw [printedMagnitude_eq value siEx h]

theorem megawattHours_iff : (toUint32 outOfRange (printedMagnitude value siEx*1000) : ℤ) =
    ⌊readingMagnitude value siEx*1000⌋ ↔ readingMagnitude value siEx*1000 < 2^32 := by
  have hc := printedMagnitude_nonneg value siEx
  have hy := printedMagnitude_le value siEx
  constructor
  · intro h
    have hlt := @toUint32_lt outOfRange (printedMagnitude value siEx*1000)
    rw [h] at hlt
    exact_mod_cast Int.floor_lt.mp hlt
  · intro h
    rw [printedMagnitude_eq value siEx (by linarith)] at hc ⊢
    exact toUint32_eq (by linarith) h

/-- The energy kept for a register in a unit of energy is its reading in whole kWh exactly
under the conditions of the unit. -/
theorem readsRight_iff (h : kwhPerUnit unit = some k) :
    (toUint32 outOfRange (printed value siEx*(if unit = 3 then 1000 else 1)) : ℤ) =
      ⌊reading value siEx*k⌋ ↔ ReadsRight value siEx unit := by
  have hk := kwhPerUnit_pos h
  have hc := printedMagnitude_nonneg value siEx
  have hy := printedMagnitude_le value siEx
  rw [ReadsRight]
  by_cases hn : negative siEx = true
  · rw [if_pos hn]
    exact negative_iff hn hk
  · rw [if_neg hn,printed,reading,signed,signed,if_neg hn,if_neg hn]
    have hunit : unit = 3 ↔ unit.toNat = 3 := UInt8.toNat_inj.symm
    rw [kwhPerUnit] at h
    split at h
    case h_6 => cases h
    all_goals
      rename_i heq
      cases h
      simp only [hunit,heq]
    · rw [if_neg (by decide),toUint32_printed]
      exact wattHours_iff
    · rw [if_neg (by decide),toUint32_printed]
      exact kilowattHours_iff
    · exact megawattHours_iff
    · rw [if_neg (by decide),toUint32_printed]
      exact floor_mul_eq_iff hc hy (by norm_num)
    · rw [if_neg (by decide),toUint32_printed]
      exact floor_mul_eq_iff hc hy (by norm_num)

end Register

section Replies

variable (outOfRange : ℚ → UInt32) (env : Env) (s : Request) (message : List UInt8)

/-- What should become of the energy: the whole kWh of the reading, and the energy of before
when there is no reading or its unit is none of energy. -/
def EnergyOf (r : Register) (t : Request) : Prop :=
  match kwhPerUnit r.unit with
  | some k =>
    if exponent r.siEx ≤ 9 then
      (kmpGetReceivedEnergyKwh outOfRange t : ℤ) = ⌊reading r.value r.siEx*k⌋
    else t.e1Kwh = s.e1Kwh
  | none => t.e1Kwh = s.e1Kwh

/-- The task runs to its end and leaves the energy of register 0. -/
def EnergyFollows : Prop :=
  ∃ t, kmpReceivedTask env s message = some t ∧ EnergyOf outOfRange s (entry env message 0) t

/-- The conditions on register 0, and on the energy of before where it should stay: another
unit overwrites it with the number printed, and without a number the text of the value printed
last is scanned once more. -/
def EnergyRight (r : Register) : Prop :=
  if exponent r.siEx ≤ 9 then
    match kwhPerUnit r.unit with
    | some _ => ReadsRight r.value r.siEx r.unit
    | none => printed r.value r.siEx = s.e1Kwh
  else
    (scanFloat (lastText (entry env message) keys env.valueString)).getD s.e1Kwh *
      (if r.unit = 3 then 1000 else 1) = s.e1Kwh

variable {outOfRange env s message}

theorem mwh_iff (unit : UInt8) :
    (ascii "MWh").isPrefixOf (kmpUnitToString unit) = true ↔ unit = 3 := by
  revert unit
  exact Bytes.forall_byte (by decide +kernel)

theorem lastText_energy {registers : ℕ → Register} {text : List UInt8} (valueString : List UInt8)
    (h : kmpValueToString (registers 0).value (registers 0).siEx = .text text) :
    lastText registers keys valueString = text := by
  have hkeys : keys = [.t1,.t2,.tdif,.flow1,.effect1,.hr,.v1] ++ [.e1] := rfl
  have hposition : Key.e1.position = 0 := rfl
  rw [lastText,hkeys,List.foldl_append,List.foldl_cons,List.foldl_nil,hposition,h]

theorem kmpReceivedTask_energy (hreply : IsRegisterReply env message)
    (hfits : (registersIn env message).length ≤ registerListLength)
    (hprinted : ∀ k : Key, ¬Overruns (entry env message k.position)) :
    ∃ t, kmpReceivedTask env s message = some t ∧
      t.e1Kwh = (scanFloat (lastText (entry env message) keys env.valueString)).getD s.e1Kwh *
        (if (entry env message 0).unit = 3 then 1000 else 1) := by
  rw [kmpReceivedTask_sample hreply.1 (decoded_serial hreply.1 hreply.2) hfits,
    takeSample_spec hprinted]
  refine ⟨_,rfl,?_⟩
  have hposition : Key.e1.position = 0 := rfl
  simp only [hposition,mwh_iff,mul_ite,mul_one]

/-- What is left of the energy when register 0 has a reading in a unit of energy. -/
theorem EnergyFollows.kwh (h : EnergyFollows outOfRange env s message) {t : Request}
    (ht : kmpReceivedTask env s message = some t) {r : Register} (hr : entry env message 0 = r)
    {k : ℚ} (hk : kwhPerUnit r.unit = some k) (hexp : exponent r.siEx ≤ 9) :
    (kmpGetReceivedEnergyKwh outOfRange t : ℤ) = ⌊reading r.value r.siEx*k⌋ := by
  obtain ⟨t',ht',henergy⟩ := h
  cases ht.symm.trans ht'
  simpa only [EnergyOf,hr,hk,if_pos hexp] using henergy

theorem kmpReceivedTask_overrun (hreply : IsRegisterReply env message)
    (h : ¬((registersIn env message).length ≤ registerListLength ∧
      ∀ k : Key, ¬Overruns (entry env message k.position))) :
    kmpReceivedTask env s message = none := by
  by_cases hfits : (registersIn env message).length ≤ registerListLength
  · rw [kmpReceivedTask_sample hreply.1 (decoded_serial hreply.1 hreply.2) hfits]
    simp only [hfits,true_and] at h
    push Not at h
    obtain ⟨k,hk⟩ := h
    exact takeSample_none hk
  · rw [kmpReceivedTask,if_pos hreply.1]
    exact if_pos (Nat.not_le.mp hfits)

/-- After a register reply the energy is that of the meter if and only if the reply has at most
eight registers that all print, and its first one meets the conditions of its unit. -/
theorem energy_follows_iff (hreply : IsRegisterReply env message) :
    EnergyFollows outOfRange env s message ↔
      ((registersIn env message).length ≤ registerListLength ∧
        ∀ k : Key, ¬Overruns (entry env message k.position)) ∧
      EnergyRight env s message (entry env message 0) := by
  by_cases hruns : (registersIn env message).length ≤ registerListLength ∧
      ∀ k : Key, ¬Overruns (entry env message k.position)
  · obtain ⟨t,ht,he⟩ := kmpReceivedTask_energy hreply hruns.1 hruns.2 (s := s)
    have hfollows : EnergyFollows outOfRange env s message ↔
        EnergyOf outOfRange s (entry env message 0) t := by
      constructor
      · rintro ⟨t',ht',henergy⟩
        cases ht.symm.trans ht'
        exact henergy
      · exact fun henergy => ⟨t,ht,henergy⟩
    rw [hfollows,EnergyOf,EnergyRight,kmpGetReceivedEnergyKwh,he,and_iff_right hruns]
    generalize hr : entry env message 0 = r at *
    by_cases hexp : exponent r.siEx ≤ 9
    · obtain ⟨text,htext⟩ : ∃ text, kmpValueToString r.value r.siEx = .text text := by
        cases hv : kmpValueToString r.value r.siEx with
        | text text => exact ⟨text,rfl⟩
        | refused => exact absurd ((kmpValueToString_refused_iff _ _).mp hv) (Nat.not_lt.mpr hexp)
        | overrun =>
          have hover : Overruns (entry env message Key.e1.position) := by
            rw [show Key.e1.position = 0 from rfl,hr]
            exact (kmpValueToString_overrun_iff _ _).mp hv
          exact absurd hover (hruns.2 .e1)
      have hlast : lastText (entry env message) keys env.valueString = text :=
        lastText_energy env.valueString (by rw [hr]; exact htext)
      rw [hlast,scanFloat_text htext,Option.getD_some]
      simp only [if_pos hexp]
      cases hk : kwhPerUnit r.unit with
      | some k => exact readsRight_iff hk
      | none =>
        have hne : r.unit ≠ 3 := by
          intro hunit
          rw [hunit] at hk
          cases hk
        simp only [if_neg hne,mul_one]
    · simp only [if_neg hexp]
      cases kwhPerUnit r.unit <;> rfl
  · have hnone := kmpReceivedTask_overrun hreply hruns (s := s)
    constructor
    · rintro ⟨t,ht,_⟩
      rw [hnone] at ht
      cases ht
    · exact fun h => absurd h.1 hruns

end Replies

/-- The answer of a meter that returns its energy register only. -/
def energyReply (unit siEx : UInt8) (value : UInt32) : List UInt8 :=
  wire 0x40 (checked (replyBody [⟨0x3c,unit,siEx,value⟩]))

def emptyEnv : Env := ⟨fun _ => 0,[],30000,1700000000⟩

def freshRequest : Request := ⟨6543210,0,true,[]⟩

/-- 12.34 MWh. -/
theorem energy_follows_megawattHours :
    EnergyFollows (fun _ => 0) emptyEnv freshRequest (energyReply 3 0x42 1234) := by
  have hreply : IsRegisterReply emptyEnv (energyReply 3 0x42 1234) :=
    ⟨by decide,by decide⟩
  have hentry : entry emptyEnv (energyReply 3 0x42 1234) 0 = ⟨0x3c,3,4,0x42,1234⟩ := by
    decide
  refine (energy_follows_iff hreply).mpr ⟨⟨by decide,?_⟩,?_⟩
  · intro k
    cases k <;> decide
  · rw [hentry]
    show (1234 : ℚ)/10^2*1000 < 2^32
    norm_num

/-- 100 Gj are kept as 100 kWh instead of 27777. -/
theorem energy_gigajoules : ¬∀ (outOfRange : ℚ → UInt32) (env : Env) (s : Request)
    (message : List UInt8), IsRegisterReply env message → EnergyFollows outOfRange env s message := by
  intro h
  have hreply : IsRegisterReply emptyEnv (energyReply 8 0 100) :=
    ⟨by decide,by decide⟩
  have hprinted : ∀ k : Key, ¬Overruns (entry emptyEnv (energyReply 8 0 100) k.position) := by
    intro k
    cases k <;> decide
  obtain ⟨t,ht,he⟩ := kmpReceivedTask_energy hreply (by decide) hprinted (s := freshRequest)
  have hentry : entry emptyEnv (energyReply 8 0 100) 0 = ⟨0x3c,8,4,0,100⟩ := by decide
  have hvalue : kmpValueToString (entry emptyEnv (energyReply 8 0 100) 0).value
      (entry emptyEnv (energyReply 8 0 100) 0).siEx = .text (ascii "100") := by
    rw [hentry]
    decide
  have hscan : scanFloat (ascii "100") = some 100 := by decide +kernel
  rw [lastText_energy _ hvalue,hscan,hentry] at he
  have hkwh := (h (fun _ => 0) emptyEnv freshRequest _ hreply).kwh ht hentry rfl (by decide)
  rw [kmpGetReceivedEnergyKwh,he] at hkwh
  revert hkwh
  decide +kernel

end KmpEnergy
end MeterLogger
