import Mathlib.Algebra.Order.Field.Basic
import MeterLogger.KmpText

/-!
# Exact rendering of KMP values

What a decimal text denotes, and when `kmp_value_to_string` writes the number of a value: a
fraction needs a decimal, and a product has to stay below 2^32. Every text fits the size that is
given to `tfp_snprintf`, and that the buffer of the caller.
-/

namespace MeterLogger
namespace KmpText

open CStrings Decimal Kmp

/-- The text is a sign, digits, and perhaps a point with digits behind it, and denotes `x`. -/
def Denotes (s : List UInt8) (x : ℚ) : Prop :=
  ∃ (neg : Bool) (whole frac : List UInt8), whole ≠ [] ∧ (∀ b ∈ whole ++ frac, isDigit b = true) ∧
    s = (if neg then ascii "-" else []) ++ (whole ++ if frac = [] then [] else 46::frac) ∧
    x = if neg then -((readDigits 0 (whole ++ frac) : ℚ)/10^frac.length)
      else (readDigits 0 (whole ++ frac) : ℚ)/10^frac.length

theorem Denotes.scanFloat_eq {s : List UInt8} {x : ℚ} (h : Denotes s x) : scanFloat s = some x := by
  obtain ⟨neg,whole,frac,hne,hdigits,hs,hx⟩ := h
  obtain ⟨siEx,rfl⟩ : ∃ siEx, neg = negative siEx := by
    cases neg with
    | false => exact ⟨0,rfl⟩
    | true => exact ⟨0x80,rfl⟩
  have hs' : s = sign siEx ++ (whole ++ if frac = [] then [] else 46::frac) := hs
  have hx' : x = signed siEx ((readDigits 0 (whole ++ frac) : ℚ)/10^frac.length) := hx
  have hwhole : ∀ b ∈ whole, isDigit b = true := fun b hb => hdigits b (by simp [hb])
  have hfrac : ∀ b ∈ frac, isDigit b = true := fun b hb => hdigits b (by simp [hb])
  have hpos := List.length_pos_iff.mpr hne
  obtain ⟨b,bs,hcons⟩ := List.exists_cons_of_ne_nil hne
  have hb : isDigit b = true := hwhole b (by rw [hcons]; simp)
  have hhead : ∃ c cs, (whole ++ if frac = [] then [] else 46::frac) = c::cs ∧ isDigit c = true :=
    ⟨b,_,by rw [hcons]; rfl,hb⟩
  rw [hs',hx']
  refine @scanFloat_signed _ hhead siEx _ _ (whole.length+frac.length) ?_ (by omega)
  by_cases hnil : frac = []
  · have hscan := scanDigits_digits hwhole false 0 0 0 []
    rw [hnil,if_pos rfl,hscan,List.append_nil]
    simp [scanDigits]
  · rw [if_neg hnil,scanDigits_point hwhole hfrac hnil,readDigits_append]

theorem Denotes.unique {s : List UInt8} {x y : ℚ} (hx : Denotes s x) (hy : Denotes s y) : x = y := by
  have heq := hx.scanFloat_eq
  rw [hy.scanFloat_eq] at heq
  exact (Option.some.inj heq).symm

/-- The number of a value: bit 7 of `si_ex` is its sign, bit 6 the sign of the exponent, and the
other bits are the exponent. -/
def number (n : UInt32) (siEx : UInt8) : ℚ :=
  (if negative siEx then -1 else 1)*n.toNat*
    (10 : ℚ)^(if fraction siEx then -(exponent siEx : ℤ) else exponent siEx)

/-- The value as the argument of `kmp_value_to_string`. -/
def argument (n : UInt32) : ℤ := toInt32 n.toNat

theorem magnitude_argument (n : UInt32) : magnitude (argument n) = n.toNat := by
  have hlt := n.toNat_lt
  rw [argument,toInt32]
  split
  · rw [magnitude]
    omega
  · rw [magnitude]
    omega

theorem number_eq (n : UInt32) (siEx : UInt8) : number n siEx = reading (argument n) siEx := by
  rw [number,reading,readingMagnitude,product,magnitude_argument,signed]
  cases hneg : negative siEx <;> cases hfrac : fraction siEx <;>
    simp [div_eq_mul_inv]

def leadingZeroes (value : ℤ) (siEx : UInt8) : ℕ :=
  exponent siEx-decimalNumberLength
    (magnitude value-magnitude value/intPow 10 (exponent siEx)*intPow 10 (exponent siEx))

/-- The size given to `tfp_snprintf`, with the byte for the NUL. -/
def printSize (value : ℤ) (siEx : UInt8) : ℕ :=
  if fraction siEx then
    (if negative siEx then 23 else 22)+leadingZeroes value siEx
  else if negative siEx then 12 else 11

/-- A number that has a text of less than 64 bytes. -/
def Writable (x : ℚ) : Prop := ∃ s : List UInt8, s.length < 64 ∧ Denotes s x

/-- A text of the number is written that is not cut and fits the caller's 64 bytes; or false is
returned, and the number has no such text. -/
def Exact (n : UInt32) (siEx : UInt8) : Prop :=
  (∃ s, kmpValueToString (argument n) siEx = .text s ∧ s.length < printSize (argument n) siEx ∧
      printSize (argument n) siEx ≤ 64 ∧ Denotes s (number n siEx)) ∨
    (kmpValueToString (argument n) siEx = .refused ∧ ¬Writable (number n siEx))

section Outcomes

variable {n : UInt32} {siEx : UInt8}

theorem kmpValueToString_product (he : exponent siEx ≤ 9) (hfrac : fraction siEx = false) :
    kmpValueToString (argument n) siEx =
      .text (sign siEx ++ decimal (n.toNat*10^exponent siEx%2^32)) := by
  rw [kmpValueToString,if_neg (by omega)]
  simp only [hfrac,intPow_eq,magnitude_argument,Bool.false_eq_true,if_false]

theorem kmpValueToString_fraction (he : exponent siEx ≤ 9) (hpos : 0 < exponent siEx)
    (hfrac : fraction siEx = true) :
    kmpValueToString (argument n) siEx =
      .text (sign siEx ++ (decimal (n.toNat/10^exponent siEx) ++
        46::(List.replicate (leadingZeroes (argument n) siEx) 48 ++
          decimal (n.toNat-n.toNat/10^exponent siEx*10^exponent siEx)))) := by
  have hlt := frac_lt n.toNat (exponent siEx)
  have hlen := decimal_length_le hlt hpos
  rw [kmpValueToString,if_neg (by omega),leadingZeroes]
  simp only [hfrac,intPow_eq,magnitude_argument,if_true]
  rw [if_neg (by rw [decimalNumberLength_eq]; omega)]

theorem leadingZeroes_length (hpos : 0 < exponent siEx) :
    leadingZeroes (argument n) siEx+
      (decimal (n.toNat-n.toNat/10^exponent siEx*10^exponent siEx)).length = exponent siEx := by
  have hlen := decimal_length_le (frac_lt n.toNat (exponent siEx)) hpos
  rw [leadingZeroes,magnitude_argument,intPow_eq,decimalNumberLength_eq]
  omega

theorem sign_length (siEx : UInt8) : (sign siEx).length = if negative siEx then 1 else 0 := by
  rw [sign]
  split
  · rfl
  · rfl

theorem decimal_length_32 {m : ℕ} (h : m < 2^32) : (decimal m).length ≤ 10 :=
  decimal_length_le (Nat.lt_trans h (by decide)) (by decide)

theorem fraction_denotes (hpos : 0 < exponent siEx) (hfrac : fraction siEx = true) :
    Denotes (sign siEx ++ (decimal (n.toNat/10^exponent siEx) ++
        46::(List.replicate (leadingZeroes (argument n) siEx) 48 ++
          decimal (n.toNat-n.toNat/10^exponent siEx*10^exponent siEx))))
      (number n siEx) := by
  have hlength := @leadingZeroes_length n siEx hpos
  have hfill : (List.replicate (leadingZeroes (argument n) siEx) 48 ++
      decimal (n.toNat-n.toNat/10^exponent siEx*10^exponent siEx)).length = exponent siEx := by
    rw [List.length_append,List.length_replicate,hlength]
  have hne : List.replicate (leadingZeroes (argument n) siEx) 48 ++
      decimal (n.toNat-n.toNat/10^exponent siEx*10^exponent siEx) ≠ [] :=
    List.ne_nil_of_length_pos (by omega)
  have hwhole : n.toNat/10^exponent siEx*10^exponent siEx+
      (n.toNat-n.toNat/10^exponent siEx*10^exponent siEx) = n.toNat := by
    have hle := Nat.div_mul_le_self n.toNat (10^exponent siEx)
    omega
  refine ⟨negative siEx,decimal (n.toNat/10^exponent siEx),_,decimal_ne_nil _,?_,
    by rw [if_neg hne]; rfl,?_⟩
  · intro b hb
    rcases List.mem_append.mp hb with hb | hb
    · exact isDigit_of_mem_decimal hb
    rcases List.mem_append.mp hb with hb | hb
    · rw [List.eq_of_mem_replicate hb]
      decide
    · exact isDigit_of_mem_decimal hb
  · rw [readDigits_append,readDigits_decimal,readDigits_shift,readDigits_padded,hfill,hwhole,
      number_eq,reading,readingMagnitude,hfrac,magnitude_argument]
    rfl

theorem product_denotes (hfrac : fraction siEx = false) (hlt : n.toNat*10^exponent siEx < 2^32) :
    Denotes (sign siEx ++ decimal (n.toNat*10^exponent siEx%2^32)) (number n siEx) := by
  refine ⟨negative siEx,decimal (n.toNat*10^exponent siEx%2^32),[],decimal_ne_nil _,?_,?_,?_⟩
  · intro b hb
    rw [List.append_nil] at hb
    exact isDigit_of_mem_decimal hb
  · rw [if_pos rfl,List.append_nil]
    rfl
  · rw [List.append_nil,readDigits_decimal,Nat.mod_eq_of_lt hlt,List.length_nil,pow_zero,div_one,
      number_eq,reading,readingMagnitude,hfrac,product,magnitude_argument]
    rfl

end Outcomes

theorem signed_injective (siEx : UInt8) : Function.Injective (signed siEx) := by
  intro x y h
  rw [signed,signed] at h
  split at h
  · exact neg_injective h
  · exact h

theorem product_lt {n : UInt32} {siEx : UInt8} {s : List UInt8}
    (htext : kmpValueToString (argument n) siEx = .text s) (hdenotes : Denotes s (number n siEx))
    (hfrac : fraction siEx = false) : n.toNat*10^exponent siEx < 2^32 := by
  have hprinted := scanFloat_text htext
  rw [hdenotes.scanFloat_eq,Option.some.injEq,number_eq,reading,printed,readingMagnitude,
    printedMagnitude,hfrac] at hprinted
  have hcut := signed_injective siEx hprinted
  have heq : product (argument n) siEx = product (argument n) siEx%2^32 := Nat.cast_injective hcut
  rw [product,magnitude_argument] at heq
  rw [heq]
  exact Nat.mod_lt _ (by decide)

/-- For an exponent up to 9 the number of a value is rendered exactly just when a fraction has
a decimal, and a product is below 2^32. -/
theorem value_exact (n : UInt32) (siEx : UInt8) (he : exponent siEx ≤ 9) :
    Exact n siEx ↔
      (fraction siEx = true → 0 < exponent siEx) ∧
        (fraction siEx = false → n.toNat*10^exponent siEx < 2^32) := by
  have hn := n.toNat_lt
  have hsign := sign_length siEx
  have hrefused : kmpValueToString (argument n) siEx ≠ .refused := by
    rw [Ne,kmpValueToString_refused_iff]
    omega
  constructor
  · rintro (⟨s,htext,_,_,hdenotes⟩ | ⟨h,_⟩)
    · constructor
      · intro hfrac
        have hno : ¬(fraction siEx = true ∧ exponent siEx = 0) := by
          rw [← kmpValueToString_overrun_iff (argument n),htext]
          simp
        exact Nat.pos_of_ne_zero fun hzero => hno ⟨hfrac,hzero⟩
      · exact fun hfrac => product_lt htext hdenotes hfrac
    · exact absurd h hrefused
  · rintro ⟨hfraction,hproduct⟩
    refine Or.inl ?_
    cases hfrac : fraction siEx with
    | false =>
      have hlen := decimal_length_32 (Nat.mod_lt (n.toNat*10^exponent siEx)
        (show 0 < 2^32 by decide))
      refine ⟨_,kmpValueToString_product he hfrac,?_,?_,product_denotes hfrac (hproduct hfrac)⟩
      · rw [printSize,hfrac,List.length_append,hsign]
        simp only [Bool.false_eq_true,if_false]
        split <;> omega
      · rw [printSize,hfrac]
        simp only [Bool.false_eq_true,if_false]
        split <;> omega
    | true =>
      have hpos := hfraction hfrac
      have hlength := @leadingZeroes_length n siEx hpos
      have hlen := decimal_length_32 (Nat.lt_of_le_of_lt (Nat.div_le_self n.toNat
        (10^exponent siEx)) hn)
      refine ⟨_,kmpValueToString_fraction he hpos hfrac,?_,?_,fraction_denotes hpos hfrac⟩
      · rw [printSize,hfrac,List.length_append,List.length_append,List.length_cons,
          List.length_append,List.length_replicate,hsign]
        simp only [if_true]
        split <;> omega
      · rw [printSize,hfrac]
        simp only [if_true]
        split <;> omega

/-- An energy of 1234 with two decimals. -/
theorem value_exact_energy : Exact 1234 0x42 :=
  (value_exact 1234 0x42 (by decide)).mpr ⟨fun _ => by decide,fun h => absurd h (by decide)⟩

/-- A value of 5 with the exponent 9 is printed as 705032704. -/
theorem value_inexact : ¬∀ (n : UInt32) (siEx : UInt8), exponent siEx ≤ 9 → Exact n siEx := by
  intro h
  rcases h 5 0x09 (by decide) with ⟨s,htext,_,_,hdenotes⟩ | ⟨href,_⟩
  · exact absurd (product_lt htext hdenotes rfl) (by decide)
  · rw [kmpValueToString_refused_iff] at href
    exact absurd href (by decide)

end KmpText
end MeterLogger
