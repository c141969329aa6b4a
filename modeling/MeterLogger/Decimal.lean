import Mathlib.Tactic.Ring
import MeterLogger.Bytes
import MeterLogger.CStrings

/-!
# Decimal numerals

The digits of a natural number as `%u` prints them, and the value of a run of digits.
Printing and reading are inverse, also behind zeros that fill a field. `atoi` reads what a
string begins with.
-/

namespace MeterLogger
namespace Decimal

open CStrings

def digitByte (d : ℕ) : UInt8 := UInt8.ofNat (48+d)

/-- The digits of a number, without leading zeros. -/
def decimal (n : ℕ) : List UInt8 := (Nat.toDigits 10 n).map fun c => UInt8.ofNat c.toNat

/-- What the digits add to a value read before them. -/
def readDigits (value : ℕ) (digits : List UInt8) : ℕ :=
  digits.foldl (fun v b => v*10+(b.toNat-48)) value

theorem digitByte_toNat {d : ℕ} (h : d < 10) : (digitByte d).toNat = 48+d := by
  rw [digitByte,UInt8.toNat_ofNat',Nat.mod_eq_of_lt]
  omega

theorem isDigit_digitByte {d : ℕ} (h : d < 10) : isDigit (digitByte d) = true := by
  have hd := digitByte_toNat h
  simp only [isDigit,Bool.and_eq_true,decide_eq_true_eq,UInt8.le_iff_toNat_le,hd]
  constructor
  · show 48 ≤ 48+d
    omega
  · show 48+d ≤ 57
    omega

theorem digitChar_byte {d : ℕ} (h : d < 10) : UInt8.ofNat d.digitChar.toNat = digitByte d := by
  have hall : ∀ d < 10, UInt8.ofNat (Nat.digitChar d).toNat = digitByte d := by decide
  exact hall d h

theorem decimal_small {n : ℕ} (h : n < 10) : decimal n = [digitByte n] := by
  rw [decimal,Nat.toDigits_of_lt_base h,List.map_singleton,digitChar_byte h]

theorem decimal_large {n : ℕ} (h : 10 ≤ n) :
    decimal n = decimal (n/10) ++ [digitByte (n%10)] := by
  have hd : n%10 < 10 := Nat.mod_lt n (by decide)
  rw [decimal,Nat.toDigits_of_base_le (by decide) h,List.map_append,List.map_singleton,
    digitChar_byte hd]
  rfl

theorem decimal_ne_nil (n : ℕ) : decimal n ≠ [] := by
  simp [decimal]

theorem decimal_length_le {n k : ℕ} (h : n < 10^k) (hk : 0 < k) : (decimal n).length ≤ k := by
  rw [decimal,List.length_map]
  exact (Nat.length_toDigits_le_iff (by decide) hk).mpr h

theorem isDigit_of_mem_decimal {n : ℕ} {b : UInt8} (h : b ∈ decimal n) : isDigit b = true := by
  induction n using Nat.strong_induction_on with
  | _ n ih =>
    by_cases hn : n < 10
    · rw [decimal_small hn,List.mem_singleton] at h
      rw [h]
      exact isDigit_digitByte hn
    · rw [decimal_large (by omega),List.mem_append,List.mem_singleton] at h
      rcases h with h | rfl
      · exact ih (n/10) (by omega) h
      · exact isDigit_digitByte (Nat.mod_lt n (by decide))

theorem readDigits_append (value : ℕ) (xs ys : List UInt8) :
    readDigits value (xs ++ ys) = readDigits (readDigits value xs) ys :=
  List.foldl_append

theorem readDigits_shift (value : ℕ) (xs : List UInt8) :
    readDigits value xs = value*10^xs.length+readDigits 0 xs := by
  induction xs generalizing value with
  | nil => simp [readDigits]
  | cons x xs ih =>
    have hcons : ∀ v, readDigits v (x::xs) = readDigits (v*10+(x.toNat-48)) xs := fun _ => rfl
    rw [hcons,hcons,ih,ih (0*10+_),List.length_cons]
    ring

theorem le_readDigits (value : ℕ) (xs : List UInt8) : value ≤ readDigits value xs := by
  rw [readDigits_shift]
  exact (Nat.le_mul_of_pos_right value (Nat.pow_pos (by decide))).trans (Nat.le_add_right _ _)

theorem readDigits_decimal (n : ℕ) : readDigits 0 (decimal n) = n := by
  induction n using Nat.strong_induction_on with
  | _ n ih =>
    by_cases hn : n < 10
    · rw [decimal_small hn,readDigits,List.foldl_cons,List.foldl_nil,digitByte_toNat hn]
      omega
    · have hd := digitByte_toNat (Nat.mod_lt n (show 0 < 10 by decide))
      rw [decimal_large (by omega),readDigits_append,ih (n/10) (by omega),readDigits,
        List.foldl_cons,List.foldl_nil,hd]
      omega

theorem readDigits_zeros (k : ℕ) : readDigits 0 (List.replicate k 48) = 0 := by
  induction k with
  | zero => rfl
  | succ k ih =>
    rw [List.replicate_succ,readDigits,List.foldl_cons]
    exact ih

theorem readDigits_padded (k n : ℕ) : readDigits 0 (List.replicate k 48 ++ decimal n) = n := by
  rw [readDigits_append,readDigits_zeros,readDigits_decimal]

def isSpace (b : UInt8) : Bool := b = 32 || 9 ≤ b && b ≤ 13

/-- Spaces, a sign and digits, and then anything; a value that an `int` has no room for is
clamped. -/
def atoi (str : List UInt8) : ℤ :=
  let str := str.dropWhile isSpace
  let neg := str.head? = some 45
  let str := if neg || str.head? = some 43 then str.drop 1 else str
  let value : ℤ := readDigits 0 (str.takeWhile isDigit)
  if neg then max (-2^31) (-value) else min (2^31-1) value

/-- The string is a numeral of `n`. -/
def IsNumeral (str : List UInt8) (n : ℕ) : Prop :=
  str ≠ [] ∧ (∀ b ∈ str, isDigit b = true) ∧ readDigits 0 str = n

theorem isNumeral_decimal (n : ℕ) : IsNumeral (decimal n) n :=
  ⟨decimal_ne_nil n,fun _ => isDigit_of_mem_decimal,readDigits_decimal n⟩

theorem isDigit_bounds {b : UInt8} (h : isDigit b = true) : 48 ≤ b.toNat ∧ b.toNat ≤ 57 := by
  simp only [isDigit,Bool.and_eq_true,decide_eq_true_eq,UInt8.le_iff_toNat_le] at h
  exact h

theorem isSpace_digit {b : UInt8} (h : isDigit b = true) : isSpace b = false := by
  obtain ⟨hle,_⟩ := isDigit_bounds h
  have hspace : b ≠ 32 := by
    rintro rfl
    exact absurd hle (by decide)
  have htab : ¬b ≤ 13 := fun hb => absurd (hle.trans (UInt8.le_iff_toNat_le.mp hb)) (by decide)
  simp [isSpace,hspace,htab]

theorem atoi_numeral {str : List UInt8} {n : ℕ} (h : IsNumeral str n) :
    atoi str = min (2^31-1) (n : ℤ) := by
  obtain ⟨hne,hdigits,hvalue⟩ := h
  obtain ⟨b,bs,rfl⟩ := List.exists_cons_of_ne_nil hne
  have hb := hdigits b List.mem_cons_self
  obtain ⟨hle,_⟩ := isDigit_bounds hb
  have hspace : (b::bs).dropWhile isSpace = b::bs :=
    List.dropWhile_cons_of_neg (by rw [isSpace_digit hb]; decide)
  have hminus : b ≠ 45 := by
    rintro rfl
    exact absurd hle (by decide)
  have hplus : b ≠ 43 := by
    rintro rfl
    exact absurd hle (by decide)
  have htake : (b::bs).takeWhile isDigit = b::bs := List.takeWhile_eq_self_iff.mpr hdigits
  rw [atoi,hspace]
  simp [hminus,hplus,htake,hvalue]

end Decimal
end MeterLogger
