import Mathlib.Data.Rat.Floor
import Mathlib.Tactic.FieldSimp
import MeterLogger.Decimal
import MeterLogger.Kmp

/-!
# KMP values and units as text

`kmp_value_to_string` prints the value of a register, `kmp_unit_to_string` its unit, and
`tfp_vsscanf` reads a number back. What is read is the number that was printed, with the
`float` of the source taken as an exact number.
-/

namespace MeterLogger
namespace KmpText

open CStrings Decimal Kmp

def intPow (x : ℕ) : ℕ → ℕ
  | 0 => 1
  | 1 => x
  | y+2 => intPow x (y+1)*x

/-- `while (un > 0) { un /= 10; digits++; }` -/
def digitsLoop : ℕ → ℕ → ℕ
  | 0, _ => 0
  | fuel+1, un => if 0 < un then digitsLoop fuel (un/10)+1 else 0

def decimalNumberLength (n : ℕ) : ℕ := if n = 0 then 1 else digitsLoop n n

/-- The outcome of `kmp_value_to_string`. When the fraction is longer than the exponent, the
loop that fills up with zeros runs for 2^32 rounds less one, over the ends of its buffer. -/
inductive Rendered
  | refused
  | text (s : List UInt8)
  | overrun
  deriving DecidableEq

def exponent (siEx : UInt8) : ℕ := (siEx &&& 0x3f).toNat

def negative (siEx : UInt8) : Bool := siEx &&& 0x80 ≠ 0

def fraction (siEx : UInt8) : Bool := siEx &&& 0x40 ≠ 0

def magnitude (value : ℤ) : ℕ := (value%2^32).toNat

def sign (siEx : UInt8) : List UInt8 := if negative siEx then ascii "-" else []

def kmpValueToString (value : ℤ) (siEx : UInt8) : Rendered :=
  if 9 < exponent siEx then .refused
  else
    let factor := intPow 10 (exponent siEx)
    if fraction siEx then
      let resultInt := magnitude value/factor
      let resultFrac := magnitude value-resultInt*factor
      if exponent siEx < decimalNumberLength resultFrac then .overrun
      else
        let leadingZeroes := List.replicate (exponent siEx-decimalNumberLength resultFrac) 48
        .text (sign siEx ++ (decimal resultInt ++ 46::(leadingZeroes ++ decimal resultFrac)))
    else .text (sign siEx ++ decimal (magnitude value*factor%2^32))

def kmpUnitToString (unit : UInt8) : List UInt8 :=
  match unit.toNat with
  | 0x01 => ascii "Wh"
  | 0x02 => ascii "kWh"
  | 0x03 => ascii "MWh"
  | 0x08 => ascii "Gj"
  | 0x0c => ascii "Gcal"
  | 0x16 => ascii "kW"
  | 0x17 => ascii "MW"
  | 0x25 => ascii "C"
  | 0x26 => ascii "K"
  | 0x27 => ascii "l"
  | 0x28 => ascii "m3"
  | 0x29 => ascii "l/h"
  | 0x2a => ascii "m3/h"
  | 0x2b => ascii "m3xC"
  | 0x2c => ascii "ton"
  | 0x2d => ascii "ton/h"
  | 0x2e => ascii "h"
  | 0x2f => ascii "clock"
  | 0x30 => ascii "date1"
  | 0x32 => ascii "date3"
  | 0x33 => ascii "number"
  | 0x34 => ascii "bar"
  | _ => ascii "unknown"

/-- The digits of `%f` with a point among them: mantissa, digits behind the point, digits. -/
def scanDigits : Bool → ℕ → ℕ → ℕ → List UInt8 → ℕ × ℕ × ℕ
  | _, value, exp, pos, [] => (value,exp,pos)
  | point, value, exp, pos, b::bs =>
    if b = 46 then
      match bs with
      | [] => (value,exp,pos)
      | d::ds =>
        if isDigit d then scanDigits true (value*10+(d.toNat-48)) (exp+1) (pos+1) ds
        else (value,exp,pos)
    else if isDigit b then
      scanDigits point (value*10+(b.toNat-48)) (if point then exp+1 else exp) (pos+1) bs
    else (value,exp,pos)

/-- `tfp_vsscanf(str, "%f", &x)`: the number stored in `x`, if one is stored. -/
def scanFloat (str : List UInt8) : Option ℚ :=
  let str := str.dropWhile (· = 32)
  let neg := str.head? = some 45
  let (value,exp,pos) := scanDigits false 0 0 0 (if neg then str.drop 1 else str)
  if pos = 0 then none
  else some (if neg then -((value : ℚ)/10^exp) else (value : ℚ)/10^exp)

def signed (siEx : UInt8) (x : ℚ) : ℚ := if negative siEx then -x else x

/-- The value moved up by the exponent, before the product is cut to 32 bits. -/
def product (value : ℤ) (siEx : UInt8) : ℕ := magnitude value*10^exponent siEx

def printedMagnitude (value : ℤ) (siEx : UInt8) : ℚ :=
  if fraction siEx then (magnitude value : ℚ)/10^exponent siEx
  else ((product value siEx%2^32 : ℕ) : ℚ)

def printed (value : ℤ) (siEx : UInt8) : ℚ := signed siEx (printedMagnitude value siEx)

def readingMagnitude (value : ℤ) (siEx : UInt8) : ℚ :=
  if fraction siEx then (magnitude value : ℚ)/10^exponent siEx else (product value siEx : ℚ)

/-- The reading of a register: the value is a magnitude, `si_ex` holds its sign and the power
of ten. -/
def reading (value : ℤ) (siEx : UInt8) : ℚ := signed siEx (readingMagnitude value siEx)

theorem intPow_eq (x y : ℕ) : intPow x y = x^y := by
  induction y with
  | zero => rfl
  | succ y ih =>
    cases y with
    | zero => simp [intPow]
    | succ y => rw [intPow,ih,← Nat.pow_succ]

theorem digitsLoop_eq {fuel un : ℕ} (h : un ≤ fuel) (hpos : 0 < un) :
    digitsLoop fuel un = (decimal un).length := by
  induction fuel generalizing un with
  | zero => omega
  | succ fuel ih =>
    rw [digitsLoop,if_pos hpos]
    by_cases hun : un < 10
    · rw [decimal_small hun,Nat.div_eq_of_lt hun]
      cases fuel <;> rfl
    · have hrest : digitsLoop fuel (un/10) = (decimal (un/10)).length :=
        ih (by omega) (by omega)
      rw [hrest,decimal_large (show 10 ≤ un by omega),List.length_append]
      rfl

theorem decimalNumberLength_eq (n : ℕ) : decimalNumberLength n = (decimal n).length := by
  rw [decimalNumberLength]
  split
  · rename_i hn
    rw [hn]
    rfl
  · rename_i hn
    exact digitsLoop_eq (le_refl n) (Nat.pos_of_ne_zero hn)

theorem isDigit_ne_point {b : UInt8} (h : isDigit b = true) : b ≠ 46 := by
  rintro rfl
  exact absurd h (by decide)

theorem scanDigits_digit {b : UInt8} (h : isDigit b = true) (point : Bool) (value exp pos : ℕ)
    (bs : List UInt8) :
    scanDigits point value exp pos (b::bs) =
      scanDigits point (value*10+(b.toNat-48)) (if point then exp+1 else exp) (pos+1) bs := by
  have hne := isDigit_ne_point h
  cases bs <;> simp [scanDigits,hne,h]

theorem scanDigits_fraction {d : UInt8} (h : isDigit d = true) (point : Bool) (value exp pos : ℕ)
    (ds : List UInt8) :
    scanDigits point value exp pos (46::d::ds) =
      scanDigits true (value*10+(d.toNat-48)) (exp+1) (pos+1) ds := by
  rw [scanDigits,if_pos rfl,if_pos h]

theorem scanDigits_digits {xs : List UInt8} (h : ∀ b ∈ xs, isDigit b = true) (point : Bool)
    (value exp pos : ℕ) (ys : List UInt8) :
    scanDigits point value exp pos (xs ++ ys) =
      scanDigits point (readDigits value xs) (if point then exp+xs.length else exp)
        (pos+xs.length) ys := by
  induction xs generalizing value exp pos with
  | nil => simp [readDigits]
  | cons x xs ih =>
    have hx := h x (by simp)
    rw [List.cons_append,scanDigits_digit hx,ih fun b hb => h b (by simp [hb]),List.length_cons]
    congr 1
    · cases point
      · rfl
      · simp only [if_true]
        omega
    · omega

theorem scanDigits_decimal (n : ℕ) :
    scanDigits false 0 0 0 (decimal n) = (n,0,(decimal n).length) := by
  have hall : ∀ b ∈ decimal n, isDigit b = true := fun b hb => isDigit_of_mem_decimal hb
  have hdigits := scanDigits_digits hall false 0 0 0 []
  rw [List.append_nil,readDigits_decimal] at hdigits
  rw [hdigits]
  simp [scanDigits]

theorem scanDigits_point {xs ys : List UInt8} (hx : ∀ b ∈ xs, isDigit b = true)
    (hy : ∀ b ∈ ys, isDigit b = true) (hne : ys ≠ []) :
    scanDigits false 0 0 0 (xs ++ 46::ys) =
      (readDigits (readDigits 0 xs) ys,ys.length,xs.length+ys.length) := by
  cases ys with
  | nil => exact absurd rfl hne
  | cons d ds =>
    have hd := hy d (by simp)
    have hrest : ∀ b ∈ ds, isDigit b = true := fun b hb => hy b (by simp [hb])
    have hds := scanDigits_digits hrest true (readDigits 0 xs*10+(d.toNat-48)) (0+1)
      (0+xs.length+1) []
    rw [List.append_nil] at hds
    rw [scanDigits_digits hx,scanDigits_fraction hd]
    simp only [Bool.false_eq_true,if_false]
    rw [hds]
    simp only [scanDigits,if_true,List.length_cons,Prod.mk.injEq]
    exact ⟨rfl,by omega,by omega⟩

theorem scanFloat_signed {body : List UInt8} (h : ∃ b bs, body = b::bs ∧ isDigit b = true)
    (siEx : UInt8) {value exp pos : ℕ} (hscan : scanDigits false 0 0 0 body = (value,exp,pos))
    (hpos : 0 < pos) :
    scanFloat (sign siEx ++ body) = some (signed siEx ((value : ℚ)/10^exp)) := by
  obtain ⟨b,bs,rfl,hb⟩ := h
  have hspace : b ≠ 32 := by
    rintro rfl
    exact absurd hb (by decide)
  have hminus : b ≠ 45 := by
    rintro rfl
    exact absurd hb (by decide)
  have hne : ¬pos = 0 := by omega
  cases hn : negative siEx with
  | true =>
    have hsign : sign siEx = [45] := by rw [sign,hn]; rfl
    rw [hsign,scanFloat]
    simp [hscan,hne,signed,hn]
  | false =>
    have hsign : sign siEx = [] := by rw [sign,hn]; rfl
    rw [hsign,List.nil_append,scanFloat,List.dropWhile_cons_of_neg (by simpa using hspace)]
    simp [hscan,hne,signed,hn,hminus]

theorem decimal_cons (n : ℕ) : ∃ b bs, decimal n = b::bs ∧ isDigit b = true := by
  cases hn : decimal n with
  | nil => exact absurd hn (decimal_ne_nil n)
  | cons b bs => exact ⟨b,bs,rfl,isDigit_of_mem_decimal (by rw [hn]; simp)⟩

theorem frac_lt (v e : ℕ) : v-v/10^e*10^e < 10^e := by
  have hpow : 0 < 10^e := Nat.pow_pos (by decide)
  have hmod := Nat.mod_lt v hpow
  have hdiv := Nat.div_add_mod v (10^e)
  rw [Nat.mul_comm] at hdiv
  omega

theorem kmpValueToString_overrun_iff (value : ℤ) (siEx : UInt8) :
    kmpValueToString value siEx = .overrun ↔ fraction siEx = true ∧ exponent siEx = 0 := by
  have hfrac := frac_lt (magnitude value) (exponent siEx)
  rw [kmpValueToString]
  simp only [intPow_eq]
  by_cases he : 9 < exponent siEx
  · rw [if_pos he]
    simp only [reduceCtorEq,false_iff]
    omega
  · rw [if_neg he]
    cases hf : fraction siEx with
    | false => simp
    | true =>
      simp only [if_true,decimalNumberLength_eq,true_and]
      by_cases hzero : exponent siEx = 0
      · have hone := List.length_pos_iff.mpr
          (decimal_ne_nil (magnitude value-magnitude value/10^exponent siEx*10^exponent siEx))
        rw [if_pos (by omega)]
        simp [hzero]
      · have hle := decimal_length_le hfrac (by omega)
        rw [if_neg (by omega)]
        simp [hzero]

theorem kmpValueToString_refused_iff (value : ℤ) (siEx : UInt8) :
    kmpValueToString value siEx = .refused ↔ 9 < exponent siEx := by
  rw [kmpValueToString]
  simp only
  split
  · simp [*]
  · split <;> try split
    all_goals simp [*]

theorem scanDigits_fixed (v e : ℕ) {frac : ℕ} (hfrac : v-v/10^e*10^e = frac)
    (hlen : (decimal frac).length ≤ e) :
    scanDigits false 0 0 0
        (decimal (v/10^e) ++ 46::(List.replicate (e-(decimal frac).length) 48 ++ decimal frac)) =
      (v,e,(decimal (v/10^e)).length+e) := by
  have hdigits : ∀ b ∈ List.replicate (e-(decimal frac).length) 48 ++ decimal frac,
      isDigit b = true := by
    intro b hb
    rcases List.mem_append.mp hb with hb | hb
    · rw [List.eq_of_mem_replicate hb]
      decide
    · exact isDigit_of_mem_decimal hb
  have hfill : (List.replicate (e-(decimal frac).length) 48 ++ decimal frac).length = e := by
    rw [List.length_append,List.length_replicate]
    omega
  have hwhole : v/10^e*10^e+frac = v := by
    have hle := Nat.div_mul_le_self v (10^e)
    omega
  rw [scanDigits_point (fun b hb => isDigit_of_mem_decimal hb) hdigits (by simp [decimal_ne_nil]),
    readDigits_decimal,readDigits_shift,readDigits_padded,hfill,hwhole]

theorem scanFloat_text {value : ℤ} {siEx : UInt8} {s : List UInt8}
    (h : kmpValueToString value siEx = .text s) : scanFloat s = some (printed value siEx) := by
  have he : ¬9 < exponent siEx := by
    rw [← kmpValueToString_refused_iff value,h]
    simp
  rw [kmpValueToString,if_neg he] at h
  simp only [intPow_eq] at h
  rw [printed,printedMagnitude,product]
  cases hf : fraction siEx with
  | false =>
    simp only [hf,Bool.false_eq_true,if_false,Rendered.text.injEq] at h ⊢
    have hpos := List.length_pos_iff.mpr
      (decimal_ne_nil (magnitude value*10^exponent siEx%2^32))
    rw [← h,scanFloat_signed (decimal_cons _) siEx (scanDigits_decimal _) hpos]
    simp
  | true =>
    simp only [hf,if_true,decimalNumberLength_eq] at h ⊢
    split at h
    · cases h
    rename_i hlen
    cases h
    obtain ⟨b,bs,hb,hdigit⟩ := decimal_cons (magnitude value/10^exponent siEx)
    have hscan := scanDigits_fixed (magnitude value) (exponent siEx) rfl (by omega)
    exact scanFloat_signed ⟨b,_,by rw [hb]; rfl,hdigit⟩ siEx hscan (by rw [hb]; simp)

theorem text_ne_nan {value : ℤ} {siEx : UInt8} {s : List UInt8}
    (h : kmpValueToString value siEx = .text s) : s ≠ ascii "NaN" := by
  rintro rfl
  have hscan := scanFloat_text h
  have hnone : scanFloat (ascii "NaN") = none := by decide
  rw [hnone] at hscan
  cases hscan

end KmpText
end MeterLogger
