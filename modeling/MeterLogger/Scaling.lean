import Mathlib.Algebra.Order.Floor.Semifield
import MeterLogger.KmpText

/-!
# Thousandths

`multiply_str_by_1000` makes liters of cubic meters: it takes the bytes in front of the decimal
point into an array of 33 bytes and adds up the first three digits behind it. A numeral comes out
as the whole part of a thousand times its number; the array is left when there are more than 32
bytes in front of the point.
-/

namespace MeterLogger
namespace Scaling

open CStrings Decimal KmpText

def resultIntStrL : ℕ := 32+1

/-- The locals of the loop, and the places of `result_int_str` that it writes. -/
structure Scan where
  decSeparator : Bool
  resultIntStr : List UInt8
  posFrac : ℕ
  resultFrac : ℕ
  writes : List ℕ

def scanByte (c : UInt8) (s : Scan) : Scan :=
  if c = 46 then { s with decSeparator := true }
  else if !s.decSeparator then
    { s with
      resultIntStr := s.resultIntStr ++ [c]
      writes := s.writes ++ [s.resultIntStr.length] }
  else
    { s with
      resultFrac := magnitude (s.resultFrac+((c.toNat : ℤ)-48)*intPow 10 (2-s.posFrac))
      posFrac := s.posFrac+1 }

def scanLoop : List UInt8 → Scan → Scan
  | [], s => s
  | c::cs, s => if s.posFrac < 3 then scanLoop cs (scanByte c s) else s

def scan (str : List UInt8) : Scan := scanLoop str ⟨false,[],0,0,[]⟩

/-- The text that is written to `decimal_str`, with its NUL, and the places of `result_int_str`
that are written. The product wraps around. -/
structure Scaled where
  decimalStr : List UInt8
  writes : List ℕ

def multiplyStrBy1000 (str : List UInt8) : Scaled :=
  let s := scan str
  let resultInt := magnitude (1000*atoi s.resultIntStr)
  { decimalStr := (decimal ((resultInt+s.resultFrac)%2^32)).take (11-1) ++ [0]
    writes := s.writes ++ [s.resultIntStr.length] }

/-- Digits, and perhaps a point with digits behind it. -/
structure Numeral (str whole frac : List UInt8) : Prop where
  digits : ∀ b ∈ whole ++ frac, isDigit b = true
  eq : str = whole ++ if frac = [] then [] else 46::frac

def value (whole frac : List UInt8) : ℚ := (readDigits 0 (whole ++ frac) : ℚ)/10^frac.length

/-- What callers pass: the text of a message, or the shorter value of a meter. -/
def Admitted (str : List UInt8) : Prop := 0 ∉ str ∧ str.length < 512

/-- A numeral of at most 31 digits before the point, for a number below 2^32 thousandths, gives the
whole thousandths; and the writes stay in `result_int_str` and in eleven bytes of the result. -/
structure Exact (str : List UInt8) : Prop where
  scaled : ∀ whole frac, Numeral str whole frac → whole ≠ [] → whole.length ≤ 31 →
    1000*value whole frac < 2^32 →
    (multiplyStrBy1000 str).decimalStr = decimal ⌊1000*value whole frac⌋₊ ++ [0]
  inside : ∀ i ∈ (multiplyStrBy1000 str).writes, i < resultIntStrL
  result : (multiplyStrBy1000 str).decimalStr.length ≤ 11

section Loop

variable {s : Scan} {whole frac rest : List UInt8}

theorem scanLoop_whole (h : 46 ∉ whole) (hsep : s.decSeparator = false) (hpos : s.posFrac = 0)
    (rest : List UInt8) : scanLoop (whole ++ rest) s = scanLoop rest
      { s with
        resultIntStr := s.resultIntStr ++ whole
        writes := s.writes ++ List.range' s.resultIntStr.length whole.length } := by
  induction whole generalizing s with
  | nil => simp
  | cons c whole ih =>
    rw [List.mem_cons,not_or] at h
    have hbyte : scanByte c s = { s with
        resultIntStr := s.resultIntStr ++ [c]
        writes := s.writes ++ [s.resultIntStr.length] } := by
      rw [scanByte,if_neg (Ne.symm h.1),if_pos (by rw [hsep]; rfl)]
    rw [List.cons_append,scanLoop,if_pos (by rw [hpos]; decide),hbyte,
      ih (s := { s with
        resultIntStr := s.resultIntStr ++ [c]
        writes := s.writes ++ [s.resultIntStr.length] }) h.2 hsep hpos]
    simp [List.range'_succ]

theorem scanLoop_separated (hsep : s.decSeparator = true) (cs : List UInt8) :
    (scanLoop cs s).resultIntStr = s.resultIntStr ∧ (scanLoop cs s).writes = s.writes := by
  induction cs generalizing s with
  | nil => exact ⟨rfl,rfl⟩
  | cons c cs ih =>
    rw [scanLoop]
    split
    · rw [scanByte]
      split
      · exact ih rfl
      · rw [if_neg (by rw [hsep]; decide)]
        exact ih hsep
    · exact ⟨rfl,rfl⟩

theorem readDigits_lt (h : ∀ b ∈ frac, isDigit b = true) : readDigits 0 frac < 10^frac.length := by
  induction frac with
  | nil => exact Nat.one_pos
  | cons b frac ih =>
    obtain ⟨_,hle⟩ := isDigit_bounds (h b List.mem_cons_self)
    have hlt := ih fun c hc => h c (List.mem_cons_of_mem _ hc)
    have hcons : readDigits 0 (b::frac) = readDigits (b.toNat-48) frac := by
      rw [readDigits,List.foldl_cons,Nat.zero_mul,Nat.zero_add,readDigits]
    rw [hcons,readDigits_shift,List.length_cons,Nat.pow_succ]
    have hmul := Nat.mul_le_mul_right (10^frac.length) (show b.toNat-48 ≤ 9 by omega)
    omega

theorem scanLoop_frac (h : ∀ b ∈ frac, isDigit b = true) (hsep : s.decSeparator = true)
    (hpos : s.posFrac ≤ 3) (hfrac : s.resultFrac+10^(3-s.posFrac) ≤ 1000) :
    (scanLoop frac s).resultFrac =
      s.resultFrac+10^(3-s.posFrac)*readDigits 0 frac/10^frac.length := by
  induction frac generalizing s with
  | nil => simp [scanLoop,readDigits]
  | cons b frac ih =>
    have hdigits : ∀ c ∈ frac, isDigit c = true := fun c hc => h c (List.mem_cons_of_mem _ hc)
    obtain ⟨hge,hle⟩ := isDigit_bounds (h b List.mem_cons_self)
    have hpoint : b ≠ 46 := by
      rintro rfl
      exact absurd hge (by decide)
    rw [scanLoop]
    split
    · rename_i hlt
      obtain ⟨q,hq⟩ : ∃ q, 3-s.posFrac = q+1 := ⟨2-s.posFrac,by omega⟩
      have hexp : 2-s.posFrac = q := by omega
      have hnext : 3-(s.posFrac+1) = q := by omega
      rw [hq,Nat.pow_succ] at hfrac
      have hdigit := Nat.mul_le_mul_right (10^q) (show b.toNat-48 ≤ 9 by omega)
      have hsum : magnitude (s.resultFrac+((b.toNat : ℤ)-48)*intPow 10 (2-s.posFrac)) =
          s.resultFrac+(b.toNat-48)*10^q := by
        rw [hexp,intPow_eq,magnitude]
        have hcast : (s.resultFrac : ℤ)+((b.toNat : ℤ)-48)*((10^q : ℕ) : ℤ) =
            ((s.resultFrac+(b.toNat-48)*10^q : ℕ) : ℤ) := by
          push_cast [Nat.cast_sub hge]
          ring
        rw [hcast]
        omega
      have hbyte : scanByte b s = { s with
          resultFrac := s.resultFrac+(b.toNat-48)*10^q
          posFrac := s.posFrac+1 } := by
        rw [scanByte,if_neg hpoint,if_neg (by rw [hsep]; decide),hsum]
      rw [hbyte,ih (s := { s with
          resultFrac := s.resultFrac+(b.toNat-48)*10^q
          posFrac := s.posFrac+1 }) hdigits hsep hlt (by dsimp only; rw [hnext]; omega)]
      dsimp only
      have hcons : readDigits 0 (b::frac) = (b.toNat-48)*10^frac.length+readDigits 0 frac := by
        rw [← readDigits_shift,readDigits,List.foldl_cons,Nat.zero_mul,Nat.zero_add,readDigits]
      have hscaled : 10^(q+1)*readDigits 0 (b::frac) =
          10*(10^q*readDigits 0 frac+(b.toNat-48)*10^q*10^frac.length) := by
        rw [hcons]
        ring
      rw [hnext,hq,hscaled,List.length_cons,Nat.pow_succ',Nat.mul_div_mul_left _ _ (by decide),
        Nat.add_mul_div_right _ _ (Nat.pow_pos (by decide))]
      omega
    · rename_i hend
      have hzero := readDigits_lt h
      have hp : 3-s.posFrac = 0 := by omega
      rw [hp,Nat.pow_zero,Nat.one_mul,Nat.div_eq_of_lt hzero,Nat.add_zero]

end Loop

theorem scan_before {pre rest : List UInt8} (h : 46 ∉ pre) (hrest : rest = [] ∨ rest.head? = some 46) :
    (scan (pre ++ rest)).resultIntStr = pre ∧
      (scan (pre ++ rest)).writes = List.range' 0 pre.length := by
  rw [scan,scanLoop_whole h rfl rfl]
  cases rest with
  | nil => exact ⟨rfl,rfl⟩
  | cons c rest =>
    have hpoint : c = 46 := by simpa using hrest
    rw [scanLoop,if_pos (show (0 : ℕ) < 3 by decide),scanByte,if_pos hpoint]
    exact scanLoop_separated rfl rest

theorem takeWhile_until {p : UInt8 → Bool} {pre rest : List UInt8} (h : ∀ b ∈ pre, p b = true)
    (hpoint : p 46 = false) (hrest : rest = [] ∨ rest.head? = some 46) :
    (pre ++ rest).takeWhile p = pre := by
  rw [List.takeWhile_append_of_pos h]
  cases rest with
  | nil => exact List.append_nil pre
  | cons c rest =>
    have hc : c = 46 := by simpa using hrest
    rw [hc,List.takeWhile_cons_of_neg (by rw [hpoint]; decide),List.append_nil]

theorem takeWhile_before {pre rest : List UInt8} (h : 46 ∉ pre)
    (hrest : rest = [] ∨ rest.head? = some 46) : (pre ++ rest).takeWhile (· ≠ 46) = pre := by
  refine takeWhile_until (fun b hb => ?_) rfl hrest
  rw [decide_eq_true_eq]
  rintro rfl
  exact h hb

/-- The places written are those of the bytes before the point, and of the NUL. -/
theorem writes_eq (str : List UInt8) :
    (multiplyStrBy1000 str).writes = List.range' 0 ((str.takeWhile (· ≠ 46)).length+1) := by
  obtain ⟨pre,rest,rfl,hpre,hrest⟩ : ∃ pre rest, str = pre ++ rest ∧ 46 ∉ pre ∧
      (rest = [] ∨ rest.head? = some 46) := by
    by_cases h : 46 ∈ str
    · obtain ⟨pre,rest,rfl,hpre⟩ := List.eq_append_cons_of_mem h
      exact ⟨pre,46::rest,rfl,hpre,Or.inr rfl⟩
    · exact ⟨str,[],(List.append_nil str).symm,h,Or.inl rfl⟩
  obtain ⟨hint,hwrites⟩ := scan_before hpre hrest
  rw [multiplyStrBy1000,takeWhile_before hpre hrest]
  dsimp only
  rw [hint,hwrites,List.range'_concat]
  simp

theorem decimalStr_length (str : List UInt8) : (multiplyStrBy1000 str).decimalStr.length ≤ 11 := by
  simp [multiplyStrBy1000]

section Numerals

variable {str whole frac : List UInt8}

theorem scan_numeral (h : Numeral str whole frac) :
    (scan str).resultIntStr = whole ∧
      (scan str).resultFrac = 1000*readDigits 0 frac/10^frac.length := by
  have hpoint : 46 ∉ whole := by
    intro hmem
    have hdigit := h.digits 46 (List.mem_append_left _ hmem)
    exact absurd hdigit (by decide)
  have hfrac : ∀ b ∈ frac, isDigit b = true := fun b hb => h.digits b (List.mem_append_right _ hb)
  rw [scan,h.eq,scanLoop_whole hpoint rfl rfl]
  by_cases hnil : frac = []
  · subst hnil
    exact ⟨rfl,rfl⟩
  · rw [if_neg hnil,scanLoop,if_pos (show (0 : ℕ) < 3 by decide),scanByte,if_pos rfl]
    refine ⟨(scanLoop_separated rfl frac).1,?_⟩
    rw [scanLoop_frac hfrac rfl (Nat.zero_le 3) (by norm_num)]
    exact Nat.zero_add _

theorem floor_value (whole frac : List UInt8) : ⌊1000*value whole frac⌋₊ =
    1000*readDigits 0 whole+1000*readDigits 0 frac/10^frac.length := by
  have hpos : 0 < 10^frac.length := Nat.pow_pos (by decide)
  have hcast : 1000*value whole frac =
      ((1000*readDigits 0 (whole ++ frac) : ℕ) : ℚ)/((10^frac.length : ℕ) : ℚ) := by
    rw [value]
    push_cast
    ring
  have hsplit : 1000*readDigits 0 (whole ++ frac) =
      1000*readDigits 0 frac+1000*readDigits 0 whole*10^frac.length := by
    rw [readDigits_append,readDigits_shift]
    ring
  rw [hcast,Nat.floor_div_eq_div,hsplit,Nat.add_mul_div_right _ _ hpos,Nat.add_comm]

theorem atoi_small {text : List UInt8} {n : ℕ} (h : IsNumeral text n) (hn : 1000*n < 2^32) :
    atoi text = n ∧ magnitude (1000*(n : ℤ)) = 1000*n := by
  constructor
  · rw [atoi_numeral h]
    exact min_eq_right (by omega)
  · rw [magnitude,Int.emod_eq_of_lt (by omega) (by omega)]
    rfl

theorem multiplyStrBy1000_numeral (h : Numeral str whole frac) (hne : whole ≠ [])
    (hlt : 1000*value whole frac < 2^32) :
    (multiplyStrBy1000 str).decimalStr = decimal ⌊1000*value whole frac⌋₊ ++ [0] := by
  obtain ⟨hint,hfrac⟩ := scan_numeral h
  have hnonneg : 0 ≤ 1000*value whole frac := by
    rw [value]
    positivity
  have hfloor : ⌊1000*value whole frac⌋₊ < 2^32 := by
    rw [Nat.floor_lt hnonneg]
    exact_mod_cast hlt
  rw [floor_value] at hfloor ⊢
  have hwhole : IsNumeral whole (readDigits 0 whole) :=
    ⟨hne,fun b hb => h.digits b (List.mem_append_left _ hb),rfl⟩
  obtain ⟨hatoi,hproduct⟩ := atoi_small hwhole (Nat.lt_of_le_of_lt (Nat.le_add_right _ _) hfloor)
  have hshort := decimal_length_le (Nat.lt_trans hfloor (show 2^32 < 10^10 by decide)) (by decide)
  rw [multiplyStrBy1000]
  dsimp only
  rw [hint,hfrac,hatoi,hproduct,Nat.mod_eq_of_lt hfloor,List.take_of_length_le hshort]

end Numerals

theorem inside_iff (str : List UInt8) :
    (∀ i ∈ (multiplyStrBy1000 str).writes, i < resultIntStrL) ↔
      (str.takeWhile (· ≠ 46)).length ≤ 32 := by
  rw [writes_eq,resultIntStrL]
  constructor
  · intro h
    have hlast := h (str.takeWhile (· ≠ 46)).length (by simp)
    omega
  · intro hle i hi
    rw [List.mem_range'_1] at hi
    omega

/-- The function is exact and stays in its array if and only if no more than 32 bytes stand in
front of the point. -/
theorem exact_iff (str : List UInt8) : Exact str ↔ (str.takeWhile (· ≠ 46)).length ≤ 32 :=
  ⟨fun h => (inside_iff str).mp h.inside,fun hle =>
    ⟨fun _ _ hnum hne _ hlt => multiplyStrBy1000_numeral hnum hne hlt,(inside_iff str).mpr hle,
      decimalStr_length str⟩⟩

/-- Thirty-three zeros. -/
theorem zeros_overrun : ¬∀ str, Admitted str → Exact str := by
  intro h
  have hinside := (h (List.replicate 33 48) ⟨by decide,by decide⟩).inside
  rw [inside_iff] at hinside
  exact absurd hinside (by decide)

end Scaling
end MeterLogger
