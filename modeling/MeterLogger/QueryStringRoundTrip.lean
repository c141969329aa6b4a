import Mathlib.Tactic.Ring
import MeterLogger.Codes
import MeterLogger.QueryString

/-!
# Escaped query strings

The two functions as they work in their buffer. Escaping does not write a percent sign as a code,
so a text that contains a code is not read back; and a string that does not fit is left as it was
only when there is no room for the first code.
-/

namespace MeterLogger
namespace QueryString

open Codes CStrings

/-- What `query_string_escape` returns, and what it leaves in the buffer. -/
structure Escaped where
  ret : ℤ
  str : List UInt8
  deriving DecidableEq

/-- One loop of `query_string_escape`: `done` stands in front of `p` and the string goes on with
the bytes of the list. -/
def escapeLoop (size : ℕ) (c : UInt8) (code : List UInt8) :
    List UInt8 → List UInt8 → ℕ → Escaped
  | done, [], len => ⟨len,done⟩
  | done, b::bs, len =>
    if b = c then
      if size ≤ len+2 then ⟨-1,done ++ b::bs⟩
      else escapeLoop size c code (done ++ code) bs (len+2)
    else escapeLoop size c code (done ++ [b]) bs len

def queryStringEscapeBuffer (size : ℕ) (str : List UInt8) : Escaped :=
  let r := escapeLoop size 0x26 (ascii "%26") [] str str.length
  if r.ret < 0 then r else escapeLoop size 0x3d (ascii "%3D") [] r.str r.ret.toNat

/-- One loop of `query_string_unescape`, with the length that it counts. -/
def unescapeLoop (x y c : UInt8) : List UInt8 → ℤ → List UInt8 × ℤ
  | b₁::b₂::b₃::bs, len =>
    if b₁ = 0x25 ∧ b₂ = x ∧ b₃ = y then
      let r := unescapeLoop x y c bs (len-2)
      (c::r.1,r.2)
    else
      let r := unescapeLoop x y c (b₂::b₃::bs) len
      (b₁::r.1,r.2)
  | bs, len => (bs,len)

def queryStringUnescapeBuffer (str : List UInt8) : List UInt8 × ℤ :=
  let r := unescapeLoop 0x32 0x36 0x26 str str.length
  let r := unescapeLoop 0x33 0x64 0x3d r.1 r.1.length
  unescapeLoop 0x33 0x44 0x3d r.1 r.1.length

/-- What is escaped in a buffer of `size` bytes is read back, and what does not fit is left. -/
structure Reversible (size : ℕ) (str : List UInt8) : Prop where
  fits : (escape str).length < size →
    ∃ out, queryStringEscapeBuffer size str = ⟨out.length,out⟩ ∧ 0x26 ∉ out ∧ 0x3d ∉ out ∧
      queryStringUnescapeBuffer out = (str,(str.length : ℤ))
  unfit : size ≤ (escape str).length → queryStringEscapeBuffer size str = ⟨-1,str⟩

/-- None of the codes stands in the string. -/
def CodeFree (str : List UInt8) : Prop :=
  ¬ascii "%26" <:+: str ∧ ¬ascii "%3d" <:+: str ∧ ¬ascii "%3D" <:+: str

section Escaping

variable {size len : ℕ} {c : UInt8} {code done rest str : List UInt8}

theorem replaceByte_cons_eq (c : UInt8) (code bs : List UInt8) :
    replaceByte c code (c::bs) = code ++ replaceByte c code bs := by
  rw [replaceByte,List.flatMap_cons,if_pos rfl,replaceByte]

theorem replaceByte_cons_ne {b : UInt8} (h : b ≠ c) (code bs : List UInt8) :
    replaceByte c code (b::bs) = b::replaceByte c code bs := by
  rw [replaceByte,List.flatMap_cons,if_neg h,List.singleton_append,replaceByte]

theorem replaceByte_of_not_mem (h : c ∉ str) (code : List UInt8) : replaceByte c code str = str := by
  induction str with
  | nil => rfl
  | cons b bs ih =>
    rw [List.mem_cons,not_or] at h
    rw [replaceByte_cons_ne (Ne.symm h.1),ih h.2]

/-- A loop either goes to the end, and then all codes have fitted, or it gives up where the next
code does not fit. -/
theorem escapeLoop_spec (hcode : code.length = 3) (hlen : len = done.length+rest.length) :
    ((c ∉ rest ∨ (done ++ replaceByte c code rest).length < size) ∧
      escapeLoop size c code done rest len =
        ⟨(done ++ replaceByte c code rest).length,done ++ replaceByte c code rest⟩) ∨
    c ∈ rest ∧ size ≤ (done ++ replaceByte c code rest).length ∧
      ∃ str, escapeLoop size c code done rest len = ⟨-1,str⟩ ∧ size ≤ str.length+2 ∧
        (size ≤ len+2 → str = done ++ rest) := by
  induction rest generalizing done len with
  | nil =>
    refine Or.inl ⟨Or.inl List.not_mem_nil,?_⟩
    rw [replaceByte,List.flatMap_nil,List.append_nil,escapeLoop,hlen,List.length_nil,Nat.add_zero]
  | cons b bs ih =>
    rw [List.length_cons] at hlen
    by_cases hb : b = c
    · subst hb
      rw [escapeLoop,if_pos rfl,replaceByte_cons_eq,← List.append_assoc]
      have hle := replaceByte_length_le b code bs (by rw [← List.length_pos_iff]; omega)
      by_cases hsize : size ≤ len+2
      · rw [if_pos hsize]
        refine Or.inr ⟨List.mem_cons_self,?_,_,rfl,?_,fun _ => rfl⟩
        · rw [List.length_append,List.length_append]
          omega
        · rw [List.length_append,List.length_cons]
          omega
      · rw [if_neg hsize]
        have hgrown : len+2 = (done ++ code).length+bs.length := by
          rw [List.length_append]
          omega
        rcases ih hgrown with ⟨hfit,heq⟩ | ⟨_,hunfit,str,heq,hstr,_⟩
        · refine Or.inl ⟨Or.inr ?_,heq⟩
          rcases hfit with hnone | hfit
          · rw [replaceByte_of_not_mem hnone,List.length_append,List.length_append]
            omega
          · exact hfit
        · exact Or.inr ⟨List.mem_cons_self,hunfit,str,heq,hstr,fun hno => absurd hno hsize⟩
    · rw [escapeLoop,if_neg hb,replaceByte_cons_ne hb]
      have hmem : c ∈ b::bs ↔ c ∈ bs := by
        rw [List.mem_cons]
        exact or_iff_right (Ne.symm hb)
      rw [List.append_cons done b bs,List.append_cons done b (replaceByte c code bs),hmem]
      exact ih (by rw [List.length_append,List.length_singleton]; omega)

theorem escapeLoop_whole (hcode : code.length = 3) (size : ℕ) (c : UInt8) (str : List UInt8) :
    ((c ∉ str ∨ (replaceByte c code str).length < size) ∧
      escapeLoop size c code [] str str.length =
        ⟨(replaceByte c code str).length,replaceByte c code str⟩) ∨
    c ∈ str ∧ size ≤ (replaceByte c code str).length ∧
      ∃ out, escapeLoop size c code [] str str.length = ⟨-1,out⟩ ∧ size ≤ out.length+2 ∧
        (size ≤ str.length+2 → out = str) :=
  @escapeLoop_spec size str.length c code [] str hcode (by simp)

/-- The escaped string has all the bytes of the string with its ampersands escaped. -/
theorem amp_length_le (str : List UInt8) :
    (replaceByte 0x26 (ascii "%26") str).length ≤ (escape str).length := by
  rw [← replaceByte_escape]
  exact replaceByte_length_le _ _ _ (by decide)

theorem replaceByte_length_add (h : c ∈ str) (code : List UInt8) (hcode : code ≠ []) :
    str.length+code.length ≤ (replaceByte c code str).length+1 := by
  obtain ⟨pre,post,rfl⟩ := List.append_of_mem h
  have hpre := replaceByte_length_le c code pre hcode
  have hpost := replaceByte_length_le c code post hcode
  have hsplit : replaceByte c code (pre ++ c::post) =
      replaceByte c code pre ++ (code ++ replaceByte c code post) := by
    rw [← replaceByte_cons_eq,replaceByte,List.flatMap_append,replaceByte,replaceByte]
  rw [hsplit,List.length_append,List.length_append,List.length_append,List.length_cons]
  omega

theorem mem_replaceByte_amp : 0x3d ∈ replaceByte 0x26 (ascii "%26") str ↔ 0x3d ∈ str := by
  induction str with
  | nil => exact Iff.rfl
  | cons b bs ih =>
    by_cases hb : b = 0x26
    · subst hb
      rw [replaceByte_cons_eq,List.mem_append,ih,List.mem_cons]
      exact or_congr (iff_of_false (by decide) (by decide)) Iff.rfl
    · rw [replaceByte_cons_ne hb,List.mem_cons,List.mem_cons,ih]

/-- A string without separators is left as it is; otherwise it is escaped if it fits, and if not
the first code that does not fit ends the loops. -/
theorem queryStringEscapeBuffer_cases (size : ℕ) (str : List UInt8) :
    ((0x26 ∈ str ∨ 0x3d ∈ str → (escape str).length < size) ∧
      queryStringEscapeBuffer size str = ⟨(escape str).length,escape str⟩) ∨
    (0x26 ∈ str ∨ 0x3d ∈ str) ∧ size ≤ (escape str).length ∧
      ∃ out, queryStringEscapeBuffer size str = ⟨-1,out⟩ ∧ size ≤ out.length+2 ∧
        (size ≤ str.length+2 → out = str) := by
  have hall := replaceByte_escape str
  have hamp := amp_length_le str
  have hamps : (ascii "%26").length = 3 := rfl
  have hequals : (ascii "%3D").length = 3 := rfl
  rcases escapeLoop_whole hamps size 0x26 str with ⟨hfit,heq⟩ | ⟨hmem,hunfit,out,heq,hout,hkept⟩
  · have hsecond : queryStringEscapeBuffer size str =
        escapeLoop size 0x3d (ascii "%3D") [] (replaceByte 0x26 (ascii "%26") str)
          (replaceByte 0x26 (ascii "%26") str).length := by
      rw [queryStringEscapeBuffer,heq]
      dsimp only
      rw [if_neg (by omega),Int.toNat_natCast]
    rw [hsecond]
    rcases escapeLoop_whole hequals size 0x3d (replaceByte 0x26 (ascii "%26") str) with
      ⟨hfit',heq'⟩ | ⟨hmem,hunfit,out,heq',hout,hkept⟩
    · rw [hall] at hfit' heq'
      refine Or.inl ⟨fun hmem => ?_,heq'⟩
      rcases hfit' with hnone | hlt'
      · rw [← hall,replaceByte_of_not_mem hnone]
        rw [mem_replaceByte_amp] at hnone
        exact hfit.resolve_left (not_not.mpr (hmem.resolve_right hnone))
      · exact hlt'
    · rw [hall] at hunfit
      refine Or.inr ⟨Or.inr (mem_replaceByte_amp.mp hmem),hunfit,out,heq',hout,fun hsize => ?_⟩
      have hnone : 0x26 ∉ str := by
        intro h
        have hlen := hfit.resolve_left (not_not.mpr h)
        have hgrow := replaceByte_length_add h (ascii "%26") (by decide)
        omega
      rw [replaceByte_of_not_mem hnone] at hkept
      exact hkept hsize
  · refine Or.inr ⟨Or.inl hmem,hunfit.trans hamp,out,?_,hout,hkept⟩
    rw [queryStringEscapeBuffer,heq]
    rfl

theorem escapeByte_loop (hcode : code.length = 3) (size : ℕ) (c : UInt8) (str : List UInt8) :
    escapeByte size c code str =
      let r := escapeLoop size c code [] str str.length
      if r.ret < 0 then none else some r.str := by
  rcases escapeLoop_whole hcode size c str with ⟨hfit,heq⟩ | ⟨hmem,hunfit,out,heq,_,_⟩
  · rw [heq]
    dsimp only
    rw [if_neg (by omega),escapeByte,if_neg]
    rintro ⟨hmem,hle⟩
    have hlt := hfit.resolve_left (not_not.mpr hmem)
    omega
  · rw [heq,escapeByte,if_pos ⟨hmem,hunfit⟩]
    rfl

/-- What is left in the buffer is the escaped string, unless the function gives up. -/
theorem queryStringEscape_buffer (size : ℕ) (str : List UInt8) :
    queryStringEscape size str =
      let r := queryStringEscapeBuffer size str
      if r.ret < 0 then none else some r.str := by
  have hamps : (ascii "%26").length = 3 := rfl
  rw [queryStringEscape,escapeByte_loop hamps,queryStringEscapeBuffer]
  dsimp only
  rcases escapeLoop_whole hamps size 0x26 str with ⟨_,heq⟩ | ⟨_,_,out,heq,_,_⟩
  · rw [heq]
    dsimp only
    have hnonneg : ¬((replaceByte 0x26 (ascii "%26") str).length : ℤ) < 0 := by omega
    rw [if_neg hnonneg,if_neg hnonneg,Int.toNat_natCast,Option.bind_some]
    exact escapeByte_loop (show (ascii "%3D").length = 3 from rfl) size 0x3d _
  · rw [heq]
    rfl

end Escaping

section Reading

variable {x y c : UInt8} {str : List UInt8}

theorem unescapeLoop_eq (x y c : UInt8) (str : List UInt8) (len : ℤ) :
    unescapeLoop x y c str len =
      (unescapeByte x y c str,len-str.length+(unescapeByte x y c str).length) := by
  fun_induction unescapeByte x y c str generalizing len with
  | case1 b₁ b₂ b₃ bs h ih =>
    rw [unescapeLoop,if_pos h,ih]
    refine Prod.ext rfl ?_
    push_cast [List.length_cons]
    ring
  | case2 b₁ b₂ b₃ bs h ih =>
    rw [unescapeLoop,if_neg h,ih]
    refine Prod.ext rfl ?_
    push_cast [List.length_cons]
    ring
  | case3 bs h =>
    have hid : unescapeLoop x y c bs len = (bs,len) := by
      rcases bs with _ | ⟨b₁,_ | ⟨b₂,_ | ⟨b₃,bs⟩⟩⟩
      · rfl
      · rfl
      · rfl
      · exact absurd rfl (h b₁ b₂ b₃ bs)
    rw [hid]
    refine Prod.ext rfl ?_
    dsimp only
    ring

theorem queryStringUnescapeBuffer_eq (str : List UInt8) : queryStringUnescapeBuffer str =
    (queryStringUnescape str,((queryStringUnescape str).length : ℤ)) := by
  rw [queryStringUnescapeBuffer,unescapeLoop_eq,unescapeLoop_eq,unescapeLoop_eq,queryStringUnescape]
  refine Prod.ext rfl ?_
  ring

def codes : Table UInt8 :=
  both (both (single 0x32 0x36 0x26) (single 0x33 0x64 0x3d)) (single 0x33 0x44 0x3d)

theorem codes_eq_some {b : UInt8} (h : codes x y = some b) :
    (x = 0x32 ∧ y = 0x36) ∧ b = 0x26 ∨ (x = 0x33 ∧ y = 0x64) ∧ b = 0x3d ∨
      (x = 0x33 ∧ y = 0x44) ∧ b = 0x3d := by
  simp only [codes,both,single,Option.or_eq_some_iff,Option.ite_none_right_eq_some,
    Option.some.injEq] at h
  grind

theorem unescapeByte_decode (x y c : UInt8) (str : List UInt8) :
    unescapeByte x y c str = decode 0x25 (single x y c) str := by
  fun_induction unescapeByte x y c str with
  | case1 b₁ b₂ b₃ bs h ih =>
    obtain ⟨rfl,rfl,rfl⟩ := h
    rw [ih]
    exact (decode_code (if_pos ⟨rfl,rfl⟩)).symm
  | case2 b₁ b₂ b₃ bs h ih =>
    rw [ih]
    by_cases hb : b₁ = 0x25
    · rw [hb]
      refine (decode_marker fun u v r heq => ?_).symm
      rw [List.cons.injEq,List.cons.injEq] at heq
      obtain ⟨rfl,rfl,_⟩ := heq
      exact if_neg fun huv => h ⟨hb,huv⟩
    · exact (decode_letter hb).symm
  | case3 bs h =>
    rcases bs with _ | ⟨b₁,_ | ⟨b₂,_ | ⟨b₃,bs⟩⟩⟩
    · rfl
    · rfl
    · rfl
    · exact absurd rfl (h b₁ b₂ b₃ bs)

theorem letters_codes : Letters 0x25 codes := by
  intro x y hsome
  obtain ⟨b,hb⟩ := Option.isSome_iff_exists.mp hsome
  rcases codes_eq_some hb with ⟨⟨rfl,rfl⟩,_⟩ | ⟨⟨rfl,rfl⟩,_⟩ | ⟨⟨rfl,rfl⟩,_⟩ <;> decide

theorem queryStringUnescape_decode (str : List UInt8) :
    queryStringUnescape str = decode 0x25 codes str := by
  have hfirst : decode 0x25 (single 0x33 0x64 0x3d) (decode 0x25 (single 0x32 0x36 0x26) str) =
      decode 0x25 (both (single 0x32 0x36 0x26) (single 0x33 0x64 0x3d)) str := by
    refine decode_decode (letters_single (by decide) (by decide)) ?_ str
    intro x y b hb
    obtain ⟨_,hsome⟩ := Option.ite_none_right_eq_some.mp hb
    obtain rfl := Option.some.inj hsome
    exact ⟨by decide,single_none (by decide) (by decide)⟩
  rw [queryStringUnescape,unescapeByte_decode,unescapeByte_decode,unescapeByte_decode,hfirst]
  refine decode_decode (letters_single (by decide) (by decide)) ?_ str
  intro x y b hb
  rcases codes_eq_some (b := b) (show codes x y = some b by rw [codes,both,hb,Option.some_or]) with
    ⟨_,rfl⟩ | ⟨_,rfl⟩ | ⟨_,rfl⟩
  · exact ⟨by decide,single_none (by decide) (by decide)⟩
  · exact ⟨by decide,single_none (by decide) (by decide)⟩
  · exact ⟨by decide,single_none (by decide) (by decide)⟩

theorem writes_code : Writes 0x25 codes code where
  cases b := by
    rcases code_cases b with ⟨rfl,hcode⟩ | ⟨rfl,hcode⟩ | ⟨_,_,hcode⟩
    · exact Or.inr ⟨_,_,hcode,rfl⟩
    · exact Or.inr ⟨_,_,hcode,rfl⟩
    · exact Or.inl hcode
  marker := rfl
  letters x y hsome := by
    obtain ⟨b,hb⟩ := Option.isSome_iff_exists.mp hsome
    rcases codes_eq_some hb with ⟨⟨rfl,rfl⟩,_⟩ | ⟨⟨rfl,rfl⟩,_⟩ | ⟨⟨rfl,rfl⟩,_⟩ <;> exact ⟨rfl,rfl⟩

theorem codeFree_iff (str : List UInt8) : CodeFree str ↔ Free 0x25 codes str := by
  constructor
  · rintro ⟨hamp,hlower,hupper⟩ x y hsome
    obtain ⟨b,hb⟩ := Option.isSome_iff_exists.mp hsome
    rcases codes_eq_some hb with ⟨⟨rfl,rfl⟩,_⟩ | ⟨⟨rfl,rfl⟩,_⟩ | ⟨⟨rfl,rfl⟩,_⟩
    · exact hamp
    · exact hlower
    · exact hupper
  · intro h
    exact ⟨h 0x32 0x36 rfl,h 0x33 0x64 rfl,h 0x33 0x44 rfl⟩

/-- Reading an escaped string is reading the string itself, which only changes codes. -/
theorem unescape_escape_iff (str : List UInt8) :
    queryStringUnescape (escape str) = str ↔ CodeFree str := by
  rw [queryStringUnescape_decode,escape,decode_write letters_codes writes_code,
    decode_eq_self_iff,codeFree_iff]

end Reading

/-- Escaping is reversible if and only if a string that fits has no code in it, and one that does
not fit has a separator and no room for its first code. -/
theorem reversible_iff (size : ℕ) (str : List UInt8) : Reversible size str ↔
    ((escape str).length < size → CodeFree str) ∧
      (size ≤ (escape str).length → (0x26 ∈ str ∨ 0x3d ∈ str) ∧ size ≤ str.length+2) := by
  have hfree : 0x26 ∉ escape str ∧ 0x3d ∉ escape str :=
    ⟨fun h => (escape_free h).1 rfl,fun h => (escape_free h).2 rfl⟩
  constructor
  · intro h
    refine ⟨fun hlt => ?_,fun hle => ?_⟩
    · obtain ⟨out,hout,_,_,hback⟩ := h.fits hlt
      rcases queryStringEscapeBuffer_cases size str with ⟨_,heq⟩ | ⟨_,hle,_⟩
      · rw [← unescape_escape_iff,← (Escaped.mk.inj (heq.symm.trans hout)).2] at *
        rw [queryStringUnescapeBuffer_eq] at hback
        exact (Prod.mk.inj hback).1
      · omega
    · have hkept := h.unfit hle
      rcases queryStringEscapeBuffer_cases size str with ⟨_,heq⟩ | ⟨hmem,_,out,heq,hout,_⟩
      · have hret := (Escaped.mk.inj (heq.symm.trans hkept)).1
        omega
      · rw [(Escaped.mk.inj (heq.symm.trans hkept)).2] at hout
        exact ⟨hmem,hout⟩
  · rintro ⟨hfit,hunfit⟩
    refine ⟨fun hlt => ?_,fun hle => ?_⟩
    · rcases queryStringEscapeBuffer_cases size str with ⟨_,heq⟩ | ⟨_,hle,_⟩
      · refine ⟨_,heq,hfree.1,hfree.2,?_⟩
        rw [queryStringUnescapeBuffer_eq,(unescape_escape_iff str).mpr (hfit hlt)]
      · omega
    · obtain ⟨hmem,hsize⟩ := hunfit hle
      rcases queryStringEscapeBuffer_cases size str with ⟨hlt,_⟩ | ⟨_,_,out,heq,_,hkept⟩
      · have := hlt hmem
        omega
      · rw [heq,hkept hsize]

/-- What an access point may be called. -/
theorem percent_lost : ¬∀ (size : ℕ) (str : List UInt8), 0 ∉ str → str.length < size →
    Reversible size str := by
  intro h
  obtain ⟨out,hout,_,_,hback⟩ := (h 512 (ascii "%26") (by decide) (by decide)).fits
    (by decide)
  have heq : queryStringEscapeBuffer 512 (ascii "%26") = ⟨3,ascii "%26"⟩ := by decide
  have hread : queryStringUnescapeBuffer (ascii "%26") = ([0x26],1) := by decide
  rw [← (Escaped.mk.inj (heq.symm.trans hout)).2,hread] at hback
  exact absurd (Prod.mk.inj hback).2 (by decide)

end QueryString
end MeterLogger
