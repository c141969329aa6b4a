import MeterLogger.CStrings

/-!
# Query strings

`query_string_escape` and `query_string_unescape`: an ampersand and an equals sign stand for
themselves in a value only when they are written as `%26` and `%3D`. What has no percent sign
comes back, and what is cut short does not.
-/

namespace MeterLogger
namespace QueryString

open CStrings

/-- Write every `c` as `code`. -/
def replaceByte (c : UInt8) (code str : List UInt8) : List UInt8 :=
  str.flatMap fun b => if b = c then code else [b]

/-- One loop of `query_string_escape`: it gives up when the buffer gets too small. -/
def escapeByte (size : ℕ) (c : UInt8) (code str : List UInt8) : Option (List UInt8) :=
  if c ∈ str ∧ size ≤ (replaceByte c code str).length then none else some (replaceByte c code str)

/-- The escaped string in its buffer of `size` bytes, if it fits. -/
def queryStringEscape (size : ℕ) (str : List UInt8) : Option (List UInt8) :=
  (escapeByte size 0x26 (ascii "%26") str).bind (escapeByte size 0x3d (ascii "%3D"))

/-- One loop of `query_string_unescape`: `%xy` stands for `c`. -/
def unescapeByte (x y c : UInt8) : List UInt8 → List UInt8
  | b₁::b₂::b₃::bs =>
    if b₁ = 0x25 ∧ b₂ = x ∧ b₃ = y then c::unescapeByte x y c bs
    else b₁::unescapeByte x y c (b₂::b₃::bs)
  | bs => bs

def queryStringUnescape (str : List UInt8) : List UInt8 :=
  unescapeByte 0x33 0x44 0x3d (unescapeByte 0x33 0x64 0x3d (unescapeByte 0x32 0x36 0x26 str))

def code (b : UInt8) : List UInt8 :=
  if b = 0x26 then [0x25,0x32,0x36] else if b = 0x3d then [0x25,0x33,0x44] else [b]

def escape (str : List UInt8) : List UInt8 := str.flatMap code

@[simp] theorem escape_nil : escape [] = [] := rfl

theorem escape_cons (b : UInt8) (bs : List UInt8) : escape (b::bs) = code b ++ escape bs := by
  simp [escape]

theorem code_cases (b : UInt8) : b = 0x26 ∧ code b = [0x25,0x32,0x36] ∨
    b = 0x3d ∧ code b = [0x25,0x33,0x44] ∨ b ≠ 0x26 ∧ b ≠ 0x3d ∧ code b = [b] := by
  by_cases h₁ : b = 0x26
  · exact Or.inl ⟨h₁,by rw [code,if_pos h₁]⟩
  · by_cases h₂ : b = 0x3d
    · exact Or.inr (Or.inl ⟨h₂,by rw [code,if_neg h₁,if_pos h₂]⟩)
    · exact Or.inr (Or.inr ⟨h₁,h₂,by rw [code,if_neg h₁,if_neg h₂]⟩)

theorem replaceByte_escape (str : List UInt8) :
    replaceByte 0x3d (ascii "%3D") (replaceByte 0x26 (ascii "%26") str) = escape str := by
  induction str with
  | nil => rfl
  | cons b bs ih =>
    rw [escape_cons,← ih]
    rcases code_cases b with ⟨rfl,hcode⟩ | ⟨rfl,hcode⟩ | ⟨h₁,h₂,hcode⟩
    · rw [hcode]
      rfl
    · rw [hcode]
      rfl
    · simp [replaceByte,h₁,h₂,hcode]

theorem length_le_escape (str : List UInt8) : str.length ≤ (escape str).length := by
  induction str with
  | nil => exact Nat.le_refl 0
  | cons b bs ih =>
    rw [escape_cons,List.length_append,List.length_cons]
    rcases code_cases b with ⟨_,hcode⟩ | ⟨_,hcode⟩ | ⟨_,_,hcode⟩ <;> rw [hcode] <;> simp <;> omega

theorem escape_length_le (str : List UInt8) : (escape str).length ≤ 3*str.length := by
  induction str with
  | nil => exact Nat.le_refl 0
  | cons b bs ih =>
    rw [escape_cons,List.length_append,List.length_cons]
    rcases code_cases b with ⟨_,hcode⟩ | ⟨_,hcode⟩ | ⟨_,_,hcode⟩ <;> rw [hcode] <;> simp <;> omega

theorem replaceByte_length_le (c : UInt8) (code str : List UInt8) (h : code ≠ []) :
    str.length ≤ (replaceByte c code str).length := by
  have hpos := List.length_pos_iff.mpr h
  induction str with
  | nil => exact Nat.le_refl 0
  | cons b bs ih =>
    rw [replaceByte,List.flatMap_cons,List.length_append,List.length_cons]
    rw [replaceByte] at ih
    split
    · omega
    · rw [List.length_singleton]
      omega

theorem queryStringEscape_eq {size : ℕ} {str : List UInt8} (h : (escape str).length < size) :
    queryStringEscape size str = some (escape str) := by
  have hall := replaceByte_escape str
  have hle := replaceByte_length_le 0x3d (ascii "%3D") (replaceByte 0x26 (ascii "%26") str) (by decide)
  rw [hall] at hle
  rw [queryStringEscape,escapeByte,if_neg (by omega),Option.bind_some,escapeByte,
    if_neg (by rw [hall]; omega),hall]

theorem escape_free {str : List UInt8} {b : UInt8} (h : b ∈ escape str) : b ≠ 0x26 ∧ b ≠ 0x3d := by
  obtain ⟨x,_,hx⟩ := List.mem_flatMap.mp h
  rcases code_cases x with ⟨_,hcode⟩ | ⟨_,hcode⟩ | ⟨h₁,h₂,hcode⟩
  · rw [hcode] at hx
    clear h
    revert b
    decide +kernel
  · rw [hcode] at hx
    clear h
    revert b
    decide +kernel
  · rw [hcode,List.mem_singleton] at hx
    rw [hx]
    exact ⟨h₁,h₂⟩

theorem unescapeByte_nul {x y c : UInt8} {str : List UInt8} (hc : c ≠ 0) (h : 0 ∉ str) :
    0 ∉ unescapeByte x y c str := by
  fun_induction unescapeByte x y c str with
  | case1 => simp_all [eq_comm]
  | case2 => simp_all
  | case3 => exact h

theorem unescape_nul {str : List UInt8} (h : 0 ∉ str) : 0 ∉ queryStringUnescape str :=
  unescapeByte_nul (by decide) (unescapeByte_nul (by decide) (unescapeByte_nul (by decide) h))

theorem escape_nul {str : List UInt8} (h : 0 ∉ str) : 0 ∉ escape str := by
  intro hmem
  obtain ⟨x,hx,hcode⟩ := List.mem_flatMap.mp hmem
  rcases code_cases x with ⟨_,heq⟩ | ⟨_,heq⟩ | ⟨_,_,heq⟩
  · rw [heq] at hcode
    exact absurd hcode (by decide)
  · rw [heq] at hcode
    exact absurd hcode (by decide)
  · rw [heq,List.mem_singleton] at hcode
    exact h (hcode ▸ hx)

section Unescape

variable {x y c b : UInt8} {bs t str : List UInt8}

theorem unescapeByte_cons (h : b ≠ 0x25) : unescapeByte x y c (b::bs) = b::unescapeByte x y c bs := by
  match bs with
  | [] => rfl
  | [_] => rfl
  | _::_::_ => rw [unescapeByte,if_neg fun hall => h hall.1]

theorem unescapeByte_code : unescapeByte x y c (0x25::x::y::bs) = c::unescapeByte x y c bs := by
  rw [unescapeByte,if_pos ⟨rfl,rfl,rfl⟩]

theorem unescapeByte_other {u v : UInt8} (h : ¬(u = x ∧ v = y)) (hu : u ≠ 0x25) (hv : v ≠ 0x25) :
    unescapeByte x y c (0x25::u::v::bs) = 0x25::u::v::unescapeByte x y c bs := by
  rw [unescapeByte,if_neg fun hall => h hall.2,unescapeByte_cons hu,unescapeByte_cons hv]

/-- The beginning of a code that is cut short. -/
def Stump (t : List UInt8) : Prop := t = [] ∨ t = [0x25] ∨ t = [0x25,0x32] ∨ t = [0x25,0x33]

theorem unescapeByte_stump (h : Stump t) : unescapeByte x y c t = t := by
  rcases h with rfl | rfl | rfl | rfl <;> rfl

theorem unescape_escape (h : 0x25 ∉ str) (ht : Stump t) :
    queryStringUnescape (escape str ++ t) = str ++ t := by
  have heach : ∀ b ≠ 0x25, ∀ rest,
      queryStringUnescape (code b ++ rest) = b::queryStringUnescape rest := by
    intro b hb rest
    rcases code_cases b with ⟨rfl,hcode⟩ | ⟨rfl,hcode⟩ | ⟨_,_,hcode⟩
    · rw [hcode,queryStringUnescape,List.cons_append,List.cons_append,List.cons_append,
        List.nil_append,unescapeByte_code,unescapeByte_cons (by decide),
        unescapeByte_cons (by decide)]
      rfl
    · rw [hcode,queryStringUnescape,List.cons_append,List.cons_append,List.cons_append,
        List.nil_append,unescapeByte_other (by decide) (by decide) (by decide),
        unescapeByte_other (by decide) (by decide) (by decide),unescapeByte_code]
      rfl
    · rw [hcode,queryStringUnescape,List.cons_append,List.nil_append,unescapeByte_cons hb,
        unescapeByte_cons hb,unescapeByte_cons hb]
      rfl
  induction str with
  | nil =>
    rw [escape_nil,List.nil_append,queryStringUnescape,unescapeByte_stump ht,unescapeByte_stump ht,
      unescapeByte_stump ht]
  | cons b bs ih =>
    rw [List.mem_cons,not_or] at h
    rw [escape_cons,List.append_assoc,heach b (Ne.symm h.1),ih h.2,List.cons_append]

theorem unescape_escape_nil (h : 0x25 ∉ str) : queryStringUnescape (escape str) = str := by
  have hall := unescape_escape h (Or.inl rfl)
  rwa [List.append_nil,List.append_nil] at hall

/-- What is left of an escaped string that is cut short: an escaped beginning and a stump. -/
theorem take_escape {k : ℕ} (h : k < (escape str).length) :
    ∃ q b r t, str = q ++ b::r ∧ (escape str).take k = escape q ++ t ∧ Stump t := by
  induction str generalizing k with
  | nil => exact absurd h (Nat.not_lt_zero k)
  | cons b bs ih =>
    rw [escape_cons] at h ⊢
    by_cases hk : k < (code b).length
    · refine ⟨[],b,bs,(code b).take k,rfl,?_,?_⟩
      · rw [List.take_append_of_le_length hk.le,escape_nil,List.nil_append]
      · rcases code_cases b with ⟨_,hcode⟩ | ⟨_,hcode⟩ | ⟨_,_,hcode⟩ <;> rw [hcode] at hk ⊢
        · match k, hk with
          | 0, _ => exact Or.inl rfl
          | 1, _ => exact Or.inr (Or.inl rfl)
          | 2, _ => exact Or.inr (Or.inr (Or.inl rfl))
        · match k, hk with
          | 0, _ => exact Or.inl rfl
          | 1, _ => exact Or.inr (Or.inl rfl)
          | 2, _ => exact Or.inr (Or.inr (Or.inr rfl))
        · match k, hk with
          | 0, _ => exact Or.inl rfl
    · rw [List.length_append] at h
      obtain ⟨q,x,r,t,hstr,htake,ht⟩ := ih (k := k-(code b).length) (by omega)
      refine ⟨b::q,x,r,t,by rw [hstr,List.cons_append],?_,ht⟩
      rw [List.take_append,List.take_of_length_le (by omega),htake,escape_cons,List.append_assoc]

/-- An escaped string that is cut short is read as something else, however much of that is
copied. -/
theorem unescape_take_ne {k n : ℕ} (h : 0x25 ∉ str) (hk : k < (escape str).length)
    (hn : str.length ≤ n) : (queryStringUnescape ((escape str).take k)).take n ≠ str := by
  obtain ⟨q,b,r,t,hstr,htake,ht⟩ := take_escape hk
  have hq : 0x25 ∉ q := fun hmem => h (hstr ▸ List.mem_append_left _ hmem)
  rw [htake,unescape_escape hq ht]
  intro heq
  rw [hstr,List.length_append,List.length_cons] at hn
  rw [List.take_append,List.take_of_length_le (by omega),hstr,List.append_right_inj] at heq
  have hb : b = 0x25 := by
    have hpos : 0 < n-q.length := by omega
    obtain ⟨m,hm⟩ := Nat.exists_eq_succ_of_ne_zero hpos.ne'
    rw [hm] at heq
    rcases ht with rfl | rfl | rfl | rfl
    · cases heq
    · exact ((List.cons.inj heq).1).symm
    · exact ((List.cons.inj heq).1).symm
    · exact ((List.cons.inj heq).1).symm
  exact h (hstr ▸ hb ▸ List.mem_append_right _ List.mem_cons_self)

end Unescape

/-- An ampersand and a percent sign, escaped and read back. -/
example : queryStringUnescape (escape (ascii "a&b=c")) = ascii "a&b=c" := by decide

end QueryString
end MeterLogger
