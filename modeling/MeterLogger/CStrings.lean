import Mathlib.Data.List.TakeWhile
import Mathlib.Tactic.Common

/-!
# C strings

A C string is the list of its bytes without the closing NUL, and a pointer into it is the
rest of the string from there on. The functions of `string.h` in this form; a search that
succeeds gives the same answer when the string continues.
-/

namespace MeterLogger
namespace CStrings

def ascii (s : String) : List UInt8 := s.toList.map fun c => UInt8.ofNat c.toNat

/-- The string in a buffer: the bytes before the first NUL. -/
def cstr (buffer : List UInt8) : List UInt8 := buffer.takeWhile (· ≠ 0)

/-- The first occurrence of `needle`, as a pointer to it. -/
def strstr : List UInt8 → List UInt8 → Option (List UInt8)
  | [], needle => if needle = [] then some [] else none
  | b::bs, needle => if needle.isPrefixOf (b::bs) then some (b::bs) else strstr bs needle

/-- The first occurrence of a byte, as a pointer to it. -/
def strchr : List UInt8 → UInt8 → Option (List UInt8)
  | [], _ => none
  | b::bs, c => if b = c then some (b::bs) else strchr bs c

/-- `strtok_r`: skip separators, cut at the next one; the token and the rest behind it. -/
def strtok (str : List UInt8) (separator : UInt8) : Option (List UInt8 × List UInt8) :=
  match str.dropWhile (· = separator) with
  | [] => none
  | b::bs => some ((b::bs).takeWhile (· ≠ separator),((b::bs).dropWhile (· ≠ separator)).drop 1)

def isDigit (b : UInt8) : Bool := 48 ≤ b && b ≤ 57

def isBlank (b : UInt8) : Bool := b = 32 || b = 9

/-- The parts between the separators, without the empty ones. -/
def segments (separator : UInt8) (str : List UInt8) : List (List UInt8) :=
  (str.splitOn separator).filter fun part => !part.isEmpty

section Append

variable {p : UInt8 → Bool} {b : UInt8} {xs : List UInt8}

theorem dropWhile_append_of_mem (hm : b ∈ xs) (hb : p b = false) (ys : List UInt8) :
    (xs ++ ys).dropWhile p = xs.dropWhile p ++ ys ∧ b ∈ xs.dropWhile p := by
  induction xs with
  | nil => exact absurd hm List.not_mem_nil
  | cons x xs ih =>
    rw [List.cons_append,List.dropWhile_cons,List.dropWhile_cons]
    by_cases hx : p x
    · have hne : b ≠ x := fun h => by simp [h,hx] at hb
      rw [if_pos hx,if_pos hx]
      exact ih ((List.mem_cons.mp hm).resolve_left hne)
    · rw [if_neg hx,if_neg hx]
      exact ⟨rfl,hm⟩

theorem dropWhile_suffix (xs : List UInt8) : xs.dropWhile p <:+ xs :=
  List.dropWhile_suffix p

end Append

theorem cstr_append {xs : List UInt8} (h : 0 ∉ xs) (ys : List UInt8) :
    cstr (xs ++ ys) = xs ++ cstr ys := by
  induction xs with
  | nil => rfl
  | cons x xs ih =>
    rw [List.mem_cons,not_or] at h
    rw [cstr,List.cons_append,List.takeWhile_cons,if_pos (by simpa using Ne.symm h.1)]
    exact congrArg _ (ih h.2)

theorem cstr_of_mem {xs : List UInt8} (h : 0 ∈ xs) (ys : List UInt8) :
    cstr (xs ++ ys) = cstr xs := by
  induction xs with
  | nil => exact absurd h List.not_mem_nil
  | cons x xs ih =>
    rw [cstr,cstr,List.cons_append,List.takeWhile_cons,List.takeWhile_cons]
    by_cases hx : x = 0
    · simp [hx]
    · have hmem := (List.mem_cons.mp h).resolve_left (Ne.symm hx)
      rw [if_pos (by simpa using hx),if_pos (by simpa using hx)]
      exact congrArg _ (ih hmem)

theorem cstr_append_nul (xs ys : List UInt8) : cstr (xs ++ 0::ys) = cstr xs := by
  by_cases h : 0 ∈ xs
  · exact cstr_of_mem h _
  · rw [cstr_append h,← List.append_nil (cstr xs),← List.append_nil xs,cstr_append h]
    simp [cstr]

theorem cstr_self {xs : List UInt8} (h : 0 ∉ xs) : cstr xs = xs := by
  have happ := cstr_append h []
  simpa [cstr] using happ

theorem cstr_isInitial (xs : List UInt8) : cstr xs <+: xs := List.takeWhile_prefix _

theorem zero_not_mem_cstr (xs : List UInt8) : 0 ∉ cstr xs := by
  intro h
  have hp := List.mem_takeWhile_imp h
  simp at hp

theorem strstr_some {hay needle suffix : List UInt8} (h : strstr hay needle = some suffix) :
    needle <+: suffix ∧ suffix <:+ hay := by
  induction hay with
  | nil =>
    rw [strstr] at h
    split at h
    · rename_i hn
      cases h
      simp [hn]
    · cases h
  | cons b bs ih =>
    rw [strstr] at h
    split at h
    · rename_i hp
      cases h
      exact ⟨List.isPrefixOf_iff_prefix.mp hp,List.suffix_rfl⟩
    · obtain ⟨hp,hs⟩ := ih h
      exact ⟨hp,hs.trans (List.suffix_cons _ _)⟩

theorem strstr_of_occurs {hay needle suffix : List UInt8} (hp : needle <+: suffix)
    (hs : suffix <:+ hay) :
    ∃ first, strstr hay needle = some first ∧ suffix.length ≤ first.length := by
  induction hay with
  | nil =>
    rw [List.suffix_nil] at hs
    subst hs
    rw [List.prefix_nil] at hp
    exact ⟨[],by simp [strstr,hp],Nat.le_refl _⟩
  | cons b bs ih =>
    rw [strstr]
    split
    · exact ⟨b::bs,rfl,hs.length_le⟩
    · rename_i hn
      rcases List.suffix_cons_iff.mp hs with rfl | hs
      · exact absurd (List.isPrefixOf_iff_prefix.mpr hp) hn
      · exact ih hs

theorem strstr_append {hay needle suffix : List UInt8} (h : strstr hay needle = some suffix)
    (rest : List UInt8) : strstr (hay ++ rest) needle = some (suffix ++ rest) := by
  induction hay with
  | nil =>
    obtain ⟨hp,hs⟩ := strstr_some h
    rw [List.suffix_nil] at hs
    subst hs
    rw [List.prefix_nil] at hp
    subst hp
    cases rest with
    | nil => rfl
    | cons b bs => simp [strstr]
  | cons b bs ih =>
    rw [strstr] at h
    rw [List.cons_append,strstr]
    by_cases hp : needle.isPrefixOf (b::bs) = true
    · rw [if_pos hp] at h
      cases h
      rw [if_pos]
      · rfl
      · rw [List.isPrefixOf_iff_prefix] at *
        exact hp.trans (List.prefix_append _ _)
    · rw [if_neg hp] at h
      have hle : needle.length ≤ bs.length := by
        obtain ⟨hpre,hsuf⟩ := strstr_some h
        exact Nat.le_trans hpre.length_le hsuf.length_le
      have hlonger : ¬needle.isPrefixOf (b::(bs ++ rest)) = true := by
        rw [List.isPrefixOf_iff_prefix] at *
        intro hlong
        apply hp
        exact List.prefix_of_prefix_length_le hlong (List.prefix_append (b::bs) rest)
          (by simp; omega)
      rw [if_neg hlonger]
      exact ih h

/-- What is found in a longer string, and ends before its continuation, was there before. -/
theorem strstr_of_append {hay rest needle suffix : List UInt8}
    (h : strstr (hay ++ rest) needle = some suffix)
    (hlen : needle.length+rest.length ≤ suffix.length) :
    ∃ short, strstr hay needle = some short ∧ suffix = short ++ rest := by
  induction hay with
  | nil =>
    obtain ⟨_,hs⟩ := strstr_some h
    have hle := hs.length_le
    rw [List.nil_append] at h hle hs
    have hn : needle = [] := List.eq_nil_of_length_eq_zero (by omega)
    exact ⟨[],by simp [strstr,hn],hs.eq_of_length_le (by omega)⟩
  | cons b bs ih =>
    rw [List.cons_append,strstr] at h
    rw [strstr]
    split at h
    · rename_i hp
      cases h
      refine ⟨b::bs,?_,rfl⟩
      rw [if_pos]
      rw [List.isPrefixOf_iff_prefix] at *
      exact List.prefix_of_prefix_length_le hp (List.prefix_append (b::bs) rest)
        (by simp at hlen ⊢; omega)
    · rename_i hp
      obtain ⟨short,hshort,heq⟩ := ih h
      refine ⟨short,?_,heq⟩
      rw [if_neg]
      · exact hshort
      · rw [List.isPrefixOf_iff_prefix] at *
        exact fun hpre => hp (hpre.trans (List.prefix_append (b::bs) rest))

theorem strstr_first {before found needle : List UInt8} (hne : needle ≠ [])
    (h : strstr (before ++ found) needle = some found) : ¬needle <:+: before := by
  rintro ⟨s,t,rfl⟩
  rw [List.append_assoc,List.append_assoc] at h
  obtain ⟨first,hfirst,hle⟩ := strstr_of_occurs (List.prefix_append needle (t ++ found))
    (List.suffix_append s _)
  rw [h,Option.some.injEq] at hfirst
  rw [← hfirst] at hle
  have hpos := List.length_pos_iff.mpr hne
  simp at hle
  omega

/-- A text without the needle is passed over, up to a byte that the needle does not have. -/
theorem strstr_skip {token needle : List UInt8} {separator : UInt8} (h : ¬needle <:+: token)
    (hfree : separator ∉ needle) (rest : List UInt8) :
    strstr (token ++ separator::rest) needle = strstr rest needle := by
  have hno : ∀ t, t <:+ token → ¬needle <+: t ++ separator::rest := by
    intro t ht hpre
    rcases Nat.lt_or_ge t.length needle.length with hlt | hge
    · have hcut : t ++ [separator] <+: t ++ separator::rest := ⟨rest,by simp⟩
      have hover := List.prefix_of_prefix_length_le hcut hpre
        (by rw [List.length_append]; exact hlt)
      exact hfree (hover.subset (by simp))
    · have hinside := List.prefix_of_prefix_length_le hpre (List.prefix_append _ _) hge
      exact h (hinside.isInfix.trans ht.isInfix)
  induction token with
  | nil =>
    have hhead := hno [] List.suffix_rfl
    rw [List.nil_append] at hhead ⊢
    rw [strstr,if_neg (by rwa [List.isPrefixOf_iff_prefix])]
  | cons b token ih =>
    have hhead := hno (b::token) List.suffix_rfl
    rw [List.cons_append] at hhead ⊢
    rw [strstr,if_neg (by rwa [List.isPrefixOf_iff_prefix])]
    exact ih (fun hin => h (hin.trans (List.suffix_cons _ _).isInfix))
      fun t ht => hno t (ht.trans (List.suffix_cons _ _))

section Byte

variable {c : UInt8} {pre rest : List UInt8}

theorem strstr_byte (h : c ∉ pre) (rest : List UInt8) :
    strstr (pre ++ c::rest) [c] = some (c::rest) := by
  induction pre with
  | nil => simp [strstr]
  | cons b pre ih =>
    rw [List.mem_cons,not_or] at h
    rw [List.cons_append,strstr,if_neg (by simpa using h.1)]
    exact ih h.2

theorem strstr_byte_none (h : c ∉ pre) : strstr pre [c] = none := by
  induction pre with
  | nil => rfl
  | cons b pre ih =>
    rw [List.mem_cons,not_or] at h
    rw [strstr,if_neg (by simpa using h.1)]
    exact ih h.2

theorem cut_unique {pre' rest' : List UInt8} (h : c ∉ pre) (h' : c ∉ pre')
    (heq : pre ++ c::rest = pre' ++ c::rest') : pre = pre' := by
  induction pre generalizing pre' with
  | nil =>
    cases pre' with
    | nil => rfl
    | cons b pre' =>
      rw [(List.cons.inj heq).1] at h'
      exact absurd List.mem_cons_self h'
  | cons a pre ih =>
    rw [List.mem_cons,not_or] at h
    cases pre' with
    | nil => exact absurd (List.cons.inj heq).1.symm h.1
    | cons b pre' =>
      rw [List.mem_cons,not_or] at h'
      obtain ⟨rfl,htail⟩ := List.cons.inj heq
      rw [ih h.2 h'.2 htail]

theorem last_cut {l : List UInt8} (h : c ∈ l) : ∃ pre mid, l = pre ++ c::mid ∧ c ∉ mid := by
  induction l with
  | nil => exact absurd h List.not_mem_nil
  | cons b l ih =>
    by_cases hl : c ∈ l
    · obtain ⟨pre,mid,rfl,hmid⟩ := ih hl
      exact ⟨b::pre,mid,rfl,hmid⟩
    · obtain rfl := (List.mem_cons.mp h).resolve_right hl
      exact ⟨[],l,rfl,hl⟩

end Byte

theorem strchr_some {s rest : List UInt8} {c : UInt8} (h : strchr s c = some rest) :
    rest <:+ s ∧ c ∈ rest := by
  induction s with
  | nil => cases h
  | cons b bs ih =>
    rw [strchr] at h
    split at h
    · rename_i hb
      cases h
      exact ⟨List.suffix_rfl,by simp [hb]⟩
    · obtain ⟨hs,hc⟩ := ih h
      exact ⟨hs.trans (List.suffix_cons _ _),hc⟩

theorem strchr_first {pre rest : List UInt8} {c : UInt8} (h : c ∉ pre) :
    strchr (pre ++ c::rest) c = some (c::rest) := by
  induction pre with
  | nil => exact if_pos rfl
  | cons b pre ih =>
    rw [List.mem_cons,not_or] at h
    rw [List.cons_append,strchr,if_neg (Ne.symm h.1),ih h.2]

theorem strchr_none {s : List UInt8} {c : UInt8} (h : c ∉ s) : strchr s c = none := by
  induction s with
  | nil => rfl
  | cons b s ih =>
    rw [List.mem_cons,not_or] at h
    rw [strchr,if_neg (Ne.symm h.1),ih h.2]

theorem strchr_append {s rest : List UInt8} {c : UInt8} (h : strchr s c = some rest)
    (more : List UInt8) : strchr (s ++ more) c = some (rest ++ more) := by
  induction s with
  | nil => cases h
  | cons b bs ih =>
    rw [strchr] at h
    rw [List.cons_append,strchr]
    split
    · rw [if_pos ‹_›] at h
      cases h
      rfl
    · rw [if_neg ‹_›] at h
      exact ih h

theorem strchr_none_append {s rest more : List UInt8} {c : UInt8} (h : strchr s c = none)
    (h' : strchr (s ++ more) c = some rest) : rest <:+ more := by
  induction s with
  | nil => exact (strchr_some h').1
  | cons b bs ih =>
    rw [strchr] at h
    rw [List.cons_append,strchr] at h'
    split at h
    · cases h
    · rw [if_neg ‹_›] at h'
      exact ih h h'

section Segments

variable {separator : UInt8} {str token rest : List UInt8}

@[simp] theorem segments_nil : segments separator [] = [] := rfl

theorem segments_separator (str : List UInt8) :
    segments separator (separator::str) = segments separator str := by
  simp [segments,List.splitOn_eq_splitOnP,List.splitOnP_cons_eq_if_modifyHead]

theorem segments_dropWhile (str : List UInt8) :
    segments separator (str.dropWhile (· = separator)) = segments separator str := by
  induction str with
  | nil => rfl
  | cons b bs ih =>
    rw [List.dropWhile_cons]
    by_cases hb : b = separator
    · rw [if_pos (by simpa using hb),ih,hb,segments_separator]
    · rw [if_neg (by simpa using hb)]

theorem segments_token (hne : token ≠ []) (htoken : ∀ b ∈ token, b ≠ separator) :
    segments separator token = [token] := by
  have hsplit : token.splitOnP (· == separator) = [token] :=
    List.splitOnP_eq_singleton fun b hb => by simpa using htoken b hb
  simp [segments,List.splitOn_eq_splitOnP,hsplit,hne]

theorem segments_cons (hne : token ≠ []) (htoken : ∀ b ∈ token, b ≠ separator)
    (rest : List UInt8) :
    segments separator (token ++ separator::rest) = token::segments separator rest := by
  have hsplit : (token ++ separator::rest).splitOnP (· == separator) =
      token::rest.splitOnP (· == separator) :=
    List.splitOnP_append_cons_of_forall_mem (fun b hb => by simpa using htoken b hb) separator
      (by simp) rest
  simp [segments,List.splitOn_eq_splitOnP,hsplit,hne]

theorem ne_of_free {xs : List UInt8} (h : separator ∉ xs) : ∀ b ∈ xs, b ≠ separator :=
  fun _ hb heq => h (heq ▸ hb)

theorem segments_append (xs ys : List UInt8) :
    segments separator (xs ++ separator::ys) = segments separator xs ++ segments separator ys := by
  rw [segments,List.splitOn_append_cons_self,List.filter_append]
  rfl

theorem segments_inside {str part : List UInt8} (h : part ∈ segments separator str) :
    part <:+: str := by
  induction hlen : str.length using Nat.strong_induction_on generalizing str with
  | _ len ih =>
  by_cases hmem : separator ∈ str
  · obtain ⟨xs,ys,rfl⟩ := List.append_of_mem hmem
    rw [List.length_append,List.length_cons] at hlen
    rw [segments_append,List.mem_append] at h
    rcases h with h | h
    · exact (ih xs.length (by omega) h rfl).trans (List.prefix_append _ _).isInfix
    · have htail : ys <:+: xs ++ separator::ys := ⟨xs ++ [separator],[],by simp⟩
      exact (ih ys.length (by omega) h rfl).trans htail
  · by_cases hne : str = []
    · rw [hne] at h
      exact absurd h List.not_mem_nil
    · rw [segments_token hne (ne_of_free hmem),List.mem_singleton] at h
      exact h ▸ List.infix_rfl

theorem segments_pair {str key value : List UInt8} {rest : List (List UInt8)}
    (h : segments separator str = key::value::rest) : key ++ [separator] <:+: str := by
  induction hlen : str.length using Nat.strong_induction_on generalizing str with
  | _ len ih =>
  by_cases hmem : separator ∈ str
  · obtain ⟨xs,ys,rfl,hfree⟩ := List.eq_append_cons_of_mem hmem
    by_cases hxs : xs = []
    · rw [hxs,List.nil_append,segments_separator] at h
      rw [hxs,List.nil_append] at hlen ⊢
      rw [List.length_cons] at hlen
      exact (ih ys.length (by omega) h rfl).trans (List.suffix_cons _ _).isInfix
    · rw [segments_cons hxs (ne_of_free hfree)] at h
      rw [← (List.cons.inj h).1]
      exact ⟨[],ys,by simp⟩
  · have hlist := congrArg List.length h
    by_cases hne : str = []
    · rw [hne] at h
      cases h
    · rw [segments_token hne (ne_of_free hmem)] at h
      cases h

theorem strtok_none (h : strtok str separator = none) : segments separator str = [] := by
  rw [← segments_dropWhile]
  rw [strtok] at h
  split at h
  · rename_i hnil
    rw [hnil,segments_nil]
  · cases h

/-- A string is the token it begins with, and a separator and the rest if there is one. -/
theorem segments_takeWhile {b : UInt8} (hb : b ≠ separator) (bs : List UInt8) :
    segments separator (b::bs) = (b::bs).takeWhile (· ≠ separator)::
      segments separator (((b::bs).dropWhile (· ≠ separator)).drop 1) := by
  have hne : (b::bs).takeWhile (· ≠ separator) ≠ [] := by
    rw [List.takeWhile_cons_of_pos (by simpa using hb)]
    exact List.cons_ne_nil _ _
  have htoken : ∀ x ∈ (b::bs).takeWhile (· ≠ separator), x ≠ separator := by
    intro x hx
    simpa using List.mem_takeWhile_imp hx
  have hcut : (b::bs).takeWhile (· ≠ separator) ++ (b::bs).dropWhile (· ≠ separator) = b::bs :=
    List.takeWhile_append_dropWhile
  rcases hd : (b::bs).dropWhile (· ≠ separator) with _ | ⟨x,rest⟩
  · rw [hd,List.append_nil] at hcut
    rw [hcut] at hne htoken ⊢
    exact segments_token hne htoken
  · have hx : x = separator := by
      have hnot := List.head_dropWhile_not (· ≠ separator) (l := b::bs) (by rw [hd]; simp)
      simp only [hd,List.head_cons,decide_eq_false_iff_not,not_not] at hnot
      exact hnot
    rw [hd,hx] at hcut
    rw [List.drop_one,List.tail_cons,← segments_cons hne htoken,hcut]

theorem strtok_some (h : strtok str separator = some (token,rest)) :
    segments separator str = token::segments separator rest ∧ rest.length < str.length := by
  have hle := (dropWhile_suffix (p := fun b => b = separator) str).length_le
  rw [strtok] at h
  split at h
  · cases h
  · rename_i b bs hcons
    cases h
    have hb : b ≠ separator := by
      have hnot := List.head_dropWhile_not (· = separator) (l := str) (by rw [hcons]; simp)
      simpa [hcons] using hnot
    rw [← segments_dropWhile str,hcons]
    rw [hcons,List.length_cons] at hle
    have hrest := (dropWhile_suffix (p := fun x => x ≠ separator) (b::bs)).length_le
    rw [List.length_cons] at hrest
    refine ⟨segments_takeWhile hb bs,?_⟩
    rw [List.length_drop]
    omega

theorem strtok_skip {separator b : UInt8} (hb : b ≠ separator) (bs : List UInt8) :
    strtok (b::bs) separator = some ((b::bs).takeWhile (· ≠ separator),
      ((b::bs).dropWhile (· ≠ separator)).drop 1) := by
  rw [strtok,List.dropWhile_cons_of_neg (by simpa using hb)]

theorem strtok_token {token : List UInt8} {separator : UInt8} (hne : token ≠ [])
    (hfree : separator ∉ token) (rest : List UInt8) :
    strtok (token ++ separator::rest) separator = some (token,rest) ∧
      strtok token separator = some (token,[]) := by
  have hall : ∀ b ∈ token, decide (b ≠ separator) = true := fun b hb =>
    decide_eq_true (ne_of_free hfree b hb)
  have hkeep : (separator::rest).takeWhile (fun b => decide (b ≠ separator)) = [] :=
    List.takeWhile_cons_of_neg (by simp)
  have hdrop : (separator::rest).dropWhile (fun b => decide (b ≠ separator)) = separator::rest :=
    List.dropWhile_cons_of_neg (by simp)
  obtain ⟨b,bs,rfl⟩ := List.exists_cons_of_ne_nil hne
  have hb : b ≠ separator := ne_of_free hfree b List.mem_cons_self
  constructor
  · rw [List.cons_append,strtok_skip hb,← List.cons_append,List.takeWhile_append_of_pos hall,
      List.dropWhile_append_of_pos hall,hkeep,hdrop,List.append_nil]
    rfl
  · rw [strtok_skip hb,List.takeWhile_eq_self_iff.mpr hall,List.dropWhile_eq_nil_iff.mpr hall]
    rfl

end Segments

end CStrings
end MeterLogger
