import Mathlib.Data.List.Infix

/-!
# Codes of three letters

A marker and two letters stand for a letter. Tables are read one after the other as one table,
and a text that is written with codes of the table reads as the text itself does.
-/

namespace MeterLogger
namespace Codes

variable {α : Type*}

abbrev Table (α : Type*) := α → α → Option α

def single [DecidableEq α] (x y c : α) : Table α :=
  fun u v => if u = x ∧ v = y then some c else none

def both (S T : Table α) : Table α := fun x y => (S x y).or (T x y)

/-- Every code is read; a marker that begins none stays. -/
def decode [DecidableEq α] (m : α) (T : Table α) : List α → List α
  | a::x::y::l =>
    if a = m then
      match T x y with
      | some c => c::decode m T l
      | none => a::decode m T (x::y::l)
    else a::decode m T (x::y::l)
  | l => l

/-- The two letters of a code are no markers. -/
def Letters (m : α) (T : Table α) : Prop := ∀ x y, (T x y).isSome → x ≠ m ∧ y ≠ m

/-- Each letter is written as itself or as its code; the marker and the letters of the codes as
themselves. -/
structure Writes (m : α) (T : Table α) (k : α → List α) : Prop where
  cases : ∀ b, k b = [b] ∨ ∃ x y, k b = [m,x,y] ∧ T x y = some b
  marker : k m = [m]
  letters : ∀ x y, (T x y).isSome → k x = [x] ∧ k y = [y]

/-- No code of the table stands in the text. -/
def Free (m : α) (T : Table α) (l : List α) : Prop := ∀ x y, (T x y).isSome → ¬[m,x,y] <:+: l

/-- No code begins in front of this text. -/
def Ends (T : Table α) (l : List α) : Prop := ∀ x y r, l = x::y::r → T x y = none

variable [DecidableEq α] {m : α} {S T : Table α} {k : α → List α}

/-- A text is empty, or begins with another letter, with a code, or with a marker only. -/
@[elab_as_elim] theorem code_induction {P : List α → Prop} (m : α) (T : Table α) (nil : P [])
    (letter : ∀ a l, a ≠ m → P l → P (a::l))
    (code : ∀ x y c l, T x y = some c → P l → P (m::x::y::l))
    (marker : ∀ l, Ends T l → P l → P (m::l)) (l : List α) : P l := by
  induction hn : l.length using Nat.strong_induction_on generalizing l with
  | _ n ih =>
    cases l with
    | nil => exact nil
    | cons a l =>
      have hl := ih l.length (by rw [← hn]; exact Nat.lt_succ_self _) l rfl
      by_cases ha : a = m
      · rw [ha]
        by_cases hends : Ends T l
        · exact marker l hends hl
        · simp only [Ends,not_forall] at hends
          obtain ⟨x,y,r,rfl,hsome⟩ := hends
          obtain ⟨c,hc⟩ := Option.ne_none_iff_exists'.mp hsome
          refine code x y c r hc (ih r.length ?_ r rfl)
          rw [← hn,List.length_cons,List.length_cons,List.length_cons]
          omega
      · exact letter a l ha hl

theorem letters_single {x y c : α} (hx : x ≠ m) (hy : y ≠ m) : Letters m (single x y c) := by
  intro u v hsome
  obtain ⟨b,hb⟩ := Option.isSome_iff_exists.mp hsome
  obtain ⟨⟨rfl,rfl⟩,_⟩ := Option.ite_none_right_eq_some.mp hb
  exact ⟨hx,hy⟩

theorem single_none {x y c b : α} (hx : b ≠ x) (hy : b ≠ y) (z : α) :
    single x y c b z = none ∧ single x y c z b = none :=
  ⟨if_neg fun h => hx h.1,if_neg fun h => hy h.2⟩

section Reading

variable {a x y c : α} {l : List α}

@[simp] theorem decode_nil : decode m T [] = [] := rfl

theorem decode_letter (h : a ≠ m) : decode m T (a::l) = a::decode m T l := by
  match l with
  | [] => rfl
  | [_] => rfl
  | _::_::_ => rw [decode,if_neg h]

theorem decode_code (h : T x y = some c) : decode m T (m::x::y::l) = c::decode m T l := by
  rw [decode,if_pos rfl,h]

theorem decode_marker (h : Ends T l) : decode m T (m::l) = m::decode m T l := by
  match l with
  | [] => rfl
  | [_] => rfl
  | x::y::r => rw [decode,if_pos rfl,h x y r rfl]

theorem decode_letters (h : Letters m S) (hxy : (S x y).isSome) :
    decode m T (x::y::l) = x::y::decode m T l := by
  obtain ⟨hx,hy⟩ := h x y hxy
  rw [decode_letter hx,decode_letter hy]

theorem decode_length_le (l : List α) : (decode m T l).length ≤ l.length := by
  induction l using code_induction m T with
  | nil => exact Nat.le_refl 0
  | letter a l ha ih =>
    rw [decode_letter ha]
    exact Nat.succ_le_succ ih
  | code x y c l hc ih =>
    rw [decode_code hc]
    exact Nat.succ_le_succ (ih.trans (Nat.le_add_right _ 2))
  | marker l hends ih =>
    rw [decode_marker hends]
    exact Nat.succ_le_succ ih

/-- A text is left as it is if and only if there is no code in it: each code makes it shorter. -/
theorem decode_eq_self_iff (l : List α) : decode m T l = l ↔ Free m T l := by
  induction l using code_induction m T with
  | nil => exact iff_of_true rfl fun x y _ hinf => absurd (List.infix_nil.mp hinf) (by simp)
  | letter a l ha ih =>
    rw [decode_letter ha,List.cons_inj_right,ih]
    constructor
    · intro h x y hxy hinf
      rcases List.infix_cons_iff.mp hinf with hpre | hinf
      · exact ha (List.cons_prefix_cons.mp hpre).1.symm
      · exact h x y hxy hinf
    · intro h x y hxy hinf
      exact h x y hxy (List.infix_cons hinf)
  | code x y c l hc _ =>
    rw [decode_code hc]
    refine iff_of_false (fun heq => ?_) fun h => ?_
    · have hlen := congrArg List.length heq
      have hle := decode_length_le (m := m) (T := T) l
      rw [List.length_cons,List.length_cons,List.length_cons,List.length_cons] at hlen
      omega
    · exact h x y (by rw [hc]; rfl) ⟨[],l,rfl⟩
  | marker l hends ih =>
    rw [decode_marker hends,List.cons_inj_right,ih]
    constructor
    · intro h x y hxy hinf
      rcases List.infix_cons_iff.mp hinf with ⟨r,hr⟩ | hinf
      · rw [hends x y r (List.cons.inj hr).2.symm] at hxy
        exact absurd hxy (by simp)
      · exact h x y hxy hinf
    · intro h x y hxy hinf
      exact h x y hxy (List.infix_cons hinf)

/-- What the first table leaves behind a marker begins a code of the second table only if the text
itself does. -/
theorem ends_decode (hres : ∀ x y c, S x y = some c → ∀ z, T c z = none ∧ T z c = none)
    (hT : Letters m T) {l : List α} (h : Ends T l) : Ends T (decode m S l) := by
  have hhead : ∀ l : List α, ∀ y r, decode m S l = y::r →
      (∀ z, T z y = none) ∨ ∃ r', l = y::r' := by
    intro l y r heq
    induction l using code_induction m S with
    | nil => cases heq
    | letter a l ha _ =>
      rw [decode_letter ha] at heq
      exact Or.inr ⟨l,by rw [(List.cons.inj heq).1]⟩
    | code x y' c l hc _ =>
      rw [decode_code hc] at heq
      exact Or.inl fun z => (List.cons.inj heq).1 ▸ (hres x y' c hc z).2
    | marker l hends _ =>
      rw [decode_marker hends] at heq
      exact Or.inr ⟨l,by rw [(List.cons.inj heq).1]⟩
  intro x y r heq
  by_contra hsome
  have hne := hT x y (Option.isSome_iff_ne_none.mpr hsome)
  induction l using code_induction m S with
  | nil => cases heq
  | letter a l ha _ =>
    rw [decode_letter ha] at heq
    obtain ⟨rfl,htail⟩ := List.cons.inj heq
    rcases hhead l y r htail with hnone | ⟨r',rfl⟩
    · exact hsome (hnone a)
    · exact hsome (h a y r' rfl)
  | code x' y' c l hc _ =>
    rw [decode_code hc] at heq
    exact hsome ((List.cons.inj heq).1 ▸ (hres x' y' c hc y).1)
  | marker l hends _ =>
    rw [decode_marker hends] at heq
    exact hne.1 (List.cons.inj heq).1.symm

/-- Two tables one after the other, when nothing that the first one gives is part of a code of the
second one. -/
theorem decode_decode (hT : Letters m T)
    (hres : ∀ x y c, S x y = some c → c ≠ m ∧ ∀ z, T c z = none ∧ T z c = none) (l : List α) :
    decode m T (decode m S l) = decode m (both S T) l := by
  induction l using code_induction m (both S T) with
  | nil => rfl
  | letter a l ha ih => rw [decode_letter ha,decode_letter ha,decode_letter ha,ih]
  | code x y c l hc ih =>
    rw [decode_code hc,← ih]
    cases hfirst : S x y with
    | some b =>
      have hb : b = c := by
        rw [both,hfirst] at hc
        exact Option.some.inj hc
      rw [decode_code hfirst,decode_letter (hres x y b hfirst).1,hb]
    | none =>
      have hsecond : T x y = some c := by
        rw [both,hfirst] at hc
        exact hc
      have hends : Ends S (x::y::l) := by
        intro u v r heq
        obtain ⟨rfl,htail⟩ := List.cons.inj heq
        rw [← (List.cons.inj htail).1,hfirst]
      rw [decode_marker hends,decode_letters hT (by rw [hsecond]; rfl),decode_code hsecond]
  | marker l hends ih =>
    have hnone : ∀ x y r, l = x::y::r → S x y = none ∧ T x y = none := by
      intro x y r heq
      exact Option.or_eq_none_iff.mp (hends x y r heq)
    have hfirst : Ends S l := fun x y r heq => (hnone x y r heq).1
    have hsecond : Ends T l := fun x y r heq => (hnone x y r heq).2
    rw [decode_marker hfirst,decode_marker hends,← ih,
      decode_marker (ends_decode (fun x y c hc => (hres x y c hc).2) hT hsecond)]

end Reading

omit [DecidableEq α] in
theorem ends_write (hT : Letters m T) (hk : Writes m T k) {l : List α} (h : Ends T l) :
    Ends T (l.flatMap k) := by
  intro x y r heq
  by_contra hsome
  obtain ⟨hx,hy⟩ := hT x y (Option.isSome_iff_ne_none.mpr hsome)
  have hfirst : ∀ z, z ≠ m → ∀ l r, l.flatMap k = z::r → ∃ l', l = z::l' ∧ r = l'.flatMap k := by
    intro z hz l r heq
    cases l with
    | nil => cases heq
    | cons b l =>
      rw [List.flatMap_cons] at heq
      rcases hk.cases b with hb | ⟨u,v,hb,_⟩
      · rw [hb,List.singleton_append] at heq
        obtain ⟨rfl,htail⟩ := List.cons.inj heq
        exact ⟨l,rfl,htail.symm⟩
      · rw [hb,List.cons_append] at heq
        exact absurd (List.cons.inj heq).1.symm hz
  obtain ⟨l',rfl,htail⟩ := hfirst x hx l (y::r) heq
  obtain ⟨l'',rfl,_⟩ := hfirst y hy l' r htail.symm
  exact hsome (h x y l'' rfl)

theorem decode_write (hT : Letters m T) (hk : Writes m T k) (l : List α) :
    decode m T (l.flatMap k) = decode m T l := by
  induction l using code_induction m T with
  | nil => rfl
  | letter a l ha ih =>
    rw [List.flatMap_cons,decode_letter ha,← ih]
    rcases hk.cases a with hb | ⟨x,y,hb,hxy⟩
    · rw [hb,List.singleton_append,decode_letter ha]
    · rw [hb]
      exact decode_code hxy
  | code x y c l hc ih =>
    obtain ⟨hx,hy⟩ := hk.letters x y (by rw [hc]; rfl)
    rw [List.flatMap_cons,List.flatMap_cons,List.flatMap_cons,hk.marker,hx,hy,decode_code hc,← ih]
    exact decode_code hc
  | marker l hends ih =>
    rw [List.flatMap_cons,hk.marker,List.singleton_append,decode_marker (ends_write hT hk hends),
      decode_marker hends,ih]

end Codes
end MeterLogger
