import Mathlib.Data.List.Basic
import Mathlib.Tactic.Common

/-!
# Stuffing of reserved symbols

A code reserves some symbols of an alphabet, among them an escape symbol. Stuffing
replaces each reserved symbol by the escape symbol and a masked symbol, so that the
other reserved symbols are free to mark the ends of a frame.
-/

namespace MeterLogger

/-- An escape symbol, the symbols it protects, and the mask sent after it. -/
structure StuffingCode (α : Type*) where
  esc : α
  reserved : α → Bool
  mask : α → α
  esc_reserved : reserved esc = true
  mask_mask : ∀ x, mask (mask x) = x
  mask_free : ∀ x, reserved x = true → reserved (mask x) = false

namespace StuffingCode

variable {α : Type*} (c : StuffingCode α)

def stuffOne (x : α) : List α := if c.reserved x then [c.esc,c.mask x] else [x]

def stuff (xs : List α) : List α := xs.flatMap c.stuffOne

@[simp] theorem stuff_nil : c.stuff [] = [] := rfl

theorem stuff_cons (x : α) (xs : List α) : c.stuff (x::xs) = c.stuffOne x ++ c.stuff xs := by
  simp [stuff]

theorem stuffOne_length (x : α) : (c.stuffOne x).length = if c.reserved x then 2 else 1 := by
  unfold stuffOne
  split <;> rfl

theorem stuff_length (xs : List α) : (c.stuff xs).length = xs.length+xs.countP c.reserved := by
  induction xs with
  | nil => rfl
  | cons x xs ih =>
    rw [stuff_cons,List.length_append,stuffOne_length,ih,List.length_cons,List.countP_cons]
    split <;> omega

theorem length_le_stuff (xs : List α) : xs.length ≤ (c.stuff xs).length := by
  rw [stuff_length]
  exact Nat.le_add_right _ _

theorem stuff_length_le (xs : List α) : (c.stuff xs).length ≤ 2*xs.length := by
  have hcount := List.countP_le_length (p := c.reserved) (l := xs)
  rw [stuff_length]
  omega

theorem stuff_reserved {xs : List α} {y : α} (hy : y ∈ c.stuff xs) (hr : c.reserved y = true) :
    y = c.esc := by
  obtain ⟨x,_,hx⟩ := List.mem_flatMap.mp hy
  unfold stuffOne at hx
  split at hx
  · rename_i hxr
    rcases List.mem_pair.mp hx with h | h
    · exact h
    · rw [h,c.mask_free x hxr] at hr
      cases hr
  · rename_i hxr
    rw [List.mem_singleton.mp hx] at hr
    exact absurd hr hxr

section Unstuff

variable [DecidableEq α]

/-- Undo stuffing; a trailing escape symbol is dropped. -/
def unstuff : List α → List α
  | [] => []
  | [x] => if x = c.esc then [] else [x]
  | x::y::ys => if x = c.esc then c.mask y :: unstuff ys else x :: unstuff (y::ys)

theorem unstuff_stuff_append (x : α) (ys : List α) :
    c.unstuff (c.stuffOne x ++ ys) = x :: c.unstuff ys := by
  unfold stuffOne
  split
  · simp [unstuff,c.mask_mask]
  · rename_i hx
    have hne : x ≠ c.esc := by
      intro h
      exact hx (h ▸ c.esc_reserved)
    cases ys with
    | nil => simp [unstuff,hne]
    | cons y ys => simp [unstuff,hne]

theorem unstuff_append (xs ys : List α) : c.unstuff (c.stuff xs ++ ys) = xs ++ c.unstuff ys := by
  induction xs with
  | nil => rfl
  | cons x xs ih => rw [stuff_cons,List.append_assoc,unstuff_stuff_append,ih,List.cons_append]

theorem unstuff_length_le (xs : List α) : (c.unstuff xs).length ≤ xs.length := by
  fun_induction unstuff c xs with
  | case1 => simp
  | case2 => simp
  | case3 x h => simp
  | case4 y ys ih =>
    simp only [List.length_cons]
    omega
  | case5 x y ys h ih =>
    simp only [List.length_cons] at ih ⊢
    omega

theorem length_le_unstuff {xs : List α} (h : xs.getLast? ≠ some c.esc) :
    xs.length ≤ 2*(c.unstuff xs).length := by
  fun_induction unstuff c xs with
  | case1 => simp
  | case2 => simp at h
  | case3 x hx => simp
  | case4 y ys ih =>
    simp only [List.length_cons]
    cases ys with
    | nil =>
      simp only [List.length_nil]
      omega
    | cons z ys =>
      rw [List.getLast?_cons_cons,List.getLast?_cons_cons] at h
      have hrest := ih h
      omega
  | case5 x y ys hx ih =>
    rw [List.getLast?_cons_cons] at h
    have hrest := ih h
    simp only [List.length_cons] at hrest ⊢
    omega

end Unstuff

end StuffingCode
end MeterLogger
