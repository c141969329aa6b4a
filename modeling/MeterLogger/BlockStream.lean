import Mathlib.Data.List.Basic
import Mathlib.Tactic.Common

/-!
# Streams taken in blocks

A function that takes a state and a block of `n` symbols to a state runs over the whole blocks of a
text; what is left is kept until more comes. A text that comes in pieces leaves the state and the
rest that it leaves when it comes at once.
-/

namespace MeterLogger
namespace BlockStream

variable {S A : Type*}

/-- The state after the first `k` blocks. -/
def run (n : ℕ) (f : S → List A → S) : ℕ → S → List A → S
  | 0, s, _ => s
  | k+1, s, xs => run n f k (f s (xs.take n)) (xs.drop n)

def absorb (n : ℕ) (f : S → List A → S) (s : S) (xs : List A) : S := run n f (xs.length/n) s xs

def rest (n : ℕ) (xs : List A) : List A := xs.drop (n*(xs.length/n))

variable {n : ℕ} (f : S → List A → S) (s : S) {xs : List A}

@[simp] theorem rest_length (xs : List A) : (rest n xs).length = xs.length%n := by
  rw [rest,List.length_drop]
  exact Nat.sub_eq_of_eq_add (Nat.mod_add_div _ _).symm

theorem absorb_short (h : xs.length < n) : absorb n f s xs = s := by
  rw [absorb,Nat.div_eq_of_lt h,run]

theorem rest_short (h : xs.length < n) : rest n xs = xs := by
  rw [rest,Nat.div_eq_of_lt h,Nat.mul_zero,List.drop_zero]

theorem absorb_step (hn : 0 < n) (h : n ≤ xs.length) :
    absorb n f s xs = absorb n f (f s (xs.take n)) (xs.drop n) := by
  rw [absorb,absorb,Nat.div_eq_sub_div hn h,run,List.length_drop]

theorem rest_step (hn : 0 < n) (h : n ≤ xs.length) : rest n xs = rest n (xs.drop n) := by
  rw [rest,rest,Nat.div_eq_sub_div hn h,List.length_drop,List.drop_drop,Nat.mul_succ,Nat.add_comm]

theorem absorb_append (hn : 0 < n) (xs ys : List A) :
    absorb n f s (xs ++ ys) = absorb n f (absorb n f s xs) (rest n xs ++ ys) := by
  induction hk : xs.length/n generalizing s xs with
  | zero =>
    have hshort : xs.length < n := (Nat.div_eq_zero_iff_lt hn).mp hk
    rw [absorb_short f s hshort,rest_short hshort]
  | succ k ih =>
    have hle : n ≤ xs.length := by
      by_contra h
      rw [Nat.div_eq_of_lt (Nat.lt_of_not_le h)] at hk
      cases hk
    have hfew : (xs.drop n).length/n = k := by
      rw [Nat.div_eq_sub_div hn hle] at hk
      rw [List.length_drop]
      exact Nat.succ.inj hk
    rw [absorb_step f s hn (by rw [List.length_append]; omega),List.take_append_of_le_length hle,
      List.drop_append_of_le_length hle,ih _ _ hfew,← absorb_step f s hn hle,← rest_step hn hle]

theorem rest_append (hn : 0 < n) (xs ys : List A) : rest n (xs ++ ys) = rest n (rest n xs ++ ys) := by
  induction hk : xs.length/n generalizing xs with
  | zero => rw [rest_short ((Nat.div_eq_zero_iff_lt hn).mp hk)]
  | succ k ih =>
    have hle : n ≤ xs.length := by
      by_contra h
      rw [Nat.div_eq_of_lt (Nat.lt_of_not_le h)] at hk
      cases hk
    have hfew : (xs.drop n).length/n = k := by
      rw [Nat.div_eq_sub_div hn hle] at hk
      rw [List.length_drop]
      exact Nat.succ.inj hk
    rw [rest_step hn (by rw [List.length_append]; omega),List.drop_append_of_le_length hle,
      ih _ hfew,← rest_step hn hle]

theorem absorb_full (hn : 0 < n) {ys : List A} (h : (rest n xs ++ ys).length = n) :
    absorb n f s (xs ++ ys) = f (absorb n f s xs) (rest n xs ++ ys) := by
  rw [absorb_append f s hn,absorb_step f _ hn (Nat.le_of_eq h.symm),List.take_of_length_le (Nat.le_of_eq h),
    List.drop_of_length_le (Nat.le_of_eq h),absorb_short f _ hn]

theorem rest_full (hn : 0 < n) {ys : List A} (h : (rest n xs ++ ys).length = n) :
    rest n (xs ++ ys) = [] := by
  rw [rest_append hn,rest_step hn (Nat.le_of_eq h.symm),List.drop_of_length_le (Nat.le_of_eq h),
    rest_short hn]

theorem absorb_part (hn : 0 < n) {ys : List A} (h : (rest n xs ++ ys).length < n) :
    absorb n f s (xs ++ ys) = absorb n f s xs := by
  rw [absorb_append f s hn,absorb_short f _ h]

theorem rest_part (hn : 0 < n) {ys : List A} (h : (rest n xs ++ ys).length < n) :
    rest n (xs ++ ys) = rest n xs ++ ys := by
  rw [rest_append hn,rest_short h]

end BlockStream
end MeterLogger
