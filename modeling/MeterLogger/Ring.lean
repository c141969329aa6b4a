import Mathlib.Logic.Function.Basic
import Mathlib.Data.Int.ModEq
import Mathlib.Tactic.Common

/-!
# Circular memory

Cells of a memory indexed by `ℕ`, visited in a circle of `size` cells. `window`
reads the cells of the circle in the order a reader visits them; the lemmas say
how a window grows at its writing end, shrinks at its reading end, and which
writes leave it alone.
-/

namespace MeterLogger
namespace Ring

variable {α : Type*}

/-- The cell visited after cell `i`. -/
def next (size i : ℕ) : ℕ := if size ≤ i+1 then 0 else i+1

/-- The cell reached from `i` after `n` moves. -/
def advance (size : ℕ) : ℕ → ℕ → ℕ
  | i, 0 => i
  | i, n+1 => advance size (next size i) n

/-- The contents of `n` consecutive cells from `start` on. -/
def window (mem : ℕ → α) (size : ℕ) : ℕ → ℕ → List α
  | _, 0 => []
  | start, n+1 => mem start :: window mem size (next size start) n

theorem next_lt {size i : ℕ} (hs : 0 < size) : next size i < size := by
  unfold next
  split <;> omega

theorem next_eq_mod {size i : ℕ} (hi : i < size) : next size i = (i+1)%size := by
  unfold next
  split
  · have hi' : i+1 = size := by omega
    rw [hi',Nat.mod_self]
  · exact (Nat.mod_eq_of_lt (by omega)).symm

theorem advance_eq_mod {size i : ℕ} (n : ℕ) (hi : i < size) :
    advance size i n = (i+n)%size := by
  induction n generalizing i with
  | zero => simp [advance,Nat.mod_eq_of_lt hi]
  | succ n ih =>
    have hn : next size i < size := next_lt (by omega)
    rw [advance,ih hn,next_eq_mod hi,Nat.mod_add_mod]
    congr 1
    omega

theorem advance_lt {size i : ℕ} (n : ℕ) (hi : i < size) : advance size i n < size := by
  rw [advance_eq_mod n hi]
  exact Nat.mod_lt _ (by omega)

theorem advance_succ (size i n : ℕ) :
    advance size i (n+1) = next size (advance size i n) := by
  induction n generalizing i with
  | zero => rfl
  | succ n ih => exact ih (next size i)

theorem advance_ne {size i a b : ℕ} (hi : i < size) (hab : a < b) (hb : b < size) :
    advance size i a ≠ advance size i b := by
  rw [advance_eq_mod a hi,advance_eq_mod b hi]
  intro h
  have hd : size ∣ (i+b)-(i+a) := (Nat.modEq_iff_dvd' (by omega)).mp h
  have hle := Nat.le_of_dvd (by omega) hd
  omega

@[simp] theorem window_zero (mem : ℕ → α) (size start : ℕ) : window mem size start 0 = [] := rfl

@[simp] theorem window_length (mem : ℕ → α) (size start n : ℕ) :
    (window mem size start n).length = n := by
  induction n generalizing start with
  | zero => rfl
  | succ n ih => simp [window,ih]

theorem window_succ (mem : ℕ → α) (size start n : ℕ) :
    window mem size start (n+1) = window mem size start n ++ [mem (advance size start n)] := by
  induction n generalizing start with
  | zero => rfl
  | succ n ih => rw [window,ih,window]; rfl

theorem window_congr {mem mem' : ℕ → α} {size start : ℕ} (n : ℕ)
    (h : ∀ k < n, mem (advance size start k) = mem' (advance size start k)) :
    window mem size start n = window mem' size start n := by
  induction n with
  | zero => rfl
  | succ n ih =>
    rw [window_succ,window_succ,ih (fun k hk => h k (by omega)),h n (by omega)]

theorem window_getElem? {mem : ℕ → α} {size start n pos : ℕ} (hs : start < size) (hpos : pos < n) :
    (window mem size start n)[pos]? = some (mem ((start+pos)%size)) := by
  induction pos generalizing n start with
  | zero =>
    obtain ⟨n,rfl⟩ : ∃ k, n = k+1 := ⟨n-1,by omega⟩
    simp [window,Nat.mod_eq_of_lt hs]
  | succ pos ih =>
    obtain ⟨n,rfl⟩ : ∃ k, n = k+1 := ⟨n-1,by omega⟩
    rw [window,List.getElem?_cons_succ,ih (next_lt (by omega)) (by omega),next_eq_mod hs,
      Nat.mod_add_mod]
    congr 3
    omega

theorem window_take (mem : ℕ → α) (size start n k : ℕ) :
    (window mem size start (n+k)).take n = window mem size start n := by
  induction n generalizing start with
  | zero => rfl
  | succ n ih =>
    rw [Nat.succ_add,window,List.take_succ_cons,ih,window]

theorem window_update {size start n : ℕ} (mem : ℕ → α) (hs : start < size) (hn : n < size) (c : α) :
    window (Function.update mem (advance size start n) c) size start n =
      window mem size start n := by
  apply window_congr
  intro k hk
  exact Function.update_of_ne (advance_ne hs hk hn) c mem

theorem window_push {size start n : ℕ} (mem : ℕ → α) (hs : start < size) (hn : n < size) (c : α) :
    window (Function.update mem (advance size start n) c) size start (n+1) =
      window mem size start n ++ [c] := by
  rw [window_succ,window_update mem hs hn,Function.update_self]

end Ring
end MeterLogger
