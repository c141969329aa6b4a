import Mathlib.Data.List.GetD
import Mathlib.Tactic.Common

/-!
# Byte buffers

A C array, or the whole memory, as a function from indices to bytes. Reading and writing
of runs of bytes, and how the two commute.
-/

namespace MeterLogger
namespace Buffers

abbrev Buf := ℕ → UInt8

/-- The `n` bytes from index `i` on. -/
def load (b : Buf) (i n : ℕ) : List UInt8 := (List.range n).map fun k => b (i+k)

/-- The buffer with the bytes written from index `i` on. -/
def store (b : Buf) (i : ℕ) (bytes : List UInt8) : Buf := fun x =>
  if i ≤ x ∧ x < i+bytes.length then bytes.getD (x-i) 0 else b x

@[simp] theorem load_length (b : Buf) (i n : ℕ) : (load b i n).length = n := by
  simp [load]

@[simp] theorem load_zero (b : Buf) (i : ℕ) : load b i 0 = [] := rfl

theorem load_getElem {b : Buf} {i n k : ℕ} (h : k < (load b i n).length) :
    (load b i n)[k] = b (i+k) := by
  simp [load]

theorem load_congr {b b' : Buf} {i n : ℕ} (h : ∀ k < n, b (i+k) = b' (i+k)) :
    load b i n = load b' i n := by
  apply List.map_congr_left
  intro k hk
  exact h k (List.mem_range.mp hk)

theorem load_add (b : Buf) (i n m : ℕ) : load b i (n+m) = load b i n ++ load b (i+n) m := by
  simp [load,List.range_add,Nat.add_assoc,Function.comp_def]

theorem load_succ (b : Buf) (i n : ℕ) : load b i (n+1) = b i :: load b (i+1) n := by
  rw [Nat.add_comm n 1,load_add]
  rfl

theorem load_cons {b : Buf} {i n : ℕ} {x : UInt8} {xs : List UInt8} (h : load b i n = x::xs) :
    b i = x ∧ load b (i+1) (n-1) = xs ∧ n = xs.length+1 := by
  have hlen := congrArg List.length h
  rw [load_length,List.length_cons] at hlen
  obtain ⟨k,rfl⟩ : ∃ k, n = k+1 := ⟨n-1,by omega⟩
  rw [load_succ] at h
  obtain ⟨hx,hxs⟩ := List.cons.inj h
  exact ⟨hx,hxs,hlen⟩

theorem load_append {b : Buf} {i n : ℕ} {xs ys : List UInt8} (h : load b i n = xs ++ ys) :
    load b i xs.length = xs ∧ load b (i+xs.length) ys.length = ys := by
  have hlen := congrArg List.length h
  rw [load_length,List.length_append] at hlen
  rw [hlen,load_add] at h
  exact List.append_inj h (by simp)

theorem store_out {b : Buf} {i x : ℕ} {bytes : List UInt8} (h : x < i ∨ i+bytes.length ≤ x) :
    store b i bytes x = b x := by
  rw [store,if_neg (by omega)]

theorem store_in {b : Buf} {i k : ℕ} {bytes : List UInt8} (h : k < bytes.length) :
    store b i bytes (i+k) = bytes[k] := by
  rw [store,if_pos (by omega),Nat.add_sub_cancel_left]
  simp [List.getD,h]

theorem load_store (b : Buf) (i : ℕ) (bytes : List UInt8) :
    load (store b i bytes) i bytes.length = bytes := by
  apply List.ext_getElem
  · simp
  · intro k _ hk
    rw [load_getElem,store_in hk]

theorem load_store_other {b : Buf} {i j n : ℕ} {bytes : List UInt8}
    (h : j+n ≤ i ∨ i+bytes.length ≤ j) : load (store b i bytes) j n = load b j n := by
  apply load_congr
  intro k hk
  exact store_out (by omega)

@[simp] theorem store_nil (b : Buf) (i : ℕ) : store b i [] = b := by
  funext x
  exact store_out (by rw [List.length_nil]; omega)

theorem store_append (b : Buf) (i : ℕ) (xs ys : List UInt8) :
    store (store b i xs) (i+xs.length) ys = store b i (xs ++ ys) := by
  funext x
  simp only [store,List.length_append]
  by_cases hy : i+xs.length ≤ x ∧ x < i+xs.length+ys.length
  · rw [if_pos hy,if_pos (by omega),List.getD_append_right _ _ _ _ (by omega)]
    congr 1
    omega
  · rw [if_neg hy]
    by_cases hx : i ≤ x ∧ x < i+xs.length
    · rw [if_pos hx,if_pos (by omega),List.getD_append _ _ _ _ (by omega)]
    · rw [if_neg hx,if_neg (by omega)]

end Buffers
end MeterLogger
