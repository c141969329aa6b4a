import Mathlib.Data.List.GetD
import MeterLogger.CStrings

/-!
# Character arrays

Arrays of bytes of a fixed size that hold a C string, and the functions that write one into
them. An array is terminated if one of its bytes is NUL.
-/

namespace MeterLogger
namespace CharArray

open CStrings

variable {n size k : ℕ} {a : Vector UInt8 n} {src : List UInt8}

/-- The string in an array: the bytes before the first NUL, all of them if there is none. -/
def str (a : Vector UInt8 n) : List UInt8 := cstr a.toList

def Terminated (a : Vector UInt8 n) : Prop := 0 ∈ a.toList

instance : Decidable (Terminated a) := inferInstanceAs (Decidable (0 ∈ a.toList))

/-- `memset` of the whole array. -/
@[irreducible] def zeros (n : ℕ) : Vector UInt8 n := Vector.replicate n 0

/-- `strncpy` of `size` bytes: the string, and NULs as far as they go. -/
@[irreducible] def strncpy (a : Vector UInt8 n) (src : List UInt8) (size : ℕ) : Vector UInt8 n :=
  Vector.ofFn fun i => if i.val < size then (cstr src).getD i 0 else a[i]

/-- `snprintf` of a text into `size` bytes: as much of it as fits, and a NUL. -/
@[irreducible] def snprintf (a : Vector UInt8 n) (size : ℕ) (text : List UInt8) : Vector UInt8 n :=
  Vector.ofFn fun i =>
    if i.val < min text.length (size-1) then text.getD i 0
    else if i.val = min text.length (size-1) then 0 else a[i]

/-- `strncmp` finds no difference in the first `size` bytes. -/
def sameStart (xs ys : List UInt8) (size : ℕ) : Bool := xs.take size = ys.take size

theorem terminated_of_get (i : ℕ) (hi : i < n) (h : a[i] = 0) : Terminated a := by
  rw [Terminated,← h]
  exact Vector.mem_toList_iff.mpr (Vector.getElem_mem hi)

theorem terminated_iff : Terminated a ↔ ∃ i, ∃ hi : i < n, a[i] = 0 := by
  constructor
  · intro h
    obtain ⟨i,hi,hget⟩ := Vector.mem_iff_getElem.mp (Vector.mem_toList_iff.mp h)
    exact ⟨i,hi,hget⟩
  · rintro ⟨i,hi,hget⟩
    exact terminated_of_get i hi hget

theorem terminated_zeros (h : 0 < n) : Terminated (zeros n) :=
  terminated_of_get 0 h (by simp [zeros])

theorem strncpy_get {i : ℕ} (hi : i < n) :
    (strncpy a src size)[i] = if i < size then (cstr src).getD i 0 else a[i] := by
  simp [strncpy]

theorem snprintf_get {i : ℕ} (hi : i < n) :
    (snprintf a size src)[i] = if i < min src.length (size-1) then src.getD i 0
      else if i = min src.length (size-1) then 0 else a[i] := by
  simp [snprintf]

/-- An array is terminated after a copy if the copy has its NUL, or a byte behind it is NUL. -/
theorem terminated_strncpy_iff (hn : size ≤ n) : Terminated (strncpy a src size) ↔
    (cstr src).length < size ∨ ∃ i, ∃ hi : i < n, size ≤ i ∧ a[i] = 0 := by
  constructor
  · intro h
    obtain ⟨i,hi,hget⟩ := terminated_iff.mp h
    rw [strncpy_get] at hget
    split at hget
    · rename_i hlt
      refine Or.inl (lt_of_not_ge fun hge => ?_)
      rw [List.getD_eq_getElem _ _ (by omega)] at hget
      exact zero_not_mem_cstr src (hget ▸ List.getElem_mem (by omega))
    · exact Or.inr ⟨i,hi,by omega,hget⟩
  · rintro (hlt | ⟨i,hi,hle,hget⟩)
    · refine terminated_of_get (cstr src).length (hlt.trans_le hn) ?_
      rw [strncpy_get,if_pos hlt,List.getD_eq_default _ _ (Nat.le_refl _)]
    · refine terminated_of_get i hi ?_
      rw [strncpy_get,if_neg (by omega),hget]

theorem terminated_strncpy_zeros (h : size < n) : Terminated (strncpy (zeros n) src size) :=
  (terminated_strncpy_iff h.le).mpr (Or.inr ⟨size,h,Nat.le_refl _,by simp [zeros]⟩)

theorem terminated_snprintf (hpos : 0 < size) (hn : size ≤ n) :
    Terminated (snprintf a size src) := by
  have hlt : min src.length (size-1) < n := by omega
  refine terminated_of_get _ hlt ?_
  rw [snprintf_get,if_neg (Nat.lt_irrefl _),if_pos rfl]

/-- The bytes of a copy: the string, NULs as far as they go, and what was there. -/
theorem strncpy_toList (hn : size ≤ n) : (strncpy a src size).toList =
    (cstr src).take size ++ (List.replicate (size-(cstr src).length) 0 ++ a.toList.drop size) := by
  refine List.ext_getElem ?_ fun i h₁ h₂ => ?_
  · simp
    omega
  · have hi : i < n := by simpa using h₁
    have hfilled := List.length_replicate (n := size-(cstr src).length) (a := (0 : UInt8))
    have hcopied := List.length_take (i := size) (l := cstr src)
    rw [Vector.getElem_toList,strncpy_get]
    by_cases hs : i < size
    · rw [if_pos hs]
      by_cases hlt : i < (cstr src).length
      · rw [List.getElem_append_left (by omega),List.getElem_take,List.getD_eq_getElem _ _ hlt]
      · rw [List.getElem_append_right (by omega),List.getElem_append_left (by omega),
          List.getElem_replicate,List.getD_eq_default _ _ (by omega)]
    · rw [if_neg hs,List.getElem_append_right (by omega),List.getElem_append_right (by omega),
        List.getElem_drop,Vector.getElem_toList]
      congr 1
      omega

/-- The string in an array after a copy: behind a copy without a NUL the old bytes go on. -/
theorem str_strncpy (hn : size ≤ n) : str (strncpy a src size) =
    (cstr src).take size ++ if (cstr src).length < size then [] else cstr (a.toList.drop size) := by
  have hnul : 0 ∉ (cstr src).take size := fun h => zero_not_mem_cstr src (List.mem_of_mem_take h)
  rw [str,strncpy_toList hn,cstr_append hnul]
  by_cases hlt : (cstr src).length < size
  · obtain ⟨k,hk⟩ : ∃ k, size-(cstr src).length = k+1 := ⟨size-(cstr src).length-1,by omega⟩
    rw [if_pos hlt,hk,List.replicate_succ]
    exact congrArg ((cstr src).take size ++ ·) (cstr_append_nul [] _)
  · rw [if_neg hlt,Nat.sub_eq_zero_of_le (by omega)]
    exact rfl

theorem str_strncpy_zeros (hn : size ≤ n) :
    str (strncpy (zeros n) src size) = (cstr src).take size := by
  have hzeros : cstr ((zeros n).toList.drop size) = [] := by
    cases hdrop : (zeros n).toList.drop size with
    | nil => exact rfl
    | cons b bs =>
      have hb : b ∈ (zeros n).toList := List.mem_of_mem_drop (hdrop ▸ List.mem_cons_self)
      have hnul : b = 0 := by
        rw [zeros,Vector.toList_replicate] at hb
        exact List.eq_of_mem_replicate hb
      rw [hnul]
      exact cstr_append_nul [] bs
  rw [str_strncpy hn,hzeros]
  split <;> exact List.append_nil _

theorem strncpy_congr {src' : List UInt8} (h : (cstr src).take size = (cstr src').take size) :
    strncpy a src size = strncpy a src' size := by
  refine Vector.ext fun i hi => ?_
  rw [strncpy_get,strncpy_get]
  split
  · rename_i hlt
    have hget := congrArg (fun xs => xs.getD i 0) h
    simp only [List.getD_eq_getElem?_getD,List.getElem?_take_of_lt hlt] at hget
    rw [List.getD_eq_getElem?_getD,List.getD_eq_getElem?_getD,hget]
  · rfl

theorem str_strncpy_full : str (strncpy a src n) = (cstr src).take n := by
  have hsame : strncpy a src n = strncpy (zeros n) src n := by
    refine Vector.ext fun i hi => ?_
    rw [strncpy_get,strncpy_get,if_pos hi,if_pos hi]
  rw [hsame,str_strncpy_zeros (Nat.le_refl n)]

theorem str_length_le {i : ℕ} (hi : i < n) (h : a[i] = 0) : (str a).length ≤ i := by
  by_contra hlong
  have hlen : i < (cstr a.toList).length := Nat.lt_of_not_le hlong
  have hget : (cstr a.toList)[i] = 0 := by
    rw [(cstr_isInitial a.toList).getElem hlen,Vector.getElem_toList,h]
  exact zero_not_mem_cstr a.toList (hget ▸ List.getElem_mem hlen)

theorem str_eq {xs : List UInt8} (hfree : 0 ∉ xs) (hlen : xs.length < n)
    (hget : ∀ i, ∀ hi : i < xs.length, a[i] = xs[i]) (hnul : a[xs.length] = 0) : str a = xs := by
  have hlast : xs.length < a.toList.length := by simpa using hlen
  have htake : a.toList.take xs.length = xs := by
    refine List.ext_getElem (by simp; omega) fun i h₁ h₂ => ?_
    rw [List.getElem_take,Vector.getElem_toList]
    exact hget i h₂
  have hdrop : a.toList.drop xs.length = 0::a.toList.drop (xs.length+1) := by
    rw [List.drop_eq_getElem_cons hlast,Vector.getElem_toList,hnul]
  rw [str,← List.take_append_drop xs.length a.toList,htake,hdrop,cstr_append_nul,cstr_self hfree]

theorem str_strncpy_set (hn : size < n) :
    str ((strncpy a src size).set size 0) = (cstr src).take size := by
  have hle := List.length_take_le size (cstr src)
  have hnul : 0 ∉ (cstr src).take size := fun h => zero_not_mem_cstr src (List.mem_of_mem_take h)
  refine str_eq hnul (by omega) (fun i hi => ?_) ?_
  · have hlt : i < size := by omega
    have hsrc : i < (cstr src).length := by
      rw [List.length_take] at hi
      omega
    rw [Vector.getElem_set_ne _ _ (by omega),strncpy_get,if_pos hlt,List.getD_eq_getElem _ _ hsrc,
      List.getElem_take]
  · rw [Vector.getElem_set]
    split_ifs with hfull
    · rfl
    · rw [strncpy_get,if_pos (by omega)]
      rw [List.length_take] at hfull ⊢
      exact List.getD_eq_default _ _ (by omega)

theorem str_snprintf_take (hn : 0 < n) (hfree : 0 ∉ src) :
    str (snprintf a n src) = src.take (n-1) := by
  have hlen : (src.take (n-1)).length = min src.length (n-1) := by
    rw [List.length_take,Nat.min_comm]
  refine str_eq (fun h => hfree (List.mem_of_mem_take h)) (by omega) (fun i hi => ?_) ?_
  · rw [snprintf_get,if_pos (by omega),List.getElem_take,List.getD_eq_getElem _ _ (by omega)]
  · rw [snprintf_get,if_neg (by omega),if_pos hlen]

theorem str_snprintf (hfree : 0 ∉ src) (hlen : src.length < n) : str (snprintf a n src) = src := by
  rw [str_snprintf_take (by omega) hfree,List.take_of_length_le (by omega)]

theorem str_of_get (hn : 0 < n) (h : a[0] = 0) : str a = [] :=
  str_eq List.not_mem_nil hn (fun i hi => absurd hi (Nat.not_lt_zero i)) h

theorem str_zeros (n : ℕ) : str (zeros n) = [] := by
  cases n with
  | zero => simp [str,zeros,cstr]
  | succ n => exact str_of_get n.succ_pos (by simp [zeros])

end CharArray
end MeterLogger
