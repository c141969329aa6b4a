import Mathlib.Data.List.Pairwise
import Mathlib.Data.List.Nodup
import Mathlib.Tactic.Common

/-!
# Ids from a cyclic counter

A counter hands out the numbers `1` to `N` round and round, and a queue holds some of the ids
handed out, oldest first. As long as fewer than `N` ids are handed out while one of them is in the
queue, the ids of the queue are different. Ids are put behind the queue or lost, and the oldest
leaves it.
-/

namespace MeterLogger
namespace IdCounter

variable {N : ℕ}

/-- The counter when `n` ids have been handed out since it was at 0. -/
def value (N n : ℕ) : ℕ := if n = 0 then 0 else (n-1)%N+1

def nextId (N m : ℕ) : ℕ := m%N+1

/-- How many ids have been handed out after `id`, if fewer than `N`. -/
def age (N m id : ℕ) : ℕ := (m+N-id)%N

theorem value_succ (N n : ℕ) : value N (n+1) = n%N+1 := if_neg (Nat.succ_ne_zero n)

theorem value_pos {n : ℕ} (hn : 0 < n) : value N n ≠ 0 := by
  rw [value,if_neg (by omega)]
  omega

theorem nextId_value (n : ℕ) : nextId N (value N n) = value N (n+1) := by
  cases n with
  | zero => simp [nextId,value]
  | succ n => rw [value_succ,value_succ,nextId,Nat.mod_add_mod]

theorem age_value {n k : ℕ} (hk : 0 < k) (hkn : k ≤ n) (hn : n < k+N) :
    age N (value N n) (value N k) = n-k := by
  have hN : 0 < N := by omega
  obtain ⟨j,rfl⟩ : ∃ j, k = j+1 := ⟨k-1,by omega⟩
  obtain ⟨d,rfl⟩ : ∃ d, n = j+d+1 := ⟨n-j-1,by omega⟩
  rw [value_succ,value_succ,age]
  have hj := Nat.mod_lt j hN
  have hd : d < N := by omega
  have hmod : (j+d)%N = (j%N+d)%N := (Nat.mod_add_mod j N d).symm
  rw [hmod]
  by_cases hwrap : j%N+d < N
  · have hsum : (j%N+d)%N+1+N-(j%N+1) = d+N := by
      rw [Nat.mod_eq_of_lt hwrap]
      omega
    rw [hsum,Nat.add_mod_right,Nat.mod_eq_of_lt hd]
    omega
  · have hback : (j%N+d)%N = j%N+d-N := by
      rw [Nat.mod_eq_sub_mod (by omega),Nat.mod_eq_of_lt (by omega)]
    have hsum : (j%N+d)%N+1+N-(j%N+1) = d := by omega
    rw [hsum,Nat.mod_eq_of_lt hd]
    omega

/-- The ids of a queue, oldest first, have been handed out one after the other, and fewer than `N`
since the oldest. -/
def Spread (N : ℕ) (ids : List ℕ) (m : ℕ) : Prop :=
  ∃ (n : ℕ) (ns : List ℕ), m = value N n ∧ ids = ns.map (value N) ∧ ns.Pairwise (· < ·) ∧
    ∀ k ∈ ns, 0 < k ∧ k ≤ n ∧ n < k+N

/-- There is room for `j` more ids before the counter comes round to the oldest. -/
def Room (N : ℕ) (ids : List ℕ) (m j : ℕ) : Prop :=
  match ids with
  | [] => j ≤ N
  | id::_ => age N m id+j < N

/-- From `s` on `k` ids are handed out; each is put behind the queue or lost. -/
inductive Shift (N : ℕ) (s : List ℕ × ℕ) : ℕ → List ℕ × ℕ → Prop
  | refl : Shift N s 0 s
  | lose {k ids m} : Shift N s k (ids,m) → Shift N s (k+1) (ids,nextId N m)
  | push {k ids m} : Shift N s k (ids,m) → Shift N s (k+1) (ids ++ [nextId N m],nextId N m)
  | drop {k id ids m} : Shift N s k (id::ids,m) → Shift N s k (ids,m)

namespace Spread

variable {ids : List ℕ} {m id j : ℕ}

theorem nil (n : ℕ) : Spread N [] (value N n) := ⟨n,[],rfl,rfl,.nil,by simp⟩

theorem nodup (h : Spread N ids m) : ids.Nodup := by
  obtain ⟨n,ns,rfl,rfl,hlt,hns⟩ := h
  have hnodup : ns.Nodup := hlt.imp fun hab => Nat.ne_of_lt hab
  refine (List.nodup_map_iff_inj_on hnodup).mpr fun a ha b hb hab => ?_
  obtain ⟨ha₀,han,haN⟩ := hns a ha
  obtain ⟨hb₀,hbn,hbN⟩ := hns b hb
  have hage := age_value ha₀ han haN
  rw [hab,age_value hb₀ hbn hbN] at hage
  omega

theorem ne_zero (h : Spread N ids m) (hid : id ∈ ids) : id ≠ 0 := by
  obtain ⟨n,ns,rfl,rfl,_,hns⟩ := h
  obtain ⟨k,hk,rfl⟩ := List.mem_map.mp hid
  exact value_pos (hns k hk).1

theorem drop (h : Spread N (id::ids) m) : Spread N ids m := by
  obtain ⟨n,ns,hm,hids,hlt,hns⟩ := h
  cases ns with
  | nil => simp at hids
  | cons k ns =>
    rw [List.map_cons,List.cons.injEq] at hids
    exact ⟨n,ns,hm,hids.2,hlt.of_cons,fun a ha => hns a (List.mem_cons_of_mem _ ha)⟩

theorem room_drop (h : Spread N (id::ids) m) (hroom : Room N (id::ids) m j) : Room N ids m j := by
  obtain ⟨n,ns,rfl,hids,hlt,hns⟩ := h
  cases ns with
  | nil => simp at hids
  | cons k ns =>
    rw [List.map_cons,List.cons.injEq] at hids
    obtain ⟨rfl,rfl⟩ := hids
    have hk := hns k List.mem_cons_self
    simp only [Room,age_value hk.1 hk.2.1 hk.2.2] at hroom
    cases ns with
    | nil =>
      simp only [List.map_nil,Room]
      omega
    | cons l ns =>
      have hl := hns l (by simp)
      have hkl : k < l := (List.pairwise_cons.mp hlt).1 l (by simp)
      simp only [List.map_cons,Room,age_value hl.1 hl.2.1 hl.2.2]
      omega

theorem lose (h : Spread N ids m) (hroom : Room N ids m (j+1)) :
    Spread N ids (nextId N m) ∧ Room N ids (nextId N m) j := by
  obtain ⟨n,ns,rfl,rfl,hlt,hns⟩ := h
  rw [nextId_value]
  cases ns with
  | nil =>
    refine ⟨nil _,?_⟩
    simp only [List.map_nil,Room] at hroom ⊢
    omega
  | cons k ns =>
    have hk := hns k List.mem_cons_self
    simp only [List.map_cons,Room,age_value hk.1 hk.2.1 hk.2.2] at hroom ⊢
    have hfirst : ∀ l ∈ k::ns, k ≤ l := by
      intro l hl
      rcases List.mem_cons.mp hl with rfl | hl
      · exact Nat.le_refl _
      · exact Nat.le_of_lt ((List.pairwise_cons.mp hlt).1 l hl)
    refine ⟨⟨n+1,k::ns,rfl,rfl,hlt,fun l hl => ?_⟩,?_⟩
    · have hl' := hns l hl
      have hle := hfirst l hl
      omega
    · rw [age_value hk.1 (by omega) (by omega)]
      omega

theorem push (h : Spread N ids m) (hroom : Room N ids m (j+1)) :
    Spread N (ids ++ [nextId N m]) (nextId N m) ∧ Room N (ids ++ [nextId N m]) (nextId N m) j := by
  obtain ⟨n,ns,rfl,rfl,hlt,hns⟩ := h
  rw [nextId_value]
  have hbehind : (ns ++ [n+1]).Pairwise (· < ·) := by
    rw [List.pairwise_append]
    refine ⟨hlt,List.pairwise_singleton _ _,fun a ha b hb => ?_⟩
    have han := (hns a ha).2.1
    rw [List.mem_singleton] at hb
    omega
  have hids : ns.map (value N) ++ [value N (n+1)] = (ns ++ [n+1]).map (value N) := by simp
  cases ns with
  | nil =>
    simp only [List.map_nil,Room] at hroom
    refine ⟨⟨n+1,[n+1],rfl,rfl,hbehind,fun k hk => ?_⟩,?_⟩
    · rw [List.mem_singleton] at hk
      omega
    · simp only [List.map_nil,List.nil_append,Room]
      rw [age_value (by omega) (by omega) (by omega)]
      omega
  | cons k ns =>
    have hspread : Spread N ((k::ns).map (value N)) (value N n) := ⟨n,k::ns,rfl,rfl,hlt,hns⟩
    have hroom' := (hspread.lose hroom).2
    rw [nextId_value] at hroom'
    refine ⟨⟨n+1,k::ns ++ [n+1],rfl,hids,hbehind,fun l hl => ?_⟩,hroom'⟩
    have hk := hns k List.mem_cons_self
    simp only [List.map_cons,Room,age_value hk.1 hk.2.1 hk.2.2] at hroom
    rcases List.mem_append.mp hl with hl | hl
    · have hl' := hns l hl
      rcases List.mem_cons.mp hl with rfl | hmem
      · omega
      · have hle := (List.pairwise_cons.mp hlt).1 l hmem
        omega
    · rw [List.mem_singleton] at hl
      omega

end Spread

namespace Shift

variable {k j : ℕ} {s t u : List ℕ × ℕ}

theorem trans (h₁ : Shift N s k t) (h₂ : Shift N t j u) : Shift N s (k+j) u := by
  induction h₂ with
  | refl => exact h₁
  | lose _ ih => exact .lose ih
  | push _ ih => exact .push ih
  | drop _ ih => exact .drop ih

theorem spread (h : Shift N s k t) (hs : Spread N s.1 s.2) (hroom : Room N s.1 s.2 (k+j)) :
    Spread N t.1 t.2 ∧ Room N t.1 t.2 j := by
  induction h generalizing j with
  | refl => exact ⟨hs,by simpa using hroom⟩
  | lose _ ih =>
    obtain ⟨hspread,hroom⟩ := ih (j := j+1) (by rwa [Nat.add_right_comm] at hroom)
    exact hspread.lose hroom
  | push _ ih =>
    obtain ⟨hspread,hroom⟩ := ih (j := j+1) (by rwa [Nat.add_right_comm] at hroom)
    exact hspread.push hroom
  | drop _ ih =>
    obtain ⟨hspread,hroom⟩ := ih hroom
    exact ⟨hspread.drop,hspread.room_drop hroom⟩

end Shift

end IdCounter
end MeterLogger
