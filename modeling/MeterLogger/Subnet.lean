import Mathlib.Tactic.Common

/-!
# Subnets

Addresses that agree with the address of the network wherever its mask has a one. Two networks
have an address in common unless they differ at a place that both masks cover.
-/

namespace MeterLogger

/-- A network; its address has no bits outside its mask. -/
structure Subnet (w : ℕ) where
  addr : BitVec w
  mask : BitVec w
  masked : addr &&& mask = addr

namespace Subnet

variable {w : ℕ}

theorem and_mask (a m : BitVec w) : a &&& m &&& m = a &&& m := by
  rw [BitVec.and_assoc,BitVec.and_self]

def of (a m : BitVec w) : Subnet w := ⟨a &&& m,m,and_mask a m⟩

instance : Membership (BitVec w) (Subnet w) := ⟨fun s a => a &&& s.mask = s.addr⟩

theorem mem_iff {s : Subnet w} {a : BitVec w} : a ∈ s ↔ a &&& s.mask = s.addr := Iff.rfl

def Disjoint (s t : Subnet w) : Prop := ∀ a, a ∈ s → a ∉ t

theorem disjoint_iff {s t : Subnet w} : s.Disjoint t ↔ s.addr &&& t.mask ≠ t.addr &&& s.mask := by
  constructor
  · intro h heq
    -- The bits of both networks together make an address of both.
    refine h (s.addr ||| t.addr) ?_ ?_
    · rw [mem_iff,BitVec.and_or_distrib_right,s.masked,← heq]
      ext i
      simp only [BitVec.getElem_or,BitVec.getElem_and]
      cases s.addr[i] <;> simp
    · rw [mem_iff,BitVec.and_or_distrib_right,t.masked,heq]
      ext i
      simp only [BitVec.getElem_or,BitVec.getElem_and]
      cases t.addr[i] <;> simp
  · intro h a hs ht
    rw [mem_iff] at hs ht
    apply h
    rw [← hs,← ht,BitVec.and_assoc,BitVec.and_assoc,BitVec.and_comm s.mask]

theorem of_disjoint_iff {a b m n : BitVec w} :
    (of a m).Disjoint (of b n) ↔ a &&& m &&& n ≠ b &&& n &&& m := disjoint_iff

/-- The mask of a network with `p` bits. -/
def prefixMask (p : ℕ) : BitVec w := BitVec.allOnes w <<< (w-p)

theorem prefixMask_bit {p i : ℕ} :
    (prefixMask p : BitVec w).getLsbD i = (decide (i < w) && decide (w-p ≤ i)) := by
  rw [prefixMask,BitVec.getLsbD_shiftLeft,BitVec.getLsbD_allOnes]
  by_cases hi : i < w
  · by_cases hp : i < w-p
    · simp [hi,hp]
      omega
    · simp [hi,hp]
      omega
  · simp [hi]

end Subnet
end MeterLogger
