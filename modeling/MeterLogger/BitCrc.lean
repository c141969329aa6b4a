import Mathlib.Data.List.Range
import Mathlib.Tactic.Common

/-!
# Checksums bit by bit

A register of `w` bits takes a message bit by bit, the most significant one first: it is shifted to
the left, and the polynomial is added when the bit that falls out differs from the bit of the
message. The register is linear in what it holds and in what it takes; hence several bits at once
are a shift and what an empty register makes of the bits that fall out.
-/

namespace MeterLogger
namespace BitCrc

variable {w n : ℕ}

def step (poly crc : BitVec w) (bit : Bool) : BitVec w :=
  if (crc.msb ^^ bit) = true then (crc <<< 1) ^^^ poly else crc <<< 1

def run (poly crc : BitVec w) (bits : List Bool) : BitVec w := bits.foldl (step poly) crc

/-- The first `k` bits of a word, the most significant first. -/
def leading (k : ℕ) (x : BitVec n) : List Bool := (List.range k).map x.getMsbD

def bitsOf (x : BitVec n) : List Bool := leading n x

/-- The `n` most significant bits of a register. -/
def top (n : ℕ) (x : BitVec w) : BitVec n := (x >>> (w-n)).setWidth n

variable (poly : BitVec w) {a b x : BitVec w}

theorem run_append (crc : BitVec w) (xs ys : List Bool) :
    run poly crc (xs ++ ys) = run poly (run poly crc xs) ys :=
  List.foldl_append

theorem step_xor (a b : BitVec w) (s t : Bool) :
    step poly (a ^^^ b) (s ^^ t) = step poly a s ^^^ step poly b t := by
  have hmsb : ((a ^^^ b).msb ^^ (s ^^ t)) = ((a.msb ^^ s) ^^ (b.msb ^^ t)) := by
    rw [BitVec.msb_xor]
    cases a.msb <;> cases b.msb <;> cases s <;> cases t <;> rfl
  rw [step,step,step,hmsb,BitVec.shiftLeft_xor_distrib]
  cases a.msb ^^ s <;> cases b.msb ^^ t
  · rfl
  · exact BitVec.xor_assoc _ _ _
  · show a <<< 1 ^^^ b <<< 1 ^^^ poly = a <<< 1 ^^^ poly ^^^ b <<< 1
    rw [BitVec.xor_assoc,BitVec.xor_comm (b <<< 1),BitVec.xor_assoc]
  · show a <<< 1 ^^^ b <<< 1 = a <<< 1 ^^^ poly ^^^ (b <<< 1 ^^^ poly)
    rw [BitVec.xor_comm (b <<< 1) poly,BitVec.xor_assoc,← BitVec.xor_assoc poly,BitVec.xor_self,
      BitVec.zero_xor]

theorem run_xor (a b : BitVec w) (k : ℕ) (f g : ℕ → Bool) :
    run poly (a ^^^ b) ((List.range k).map fun i => f i ^^ g i) =
      run poly a ((List.range k).map f) ^^^ run poly b ((List.range k).map g) := by
  induction k with
  | zero => rfl
  | succ k ih =>
    simp only [List.range_succ,List.map_append,List.map_singleton,run_append]
    rw [ih]
    exact step_xor poly _ _ _ _

theorem run_leading (x : BitVec w) {k : ℕ} (hk : k ≤ w) : run poly x (leading k x) = x <<< k := by
  induction k with
  | zero => exact (BitVec.shiftLeft_zero x).symm
  | succ k ih =>
    have hmsb : (x <<< k).msb = x.getMsbD k := by
      rw [BitVec.msb_eq_getMsbD_zero,BitVec.getMsbD_shiftLeft,Nat.zero_add]
    rw [leading,List.range_succ,List.map_append,run_append]
    rw [leading] at ih
    rw [ih (Nat.le_of_succ_le hk)]
    show step poly (x <<< k) (x.getMsbD k) = x <<< (k+1)
    rw [step,hmsb,Bool.xor_self,if_neg Bool.false_ne_true,BitVec.shiftLeft_add]

theorem run_self (x : BitVec w) : run poly x (bitsOf x) = 0#w := by
  rw [bitsOf,run_leading poly x (Nat.le_refl w),BitVec.shiftLeft_eq_zero (Nat.le_refl w)]

theorem getMsbD_top (hn : n ≤ w) {i : ℕ} (hi : i < n) : (top n x).getMsbD i = x.getMsbD i := by
  have hplace : w-n+(n-1-i) = w-1-i := by omega
  have hlow : n-1-i < n := by omega
  have hbelow : i < w := Nat.lt_of_lt_of_le hi hn
  simp [top,BitVec.getMsbD,hplace,hlow,hi,hbelow]

theorem run_bitsOf (hn : n ≤ w) (x : BitVec w) (b : BitVec n) :
    run poly x (bitsOf b) = (x <<< n) ^^^ run poly 0#w (bitsOf (top n x ^^^ b)) := by
  have hsplit : bitsOf b = (List.range n).map fun i => x.getMsbD i ^^ (top n x ^^^ b).getMsbD i := by
    apply List.map_congr_left
    intro i hi
    rw [BitVec.getMsbD_xor,getMsbD_top hn (List.mem_range.mp hi),← Bool.xor_assoc,Bool.xor_self,
      Bool.false_xor]
  have hlinear := run_xor poly x 0#w n x.getMsbD (top n x ^^^ b).getMsbD
  rw [BitVec.xor_zero] at hlinear
  rw [hsplit,hlinear]
  exact congrArg (· ^^^ _) (run_leading poly x hn)

end BitCrc
end MeterLogger
