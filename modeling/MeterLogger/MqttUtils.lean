import Mathlib.Algebra.Group.Nat.Defs
import Mathlib.Data.Int.Basic
import Mathlib.Tactic.Common

/-!
# Broker addresses

`UTILS_StrToIP` reads four decimal numbers separated by dots. The digits of a number
are accumulated in a C `int` that nothing bounds before the number ends; behind the
fourth number any character ends the scan.
-/

namespace MeterLogger
namespace MqttUtils

/-- The value of a C expression stored in an `int`. -/
def toI32 (n : ℤ) : ℤ := Int.bmod n (2^32)

/-- The inner loop of `UTILS_StrToIP`: the number read and the characters behind the one
that ended it. The end of the list is the terminating NUL. -/
def strToIPNumber (last : Bool) : ℤ → List UInt8 → Option (ℤ × List UInt8)
  | n, [] => if last then some (n,[]) else none
  | n, c::cs =>
    if 0x30 ≤ c ∧ c ≤ 0x39 then strToIPNumber last (toI32 (toI32 (n*10)+(c.toNat-0x30))) cs
    else if last ∨ c = 0x2E then some (n,cs) else none

/-- The outer loop of `UTILS_StrToIP` with `k` numbers left. -/
def strToIPLoop : ℕ → List UInt8 → Option (List ℕ)
  | 0, _ => some []
  | k+1, str =>
    match strToIPNumber (k = 0) 0 str with
    | none => none
    | some (n,rest) =>
      if n ≥ 256 then none else (strToIPLoop k rest).map ((n%256).toNat :: ·)

/-- `UTILS_StrToIP`: the four bytes stored, or `none` for 0. -/
def utilsStrToIP (str : List UInt8) : Option (List ℕ) := strToIPLoop 4 str

/-- The bytes of an `ip_addr_t`, lowest first. -/
def ipBytes (addr : ℕ) : List ℕ :=
  [addr%256,addr/2^8%256,addr/2^16%256,addr/2^24%256]

theorem strToIPLoop_bytes {k : ℕ} {str : List UInt8} {ip : List ℕ}
    (h : strToIPLoop k str = some ip) : ip.length = k ∧ ∀ b ∈ ip, b < 256 := by
  induction k generalizing str ip with
  | zero =>
    cases h
    simp
  | succ k ih =>
    unfold strToIPLoop at h
    split at h
    · cases h
    · rename_i n rest _
      split at h
      · cases h
      · obtain ⟨tail,htail,rfl⟩ := Option.map_eq_some_iff.mp h
        have hb := ih htail
        refine ⟨by simp [hb.1],?_⟩
        intro b hmem
        rcases List.mem_cons.mp hmem with rfl | hmem
        · omega
        · exact hb.2 b hmem

theorem utilsStrToIP_bytes {str : List UInt8} {ip : List ℕ} (h : utilsStrToIP str = some ip) :
    ip.length = 4 ∧ ∀ b ∈ ip, b < 256 :=
  strToIPLoop_bytes h

example : utilsStrToIP [0x31,0x30,0x2E,0x30,0x2E,0x30,0x2E,0x37] = some [10,0,0,7] := by decide

end MqttUtils
end MeterLogger
