import Mathlib.Data.List.Basic
import Mathlib.Data.Nat.Bitwise
import Mathlib.Tactic.Common

/-!
# Bytes and 16-bit words

Masks and shifts of bytes as arithmetic, and the big-endian reading and writing of
16-bit words.
-/

namespace MeterLogger
namespace Bytes

theorem forall_byte {P : UInt8 → Prop} (h : ∀ n : Fin 256, P (UInt8.ofNat n.val)) (b : UInt8) :
    P b := by
  have hb := h ⟨b.toNat,b.toNat_lt⟩
  simpa using hb

@[simp] theorem low_seven (b : UInt8) : (b &&& 0x7f).toNat = b.toNat%128 :=
  Nat.and_two_pow_sub_one_eq_mod b.toNat 7

@[simp] theorem high_bit_clear (b : UInt8) : b &&& 0x80 = 0 ↔ b.toNat < 128 := by
  have hlt := b.toNat_lt
  have hbit : (b &&& 0x80).toNat = (b.toNat.testBit 7).toNat*2^7 := Nat.and_two_pow b.toNat 7
  have hset : b.toNat.testBit 7 = true ↔ 128 ≤ b.toNat := by
    rw [Nat.testBit_eq_decide_div_mod_eq,decide_eq_true_eq]
    omega
  rw [← UInt8.toNat_inj,hbit,UInt8.toNat_zero,← not_le,← hset]
  simp

theorem masked_field (mask shift : UInt8) (k : ℕ)
    (hmask : mask.toNat >>> (shift.toNat%8) = 2^k-1) (b : UInt8) :
    ((b &&& mask) >>> shift).toNat = b.toNat/2^(shift.toNat%8)%2^k := by
  rw [UInt8.toNat_shiftRight,UInt8.toNat_and,Nat.shiftRight_and_distrib,hmask,
    Nat.and_two_pow_sub_one_eq_mod,Nat.shiftRight_eq_div_pow]

theorem high_nibble (b : UInt8) : ((b &&& 0xf0) >>> 4).toNat = b.toNat/16 := by
  have hlt := b.toNat_lt
  have hfield : _ = b.toNat/16%16 := masked_field 0xf0 4 4 rfl b
  rw [hfield]
  omega

theorem bits_two_one (b : UInt8) : ((b &&& 0x06) >>> 1).toNat = b.toNat/2%4 :=
  masked_field 0x06 1 2 rfl b

/-- The big-endian word at offset `i`. -/
def readU16 (buf : List UInt8) (i : ℕ) : ℕ :=
  (buf.getD i 0).toNat <<< 8 ||| (buf.getD (i+1) 0).toNat

/-- The two bytes `n >> 8` and `n & 0xff`, each truncated to a byte. -/
def u16Bytes (n : ℕ) : List UInt8 := [UInt8.ofNat (n >>> 8),UInt8.ofNat (n &&& 0xff)]

@[simp] theorem u16Bytes_length (n : ℕ) : (u16Bytes n).length = 2 := rfl

theorem readU16_eq (buf : List UInt8) (i : ℕ) :
    readU16 buf i = (buf.getD i 0).toNat*256+(buf.getD (i+1) 0).toNat := by
  have h := (buf.getD (i+1) 0).toNat_lt
  rw [readU16,← Nat.shiftLeft_add_eq_or_of_lt (by omega),Nat.shiftLeft_eq]

theorem readU16_lt (buf : List UInt8) (i : ℕ) : readU16 buf i < 65536 := by
  have h₁ := (buf.getD i 0).toNat_lt
  have h₂ := (buf.getD (i+1) 0).toNat_lt
  rw [readU16_eq]
  omega

theorem readU16_u16Bytes {n : ℕ} (hn : n < 65536) (pre rest : List UInt8) :
    readU16 (pre ++ (u16Bytes n ++ rest)) pre.length = n := by
  have hand : n &&& 0xff = n%256 := Nat.and_two_pow_sub_one_eq_mod n 8
  have h₀ : (pre ++ (u16Bytes n ++ rest)).getD pre.length 0 = UInt8.ofNat (n >>> 8) := by
    simp [u16Bytes]
  have h₁ : (pre ++ (u16Bytes n ++ rest)).getD (pre.length+1) 0 = UInt8.ofNat (n &&& 0xff) := by
    simp [u16Bytes]
  rw [readU16_eq,h₀,h₁,hand,Nat.shiftRight_eq_div_pow]
  simp only [UInt8.toNat_ofNat']
  omega

theorem readU16_append (pre buf : List UInt8) (i : ℕ) :
    readU16 (pre ++ buf) (pre.length+i) = readU16 buf i := by
  have h : ∀ k, (pre ++ buf).getD (pre.length+k) 0 = buf.getD k 0 := by
    intro k
    rw [List.getD_eq_getElem?_getD,List.getElem?_append_right (by omega),Nat.add_sub_cancel_left,
      List.getD_eq_getElem?_getD]
  rw [readU16,readU16,h,Nat.add_assoc,h]

end Bytes
end MeterLogger
