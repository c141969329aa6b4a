import Mathlib.Algebra.Group.Nat.Defs
import Mathlib.Data.Fin.VecNotation
import Mathlib.Data.FinEnum
import Mathlib.Data.Fintype.Basic
import Mathlib.Data.List.Range
import Mathlib.Tactic.FinCases
import MeterLogger.AesCbc
import MeterLogger.Bytes

/-!
# AES-128

The block cipher of `aes.c`, with its tables and its key schedule. Every step of a round is undone
by the step of the same name with `Inv` in front; `MixColumns` and `InvMixColumns` are additive, so
that it is enough to look at columns with one byte. Hence `InvCipher` undoes `Cipher`, and `Cipher`
undoes `InvCipher`, whatever the round keys are.
-/

namespace MeterLogger
namespace Aes

open AesCbc Bytes

def sbox : List UInt8 :=
  [0x63,0x7c,0x77,0x7b,0xf2,0x6b,0x6f,0xc5,0x30,0x01,0x67,0x2b,0xfe,0xd7,0xab,0x76,
   0xca,0x82,0xc9,0x7d,0xfa,0x59,0x47,0xf0,0xad,0xd4,0xa2,0xaf,0x9c,0xa4,0x72,0xc0,
   0xb7,0xfd,0x93,0x26,0x36,0x3f,0xf7,0xcc,0x34,0xa5,0xe5,0xf1,0x71,0xd8,0x31,0x15,
   0x04,0xc7,0x23,0xc3,0x18,0x96,0x05,0x9a,0x07,0x12,0x80,0xe2,0xeb,0x27,0xb2,0x75,
   0x09,0x83,0x2c,0x1a,0x1b,0x6e,0x5a,0xa0,0x52,0x3b,0xd6,0xb3,0x29,0xe3,0x2f,0x84,
   0x53,0xd1,0x00,0xed,0x20,0xfc,0xb1,0x5b,0x6a,0xcb,0xbe,0x39,0x4a,0x4c,0x58,0xcf,
   0xd0,0xef,0xaa,0xfb,0x43,0x4d,0x33,0x85,0x45,0xf9,0x02,0x7f,0x50,0x3c,0x9f,0xa8,
   0x51,0xa3,0x40,0x8f,0x92,0x9d,0x38,0xf5,0xbc,0xb6,0xda,0x21,0x10,0xff,0xf3,0xd2,
   0xcd,0x0c,0x13,0xec,0x5f,0x97,0x44,0x17,0xc4,0xa7,0x7e,0x3d,0x64,0x5d,0x19,0x73,
   0x60,0x81,0x4f,0xdc,0x22,0x2a,0x90,0x88,0x46,0xee,0xb8,0x14,0xde,0x5e,0x0b,0xdb,
   0xe0,0x32,0x3a,0x0a,0x49,0x06,0x24,0x5c,0xc2,0xd3,0xac,0x62,0x91,0x95,0xe4,0x79,
   0xe7,0xc8,0x37,0x6d,0x8d,0xd5,0x4e,0xa9,0x6c,0x56,0xf4,0xea,0x65,0x7a,0xae,0x08,
   0xba,0x78,0x25,0x2e,0x1c,0xa6,0xb4,0xc6,0xe8,0xdd,0x74,0x1f,0x4b,0xbd,0x8b,0x8a,
   0x70,0x3e,0xb5,0x66,0x48,0x03,0xf6,0x0e,0x61,0x35,0x57,0xb9,0x86,0xc1,0x1d,0x9e,
   0xe1,0xf8,0x98,0x11,0x69,0xd9,0x8e,0x94,0x9b,0x1e,0x87,0xe9,0xce,0x55,0x28,0xdf,
   0x8c,0xa1,0x89,0x0d,0xbf,0xe6,0x42,0x68,0x41,0x99,0x2d,0x0f,0xb0,0x54,0xbb,0x16]

def rsbox : List UInt8 :=
  [0x52,0x09,0x6a,0xd5,0x30,0x36,0xa5,0x38,0xbf,0x40,0xa3,0x9e,0x81,0xf3,0xd7,0xfb,
   0x7c,0xe3,0x39,0x82,0x9b,0x2f,0xff,0x87,0x34,0x8e,0x43,0x44,0xc4,0xde,0xe9,0xcb,
   0x54,0x7b,0x94,0x32,0xa6,0xc2,0x23,0x3d,0xee,0x4c,0x95,0x0b,0x42,0xfa,0xc3,0x4e,
   0x08,0x2e,0xa1,0x66,0x28,0xd9,0x24,0xb2,0x76,0x5b,0xa2,0x49,0x6d,0x8b,0xd1,0x25,
   0x72,0xf8,0xf6,0x64,0x86,0x68,0x98,0x16,0xd4,0xa4,0x5c,0xcc,0x5d,0x65,0xb6,0x92,
   0x6c,0x70,0x48,0x50,0xfd,0xed,0xb9,0xda,0x5e,0x15,0x46,0x57,0xa7,0x8d,0x9d,0x84,
   0x90,0xd8,0xab,0x00,0x8c,0xbc,0xd3,0x0a,0xf7,0xe4,0x58,0x05,0xb8,0xb3,0x45,0x06,
   0xd0,0x2c,0x1e,0x8f,0xca,0x3f,0x0f,0x02,0xc1,0xaf,0xbd,0x03,0x01,0x13,0x8a,0x6b,
   0x3a,0x91,0x11,0x41,0x4f,0x67,0xdc,0xea,0x97,0xf2,0xcf,0xce,0xf0,0xb4,0xe6,0x73,
   0x96,0xac,0x74,0x22,0xe7,0xad,0x35,0x85,0xe2,0xf9,0x37,0xe8,0x1c,0x75,0xdf,0x6e,
   0x47,0xf1,0x1a,0x71,0x1d,0x29,0xc5,0x89,0x6f,0xb7,0x62,0x0e,0xaa,0x18,0xbe,0x1b,
   0xfc,0x56,0x3e,0x4b,0xc6,0xd2,0x79,0x20,0x9a,0xdb,0xc0,0xfe,0x78,0xcd,0x5a,0xf4,
   0x1f,0xdd,0xa8,0x33,0x88,0x07,0xc7,0x31,0xb1,0x12,0x10,0x59,0x27,0x80,0xec,0x5f,
   0x60,0x51,0x7f,0xa9,0x19,0xb5,0x4a,0x0d,0x2d,0xe5,0x7a,0x9f,0x93,0xc9,0x9c,0xef,
   0xa0,0xe0,0x3b,0x4d,0xae,0x2a,0xf5,0xb0,0xc8,0xeb,0xbb,0x3c,0x83,0x53,0x99,0x61,
   0x17,0x2b,0x04,0x7e,0xba,0x77,0xd6,0x26,0xe1,0x69,0x14,0x63,0x55,0x21,0x0c,0x7d]

/-- The entries of `Rcon` that a key of 128 bits reaches. -/
def rcon : List UInt8 := [0x8d,0x01,0x02,0x04,0x08,0x10,0x20,0x40,0x80,0x1b,0x36]

def getSBoxValue (num : UInt8) : UInt8 := sbox.getD num.toNat 0

def getSBoxInvert (num : UInt8) : UInt8 := rsbox.getD num.toNat 0

/-- `(*state)[i]`: four bytes of the block. -/
@[ext] structure Column where
  b0 : UInt8
  b1 : UInt8
  b2 : UInt8
  b3 : UInt8

@[ext] structure State where
  c0 : Column
  c1 : Column
  c2 : Column
  c3 : Column

def Column.map (f : UInt8 → UInt8) (c : Column) : Column := ⟨f c.b0,f c.b1,f c.b2,f c.b3⟩

def State.map (f : Column → Column) (s : State) : State := ⟨f s.c0,f s.c1,f s.c2,f s.c3⟩

/-- The four bytes of `RoundKey` for word `i`, from those in front of it. -/
def keyWord (roundKey : List UInt8) (i : ℕ) : List UInt8 :=
  let tempa := (List.range 4).map fun j => roundKey.getD ((i-1)*4+j) 0
  let tempa :=
    if i%4 = 0 then
      let tempa := (tempa.drop 1 ++ tempa.take 1).map getSBoxValue
      tempa.set 0 (tempa.getD 0 0 ^^^ rcon.getD (i/4) 0)
    else tempa
  (List.range 4).map fun j => roundKey.getD ((i-4)*4+j) 0 ^^^ tempa.getD j 0

/-- `RoundKey`: the key, and word for word what follows from it. -/
def keyExpansion (key : List UInt8) : List UInt8 :=
  (List.range' 4 40).foldl (fun roundKey i => roundKey ++ keyWord roundKey i)
    ((List.range 16).map fun k => key.getD k 0)

/-- Four bytes of the round keys, from index `k` on, added to a column. -/
def Column.addKey (roundKey : List UInt8) (k : ℕ) (c : Column) : Column where
  b0 := c.b0 ^^^ roundKey.getD k 0
  b1 := c.b1 ^^^ roundKey.getD (k+1) 0
  b2 := c.b2 ^^^ roundKey.getD (k+2) 0
  b3 := c.b3 ^^^ roundKey.getD (k+3) 0

def addRoundKey (roundKey : List UInt8) (round : ℕ) (s : State) : State where
  c0 := s.c0.addKey roundKey (round*4*4)
  c1 := s.c1.addKey roundKey (round*4*4+4)
  c2 := s.c2.addKey roundKey (round*4*4+2*4)
  c3 := s.c3.addKey roundKey (round*4*4+3*4)

def subBytes (s : State) : State := s.map (Column.map getSBoxValue)

def invSubBytes (s : State) : State := s.map (Column.map getSBoxInvert)

/-- Row `j` goes `j` columns to the left. -/
def shiftRows (s : State) : State where
  c0 := ⟨s.c0.b0,s.c1.b1,s.c2.b2,s.c3.b3⟩
  c1 := ⟨s.c1.b0,s.c2.b1,s.c3.b2,s.c0.b3⟩
  c2 := ⟨s.c2.b0,s.c3.b1,s.c0.b2,s.c1.b3⟩
  c3 := ⟨s.c3.b0,s.c0.b1,s.c1.b2,s.c2.b3⟩

/-- Row `j` goes `j` columns to the right. -/
def invShiftRows (s : State) : State where
  c0 := ⟨s.c0.b0,s.c3.b1,s.c2.b2,s.c1.b3⟩
  c1 := ⟨s.c1.b0,s.c0.b1,s.c3.b2,s.c2.b3⟩
  c2 := ⟨s.c2.b0,s.c1.b1,s.c0.b2,s.c3.b3⟩
  c3 := ⟨s.c3.b0,s.c2.b1,s.c1.b2,s.c0.b3⟩

def xtime (x : UInt8) : UInt8 := (x <<< 1) ^^^ (((x >>> 7) &&& (1 : UInt8)) * 0x1b)

/-- The macro `Multiply`. -/
def multiply (x y : UInt8) : UInt8 :=
  ((y &&& (1 : UInt8)) * x) ^^^
    (((y >>> 1) &&& (1 : UInt8)) * xtime x) ^^^
    (((y >>> 2) &&& (1 : UInt8)) * xtime (xtime x)) ^^^
    (((y >>> 3) &&& (1 : UInt8)) * xtime (xtime (xtime x))) ^^^
    (((y >>> 4) &&& (1 : UInt8)) * xtime (xtime (xtime (xtime x))))

def mixColumn (s : Column) : Column :=
  let t := s.b0
  let tmp := s.b0 ^^^ s.b1 ^^^ s.b2 ^^^ s.b3
  { b0 := s.b0 ^^^ (xtime (s.b0 ^^^ s.b1) ^^^ tmp)
    b1 := s.b1 ^^^ (xtime (s.b1 ^^^ s.b2) ^^^ tmp)
    b2 := s.b2 ^^^ (xtime (s.b2 ^^^ s.b3) ^^^ tmp)
    b3 := s.b3 ^^^ (xtime (s.b3 ^^^ t) ^^^ tmp) }

def mixColumns (s : State) : State := s.map mixColumn

def invMixColumn (s : Column) : Column :=
  let a := s.b0
  let b := s.b1
  let c := s.b2
  let d := s.b3
  { b0 := multiply a 0x0e ^^^ multiply b 0x0b ^^^ multiply c 0x0d ^^^ multiply d 0x09
    b1 := multiply a 0x09 ^^^ multiply b 0x0e ^^^ multiply c 0x0b ^^^ multiply d 0x0d
    b2 := multiply a 0x0d ^^^ multiply b 0x09 ^^^ multiply c 0x0e ^^^ multiply d 0x0b
    b3 := multiply a 0x0b ^^^ multiply b 0x0d ^^^ multiply c 0x09 ^^^ multiply d 0x0e }

def invMixColumns (s : State) : State := s.map invMixColumn

/-- The rounds 1 to `n` of `Cipher`. -/
def cipherRounds (roundKey : List UInt8) : ℕ → State → State
  | 0, s => s
  | n+1, s =>
    addRoundKey roundKey (n+1) (mixColumns (shiftRows (subBytes (cipherRounds roundKey n s))))

/-- The rounds `n` down to 1 of `InvCipher`. -/
def invCipherRounds (roundKey : List UInt8) : ℕ → State → State
  | 0, s => s
  | n+1, s =>
    invCipherRounds roundKey n
      (invMixColumns (addRoundKey roundKey (n+1) (invSubBytes (invShiftRows s))))

def cipherState (roundKey : List UInt8) (s : State) : State :=
  addRoundKey roundKey 10
    (shiftRows (subBytes (cipherRounds roundKey 9 (addRoundKey roundKey 0 s))))

def invCipherState (roundKey : List UInt8) (s : State) : State :=
  addRoundKey roundKey 0
    (invSubBytes (invShiftRows (invCipherRounds roundKey 9 (addRoundKey roundKey 10 s))))

/-- The 16 bytes at `state` as columns. -/
def ofBlock (b : Block) : State :=
  ⟨⟨b 0,b 1,b 2,b 3⟩,⟨b 4,b 5,b 6,b 7⟩,⟨b 8,b 9,b 10,b 11⟩,⟨b 12,b 13,b 14,b 15⟩⟩

def toBlock (s : State) : Block :=
  ![s.c0.b0,s.c0.b1,s.c0.b2,s.c0.b3,s.c1.b0,s.c1.b1,s.c1.b2,s.c1.b3,
    s.c2.b0,s.c2.b1,s.c2.b2,s.c2.b3,s.c3.b0,s.c3.b1,s.c3.b2,s.c3.b3]

/-- `KeyExpansion` and `Cipher`. -/
def cipher (key : List UInt8) (b : Block) : Block :=
  toBlock (cipherState (keyExpansion key) (ofBlock b))

/-- `KeyExpansion` and `InvCipher`. -/
def invCipher (key : List UInt8) (b : Block) : Block :=
  toBlock (invCipherState (keyExpansion key) (ofBlock b))

theorem low_bit (x : UInt8) : x &&& (1 : UInt8) = 0 ∨ x &&& (1 : UInt8) = 1 := by
  have h : (x &&& (1 : UInt8)).toNat = x.toNat%2 := by
    rw [UInt8.toNat_and]
    exact Nat.and_two_pow_sub_one_eq_mod x.toNat 1
  rcases Nat.mod_two_eq_zero_or_one x.toNat with h2 | h2
  · exact Or.inl (UInt8.toNat_inj.mp (by rw [h,h2]; rfl))
  · exact Or.inr (UInt8.toNat_inj.mp (by rw [h,h2]; rfl))

theorem xor_left_comm (x y z : UInt8) : x ^^^ (y ^^^ z) = y ^^^ (x ^^^ z) := by
  rw [← UInt8.xor_assoc,← UInt8.xor_assoc,UInt8.xor_comm x]

theorem xor_cancel_right (x y : UInt8) : x ^^^ y ^^^ y = x := by
  rw [UInt8.xor_assoc,UInt8.xor_self,UInt8.xor_zero]

theorem low_bit_mul_xor (b x y : UInt8) :
    (b &&& (1 : UInt8)) * (x ^^^ y) = ((b &&& (1 : UInt8)) * x) ^^^ ((b &&& (1 : UInt8)) * y) := by
  rcases low_bit b with h | h <;> simp [h]

theorem xtime_zero : xtime 0 = 0 := rfl

theorem xtime_xor (x y : UInt8) : xtime (x ^^^ y) = xtime x ^^^ xtime y := by
  have hbit : ((x ^^^ y) >>> 7) &&& (1 : UInt8) =
      ((x >>> 7) &&& (1 : UInt8)) ^^^ ((y >>> 7) &&& (1 : UInt8)) := by
    apply UInt8.toNat_inj.mp
    rw [UInt8.shiftRight_xor,UInt8.toNat_and,UInt8.toNat_xor,Nat.and_xor_distrib_right]
    rfl
  rw [xtime,xtime,xtime,hbit,UInt8.shiftLeft_xor]
  rcases low_bit (x >>> 7) with hx | hx <;> rcases low_bit (y >>> 7) with hy | hy <;>
    rw [hx,hy] <;> simp [UInt8.xor_assoc,UInt8.xor_comm,xor_left_comm]

theorem multiply_xor (x x' y : UInt8) :
    multiply (x ^^^ x') y = multiply x y ^^^ multiply x' y := by
  simp only [multiply,xtime_xor,low_bit_mul_xor,UInt8.xor_assoc,xor_left_comm]

theorem multiply_nine (x : UInt8) : multiply x 0x09 = x ^^^ xtime (xtime (xtime x)) := by
  show ((1*x) ^^^ (0*_) ^^^ (0*_) ^^^ (1*_) ^^^ (0*_) : UInt8) = _
  simp

theorem multiply_eleven (x : UInt8) :
    multiply x 0x0b = x ^^^ (xtime x ^^^ xtime (xtime (xtime x))) := by
  show ((1*x) ^^^ (1*_) ^^^ (0*_) ^^^ (1*_) ^^^ (0*_) : UInt8) = _
  simp [UInt8.xor_assoc]

theorem multiply_thirteen (x : UInt8) :
    multiply x 0x0d = x ^^^ (xtime (xtime x) ^^^ xtime (xtime (xtime x))) := by
  show ((1*x) ^^^ (0*_) ^^^ (1*_) ^^^ (1*_) ^^^ (0*_) : UInt8) = _
  simp [UInt8.xor_assoc]

theorem multiply_fourteen (x : UInt8) :
    multiply x 0x0e = xtime x ^^^ (xtime (xtime x) ^^^ xtime (xtime (xtime x))) := by
  show ((0*x) ^^^ (1*_) ^^^ (1*_) ^^^ (1*_) ^^^ (0*_) : UInt8) = _
  simp [UInt8.xor_assoc]

def Column.add (c d : Column) : Column :=
  ⟨c.b0 ^^^ d.b0,c.b1 ^^^ d.b1,c.b2 ^^^ d.b2,c.b3 ^^^ d.b3⟩

def Column.rot (c : Column) : Column := ⟨c.b1,c.b2,c.b3,c.b0⟩

def Column.unit (x : UInt8) : Column := ⟨x,0,0,0⟩

/-- What holds for columns with one byte, for turned columns and for sums holds for every
column. -/
theorem Column.induction {P : Column → Prop} (hunit : ∀ x, P (unit x)) (hrot : ∀ c, P c → P c.rot)
    (hadd : ∀ c d, P c → P d → P (c.add d)) (c : Column) : P c := by
  have hsum : c = (unit c.b0).add ((unit c.b1).rot.rot.rot.add
      ((unit c.b2).rot.rot.add (unit c.b3).rot)) := by
    simp [add,rot,unit]
  rw [hsum]
  exact hadd _ _ (hunit _) (hadd _ _ (hrot _ (hrot _ (hrot _ (hunit _))))
    (hadd _ _ (hrot _ (hrot _ (hunit _))) (hrot _ (hunit _))))

theorem mixColumn_add (c d : Column) : mixColumn (c.add d) = (mixColumn c).add (mixColumn d) := by
  simp [mixColumn,Column.add,xtime_xor,UInt8.xor_assoc,xor_left_comm]

theorem invMixColumn_add (c d : Column) :
    invMixColumn (c.add d) = (invMixColumn c).add (invMixColumn d) := by
  simp [invMixColumn,Column.add,multiply_xor,UInt8.xor_assoc,xor_left_comm]

theorem mixColumn_rot (c : Column) : mixColumn c.rot = (mixColumn c).rot := by
  simp [mixColumn,Column.rot,UInt8.xor_assoc,UInt8.xor_comm,xor_left_comm]

theorem invMixColumn_rot (c : Column) : invMixColumn c.rot = (invMixColumn c).rot := by
  simp [invMixColumn,Column.rot,UInt8.xor_assoc,UInt8.xor_comm]

theorem invMixColumn_mixColumn (c : Column) : invMixColumn (mixColumn c) = c := by
  induction c using Column.induction with
  | hunit x =>
    simp [Column.unit,mixColumn,invMixColumn,multiply_nine,multiply_eleven,
      multiply_thirteen,multiply_fourteen,xtime_xor,xtime_zero,UInt8.xor_assoc,UInt8.xor_comm,
      xor_left_comm]
  | hrot c h => rw [mixColumn_rot,invMixColumn_rot,h]
  | hadd c d hc hd => rw [mixColumn_add,invMixColumn_add,hc,hd]

theorem mixColumn_invMixColumn (c : Column) : mixColumn (invMixColumn c) = c := by
  induction c using Column.induction with
  | hunit x =>
    simp [Column.unit,mixColumn,invMixColumn,multiply_nine,multiply_eleven,
      multiply_thirteen,multiply_fourteen,xtime_xor,xtime_zero,UInt8.xor_assoc,
      UInt8.xor_comm,xor_left_comm]
  | hrot c h => rw [invMixColumn_rot,mixColumn_rot,h]
  | hadd c d hc hd => rw [invMixColumn_add,mixColumn_add,hc,hd]

/-- A table as one number, which is fast to look up in. -/
def tableNat (table : List UInt8) : ℕ := table.foldr (fun b n => b.toNat+256*n) 0

theorem getD_tableNat (table : List UInt8) (i : ℕ) :
    (table.getD i 0).toNat = tableNat table/256^i%256 := by
  induction table generalizing i with
  | nil => simp [tableNat]
  | cons b table ih =>
    have hb := b.toNat_lt
    have hcons : tableNat (b::table) = b.toNat+256*tableNat table := rfl
    cases i with
    | zero =>
      rw [List.getD_cons_zero,hcons]
      omega
    | succ i =>
      rw [List.getD_cons_succ,ih,hcons,Nat.pow_succ',← Nat.div_div_eq_div_mul,
        show (b.toNat+256*tableNat table)/256 = tableNat table by omega]

theorem getSBoxInvert_getSBoxValue (x : UInt8) : getSBoxInvert (getSBoxValue x) = x := by
  have hall : ∀ i < 256, tableNat rsbox/256^(tableNat sbox/256^i%256)%256 = i := by decide +kernel
  apply UInt8.toNat_inj.mp
  rw [getSBoxInvert,getSBoxValue,getD_tableNat,getD_tableNat]
  exact hall _ x.toNat_lt

theorem getSBoxValue_getSBoxInvert (x : UInt8) : getSBoxValue (getSBoxInvert x) = x := by
  have hleft : Function.LeftInverse getSBoxInvert getSBoxValue := getSBoxInvert_getSBoxValue
  have hsurj := Finite.injective_iff_surjective.mp hleft.injective
  exact hleft.rightInverse_of_surjective hsurj x

@[simp] theorem addRoundKey_addRoundKey (roundKey : List UInt8) (round : ℕ) (s : State) :
    addRoundKey roundKey round (addRoundKey roundKey round s) = s := by
  simp only [addRoundKey,Column.addKey,xor_cancel_right]

@[simp] theorem invSubBytes_subBytes (s : State) : invSubBytes (subBytes s) = s := by
  simp [invSubBytes,subBytes,State.map,Column.map,
    getSBoxInvert_getSBoxValue]

@[simp] theorem subBytes_invSubBytes (s : State) : subBytes (invSubBytes s) = s := by
  simp [invSubBytes,subBytes,State.map,Column.map,
    getSBoxValue_getSBoxInvert]

@[simp] theorem invShiftRows_shiftRows (s : State) : invShiftRows (shiftRows s) = s := rfl

@[simp] theorem shiftRows_invShiftRows (s : State) : shiftRows (invShiftRows s) = s := rfl

@[simp] theorem invMixColumns_mixColumns (s : State) : invMixColumns (mixColumns s) = s := by
  simp [invMixColumns,mixColumns,State.map,invMixColumn_mixColumn]

@[simp] theorem mixColumns_invMixColumns (s : State) : mixColumns (invMixColumns s) = s := by
  simp [invMixColumns,mixColumns,State.map,mixColumn_invMixColumn]

variable (roundKey : List UInt8)

theorem invCipherRounds_cipherRounds (n : ℕ) (s : State) :
    invCipherRounds roundKey n (shiftRows (subBytes (cipherRounds roundKey n s))) =
      shiftRows (subBytes s) := by
  induction n with
  | zero => rfl
  | succ n ih => simpa [cipherRounds,invCipherRounds] using ih

theorem cipherRounds_invCipherRounds (n : ℕ) (s : State) :
    shiftRows (subBytes
      (cipherRounds roundKey n (invSubBytes (invShiftRows (invCipherRounds roundKey n s))))) = s := by
  induction n generalizing s with
  | zero => simp [cipherRounds,invCipherRounds]
  | succ n ih => simp [cipherRounds,invCipherRounds,ih]

theorem invCipherState_cipherState (s : State) :
    invCipherState roundKey (cipherState roundKey s) = s := by
  simp [invCipherState,cipherState,invCipherRounds_cipherRounds]

theorem cipherState_invCipherState (s : State) :
    cipherState roundKey (invCipherState roundKey s) = s := by
  simp [invCipherState,cipherState,cipherRounds_invCipherRounds]

theorem ofBlock_toBlock (s : State) : ofBlock (toBlock s) = s := rfl

theorem toBlock_ofBlock (b : Block) : toBlock (ofBlock b) = b := by
  funext k
  fin_cases k <;> rfl

theorem invCipher_cipher (key : List UInt8) (b : Block) : invCipher key (cipher key b) = b := by
  rw [invCipher,cipher,ofBlock_toBlock,invCipherState_cipherState,toBlock_ofBlock]

theorem cipher_invCipher (key : List UInt8) (b : Block) : cipher key (invCipher key b) = b := by
  rw [invCipher,cipher,ofBlock_toBlock,cipherState_invCipherState,toBlock_ofBlock]

/-- Under every key, `Cipher` and `InvCipher` are permutations of the blocks, each the inverse of
the other. -/
theorem block_inverse (key : List UInt8) :
    Function.LeftInverse (invCipher key) (cipher key) ∧
      Function.RightInverse (invCipher key) (cipher key) :=
  ⟨invCipher_cipher key,cipher_invCipher key⟩

end Aes
end MeterLogger
