import Mathlib.Data.List.GetD
import Mathlib.Data.List.Nodup
import Mathlib.Tactic.Common
import MeterLogger.BitCrc

/-!
# CRC-CCITT

The table and the function of `utils.c`. As no two entries of the table have the same low byte,
different checksums stay different while the same bytes follow. An entry is what an empty register
makes of the bits of its index, and so the function is the checksum taken bit by bit.
-/

namespace MeterLogger
namespace Crc16

def ccitCrc16Table : List UInt16 :=
  [0x0000,0x1021,0x2042,0x3063,0x4084,0x50a5,0x60c6,0x70e7,
   0x8108,0x9129,0xa14a,0xb16b,0xc18c,0xd1ad,0xe1ce,0xf1ef,
   0x1231,0x0210,0x3273,0x2252,0x52b5,0x4294,0x72f7,0x62d6,
   0x9339,0x8318,0xb37b,0xa35a,0xd3bd,0xc39c,0xf3ff,0xe3de,
   0x2462,0x3443,0x0420,0x1401,0x64e6,0x74c7,0x44a4,0x5485,
   0xa56a,0xb54b,0x8528,0x9509,0xe5ee,0xf5cf,0xc5ac,0xd58d,
   0x3653,0x2672,0x1611,0x0630,0x76d7,0x66f6,0x5695,0x46b4,
   0xb75b,0xa77a,0x9719,0x8738,0xf7df,0xe7fe,0xd79d,0xc7bc,
   0x48c4,0x58e5,0x6886,0x78a7,0x0840,0x1861,0x2802,0x3823,
   0xc9cc,0xd9ed,0xe98e,0xf9af,0x8948,0x9969,0xa90a,0xb92b,
   0x5af5,0x4ad4,0x7ab7,0x6a96,0x1a71,0x0a50,0x3a33,0x2a12,
   0xdbfd,0xcbdc,0xfbbf,0xeb9e,0x9b79,0x8b58,0xbb3b,0xab1a,
   0x6ca6,0x7c87,0x4ce4,0x5cc5,0x2c22,0x3c03,0x0c60,0x1c41,
   0xedae,0xfd8f,0xcdec,0xddcd,0xad2a,0xbd0b,0x8d68,0x9d49,
   0x7e97,0x6eb6,0x5ed5,0x4ef4,0x3e13,0x2e32,0x1e51,0x0e70,
   0xff9f,0xefbe,0xdfdd,0xcffc,0xbf1b,0xaf3a,0x9f59,0x8f78,
   0x9188,0x81a9,0xb1ca,0xa1eb,0xd10c,0xc12d,0xf14e,0xe16f,
   0x1080,0x00a1,0x30c2,0x20e3,0x5004,0x4025,0x7046,0x6067,
   0x83b9,0x9398,0xa3fb,0xb3da,0xc33d,0xd31c,0xe37f,0xf35e,
   0x02b1,0x1290,0x22f3,0x32d2,0x4235,0x5214,0x6277,0x7256,
   0xb5ea,0xa5cb,0x95a8,0x8589,0xf56e,0xe54f,0xd52c,0xc50d,
   0x34e2,0x24c3,0x14a0,0x0481,0x7466,0x6447,0x5424,0x4405,
   0xa7db,0xb7fa,0x8799,0x97b8,0xe75f,0xf77e,0xc71d,0xd73c,
   0x26d3,0x36f2,0x0691,0x16b0,0x6657,0x7676,0x4615,0x5634,
   0xd94c,0xc96d,0xf90e,0xe92f,0x99c8,0x89e9,0xb98a,0xa9ab,
   0x5844,0x4865,0x7806,0x6827,0x18c0,0x08e1,0x3882,0x28a3,
   0xcb7d,0xdb5c,0xeb3f,0xfb1e,0x8bf9,0x9bd8,0xabbb,0xbb9a,
   0x4a75,0x5a54,0x6a37,0x7a16,0x0af1,0x1ad0,0x2ab3,0x3a92,
   0xfd2e,0xed0f,0xdd6c,0xcd4d,0xbdaa,0xad8b,0x9de8,0x8dc9,
   0x7c26,0x6c07,0x5c64,0x4c45,0x3ca2,0x2c83,0x1ce0,0x0cc1,
   0xef1f,0xff3e,0xcf5d,0xdf7c,0xaf9b,0xbfba,0x8fd9,0x9ff8,
   0x6e17,0x7e36,0x4e55,0x5e74,0x2e93,0x3eb2,0x0ed1,0x1ef0]

def ccitCrc16 (crc16 : UInt16) (data : List UInt8) : UInt16 :=
  data.foldl (fun crc b =>
    (crc <<< 8) ^^^ ccitCrc16Table.getD (((crc >>> 8) ^^^ b.toUInt16) &&& 0x00FF).toNat 0) crc16

def crcBytes (crc16 : UInt16) : List UInt8 := [(crc16 >>> 8).toUInt8,(crc16 &&& 0xff).toUInt8]

theorem ccitCrc16_append (crc : UInt16) (xs ys : List UInt8) :
    ccitCrc16 crc (xs ++ ys) = ccitCrc16 (ccitCrc16 crc xs) ys := List.foldl_append

def tableIndex (crc : UInt16) (b : UInt8) : ℕ := (((crc >>> 8) ^^^ b.toUInt16) &&& 0x00FF).toNat

theorem tableIndex_lt (crc : UInt16) (b : UInt8) : tableIndex crc b < 256 := by
  rw [tableIndex,UInt16.toNat_and]
  exact Nat.lt_succ_of_le Nat.and_le_right

def entryOf (low : UInt8) : ℕ :=
  ((low ^^^ (low <<< 5)) ^^^ ((low ^^^ (low <<< 5)) >>> 4)).toNat

theorem entryOf_table {i : ℕ} (hi : i < 256) : entryOf (ccitCrc16Table.getD i 0).toUInt8 = i := by
  have hall : (ccitCrc16Table.map fun entry => entryOf entry.toUInt8) = List.range 256 := by
    decide +kernel
  have hentry := List.getD_map (l := ccitCrc16Table) (d := 0) (n := i) fun entry : UInt16 =>
    entryOf entry.toUInt8
  rw [← hentry,hall,List.getD_eq_getElem _ _ (by simpa using hi),List.getElem_range]

theorem shift_low (x y : UInt16) : ((x <<< 8) ^^^ y).toUInt8 = y.toUInt8 := by
  apply UInt8.eq_of_toBitVec_eq
  ext i hi
  simp

theorem shift_high {x y : UInt16} {b : UInt8} (h : tableIndex x b = tableIndex y b)
    (hlow : x <<< 8 = y <<< 8) : x = y := by
  have hindex : ((x >>> 8) ^^^ b.toUInt16) &&& (0x00FF : UInt16) =
      ((y >>> 8) ^^^ b.toUInt16) &&& 0x00FF := UInt16.toNat_inj.mp h
  apply UInt16.eq_of_toBitVec_eq
  ext i hi
  by_cases h8 : i < 8
  · have hbit := congrArg (fun z : UInt16 => z.toBitVec.getLsbD (i+8)) hlow
    have hplace : i+8 < 16 := by omega
    have habove : ¬i+8 < 8 := by omega
    simpa [hplace,habove] using hbit
  · have hbit := congrArg (fun z : UInt16 => z.toBitVec.getLsbD (i-8)) hindex
    have hplace : 8+(i-8) = i := by omega
    have hmask : (255#16).getLsbD (i-8) = true := by
      have hall : ∀ k < 8, (255#16).getLsbD k = true := by decide
      exact hall _ (by omega)
    simp only [← BitVec.getLsbD_eq_getElem]
    simpa [hplace,hmask] using hbit

theorem ccitCrc16_inj {x y : UInt16} {data : List UInt8} (h : ccitCrc16 x data = ccitCrc16 y data) :
    x = y := by
  induction data generalizing x y with
  | nil => exact h
  | cons b data ih =>
    have hstep : (x <<< 8) ^^^ ccitCrc16Table.getD (tableIndex x b) 0 =
        (y <<< 8) ^^^ ccitCrc16Table.getD (tableIndex y b) 0 := ih h
    have hindex : tableIndex x b = tableIndex y b := by
      have hlow := congrArg UInt16.toUInt8 hstep
      rw [shift_low,shift_low] at hlow
      rw [← entryOf_table (tableIndex_lt x b),hlow,entryOf_table (tableIndex_lt y b)]
    rw [hindex] at hstep
    exact shift_high hindex ((UInt16.xor_left_inj _).mp hstep)

/-- x^16+x^12+x^5+1 -/
def polynomial : BitVec 16 := 0x1021#16

def bits (data : List UInt8) : List Bool := data.flatMap fun b => BitCrc.bitsOf b.toBitVec

theorem table_eq {i : ℕ} (hi : i < 256) : (ccitCrc16Table.getD i 0).toBitVec =
    BitCrc.run polynomial 0#16 (BitCrc.bitsOf (BitVec.ofNat 8 i)) := by
  have hall : ccitCrc16Table.map UInt16.toBitVec = (List.range 256).map fun i =>
      BitCrc.run polynomial 0#16 (BitCrc.bitsOf (BitVec.ofNat 8 i)) := by
    decide +kernel
  have hentry := List.getD_map (l := ccitCrc16Table) (d := 0) (n := i) UInt16.toBitVec
  rw [← hentry,hall,List.getD_eq_getElem _ _ (by simpa using hi),List.getElem_map,
    List.getElem_range]

theorem tableIndex_eq (crc : UInt16) (b : UInt8) :
    BitVec.ofNat 8 (tableIndex crc b) = BitCrc.top 8 crc.toBitVec ^^^ b.toBitVec := by
  have hmask : ∀ i, ∀ hi : i < 8, (255#8)[i] = true := by decide
  apply BitVec.eq_of_getLsbD_eq
  intro i hi
  have hbelow : i < 16 := by omega
  rw [tableIndex,← UInt16.toNat_toBitVec,BitVec.ofNat_toNat]
  simp [BitCrc.top,hi,hbelow,hmask i hi]

theorem ccitCrc16_byte (crc : UInt16) (b : UInt8) :
    ((crc <<< 8) ^^^ ccitCrc16Table.getD (tableIndex crc b) 0).toBitVec =
      BitCrc.run polynomial crc.toBitVec (BitCrc.bitsOf b.toBitVec) := by
  rw [BitCrc.run_bitsOf polynomial (by decide),← tableIndex_eq,← table_eq (tableIndex_lt crc b)]
  rfl

theorem ccitCrc16_bits (crc : UInt16) (data : List UInt8) :
    (ccitCrc16 crc data).toBitVec = BitCrc.run polynomial crc.toBitVec (bits data) := by
  induction data generalizing crc with
  | nil => rfl
  | cons b data ih =>
    rw [bits,List.flatMap_cons,BitCrc.run_append,← ccitCrc16_byte]
    exact ih _

theorem bits_crcBytes (crc : UInt16) : bits (crcBytes crc) = BitCrc.bitsOf crc.toBitVec := by
  have hmask : ∀ i, ∀ hi : i < 8, (255#8)[i] = true := by decide
  have hhigh : (List.range 8).map (crc >>> 8).toUInt8.toBitVec.getMsbD =
      (List.range 8).map crc.toBitVec.getMsbD := by
    apply List.map_congr_left
    intro i hi
    have hi := List.mem_range.mp hi
    have hplace : 8+(8-1-i) = 16-1-i := by omega
    have hbelow : i < 16 := by omega
    have hlow : 7-i < 8 := by omega
    simp [BitVec.getMsbD,hi,hbelow,hplace,hlow]
  have hlow : (List.range 8).map (crc &&& 0xff).toUInt8.toBitVec.getMsbD =
      (List.range 8).map fun i => crc.toBitVec.getMsbD (8+i) := by
    apply List.map_congr_left
    intro i hi
    have hi := List.mem_range.mp hi
    have hplace : 16-1-(8+i) = 8-1-i := by omega
    have hbelow : 8+i < 16 := by omega
    have hlow : 7-i < 8 := by omega
    simp [BitVec.getMsbD,hi,hbelow,hplace,hlow,hmask _ hlow]
  rw [bits,crcBytes,List.flatMap_cons,List.flatMap_cons,List.flatMap_nil,List.append_nil]
  show (List.range 8).map _ ++ (List.range 8).map _ = (List.range (8+8)).map _
  rw [hhigh,hlow,List.range_add,List.map_append,List.map_map]
  rfl

/-- The function is the checksum of the polynomial taken bit by bit; hence it goes on from what it
has made of the bytes before, and a message with its checksum has the checksum 0. -/
theorem ccitCrc16_ccitt (crc : UInt16) (a b : List UInt8) :
    (ccitCrc16 crc a).toBitVec = BitCrc.run polynomial crc.toBitVec (bits a) ∧
      ccitCrc16 crc (a ++ b) = ccitCrc16 (ccitCrc16 crc a) b ∧
      ccitCrc16 crc (a ++ crcBytes (ccitCrc16 crc a)) = 0 := by
  refine ⟨ccitCrc16_bits crc a,ccitCrc16_append crc a b,?_⟩
  apply UInt16.eq_of_toBitVec_eq
  rw [ccitCrc16_append,ccitCrc16_bits,bits_crcBytes,BitCrc.run_self]
  rfl

end Crc16
end MeterLogger
