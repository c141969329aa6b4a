import Mathlib.Algebra.Group.Int.Defs
import Mathlib.Algebra.Group.Nat.Defs
import Mathlib.Data.Int.Basic
import MeterLogger.Buffers
import MeterLogger.Bytes
import MeterLogger.Crc16
import MeterLogger.Stuffing

/-!
# KMP frames

The functions of `kmp.c` that build requests and decode replies, over the globals
`kmp_frame`, `kmp_frame_length` and `kmp_data_length`. A request comes out as the start
byte, the stuffed body with its checksum and the stop byte, and a reply of that form is
decoded to the registers the meter put in.
-/

namespace MeterLogger
namespace Kmp

open Buffers Crc16

def kmpFrameL : ℕ := 1024

/-- `kmp_frame` and the two lengths kept by hand. -/
structure Frame where
  frame : Buf
  frameLength : ℕ
  dataLength : ℕ

def kmpCrc16 (s : Frame) : UInt16 := ccitCrc16 0x0000 (load s.frame 1 s.dataLength)

def reserved (b : UInt8) : Bool := b = 0x80 || b = 0x40 || b = 0x0d || b = 0x06 || b = 0x1b

/-- The stuffing of `kmp_byte_stuff`. -/
def kmpCode : StuffingCode UInt8 where
  esc := 0x1b
  reserved := reserved
  mask := (· ^^^ 0xff)
  esc_reserved := by decide
  mask_mask b := by rw [UInt8.xor_assoc,UInt8.xor_self,UInt8.xor_zero]
  mask_free := Bytes.forall_byte (by decide +kernel)

def putData (s : Frame) (data : List UInt8) : Frame :=
  if data.length ≤ kmpFrameL-1 ∧ 0 < data.length then
    { frame := store s.frame 1 data, frameLength := data.length+1, dataLength := data.length }
  else s

def kmpByteStuff (s : Frame) : Frame :=
  putData s (kmpCode.stuff (load s.frame 1 (s.frameLength-1)))

/-- The loop over the frame; behind an escape byte at the end stands whatever the buffer
holds there. -/
def unstuffLoop (frame : Buf) (length : ℕ) : ℕ → ℕ → List UInt8
  | 0, _ => []
  | fuel+1, i =>
    if i < length then
      if frame i = 0x1b then (frame (i+1) ^^^ 0xff) :: unstuffLoop frame length fuel (i+2)
      else frame i :: unstuffLoop frame length fuel (i+1)
    else []

def kmpByteUnstuff (s : Frame) : Frame :=
  putData s (unstuffLoop s.frame s.frameLength s.frameLength 1)

/-- `memset(kmp_frame, 0x00, KMP_FRAME_L)` and the start byte. -/
def clearFrame (frame : Buf) : Frame :=
  { frame := store (store frame 0 (List.replicate kmpFrameL 0)) 0 [0x80]
    frameLength := 0
    dataLength := 0 }

def putCrc16 (s : Frame) : Frame :=
  { s with
    frame := store s.frame s.frameLength (crcBytes (kmpCrc16 s))
    frameLength := s.frameLength+2 }

def putStop (s : Frame) : Frame :=
  { s with frame := store s.frame s.frameLength [0x0d], frameLength := s.frameLength+1 }

/-- A request without data: destination and command. -/
def kmpGetCommand (cid : UInt8) (frame : Buf) : Frame :=
  let s := clearFrame frame
  let s := { s with frame := store s.frame 1 [0x3f,cid], frameLength := 3, dataLength := 2 }
  let s := putCrc16 s
  putStop (kmpByteStuff { s with dataLength := s.dataLength+2 })

def kmpGetType (frame : Buf) : Frame := kmpGetCommand 0x01 frame

def kmpGetSerial (frame : Buf) : Frame := kmpGetCommand 0x02 frame

def u16Bytes (id : UInt16) : List UInt8 := [(id >>> 8).toUInt8,(id &&& 0xff).toUInt8]

/-- The ids of the first `n` registers of the list. -/
def registerIds (registerList : ℕ → UInt16) (n : ℕ) : List UInt8 :=
  (List.range n).flatMap fun i => u16Bytes (registerList i)

/-- `kmp_get_register`; the length given is cut to 8, and the checksum is not counted in
`kmp_data_length`. -/
def kmpGetRegister (frame : Buf) (registerList : ℕ → UInt16) (registerListLength : UInt16) :
    Frame :=
  let n := min registerListLength.toNat 8
  let s := clearFrame frame
  let s := { s with
    frame := store (store s.frame 1 [0x3f,0x10,UInt8.ofNat n]) 4 (registerIds registerList n)
    frameLength := 4+2*n
    dataLength := 3+2*n }
  putStop (kmpByteStuff (putCrc16 s))

/-- `kmp_response_register_t`. -/
structure Register where
  rid : ℤ
  unit : UInt8
  length : UInt8
  siEx : UInt8
  value : ℤ
  deriving DecidableEq

/-- `kmp_response_t`; indices from 8 on lie behind the register list. -/
structure Response where
  serial : ℕ
  meterType : ℕ
  swRevision : ℕ
  registers : ℕ → Register

def Register.zero : Register := ⟨0,0,0,0,0⟩

def Response.zero : Response := ⟨0,0,0,fun _ => Register.zero⟩

def toInt16 (n : ℕ) : ℤ := if n < 2^15 then n else n-2^16
def toInt32 (n : ℕ) : ℤ := if n < 2^31 then n else n-2^32

def be16 (frame : Buf) (i : ℕ) : ℕ := (frame i).toNat*2^8+(frame (i+1)).toNat

def be32 (frame : Buf) (i : ℕ) : ℕ :=
  (frame i).toNat*2^24+(frame (i+1)).toNat*2^16+(frame (i+2)).toNat*2^8+(frame (i+3)).toNat

/-- The nine bytes of a register from index `i` on. -/
def registerAt (frame : Buf) (i : ℕ) : Register where
  rid := toInt16 (be16 frame i)
  unit := frame (i+2)
  length := frame (i+3)
  siEx := frame (i+4)
  value := toInt32 (be32 frame (i+5))

def crcOk (s : Frame) : Bool :=
  be16 s.frame (s.frameLength-3) = (kmpCrc16 { s with dataLength := s.frameLength-4 }).toNat

def decodeData (s : Frame) : ℤ × Response :=
  let dataLength := s.frameLength-4
  let cid := s.frame 2
  if cid = 0x01 then
    (1,{ Response.zero with meterType := be16 s.frame 3, swRevision := be16 s.frame 5 })
  else if cid = 0x02 then (1,{ Response.zero with serial := be32 s.frame 3 })
  else if cid = 0x10 then
    if dataLength > 2 then
      (1,{ Response.zero with
        registers := fun i =>
          if i < (dataLength-2)/9 then registerAt s.frame (9*i+3) else Register.zero })
    else (0,Response.zero)
  else if cid = 0x11 then (1,Response.zero)
  else (0,Response.zero)

def kmpDecodeFrame (frame : Buf) (frameLength : ℕ) : ℤ × Response :=
  if frameLength < 6 then (0,Response.zero)
  else if frame (frameLength-1) = 0x0d then
    let s := kmpByteUnstuff { frame := frame, frameLength := frameLength, dataLength := 0 }
    if crcOk s then decodeData s else (-1,Response.zero)
  else (0,Response.zero)

/-- The frame holds its first byte and then the data, up to `kmp_frame_length`. -/
structure Holds (s : Frame) (first : UInt8) (data : List UInt8) : Prop where
  first_eq : s.frame 0 = first
  data_eq : load s.frame 1 data.length = data
  length_eq : s.frameLength = data.length+1

theorem Holds.load_eq {s : Frame} {first : UInt8} {data : List UInt8} (h : Holds s first data) :
    load s.frame 0 s.frameLength = first::data := by
  rw [h.length_eq,load_succ,h.first_eq,h.data_eq]

theorem putData_holds {s : Frame} {first : UInt8} {data : List UInt8} (hfirst : s.frame 0 = first)
    (hlen : data.length ≤ kmpFrameL-1) (hpos : 0 < data.length) : Holds (putData s data) first data := by
  rw [putData,if_pos ⟨hlen,hpos⟩]
  refine ⟨?_,load_store _ _ _,rfl⟩
  show store s.frame 1 data 0 = first
  rw [store_out (by omega),hfirst]

theorem written_holds {b : Buf} {first : UInt8} (hfirst : b 0 = first) (data : List UInt8) (n : ℕ) :
    Holds ⟨store b 1 data,data.length+1,n⟩ first data := by
  refine ⟨?_,load_store _ _ _,rfl⟩
  show store b 1 data 0 = first
  rw [store_out (by omega),hfirst]

theorem Holds.append {s : Frame} {first : UInt8} {data : List UInt8} (h : Holds s first data)
    (more : List UInt8) {t : Frame} (hframe : t.frame = store s.frame s.frameLength more)
    (hlength : t.frameLength = s.frameLength+more.length) : Holds t first (data ++ more) := by
  have hlen := h.length_eq
  constructor
  · rw [hframe,store_out (by omega),h.first_eq]
  · rw [hframe,List.length_append,load_add,load_store_other (by omega),h.data_eq]
    rw [hlen,Nat.add_comm data.length 1,load_store]
  · rw [hlength,hlen,List.length_append]
    omega

@[simp] theorem crcBytes_length (crc : UInt16) : (crcBytes crc).length = 2 := rfl

theorem crcBytes_value (crc : UInt16) (hi lo : UInt8) (h : crcBytes crc = [hi,lo]) :
    hi.toNat*2^8+lo.toNat = crc.toNat := by
  simp only [crcBytes,List.cons.injEq,and_true] at h
  obtain ⟨rfl,rfl⟩ := h
  have hmod : crc.toNat &&& 255 = crc.toNat%256 := Nat.and_two_pow_sub_one_eq_mod crc.toNat 8
  have hlt := crc.toNat_lt
  have hshift : UInt16.toNat 8%16 = 8 := rfl
  have hmask : UInt16.toNat 0xff = 255 := rfl
  simp only [UInt16.toNat_toUInt8,UInt16.toNat_shiftRight,UInt16.toNat_and,hshift,hmask,hmod,
    Nat.shiftRight_eq_div_pow]
  omega

/-- What stands between the first byte and the stop byte: the body and its checksum. -/
def checked (body : List UInt8) : List UInt8 := body ++ crcBytes (ccitCrc16 0 body)

def wire (first : UInt8) (data : List UInt8) : List UInt8 :=
  first :: (kmpCode.stuff data ++ [0x0d])

theorem stuffed_fits {data : List UInt8} (h : data.length ≤ 511) (hpos : 0 < data.length) :
    (kmpCode.stuff data).length ≤ kmpFrameL-1 ∧ 0 < (kmpCode.stuff data).length := by
  have h₁ := kmpCode.stuff_length_le data
  have h₂ := kmpCode.length_le_stuff data
  simp only [kmpFrameL]
  omega

theorem kmpByteStuff_holds {s : Frame} {first : UInt8} {data : List UInt8} (h : Holds s first data)
    (hlen : data.length ≤ 511) (hpos : 0 < data.length) :
    Holds (kmpByteStuff s) first (kmpCode.stuff data) := by
  obtain ⟨hfit,hne⟩ := stuffed_fits hlen hpos
  have hdata : load s.frame 1 (s.frameLength-1) = data := by
    rw [h.length_eq,Nat.add_sub_cancel,h.data_eq]
  rw [kmpByteStuff,hdata]
  exact putData_holds h.first_eq hfit hne

theorem finish_holds {s t : Frame} {first : UInt8} {body : List UInt8} (h : Holds s first body)
    (hdata : s.dataLength = body.length) (hlen : body.length ≤ 500)
    (hframe : t.frame = (putCrc16 s).frame) (hlength : t.frameLength = (putCrc16 s).frameLength) :
    Holds (putStop (kmpByteStuff t)) first (kmpCode.stuff (checked body) ++ [0x0d]) := by
  have hcrc : kmpCrc16 s = ccitCrc16 0 body := by
    rw [kmpCrc16,hdata,h.data_eq]
  have hchecked : Holds t first (checked body) := by
    apply h.append
    · rw [hframe,putCrc16,hcrc]
    · rw [hlength]
      rfl
  have hstuffed := kmpByteStuff_holds hchecked (by simp [checked]; omega) (by simp [checked])
  exact hstuffed.append [0x0d] rfl rfl

theorem clearFrame_first (frame : Buf) : (clearFrame frame).frame 0 = 0x80 := rfl

theorem kmpGetCommand_holds (cid : UInt8) (frame : Buf) :
    Holds (kmpGetCommand cid frame) 0x80 (kmpCode.stuff (checked [0x3f,cid]) ++ [0x0d]) := by
  have hbody := written_holds (clearFrame_first frame) [0x3f,cid] 2
  exact finish_holds hbody rfl (by simp) rfl rfl

theorem registerIds_length (registerList : ℕ → UInt16) (n : ℕ) :
    (registerIds registerList n).length = 2*n := by
  induction n with
  | zero => rfl
  | succ n ih =>
    rw [registerIds,List.range_succ,List.flatMap_append,List.length_append]
    rw [registerIds] at ih
    rw [ih]
    rfl

/-- The requests of the program. -/
inductive Request
  | type
  | serial
  | register (registerList : ℕ → UInt16) (registerListLength : UInt16)

def Request.build (frame : Buf) : Request → Frame
  | .type => kmpGetType frame
  | .serial => kmpGetSerial frame
  | .register registerList registerListLength =>
    kmpGetRegister frame registerList registerListLength

def Request.body : Request → List UInt8
  | .type => [0x3f,0x01]
  | .serial => [0x3f,0x02]
  | .register registerList registerListLength =>
    [0x3f,0x10,UInt8.ofNat (min registerListLength.toNat 8)] ++
      registerIds registerList (min registerListLength.toNat 8)

theorem Request.body_length (r : Request) : 2 ≤ r.body.length ∧ r.body.length ≤ 19 := by
  cases r with
  | type => decide
  | serial => decide
  | register list n =>
    simp only [Request.body,List.length_append,registerIds_length,List.length_cons,List.length_nil]
    omega

theorem Request.build_holds (r : Request) (frame : Buf) :
    Holds (r.build frame) 0x80 (kmpCode.stuff (checked r.body) ++ [0x0d]) := by
  cases r with
  | type => exact kmpGetCommand_holds 0x01 frame
  | serial => exact kmpGetCommand_holds 0x02 frame
  | register list n =>
    have hlen := (Request.register list n).body_length
    have hids := registerIds_length list (min n.toNat 8)
    have hcount := written_holds (clearFrame_first frame) [0x3f,0x10,UInt8.ofNat (min n.toNat 8)]
      (3+2*min n.toNat 8)
    have hbody := hcount.append (registerIds list (min n.toNat 8))
      (t := ⟨store (store (clearFrame frame).frame 1 [0x3f,0x10,UInt8.ofNat (min n.toNat 8)]) 4
        (registerIds list (min n.toNat 8)),4+2*min n.toNat 8,3+2*min n.toNat 8⟩) rfl
      (by rw [hids]; rfl)
    refine finish_holds hbody ?_ (Nat.le_trans hlen.2 (by decide)) rfl rfl
    simp only [Request.body,List.length_append,hids,List.length_cons,List.length_nil]

theorem unstuffLoop_stuff {frame : Buf} {length : ℕ} (data : List UInt8) {fuel i : ℕ}
    (h : load frame i (kmpCode.stuff data ++ [0x0d]).length = kmpCode.stuff data ++ [0x0d])
    (hi : i+(kmpCode.stuff data ++ [0x0d]).length = length) (hfuel : length < i+fuel) :
    unstuffLoop frame length fuel i = data ++ [0x0d] := by
  induction data generalizing fuel i with
  | nil =>
    simp only [StuffingCode.stuff_nil,List.nil_append,List.length_singleton] at h hi
    obtain ⟨fuel,rfl⟩ : ∃ n, fuel = n+1 := ⟨fuel-1,by omega⟩
    obtain ⟨hb,_⟩ := load_cons h
    rw [unstuffLoop,if_pos (by omega),hb,if_neg (by decide)]
    cases fuel with
    | zero => rfl
    | succ fuel => rw [unstuffLoop,if_neg (by omega)]; rfl
  | cons x data ih =>
    rw [StuffingCode.stuff_cons,StuffingCode.stuffOne] at h hi
    by_cases hx : reserved x = true
    · have hx' : kmpCode.reserved x = true := hx
      rw [if_pos hx'] at h hi
      simp only [List.cons_append,List.nil_append,List.length_cons] at h hi
      obtain ⟨hesc,h,_⟩ := load_cons h
      obtain ⟨hmask,h,_⟩ := load_cons h
      obtain ⟨fuel,rfl⟩ : ∃ n, fuel = n+1 := ⟨fuel-1,by omega⟩
      have hesc' : frame i = 0x1b := hesc
      rw [unstuffLoop,if_pos (by omega),if_pos hesc',hmask,List.cons_append]
      congr 1
      · exact kmpCode.mask_mask x
      · exact ih h (by omega) (by omega)
    · have hx' : ¬kmpCode.reserved x = true := hx
      rw [if_neg hx'] at h hi
      simp only [List.cons_append,List.nil_append,List.length_cons] at h hi
      obtain ⟨hb,h,_⟩ := load_cons h
      obtain ⟨fuel,rfl⟩ : ∃ n, fuel = n+1 := ⟨fuel-1,by omega⟩
      have hne : x ≠ 0x1b := fun heq => hx (by rw [heq]; decide)
      rw [unstuffLoop,if_pos (by omega),hb,if_neg hne,List.cons_append]
      congr 1
      exact ih h (by omega) (by omega)

theorem kmpByteUnstuff_holds {s : Frame} {first : UInt8} {data : List UInt8}
    (h : Holds s first (kmpCode.stuff data ++ [0x0d])) (hlen : data.length < 1023) :
    Holds (kmpByteUnstuff s) first (data ++ [0x0d]) := by
  have hlength := h.length_eq
  rw [kmpByteUnstuff,unstuffLoop_stuff data h.data_eq (by omega) (by omega)]
  exact putData_holds h.first_eq (by simp [kmpFrameL]; omega) (by simp)

theorem crcOk_iff {s : Frame} {first hi lo : UInt8} {body : List UInt8}
    (h : Holds s first (body ++ [hi,lo] ++ [0x0d])) :
    crcOk s = true ↔ hi.toNat*2^8+lo.toNat = (ccitCrc16 0 body).toNat := by
  have hlen := h.length_eq
  simp only [List.length_append,List.length_cons,List.length_nil] at hlen
  have hdata := h.data_eq
  rw [List.append_assoc] at hdata
  obtain ⟨hbody,htail⟩ := load_append hdata
  obtain ⟨hhi,htail,_⟩ := load_cons htail
  obtain ⟨hlo,_⟩ := load_cons htail
  have hcrc : kmpCrc16 { s with dataLength := s.frameLength-4 } = ccitCrc16 0 body := by
    simp only [kmpCrc16]
    rw [hlen,show body.length+(0+1+1)+(0+1)+1-4 = body.length by omega,hbody]
  have hidx : s.frameLength-3 = 1+body.length := by omega
  rw [crcOk,decide_eq_true_iff,hcrc,be16,hidx,hhi,hlo]

/-- Every request is framed, free of the reserved bytes but for its ends, of the length
reported, and unstuffs to its body with a checksum that is accepted. -/
theorem request_framed (r : Request) (frame : Buf) :
    load (r.build frame).frame 0 (r.build frame).frameLength = wire 0x80 (checked r.body) ∧
      (∀ b ∈ kmpCode.stuff (checked r.body), b ∉ [0x80,0x40,0x0d,0x06]) ∧
      (r.build frame).frameLength ≤ kmpFrameL ∧
      load (kmpByteUnstuff (r.build frame)).frame 1
        ((kmpByteUnstuff (r.build frame)).frameLength-4) = r.body ∧
      crcOk (kmpByteUnstuff (r.build frame)) = true := by
  have hbuilt := r.build_holds frame
  obtain ⟨_,hbody⟩ := r.body_length
  have hchecked : (checked r.body).length ≤ 21 := by
    simp only [checked,List.length_append,crcBytes_length]
    omega
  have hunstuffed := kmpByteUnstuff_holds hbuilt (by omega)
  refine ⟨hbuilt.load_eq,?_,?_,?_,?_⟩
  · intro b hb hres
    have hr : kmpCode.reserved b = true := by
      have hall : ∀ c ∈ [0x80,0x40,0x0d,0x06], reserved c = true := by decide +kernel
      exact hall b hres
    rw [kmpCode.stuff_reserved hb hr] at hres
    exact absurd hres (by decide)
  · have hle := kmpCode.stuff_length_le (checked r.body)
    have hlen := hbuilt.length_eq
    simp only [List.length_append,List.length_singleton] at hlen
    simp only [kmpFrameL]
    omega
  · have hlen := hunstuffed.length_eq
    have hdata := hunstuffed.data_eq
    rw [checked,List.append_assoc] at hdata
    simp only [checked,List.length_append,crcBytes_length,List.length_singleton] at hlen
    rw [hlen,show r.body.length+2+1+1-4 = r.body.length by omega]
    exact (load_append hdata).1
  · rw [checked] at hunstuffed
    rw [crcOk_iff hunstuffed]
    exact crcBytes_value _ _ _ rfl

def u32Bytes (value : UInt32) : List UInt8 :=
  [(value >>> 24).toUInt8,(value >>> 16).toUInt8,(value >>> 8).toUInt8,value.toUInt8]

/-- A register as the meter sends it, with a value of four bytes. -/
structure Record where
  rid : UInt16
  unit : UInt8
  siEx : UInt8
  value : UInt32
  deriving DecidableEq

def Record.bytes (r : Record) : List UInt8 :=
  u16Bytes r.rid ++ ([r.unit,4,r.siEx] ++ u32Bytes r.value)

def Record.register (r : Record) : Register where
  rid := toInt16 r.rid.toNat
  unit := r.unit
  length := 4
  siEx := r.siEx
  value := toInt32 r.value.toNat

def replyBody (records : List Record) : List UInt8 := [0x3f,0x10] ++ records.flatMap Record.bytes

/-- The response with the registers of the records and zeros behind them. -/
def registersOf (records : List Record) : Response :=
  { Response.zero with registers := fun k => (records.map Record.register).getD k Register.zero }

theorem u16Bytes_value (id : UInt16) (hi lo : UInt8) (h : u16Bytes id = [hi,lo]) :
    hi.toNat*2^8+lo.toNat = id.toNat := crcBytes_value id hi lo h

theorem u32Bytes_value (value : UInt32) (a b c d : UInt8) (h : u32Bytes value = [a,b,c,d]) :
    a.toNat*2^24+b.toNat*2^16+c.toNat*2^8+d.toNat = value.toNat := by
  simp only [u32Bytes,List.cons.injEq,and_true] at h
  obtain ⟨rfl,rfl,rfl,rfl⟩ := h
  have hlt := value.toNat_lt
  have h₁ : UInt32.toNat 24%32 = 24 := rfl
  have h₂ : UInt32.toNat 16%32 = 16 := rfl
  have h₃ : UInt32.toNat 8%32 = 8 := rfl
  simp only [UInt32.toNat_toUInt8,UInt32.toNat_shiftRight,h₁,h₂,h₃,Nat.shiftRight_eq_div_pow]
  omega

@[simp] theorem Record.bytes_length (r : Record) : r.bytes.length = 9 := rfl

theorem records_length (records : List Record) :
    (records.flatMap Record.bytes).length = 9*records.length := by
  induction records with
  | nil => rfl
  | cons r records ih =>
    rw [List.flatMap_cons,List.length_append,ih,Record.bytes_length,List.length_cons]
    omega

theorem registerAt_bytes {frame : Buf} {i : ℕ} {r : Record} (h : load frame i 9 = r.bytes) :
    registerAt frame i = r.register := by
  have hrid : u16Bytes r.rid = [(r.rid >>> 8).toUInt8,(r.rid &&& 0xff).toUInt8] := rfl
  have hvalue : u32Bytes r.value = [(r.value >>> 24).toUInt8,(r.value >>> 16).toUInt8,
    (r.value >>> 8).toUInt8,r.value.toUInt8] := rfl
  rw [Record.bytes,hrid,hvalue] at h
  simp only [List.cons_append,List.nil_append] at h
  obtain ⟨h₀,h,_⟩ := load_cons h
  obtain ⟨h₁,h,_⟩ := load_cons h
  obtain ⟨h₂,h,_⟩ := load_cons h
  obtain ⟨h₃,h,_⟩ := load_cons h
  obtain ⟨h₄,h,_⟩ := load_cons h
  obtain ⟨h₅,h,_⟩ := load_cons h
  obtain ⟨h₆,h,_⟩ := load_cons h
  obtain ⟨h₇,h,_⟩ := load_cons h
  obtain ⟨h₈,_⟩ := load_cons h
  have h16 : be16 frame i = r.rid.toNat := by
    rw [be16,h₀,h₁]
    exact u16Bytes_value _ _ _ hrid
  have h32 : be32 frame (i+5) = r.value.toNat := by
    rw [be32,h₅,h₆,h₇,h₈]
    exact u32Bytes_value _ _ _ _ _ hvalue
  rw [registerAt,h16,h32,h₂,h₃,h₄]
  rfl

theorem registerAt_records {frame : Buf} {i : ℕ} (records : List Record)
    (h : load frame i (records.flatMap Record.bytes).length = records.flatMap Record.bytes) (k : ℕ) :
    (if k < records.length then registerAt frame (i+9*k) else Register.zero) =
      (records.map Record.register).getD k Register.zero := by
  induction records generalizing i k with
  | nil => rfl
  | cons r records ih =>
    rw [List.flatMap_cons] at h
    obtain ⟨hhead,htail⟩ := load_append h
    cases k with
    | zero =>
      rw [if_pos (by simp)]
      exact registerAt_bytes hhead
    | succ k =>
      have hrest := ih htail k
      rw [Record.bytes_length] at hrest
      simp only [List.length_cons,Nat.add_lt_add_iff_right,List.map_cons,List.getD_cons_succ]
      rw [← hrest,show i+9+9*k = i+9*(k+1) by omega]

theorem replyBody_length (records : List Record) :
    (replyBody records).length = 2+9*records.length := by
  rw [replyBody,List.length_append,records_length]
  rfl

theorem decodeData_reply {s : Frame} {first hi lo : UInt8} {records : List Record}
    (h : Holds s first (replyBody records ++ [hi,lo] ++ [0x0d])) (hne : records ≠ []) :
    decodeData s = (1,registersOf records) := by
  have hpos := List.length_pos_iff.mpr hne
  have hlen := h.length_eq
  have hbody := replyBody_length records
  simp only [List.length_append,List.length_cons,List.length_nil,hbody] at hlen
  have hdata := h.data_eq
  rw [replyBody,List.append_assoc,List.append_assoc] at hdata
  obtain ⟨hhead,hdata⟩ := load_append hdata
  obtain ⟨_,hcid,_⟩ := load_cons hhead
  obtain ⟨hcid,_⟩ := load_cons hcid
  obtain ⟨hrecords,_⟩ := load_append hdata
  have hcount : (s.frameLength-4-2)/9 = records.length := by omega
  rw [decodeData]
  simp only [hcid,hcount]
  rw [if_neg (by decide),if_neg (by decide),if_pos trivial,if_pos (by omega)]
  refine congrArg (Prod.mk 1) ?_
  rw [registersOf]
  congr 1
  funext k
  have hreg := registerAt_records records hrecords k
  rw [← hreg]
  simp only [List.length_cons,List.length_nil]
  rw [show 9*k+3 = 1+(0+1+1)+9*k by omega]

/-- A reply over the wire, with the checksum `hi`, `lo`, is decoded to its registers if the
checksum is right and refused with a clear response if not. -/
theorem reply_decoded {frame : Buf} {first hi lo : UInt8} {records : List Record}
    (h : load frame 0 (wire first (replyBody records ++ [hi,lo])).length =
      wire first (replyBody records ++ [hi,lo]))
    (hpos : 1 ≤ records.length) (hle : records.length ≤ 8) :
    kmpDecodeFrame frame (wire first (replyBody records ++ [hi,lo])).length =
      if [hi,lo] = crcBytes (ccitCrc16 0 (replyBody records)) then (1,registersOf records)
      else (-1,Response.zero) := by
  have hbody := replyBody_length records
  have hstuffed := kmpCode.length_le_stuff (replyBody records ++ [hi,lo])
  simp only [List.length_append,hbody,List.length_cons,List.length_nil] at hstuffed
  have hwire : (wire first (replyBody records ++ [hi,lo])).length =
      (kmpCode.stuff (replyBody records ++ [hi,lo])).length+2 := by
    simp [wire]
  obtain ⟨hfirst,hrest,_⟩ := load_cons h
  have hholds : Holds ⟨frame,(wire first (replyBody records ++ [hi,lo])).length,0⟩ first
      (kmpCode.stuff (replyBody records ++ [hi,lo]) ++ [0x0d]) := by
    refine ⟨hfirst,?_,by simp [hwire]⟩
    simp only [List.length_append,List.length_singleton] at hrest ⊢
    rwa [hwire] at hrest
  have hstop : frame ((wire first (replyBody records ++ [hi,lo])).length-1) = 0x0d := by
    obtain ⟨hlast,_⟩ := load_cons (load_append hholds.data_eq).2
    rw [hwire]
    rwa [Nat.add_comm] at hlast
  have hunstuffed := kmpByteUnstuff_holds hholds (by simp [hbody]; omega)
  have hcrc := crcOk_iff hunstuffed
  rw [kmpDecodeFrame,if_neg (by omega),if_pos hstop]
  have hiff : crcOk (kmpByteUnstuff ⟨frame,(wire first (replyBody records ++ [hi,lo])).length,0⟩)
      = true ↔ [hi,lo] = crcBytes (ccitCrc16 0 (replyBody records)) := by
    rw [hcrc,← crcBytes_value (ccitCrc16 0 (replyBody records)) _ _ rfl]
    simp only [crcBytes,List.cons.injEq,and_true]
    constructor
    · intro heq
      have h₁ := hi.toNat_lt
      have h₂ := lo.toNat_lt
      have h₃ := ((ccitCrc16 0 (replyBody records) >>> 8).toUInt8).toNat_lt
      have h₄ := ((ccitCrc16 0 (replyBody records) &&& 0xff).toUInt8).toNat_lt
      exact ⟨UInt8.toNat_inj.mp (by omega),UInt8.toNat_inj.mp (by omega)⟩
    · rintro ⟨rfl,rfl⟩
      rfl
  have hne : records ≠ [] := List.ne_nil_of_length_pos hpos
  by_cases hok : [hi,lo] = crcBytes (ccitCrc16 0 (replyBody records))
  · rw [if_pos hok]
    simp only [hiff.mpr hok,if_true]
    exact decodeData_reply hunstuffed hne
  · rw [if_neg hok]
    have hbad := mt hiff.mp hok
    simp only [hbad]
    rfl

/-- An energy register of 12.34 MWh, with the right checksum and with a wrong one. -/
theorem reply_decoded_energy :
    let records : List Record := [⟨0x3c,3,0x42,1234⟩]
    let sent := wire 0x40 (checked (replyBody records))
    let spoilt := wire 0x40 (replyBody records ++ [0,0])
    kmpDecodeFrame (store (fun _ => 0) 0 sent) sent.length = (1,registersOf records) ∧
      kmpDecodeFrame (store (fun _ => 0) 0 spoilt) spoilt.length = (-1,Response.zero) := by
  refine ⟨?_,?_⟩
  · exact reply_decoded (load_store (fun _ => 0) 0 _) (by decide) (by decide)
  · refine (reply_decoded (load_store (fun _ => 0) 0 _) (by decide) (by decide)).trans ?_
    rw [if_neg (by decide)]

end Kmp
end MeterLogger
