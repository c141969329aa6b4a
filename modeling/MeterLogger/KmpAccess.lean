import Mathlib.Logic.Function.Basic
import MeterLogger.Kmp
import MeterLogger.Noted

/-!
# The arrays that the decoding of a KMP frame touches

`kmp_decode_frame` and `kmp_byte_unstuff` index by index, with a note of every index, of the
length of the data at the time, and of every difference of lengths. A byte of the frame that is
put into the response has a note of its own. Without the notes they are the functions of before.
-/

namespace MeterLogger
namespace KmpAccess

open Buffers Crc16 Kmp Noted

/-- An index of `kmp_frame`, read or written, or read for the response; of `unstuffed_data`; of
the register list; and a difference. -/
inductive Use
  | frame (i present : ℕ)
  | field (i present : ℕ)
  | unstuffed (i present : ℕ)
  | register (i : ℕ)
  | minus (a b : ℕ)
  deriving DecidableEq

/-- The frame, the array of `kmp_byte_unstuff` and the response. -/
structure Decoder where
  frame : Buf
  unstuffed : Buf
  response : Response

abbrev Decoding (A : Type) := Noted Use Decoder A

def readFrame (present i : ℕ) : Decoding UInt8 := look (.frame i present) fun s => s.frame i

def readField (present i : ℕ) : Decoding UInt8 := look (.field i present) fun s => s.frame i

def minus (a b : ℕ) : Decoding ℕ := look (.minus a b) fun _ => a-b

def writeUnstuffed (present j : ℕ) (b : UInt8) : Decoding Unit :=
  change (.unstuffed j present) fun s => { s with unstuffed := store s.unstuffed j [b] }

/-- The loop over the frame; the value is the number of bytes written. -/
def unstuffLoop (length : ℕ) : ℕ → ℕ → ℕ → Decoding ℕ
  | 0, _, j => pure j
  | n+1, i, j =>
    if i < length then do
      let c ← readFrame length i
      if c = 0x1b then do
        let e ← readFrame length (i+1)
        writeUnstuffed length j (e ^^^ 0xff)
        unstuffLoop length n (i+2) (j+1)
      else do
        writeUnstuffed length j c
        unstuffLoop length n (i+1) (j+1)
    else pure j

/-- `memcpy(kmp_frame + KMP_DST_IDX, unstuffed_data, j)`. -/
def copyBack (length j : ℕ) : ℕ → Decoding Unit
  | 0 => pure ()
  | k+1 => do
    copyBack length j k
    let b ← look (.unstuffed k j) fun s => s.unstuffed k
    change (.frame (1+k) length) fun s => { s with frame := store s.frame (1+k) [b] }

/-- `kmp_byte_unstuff`; the value is `kmp_frame_length`. -/
def kmpByteUnstuff (length : ℕ) : Decoding ℕ := do
  let j ← unstuffLoop length length 1 0
  if j ≤ kmpFrameL-1 ∧ 0 < j then do
    copyBack length j j
    pure (j+1)
  else pure length

def readFrames (present i : ℕ) : ℕ → Decoding (List UInt8)
  | 0 => pure []
  | n+1 => do
    let b ← readFrame present i
    let bs ← readFrames present (i+1) n
    pure (b::bs)

def kmpCrc16 (length dataLength : ℕ) : Decoding UInt16 := do
  let data ← readFrames length 1 dataLength
  pure (ccitCrc16 0x0000 data)

def be16Field (length i : ℕ) : Decoding ℕ := do
  let a ← readField length i
  let b ← readField length (i+1)
  pure (a.toNat*2^8+b.toNat)

def be32Field (length i : ℕ) : Decoding ℕ := do
  let a ← readField length i
  let b ← readField length (i+1)
  let c ← readField length (i+2)
  let d ← readField length (i+3)
  pure (a.toNat*2^24+b.toNat*2^16+c.toNat*2^8+d.toNat)

def setResponse (f : Response → Response) : Decoding Unit :=
  alter fun s => { s with response := f s.response }

def registerField (length i : ℕ) : Decoding Register := do
  let rid ← be16Field length i
  let unit ← readField length (i+2)
  let len ← readField length (i+3)
  let siEx ← readField length (i+4)
  let value ← be32Field length (i+5)
  pure ⟨toInt16 rid,unit,len,siEx,toInt32 value⟩

def registerLoop (length : ℕ) : ℕ → Decoding Unit
  | 0 => pure ()
  | n+1 => do
    registerLoop length n
    let r ← registerField length (9*n+3)
    change (.register n) fun s =>
      { s with response := { s.response with registers := Function.update s.response.registers n r } }

def decodeData (length dataLength : ℕ) : Decoding ℤ := do
  let cid ← readFrame length 2
  if cid = 0x01 then do
    let meterType ← be16Field length 3
    let swRevision ← be16Field length 5
    setResponse fun r => { r with meterType := meterType, swRevision := swRevision }
    pure 1
  else if cid = 0x02 then do
    let serial ← be32Field length 3
    setResponse fun r => { r with serial := serial }
    pure 1
  else if cid = 0x10 then
    if dataLength > 2 then do
      let data ← minus dataLength 2
      registerLoop length (data/9)
      pure 1
    else pure 0
  else if cid = 0x11 then pure 1
  else pure 0

/-- The checksum of the unstuffed frame compared with the one it carries. -/
def checkFrame (length : ℕ) : Decoding Bool := do
  let dataLength ← minus length 4
  let crc16 ← kmpCrc16 length dataLength
  let lo ← minus length 2
  let lo ← readFrame length lo
  let hi ← minus length 3
  let hi ← readFrame length hi
  pure (hi.toNat*2^8+lo.toNat = crc16.toNat)

def kmpDecodeFrame (length : ℕ) : Decoding ℤ := do
  setResponse fun _ => Response.zero
  if length = 0 then pure 0
  else if length = 1 then do
    let last ← minus length 1
    let _ ← readFrame length last
    pure 0
  else if length < 6 then pure 0
  else do
    let last ← minus length 1
    let c ← readFrame length last
    if c = 0x0d then do
      let length ← kmpByteUnstuff length
      let ok ← checkFrame length
      if ok then decodeData length (length-4) else pure (-1)
    else pure 0

section Erased

variable (s : Decoder)

theorem unstuffLoop_run (length n i j : ℕ) :
    (unstuffLoop length n i j).value s = j+(Kmp.unstuffLoop s.frame length n i).length ∧
      (unstuffLoop length n i j).final s =
        { s with unstuffed := store s.unstuffed j (Kmp.unstuffLoop s.frame length n i) } := by
  induction n generalizing s i j with
  | zero =>
    refine ⟨rfl,?_⟩
    rw [Kmp.unstuffLoop,store_nil]
    rfl
  | succ n ih =>
    -- What is left of the loop behind a byte that is written.
    have hwrite : ∀ (b : UInt8) (k : ℕ),
        (writeUnstuffed length j b >>= fun _ => unstuffLoop length n k (j+1)).value s =
            j+(b::Kmp.unstuffLoop s.frame length n k).length ∧
          (writeUnstuffed length j b >>= fun _ => unstuffLoop length n k (j+1)).final s =
            { s with unstuffed := store s.unstuffed j (b::Kmp.unstuffLoop s.frame length n k) } := by
      intro b k
      obtain ⟨hvalue,hfinal⟩ := ih { s with unstuffed := store s.unstuffed j [b] } k (j+1)
      have happend := store_append s.unstuffed j [b] (Kmp.unstuffLoop s.frame length n k)
      rw [List.singleton_append,List.length_singleton] at happend
      refine ⟨hvalue.trans ?_,hfinal.trans ?_⟩
      · rw [List.length_cons,Nat.add_assoc,Nat.add_comm 1]
      · rw [happend]
    rw [unstuffLoop,Kmp.unstuffLoop]
    by_cases hi : i < length
    · rw [if_pos hi,if_pos hi,value_bind,final_bind]
      have hread : (readFrame length i).value s = s.frame i := rfl
      have hstay : (readFrame length i).final s = s := rfl
      rw [hread,hstay]
      by_cases hc : s.frame i = 0x1b
      · rw [if_pos hc,if_pos hc]
        exact hwrite _ _
      · rw [if_neg hc,if_neg hc]
        exact hwrite _ _
    · rw [if_neg hi,if_neg hi,store_nil]
      exact ⟨rfl,rfl⟩

theorem copyBack_final (length j k : ℕ) :
    (copyBack length j k).final s = { s with frame := store s.frame 1 (load s.unstuffed 0 k) } := by
  induction k with
  | zero =>
    rw [load_zero,store_nil]
    rfl
  | succ k ih =>
    have hstep : (copyBack length j (k+1)).final s =
        { (copyBack length j k).final s with
          frame := store ((copyBack length j k).final s).frame (1+k)
            [((copyBack length j k).final s).unstuffed k] } := rfl
    have happend := store_append s.frame 1 (load s.unstuffed 0 k) [s.unstuffed k]
    have hload := load_add s.unstuffed 0 k 1
    have hlast : load s.unstuffed (0+k) 1 = [s.unstuffed k] := by
      rw [load_succ,load_zero,Nat.zero_add]
    rw [load_length] at happend
    rw [hlast] at hload
    rw [hstep,ih,hload,← happend]

theorem kmpByteUnstuff_run (length : ℕ) :
    (kmpByteUnstuff length).value s = (Kmp.kmpByteUnstuff ⟨s.frame,length,0⟩).frameLength ∧
      ((kmpByteUnstuff length).final s).frame = (Kmp.kmpByteUnstuff ⟨s.frame,length,0⟩).frame ∧
      ((kmpByteUnstuff length).final s).response = s.response := by
  obtain ⟨hvalue,hfinal⟩ := unstuffLoop_run s length length 1 0
  rw [Nat.zero_add] at hvalue
  rw [kmpByteUnstuff,value_bind,final_bind,hvalue,hfinal,Kmp.kmpByteUnstuff,putData]
  split
  · rw [value_bind,final_bind,copyBack_final]
    refine ⟨rfl,?_,rfl⟩
    show store s.frame 1 (load (store s.unstuffed 0 _) 0 _) = _
    rw [load_store]
  · exact ⟨rfl,rfl,rfl⟩

theorem readFrames_run (length i n : ℕ) :
    (readFrames length i n).value s = load s.frame i n ∧ (readFrames length i n).final s = s := by
  induction n generalizing i with
  | zero => exact ⟨rfl,rfl⟩
  | succ n ih =>
    obtain ⟨hvalue,hfinal⟩ := ih (i+1)
    refine ⟨?_,hfinal⟩
    rw [load_succ]
    exact congrArg (s.frame i :: ·) hvalue

theorem kmpCrc16_run (length dataLength : ℕ) :
    (kmpCrc16 length dataLength).value s = ccitCrc16 0 (load s.frame 1 dataLength) ∧
      (kmpCrc16 length dataLength).final s = s := by
  obtain ⟨hvalue,hfinal⟩ := readFrames_run s length 1 dataLength
  rw [kmpCrc16,value_bind,final_bind,hvalue,hfinal]
  exact ⟨rfl,rfl⟩

theorem checkFrame_run {length : ℕ} (h : 3 ≤ length) (n : ℕ) :
    (checkFrame length).value s = crcOk ⟨s.frame,length,n⟩ ∧ (checkFrame length).final s = s := by
  obtain ⟨hvalue,hfinal⟩ := kmpCrc16_run s length (length-4)
  have hminus : ∀ a b, (minus a b).value s = a-b ∧ (minus a b).final s = s := fun _ _ => ⟨rfl,rfl⟩
  have hlast : length-2 = length-3+1 := by omega
  rw [checkFrame,value_bind,final_bind,(hminus _ _).1,(hminus _ _).2,value_bind,final_bind,hvalue,
    hfinal,value_bind,final_bind,(hminus _ _).1,(hminus _ _).2,hlast]
  exact ⟨rfl,rfl⟩

theorem registerField_run (length i : ℕ) :
    (registerField length i).value s = registerAt s.frame i ∧
      (registerField length i).final s = s := ⟨rfl,rfl⟩

theorem registerLoop_final (length n : ℕ) :
    (registerLoop length n).final s =
      { s with response := { s.response with
        registers := fun i => if i < n then registerAt s.frame (9*i+3) else s.response.registers i } } := by
  induction n with
  | zero => rfl
  | succ n ih =>
    have hregs : Function.update
        (fun i => if i < n then registerAt s.frame (9*i+3) else s.response.registers i) n
        (registerAt s.frame (9*n+3)) =
        fun i => if i < n+1 then registerAt s.frame (9*i+3) else s.response.registers i := by
      funext i
      by_cases hi : i = n
      · rw [hi,Function.update_self,if_pos (Nat.lt_succ_self n)]
      · rw [Function.update_of_ne hi]
        by_cases hlt : i < n
        · rw [if_pos hlt,if_pos (by omega)]
        · rw [if_neg hlt,if_neg (by omega)]
    obtain ⟨hvalue,hstay⟩ := registerField_run ((registerLoop length n).final s) length (9*n+3)
    rw [registerLoop,final_bind,final_bind,hvalue,hstay,final_change,ih]
    dsimp only
    rw [hregs]

theorem decodeData_run (h : s.response = Response.zero) (length n : ℕ) :
    ((decodeData length (length-4)).value s,((decodeData length (length-4)).final s).response) =
      Kmp.decodeData ⟨s.frame,length,n⟩ := by
  have hcid : (readFrame length 2).value s = s.frame 2 := rfl
  have hstay : (readFrame length 2).final s = s := rfl
  rw [decodeData,Kmp.decodeData,value_bind,final_bind,hcid,hstay,← h]
  dsimp only
  split
  · rfl
  split
  · rfl
  split
  · split
    · rw [value_bind,final_bind,value_bind,final_bind,final_pure]
      have hminus : (minus (length-4) 2).value s = length-4-2 := rfl
      have hsame : (minus (length-4) 2).final s = s := rfl
      rw [hminus,hsame,registerLoop_final,h]
      rfl
    · rfl
  split
  · rfl
  · rfl

end Erased

/-- An escape byte takes one byte more with it, so at least half of the bytes come out. -/
theorem unstuffLoop_length {frame : Buf} {length n i : ℕ} (h : length ≤ i+n) :
    length ≤ i+2*(Kmp.unstuffLoop frame length n i).length := by
  induction n generalizing i with
  | zero => omega
  | succ n ih =>
    rw [Kmp.unstuffLoop]
    split
    · split
      · rw [List.length_cons]
        have hrest := @ih (i+2) (by omega)
        omega
      · rw [List.length_cons]
        have hrest := @ih (i+1) (by omega)
        omega
    · omega

theorem kmpByteUnstuff_length {frame : Buf} {length : ℕ} (h : 6 ≤ length) :
    4 ≤ (Kmp.kmpByteUnstuff ⟨frame,length,0⟩).frameLength := by
  have hlen := @unstuffLoop_length frame length length 1 (by omega)
  rw [Kmp.kmpByteUnstuff,putData]
  split
  · show 4 ≤ (Kmp.unstuffLoop frame length length 1).length+1
    omega
  · show 4 ≤ length
    omega

theorem kmpDecodeFrame_run (s : Decoder) (length : ℕ) :
    ((kmpDecodeFrame length).value s,((kmpDecodeFrame length).final s).response) =
      Kmp.kmpDecodeFrame s.frame length := by
  rw [kmpDecodeFrame,value_bind,final_bind]
  have hclear : (setResponse fun _ => Response.zero).final s = { s with response := Response.zero } :=
    rfl
  rw [hclear]
  generalize ht : ({ s with response := Response.zero } : Decoder) = t
  have hframe : t.frame = s.frame := by rw [← ht]
  have hresponse : t.response = Response.zero := by rw [← ht]
  have hrefused : ((0 : ℤ),t.response) = (0,Response.zero) := by rw [hresponse]
  rw [Kmp.kmpDecodeFrame]
  by_cases hshort : length < 6
  · rw [if_pos hshort]
    split
    · exact hrefused
    split
    · exact hrefused
    · exact hrefused
  rw [if_neg hshort,if_neg (by omega),if_neg (by omega),if_neg hshort,value_bind,final_bind]
  have hlast : (minus length 1).value t = length-1 := rfl
  have hstay : (minus length 1).final t = t := rfl
  have hread : (readFrame length (length-1)).value t = t.frame (length-1) := rfl
  have hstay' : (readFrame length (length-1)).final t = t := rfl
  rw [hlast,hstay,value_bind,final_bind,hread,hstay',hframe]
  split
  · obtain ⟨hvalue,hdata,hkept⟩ := kmpByteUnstuff_run t length
    rw [hframe] at hvalue hdata
    rw [hresponse] at hkept
    have hfour := @kmpByteUnstuff_length s.frame length (by omega)
    rw [value_bind,final_bind,hvalue]
    generalize (kmpByteUnstuff length).final t = u at hdata hkept
    generalize Kmp.kmpByteUnstuff ⟨s.frame,length,0⟩ = f at hdata hfour
    obtain ⟨hok,hsame⟩ := checkFrame_run u (show 3 ≤ f.frameLength by omega) f.dataLength
    rw [value_bind,final_bind,hok,hsame,hdata]
    dsimp only
    split
    · have hrun := decodeData_run u hkept f.frameLength f.dataLength
      rwa [hdata] at hrun
    · rw [value_pure,final_pure,hkept]
  · exact hrefused

end KmpAccess
end MeterLogger
