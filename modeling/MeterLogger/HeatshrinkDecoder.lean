import Mathlib.Data.Nat.ModEq
import Mathlib.Data.Nat.Size
import MeterLogger.Buffers
import MeterLogger.Lzss

/-!
# The decompressor of the web pages

The state machine of `heatshrink_decoder.c`: input is sunk into a buffer, and each poll goes from
state to state until input or room for output is used up. Behind every state stands a rest of the
text: what the bits of the token under way and the bits in the buffer are decoded to. A step gives
out the beginning of that rest and leaves the remainder, so it does not matter in which pieces the
input comes and the output is taken.
-/

namespace MeterLogger
namespace HeatshrinkDecoder

open Buffers Lzss

inductive HsdState
  | empty
  | inputAvailable
  | yieldLiteral
  | backrefIndexMsb
  | backrefIndexLsb
  | backrefCountMsb
  | backrefCountLsb
  | yieldBackref
  | checkForMoreInput
deriving DecidableEq

/-- The fields that `get_bits` works on. -/
structure BitInput where
  inputSize : ℕ
  inputIndex : ℕ
  bitAccumulator : ℕ
  currentByte : UInt8
  bitIndex : UInt8

/-- `heatshrink_decoder`; the window lies behind the input in `buffers`. -/
structure Decoder extends BitInput where
  outputCount : ℕ
  outputIndex : ℕ
  headIndex : ℕ
  state : HsdState
  windowSz2 : ℕ
  lookaheadSz2 : ℕ
  inputBufferSize : ℕ
  buffers : Buf

/-- `heatshrink_decoder_reset` of a decoder of these sizes. -/
def heatshrinkDecoderReset (inputBufferSize windowSz2 lookaheadSz2 : ℕ) : Decoder where
  inputSize := 0
  inputIndex := 0
  bitAccumulator := 0
  currentByte := 0
  bitIndex := 0
  outputCount := 0
  outputIndex := 0
  headIndex := 0
  state := .empty
  windowSz2 := windowSz2
  lookaheadSz2 := lookaheadSz2
  inputBufferSize := inputBufferSize
  buffers := fun _ => 0

/-- `heatshrink_decoder_alloc`, with memory enough. -/
def heatshrinkDecoderAlloc (inputBufferSize windowSz2 lookaheadSz2 : ℕ) : Option Decoder :=
  if windowSz2 < 4 ∨ 15 < windowSz2 ∨ inputBufferSize = 0 ∨ lookaheadSz2 < 2 ∨
      windowSz2 < lookaheadSz2 then none
  else some (heatshrinkDecoderReset inputBufferSize windowSz2 lookaheadSz2)

/-- `heatshrink_decoder_sink`, with the number of bytes that were taken; none is
`HSDR_SINK_FULL`. -/
def heatshrinkDecoderSink (hsd : Decoder) (inBuf : List UInt8) : Decoder × ℕ :=
  let rem := hsd.inputBufferSize-hsd.inputSize
  if rem = 0 then (hsd,0)
  else
    let size := min rem inBuf.length
    let hsd := { hsd with
      buffers := store hsd.buffers hsd.inputSize (inBuf.take size)
      inputSize := hsd.inputSize+size }
    (if hsd.state = .empty then { hsd with state := .inputAvailable, inputIndex := 0 } else hsd,size)

def pullByte (buffers : Buf) (s : BitInput) : BitInput :=
  let s := { s with
    currentByte := buffers s.inputIndex, inputIndex := s.inputIndex+1, bitIndex := 0x80 }
  if s.inputIndex = s.inputSize then { s with inputIndex := 0, inputSize := 0 } else s

def takeBit (s : BitInput) : BitInput :=
  { s with
    bitAccumulator :=
      if s.currentByte &&& s.bitIndex ≠ 0 then (s.bitAccumulator <<< 1) ||| 1
      else s.bitAccumulator <<< 1
    bitIndex := s.bitIndex >>> 1 }

/-- The loop of `get_bits`; `false` when it runs out of bits. -/
def getBitsLoop (buffers : Buf) : ℕ → BitInput → BitInput × Bool
  | 0, s => (s,true)
  | n+1, s =>
    if s.bitIndex = 0 then
      if s.inputSize = 0 then (s,false) else getBitsLoop buffers n (takeBit (pullByte buffers s))
    else getBitsLoop buffers n (takeBit s)

/-- `get_bits`; `none` is `NO_BITS`. -/
def getBits (buffers : Buf) (s : BitInput) (count : ℕ) : BitInput × Option ℕ :=
  if 31 < count then (s,none)
  else if s.inputSize = 0 ∧ s.bitIndex.toNat < 1 <<< (count-1) then (s,none)
  else
    let r := getBitsLoop buffers count s
    if r.2 then ({ r.1 with bitAccumulator := 0 },some r.1.bitAccumulator) else (r.1,none)

def mask (hsd : Decoder) : ℕ := (1 <<< hsd.windowSz2)-1

/-- A byte at the head of the window, and the head behind it; the index has 16 bits. -/
def putWindow (hsd : Decoder) (c : UInt8) : Decoder :=
  { hsd with
    buffers := store hsd.buffers (hsd.inputBufferSize+(hsd.headIndex &&& mask hsd)) [c]
    headIndex := (hsd.headIndex+1)%65536 }

def stInputAvailable (hsd : Decoder) : Decoder × HsdState :=
  let r := getBits hsd.buffers hsd.toBitInput 1
  let hsd := { hsd with toBitInput := r.1 }
  if r.2 ≠ some 0 then (hsd,.yieldLiteral)
  else if 8 < hsd.windowSz2 then (hsd,.backrefIndexMsb)
  else ({ hsd with outputIndex := 0 },.backrefIndexLsb)

/-- With room for `size` bytes, of which `out` are given out. -/
def stYieldLiteral (size : ℕ) (hsd : Decoder) (out : List UInt8) :
    Decoder × List UInt8 × HsdState :=
  if out.length < size then
    let r := getBits hsd.buffers hsd.toBitInput 8
    let hsd := { hsd with toBitInput := r.1 }
    match r.2 with
    | none => (hsd,out,.yieldLiteral)
    | some byte =>
      let c := UInt8.ofNat (byte &&& 0xff)
      (putWindow hsd c,out ++ [c],.checkForMoreInput)
  else (hsd,out,.yieldLiteral)

def stBackrefIndexMsb (hsd : Decoder) : Decoder × HsdState :=
  let r := getBits hsd.buffers hsd.toBitInput (hsd.windowSz2-8)
  let hsd := { hsd with toBitInput := r.1 }
  match r.2 with
  | none => (hsd,.backrefIndexMsb)
  | some bits => ({ hsd with outputIndex := bits <<< 8 },.backrefIndexLsb)

def stBackrefIndexLsb (hsd : Decoder) : Decoder × HsdState :=
  let r := getBits hsd.buffers hsd.toBitInput (if hsd.windowSz2 < 8 then hsd.windowSz2 else 8)
  let hsd := { hsd with toBitInput := r.1 }
  match r.2 with
  | none => (hsd,.backrefIndexLsb)
  | some bits =>
    ({ hsd with outputIndex := (hsd.outputIndex ||| bits)+1, outputCount := 0 },
      if 8 < hsd.lookaheadSz2 then .backrefCountMsb else .backrefCountLsb)

def stBackrefCountMsb (hsd : Decoder) : Decoder × HsdState :=
  let r := getBits hsd.buffers hsd.toBitInput (hsd.lookaheadSz2-8)
  let hsd := { hsd with toBitInput := r.1 }
  match r.2 with
  | none => (hsd,.backrefCountMsb)
  | some bits => ({ hsd with outputCount := bits <<< 8 },.backrefCountLsb)

def stBackrefCountLsb (hsd : Decoder) : Decoder × HsdState :=
  let r := getBits hsd.buffers hsd.toBitInput (if hsd.lookaheadSz2 < 8 then hsd.lookaheadSz2 else 8)
  let hsd := { hsd with toBitInput := r.1 }
  match r.2 with
  | none => (hsd,.backrefCountLsb)
  | some bits => ({ hsd with outputCount := (hsd.outputCount ||| bits)+1 },.yieldBackref)

/-- The bytes of a back-reference; the difference of the indices may be negative, only its lowest
bits count. -/
def copyLoop : ℕ → Decoder → List UInt8 → Decoder × List UInt8
  | 0, hsd, out => (hsd,out)
  | n+1, hsd, out =>
    let c := hsd.buffers
      (hsd.inputBufferSize+((hsd.headIndex+65536-hsd.outputIndex) &&& mask hsd))
    copyLoop n (putWindow hsd c) (out ++ [c])

def stYieldBackref (size : ℕ) (hsd : Decoder) (out : List UInt8) :
    Decoder × List UInt8 × HsdState :=
  let count := size-out.length
  if 0 < count then
    let count := if hsd.outputCount < count then hsd.outputCount else count
    let r := copyLoop count hsd out
    let hsd := { r.1 with outputCount := r.1.outputCount-count }
    (hsd,r.2,if hsd.outputCount = 0 then .checkForMoreInput else .yieldBackref)
  else (hsd,out,.yieldBackref)

def stCheckForInput (hsd : Decoder) : HsdState :=
  if hsd.inputSize = 0 then .empty else .inputAvailable

def silent (out : List UInt8) (r : Decoder × HsdState) : Decoder × List UInt8 × HsdState :=
  (r.1,out,r.2)

def handle (size : ℕ) (hsd : Decoder) (out : List UInt8) : Decoder × List UInt8 × HsdState :=
  match hsd.state with
  | .empty => (hsd,out,.empty)
  | .inputAvailable => silent out (stInputAvailable hsd)
  | .yieldLiteral => stYieldLiteral size hsd out
  | .backrefIndexMsb => silent out (stBackrefIndexMsb hsd)
  | .backrefIndexLsb => silent out (stBackrefIndexLsb hsd)
  | .backrefCountMsb => silent out (stBackrefCountMsb hsd)
  | .backrefCountLsb => silent out (stBackrefCountLsb hsd)
  | .yieldBackref => stYieldBackref size hsd out
  | .checkForMoreInput => silent out (hsd,stCheckForInput hsd)

inductive PollRes
  | empty
  | more
deriving DecidableEq

/-- The loop of `heatshrink_decoder_poll`; `none` when the fuel is used up. -/
def pollLoop (size : ℕ) : ℕ → Decoder → List UInt8 → Option (Decoder × List UInt8 × PollRes)
  | 0, _, _ => none
  | fuel+1, hsd, out =>
    if hsd.state = .empty then some (hsd,out,.empty)
    else
      let r := handle size hsd out
      let hsd' := { r.1 with state := r.2.2 }
      if r.2.2 = hsd.state then
        some (hsd',r.2.1,if r.2.1.length = size then .more else .empty)
      else pollLoop size fuel hsd' r.2.1

/-- The bits that the decoder has not used. -/
def BitInput.pending (buffers : Buf) (s : BitInput) : List Bool :=
  bitsOf s.bitIndex.toNat.size s.currentByte.toNat ++
    byteBits (load buffers s.inputIndex (s.inputSize-s.inputIndex))

def Decoder.pending (hsd : Decoder) : List Bool := hsd.toBitInput.pending hsd.buffers

def pollBound (hsd : Decoder) : ℕ := 3*hsd.pending.length+3

def heatshrinkDecoderPoll (hsd : Decoder) (outBufSize : ℕ) :
    Option (Decoder × List UInt8 × PollRes) :=
  pollLoop outBufSize (pollBound hsd) hsd []

theorem bitMask_size {k : ℕ} (hk : k ≤ 8) : (bitMask k).toNat.size = k := by
  cases k with
  | zero => exact Nat.size_zero
  | succ k => rw [bitMask_toNat (by omega),Nat.size_pow]

/-- Bytes are left in the buffer, or it is empty; less than a byte is left of the current one. -/
structure BitInput.Valid (s : BitInput) : Prop where
  input : s.inputIndex < s.inputSize ∨ s.inputIndex = 0 ∧ s.inputSize = 0
  bits : ∃ k < 8, s.bitIndex = bitMask k

variable (buffers : Buf) {s : BitInput}

theorem pending_of_bits {k : ℕ} (hk : k ≤ 8) (h : s.bitIndex = bitMask k) :
    s.pending buffers = bitsOf k s.currentByte.toNat ++
      byteBits (load buffers s.inputIndex (s.inputSize-s.inputIndex)) := by
  rw [BitInput.pending,h,bitMask_size hk]

theorem pending_lt (hv : s.Valid) (h : s.inputSize = 0) : (s.pending buffers).length < 8 := by
  obtain ⟨k,hk,hbits⟩ := hv.bits
  rw [pending_of_bits buffers (Nat.le_of_lt hk) hbits,h,Nat.zero_sub,load_zero,List.length_append,
    bitsOf_length,byteBits_length]
  exact hk

theorem pending_ge (hv : s.Valid) (h : s.inputSize ≠ 0) : 8 ≤ (s.pending buffers).length := by
  have hlt : s.inputIndex < s.inputSize := hv.input.resolve_right fun h' => h h'.2
  rw [BitInput.pending,List.length_append,byteBits_length,load_length]
  omega

/-- What a step of the loop of `get_bits` does with a bit. -/
def Taken (buffers : Buf) (s s' : BitInput) (bit : Bool) (rest : List Bool) : Prop :=
  s'.Valid ∧ s'.inputSize ≤ s.inputSize ∧ s'.pending buffers = rest ∧
    s'.bitAccumulator = 2*s.bitAccumulator+bit.toNat

theorem takeBit_taken {k : ℕ} (hk : k < 8) (h : s.bitIndex = bitMask (k+1))
    (hinput : s.inputIndex < s.inputSize ∨ s.inputIndex = 0 ∧ s.inputSize = 0) :
    Taken buffers s (takeBit s) (s.currentByte.toNat.testBit k)
      (bitsOf k s.currentByte.toNat ++
        byteBits (load buffers s.inputIndex (s.inputSize-s.inputIndex))) := by
  have hhalf : (takeBit s).bitIndex = bitMask k := by rw [takeBit,h,bitMask_half hk]
  refine ⟨⟨hinput,k,hk,hhalf⟩,Nat.le_refl _,pending_of_bits buffers (Nat.le_of_lt hk) hhalf,?_⟩
  have hodd : s.bitAccumulator <<< 1 ||| 1 = 2*s.bitAccumulator+1 := by
    rw [← Nat.shiftLeft_add_eq_or_of_lt (by decide : 1 < 2^1),Nat.shiftLeft_eq]
    omega
  simp only [takeBit,h,and_bitMask _ hk]
  cases s.currentByte.toNat.testBit k
  · simp [Nat.shiftLeft_eq,Nat.mul_comm]
  · simpa using hodd

theorem pullByte_spec (h : s.inputIndex < s.inputSize) :
    (pullByte buffers s).bitIndex = bitMask 8 ∧
      ((pullByte buffers s).inputIndex < (pullByte buffers s).inputSize ∨
        (pullByte buffers s).inputIndex = 0 ∧ (pullByte buffers s).inputSize = 0) ∧
      (pullByte buffers s).inputSize ≤ s.inputSize ∧
      (pullByte buffers s).bitAccumulator = s.bitAccumulator ∧
      byteBits (load buffers s.inputIndex (s.inputSize-s.inputIndex)) =
        bitsOf 8 (pullByte buffers s).currentByte.toNat ++
          byteBits (load buffers (pullByte buffers s).inputIndex
            ((pullByte buffers s).inputSize-(pullByte buffers s).inputIndex)) := by
  have hload : load buffers s.inputIndex (s.inputSize-s.inputIndex) =
      buffers s.inputIndex::load buffers (s.inputIndex+1) (s.inputSize-(s.inputIndex+1)) := by
    rw [← load_succ]
    congr 1
    omega
  have hbits : byteBits (load buffers s.inputIndex (s.inputSize-s.inputIndex)) =
      bitsOf 8 (buffers s.inputIndex).toNat ++
        byteBits (load buffers (s.inputIndex+1) (s.inputSize-(s.inputIndex+1))) := by
    rw [hload]
    rfl
  rw [pullByte,hbits]
  by_cases hlast : s.inputIndex+1 = s.inputSize
  · rw [if_pos hlast]
    refine ⟨rfl,Or.inr ⟨rfl,rfl⟩,Nat.zero_le _,rfl,?_⟩
    rw [hlast,Nat.sub_self,load_zero]
    rfl
  · rw [if_neg hlast]
    exact ⟨rfl,Or.inl (by dsimp only; omega),Nat.le_refl _,rfl,rfl⟩

variable {buffers}

theorem getBitsLoop_succ (hv : s.Valid) {bit : Bool} {rest : List Bool}
    (h : s.pending buffers = bit::rest) (n : ℕ) :
    ∃ s', getBitsLoop buffers (n+1) s = getBitsLoop buffers n s' ∧ Taken buffers s s' bit rest := by
  obtain ⟨k,hk,hbits⟩ := hv.bits
  rw [pending_of_bits buffers (Nat.le_of_lt hk) hbits] at h
  cases k with
  | zero =>
    have hlt : s.inputIndex < s.inputSize := by
      refine hv.input.resolve_right fun h' => ?_
      rw [h'.2,h'.1] at h
      cases h
    obtain ⟨hmask,hinput,hsize,hacc,hpull⟩ := pullByte_spec buffers hlt
    rw [bitsOf,List.nil_append,hpull,bitsOf,List.cons_append,List.cons.injEq] at h
    obtain ⟨rfl,rfl⟩ := h
    refine ⟨takeBit (pullByte buffers s),?_,?_⟩
    · rw [getBitsLoop,if_pos (show s.bitIndex = 0 from hbits),if_neg (by omega)]
    · obtain ⟨hv',hsize',hrest,hacc'⟩ := takeBit_taken buffers (by decide) hmask hinput
      exact ⟨hv',Nat.le_trans hsize' hsize,hrest,by rw [hacc',hacc]⟩
  | succ k =>
    rw [bitsOf,List.cons_append,List.cons.injEq] at h
    obtain ⟨rfl,rfl⟩ := h
    refine ⟨takeBit s,?_,takeBit_taken buffers (by omega) hbits hv.input⟩
    rw [getBitsLoop,hbits,if_neg (bitMask_ne_zero (by omega))]

theorem getBitsLoop_spec (hv : s.Valid) {n : ℕ} (hn : n ≤ (s.pending buffers).length) :
    ∃ s', getBitsLoop buffers n s = (s',true) ∧ s'.Valid ∧ s'.inputSize ≤ s.inputSize ∧
      s'.pending buffers = (s.pending buffers).drop n ∧
      s'.bitAccumulator = 2^n*s.bitAccumulator+value ((s.pending buffers).take n) := by
  induction n generalizing s with
  | zero => exact ⟨s,rfl,hv,Nat.le_refl _,rfl,by simp [value]⟩
  | succ n ih =>
    obtain ⟨bit,rest,hpending⟩ := List.exists_cons_of_length_pos (Nat.lt_of_lt_of_le n.succ_pos hn)
    obtain ⟨s₁,hloop,hv₁,hsize,hrest,hacc⟩ := getBitsLoop_succ hv hpending n
    rw [hpending,List.length_cons] at hn
    obtain ⟨s₂,hloop₂,hv₂,hsize₂,hrest₂,hacc₂⟩ := ih hv₁ (by rw [hrest]; omega)
    refine ⟨s₂,hloop.trans hloop₂,hv₂,Nat.le_trans hsize₂ hsize,?_,?_⟩
    · rw [hrest₂,hrest,hpending,List.drop_succ_cons]
    · rw [hacc₂,hacc,hrest,hpending,List.take_succ_cons,value,List.length_take_of_le (by omega),
        Nat.mul_add,Nat.add_assoc,Nat.pow_succ,Nat.mul_assoc]

theorem getBits_some (hv : s.Valid) (hacc : s.bitAccumulator = 0) {n : ℕ} (hpos : 0 < n)
    (h8 : n ≤ 8) (hn : n ≤ (s.pending buffers).length) :
    ∃ s', getBits buffers s n = (s',some (value ((s.pending buffers).take n))) ∧ s'.Valid ∧
      s'.inputSize ≤ s.inputSize ∧ s'.bitAccumulator = 0 ∧ s'.pending buffers = (s.pending buffers).drop n := by
  obtain ⟨s',hloop,hv',hsize,hrest,hacc'⟩ := getBitsLoop_spec hv hn
  have hthere : ¬(s.inputSize = 0 ∧ s.bitIndex.toNat < 1 <<< (n-1)) := by
    rintro ⟨hsize,hfew⟩
    obtain ⟨k,hk,hbits⟩ := hv.bits
    have hlen : n ≤ k := by
      rw [pending_of_bits buffers (Nat.le_of_lt hk) hbits,hsize,Nat.zero_sub,load_zero,
        List.length_append,bitsOf_length,byteBits_length] at hn
      exact hn
    obtain ⟨j,rfl⟩ : ∃ j, k = j+1 := ⟨k-1,by omega⟩
    rw [hbits,bitMask_toNat (by omega),Nat.one_shiftLeft] at hfew
    exact absurd (Nat.pow_le_pow_right (by decide : 0 < 2) (by omega : n-1 ≤ j)) (by omega)
  refine ⟨{ s' with bitAccumulator := 0 },?_,⟨hv'.input,hv'.bits⟩,hsize,rfl,hrest⟩
  rw [hacc,Nat.mul_zero,Nat.zero_add] at hacc'
  rw [getBits,if_neg (by omega),if_neg hthere]
  simp only [hloop,hacc',if_true]

theorem getBits_none (hv : s.Valid) {n : ℕ} (h8 : n ≤ 8) (hn : (s.pending buffers).length < n) :
    getBits buffers s n = (s,none) := by
  have hsize : s.inputSize = 0 := by
    by_contra h
    have hge := pending_ge buffers hv h
    omega
  obtain ⟨k,hk,hbits⟩ := hv.bits
  rw [pending_of_bits buffers (Nat.le_of_lt hk) hbits,List.length_append,bitsOf_length] at hn
  have hfew : s.bitIndex.toNat < 1 <<< (n-1) := by
    rw [hbits,Nat.one_shiftLeft]
    cases k with
    | zero => exact Nat.two_pow_pos _
    | succ k =>
      rw [bitMask_toNat (by omega)]
      exact Nat.pow_lt_pow_right (by decide) (by omega)
  rw [getBits,if_neg (by omega),if_pos ⟨hsize,hfew⟩]

variable {w l : ℕ} {hsd : Decoder} {text : List UInt8}

/-- The window holds the end of the text that was given out, its last byte first in `text`. -/
structure Windowed (w : ℕ) (hsd : Decoder) (text : List UInt8) : Prop where
  windowSz2 : hsd.windowSz2 = w
  windowSz2_le : w ≤ 15
  bytes : ∀ p < 2^w, ∀ i < 2^w, p+(i+1) ≡ hsd.headIndex [MOD 2^w] →
    hsd.buffers (hsd.inputBufferSize+p) = text.getD i 0

theorem and_mask (hsd : Decoder) (n : ℕ) : n &&& mask hsd = n%2^hsd.windowSz2 := by
  rw [mask,Nat.one_shiftLeft]
  exact Nat.and_two_pow_sub_one_eq_mod n _

theorem Windowed.dvd (h : Windowed w hsd text) : 2^w ∣ 65536 :=
  Nat.pow_dvd_pow 2 (Nat.le_succ_of_le h.windowSz2_le)

theorem Windowed.back (h : Windowed w hsd text) {distance : ℕ} (hpos : 0 < distance)
    (hle : distance ≤ 2^w) :
    hsd.buffers (hsd.inputBufferSize+((hsd.headIndex+65536-distance) &&& mask hsd)) =
      text.getD (distance-1) 0 := by
  have hwrap : 2^w ≤ 65536 := Nat.le_of_dvd (by decide) h.dvd
  rw [and_mask,h.windowSz2]
  refine h.bytes _ (Nat.mod_lt _ (Nat.two_pow_pos w)) _ (by omega) ?_
  rw [Nat.sub_add_cancel hpos]
  calc (hsd.headIndex+65536-distance)%2^w+distance
      ≡ hsd.headIndex+65536-distance+distance [MOD 2^w] := (Nat.mod_modEq _ _).add_right _
    _ = hsd.headIndex+65536 := Nat.sub_add_cancel (by omega)
    _ ≡ hsd.headIndex+0 [MOD 2^w] := ((Nat.modEq_zero_iff_dvd).mpr h.dvd).add_left _

theorem Windowed.put (h : Windowed w hsd text) (c : UInt8) :
    Windowed w (putWindow hsd c) (c::text) := by
  refine ⟨h.windowSz2,h.windowSz2_le,fun p hp i hi hpos => ?_⟩
  have hnew : (putWindow hsd c).buffers =
      store hsd.buffers (hsd.inputBufferSize+hsd.headIndex%2^w) [c] := by
    rw [putWindow,and_mask,h.windowSz2]
  have hold : p+i ≡ hsd.headIndex [MOD 2^w] :=
    (hpos.trans ((Nat.mod_modEq _ _).of_dvd h.dvd)).add_right_cancel' 1
  show (putWindow hsd c).buffers (hsd.inputBufferSize+p) = _
  rw [hnew]
  cases i with
  | zero =>
    have hhead : p = hsd.headIndex%2^w := by rw [← hold,Nat.add_zero,Nat.mod_eq_of_lt hp]
    simp [hhead,store]
  | succ i =>
    -- the bytes further back stand elsewhere
    have hother : p ≠ hsd.headIndex%2^w := by
      rintro rfl
      have hzero : i+1 ≡ 0 [MOD 2^w] :=
        Nat.ModEq.add_left_cancel' (hsd.headIndex%2^w) (hold.trans (Nat.mod_modEq _ _).symm)
      have hdvd := Nat.le_of_dvd (Nat.succ_pos i) ((Nat.modEq_zero_iff_dvd).mp hzero)
      omega
    rw [store_out (by rw [List.length_singleton]; omega)]
    exact h.bytes p hp i (by omega) hold

theorem Windowed.congr {hsd' : Decoder} (h : Windowed w hsd text)
    (hw : hsd'.windowSz2 = hsd.windowSz2) (hhead : hsd'.headIndex = hsd.headIndex)
    (hsize : hsd'.inputBufferSize = hsd.inputBufferSize)
    (hbytes : ∀ p, hsd'.buffers (hsd.inputBufferSize+p) = hsd.buffers (hsd.inputBufferSize+p)) :
    Windowed w hsd' text := by
  refine ⟨hw.trans h.windowSz2,h.windowSz2_le,fun p hp i hi hpos => ?_⟩
  rw [hsize,hbytes]
  exact h.bytes p hp i hi (hhead ▸ hpos)

theorem pending_putWindow (hv : hsd.toBitInput.Valid) (hle : hsd.inputSize ≤ hsd.inputBufferSize)
    (c : UInt8) : (putWindow hsd c).pending = hsd.pending := by
  have hin : hsd.inputIndex ≤ hsd.inputSize := by
    have hinput := hv.input
    omega
  have hload : load (putWindow hsd c).buffers hsd.inputIndex (hsd.inputSize-hsd.inputIndex) =
      load hsd.buffers hsd.inputIndex (hsd.inputSize-hsd.inputIndex) :=
    load_store_other (Or.inl (by omega))
  exact congrArg (fun bytes => bitsOf hsd.bitIndex.toNat.size hsd.currentByte.toNat ++ byteBits bytes)
    hload

/-- The sizes that `heatshrink_decoder_alloc` lets through. -/
structure Sized (w l : ℕ) : Prop where
  four_le : 4 ≤ w
  le_fifteen : w ≤ 15
  two_le : 2 ≤ l
  le : l ≤ w

/-- The bits of the token under way that were taken from the input. -/
def takenBits (hsd : Decoder) : List Bool :=
  match hsd.state with
  | .yieldLiteral => [true]
  | .backrefIndexMsb => [false]
  | .backrefIndexLsb => false::bitsOf (hsd.windowSz2-8) (hsd.outputIndex >>> 8)
  | .backrefCountMsb => false::bitsOf hsd.windowSz2 (hsd.outputIndex-1)
  | .backrefCountLsb =>
    false::(bitsOf hsd.windowSz2 (hsd.outputIndex-1) ++
      bitsOf (hsd.lookaheadSz2-8) (hsd.outputCount >>> 8))
  | _ => []

def restOf (hsd : Decoder) (text : List UInt8) (bits : List Bool) : List UInt8 :=
  if hsd.state = .yieldBackref then
    copy text hsd.outputIndex hsd.outputCount ++
      decode hsd.windowSz2 hsd.lookaheadSz2
        ((copy text hsd.outputIndex hsd.outputCount).reverse ++ text) (hsd.pending ++ bits)
  else decode hsd.windowSz2 hsd.lookaheadSz2 text (takenBits hsd ++ hsd.pending ++ bits)

def Shaped (hsd : Decoder) : Prop :=
  match hsd.state with
  | .empty => hsd.inputSize = 0
  | .inputAvailable => hsd.inputSize ≠ 0
  | .backrefIndexMsb => 8 < hsd.windowSz2
  | .backrefIndexLsb => hsd.outputIndex%256 = 0 ∧ hsd.outputIndex < 2^hsd.windowSz2
  | .backrefCountMsb =>
    8 < hsd.lookaheadSz2 ∧ 0 < hsd.outputIndex ∧ hsd.outputIndex ≤ 2^hsd.windowSz2
  | .backrefCountLsb =>
    (hsd.outputCount%256 = 0 ∧ hsd.outputCount < 2^hsd.lookaheadSz2) ∧
      0 < hsd.outputIndex ∧ hsd.outputIndex ≤ 2^hsd.windowSz2
  | .yieldBackref =>
    0 < hsd.outputCount ∧ 0 < hsd.outputIndex ∧ hsd.outputIndex ≤ 2^hsd.windowSz2
  | _ => True

/-- The decoder that has given out `text`. -/
structure Inv (w l : ℕ) (hsd : Decoder) (text : List UInt8) : Prop where
  windowed : Windowed w hsd text
  lookaheadSz2 : hsd.lookaheadSz2 = l
  valid : hsd.toBitInput.Valid
  inputSize_le : hsd.inputSize ≤ hsd.inputBufferSize
  buffer_pos : 0 < hsd.inputBufferSize
  accumulator : hsd.bitAccumulator = 0
  shaped : Shaped hsd

def HsdState.rank : HsdState → ℕ
  | .yieldBackref => 2
  | .checkForMoreInput => 1
  | _ => 0

def measure (hsd : Decoder) : ℕ := 3*hsd.pending.length+hsd.state.rank

def next (r : Decoder × List UInt8 × HsdState) : Decoder := { r.1 with state := r.2.2 }

/-- A handler gives out the beginning of the rest. When it stays in its state, room or bits are
used up; else the decoder has come closer to that. -/
structure Advances (w l size : ℕ) (hsd : Decoder) (text out : List UInt8)
    (r : Decoder × List UInt8 × HsdState) (new : List UInt8) : Prop where
  out : r.2.1 = out ++ new
  inv : Inv w l (next r) (new.reverse ++ text)
  rest : ∀ bits, restOf hsd text bits = new ++ restOf (next r) (new.reverse ++ text) bits
  room : r.2.1.length ≤ size
  stuck : r.2.2 = hsd.state → r.2.1.length = size ∨
    (next r).inputSize = 0 ∧ restOf (next r) (new.reverse ++ text) [] = []
  closer : r.2.2 ≠ hsd.state → measure (next r) < measure hsd

theorem Inv.getBits (h : Inv w l hsd text) {n : ℕ} (hpos : 0 < n) (h8 : n ≤ 8) :
    (hsd.pending.length < n ∧ hsd.inputSize = 0 ∧
      getBits hsd.buffers hsd.toBitInput n = (hsd.toBitInput,none)) ∨
    ∃ s' low, low.length = n ∧ hsd.pending = low ++ s'.pending hsd.buffers ∧
      getBits hsd.buffers hsd.toBitInput n = (s',some (value low)) ∧ s'.Valid ∧
      s'.inputSize ≤ hsd.inputBufferSize ∧ s'.bitAccumulator = 0 := by
  by_cases hn : hsd.pending.length < n
  · have hzero : hsd.inputSize = 0 := by
      by_contra hne
      exact absurd (pending_ge hsd.buffers h.valid hne) (Nat.not_le_of_lt (Nat.lt_of_lt_of_le hn h8))
    exact Or.inl ⟨hn,hzero,getBits_none h.valid h8 hn⟩
  · obtain ⟨s',hget,hv,hsize,hacc,hrest⟩ :=
      getBits_some h.valid h.accumulator hpos h8 (Nat.le_of_not_lt hn)
    refine Or.inr ⟨s',hsd.pending.take n,List.length_take_of_le (Nat.le_of_not_lt hn),?_,hget,hv,
      Nat.le_trans hsize h.inputSize_le,hacc⟩
    rw [hrest]
    exact (List.take_append_drop n _).symm

theorem Inv.take (h : Inv w l hsd text) {s' : BitInput} (hv : s'.Valid)
    (hsize : s'.inputSize ≤ hsd.inputBufferSize) (hacc : s'.bitAccumulator = 0)
    (index count : ℕ) (state : HsdState)
    (hshaped : Shaped { hsd with
      toBitInput := s', outputIndex := index, outputCount := count, state := state }) :
    Inv w l { hsd with
      toBitInput := s', outputIndex := index, outputCount := count, state := state } text :=
  ⟨h.windowed.congr rfl rfl rfl fun _ => rfl,h.lookaheadSz2,hv,hsize,h.buffer_pos,hacc,hshaped⟩

theorem Inv.stays (h : Inv w l hsd text) {state : HsdState} (hstate : hsd.state = state) {size : ℕ}
    {out : List UInt8} (hroom : out.length ≤ size) (hzero : hsd.inputSize = 0)
    (hopen : restOf hsd text [] = []) : Advances w l size hsd text out (hsd,out,state) [] := by
  subst hstate
  exact
    { out := (List.append_nil out).symm
      inv := h
      rest := fun _ => rfl
      room := hroom
      stuck := fun _ => Or.inr ⟨hzero,hopen⟩
      closer := fun hne => absurd rfl hne }

theorem Inv.goes {hsd' : Decoder} {state : HsdState} {size : ℕ} {out : List UInt8}
    (h' : Inv w l { hsd' with state := state } text) (hroom : out.length ≤ size)
    (hstate : state ≠ hsd.state)
    (hrest : ∀ bits, restOf hsd text bits = restOf { hsd' with state := state } text bits)
    (hcloser : measure { hsd' with state := state } < measure hsd) :
    Advances w l size hsd text out (hsd',out,state) [] where
  out := (List.append_nil out).symm
  inv := h'
  rest := hrest
  room := hroom
  stuck heq := absurd heq hstate
  closer _ := hcloser

theorem field_bits {k high : ℕ} {low : List Bool} (hlow : low.length = if k < 8 then k else 8)
    (hmod : high%256 = 0) (hlt : high < 2^k) :
    bitsOf k (high ||| value low) = bitsOf (k-8) (high >>> 8) ++ low ∧
      high ||| value low < 2^k := by
  have hvalue := value_lt low
  by_cases hk : k < 8
  · rw [if_pos hk] at hlow
    have hle : 2^k ≤ 2^8 := Nat.pow_le_pow_right (by decide) (Nat.le_of_lt hk)
    have hzero : high = 0 := by omega
    rw [hlow] at hvalue
    rw [hzero,Nat.zero_or,show k-8 = 0 by omega,bitsOf,List.nil_append]
    exact ⟨by rw [← hlow,bitsOf_value],hvalue⟩
  · rw [if_neg hk] at hlow
    rw [hlow] at hvalue
    have hshift : high = (high >>> 8) <<< 8 := by
      rw [Nat.shiftRight_eq_div_pow,Nat.shiftLeft_eq]
      omega
    have hor : high ||| value low = high+value low := by
      rw [hshift,Nat.shiftLeft_add_eq_or_of_lt hvalue]
    refine ⟨?_,Nat.or_lt_two_pow hlt (Nat.lt_of_lt_of_le hvalue
      (Nat.pow_le_pow_right (by decide) (by omega)))⟩
    have hhigh : (high+value low) >>> 8 = high >>> 8 := by
      rw [Nat.shiftRight_eq_div_pow,Nat.shiftRight_eq_div_pow]
      omega
    have hlower : bitsOf 8 (high+value low) = low := by
      rw [← bitsOf_mod 8 (high+value low) (Nat.le_refl 8),
        show (high+value low)%2^8 = value low by omega,← hlow,bitsOf_value]
    rw [hor]
    conv => lhs; rw [show k = k-8+8 by omega]
    rw [bitsOf_add,hhigh,hlower]

theorem restOf_open (hne : hsd.state ≠ .yieldBackref) (bits : List Bool) :
    restOf hsd text bits =
      decode hsd.windowSz2 hsd.lookaheadSz2 text (takenBits hsd ++ hsd.pending ++ bits) :=
  if_neg hne

theorem restOf_backref (h : hsd.state = .yieldBackref) (bits : List Bool) :
    restOf hsd text bits = copy text hsd.outputIndex hsd.outputCount ++
      decode hsd.windowSz2 hsd.lookaheadSz2
        ((copy text hsd.outputIndex hsd.outputCount).reverse ++ text) (hsd.pending ++ bits) :=
  if_pos h

theorem rank_le (state : HsdState) : state.rank ≤ 2 := by
  cases state <;> decide

theorem Inv.fetched (h : Inv w l hsd text) {old : HsdState} {taken : List Bool}
    (hstate : hsd.state = old) (htaken : takenBits hsd = taken) {s' : BitInput} {low : List Bool}
    (hlow : 0 < low.length) (hpending : hsd.pending = low ++ s'.pending hsd.buffers)
    (hv : s'.Valid) (hsize : s'.inputSize ≤ hsd.inputBufferSize) (hacc : s'.bitAccumulator = 0)
    (index count : ℕ) (state : HsdState) (hold : old ≠ .yieldBackref)
    (hnew : state ≠ .yieldBackref) (hne : state ≠ old)
    (hshaped : Shaped { hsd with
      toBitInput := s', outputIndex := index, outputCount := count, state := state })
    (htaken' : takenBits { hsd with
        toBitInput := s', outputIndex := index, outputCount := count, state := state } =
      taken ++ low)
    {size : ℕ} {out : List UInt8} (hroom : out.length ≤ size) :
    Advances w l size hsd text out
      ({ hsd with toBitInput := s', outputIndex := index, outputCount := count },out,state) [] := by
  refine Inv.goes (h.take hv hsize hacc index count state hshaped) hroom (hstate ▸ hne) ?_ ?_
  · intro bits
    rw [restOf_open (hstate ▸ hold),restOf_open hnew,htaken',htaken,hpending,
      ← List.append_assoc taken]
    rfl
  · have hfewer : hsd.pending.length = low.length+(s'.pending hsd.buffers).length := by
      rw [hpending,List.length_append]
    have hrank := rank_le state
    show 3*(s'.pending hsd.buffers).length+state.rank < 3*hsd.pending.length+hsd.state.rank
    omega

variable {size : ℕ} {out : List UInt8}

theorem advances_inputAvailable (h : Inv w l hsd text) (hstate : hsd.state = .inputAvailable)
    (hroom : out.length ≤ size) :
    Advances w l size hsd text out (silent out (stInputAvailable hsd)) [] := by
  have hshaped := h.shaped
  simp only [Shaped,hstate] at hshaped
  have hmany := pending_ge hsd.buffers h.valid hshaped
  rcases h.getBits (by decide : 0 < 1) (by decide) with
    ⟨hfew,-,-⟩ | ⟨s',low,hlow,hpending,hget,hv,hsize,hacc⟩
  · rw [Decoder.pending] at hfew
    omega
  · have htaken : takenBits hsd = [] := by simp only [takenBits,hstate]
    obtain ⟨b,rfl⟩ := List.length_eq_one_iff.mp hlow
    have hfetch := h.fetched hstate htaken (Nat.lt_of_lt_of_eq Nat.one_pos hlow.symm) hpending hv
      hsize hacc
    simp only [stInputAvailable,hget]
    cases b with
    | true =>
      rw [if_pos (by decide)]
      exact hfetch hsd.outputIndex hsd.outputCount .yieldLiteral (by decide) (by decide) (by decide)
        trivial rfl hroom
    | false =>
      rw [if_neg (by decide)]
      by_cases hw : 8 < hsd.windowSz2
      · simp only [hw,if_true]
        exact hfetch hsd.outputIndex hsd.outputCount .backrefIndexMsb (by decide) (by decide)
          (by decide) hw rfl hroom
      · have hnone : hsd.windowSz2-8 = 0 := by omega
        simp only [hw,if_false]
        exact hfetch 0 hsd.outputCount .backrefIndexLsb (by decide) (by decide) (by decide)
          ⟨rfl,Nat.two_pow_pos _⟩ (by simp only [takenBits,hnone]; rfl) hroom

theorem advances_indexMsb (hs : Sized w l) (h : Inv w l hsd text)
    (hstate : hsd.state = .backrefIndexMsb) (hroom : out.length ≤ size) :
    Advances w l size hsd text out (silent out (stBackrefIndexMsb hsd)) [] := by
  have hshaped := h.shaped
  simp only [Shaped,hstate] at hshaped
  have hw := h.windowed.windowSz2
  have hw15 := hs.le_fifteen
  have htaken : takenBits hsd = [false] := by simp only [takenBits,hstate]
  rcases h.getBits (by omega : 0 < hsd.windowSz2-8) (by omega) with
    ⟨hfew,hzero,hget⟩ | ⟨s',low,hlow,hpending,hget,hv,hsize,hacc⟩
  · have hstays := h.stays hstate hroom hzero (by
      rw [restOf_open (by rw [hstate]; decide),htaken,List.append_nil,List.singleton_append]
      exact decode_open_backref text (by omega))
    rw [stBackrefIndexMsb,hget]
    exact hstays
  · have hfetch := h.fetched hstate htaken (by omega : 0 < low.length) hpending hv hsize hacc
    have hvalue := value_lt low
    have hlt : value low <<< 8 < 2^hsd.windowSz2 := by
      rw [Nat.shiftLeft_eq,show hsd.windowSz2 = low.length+8 by omega,Nat.pow_add]
      exact Nat.mul_lt_mul_of_pos_right hvalue (by decide)
    rw [stBackrefIndexMsb,hget]
    refine hfetch (value low <<< 8) hsd.outputCount .backrefIndexLsb (by decide) (by decide)
      (by decide) ⟨?_,hlt⟩ ?_ hroom
    · rw [Nat.shiftLeft_eq]
      exact Nat.mul_mod_left _ _
    · show false::bitsOf (hsd.windowSz2-8) ((value low <<< 8) >>> 8) = [false] ++ low
      rw [Nat.shiftLeft_shiftRight,← hlow,bitsOf_value,List.singleton_append]

theorem advances_indexLsb (hs : Sized w l) (h : Inv w l hsd text)
    (hstate : hsd.state = .backrefIndexLsb) (hroom : out.length ≤ size) :
    Advances w l size hsd text out (silent out (stBackrefIndexLsb hsd)) [] := by
  have hshaped := h.shaped
  simp only [Shaped,hstate] at hshaped
  have hw := h.windowed.windowSz2
  have hl := h.lookaheadSz2
  have hw4 := hs.four_le
  have htaken : takenBits hsd = false::bitsOf (hsd.windowSz2-8) (hsd.outputIndex >>> 8) := by
    simp only [takenBits,hstate]
  rcases h.getBits (by split <;> omega : 0 < if hsd.windowSz2 < 8 then hsd.windowSz2 else 8)
    (by split <;> omega) with ⟨hfew,hzero,hget⟩ | ⟨s',low,hlow,hpending,hget,hv,hsize,hacc⟩
  · have hstays := h.stays hstate hroom hzero (by
      rw [restOf_open (by rw [hstate]; decide),htaken,List.append_nil,List.cons_append]
      refine decode_open_backref text ?_
      rw [List.length_append,bitsOf_length]
      have hl2 := hs.two_le
      split at hfew <;> omega)
    rw [stBackrefIndexLsb,hget]
    exact hstays
  · obtain ⟨hfield,hlt⟩ := field_bits hlow hshaped.1 hshaped.2
    have hpos : 0 < low.length := by rw [hlow]; split <;> omega
    have hfetch := h.fetched hstate htaken hpos hpending hv hsize hacc
    rw [stBackrefIndexLsb,hget]
    by_cases hl8 : 8 < hsd.lookaheadSz2
    · simp only [hl8,if_true]
      refine hfetch ((hsd.outputIndex ||| value low)+1) 0 .backrefCountMsb (by decide) (by decide)
        (by decide) ⟨hl8,Nat.succ_pos _,hlt⟩ ?_ hroom
      show false::bitsOf hsd.windowSz2 (hsd.outputIndex ||| value low) = _
      rw [hfield,List.cons_append]
    · have hnone : hsd.lookaheadSz2-8 = 0 := by omega
      simp only [hl8,if_false]
      refine hfetch ((hsd.outputIndex ||| value low)+1) 0 .backrefCountLsb (by decide) (by decide)
        (by decide) ⟨⟨rfl,Nat.two_pow_pos _⟩,Nat.succ_pos _,hlt⟩ ?_ hroom
      show false::(bitsOf hsd.windowSz2 (hsd.outputIndex ||| value low) ++
        bitsOf (hsd.lookaheadSz2-8) (0 >>> 8)) = _
      rw [hfield,hnone,bitsOf,List.append_nil,List.cons_append]

theorem advances_countMsb (hs : Sized w l) (h : Inv w l hsd text)
    (hstate : hsd.state = .backrefCountMsb) (hroom : out.length ≤ size) :
    Advances w l size hsd text out (silent out (stBackrefCountMsb hsd)) [] := by
  have hshaped := h.shaped
  simp only [Shaped,hstate] at hshaped
  have hl := h.lookaheadSz2
  have hw := h.windowed.windowSz2
  have hw15 := hs.le_fifteen
  have hlw := hs.le
  have htaken : takenBits hsd = false::bitsOf hsd.windowSz2 (hsd.outputIndex-1) := by
    simp only [takenBits,hstate]
  rcases h.getBits (by omega : 0 < hsd.lookaheadSz2-8) (by omega) with
    ⟨hfew,hzero,hget⟩ | ⟨s',low,hlow,hpending,hget,hv,hsize,hacc⟩
  · have hstays := h.stays hstate hroom hzero (by
      rw [restOf_open (by rw [hstate]; decide),htaken,List.append_nil,List.cons_append]
      refine decode_open_backref text ?_
      rw [List.length_append,bitsOf_length]
      omega)
    rw [stBackrefCountMsb,hget]
    exact hstays
  · have hfetch := h.fetched hstate htaken (by omega : 0 < low.length) hpending hv hsize hacc
    have hvalue := value_lt low
    have hlt : value low <<< 8 < 2^hsd.lookaheadSz2 := by
      rw [Nat.shiftLeft_eq,show hsd.lookaheadSz2 = low.length+8 by omega,Nat.pow_add]
      exact Nat.mul_lt_mul_of_pos_right hvalue (by decide)
    rw [stBackrefCountMsb,hget]
    refine hfetch hsd.outputIndex (value low <<< 8) .backrefCountLsb (by decide) (by decide)
      (by decide) ⟨⟨?_,hlt⟩,hshaped.2⟩ ?_ hroom
    · rw [Nat.shiftLeft_eq]
      exact Nat.mul_mod_left _ _
    · show false::(bitsOf hsd.windowSz2 (hsd.outputIndex-1) ++
        bitsOf (hsd.lookaheadSz2-8) ((value low <<< 8) >>> 8)) = _
      rw [Nat.shiftLeft_shiftRight,← hlow,bitsOf_value,List.cons_append]

theorem advances_countLsb (hs : Sized w l) (h : Inv w l hsd text)
    (hstate : hsd.state = .backrefCountLsb) (hroom : out.length ≤ size) :
    Advances w l size hsd text out (silent out (stBackrefCountLsb hsd)) [] := by
  have hshaped := h.shaped
  simp only [Shaped,hstate] at hshaped
  have hl := h.lookaheadSz2
  have hw := h.windowed.windowSz2
  have hl2 := hs.two_le
  have htaken : takenBits hsd = false::(bitsOf hsd.windowSz2 (hsd.outputIndex-1) ++
      bitsOf (hsd.lookaheadSz2-8) (hsd.outputCount >>> 8)) := by
    simp only [takenBits,hstate]
  rcases h.getBits
    (by split <;> omega : 0 < if hsd.lookaheadSz2 < 8 then hsd.lookaheadSz2 else 8)
    (by split <;> omega) with ⟨hfew,hzero,hget⟩ | ⟨s',low,hlow,hpending,hget,hv,hsize,hacc⟩
  · have hstays := h.stays hstate hroom hzero (by
      rw [restOf_open (by rw [hstate]; decide),htaken,List.append_nil,List.cons_append]
      refine decode_open_backref text ?_
      rw [List.length_append,List.length_append,bitsOf_length,bitsOf_length]
      split at hfew <;> omega)
    rw [stBackrefCountLsb,hget]
    exact hstays
  · obtain ⟨hfield,hlt⟩ := field_bits hlow hshaped.1.1 hshaped.1.2
    have hpos : 0 < low.length := by rw [hlow]; split <;> omega
    have hinv := h.take hv hsize hacc hsd.outputIndex ((hsd.outputCount ||| value low)+1)
      .yieldBackref ⟨Nat.succ_pos _,hshaped.2⟩
    rw [stBackrefCountLsb,hget]
    have hne : HsdState.yieldBackref ≠ hsd.state := by rw [hstate]; decide
    refine Inv.goes hinv hroom hne ?_ ?_
    · -- now the token is complete
      intro bits
      have hbits : takenBits hsd ++ hsd.pending ++ bits =
          false::(bitsOf hsd.windowSz2 (hsd.outputIndex-1) ++
            bitsOf hsd.lookaheadSz2 (hsd.outputCount ||| value low) ++
            (s'.pending hsd.buffers ++ bits)) := by
        rw [htaken,hpending,hfield]
        simp only [List.append_assoc,List.cons_append]
      have hindex : value (bitsOf hsd.windowSz2 (hsd.outputIndex-1))+1 = hsd.outputIndex := by
        have hbound := hshaped.2
        rw [value_bitsOf,Nat.mod_eq_of_lt (by omega)]
        omega
      rw [restOf_open (by rw [hstate]; decide),hbits,
        decode_backref text (bitsOf_length _ _) (bitsOf_length _ _),hindex,value_bitsOf,
        Nat.mod_eq_of_lt hlt]
      rfl
    · have hfewer : hsd.pending.length = low.length+(s'.pending hsd.buffers).length := by
        rw [hpending,List.length_append]
      show 3*(s'.pending hsd.buffers).length+2 < 3*hsd.pending.length+hsd.state.rank
      omega

theorem Inv.full (h : Inv w l hsd text) {state : HsdState} (hstate : hsd.state = state)
    (hfull : out.length = size) : Advances w l size hsd text out (hsd,out,state) [] := by
  subst hstate
  exact
    { out := (List.append_nil out).symm
      inv := h
      rest := fun _ => rfl
      room := Nat.le_of_eq hfull
      stuck := fun _ => Or.inl hfull
      closer := fun hne => absurd rfl hne }

theorem advances_yieldLiteral (h : Inv w l hsd text) (hstate : hsd.state = .yieldLiteral)
    (hroom : out.length ≤ size) :
    ∃ new, Advances w l size hsd text out (stYieldLiteral size hsd out) new := by
  rw [stYieldLiteral]
  split_ifs with hless
  · have htaken : takenBits hsd = [true] := by simp only [takenBits,hstate]
    rcases h.getBits (by decide : 0 < 8) (by decide) with
      ⟨hfew,hzero,hget⟩ | ⟨s',low,hlow,hpending,hget,hv,hsize,hacc⟩
    · refine ⟨[],?_⟩
      rw [hget]
      refine h.stays hstate hroom hzero ?_
      rw [restOf_open (by rw [hstate]; decide),htaken,List.append_nil,List.singleton_append]
      exact decode_open_literal text hfew
    · rw [hget]
      have hbyte : UInt8.ofNat (value low &&& 0xff) = UInt8.ofNat (value low) := by
        have hlt : value low < 256 := by
          have hvalue := value_lt low
          rwa [hlow] at hvalue
        rw [show value low &&& 0xff = value low%256 from Nat.and_two_pow_sub_one_eq_mod _ 8,
          Nat.mod_eq_of_lt hlt]
      have hpend : (putWindow { hsd with toBitInput := s' } (UInt8.ofNat (value low))).pending =
          s'.pending hsd.buffers := pending_putWindow hv hsize _
      have hwin : Windowed w { hsd with toBitInput := s' } text :=
        h.windowed.congr rfl rfl rfl fun _ => rfl
      have hput := hwin.put (UInt8.ofNat (value low))
      have hfewer : hsd.pending.length = 8+(s'.pending hsd.buffers).length := by
        rw [hpending,List.length_append,hlow]
      refine ⟨[UInt8.ofNat (value low)],?_⟩
      simp only [hbyte]
      refine ⟨rfl,⟨hput.congr rfl rfl rfl fun _ => rfl,h.lookaheadSz2,hv,hsize,h.buffer_pos,hacc,
        trivial⟩,
        ?_,by simpa using Nat.succ_le_of_lt hless,fun heq => ?_,fun _ => ?_⟩
      · intro bits
        have hpend' : (next (putWindow { hsd with toBitInput := s' } (UInt8.ofNat (value low)),
            out ++ [UInt8.ofNat (value low)],HsdState.checkForMoreInput)).pending =
            s'.pending hsd.buffers := hpend
        rw [restOf_open (by rw [hstate]; decide),restOf_open (by intro heq; cases heq),htaken,
          hpending,hpend',List.append_assoc,List.append_assoc,List.singleton_append,decode_literal text hlow]
        rfl
      · rw [hstate] at heq
        cases heq
      · show 3*(putWindow { hsd with toBitInput := s' } (UInt8.ofNat (value low))).pending.length+1 <
          3*hsd.pending.length+hsd.state.rank
        rw [hpend]
        omega
  · exact ⟨[],h.full hstate (by omega)⟩

theorem copyLoop_spec (hw : Windowed w hsd text) (hv : hsd.toBitInput.Valid)
    (hle : hsd.inputSize ≤ hsd.inputBufferSize) (hpos : 0 < hsd.outputIndex)
    (hindex : hsd.outputIndex ≤ 2^w) (n : ℕ) (out : List UInt8) :
    ∃ buffers headIndex,
      copyLoop n hsd out = ({ hsd with buffers := buffers, headIndex := headIndex },
        out ++ copy text hsd.outputIndex n) ∧
      Windowed w { hsd with buffers := buffers, headIndex := headIndex }
        ((copy text hsd.outputIndex n).reverse ++ text) ∧
      Decoder.pending { hsd with buffers := buffers, headIndex := headIndex } = hsd.pending := by
  induction n generalizing hsd text out with
  | zero => exact ⟨hsd.buffers,hsd.headIndex,by simp [copyLoop,copy],hw,rfl⟩
  | succ n ih =>
    have hback := hw.back hpos hindex
    obtain ⟨buffers,headIndex,hloop,hwin,hpend⟩ :=
      ih (hw.put (text.getD (hsd.outputIndex-1) 0)) hv hle hpos hindex
        (out ++ [text.getD (hsd.outputIndex-1) 0])
    refine ⟨buffers,headIndex,?_,?_,hpend.trans (pending_putWindow hv hle _)⟩
    · rw [copyLoop,hback]
      refine hloop.trans ?_
      rw [copy,List.append_assoc,List.singleton_append]
      rfl
    · rw [copy,List.reverse_cons,List.append_assoc,List.singleton_append]
      exact hwin

theorem advances_yieldBackref (h : Inv w l hsd text) (hstate : hsd.state = .yieldBackref)
    (hroom : out.length ≤ size) :
    ∃ new, Advances w l size hsd text out (stYieldBackref size hsd out) new := by
  have hshaped := h.shaped
  simp only [Shaped,hstate] at hshaped
  obtain ⟨hcount,hpos,hindex⟩ := hshaped
  rw [stYieldBackref]
  by_cases hless : 0 < size-out.length
  · rw [if_pos hless]
    generalize hn : (if hsd.outputCount < size-out.length then hsd.outputCount
      else size-out.length) = n
    have hnle : n ≤ hsd.outputCount ∧ n ≤ size-out.length ∧
        (n = hsd.outputCount ∨ n = size-out.length) := by
      rw [← hn]
      split_ifs <;> omega
    have hw := h.windowed
    obtain ⟨buffers,headIndex,hloop,hwin,hpend⟩ :=
      copyLoop_spec hw h.valid h.inputSize_le hpos (hw.windowSz2 ▸ hindex) n out
    simp only [hloop]
    have hlen : (out ++ copy text hsd.outputIndex n).length = out.length+n := by
      rw [List.length_append,copy_length]
    have hsplit : copy text hsd.outputIndex hsd.outputCount =
        copy text hsd.outputIndex n ++
          copy ((copy text hsd.outputIndex n).reverse ++ text) hsd.outputIndex
            (hsd.outputCount-n) := by
      rw [← copy_add,Nat.add_sub_cancel' hnle.1]
    refine ⟨copy text hsd.outputIndex n,?_⟩
    by_cases hdone : hsd.outputCount-n = 0
    · simp only [hdone,if_true]
      refine ⟨rfl,⟨hwin.congr rfl rfl rfl fun _ => rfl,h.lookaheadSz2,h.valid,h.inputSize_le,
        h.buffer_pos,h.accumulator,trivial⟩,?_,by simp only [hlen]; omega,fun heq => ?_,fun _ => ?_⟩
      · intro bits
        rw [restOf_backref hstate,restOf_open (by intro heq; cases heq),hsplit,hdone,copy,
          List.append_nil]
        exact congrArg (fun pending => copy text hsd.outputIndex n ++
          decode hsd.windowSz2 hsd.lookaheadSz2 _ (pending ++ bits)) hpend.symm
      · rw [hstate] at heq
        cases heq
      · show 3*(Decoder.pending { hsd with buffers := buffers, headIndex := headIndex }).length+1 <
          3*hsd.pending.length+hsd.state.rank
        rw [hpend,hstate]
        exact Nat.lt_succ_self _
    · simp only [hdone,if_false]
      refine ⟨rfl,⟨hwin.congr rfl rfl rfl fun _ => rfl,h.lookaheadSz2,h.valid,h.inputSize_le,
        h.buffer_pos,h.accumulator,Nat.pos_of_ne_zero hdone,hpos,hindex⟩,?_,by simp only [hlen]; omega,
        fun _ => Or.inl (by simp only [hlen]; omega),fun hne => absurd hstate.symm hne⟩
      intro bits
      rw [restOf_backref hstate,restOf_backref (by rfl),hsplit,List.append_assoc,List.reverse_append,
        List.append_assoc]
      exact congrArg (fun pending => copy text hsd.outputIndex n ++ (_ ++
        decode hsd.windowSz2 hsd.lookaheadSz2 _ (pending ++ bits))) hpend.symm
  · rw [if_neg hless]
    exact ⟨[],h.full hstate (by omega)⟩

theorem advances_checkForInput (h : Inv w l hsd text) (hstate : hsd.state = .checkForMoreInput)
    (hroom : out.length ≤ size) :
    Advances w l size hsd text out (silent out (hsd,stCheckForInput hsd)) [] := by
  have htaken : takenBits hsd = [] := by simp only [takenBits,hstate]
  have hgoes : ∀ state : HsdState, state ≠ .checkForMoreInput → state ≠ .yieldBackref →
      state.rank = 0 → Shaped { hsd with state := state } →
      takenBits { hsd with state := state } = [] →
      Advances w l size hsd text out (hsd,out,state) [] := by
    intro state hne hopen hrank hshaped htaken'
    refine Inv.goes ⟨h.windowed.congr rfl rfl rfl fun _ => rfl,h.lookaheadSz2,h.valid,
      h.inputSize_le,h.buffer_pos,h.accumulator,hshaped⟩ hroom (hstate ▸ hne) ?_ ?_
    · intro bits
      rw [restOf_open (by rw [hstate]; decide),restOf_open hopen,htaken,htaken']
      rfl
    · show 3*hsd.pending.length+state.rank < 3*hsd.pending.length+hsd.state.rank
      rw [hstate,hrank]
      exact Nat.lt_succ_self _
  rw [stCheckForInput]
  split_ifs with hinput
  · exact hgoes .empty (by decide) (by decide) rfl hinput rfl
  · exact hgoes .inputAvailable (by decide) (by decide) rfl hinput rfl

theorem handle_advances (hs : Sized w l) (h : Inv w l hsd text) (hstate : hsd.state ≠ .empty)
    (hroom : out.length ≤ size) :
    ∃ new, Advances w l size hsd text out (handle size hsd out) new := by
  cases hcase : hsd.state <;> simp only [handle,hcase]
  case empty => exact absurd hcase hstate
  case inputAvailable => exact ⟨[],advances_inputAvailable h hcase hroom⟩
  case yieldLiteral => exact advances_yieldLiteral h hcase hroom
  case backrefIndexMsb => exact ⟨[],advances_indexMsb hs h hcase hroom⟩
  case backrefIndexLsb => exact ⟨[],advances_indexLsb hs h hcase hroom⟩
  case backrefCountMsb => exact ⟨[],advances_countMsb hs h hcase hroom⟩
  case backrefCountLsb => exact ⟨[],advances_countLsb hs h hcase hroom⟩
  case yieldBackref => exact advances_yieldBackref h hcase hroom
  case checkForMoreInput => exact ⟨[],advances_checkForInput h hcase hroom⟩

/-- A poll comes to an end. It gives out the beginning of the rest, and with room left all of it,
unless a reference is so short that it hides in the bits behind the last byte. -/
theorem pollLoop_spec (hs : Sized w l) (h : Inv w l hsd text) (hroom : out.length ≤ size)
    {fuel : ℕ} (hfuel : measure hsd < fuel) :
    ∃ hsd' new res, pollLoop size fuel hsd out = some (hsd',out ++ new,res) ∧
      Inv w l hsd' (new.reverse ++ text) ∧
      (∀ bits, restOf hsd text bits = new ++ restOf hsd' (new.reverse ++ text) bits) ∧
      (out ++ new).length ≤ size ∧
      ((out ++ new).length < size → hsd'.inputSize = 0 ∧
        (7 ≤ w+l → restOf hsd' (new.reverse ++ text) [] = [])) := by
  induction fuel generalizing hsd text out with
  | zero => exact absurd hfuel (Nat.not_lt_zero _)
  | succ fuel ih =>
    rw [pollLoop]
    by_cases hempty : hsd.state = .empty
    · rw [if_pos hempty]
      refine ⟨hsd,[],.empty,by rw [List.append_nil],h,fun _ => rfl,by rwa [List.append_nil],
        fun _ => ?_⟩
      have hshaped := h.shaped
      simp only [Shaped,hempty] at hshaped
      refine ⟨hshaped,fun hwl => ?_⟩
      have htaken : takenBits hsd = [] := by simp only [takenBits,hempty]
      rw [restOf_open (by rw [hempty]; decide),htaken,List.nil_append,List.append_nil]
      refine decode_few _ (pending_lt hsd.buffers h.valid hshaped) ?_
      rwa [h.windowed.windowSz2,h.lookaheadSz2]
    · rw [if_neg hempty]
      obtain ⟨new,hout,hinv,hrest,hroom',hstuck,hcloser⟩ := handle_advances hs h hempty hroom
      by_cases hstays : (handle size hsd out).2.2 = hsd.state
      · simp only [hstays,if_true]
        have hnext : next (handle size hsd out) = { (handle size hsd out).1 with state := hsd.state } := by
          rw [next,hstays]
        rw [hnext] at hinv hrest hstuck
        refine ⟨_,new,_,by rw [hout],hinv,hrest,by rwa [← hout],fun hless => ?_⟩
        rw [← hout] at hless
        exact ((hstuck hstays).resolve_left (Nat.ne_of_lt hless)).imp id fun hopen _ => hopen
      · simp only [hstays,if_false]
        obtain ⟨hsd',new',res,hloop,hinv',hrest',hroom'',hall⟩ :=
          ih hinv hroom' (Nat.lt_of_lt_of_le (hcloser hstays) (Nat.le_of_lt_succ hfuel))
        refine ⟨hsd',new ++ new',res,hloop.trans (by rw [hout,List.append_assoc]),?_,?_,?_,?_⟩
        · rwa [List.reverse_append,List.append_assoc]
        · intro bits
          rw [hrest,hrest',List.reverse_append,List.append_assoc,List.append_assoc]
        · rwa [← List.append_assoc,← hout]
        · rw [← List.append_assoc,← hout,List.reverse_append,List.append_assoc]
          exact hall

theorem heatshrinkDecoderPoll_spec (hs : Sized w l) (h : Inv w l hsd text) (size : ℕ) :
    ∃ hsd' new res, heatshrinkDecoderPoll hsd size = some (hsd',new,res) ∧
      Inv w l hsd' (new.reverse ++ text) ∧
      (∀ bits, restOf hsd text bits = new ++ restOf hsd' (new.reverse ++ text) bits) ∧
      new.length ≤ size ∧
      (new.length < size → hsd'.inputSize = 0 ∧
        (7 ≤ w+l → restOf hsd' (new.reverse ++ text) [] = [])) := by
  have hfuel : measure hsd < pollBound hsd := by
    have hrank := rank_le hsd.state
    rw [measure,pollBound]
    omega
  exact pollLoop_spec hs h (Nat.zero_le _) hfuel

def stored (hsd : Decoder) (bytes : List UInt8) (state : HsdState) : Decoder :=
  { hsd with
    buffers := store hsd.buffers hsd.inputSize bytes
    inputSize := hsd.inputSize+bytes.length
    state := state }

theorem stored_pending (hv : hsd.toBitInput.Valid) (bytes : List UInt8) (state : HsdState) :
    (stored hsd bytes state).pending = hsd.pending ++ byteBits bytes := by
  have hinput := hv.input
  have hload : load (store hsd.buffers hsd.inputSize bytes) hsd.inputIndex
      (hsd.inputSize+bytes.length-hsd.inputIndex) =
      load hsd.buffers hsd.inputIndex (hsd.inputSize-hsd.inputIndex) ++ bytes := by
    rw [show hsd.inputSize+bytes.length-hsd.inputIndex =
      hsd.inputSize-hsd.inputIndex+bytes.length by omega,load_add,
      show hsd.inputIndex+(hsd.inputSize-hsd.inputIndex) = hsd.inputSize by omega,load_store,
      load_store_other (Or.inl (by omega))]
  rw [Decoder.pending,Decoder.pending,BitInput.pending,BitInput.pending,List.append_assoc,
    ← byteBits_append,← hload]
  rfl

theorem Inv.stored (h : Inv w l hsd text) {bytes : List UInt8} (hpos : 0 < bytes.length)
    (hfits : hsd.inputSize+bytes.length ≤ hsd.inputBufferSize) {state : HsdState}
    (hshaped : Shaped (stored hsd bytes state)) : Inv w l (stored hsd bytes state) text := by
  have hinput := h.valid.input
  exact
    { windowed := h.windowed.congr rfl rfl rfl fun p => store_out (Or.inr (by omega))
      lookaheadSz2 := h.lookaheadSz2
      valid := ⟨Or.inl (show hsd.inputIndex < hsd.inputSize+bytes.length by omega),h.valid.bits⟩
      inputSize_le := hfits
      buffer_pos := h.buffer_pos
      accumulator := h.accumulator
      shaped := hshaped }

theorem heatshrinkDecoderSink_spec (h : Inv w l hsd text) {inBuf : List UInt8}
    (hne : inBuf ≠ []) :
    Inv w l (heatshrinkDecoderSink hsd inBuf).1 text ∧
      (heatshrinkDecoderSink hsd inBuf).2 =
        min (hsd.inputBufferSize-hsd.inputSize) inBuf.length ∧
      ∀ bits, restOf hsd text
          (byteBits (inBuf.take (heatshrinkDecoderSink hsd inBuf).2) ++ bits) =
        restOf (heatshrinkDecoderSink hsd inBuf).1 text bits := by
  have hpos : 0 < inBuf.length := List.length_pos_iff.mpr hne
  by_cases hfull : hsd.inputBufferSize-hsd.inputSize = 0
  · rw [heatshrinkDecoderSink,if_pos hfull,hfull,Nat.zero_min]
    exact ⟨h,rfl,fun _ => rfl⟩
  · generalize hn : min (hsd.inputBufferSize-hsd.inputSize) inBuf.length = n
    have hlen : (inBuf.take n).length = n := List.length_take_of_le (by omega)
    have hinput := h.valid.input
    have hshaped := h.shaped
    have hsink : heatshrinkDecoderSink hsd inBuf =
        (HeatshrinkDecoder.stored hsd (inBuf.take n)
          (if hsd.state = .empty then .inputAvailable else hsd.state),n) := by
      simp only [heatshrinkDecoderSink,if_neg hfull,hn,HeatshrinkDecoder.stored,hlen]
      split_ifs with hempty
      · have hindex : hsd.inputIndex = 0 := by
          simp only [Shaped,hempty] at hshaped
          omega
        simp only [hindex]
      · rfl
    have hinv : Inv w l (HeatshrinkDecoder.stored hsd (inBuf.take n)
        (if hsd.state = .empty then .inputAvailable else hsd.state)) text := by
      refine h.stored (by omega) (by omega) ?_
      split_ifs with hempty
      · exact (by omega : hsd.inputSize+(inBuf.take n).length ≠ 0)
      · cases hcase : hsd.state <;> simp only [Shaped,hcase] at hshaped ⊢
        case empty => exact absurd hcase hempty
        case inputAvailable => exact (by omega : hsd.inputSize+(inBuf.take n).length ≠ 0)
        all_goals exact hshaped
    rw [hsink]
    refine ⟨hinv,rfl,fun bits => ?_⟩
    have hpend := stored_pending h.valid (inBuf.take n)
      (if hsd.state = .empty then .inputAvailable else hsd.state)
    by_cases hback : hsd.state = .yieldBackref
    · have hback' : (HeatshrinkDecoder.stored hsd (inBuf.take n)
          (if hsd.state = .empty then .inputAvailable else hsd.state)).state = .yieldBackref := by
        rw [hback]
        rfl
      rw [restOf_backref hback,restOf_backref hback',hpend,List.append_assoc hsd.pending]
      rfl
    · have hback' : (HeatshrinkDecoder.stored hsd (inBuf.take n)
          (if hsd.state = .empty then .inputAvailable else hsd.state)).state ≠ .yieldBackref := by
        show (if hsd.state = .empty then .inputAvailable else hsd.state) ≠ HsdState.yieldBackref
        split_ifs
        · decide
        · exact hback
      have htaken : takenBits (HeatshrinkDecoder.stored hsd (inBuf.take n)
          (if hsd.state = .empty then .inputAvailable else hsd.state)) = takenBits hsd := by
        cases hcase : hsd.state <;> simp only [takenBits,HeatshrinkDecoder.stored,hcase] <;> rfl
      rw [restOf_open hback,restOf_open hback',hpend,htaken]
      simp only [List.append_assoc]
      rfl

inductive Op
  | sink (inBuf : List UInt8)
  | poll (outBufSize : ℕ)

/-- A decoder with the bytes it has taken and those it has given out. -/
structure Run where
  hsd : Decoder
  taken : List UInt8
  given : List UInt8

def Run.step (s : Run) : Op → Option Run
  | .sink inBuf =>
    let r := heatshrinkDecoderSink s.hsd inBuf
    some ⟨r.1,s.taken ++ inBuf.take r.2,s.given⟩
  | .poll outBufSize => do
    let r ← heatshrinkDecoderPoll s.hsd outBufSize
    some ⟨r.1,s.taken,s.given ++ r.2.1⟩

def Run.steps (s : Run) (ops : List Op) : Option Run := ops.foldlM Run.step s

/-- What was given out and the rest are what was taken, decoded. -/
structure Run.Good (w l : ℕ) (s : Run) : Prop where
  inv : Inv w l s.hsd s.given.reverse
  decoded : ∀ bits, decode w l [] (byteBits s.taken ++ bits) =
    s.given ++ restOf s.hsd s.given.reverse bits

theorem alloc_good {inputBufferSize : ℕ}
    (h : heatshrinkDecoderAlloc inputBufferSize w l = some hsd) :
    Sized w l ∧ Run.Good w l ⟨hsd,[],[]⟩ := by
  rw [heatshrinkDecoderAlloc] at h
  split_ifs at h with hbad
  obtain rfl := Option.some.inj h
  refine ⟨⟨by omega,by omega,by omega,by omega⟩,?_,fun _ => rfl⟩
  exact
    { windowed := ⟨rfl,by omega,fun _ _ _ _ _ => rfl⟩
      lookaheadSz2 := rfl
      valid := ⟨Or.inr ⟨rfl,rfl⟩,0,by decide,rfl⟩
      inputSize_le := Nat.zero_le _
      buffer_pos := by
        show 0 < inputBufferSize
        omega
      accumulator := rfl
      shaped := rfl }

theorem Run.Good.step {s : Run} (hs : Sized w l) (h : s.Good w l) {op : Op} (hop : op ≠ .sink []) :
    ∃ s', s.step op = some s' ∧ s'.Good w l := by
  cases op with
  | sink inBuf =>
    obtain ⟨hinv,-,hrest⟩ := heatshrinkDecoderSink_spec h.inv fun hnil => hop (hnil ▸ rfl)
    refine ⟨_,rfl,hinv,fun bits => ?_⟩
    rw [byteBits_append,List.append_assoc,h.decoded,hrest]
  | poll outBufSize =>
    obtain ⟨hsd',new,res,hpoll,hinv,hrest,-,-⟩ := heatshrinkDecoderPoll_spec hs h.inv outBufSize
    refine ⟨⟨hsd',s.taken,s.given ++ new⟩,by rw [Run.step,hpoll]; rfl,?_,fun bits => ?_⟩
    · rwa [List.reverse_append]
    · rw [h.decoded,hrest,List.reverse_append,List.append_assoc]

theorem Run.Good.steps {s : Run} (hs : Sized w l) (h : s.Good w l) {ops : List Op}
    (hops : ∀ op ∈ ops, op ≠ .sink []) : ∃ s', s.steps ops = some s' ∧ s'.Good w l := by
  induction ops generalizing s with
  | nil => exact ⟨s,rfl,h⟩
  | cons op ops ih =>
    obtain ⟨s₁,hstep,h₁⟩ := h.step hs (hops op List.mem_cons_self)
    obtain ⟨s₂,hsteps,h₂⟩ := ih h₁ fun op' hop' => hops op' (List.mem_cons_of_mem _ hop')
    refine ⟨s₂,?_,h₂⟩
    rw [Run.steps,List.foldlM_cons,hstep]
    exact hsteps

theorem Run.Good.poll {s : Run} (hs : Sized w l) (hwl : 7 ≤ w+l) (h : s.Good w l) (size : ℕ) :
    ∃ hsd' new res, heatshrinkDecoderPoll s.hsd size = some (hsd',new,res) ∧ new.length ≤ size ∧
      (new.length < size → s.given ++ new = decode w l [] (byteBits s.taken)) := by
  obtain ⟨hsd',new,res,hpoll,-,hrest,hroom,hall⟩ := heatshrinkDecoderPoll_spec hs h.inv size
  refine ⟨hsd',new,res,hpoll,hroom,fun hless => ?_⟩
  have hdecoded := h.decoded []
  rw [List.append_nil,hrest,(hall hless).2 hwl,List.append_nil] at hdecoded
  exact hdecoded.symm

/-- In whatever pieces the input comes and the output is taken, polls come to an end and what is
given out begins the decoded input; a poll that leaves room completes it. -/
theorem pieces_decoded {inputBufferSize : ℕ}
    (halloc : heatshrinkDecoderAlloc inputBufferSize w l = some hsd) (ops : List Op)
    (hops : ∀ op ∈ ops, op ≠ .sink []) :
    ∃ s, Run.steps ⟨hsd,[],[]⟩ ops = some s ∧ s.given <+: decode w l [] (byteBits s.taken) ∧
      (7 ≤ w+l → ∀ size, ∃ hsd' new res,
        heatshrinkDecoderPoll s.hsd size = some (hsd',new,res) ∧ new.length ≤ size ∧
          (new.length < size → s.given ++ new = decode w l [] (byteBits s.taken))) := by
  obtain ⟨hs,hgood⟩ := alloc_good halloc
  obtain ⟨s,hsteps,h⟩ := hgood.steps hs hops
  refine ⟨s,hsteps,⟨restOf s.hsd s.given.reverse [],?_⟩,fun hwl size => h.poll hs hwl size⟩
  have hdecoded := h.decoded []
  rw [List.append_nil] at hdecoded
  exact hdecoded.symm

/-- Nine bits of a literal, in two pieces. -/
theorem pieces_decoded_literal :
    ∃ s, Run.steps ⟨heatshrinkDecoderReset 16 11 4,[],[]⟩
        [.sink [0xb0],.poll 8,.sink [0x80],.poll 8] = some s ∧
      s.given <+: decode 11 4 [] (byteBits s.taken) := by
  have halloc : heatshrinkDecoderAlloc 16 11 4 = some (heatshrinkDecoderReset 16 11 4) := rfl
  obtain ⟨s,hsteps,hbegins,-⟩ :=
    pieces_decoded halloc [.sink [0xb0],.poll 8,.sink [0x80],.poll 8] (by simp)
  exact ⟨s,hsteps,hbegins⟩

end HeatshrinkDecoder
end MeterLogger
