import Mathlib.Logic.Function.Basic
import MeterLogger.Buffers
import MeterLogger.Lzss

/-!
# The compressor of the web pages

The state machine of `heatshrink_encoder.c` as the image tool builds it, with its search index, and
the loop of `compressHeatshrink` around it. The buffer holds the input behind as many bytes that came
before it. Whatever the search finds, the bits given out are those of tokens whose text is the input
up to the scan index; hence a compressed file is decoded to the file.
-/

namespace MeterLogger
namespace HeatshrinkEncoder

open Buffers Lzss

inductive HseState
  | notFull
  | filled
  | search
  | yieldTagBit
  | yieldLiteral
  | yieldBrIndex
  | yieldBrLength
  | saveBacklog
  | flushBits
  | done
deriving DecidableEq

/-- The fields that `push_bits` works on. -/
structure BitOutput where
  currentByte : UInt8
  bitIndex : UInt8

/-- `heatshrink_encoder`, each of its flags a field; indices are below `2^16` for windows of at most
14 bits. -/
structure Encoder extends BitOutput where
  inputSize : ℕ
  matchScanIndex : ℕ
  matchLength : ℕ
  matchPos : ℕ
  outgoingBits : ℕ
  outgoingBitsCount : ℕ
  isFinishing : Bool
  hasLiteral : Bool
  onFinalLiteral : Bool
  backlogIsPartial : Bool
  backlogIsFilled : Bool
  state : HseState
  windowSz2 : ℕ
  lookaheadSz2 : ℕ
  searchIndex : ℕ → ℤ
  buffer : Buf

/-- `heatshrink_encoder_reset` of an encoder of these sizes. -/
def heatshrinkEncoderReset (windowSz2 lookaheadSz2 : ℕ) : Encoder where
  currentByte := 0
  bitIndex := 0x80
  inputSize := 0
  matchScanIndex := 0
  matchLength := 0
  matchPos := 0
  outgoingBits := 0
  outgoingBitsCount := 0
  isFinishing := false
  hasLiteral := false
  onFinalLiteral := false
  backlogIsPartial := false
  backlogIsFilled := false
  state := .notFull
  windowSz2 := windowSz2
  lookaheadSz2 := lookaheadSz2
  searchIndex := fun _ => 0
  buffer := fun _ => 0

def getInputBufferSize (hse : Encoder) : ℕ := 1 <<< hse.windowSz2

def getInputOffset (hse : Encoder) : ℕ := getInputBufferSize hse

def getLookaheadSize (hse : Encoder) : ℕ := 1 <<< hse.lookaheadSz2

/-- `heatshrink_encoder_sink`, with the number of bytes that were taken; `none` for
`HSER_SINK_ERROR_MISUSE`. -/
def heatshrinkEncoderSink (hse : Encoder) (inBuf : List UInt8) : Option (Encoder × ℕ) :=
  if hse.isFinishing then none
  else if hse.state ≠ .notFull then none
  else
    let writeOffset := getInputOffset hse+hse.inputSize
    let rem := getInputBufferSize hse-hse.inputSize
    let cpSz := min rem inBuf.length
    let hse := { hse with
      buffer := store hse.buffer writeOffset (inBuf.take cpSz)
      inputSize := hse.inputSize+cpSz }
    some (if cpSz = rem then { hse with state := .filled } else hse,cpSz)

def heatshrinkEncoderFinish (hse : Encoder) : Encoder :=
  let hse := { hse with isFinishing := true }
  if hse.state = .notFull then { hse with state := .filled } else hse

/-- The loop of `do_indexing`: where the byte of each position stood last, or -1. -/
def indexLoop (data : Buf) (index : ℕ → ℤ) : ℕ → (ℕ → ℤ) × (UInt8 → ℤ)
  | 0 => (index,fun _ => -1)
  | i+1 =>
    let r := indexLoop data index i
    (Function.update r.1 i (r.2 (data i)),Function.update r.2 (data i) i)

def doIndexing (hse : Encoder) : Encoder :=
  let last := getInputOffset hse+hse.inputSize
  { hse with searchIndex := (indexLoop hse.buffer hse.searchIndex last).1 }

/-- How many bytes agree, from `len` on and at most `n` more. -/
def agreeLoop (buf : Buf) (pos needle : ℕ) : ℕ → ℕ → ℕ
  | 0, len => len
  | n+1, len =>
    if buf (pos+len) ≠ buf (needle+len) then len else agreeLoop buf pos needle n (len+1)

/-- The loop of `find_longest_match` with its length and place so far; `none` when the fuel is used
up. -/
def findLoop (buf : Buf) (index : ℕ → ℤ) (start needle maxlen : ℕ) :
    ℕ → ℤ → ℕ → ℕ → Option (ℕ × ℕ)
  | 0, _, _, _ => none
  | fuel+1, pos, matchMaxlen, matchIndex =>
    if pos < start then some (matchMaxlen,matchIndex)
    else
      let p := pos.toNat
      if buf (p+matchMaxlen) ≠ buf (needle+matchMaxlen) then
        findLoop buf index start needle maxlen fuel (index p) matchMaxlen matchIndex
      else
        let len := agreeLoop buf p needle (maxlen-1) 1
        if matchMaxlen < len then
          if len = maxlen then some (len,p)
          else findLoop buf index start needle maxlen fuel (index p) len p
        else findLoop buf index start needle maxlen fuel (index p) matchMaxlen matchIndex

/-- `find_longest_match`: distance and length, `some none` when there is none. -/
def findLongestMatch (hse : Encoder) (start needle maxlen : ℕ) : Option (Option (ℕ × ℕ)) := do
  let r ← findLoop hse.buffer hse.searchIndex start needle maxlen (needle+1)
    (hse.searchIndex needle) 0 0xffff
  some (if 3 ≤ r.1 then some (needle-r.2,r.1) else none)

def stStepSearch (hse : Encoder) : Option (Encoder × HseState) :=
  let windowLength := getInputBufferSize hse
  let lookaheadSz := getLookaheadSize hse
  let msi := hse.matchScanIndex
  -- the difference that the source compares with may be negative
  if hse.inputSize ≤ msi+(if hse.isFinishing then 0 else lookaheadSz) then
    some (hse,.saveBacklog)
  else
    let inputOffset := getInputOffset hse
    let last := inputOffset+msi
    let start :=
      if hse.backlogIsFilled then last-windowLength+1
      else if hse.backlogIsPartial then
        if last-windowLength+1 < lookaheadSz then lookaheadSz else last-windowLength+1
      else inputOffset
    let maxPossible :=
      if hse.inputSize-msi < lookaheadSz then hse.inputSize-msi else lookaheadSz
    (findLongestMatch hse start last maxPossible).map fun r =>
      match r with
      | none =>
        ({ hse with matchScanIndex := hse.matchScanIndex+1, hasLiteral := true, matchLength := 0 },
          .yieldTagBit)
      | some (matchPos,matchLength) =>
        ({ hse with matchPos := matchPos, matchLength := matchLength },.yieldTagBit)

/-- One bit of `push_bits`. -/
def pushBit (s : BitOutput) (bit : Bool) (out : List UInt8) : BitOutput × List UInt8 :=
  let currentByte := if bit then s.currentByte ||| s.bitIndex else s.currentByte
  let bitIndex := s.bitIndex >>> 1
  if bitIndex = 0 then (⟨0,0x80⟩,out ++ [currentByte]) else (⟨currentByte,bitIndex⟩,out)

def pushBitsLoop (bits : UInt8) : ℕ → BitOutput → List UInt8 → BitOutput × List UInt8
  | 0, s, out => (s,out)
  | i+1, s, out =>
    let r := pushBit s (bits &&& (1 <<< UInt8.ofNat i) ≠ 0) out
    pushBitsLoop bits i r.1 r.2

def pushBits (s : BitOutput) (count : ℕ) (bits : UInt8) (out : List UInt8) :
    BitOutput × List UInt8 :=
  if count = 8 ∧ s.bitIndex = 0x80 then (s,out ++ [bits]) else pushBitsLoop bits count s out

/-- `push_outgoing_bits`, with the number of bits. -/
def pushOutgoingBits (hse : Encoder) (out : List UInt8) : Encoder × List UInt8 × ℕ :=
  let count := if 8 < hse.outgoingBitsCount then 8 else hse.outgoingBitsCount
  let bits := UInt8.ofNat
    (if 8 < hse.outgoingBitsCount then hse.outgoingBits >>> (hse.outgoingBitsCount-8)
      else hse.outgoingBits)
  if 0 < count then
    let r := pushBits hse.toBitOutput count bits out
    ({ hse with toBitOutput := r.1, outgoingBitsCount := hse.outgoingBitsCount-count },r.2,count)
  else (hse,out,count)

/-- With room for `size` bytes, of which `out` are given out. -/
def canTakeByte (size : ℕ) (out : List UInt8) : Prop := out.length < size

instance (size : ℕ) (out : List UInt8) : Decidable (canTakeByte size out) :=
  inferInstanceAs (Decidable (out.length < size))

def stYieldTagBit (size : ℕ) (hse : Encoder) (out : List UInt8) :
    Encoder × List UInt8 × HseState :=
  if canTakeByte size out then
    if hse.matchLength = 0 then
      let r := pushBits hse.toBitOutput 1 0x01 out
      ({ hse with toBitOutput := r.1 },r.2,.yieldLiteral)
    else
      let r := pushBits hse.toBitOutput 1 0x00 out
      ({ hse with
          toBitOutput := r.1
          outgoingBits := hse.matchPos-1
          outgoingBitsCount := hse.windowSz2 },r.2,.yieldBrIndex)
  else (hse,out,.yieldTagBit)

def stYieldLiteral (size : ℕ) (hse : Encoder) (out : List UInt8) :
    Encoder × List UInt8 × HseState :=
  if canTakeByte size out then
    let processedOffset := hse.matchScanIndex-1
    let c := hse.buffer (getInputOffset hse+processedOffset)
    let r := pushBits hse.toBitOutput 8 c out
    let hse := { hse with toBitOutput := r.1, hasLiteral := false }
    (hse,r.2,
      if hse.onFinalLiteral then .flushBits
      else if 0 < hse.matchLength then .yieldTagBit else .search)
  else (hse,out,.yieldLiteral)

def stYieldBrIndex (size : ℕ) (hse : Encoder) (out : List UInt8) :
    Encoder × List UInt8 × HseState :=
  if canTakeByte size out then
    let r := pushOutgoingBits hse out
    if 0 < r.2.2 then (r.1,r.2.1,.yieldBrIndex)
    else
      ({ r.1 with outgoingBits := hse.matchLength-1, outgoingBitsCount := hse.lookaheadSz2 },r.2.1,
        .yieldBrLength)
  else (hse,out,.yieldBrIndex)

def stYieldBrLength (size : ℕ) (hse : Encoder) (out : List UInt8) :
    Encoder × List UInt8 × HseState :=
  if canTakeByte size out then
    let r := pushOutgoingBits hse out
    if 0 < r.2.2 then (r.1,r.2.1,.yieldBrLength)
    else
      ({ r.1 with matchScanIndex := hse.matchScanIndex+hse.matchLength, matchLength := 0 },r.2.1,
        .search)
  else (hse,out,.yieldBrLength)

def saveBacklog (hse : Encoder) : Encoder :=
  let inputBufSz := getInputBufferSize hse
  let rem := inputBufSz-hse.matchScanIndex
  let shiftSz := inputBufSz+rem
  let hse := { hse with buffer := store hse.buffer 0 (load hse.buffer (inputBufSz-rem) shiftSz) }
  let hse :=
    if hse.backlogIsPartial then { hse with backlogIsFilled := true }
    else { hse with backlogIsPartial := true }
  { hse with matchScanIndex := 0, inputSize := hse.inputSize-(inputBufSz-rem) }

def stSaveBacklog (hse : Encoder) : Encoder × HseState :=
  if hse.isFinishing then
    if hse.hasLiteral then ({ hse with onFinalLiteral := true },.yieldTagBit) else (hse,.flushBits)
  else (saveBacklog hse,.notFull)

def stFlushBitBuffer (size : ℕ) (hse : Encoder) (out : List UInt8) :
    Encoder × List UInt8 × HseState :=
  if hse.bitIndex = 0x80 then (hse,out,.done)
  else if canTakeByte size out then (hse,out ++ [hse.currentByte],.done)
  else (hse,out,.flushBits)

def silent (out : List UInt8) (r : Encoder × HseState) : Encoder × List UInt8 × HseState :=
  (r.1,out,r.2)

/-- The handler of the state, of those that do not end a poll. -/
def handle (size : ℕ) (hse : Encoder) (out : List UInt8) :
    Option (Encoder × List UInt8 × HseState) :=
  match hse.state with
  | .filled => some (silent out (doIndexing hse,.search))
  | .search => (stStepSearch hse).map (silent out)
  | .yieldTagBit => some (stYieldTagBit size hse out)
  | .yieldLiteral => some (stYieldLiteral size hse out)
  | .yieldBrIndex => some (stYieldBrIndex size hse out)
  | .yieldBrLength => some (stYieldBrLength size hse out)
  | .saveBacklog => some (silent out (stSaveBacklog hse))
  | .flushBits => some (stFlushBitBuffer size hse out)
  | .notFull => some (hse,out,.notFull)
  | .done => some (hse,out,.done)

inductive PollRes
  | empty
  | more
deriving DecidableEq

/-- The loop of `heatshrink_encoder_poll`; `none` when the fuel is used up. -/
def pollLoop (size : ℕ) : ℕ → Encoder → List UInt8 → Option (Encoder × List UInt8 × PollRes)
  | 0, _, _ => none
  | fuel+1, hse, out => do
    let r ← handle size hse out
    let hse' := { r.1 with state := r.2.2 }
    -- flushing falls through to the end
    if hse.state = .notFull ∨ hse.state = .flushBits ∨ hse.state = .done then
      some (hse',r.2.1,.empty)
    else if r.2.2 = hse.state ∧ r.2.1.length = size then some (hse',r.2.1,.more)
    else pollLoop size fuel hse' r.2.1

def pollBound (hse : Encoder) : ℕ := 16*hse.inputSize+32

/-- `heatshrink_encoder_poll`, with room for a byte at least. -/
def heatshrinkEncoderPoll (hse : Encoder) (outBufSize : ℕ) :
    Option (Encoder × List UInt8 × PollRes) :=
  pollLoop outBufSize (pollBound hse) hse []

/-- The inner loop of `compressHeatshrink`; without room the poll is refused, which ends it. -/
def pollAll : ℕ → Encoder → ℕ → Option (Encoder × List UInt8)
  | 0, _, _ => none
  | fuel+1, enc, outsize =>
    if outsize = 0 then some (enc,[])
    else do
      let r ← heatshrinkEncoderPoll enc outsize
      if r.2.2 = .more then
        let t ← pollAll fuel r.1 (outsize-r.2.1.length)
        some (t.1,r.2.1 ++ t.2)
      else some (r.1,r.2.1)

/-- The outer loop; `none` also where the tool gives up. -/
def compressLoop : ℕ → Encoder → List UInt8 → ℕ → Option (List UInt8)
  | 0, _, _, _ => none
  | fuel+1, enc, inp, outsize => do
    let s ←
      if inp = [] then some (enc,inp)
      else
        (heatshrinkEncoderSink enc inp).map fun r =>
          (if inp.drop r.2 = [] then heatshrinkEncoderFinish r.1 else r.1,inp.drop r.2)
    let r ← pollAll 2 s.1 outsize
    if s.2 = [] then some r.2
    else
      let out ← compressLoop fuel r.1 s.2 (outsize-r.2.length)
      some (r.2 ++ out)

def windowSizes : List ℕ := [5,6,8,11,13]

def lookaheadSizes : List ℕ := [3,3,4,4,4]

/-- `compressHeatshrink`: the sizes in one byte, and the compressed input. -/
def compressHeatshrink (data : List UInt8) (outsize : ℕ) (level : ℤ) : Option (List UInt8) := do
  let level := if level = -1 then 8 else level
  let level := ((level-1)/2).toNat
  let ws := windowSizes.getD level 0
  let ls := lookaheadSizes.getD level 0
  let out ← compressLoop (data.length+1) (heatshrinkEncoderReset ws ls) data (outsize-1)
  some (UInt8.ofNat ((ws <<< 4) ||| ls)::out)

/-- The current byte holds these bits from the top, and zeros. -/
structure Holding (s : BitOutput) (part : List Bool) : Prop where
  few : part.length < 8
  bitIndex : s.bitIndex = bitMask (8-part.length)
  currentByte : s.currentByte.toNat = 2^(8-part.length)*value part

theorem Holding.nil {s : BitOutput} {part : List Bool} (h : Holding s part)
    (hindex : s.bitIndex = 0x80) : part = [] := by
  have hfew := h.few
  have hmask := congrArg UInt8.toNat (hindex.symm.trans h.bitIndex)
  rw [show 8-part.length = 7-part.length+1 by omega,bitMask_toNat (by omega)] at hmask
  have hpow : (2 : ℕ)^7 = 2^(7-part.length) := hmask
  have hexp := Nat.pow_right_injective (Nat.le_refl 2) hpow
  exact List.length_eq_zero_iff.mp (by omega)

/-- The output `out` becomes `out'` when bits are pushed. -/
def Pushes (s : BitOutput) (out : List UInt8) (bits : List Bool) (s' : BitOutput)
    (out' : List UInt8) : Prop :=
  ∀ part, Holding s part → ∃ new part', out' = out ++ new ∧ Holding s' part' ∧
    byteBits new ++ part' = part ++ bits

variable {s : BitOutput} {out : List UInt8}

theorem Pushes.trans {bits bits' : List Bool} {s' s'' : BitOutput} {out' out'' : List UInt8}
    (h : Pushes s out bits s' out') (h' : Pushes s' out' bits' s'' out'') :
    Pushes s out (bits ++ bits') s'' out'' := by
  intro part hpart
  obtain ⟨new,part',rfl,hpart',hnew⟩ := h part hpart
  obtain ⟨new',part'',rfl,hpart'',hnew'⟩ := h' part' hpart'
  refine ⟨new ++ new',part'',List.append_assoc _ _ _,hpart'',?_⟩
  rw [byteBits_append,List.append_assoc,hnew',← List.append_assoc,hnew,List.append_assoc]

theorem pushes_nil (s : BitOutput) (out : List UInt8) : Pushes s out [] s out :=
  fun part hpart => ⟨[],part,(List.append_nil out).symm,hpart,(List.append_nil part).symm⟩

theorem byteBits_value {bits : List Bool} (h : bits.length = 8) {b : UInt8}
    (hb : b.toNat = value bits) : byteBits [b] = bits := by
  have hbits := bitsOf_value bits
  rw [h] at hbits
  rw [byteBits,List.flatMap_cons,List.flatMap_nil,List.append_nil,hb,hbits]

theorem pushBit_pushes (bit : Bool) :
    Pushes s out [bit] (pushBit s bit out).1 (pushBit s bit out).2 := by
  intro part hpart
  have hfew := hpart.few
  obtain ⟨k,hk⟩ : ∃ k, 8-part.length = k+1 := ⟨7-part.length,by omega⟩
  have hindex := hpart.bitIndex
  have hbyte := hpart.currentByte
  rw [hk] at hindex hbyte
  have hlen : (part ++ [bit]).length = 8-k := by
    rw [List.length_append,List.length_singleton]
    omega
  have hnew : (if bit then s.currentByte ||| s.bitIndex else s.currentByte).toNat =
      2^k*value (part ++ [bit]) := by
    have hvalue : value (part ++ [bit]) = 2*value part+bit.toNat := by
      rw [value_append]
      simp [value]
    have hshift : 2^k*(2*value part) = 2^(k+1)*value part := by
      rw [Nat.pow_succ,Nat.mul_assoc]
    rw [hvalue,Nat.mul_add,hshift]
    cases bit with
    | false => simpa using hbyte
    | true =>
      simp only [if_true,Bool.toNat_true,Nat.mul_one]
      rw [UInt8.toNat_or,hbyte,hindex,bitMask_toNat (by omega),
        Nat.two_pow_add_eq_or_of_lt (Nat.pow_lt_pow_right (by decide) (Nat.lt_succ_self k))]
  have hhalf : s.bitIndex >>> 1 = bitMask k := by rw [hindex,bitMask_half (by omega)]
  simp only [pushBit,hhalf]
  cases k with
  | zero =>
    refine ⟨[_],[],rfl,⟨by decide,rfl,rfl⟩,?_⟩
    rw [List.append_nil]
    exact byteBits_value hlen (by rw [hnew]; simp)
  | succ k =>
    rw [if_neg (bitMask_ne_zero (by omega))]
    refine ⟨[],part ++ [bit],(List.append_nil out).symm,⟨?_,?_,?_⟩,rfl⟩
    · rw [hlen]
      omega
    · show bitMask (k+1) = _
      rw [hlen]
      congr 1
      omega
    · rw [hnew,hlen,show 8-(8-(k+1)) = k+1 by omega]

theorem pushBitsLoop_pushes (bits : UInt8) {n : ℕ} (hn : n ≤ 8) (s : BitOutput)
    (out : List UInt8) :
    Pushes s out (bitsOf n bits.toNat) (pushBitsLoop bits n s out).1
      (pushBitsLoop bits n s out).2 := by
  induction n generalizing s out with
  | zero => exact pushes_nil s out
  | succ n ih =>
    have hbit : decide (bits &&& (1 <<< UInt8.ofNat n) ≠ 0) = bits.toNat.testBit n := by
      rw [Bool.eq_iff_iff,decide_eq_true_iff]
      exact and_bitMask bits (by omega : n < 8)
    rw [pushBitsLoop,bitsOf,hbit]
    exact (pushBit_pushes _).trans (ih (by omega) _ _)

theorem pushBits_pushes {n : ℕ} (hn : n ≤ 8) (bits : UInt8) :
    Pushes s out (bitsOf n bits.toNat) (pushBits s n bits out).1 (pushBits s n bits out).2 := by
  rw [pushBits]
  split_ifs with h
  · obtain ⟨rfl,hindex⟩ := h
    intro part hpart
    obtain rfl := hpart.nil hindex
    refine ⟨[bits],[],rfl,hpart,?_⟩
    rw [List.append_nil]
    exact byteBits_value (bitsOf_length _ _) (by rw [value_bitsOf,Nat.mod_eq_of_lt bits.toNat_lt])
  · exact pushBitsLoop_pushes bits hn s out

theorem Pushes.length_le {bits : List Bool} {s' : BitOutput} {out' : List UInt8} {part : List Bool}
    (h : Pushes s out bits s' out') (hpart : Holding s part) (hbits : bits.length ≤ 8) :
    out'.length ≤ out.length+1 := by
  obtain ⟨new,part',rfl,hpart',hnew⟩ := h part hpart
  have hlen := congrArg List.length hnew
  have hfew := hpart.few
  rw [List.length_append,List.length_append,byteBits_length] at hlen
  rw [List.length_append]
  omega

theorem pushOutgoingBits_pushes (hse : Encoder) (out : List UInt8) :
    ∃ bits s' out', pushOutgoingBits hse out = ({ hse with
        toBitOutput := s', outgoingBitsCount := hse.outgoingBitsCount-bits.length },
        out',bits.length) ∧
      bits.length = min hse.outgoingBitsCount 8 ∧
      bits ++ bitsOf (hse.outgoingBitsCount-bits.length) hse.outgoingBits =
        bitsOf hse.outgoingBitsCount hse.outgoingBits ∧
      Pushes hse.toBitOutput out bits s' out' := by
  have hbyte : ∀ n v : ℕ, n ≤ 8 → bitsOf n (UInt8.ofNat v).toNat = bitsOf n v := by
    intro n v hn
    rw [UInt8.toNat_ofNat',bitsOf_mod n v hn]
  rw [pushOutgoingBits]
  by_cases hmany : 8 < hse.outgoingBitsCount
  · simp only [hmany,if_true,Nat.lt_of_lt_of_le Nat.zero_lt_one (by decide : 1 ≤ 8)]
    have hpush := @pushBits_pushes hse.toBitOutput out 8 (Nat.le_refl 8)
      (UInt8.ofNat (hse.outgoingBits >>> (hse.outgoingBitsCount-8)))
    rw [hbyte 8 _ (Nat.le_refl 8)] at hpush
    refine ⟨_,_,_,?_,?_,?_,hpush⟩
    · rw [bitsOf_length]
    · rw [bitsOf_length]
      omega
    · rw [bitsOf_length,← bitsOf_add,show 8+(hse.outgoingBitsCount-8) = hse.outgoingBitsCount by omega]
  · simp only [hmany,if_false]
    by_cases hnone : 0 < hse.outgoingBitsCount
    · simp only [hnone,if_true]
      have hpush := @pushBits_pushes hse.toBitOutput out hse.outgoingBitsCount
        (Nat.le_of_not_lt hmany) (UInt8.ofNat hse.outgoingBits)
      rw [hbyte _ _ (Nat.le_of_not_lt hmany)] at hpush
      refine ⟨_,_,_,?_,?_,?_,hpush⟩
      · rw [bitsOf_length]
      · rw [bitsOf_length]
        omega
      · rw [bitsOf_length,Nat.sub_self,bitsOf,List.append_nil]
    · have hzero : hse.outgoingBitsCount = 0 := Nat.eq_zero_of_not_pos hnone
      simp only [hnone,if_false]
      exact ⟨[],hse.toBitOutput,out,Prod.ext rfl (Prod.ext rfl hzero),by simp [hzero],by simp,
        pushes_nil _ _⟩

/-- The index of a position is that of an earlier one with the same byte, or negative. -/
def Indexed (hse : Encoder) : Prop :=
  ∀ i < getInputOffset hse+hse.inputSize, hse.searchIndex i < i ∧
    (0 ≤ hse.searchIndex i → hse.buffer (hse.searchIndex i).toNat = hse.buffer i)

theorem indexLoop_spec (data : Buf) (index : ℕ → ℤ) (n : ℕ) :
    (∀ v, (indexLoop data index n).2 v < n ∧ (0 ≤ (indexLoop data index n).2 v →
        data ((indexLoop data index n).2 v).toNat = v)) ∧
      ∀ i < n, (indexLoop data index n).1 i < i ∧ (0 ≤ (indexLoop data index n).1 i →
        data ((indexLoop data index n).1 i).toNat = data i) := by
  induction n with
  | zero => exact ⟨fun v => by simp [indexLoop],fun i hi => absurd hi (Nat.not_lt_zero i)⟩
  | succ n ih =>
    obtain ⟨hlast,hindex⟩ := ih
    rw [indexLoop]
    refine ⟨fun v => ?_,fun i hi => ?_⟩
    · by_cases hv : v = data n
      · subst hv
        simp only [Function.update_self]
        exact ⟨by omega,fun _ => by rw [Int.toNat_natCast]⟩
      · simp only [Function.update_of_ne hv]
        exact ⟨by have h := (hlast v).1; omega,(hlast v).2⟩
    · by_cases hin : i = n
      · subst hin
        simp only [Function.update_self]
        exact hlast (data i)
      · simp only [Function.update_of_ne hin]
        exact hindex i (by omega)

theorem doIndexing_indexed (hse : Encoder) : Indexed (doIndexing hse) :=
  (indexLoop_spec hse.buffer hse.searchIndex _).2

/-- The bytes from `pos` on agree with those from `needle` on. -/
def Agree (buf : Buf) (pos needle len : ℕ) : Prop := ∀ i < len, buf (pos+i) = buf (needle+i)

theorem agreeLoop_spec {buf : Buf} {pos needle : ℕ} (n : ℕ) {len : ℕ}
    (h : Agree buf pos needle len) :
    Agree buf pos needle (agreeLoop buf pos needle n len) ∧ len ≤ agreeLoop buf pos needle n len ∧
      agreeLoop buf pos needle n len ≤ len+n := by
  induction n generalizing len with
  | zero => exact ⟨h,Nat.le_refl _,Nat.le_refl _⟩
  | succ n ih =>
    rw [agreeLoop]
    split_ifs with hne
    · exact ⟨h,Nat.le_refl _,by omega⟩
    · have hlonger : Agree buf pos needle (len+1) := by
        intro i hi
        rcases Nat.lt_succ_iff_lt_or_eq.mp hi with hlt | rfl
        · exact h i hlt
        · exact not_not.mp hne
      obtain ⟨hagree,hlow,hhigh⟩ := ih hlonger
      exact ⟨hagree,by omega,by omega⟩

/-- A match so far: none, or as many bytes as it says, between `start` and `needle`. -/
def Match (buf : Buf) (start needle maxlen len index : ℕ) : Prop :=
  len = 0 ∨ Agree buf index needle len ∧ start ≤ index ∧ index < needle ∧ len ≤ maxlen

theorem findLoop_spec {buf : Buf} {index : ℕ → ℤ} {start needle maxlen : ℕ} (hmax : 0 < maxlen)
    (hindex : ∀ i < needle, index i < i ∧ (0 ≤ index i → buf (index i).toNat = buf i))
    {fuel : ℕ} {pos : ℤ} (hfuel : pos+1 < fuel) (hfuel' : 0 < fuel) (hpos : pos < needle)
    (hbyte : 0 ≤ pos → buf pos.toNat = buf needle) {len idx : ℕ}
    (hmatch : Match buf start needle maxlen len idx) :
    ∃ r, findLoop buf index start needle maxlen fuel pos len idx = some r ∧
      Match buf start needle maxlen r.1 r.2 := by
  induction fuel generalizing pos len idx with
  | zero => exact absurd hfuel' (Nat.lt_irrefl 0)
  | succ fuel ih =>
    rw [findLoop]
    by_cases hend : pos < start
    · rw [if_pos hend]
      exact ⟨_,rfl,hmatch⟩
    · rw [if_neg hend]
      obtain ⟨p,rfl⟩ := Int.eq_ofNat_of_zero_le (by omega : 0 ≤ pos)
      have hp : p < needle := by omega
      obtain ⟨hearlier,hsame⟩ := hindex p hp
      have hagain : ∀ {len idx : ℕ}, Match buf start needle maxlen len idx →
          ∃ r, findLoop buf index start needle maxlen fuel (index p) len idx = some r ∧
            Match buf start needle maxlen r.1 r.2 := by
        intro len idx hm
        refine ih (by omega) (by omega) (by omega) (fun hnonneg => ?_) hm
        exact (hsame hnonneg).trans (hbyte (Int.natCast_nonneg p))
      have hbest : Match buf start needle maxlen (agreeLoop buf p needle (maxlen-1) 1) p := by
        obtain ⟨hagree,hlow,hhigh⟩ := agreeLoop_spec (maxlen-1) (fun i hi => by
          rw [Nat.lt_one_iff.mp hi]
          exact hbyte (Int.natCast_nonneg p) : Agree buf p needle 1)
        exact Or.inr ⟨hagree,by omega,hp,by omega⟩
      simp only [Int.toNat_natCast]
      split_ifs
      · exact hagain hmatch
      · exact ⟨_,rfl,hbest⟩
      · exact hagain hbest
      · exact hagain hmatch

theorem findLongestMatch_spec {hse : Encoder} (h : Indexed hse) {start needle maxlen : ℕ}
    (hneedle : needle < getInputOffset hse+hse.inputSize) (hmax : 0 < maxlen) :
    ∃ r, findLongestMatch hse start needle maxlen = some r ∧
      ∀ distance len, r = some (distance,len) → 3 ≤ len ∧ len ≤ maxlen ∧
        ∃ index, distance = needle-index ∧ start ≤ index ∧ index < needle ∧
          Agree hse.buffer index needle len := by
  obtain ⟨hearlier,hsame⟩ := h needle hneedle
  have hnone : Match hse.buffer start needle maxlen 0 0xffff := Or.inl rfl
  obtain ⟨r,hfind,hmatch⟩ := findLoop_spec hmax (fun i hi => h i (by omega))
    (by omega : hse.searchIndex needle+1 < (needle+1 : ℕ)) (Nat.succ_pos needle) hearlier hsame hnone
  refine ⟨_,by rw [findLongestMatch,hfind]; rfl,?_⟩
  intro distance len hr
  split_ifs at hr with hlong
  obtain ⟨rfl,rfl⟩ := Prod.mk.inj (Option.some.inj hr)
  obtain hzero | ⟨hagree,hstart,hlt,hle⟩ := hmatch
  · omega
  · exact ⟨hlong,hle,r.2,rfl,hstart,hlt,hagree⟩

end HeatshrinkEncoder
end MeterLogger
