import MeterLogger.HeatshrinkDecoder
import MeterLogger.HeatshrinkEncoder

/-!
# The bits that the compressor gives out

In every run of the compressor the bits given out, those held back and those still to come of the
token under way are the bits of tokens whose text is the file up to the scan index. A step of the
state machine keeps this, and so do a poll, the loop of polls and the loop over the input. Hence the
image tool either fills all the room it has, which is twice the file, or what it stores is decoded
to the file.
-/

namespace MeterLogger
namespace HeatshrinkEncoder

open Buffers Lzss

variable {w l q p taken : ℕ} {data given out out' : List UInt8} {ts : List Token} {hse : Encoder}
variable {fin : Bool} {size : ℕ}

/-- Sizes as the image tool chooses them. -/
structure Sized (w l : ℕ) : Prop where
  window : w ≤ 13
  two_le : 2 ≤ l
  lookahead : l < w
  token : 7 ≤ w+l

theorem Sized.twice (hs : Sized w l) : 2^l+2^l ≤ 2^w := by
  have hpow := Nat.pow_le_pow_right (by decide : 0 < 2) hs.lookahead
  rw [Nat.pow_succ] at hpow
  omega

/-- Tokens for the first `p` bytes of the file. -/
structure Told (w l : ℕ) (data : List UInt8) (ts : List Token) (p : ℕ) : Prop where
  text : expand [] ts = data.take p
  fits : ∀ t ∈ ts, t.Fits w l
  short : (ts.flatMap (Token.bits w l)).length ≤ 9*p
  within : p ≤ data.length

theorem Told.snoc (h : Told w l data ts p) {t : Token} {n : ℕ} (hfits : t.Fits w l)
    (hout : t.out (data.take p).reverse = (data.drop p).take n) (hn : p+n ≤ data.length)
    (hshort : (t.bits w l).length ≤ 9*n) : Told w l data (ts ++ [t]) (p+n) where
  text := by
    rw [expand_append,h.text,List.append_nil,expand,expand,List.append_nil,hout,List.take_add]
  fits := by
    intro t' ht'
    rcases List.mem_append.mp ht' with hmem | hmem
    · exact h.fits t' hmem
    · rw [List.mem_singleton.mp hmem]
      exact hfits
  short := by
    have hlen := h.short
    rw [List.flatMap_append,List.length_append,List.flatMap_singleton]
    omega
  within := hn

theorem Told.literal (h : Told w l data ts p) (hp : p < data.length) :
    Told w l data (ts ++ [.literal (data.getD p 0)]) (p+1) := by
  refine h.snoc trivial ?_ hp (by simp [Token.bits])
  rw [List.drop_eq_getElem_cons hp,List.getD_eq_getElem _ _ hp,List.take_succ_cons]
  rfl

theorem Told.backref (hs : Sized w l) (h : Told w l data ts p) {distance n : ℕ}
    (hfits : Token.Fits w l (.backref distance n)) (hlong : 3 ≤ n) (hn : p+n ≤ data.length)
    (hp : distance ≤ p) (hsame : ∀ i < n, data.getD (p+i) 0 = data.getD (p+i-distance) 0) :
    Told w l data (ts ++ [.backref distance n]) (p+n) := by
  refine h.snoc hfits (copy_eq hn hfits.1 hp hsame) hn ?_
  have hw := hs.window
  have hl := hs.lookahead
  simp only [Token.bits,List.length_cons,List.length_append,bitsOf_length]
  omega

theorem inputBufferSize_eq (h : hse.windowSz2 = w) : getInputBufferSize hse = 2^w := by
  rw [getInputBufferSize,h,Nat.one_shiftLeft]

theorem inputOffset_eq (h : hse.windowSz2 = w) : getInputOffset hse = 2^w := inputBufferSize_eq h

theorem lookaheadSize_eq (h : hse.lookaheadSz2 = l) : getLookaheadSize hse = 2^l := by
  rw [getLookaheadSize,h,Nat.one_shiftLeft]

def firstKnown (hse : Encoder) : ℕ :=
  if hse.backlogIsFilled then 0
  else if hse.backlogIsPartial then getLookaheadSize hse else getInputOffset hse

/-- The buffer holds the file around position `q`, where its input begins. -/
structure Stored (w l q : ℕ) (data : List UInt8) (hse : Encoder) : Prop where
  windowSz2 : hse.windowSz2 = w
  lookaheadSz2 : hse.lookaheadSz2 = l
  inputSize : hse.inputSize ≤ 2^w
  length : q+hse.inputSize ≤ data.length
  known : ∀ i, firstKnown hse ≤ i → i < 2^w+hse.inputSize →
    2^w ≤ q+i ∧ hse.buffer i = data.getD (q+i-2^w) 0

theorem firstKnown_le (h : Stored w l q data hse) (hl : l < w) : firstKnown hse ≤ 2^w := by
  have hpow := Nat.pow_lt_pow_right (by decide : 1 < 2) hl
  rw [firstKnown,inputOffset_eq h.windowSz2,lookaheadSize_eq h.lookaheadSz2]
  split_ifs
  · exact Nat.zero_le _
  · exact Nat.le_of_lt hpow
  · exact Nat.le_refl _

theorem Stored.input (h : Stored w l q data hse) (hl : l < w) {i : ℕ} (hi : i < hse.inputSize) :
    hse.buffer (2^w+i) = data.getD (q+i) 0 := by
  have hfirst := firstKnown_le h hl
  obtain ⟨-,hbyte⟩ := h.known (2^w+i) (by omega) (by omega)
  rw [hbyte]
  congr 1
  omega

theorem Stored.repeats (h : Stored w l q data hse) (hl : l < w) {msi index n : ℕ}
    (hfirst : firstKnown hse ≤ index) (hindex : index < 2^w+msi) (hn : msi+n ≤ hse.inputSize)
    (hagree : Agree hse.buffer index (2^w+msi) n) (hpos : 0 < n) :
    2^w+msi-index ≤ q+msi ∧
      ∀ i < n, data.getD (q+msi+i) 0 = data.getD (q+msi+i-(2^w+msi-index)) 0 := by
  refine ⟨?_,fun i hi => ?_⟩
  · have hback := (h.known index hfirst (by omega)).1
    omega
  · obtain ⟨hback,hbyte⟩ := h.known (index+i) (by omega) (by omega)
    have hinput := h.input hl (by omega : msi+i < hse.inputSize)
    rw [Nat.add_assoc,← hinput,← Nat.add_assoc,← hagree i hi,hbyte]
    congr 1
    omega

theorem saveBacklog_eq (hse : Encoder) : saveBacklog hse = { hse with
    buffer := store hse.buffer 0 (load hse.buffer
      (getInputBufferSize hse-(getInputBufferSize hse-hse.matchScanIndex))
      (getInputBufferSize hse+(getInputBufferSize hse-hse.matchScanIndex)))
    backlogIsFilled := hse.backlogIsPartial || hse.backlogIsFilled
    backlogIsPartial := true
    matchScanIndex := 0
    inputSize := hse.inputSize-(getInputBufferSize hse-(getInputBufferSize hse-hse.matchScanIndex)) }
    := by
  simp only [saveBacklog]
  split_ifs with hhalf
  · simp [hhalf]
  · simp [hhalf]

/-- The buffer after `save_backlog`, when the search has come within a lookahead of the end. -/
theorem Stored.backlog (hs : Sized w l) (h : Stored w l q data hse) (hfull : hse.inputSize = 2^w)
    (hmsi : hse.matchScanIndex ≤ 2^w) (hfar : 2^w ≤ hse.matchScanIndex+2^l) (state : HseState) :
    Stored w l (q+hse.matchScanIndex) data { saveBacklog hse with state := state } := by
  have htwice := hs.twice
  have hlength := h.length
  have hbuf := inputBufferSize_eq h.windowSz2
  have hshift : 2^w-(2^w-hse.matchScanIndex) = hse.matchScanIndex := by omega
  rw [saveBacklog_eq,hbuf,hshift]
  refine ⟨h.windowSz2,h.lookaheadSz2,?_,?_,fun i hi hlt => ?_⟩
  · show hse.inputSize-hse.matchScanIndex ≤ 2^w
    omega
  · show q+hse.matchScanIndex+(hse.inputSize-hse.matchScanIndex) ≤ data.length
    omega
  · replace hlt : i < 2^w+(hse.inputSize-hse.matchScanIndex) := hlt
    have hfirst : firstKnown hse ≤ hse.matchScanIndex+i := by
      have hlook := lookaheadSize_eq h.lookaheadSz2
      have hoff := inputOffset_eq h.windowSz2
      replace hi : (if hse.backlogIsPartial || hse.backlogIsFilled then 0
        else getLookaheadSize hse) ≤ i := hi
      rw [firstKnown,hlook,hoff]
      rw [hlook] at hi
      cases hfilled : hse.backlogIsFilled <;> cases hhalf : hse.backlogIsPartial <;>
        simp [hfilled,hhalf] at hi ⊢ <;> omega
    have hmoved : store hse.buffer 0 (load hse.buffer hse.matchScanIndex
        (2^w+(2^w-hse.matchScanIndex))) i = hse.buffer (hse.matchScanIndex+i) := by
      have hin := @store_in hse.buffer 0 i (load hse.buffer hse.matchScanIndex
        (2^w+(2^w-hse.matchScanIndex))) (by rw [load_length]; omega)
      rw [Nat.zero_add] at hin
      rw [hin,load_getElem]
    obtain ⟨hback,hbyte⟩ := h.known (hse.matchScanIndex+i) hfirst (by omega)
    rw [← Nat.add_assoc] at hback hbyte
    exact ⟨hback,hmoved.trans hbyte⟩

/-- The byte that `push_literal_byte` gives out. -/
def literalByte (hse : Encoder) : UInt8 :=
  hse.buffer (getInputOffset hse+(hse.matchScanIndex-1))

/-- The bits to come of the token under way. -/
def toCome (hse : Encoder) : List Bool :=
  match hse.state with
  | .yieldTagBit =>
    if hse.matchLength = 0 then Token.bits hse.windowSz2 hse.lookaheadSz2 (.literal (literalByte hse))
    else Token.bits hse.windowSz2 hse.lookaheadSz2 (.backref hse.matchPos hse.matchLength)
  | .yieldLiteral => bitsOf 8 (literalByte hse).toNat
  | .yieldBrIndex => bitsOf hse.outgoingBitsCount hse.outgoingBits ++
      bitsOf hse.lookaheadSz2 (hse.matchLength-1)
  | .yieldBrLength => bitsOf hse.outgoingBitsCount hse.outgoingBits
  | _ => []

/-- The bytes given out are `bits`, less what is held back and to come; at the end, with zeros. -/
def Gave (given : List UInt8) (bits : List Bool) (hse : Encoder) : Prop :=
  if hse.state = .done then ∃ pad : List Bool, byteBits given = bits ++ pad ∧ pad.length < 8
  else ∃ part, Holding hse.toBitOutput part ∧ byteBits given ++ part ++ toCome hse = bits

/-- The input may be searched. -/
def Ready (hse : Encoder) : Prop :=
  hse.isFinishing = true ∨ hse.inputSize = getInputBufferSize hse

/-- What a state promises besides. -/
def Shaped (hse : Encoder) : Prop :=
  match hse.state with
  | .notFull => hse.isFinishing = false ∧ hse.matchScanIndex = 0 ∧ hse.matchLength = 0 ∧
      hse.inputSize < getInputBufferSize hse
  | .filled => Ready hse ∧ hse.matchLength = 0
  | .search => Ready hse ∧ Indexed hse ∧ hse.matchLength = 0
  | .yieldTagBit => Ready hse ∧ Indexed hse
  | .yieldLiteral => Ready hse ∧ Indexed hse ∧ hse.matchLength = 0
  | .yieldBrIndex => Ready hse ∧ Indexed hse ∧ 0 < hse.matchLength ∧ hse.outgoingBitsCount ≤ 13
  | .yieldBrLength => Ready hse ∧ Indexed hse ∧ 0 < hse.matchLength ∧ hse.outgoingBitsCount ≤ 13
  | .saveBacklog => hse.matchLength = 0 ∧
      (hse.isFinishing = true → hse.matchScanIndex = hse.inputSize) ∧
      (hse.isFinishing = false → hse.inputSize = getInputBufferSize hse ∧
        getInputBufferSize hse ≤ hse.matchScanIndex+getLookaheadSize hse)
  | .flushBits => hse.isFinishing = true ∧ hse.matchLength = 0 ∧ hse.matchScanIndex = hse.inputSize
  | .done => hse.isFinishing = true ∧ hse.matchLength = 0 ∧ hse.matchScanIndex = hse.inputSize

/-- The encoder amid the file, of which it took `taken` bytes, when the bytes `given` have been given
out for the tokens `ts`. -/
structure Inv (w l q taken : ℕ) (data : List UInt8) (fin : Bool) (given : List UInt8) (ts : List Token)
    (hse : Encoder) : Prop where
  stored : Stored w l q data hse
  told : Told w l data ts (q+(hse.matchScanIndex+hse.matchLength))
  within : hse.matchScanIndex+hse.matchLength ≤ hse.inputSize
  isFinishing : hse.isFinishing = fin
  taken : q+hse.inputSize = taken
  hasLiteral : hse.hasLiteral = true →
    hse.state = .yieldTagBit ∧ hse.matchLength = 0 ∨ hse.state = .yieldLiteral
  onFinalLiteral : hse.onFinalLiteral = false
  gave : Gave given (ts.flatMap (Token.bits w l)) hse
  shaped : Shaped hse

def measure (hse : Encoder) : ℕ :=
  let left := 16*(hse.inputSize-hse.matchScanIndex)
  match hse.state with
  | .notFull => 0
  | .filled => left+16
  | .search => left+15
  | .yieldTagBit => if hse.matchLength = 0 then left+17 else left+14
  | .yieldLiteral => left+16
  | .yieldBrIndex => left+8+(hse.outgoingBitsCount+7)/8
  | .yieldBrLength => left+4+(hse.outgoingBitsCount+7)/8
  | .saveBacklog => left+14
  | .flushBits => 1
  | .done => 0

def next (r : Encoder × List UInt8 × HseState) : Encoder := { r.1 with state := r.2.2 }

/-- A handler keeps the invariant, and comes closer to the end unless the room is used up. -/
structure Advances (w l taken : ℕ) (data : List UInt8) (fin : Bool) (given : List UInt8) (size : ℕ)
    (hse : Encoder) (r : Encoder × List UInt8 × HseState) : Prop where
  inv : ∃ q ts, Inv w l q taken data fin (given ++ r.2.1) ts (next r)
  room : r.2.1.length ≤ size
  closer : measure (next r) < measure hse ∨ r.2.2 = hse.state ∧ r.2.1.length = size

theorem Inv.stays (h : Inv w l q taken data fin (given ++ out) ts hse) {state : HseState}
    (hstate : hse.state = state) (hroom : out.length ≤ size) (hfull : ¬canTakeByte size out) :
    Advances w l taken data fin given size hse (hse,out,state) := by
  subst hstate
  exact
    { inv := ⟨q,ts,h⟩
      room := hroom
      closer := Or.inr ⟨rfl,Nat.le_antisymm hroom (Nat.le_of_not_lt hfull)⟩ }

theorem Inv.pushed (h : Inv w l q taken data fin (given ++ out) ts hse) (hdone : hse.state ≠ .done)
    {s' : BitOutput} {bits : List Bool} (hpush : Pushes hse.toBitOutput out bits s' out')
    {outgoingBits count msi len : ℕ} {hasLiteral : Bool} {state : HseState}
    (hlen : msi+len = hse.matchScanIndex+hse.matchLength) (hstate : state ≠ .done)
    (hcome : toCome hse = bits ++ toCome { hse with
      toBitOutput := s', outgoingBits := outgoingBits, outgoingBitsCount := count,
      matchScanIndex := msi, matchLength := len, hasLiteral := hasLiteral, state := state })
    (hliteral : hasLiteral = true → state = .yieldTagBit ∧ len = 0 ∨ state = .yieldLiteral)
    (hshaped : Shaped { hse with
      toBitOutput := s', outgoingBits := outgoingBits, outgoingBitsCount := count,
      matchScanIndex := msi, matchLength := len, hasLiteral := hasLiteral, state := state }) :
    Inv w l q taken data fin (given ++ out') ts { hse with
      toBitOutput := s', outgoingBits := outgoingBits, outgoingBitsCount := count,
      matchScanIndex := msi, matchLength := len, hasLiteral := hasLiteral, state := state } where
  stored := ⟨h.stored.windowSz2,h.stored.lookaheadSz2,h.stored.inputSize,h.stored.length,
    h.stored.known⟩
  told := by
    show Told w l data ts (q+(msi+len))
    rw [hlen]
    exact h.told
  within := by
    show msi+len ≤ hse.inputSize
    rw [hlen]
    exact h.within
  isFinishing := h.isFinishing
  taken := h.taken
  hasLiteral := hliteral
  onFinalLiteral := h.onFinalLiteral
  gave := by
    have hgave := h.gave
    rw [Gave,if_neg hdone] at hgave
    obtain ⟨part,hpart,hbits⟩ := hgave
    obtain ⟨new,part',rfl,hpart',hnew⟩ := hpush part hpart
    rw [Gave,if_neg hstate]
    refine ⟨part',hpart',?_⟩
    rw [← hbits,hcome,← List.append_assoc given,byteBits_append,List.append_assoc,List.append_assoc,
      ← List.append_assoc (byteBits new),hnew]
    simp only [List.append_assoc]
  shaped := hshaped

theorem Inv.room (h : Inv w l q taken data fin (given ++ out) ts hse) (hdone : hse.state ≠ .done)
    {s' : BitOutput} {bits : List Bool} (hpush : Pushes hse.toBitOutput out bits s' out')
    (hbits : bits.length ≤ 8) (hroom : canTakeByte size out) : out'.length ≤ size := by
  have hgave := h.gave
  rw [Gave,if_neg hdone] at hgave
  obtain ⟨part,hpart,-⟩ := hgave
  exact Nat.le_trans (hpush.length_le hpart hbits) hroom

theorem advances_yieldTagBit (hs : Sized w l) (h : Inv w l q taken data fin (given ++ out) ts hse)
    (hstate : hse.state = .yieldTagBit) (hroom : out.length ≤ size) :
    Advances w l taken data fin given size hse (stYieldTagBit size hse out) := by
  have hdone : hse.state ≠ .done := by simp [hstate]
  obtain ⟨hready,hindexed⟩ : Ready hse ∧ Indexed hse := by simpa [Shaped,hstate] using h.shaped
  rw [stYieldTagBit]
  by_cases htake : canTakeByte size out
  · rw [if_pos htake]
    by_cases hlen : hse.matchLength = 0
    · have hpush := @pushBits_pushes hse.toBitOutput out 1 (by decide) 0x01
      rw [if_pos hlen]
      refine ⟨⟨q,ts,h.pushed hdone hpush rfl (by simp) ?_ (fun _ => Or.inr rfl) ?_⟩,
        h.room hdone hpush (by simp) htake,Or.inl ?_⟩
      · simp [toCome,hstate,hlen,Token.bits,bitsOf,literalByte,getInputOffset,getInputBufferSize]
      · exact ⟨hready,hindexed,hlen⟩
      · simp [measure,next,hstate,hlen]
    · have hpush := @pushBits_pushes hse.toBitOutput out 1 (by decide) 0x00
      have hw := hs.window
      have hsz := h.stored.windowSz2
      have hliteral : hse.hasLiteral ≠ true := fun htrue => by
        have hcases := h.hasLiteral htrue
        simp [hstate,hlen] at hcases
      rw [if_neg hlen]
      refine ⟨⟨q,ts,h.pushed hdone hpush rfl (by simp) ?_ (fun htrue => absurd htrue hliteral) ?_⟩,
        h.room hdone hpush (by simp) htake,Or.inl ?_⟩
      · simp [toCome,hstate,hlen,Token.bits,bitsOf]
      · exact ⟨hready,hindexed,Nat.pos_of_ne_zero hlen,by show hse.windowSz2 ≤ 13; omega⟩
      · simp only [measure,next,hstate,hlen,if_false]
        omega
  · rw [if_neg htake]
    exact h.stays hstate hroom htake

theorem advances_yieldLiteral (h : Inv w l q taken data fin (given ++ out) ts hse)
    (hstate : hse.state = .yieldLiteral) (hroom : out.length ≤ size) :
    Advances w l taken data fin given size hse (stYieldLiteral size hse out) := by
  have hdone : hse.state ≠ .done := by simp [hstate]
  obtain ⟨hready,hindexed,hlen⟩ : Ready hse ∧ Indexed hse ∧ hse.matchLength = 0 := by
    simpa [Shaped,hstate] using h.shaped
  by_cases htake : canTakeByte size out
  · have hpush := @pushBits_pushes hse.toBitOutput out 8 (Nat.le_refl 8) (literalByte hse)
    have heq : stYieldLiteral size hse out = ({ hse with
        toBitOutput := (pushBits hse.toBitOutput 8 (literalByte hse) out).1, hasLiteral := false },
        (pushBits hse.toBitOutput 8 (literalByte hse) out).2,.search) := by
      simp [stYieldLiteral,htake,h.onFinalLiteral,hlen,literalByte]
    rw [heq]
    refine ⟨⟨q,ts,h.pushed hdone hpush rfl (by simp) ?_ (by simp) ?_⟩,
      h.room hdone hpush (by simp) htake,Or.inl ?_⟩
    · simp [toCome,hstate]
    · exact ⟨hready,hindexed,hlen⟩
    · simp [measure,next,hstate]
  · rw [stYieldLiteral,if_neg htake]
    exact h.stays hstate hroom htake

theorem advances_yieldBrIndex (hs : Sized w l) (h : Inv w l q taken data fin (given ++ out) ts hse)
    (hstate : hse.state = .yieldBrIndex) (hroom : out.length ≤ size) :
    Advances w l taken data fin given size hse (stYieldBrIndex size hse out) := by
  have hdone : hse.state ≠ .done := by simp [hstate]
  obtain ⟨hready,hindexed,hlen,hcount⟩ : Ready hse ∧ Indexed hse ∧ 0 < hse.matchLength ∧
      hse.outgoingBitsCount ≤ 13 := by simpa [Shaped,hstate] using h.shaped
  have hliteral : hse.hasLiteral ≠ true := fun htrue => by
    have hcases := h.hasLiteral htrue
    simp [hstate] at hcases
  have hw := hs.window
  have hl := hs.lookahead
  have hsz := h.stored.lookaheadSz2
  rw [stYieldBrIndex]
  by_cases htake : canTakeByte size out
  · obtain ⟨bits,s',out',heq,hbits,hfield,hpush⟩ := pushOutgoingBits_pushes hse out
    rw [if_pos htake,heq]
    by_cases hany : 0 < bits.length
    · simp only [hany,if_true]
      refine ⟨⟨q,ts,h.pushed hdone hpush rfl (by simp) ?_ (fun htrue => absurd htrue hliteral) ?_⟩,
        h.room hdone hpush (by omega) htake,Or.inl ?_⟩
      · simp only [toCome,hstate]
        rw [← hfield,List.append_assoc]
      · exact ⟨hready,hindexed,hlen,by show hse.outgoingBitsCount-bits.length ≤ 13; omega⟩
      · simp only [measure,next,hstate]
        omega
    · have hzero : hse.outgoingBitsCount = 0 := by omega
      simp only [hany,if_false]
      refine ⟨⟨q,ts,h.pushed hdone hpush rfl (by simp) ?_ (fun htrue => absurd htrue hliteral) ?_⟩,
        h.room hdone hpush (by omega) htake,Or.inl ?_⟩
      · simp only [toCome,hstate]
        rw [← hfield,List.length_eq_zero_iff.mp (Nat.eq_zero_of_not_pos hany),hzero]
        simp [bitsOf]
      · exact ⟨hready,hindexed,hlen,by show hse.lookaheadSz2 ≤ 13; omega⟩
      · simp only [measure,next,hstate]
        omega
  · rw [if_neg htake]
    exact h.stays hstate hroom htake

theorem advances_yieldBrLength (h : Inv w l q taken data fin (given ++ out) ts hse)
    (hstate : hse.state = .yieldBrLength) (hroom : out.length ≤ size) :
    Advances w l taken data fin given size hse (stYieldBrLength size hse out) := by
  have hdone : hse.state ≠ .done := by simp [hstate]
  obtain ⟨hready,hindexed,hlen,hcount⟩ : Ready hse ∧ Indexed hse ∧ 0 < hse.matchLength ∧
      hse.outgoingBitsCount ≤ 13 := by simpa [Shaped,hstate] using h.shaped
  have hliteral : hse.hasLiteral ≠ true := fun htrue => by
    have hcases := h.hasLiteral htrue
    simp [hstate] at hcases
  have hwithin := h.within
  rw [stYieldBrLength]
  by_cases htake : canTakeByte size out
  · obtain ⟨bits,s',out',heq,hbits,hfield,hpush⟩ := pushOutgoingBits_pushes hse out
    rw [if_pos htake,heq]
    by_cases hany : 0 < bits.length
    · simp only [hany,if_true]
      refine ⟨⟨q,ts,h.pushed hdone hpush rfl (by simp) ?_ (fun htrue => absurd htrue hliteral) ?_⟩,
        h.room hdone hpush (by omega) htake,Or.inl ?_⟩
      · simp only [toCome,hstate]
        exact hfield.symm
      · exact ⟨hready,hindexed,hlen,by show hse.outgoingBitsCount-bits.length ≤ 13; omega⟩
      · simp only [measure,next,hstate]
        omega
    · have hzero : hse.outgoingBitsCount = 0 := by omega
      simp only [hany,if_false]
      refine ⟨⟨q,ts,h.pushed hdone hpush rfl (by simp) ?_ (fun htrue => absurd htrue hliteral) ?_⟩,
        h.room hdone hpush (by omega) htake,Or.inl ?_⟩
      · simp only [toCome,hstate]
        rw [← hfield,List.length_eq_zero_iff.mp (Nat.eq_zero_of_not_pos hany),hzero]
        simp [bitsOf]
      · exact ⟨hready,hindexed,rfl⟩
      · simp only [measure,next,hstate]
        omega
  · rw [if_neg htake]
    exact h.stays hstate hroom htake

theorem Inv.turned (h : Inv w l q taken data fin given ts hse) (hdone : hse.state ≠ .done)
    (hnone : toCome hse = []) {index : ℕ → ℤ} {msi len pos : ℕ} {hasLiteral : Bool}
    {state : HseState} {ts' : List Token} (hstate : state ≠ .done)
    (htold : Told w l data (ts ++ ts') (q+(msi+len))) (hwithin : msi+len ≤ hse.inputSize)
    (hcome : toCome { hse with
      searchIndex := index, matchScanIndex := msi, matchLength := len, matchPos := pos,
      hasLiteral := hasLiteral, state := state } = ts'.flatMap (Token.bits w l))
    (hliteral : hasLiteral = true → state = .yieldTagBit ∧ len = 0 ∨ state = .yieldLiteral)
    (hshaped : Shaped { hse with
      searchIndex := index, matchScanIndex := msi, matchLength := len, matchPos := pos,
      hasLiteral := hasLiteral, state := state }) :
    Inv w l q taken data fin given (ts ++ ts') { hse with
      searchIndex := index, matchScanIndex := msi, matchLength := len, matchPos := pos,
      hasLiteral := hasLiteral, state := state } where
  stored := ⟨h.stored.windowSz2,h.stored.lookaheadSz2,h.stored.inputSize,h.stored.length,
    h.stored.known⟩
  told := htold
  within := hwithin
  isFinishing := h.isFinishing
  taken := h.taken
  hasLiteral := hliteral
  onFinalLiteral := h.onFinalLiteral
  gave := by
    have hgave := h.gave
    rw [Gave,if_neg hdone,hnone] at hgave
    obtain ⟨part,hpart,hbits⟩ := hgave
    rw [List.append_nil] at hbits
    rw [Gave,if_neg hstate]
    exact ⟨part,hpart,by rw [hcome,hbits,List.flatMap_append]⟩
  shaped := hshaped

theorem advances_filled (h : Inv w l q taken data fin (given ++ out) ts hse) (hstate : hse.state = .filled)
    (hroom : out.length ≤ size) :
    Advances w l taken data fin given size hse (silent out (doIndexing hse,.search)) := by
  have hdone : hse.state ≠ .done := by simp [hstate]
  obtain ⟨hready,hlen⟩ : Ready hse ∧ hse.matchLength = 0 := by
    simpa [Shaped,hstate] using h.shaped
  have hliteral : hse.hasLiteral ≠ true := fun htrue => by
    have hcases := h.hasLiteral htrue
    simp [hstate] at hcases
  refine ⟨⟨q,ts ++ [],h.turned hdone (by simp [toCome,hstate]) (by simp [silent]) ?_ h.within rfl
    (fun htrue => absurd htrue hliteral) ?_⟩,hroom,Or.inl ?_⟩
  · rw [List.append_nil]
    exact h.told
  · exact ⟨hready,doIndexing_indexed hse,hlen⟩
  · simp [measure,next,silent,hstate,doIndexing]

/-- Where the search starts, bytes of the file are known, and not further back than a window. -/
theorem start_known (hs : Sized w l) (h : Stored w l q data hse) {msi start : ℕ}
    (hstart : start =
      if hse.backlogIsFilled then 2^w+msi-2^w+1
      else if hse.backlogIsPartial then if 2^w+msi-2^w+1 < 2^l then 2^l else 2^w+msi-2^w+1
      else 2^w) (hmsi : msi ≤ 2^w) :
    firstKnown hse ≤ start ∧ 2^w+msi-start ≤ 2^w := by
  have htwice := hs.twice
  have hw := Nat.two_pow_pos w
  have hl := Nat.two_pow_pos l
  rw [firstKnown,inputOffset_eq h.windowSz2,lookaheadSize_eq h.lookaheadSz2,hstart,
    Nat.add_sub_cancel_left]
  split_ifs <;> omega

theorem advances_search (hs : Sized w l) (h : Inv w l q taken data fin (given ++ out) ts hse)
    (hstate : hse.state = .search) (hroom : out.length ≤ size) :
    ∃ r, (stStepSearch hse).map (silent out) = some r ∧
      Advances w l taken data fin given size hse r := by
  have hdone : hse.state ≠ .done := by simp [hstate]
  obtain ⟨hready,hindexed,hlen⟩ : Ready hse ∧ Indexed hse ∧ hse.matchLength = 0 := by
    simpa [Shaped,hstate] using h.shaped
  have hliteral : hse.hasLiteral ≠ true := fun htrue => by
    have hcases := h.hasLiteral htrue
    simp [hstate] at hcases
  have hnone : toCome hse = [] := by simp [toCome,hstate]
  have hbuf := inputBufferSize_eq h.stored.windowSz2
  have hoff := inputOffset_eq h.stored.windowSz2
  have hlook := lookaheadSize_eq h.stored.lookaheadSz2
  have hsize := h.stored.inputSize
  have hlength := h.stored.length
  have hwithin := h.within
  have htold := h.told
  rw [hlen,Nat.add_zero] at htold hwithin
  simp only [stStepSearch,hbuf,hoff,hlook]
  by_cases hend : hse.inputSize ≤ hse.matchScanIndex+(if hse.isFinishing then 0 else 2^l)
  · rw [if_pos hend]
    refine ⟨_,rfl,⟨q,ts ++ [],h.turned hdone hnone (by simp [silent]) ?_ h.within rfl
      (fun htrue => absurd htrue hliteral) ?_⟩,hroom,Or.inl ?_⟩
    · rw [List.append_nil]
      exact h.told
    · refine ⟨hlen,fun (hfin : hse.isFinishing = true) => ?_,
        fun (hfin : hse.isFinishing = false) => ?_⟩
      · rw [if_pos hfin] at hend
        exact Nat.le_antisymm hwithin hend
      · have hnot : ¬hse.isFinishing = true := by simp [hfin]
        have hfull := hready.resolve_left hnot
        rw [if_neg hnot,← hlook] at hend
        exact ⟨hfull,hfull ▸ hend⟩
    · simp [measure,next,silent,hstate]
  · rw [if_neg hend]
    have hlt : hse.matchScanIndex < hse.inputSize := by omega
    obtain ⟨maxlen,hmaxlen⟩ : ∃ maxlen, maxlen =
        if hse.inputSize-hse.matchScanIndex < 2^l then hse.inputSize-hse.matchScanIndex else 2^l :=
      ⟨_,rfl⟩
    have hmax : 0 < maxlen ∧ maxlen ≤ 2^l ∧ hse.matchScanIndex+maxlen ≤ hse.inputSize := by
      have hpow := Nat.two_pow_pos l
      rw [hmaxlen]
      split_ifs
      · exact ⟨by omega,by omega,by omega⟩
      · exact ⟨hpow,Nat.le_refl _,by omega⟩
    rw [← hmaxlen]
    obtain ⟨start,hstart⟩ : ∃ start, start =
        if hse.backlogIsFilled then 2^w+hse.matchScanIndex-2^w+1
        else if hse.backlogIsPartial then
          if 2^w+hse.matchScanIndex-2^w+1 < 2^l then 2^l else 2^w+hse.matchScanIndex-2^w+1
        else 2^w := ⟨_,rfl⟩
    obtain ⟨hfirst,hfar⟩ := start_known hs h.stored hstart (by omega)
    rw [← hstart]
    obtain ⟨r,hfind,hspec⟩ := findLongestMatch_spec hindexed
      (by omega : 2^w+hse.matchScanIndex < getInputOffset hse+hse.inputSize) hmax.1
    rw [hfind]
    cases r with
    | none =>
      have hinput := h.stored.input hs.lookahead hlt
      refine ⟨_,rfl,⟨q,_,h.turned hdone hnone (by simp [silent]) (htold.literal (by omega)) hlt ?_
        (fun _ => Or.inl ⟨rfl,rfl⟩) ⟨hready,hindexed⟩⟩,hroom,Or.inl ?_⟩
      · show Token.bits hse.windowSz2 hse.lookaheadSz2
          (.literal (hse.buffer (getInputOffset hse+hse.matchScanIndex))) = _
        rw [hoff,hinput,h.stored.windowSz2,h.stored.lookaheadSz2,List.flatMap_singleton]
      · simp only [measure,next,silent,hstate,if_true]
        omega
    | some found =>
      obtain ⟨distance,len⟩ := found
      obtain ⟨hlong,hle,index,hdistance,hindex,hneedle,hagree⟩ := hspec distance len rfl
      obtain ⟨hback,hsame⟩ := h.stored.repeats hs.lookahead (by omega) hneedle (by omega) hagree
        (by omega)
      subst hdistance
      have hbackref := htold.backref hs ⟨by omega,by omega,by omega,by omega⟩ hlong (by omega) hback
        hsame
      rw [Nat.add_assoc] at hbackref
      have hnext : hse.matchScanIndex+len ≤ hse.inputSize := by omega
      refine ⟨_,rfl,⟨q,_,h.turned hdone hnone (by simp [silent]) hbackref hnext ?_
        (fun htrue => absurd htrue hliteral) ⟨hready,hindexed⟩⟩,hroom,Or.inl ?_⟩
      · show (if len = 0 then _ else
          Token.bits hse.windowSz2 hse.lookaheadSz2
            (.backref (2^w+hse.matchScanIndex-index) len)) = _
        rw [if_neg (by omega),h.stored.windowSz2,h.stored.lookaheadSz2,List.flatMap_singleton]
      · simp only [measure,next,silent,hstate,show len ≠ 0 by omega,if_false]
        omega

theorem advances_saveBacklog (hs : Sized w l) (h : Inv w l q taken data fin (given ++ out) ts hse)
    (hstate : hse.state = .saveBacklog) (hroom : out.length ≤ size) :
    Advances w l taken data fin given size hse (silent out (stSaveBacklog hse)) := by
  have hdone : hse.state ≠ .done := by simp [hstate]
  obtain ⟨hlen,hend,hfull⟩ : hse.matchLength = 0 ∧
      (hse.isFinishing = true → hse.matchScanIndex = hse.inputSize) ∧
      (hse.isFinishing = false → hse.inputSize = getInputBufferSize hse ∧
        getInputBufferSize hse ≤ hse.matchScanIndex+getLookaheadSize hse) := by
    simpa [Shaped,hstate] using h.shaped
  have hliteral : hse.hasLiteral ≠ true := fun htrue => by
    have hcases := h.hasLiteral htrue
    simp [hstate] at hcases
  have hnone : toCome hse = [] := by simp [toCome,hstate]
  have hwithin := h.within
  rw [stSaveBacklog]
  cases hfin : hse.isFinishing with
  | true =>
    rw [if_pos rfl,if_neg hliteral]
    refine ⟨⟨q,ts ++ [],h.turned hdone hnone (by simp [silent]) ?_ h.within rfl
      (fun htrue => absurd htrue hliteral) ⟨hfin,hlen,hend hfin⟩⟩,hroom,Or.inl ?_⟩
    · rw [List.append_nil]
      exact h.told
    · simp only [measure,next,silent,hstate]
      omega
  | false =>
    obtain ⟨hinput,hfar⟩ := hfull hfin
    have hbuf := inputBufferSize_eq h.stored.windowSz2
    have hpos := Nat.two_pow_pos l
    have htwice := hs.twice
    rw [hbuf,lookaheadSize_eq h.stored.lookaheadSz2] at hfar
    rw [hbuf] at hinput
    have hstored := h.stored.backlog hs hinput (by omega) hfar .notFull
    rw [if_neg (by decide)]
    refine ⟨⟨q+hse.matchScanIndex,ts,?_⟩,hroom,Or.inl ?_⟩
    · have hshift : 2^w-(2^w-hse.matchScanIndex) = hse.matchScanIndex := by omega
      rw [saveBacklog_eq,hbuf,hshift] at hstored
      simp only [silent,next]
      rw [saveBacklog_eq,hbuf,hshift]
      refine ⟨hstored,?_,?_,h.isFinishing,?_,fun htrue => absurd htrue hliteral,
        h.onFinalLiteral,?_,hfin,rfl,hlen,?_⟩
      · have htold := h.told
        rw [hlen,Nat.add_zero] at htold
        show Told w l data ts (q+hse.matchScanIndex+(0+hse.matchLength))
        rw [hlen]
        exact htold
      · show 0+hse.matchLength ≤ _
        rw [hlen]
        exact Nat.zero_le _
      · have htaken := h.taken
        show q+hse.matchScanIndex+(hse.inputSize-hse.matchScanIndex) = taken
        omega
      · have hgave := h.gave
        rw [Gave,if_neg hdone,hnone] at hgave
        exact hgave
      · show hse.inputSize-hse.matchScanIndex < getInputBufferSize hse
        omega
    · simp only [measure,next,silent,hstate]
      omega

theorem handle_advances (hs : Sized w l) (h : Inv w l q taken data fin (given ++ out) ts hse)
    (hstate : ¬(hse.state = .notFull ∨ hse.state = .flushBits ∨ hse.state = .done))
    (hroom : out.length ≤ size) :
    ∃ r, handle size hse out = some r ∧ Advances w l taken data fin given size hse r := by
  rw [handle]
  split
  case h_1 hfilled => exact ⟨_,rfl,advances_filled h hfilled hroom⟩
  case h_2 hsearch => exact advances_search hs h hsearch hroom
  case h_3 htag => exact ⟨_,rfl,advances_yieldTagBit hs h htag hroom⟩
  case h_4 hliteral => exact ⟨_,rfl,advances_yieldLiteral h hliteral hroom⟩
  case h_5 hindex => exact ⟨_,rfl,advances_yieldBrIndex hs h hindex hroom⟩
  case h_6 hlength => exact ⟨_,rfl,advances_yieldBrLength h hlength hroom⟩
  case h_7 hsave => exact ⟨_,rfl,advances_saveBacklog hs h hsave hroom⟩
  case h_8 hflush => exact absurd (Or.inr (Or.inl hflush)) hstate
  case h_9 hnot => exact absurd (Or.inl hnot) hstate
  case h_10 hdone => exact absurd (Or.inr (Or.inr hdone)) hstate

theorem flushed (h : Inv w l q taken data fin (given ++ out) ts hse) (hstate : hse.state = .flushBits)
    (hroom : out.length ≤ size) {r : Encoder × List UInt8 × HseState}
    (hr : stFlushBitBuffer size hse out = r) :
    Inv w l q taken data fin (given ++ r.2.1) ts (next r) ∧ r.2.1.length ≤ size ∧
      (r.2.1.length = size ∨ r.2.2 = .done) := by
  have hgave := h.gave
  rw [Gave,if_neg (by simp [hstate]),toCome,hstate] at hgave
  obtain ⟨part,hpart,hbits⟩ := hgave
  rw [List.append_nil] at hbits
  have hshaped : hse.isFinishing = true ∧ hse.matchLength = 0 ∧
      hse.matchScanIndex = hse.inputSize := by simpa [Shaped,hstate] using h.shaped
  have hliteral : hse.hasLiteral = true → HseState.done = .yieldTagBit ∧ hse.matchLength = 0 ∨
      HseState.done = .yieldLiteral := fun htrue => by
    have hcases := h.hasLiteral htrue
    simp [hstate] at hcases
  have hdone : ∀ given', Gave given' (ts.flatMap (Token.bits w l)) { hse with state := .done } →
      Inv w l q taken data fin given' ts { hse with state := .done } := fun given' hgave' =>
    ⟨⟨h.stored.windowSz2,h.stored.lookaheadSz2,h.stored.inputSize,h.stored.length,h.stored.known⟩,
      h.told,h.within,h.isFinishing,h.taken,hliteral,h.onFinalLiteral,hgave',hshaped⟩
  rw [stFlushBitBuffer] at hr
  split_ifs at hr with hindex htake
  · subst hr
    rw [hpart.nil hindex,List.append_nil] at hbits
    refine ⟨hdone _ ?_,hroom,Or.inr rfl⟩
    rw [Gave,if_pos rfl]
    exact ⟨[],by rw [hbits,List.append_nil],by decide⟩
  · subst hr
    refine ⟨hdone _ ?_,by rw [List.length_append]; exact htake,Or.inr rfl⟩
    have hfew := hpart.few
    have hlen : (part ++ bitsOf (8-part.length) 0).length = 8 := by
      rw [List.length_append,bitsOf_length]
      omega
    have hsome : part.length ≠ 0 := fun hzero => by
      have hmask := hpart.bitIndex
      rw [hzero] at hmask
      exact hindex hmask
    rw [Gave,if_pos rfl]
    refine ⟨bitsOf (8-part.length) 0,?_,by rw [bitsOf_length]; omega⟩
    rw [← List.append_assoc,byteBits_append,byteBits_value hlen (by
      rw [value_append,value_bitsOf,bitsOf_length,Nat.zero_mod,Nat.add_zero,hpart.currentByte]),
      ← List.append_assoc,hbits]
  · subst hr
    have hsame : next (hse,out,.flushBits) = hse := by rw [next,← hstate]
    exact ⟨hsame ▸ h,hroom,Or.inl (Nat.le_antisymm hroom (Nat.le_of_not_lt htake))⟩

/-- Where a poll ends when there is room left. -/
def resting (fin : Bool) : HseState := if fin then .done else .notFull

/-- What a poll or a loop of polls leaves behind. -/
structure Polled (w l taken : ℕ) (data : List UInt8) (fin : Bool) (given : List UInt8) (size : ℕ)
    (hse : Encoder) (out : List UInt8) : Prop where
  inv : ∃ q ts, Inv w l q taken data fin (given ++ out) ts hse
  room : out.length ≤ size
  resting : out.length = size ∨ hse.state = resting fin

theorem isFinishing_of (h : Inv w l q taken data fin given ts hse)
    (hstate : hse.state = .flushBits ∨ hse.state = .done) : fin = true := by
  have hshaped := h.shaped
  rcases hstate with hflush | hdone
  · simp only [Shaped,hflush] at hshaped
    exact h.isFinishing.symm.trans hshaped.1
  · simp only [Shaped,hdone] at hshaped
    exact h.isFinishing.symm.trans hshaped.1

theorem handle_last (h : Inv w l q taken data fin (given ++ out) ts hse)
    (hlast : hse.state = .notFull ∨ hse.state = .flushBits ∨ hse.state = .done)
    (hroom : out.length ≤ size) :
    ∃ r, handle size hse out = some r ∧
      Polled w l taken data fin given size (next r) r.2.1 := by
  rcases hlast with hnot | hflush | hdone
  · have hshaped := h.shaped
    simp only [Shaped,hnot] at hshaped
    have hfin : fin = false := h.isFinishing.symm.trans hshaped.1
    have hsame : next (hse,out,.notFull) = hse := by rw [next,← hnot]
    refine ⟨(hse,out,.notFull),by simp [handle,hnot],⟨q,ts,hsame ▸ h⟩,hroom,Or.inr ?_⟩
    rw [hfin]
    rfl
  · obtain ⟨hinv,hlen,hrest⟩ := flushed h hflush hroom rfl
    refine ⟨_,by simp [handle,hflush],⟨q,ts,hinv⟩,hlen,?_⟩
    rw [isFinishing_of h (Or.inl hflush)]
    exact hrest
  · have hsame : next (hse,out,.done) = hse := by rw [next,← hdone]
    refine ⟨(hse,out,.done),by simp [handle,hdone],⟨q,ts,hsame ▸ h⟩,hroom,Or.inr ?_⟩
    rw [isFinishing_of h (Or.inr hdone)]
    rfl

theorem pollLoop_spec (hs : Sized w l) (h : Inv w l q taken data fin (given ++ out) ts hse)
    (hroom : out.length ≤ size) {fuel : ℕ} (hfuel : measure hse < fuel) :
    ∃ r, pollLoop size fuel hse out = some r ∧ Polled w l taken data fin given size r.1 r.2.1 ∧
      (r.2.2 = .more → r.2.1.length = size) := by
  induction fuel generalizing q ts hse out with
  | zero => exact absurd hfuel (Nat.not_lt_zero _)
  | succ fuel ih =>
    by_cases hlast : hse.state = .notFull ∨ hse.state = .flushBits ∨ hse.state = .done
    · obtain ⟨r,hr,hpolled⟩ := handle_last h hlast hroom
      refine ⟨(next r,r.2.1,.empty),?_,hpolled,by simp⟩
      simp [pollLoop,hr,hlast,next]
    · obtain ⟨r,hr,⟨q',ts',hinv⟩,hlen,hcloser⟩ := handle_advances hs h hlast hroom
      by_cases hmore : r.2.2 = hse.state ∧ r.2.1.length = size
      · refine ⟨(next r,r.2.1,.more),?_,⟨⟨q',ts',hinv⟩,hlen,Or.inl hmore.2⟩,fun _ => hmore.2⟩
        rw [pollLoop,hr]
        simp only [Option.bind_eq_bind,Option.bind_some,if_neg hlast,if_pos hmore,next]
      · have hless := hcloser.resolve_right hmore
        obtain ⟨r',hr',hspec⟩ := ih hinv hlen (by omega)
        refine ⟨r',?_,hspec⟩
        rw [pollLoop,hr]
        simp only [Option.bind_eq_bind,Option.bind_some,if_neg hlast,if_neg hmore]
        exact hr'

theorem measure_lt (h : Inv w l q taken data fin given ts hse) : measure hse < pollBound hse := by
  have hshaped := h.shaped
  rw [measure,pollBound]
  split
  case h_6 hindex =>
    simp only [Shaped,hindex] at hshaped
    omega
  case h_7 hlength =>
    simp only [Shaped,hlength] at hshaped
    omega
  case h_4 => split_ifs <;> omega
  all_goals omega

theorem pollAll_spec (hs : Sized w l) (h : Inv w l q taken data fin given ts hse) (size : ℕ) :
    ∃ r, pollAll 2 hse size = some r ∧ Polled w l taken data fin given size r.1 r.2 := by
  by_cases hzero : size = 0
  · refine ⟨(hse,[]),by rw [pollAll,if_pos hzero],⟨q,ts,?_⟩,Nat.zero_le _,Or.inl hzero.symm⟩
    rw [List.append_nil]
    exact h
  · have hstart : Inv w l q taken data fin (given ++ []) ts hse := by
      rw [List.append_nil]
      exact h
    obtain ⟨r,hr,hpolled,hmore⟩ := pollLoop_spec hs hstart (Nat.zero_le size) (measure_lt h)
    by_cases hres : r.2.2 = .more
    · refine ⟨(r.1,r.2.1),?_,hpolled⟩
      rw [pollAll,if_neg hzero,heatshrinkEncoderPoll,hr]
      simp [hres,hmore hres,pollAll]
    · refine ⟨(r.1,r.2.1),?_,hpolled⟩
      rw [pollAll,if_neg hzero,heatshrinkEncoderPoll,hr]
      simp [hres]

/-- The encoder with `n` more bytes of the file, ready to be searched. -/
def sunk (hse : Encoder) (w taken n : ℕ) (data : List UInt8) (fin : Bool) : Encoder := { hse with
  buffer := store hse.buffer (2^w+hse.inputSize) ((data.drop taken).take n)
  inputSize := hse.inputSize+n
  isFinishing := fin
  state := .filled }

theorem Inv.sunk (h : Inv w l q taken data false given ts hse) (hstate : hse.state = .notFull)
    (hl : l < w) {n : ℕ} (hn : hse.inputSize+n ≤ 2^w) (htaken : taken+n ≤ data.length)
    (hready : fin = true ∨ hse.inputSize+n = 2^w) :
    Inv w l q (taken+n) data fin given ts (sunk hse w taken n data fin) where
  stored := by
    have hfirst := firstKnown_le h.stored hl
    have hq := h.taken
    refine ⟨h.stored.windowSz2,h.stored.lookaheadSz2,hn,?_,fun i hi hlt => ?_⟩
    · show q+(hse.inputSize+n) ≤ data.length
      omega
    · replace hi : firstKnown hse ≤ i := hi
      replace hlt : i < 2^w+(hse.inputSize+n) := hlt
      show 2^w ≤ q+i ∧ store hse.buffer (2^w+hse.inputSize) ((data.drop taken).take n) i = _
      by_cases hold : i < 2^w+hse.inputSize
      · rw [store_out (Or.inl hold)]
        exact h.stored.known i hi hold
      · obtain ⟨k,rfl⟩ : ∃ k, i = 2^w+hse.inputSize+k := ⟨i-(2^w+hse.inputSize),by omega⟩
        have hk : k < ((data.drop taken).take n).length := by
          rw [List.length_take,List.length_drop]
          omega
        refine ⟨by omega,?_⟩
        rw [store_in hk,List.getElem_take,List.getElem_drop,← List.getD_eq_getElem _ 0 (by omega)]
        congr 1
        omega
  told := h.told
  within := Nat.le_trans h.within (Nat.le_add_right _ _)
  isFinishing := rfl
  taken := by
    have hq := h.taken
    show q+(hse.inputSize+n) = taken+n
    omega
  hasLiteral htrue := by
    have hcases := h.hasLiteral htrue
    simp [hstate] at hcases
  onFinalLiteral := h.onFinalLiteral
  gave := by
    have hgave := h.gave
    rw [Gave,if_neg (by simp [hstate]),toCome,hstate] at hgave
    rw [Gave,if_neg]
    · exact hgave
    · simp [HeatshrinkEncoder.sunk]
  shaped := by
    have hshaped := h.shaped
    simp only [Shaped,hstate] at hshaped
    refine ⟨hready.imp id fun hfull => ?_,hshaped.2.2.1⟩
    show hse.inputSize+n = getInputBufferSize hse
    rw [hfull,inputBufferSize_eq h.stored.windowSz2]

/-- `heatshrink_encoder_sink` of what is left of the file, and `heatshrink_encoder_finish` at the end
of it. -/
theorem sink_spec (h : Inv w l q taken data false given ts hse) (hstate : hse.state = .notFull)
    (hl : l < w) (hmore : taken < data.length) :
    ∃ hse' n, heatshrinkEncoderSink hse (data.drop taken) = some (hse',n) ∧ 0 < n ∧
      taken+n ≤ data.length ∧
      Inv w l q (taken+n) data (decide ((data.drop taken).drop n = [])) given ts
        (if (data.drop taken).drop n = [] then heatshrinkEncoderFinish hse' else hse') := by
  have hfin := h.isFinishing
  have hbuf := inputBufferSize_eq h.stored.windowSz2
  have hfree : hse.inputSize < 2^w := by
    have hshaped := h.shaped
    simp only [Shaped,hstate] at hshaped
    rw [← hbuf]
    exact hshaped.2.2.2
  have hlen : (data.drop taken).length = data.length-taken := List.length_drop
  obtain ⟨n,hn⟩ : ∃ n, n = min (2^w-hse.inputSize) (data.length-taken) := ⟨_,rfl⟩
  have hnil : (data.drop taken).drop n = [] ↔ data.length-taken ≤ n := by
    rw [List.drop_eq_nil_iff,hlen]
  have hsunk : Inv w l q (taken+n) data (decide ((data.drop taken).drop n = [])) given ts
      (sunk hse w taken n data (decide ((data.drop taken).drop n = []))) :=
    h.sunk hstate hl (by omega) (by omega) (by rw [decide_eq_true_iff,hnil]; omega)
  refine ⟨{ hse with
      buffer := store hse.buffer (2^w+hse.inputSize) ((data.drop taken).take n)
      inputSize := hse.inputSize+n
      state := if n = 2^w-hse.inputSize then .filled else .notFull },n,?_,by omega,by omega,?_⟩
  · simp only [heatshrinkEncoderSink,hfin,hstate,hbuf,hlen,← hn,getInputOffset]
    split_ifs <;> simp_all
  · by_cases hlast : (data.drop taken).drop n = []
    · rw [if_pos hlast,heatshrinkEncoderFinish]
      simp only [hlast,decide_true] at hsunk
      split_ifs at * <;> simp_all [sunk]
    · have hfull : n = 2^w-hse.inputSize := by
        rw [hnil] at hlast
        omega
      rw [if_neg hlast,if_pos hfull]
      simp only [hlast,decide_false,sunk] at hsunk ⊢
      rw [hfin]
      exact hsunk

/-- The bytes given out while tokens are to come, at most nine bits for a byte of the file. -/
theorem given_le (h : Inv w l q taken data fin given ts hse) (hdone : hse.state ≠ .done) :
    8*given.length ≤ 9*data.length := by
  have hgave := h.gave
  rw [Gave,if_neg hdone] at hgave
  obtain ⟨part,-,hbits⟩ := hgave
  have hlen := congrArg List.length hbits
  have hshort := h.told.short
  have hwithin := h.told.within
  rw [List.length_append,List.length_append,byteBits_length] at hlen
  omega

theorem decoded (hs : Sized w l) (h : Inv w l q data.length data fin given ts hse)
    (hdone : hse.state = .done) : decode w l [] (byteBits given) = data := by
  have hgave := h.gave
  have hshaped := h.shaped
  rw [Gave,if_pos hdone] at hgave
  simp only [Shaped,hdone] at hshaped
  obtain ⟨pad,hbits,hpad⟩ := hgave
  rw [hbits,decode_tokens [] h.told.fits hpad hs.token,h.told.text,hshaped.2.1,hshaped.2.2,
    Nat.add_zero,h.taken,List.take_length]

/-- The loop of `compressHeatshrink` with room for twice the file less a byte. -/
theorem compressLoop_spec (hs : Sized w l) (h : Inv w l q taken data false given ts hse)
    (hstate : hse.state = .notFull) (hmore : taken < data.length) {fuel : ℕ}
    (hfuel : data.length-taken < fuel) (hsize : given.length+size+1 = 2*data.length) :
    ∃ out, compressLoop fuel hse (data.drop taken) size = some out ∧ out.length ≤ size ∧
      (out.length = size ∨ decode w l [] (byteBits (given ++ out)) = data) := by
  induction fuel generalizing q taken given ts hse size with
  | zero => exact absurd hfuel (Nat.not_lt_zero _)
  | succ fuel ih =>
    obtain ⟨hse',n,hsink,hpos,hle,hinv⟩ := sink_spec h hstate hs.lookahead hmore
    obtain ⟨r,hpoll,⟨q',ts',hinv'⟩,hroom,hrest⟩ := pollAll_spec hs hinv size
    have hne : data.drop taken ≠ [] := by
      rw [Ne,List.drop_eq_nil_iff]
      omega
    rw [compressLoop]
    simp only [hne,if_false,hsink,Option.map_some,Option.bind_eq_bind,Option.bind_some,hpoll]
    by_cases hlast : (data.drop taken).drop n = []
    · rw [if_pos hlast]
      refine ⟨r.2,rfl,hroom,hrest.imp id fun hdone => ?_⟩
      have hall : taken+n = data.length := by
        rw [List.drop_drop,List.drop_eq_nil_iff] at hlast
        omega
      rw [hall] at hinv'
      rw [resting,if_pos (decide_eq_true hlast)] at hdone
      exact decoded hs hinv' hdone
    · rw [if_neg hlast]
      rw [decide_eq_false hlast] at hinv' hrest
      have hnot : r.1.state ≠ .done := fun hdone => by
        have hfin := isFinishing_of hinv' (Or.inr hdone)
        exact absurd hfin (by decide)
      -- less than all the room is used up as long as there is more of the file
      have hbound := given_le hinv' hnot
      rw [List.length_append] at hbound
      rw [List.drop_drop,List.drop_eq_nil_iff] at hlast
      have hstate' := hrest.resolve_left (by omega)
      have hsize' : (given ++ r.2).length+(size-r.2.length)+1 = 2*data.length := by
        rw [List.length_append]
        omega
      obtain ⟨out,hout,hlen,hspec⟩ := ih hinv' hstate' (by omega) (by omega) hsize'
      rw [List.drop_drop,hout]
      refine ⟨r.2 ++ out,rfl,by rw [List.length_append]; omega,?_⟩
      rw [← List.append_assoc]
      exact hspec.imp (fun hfull => by rw [List.length_append]; omega) id

theorem reset_inv (w l : ℕ) (data : List UInt8) :
    Inv w l 0 0 data false [] [] (heatshrinkEncoderReset w l) where
  stored := by
    refine ⟨rfl,rfl,Nat.zero_le _,Nat.zero_le _,fun i hi hlt => ?_⟩
    have hfirst : firstKnown (heatshrinkEncoderReset w l) = 2^w := inputOffset_eq rfl
    rw [hfirst] at hi
    exact absurd hlt (Nat.not_lt_of_le hi)
  told := ⟨rfl,fun _ ht => absurd ht List.not_mem_nil,Nat.zero_le _,Nat.zero_le _⟩
  within := Nat.le_refl _
  isFinishing := rfl
  taken := rfl
  hasLiteral htrue := absurd htrue Bool.false_ne_true
  onFinalLiteral := rfl
  gave := ⟨[],⟨by decide,rfl,rfl⟩,rfl⟩
  shaped := by
    refine ⟨rfl,rfl,rfl,?_⟩
    rw [inputBufferSize_eq (rfl : (heatshrinkEncoderReset w l).windowSz2 = w)]
    exact Nat.two_pow_pos w

def levelIndex (level : ℤ) : ℕ := (((if level = -1 then 8 else level)-1)/2).toNat

theorem level_sized {level : ℤ} (h : level = -1 ∨ 1 ≤ level ∧ level ≤ 9) :
    Sized (windowSizes.getD (levelIndex level) 0) (lookaheadSizes.getD (levelIndex level) 0) := by
  have hall : ∀ i < 5, windowSizes.getD i 0 ≤ 13 ∧ 2 ≤ lookaheadSizes.getD i 0 ∧
      lookaheadSizes.getD i 0 < windowSizes.getD i 0 ∧
      7 ≤ windowSizes.getD i 0+lookaheadSizes.getD i 0 := by decide
  have hlt : levelIndex level < 5 := by
    rw [levelIndex]
    split_ifs <;> omega
  obtain ⟨hw,htwo,hl,hwl⟩ := hall _ hlt
  exact ⟨hw,htwo,hl,hwl⟩

/-- `compressHeatshrink` of every file at every level, within twice the file. What it gives out is
either all of that, and then the file is stored as it is, or is decoded to the file. -/
theorem compressHeatshrink_spec {data : List UInt8} {level : ℤ} (hdata : data ≠ [])
    (hlevel : level = -1 ∨ 1 ≤ level ∧ level ≤ 9) :
    ∃ w l out, compressHeatshrink data (2*data.length) level =
        some (UInt8.ofNat ((w <<< 4) ||| l)::out) ∧ Sized w l ∧
      out.length+1 ≤ 2*data.length ∧
      (out.length+1 ≤ data.length → decode w l [] (byteBits out) = data) := by
  have hpos := List.length_pos_of_ne_nil hdata
  have hs := level_sized hlevel
  obtain ⟨out,hout,hroom,hspec⟩ := compressLoop_spec hs (reset_inv _ _ data) rfl hpos
    (by omega : data.length-0 < data.length+1) (by rw [List.length_nil]; omega :
      ([] : List UInt8).length+(2*data.length-1)+1 = 2*data.length)
  rw [List.drop_zero] at hout
  refine ⟨_,_,out,?_,hs,by omega,fun hshort => hspec.resolve_left (by omega)⟩
  rw [compressHeatshrink]
  simp only [levelIndex] at hout
  rw [Option.bind_eq_bind,hout]
  rfl

theorem parm_sizes {w l : ℕ} (hs : Sized w l) :
    ((UInt8.ofNat ((w <<< 4) ||| l) >>> 4) &&& 0xf).toNat = w ∧
      (UInt8.ofNat ((w <<< 4) ||| l) &&& 0xf).toNat = l := by
  have hall : ∀ w < 14, ∀ l < 14, ((UInt8.ofNat ((w <<< 4) ||| l) >>> 4) &&& 0xf).toNat = w ∧
      (UInt8.ofNat ((w <<< 4) ||| l) &&& 0xf).toNat = l := by decide
  have hw := hs.window
  have hl := hs.lookahead
  exact hall w (by omega) l (by omega)

open HeatshrinkDecoder in
/-- A decoder for the sizes, which is what the first byte of a compressed file is for. -/
theorem decoder_good {w l : ℕ} (hs : Sized w l) :
    ∃ hsd, heatshrinkDecoderAlloc 16 w l = some hsd ∧ HeatshrinkDecoder.Sized w l ∧
      Run.Good w l ⟨hsd,[],[]⟩ := by
  have hw := hs.window
  have hl := hs.lookahead
  have htwo := hs.two_le
  have htoken := hs.token
  have halloc : heatshrinkDecoderAlloc 16 w l = some (heatshrinkDecoderReset 16 w l) := by
    rw [heatshrinkDecoderAlloc,if_neg (by omega)]
  exact ⟨_,halloc,alloc_good halloc⟩

open HeatshrinkDecoder in
/-- Every file comes through compression and decompression, at every level: the image tool stores
within twice the file, and unless that is more than the file, the decoder for the sizes in the first
byte gives the file back. In whatever pieces the compressed bytes come and the output is taken, what
is given out begins the file, and a poll that leaves room completes it. The sizes are of type `int`. -/
theorem compressed_read_back (data : List UInt8) (level : ℤ) (hdata : data ≠ [])
    (_hsize : 2*data.length < 2^31) (hlevel : level = -1 ∨ 1 ≤ level ∧ level ≤ 9) :
    ∃ parm out, compressHeatshrink data (2*data.length) level = some (parm::out) ∧
      out.length+1 ≤ 2*data.length ∧
      (out.length+1 ≤ data.length → ∃ hsd,
        heatshrinkDecoderAlloc 16 ((parm >>> 4) &&& 0xf).toNat (parm &&& 0xf).toNat = some hsd ∧
        ∀ ops, (∀ op ∈ ops, op ≠ Op.sink []) →
          ∃ s, Run.steps ⟨hsd,[],[]⟩ ops = some s ∧ (s.taken <+: out → s.given <+: data) ∧
            (s.taken = out → ∀ size, ∃ hsd' new res,
              heatshrinkDecoderPoll s.hsd size = some (hsd',new,res) ∧ new.length ≤ size ∧
                (new.length < size → s.given ++ new = data))) := by
  obtain ⟨w,l,out,hout,hs,hroom,hdecode⟩ := compressHeatshrink_spec hdata hlevel
  obtain ⟨hwparm,hlparm⟩ := parm_sizes hs
  obtain ⟨hsd,halloc,hs',hgood⟩ := decoder_good hs
  refine ⟨_,out,hout,hroom,fun hshort => ⟨hsd,by rw [hwparm,hlparm]; exact halloc,fun ops hops => ?_⟩⟩
  obtain ⟨s,hsteps,h⟩ := hgood.steps hs' hops
  refine ⟨s,hsteps,?_,fun htaken size => ?_⟩
  · rintro ⟨rest,rfl⟩
    rw [← hdecode hshort,byteBits_append,h.decoded]
    exact List.prefix_append _ _
  · obtain ⟨hsd',new,res,hpoll,hle,hall⟩ := h.poll hs' hs.token size
    rw [htaken,hdecode hshort] at hall
    exact ⟨hsd',new,res,hpoll,hle,hall⟩

open HeatshrinkDecoder in
theorem compressed_read_back_sevens :
    ∃ parm out, compressHeatshrink [7,7,7,7,7,7] 12 (-1) = some (parm::out) ∧
      out.length+1 ≤ 12 ∧
      (out.length+1 ≤ 6 → ∃ hsd,
        heatshrinkDecoderAlloc 16 ((parm >>> 4) &&& 0xf).toNat (parm &&& 0xf).toNat = some hsd ∧
        ∀ ops, (∀ op ∈ ops, op ≠ Op.sink []) →
          ∃ s, Run.steps ⟨hsd,[],[]⟩ ops = some s ∧
            (s.taken <+: out → s.given <+: [7,7,7,7,7,7]) ∧
            (s.taken = out → ∀ size, ∃ hsd' new res,
              heatshrinkDecoderPoll s.hsd size = some (hsd',new,res) ∧ new.length ≤ size ∧
                (new.length < size → s.given ++ new = [7,7,7,7,7,7]))) :=
  compressed_read_back [7,7,7,7,7,7] (-1) (by decide) (by decide) (Or.inl rfl)

end HeatshrinkEncoder
end MeterLogger
