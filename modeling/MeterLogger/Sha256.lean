import Mathlib.Data.Fin.Basic
import Mathlib.Logic.Function.Basic
import Mathlib.Tactic.IntervalCases
import MeterLogger.BlockStream
import MeterLogger.Buffers

/-!
# SHA-256

The hash of `sha256.c`, which takes a text in pieces and keeps what is short of a block in the
context. Its transform expands a block in a ring of sixteen words, which lie over that same buffer.
The digest is the one that the recurrence of the message schedule and the padding of the text
describe, however the text is cut.
-/

namespace MeterLogger
namespace Sha256

open BlockStream Buffers

/-- `K256`. -/
def k256 : List UInt32 :=
  [0x428a2f98,0x71374491,0xb5c0fbcf,0xe9b5dba5,0x3956c25b,0x59f111f1,0x923f82a4,0xab1c5ed5,
   0xd807aa98,0x12835b01,0x243185be,0x550c7dc3,0x72be5d74,0x80deb1fe,0x9bdc06a7,0xc19bf174,
   0xe49b69c1,0xefbe4786,0x0fc19dc6,0x240ca1cc,0x2de92c6f,0x4a7484aa,0x5cb0a9dc,0x76f988da,
   0x983e5152,0xa831c66d,0xb00327c8,0xbf597fc7,0xc6e00bf3,0xd5a79147,0x06ca6351,0x14292967,
   0x27b70a85,0x2e1b2138,0x4d2c6dfc,0x53380d13,0x650a7354,0x766a0abb,0x81c2c92e,0x92722c85,
   0xa2bfe8a1,0xa81a664b,0xc24b8b70,0xc76c51a3,0xd192e819,0xd6990624,0xf40e3585,0x106aa070,
   0x19a4c116,0x1e376c08,0x2748774c,0x34b0bcb5,0x391c0cb3,0x4ed8aa4a,0x5b9cca4f,0x682e6ff3,
   0x748f82ee,0x78a5636f,0x84c87814,0x8cc70208,0x90befffa,0xa4506ceb,0xbef9a3f7,0xc67178f2]

/-- The registers `a` to `h`, and the eight words of the state. -/
structure Registers where
  a : UInt32
  b : UInt32
  c : UInt32
  d : UInt32
  e : UInt32
  f : UInt32
  g : UInt32
  h : UInt32

def sha256InitialHashValue : Registers :=
  ⟨0x6a09e667,0xbb67ae85,0x3c6ef372,0xa54ff53a,0x510e527f,0x9b05688c,0x1f83d9ab,0x5be0cd19⟩

structure Ctx where
  state : Registers
  bitcount : UInt64
  buffer : Buf

/-- `memcpy()` or `memset()` to the buffer. -/
def Ctx.fill (context : Ctx) (i : ℕ) (bytes : List UInt8) : Ctx :=
  { context with buffer := store context.buffer i bytes }

/-- `bitcount += n` -/
def Ctx.count (context : Ctx) (n : UInt64) : Ctx :=
  { context with bitcount := context.bitcount+n }

def reverse32 (w : UInt32) : UInt32 :=
  let tmp := (w >>> 16) ||| (w <<< 16)
  ((tmp &&& (0xff00ff00 : UInt32)) >>> 8) ||| ((tmp &&& (0x00ff00ff : UInt32)) <<< 8)

def reverse64 (w : UInt64) : UInt64 :=
  let tmp := (w >>> 32) ||| (w <<< 32)
  let tmp := ((tmp &&& (0xff00ff00ff00ff00 : UInt64)) >>> 8) |||
    ((tmp &&& (0x00ff00ff00ff00ff : UInt64)) <<< 8)
  ((tmp &&& (0xffff0000ffff0000 : UInt64)) >>> 16) |||
    ((tmp &&& (0x0000ffff0000ffff : UInt64)) <<< 16)

/-- The rotation `S32`. -/
def s32 (b x : UInt32) : UInt32 := (x >>> b) ||| (x <<< (32-b))

def ch (x y z : UInt32) : UInt32 := (x &&& y) ^^^ (~~~x &&& z)

def maj (x y z : UInt32) : UInt32 := (x &&& y) ^^^ (x &&& z) ^^^ (y &&& z)

/-- `Sigma0_256`. -/
def bigSigma0 (x : UInt32) : UInt32 := s32 2 x ^^^ s32 13 x ^^^ s32 22 x

/-- `Sigma1_256`. -/
def bigSigma1 (x : UInt32) : UInt32 := s32 6 x ^^^ s32 11 x ^^^ s32 25 x

/-- `sigma0_256`. -/
def sigma0 (x : UInt32) : UInt32 := s32 7 x ^^^ s32 18 x ^^^ (x >>> 3)

/-- `sigma1_256`. -/
def sigma1 (x : UInt32) : UInt32 := s32 17 x ^^^ s32 19 x ^^^ (x >>> 10)

def sha256Init : Ctx := ⟨sha256InitialHashValue,0,fun _ => 0⟩

/-- What both loops of the transform do with the registers in step `j`. -/
def Registers.step (r : Registers) (j : ℕ) (w : UInt32) : Registers :=
  let t₁ := r.h + bigSigma1 r.e + ch r.e r.f r.g + k256.getD j 0 + w
  let t₂ := bigSigma0 r.a + maj r.a r.b r.c
  ⟨t₁+t₂,r.a,r.b,r.c,r.d+t₁,r.e,r.f,r.g⟩

def Registers.add (s r : Registers) : Registers :=
  ⟨s.a+r.a,s.b+r.b,s.c+r.c,s.d+r.d,s.e+r.e,s.f+r.f,s.g+r.g,s.h+r.h⟩

/-- Word `j` of a block, its first byte on top. -/
def word (data : List UInt8) (j : ℕ) : UInt32 :=
  ((data.getD (4*j) 0).toUInt32 <<< 24) ||| ((data.getD (4*j+1) 0).toUInt32 <<< 16) |||
    ((data.getD (4*j+2) 0).toUInt32 <<< 8) ||| (data.getD (4*j+3) 0).toUInt32

/-- `W256`, whose indices are taken `& 0x0f`. -/
abbrev Words := Fin 16 → UInt32

def slot (j : ℕ) : Fin 16 := ⟨j%16,Nat.mod_lt _ (by decide)⟩

def Words.at (w : Words) (j : ℕ) : UInt32 := w (slot j)

def Words.put (w : Words) (j : ℕ) (x : UInt32) : Words := Function.update w (slot j) x

def readStep (data : List UInt8) (j : ℕ) (s : Words × Registers) : Words × Registers :=
  let w := s.1.put j (word data j)
  (w,s.2.step j (w.at j))

def expandStep (j : ℕ) (s : Words × Registers) : Words × Registers :=
  let s0 := sigma0 (s.1.at (j+1))
  let s1 := sigma1 (s.1.at (j+14))
  let w := s.1.put j (s.1.at j + (s1 + s.1.at (j+9) + s0))
  (w,s.2.step j (w.at j))

def firstSteps (data : List UInt8) : ℕ → Words × Registers → Words × Registers
  | 0, s => s
  | j+1, s => readStep data j (firstSteps data j s)

def furtherSteps : ℕ → Words × Registers → Words × Registers
  | 0, s => s
  | n+1, s => expandStep (16+n) (furtherSteps n s)

/-- The bytes of a word in memory, where the machine keeps the lowest one first. -/
def wordBytes (x : UInt32) : List UInt8 :=
  (List.range 4).map fun k => (x >>> UInt32.ofNat (8*k)).toUInt8

def longBytes (x : UInt64) : List UInt8 :=
  (List.range 8).map fun k => (x >>> UInt64.ofNat (8*k)).toUInt8

def bufferWords (b : Buf) : Words := fun i =>
  (b (4*i)).toUInt32 ||| ((b (4*i+1)).toUInt32 <<< 8) ||| ((b (4*i+2)).toUInt32 <<< 16) |||
    ((b (4*i+3)).toUInt32 <<< 24)

def allSteps (context : Ctx) (data : List UInt8) : Words × Registers :=
  furtherSteps 48 (firstSteps data 16 (bufferWords context.buffer,context.state))

/-- The transform; `data` may be the buffer, as word `j` is read before it is written over. -/
def sha256Transform (context : Ctx) (data : List UInt8) : Ctx :=
  let s := allSteps context data
  { context with
    state := context.state.add s.2
    buffer := store context.buffer 0 ((List.finRange 16).flatMap fun i => wordBytes (s.1 i)) }

/-- `while (len >= SHA256_BLOCK_LENGTH)`, with what is left of the data. -/
def wholeBlocks (context : Ctx) (data : List UInt8) : Ctx × List UInt8 :=
  if 64 ≤ data.length then
    wholeBlocks ((sha256Transform context (data.take 64)).count ((64 : UInt64) <<< 3))
      (data.drop 64)
  else (context,data)
termination_by data.length
decreasing_by rw [List.length_drop]; omega

/-- The loop over whole blocks, and the left-overs. -/
def updateAligned (context : Ctx) (data : List UInt8) : Ctx :=
  let s := wholeBlocks context data
  if 0 < s.2.length then (s.1.fill 0 s.2).count (UInt64.ofNat (s.2.length <<< 3)) else s.1

def usedspace (context : Ctx) : ℕ := ((context.bitcount >>> 3)%64).toNat

def sha256Update (context : Ctx) (data : List UInt8) : Ctx :=
  let used := usedspace context
  let freespace := 64-used
  if data.length = 0 then context
  else if 0 < used then
    if freespace ≤ data.length then
      let context := context.fill used (data.take freespace)
      let context := context.count (UInt64.ofNat (freespace <<< 3))
      updateAligned (sha256Transform context (load context.buffer 0 64)) (data.drop freespace)
    else (context.fill used data).count (UInt64.ofNat (data.length <<< 3))
  else updateAligned context data

/-- The context before the last transform, but for the bit count. -/
def lastBlock (context : Ctx) : Ctx :=
  let used := usedspace context
  if 0 < used then
    let context := context.fill used [0x80]
    if used+1 ≤ 56 then context.fill (used+1) (List.replicate (56-(used+1)) 0)
    else
      let context :=
        if used+1 < 64 then context.fill (used+1) (List.replicate (64-(used+1)) 0) else context
      (sha256Transform context (load context.buffer 0 64)).fill 0 (List.replicate 56 0)
  else (context.fill 0 (List.replicate 56 0)).fill 0 [0x80]

/-- The four bytes that a word of the state adds to the digest. -/
def digestBytes (x : UInt32) : List UInt8 :=
  let x := reverse32 x
  [((x >>> 0) &&& (0xff : UInt32)).toUInt8,((x >>> 8) &&& (0xff : UInt32)).toUInt8,
    ((x >>> 16) &&& (0xff : UInt32)).toUInt8,((x >>> 24) &&& (0xff : UInt32)).toUInt8]

def Registers.words (r : Registers) : List UInt32 := [r.a,r.b,r.c,r.d,r.e,r.f,r.g,r.h]

def sha256Final (context : Ctx) : Ctx × List UInt8 :=
  let bitcount := reverse64 context.bitcount
  let context := (lastBlock context).fill 56 (longBytes bitcount)
  let context := sha256Transform context (load context.buffer 0 64)
  (⟨⟨0,0,0,0,0,0,0,0⟩,0,fun _ => 0⟩,context.state.words.flatMap digestBytes)

def sha256Raw (data : List UInt8) : List UInt8 := (sha256Final (sha256Update sha256Init data)).2

def schedule (m : ℕ → UInt32) (t : ℕ) : UInt32 :=
  if t < 16 then m t
  else
    sigma1 (schedule m (t-2)) + schedule m (t-7) + sigma0 (schedule m (t-15)) + schedule m (t-16)
termination_by t

/-- The registers after `t` rounds. -/
def rounds (m : ℕ → UInt32) : ℕ → Registers → Registers
  | 0, r => r
  | t+1, r => (rounds m t r).step t (schedule m t)

def compress (s : Registers) (block : List UInt8) : Registers := s.add (rounds (word block) 64 s)

/-- What follows a text of `n` bytes: a bit, zeros, and the number of its bits in eight bytes. -/
def padding (n : ℕ) : List UInt8 :=
  0x80::(List.replicate ((119-n%64)%64) 0 ++ (longBytes (UInt64.ofNat (8*n))).reverse)

def digest (m : List UInt8) : List UInt8 :=
  (absorb 64 compress sha256InitialHashValue (m ++ padding m.length)).words.flatMap fun x =>
    (wordBytes x).reverse

theorem Words.at_put (w : Words) (j : ℕ) (x : UInt32) : (w.put j x).at j = x := by
  simp [Words.at,Words.put]

theorem Words.at_put_of_ne (w : Words) {j t : ℕ} (x : UInt32) (h : t%16 ≠ j%16) :
    (w.put j x).at t = w.at t :=
  Function.update_of_ne (fun heq => h (congrArg Fin.val heq)) _ _

theorem Words.at_add (w : Words) (j : ℕ) : w.at (16+j) = w.at j := by
  simp [Words.at,slot]

/-- The ring holds the last sixteen words of the schedule below `n`. -/
def Scheduled (m : ℕ → UInt32) (n : ℕ) (w : Words) : Prop :=
  ∀ t < n, n ≤ t+16 → w.at t = schedule m t

theorem Scheduled.put {m : ℕ → UInt32} {n : ℕ} {w : Words} (h : Scheduled m n w) :
    Scheduled m (n+1) (w.put n (schedule m n)) := by
  intro t ht hlow
  rcases Nat.lt_succ_iff_lt_or_eq.mp ht with hlt | rfl
  · rw [Words.at_put_of_ne _ _ (by omega)]
    exact h t hlt (by omega)
  · exact Words.at_put _ _ _

theorem schedule_low {m : ℕ → UInt32} {t : ℕ} (h : t < 16) : schedule m t = m t := by
  rw [schedule,if_pos h]

theorem schedule_add (m : ℕ → UInt32) (t : ℕ) :
    schedule m (16+t) = schedule m t +
      (sigma1 (schedule m (t+14)) + schedule m (t+9) + sigma0 (schedule m (t+1))) := by
  rw [schedule,if_neg (by omega),UInt32.add_comm,show 16+t-16 = t by omega,
    show 16+t-2 = t+14 by omega,show 16+t-7 = t+9 by omega,show 16+t-15 = t+1 by omega]

theorem firstSteps_spec (data : List UInt8) (w : Words) (r : Registers) {j : ℕ} (hj : j ≤ 16) :
    Scheduled (word data) j (firstSteps data j (w,r)).1 ∧
      (firstSteps data j (w,r)).2 = rounds (word data) j r := by
  induction j with
  | zero => exact ⟨fun t ht => absurd ht (Nat.not_lt_zero t),rfl⟩
  | succ j ih =>
    obtain ⟨hring,hregs⟩ := ih (by omega)
    have hword : word data j = schedule (word data) j := (schedule_low (by omega)).symm
    simp only [firstSteps,readStep,Words.at_put,hword,hregs]
    exact ⟨hring.put,rfl⟩

theorem furtherSteps_spec {m : ℕ → UInt32} {r₀ : Registers} {s : Words × Registers}
    (hw : Scheduled m 16 s.1) (hr : s.2 = rounds m 16 r₀) (n : ℕ) :
    Scheduled m (16+n) (furtherSteps n s).1 ∧ (furtherSteps n s).2 = rounds m (16+n) r₀ := by
  induction n with
  | zero => exact ⟨hw,hr⟩
  | succ n ih =>
    obtain ⟨hring,hregs⟩ := ih
    have hold : ∀ k < 16, (furtherSteps n s).1.at (16+n+k) = schedule m (n+k) := by
      intro k hk
      rw [Nat.add_assoc,Words.at_add]
      exact hring _ (by omega) (by omega)
    have hnew := schedule_add m n
    rw [← hold 14 (by omega),← hold 9 (by omega),← hold 1 (by omega),
      show schedule m n = (furtherSteps n s).1.at (16+n) from (hold 0 (by omega)).symm] at hnew
    simp only [furtherSteps,expandStep,Words.at_put,← hnew,hregs]
    exact ⟨hring.put,rfl⟩

theorem allSteps_registers (c : Ctx) (data : List UInt8) :
    (allSteps c data).2 = rounds (word data) 64 c.state := by
  obtain ⟨hring,hregs⟩ := firstSteps_spec data (bufferWords c.buffer) c.state (Nat.le_refl 16)
  exact (furtherSteps_spec hring hregs 48).2

@[simp] theorem sha256Transform_state (c : Ctx) (data : List UInt8) :
    (sha256Transform c data).state = compress c.state data := by
  rw [compress,← allSteps_registers]
  rfl

@[simp] theorem sha256Transform_bitcount (c : Ctx) (data : List UInt8) :
    (sha256Transform c data).bitcount = c.bitcount := by
  unfold sha256Transform
  generalize allSteps c data = s
  rfl

@[simp] theorem Ctx.fill_state (c : Ctx) (i : ℕ) (bytes : List UInt8) :
    (c.fill i bytes).state = c.state := rfl

@[simp] theorem Ctx.fill_bitcount (c : Ctx) (i : ℕ) (bytes : List UInt8) :
    (c.fill i bytes).bitcount = c.bitcount := rfl

@[simp] theorem Ctx.fill_buffer (c : Ctx) (i : ℕ) (bytes : List UInt8) :
    (c.fill i bytes).buffer = store c.buffer i bytes := rfl

@[simp] theorem Ctx.count_state (c : Ctx) (n : UInt64) : (c.count n).state = c.state := rfl

@[simp] theorem Ctx.count_bitcount (c : Ctx) (n : UInt64) :
    (c.count n).bitcount = c.bitcount+n := rfl

@[simp] theorem Ctx.count_buffer (c : Ctx) (n : UInt64) : (c.count n).buffer = c.buffer := rfl

/-- The context that has taken the bytes of `m`. -/
structure Holds (c : Ctx) (m : List UInt8) : Prop where
  state : c.state = absorb 64 compress sha256InitialHashValue m
  bitcount : c.bitcount = UInt64.ofNat (8*m.length)
  buffer : load c.buffer 0 (m.length%64) = rest 64 m

theorem holds_init : Holds sha256Init [] := ⟨rfl,rfl,rfl⟩

theorem Holds.usedspace {c : Ctx} {m : List UInt8} (h : Holds c m) :
    usedspace c = m.length%64 := by
  rw [Sha256.usedspace,h.bitcount,UInt64.toNat_mod,UInt64.toNat_shiftRight,UInt64.toNat_ofNat',
    Nat.shiftRight_eq_div_pow]
  show 8*m.length%18446744073709551616/8%64 = m.length%64
  omega

theorem bitcount_add (m data : List UInt8) :
    UInt64.ofNat (8*m.length) + UInt64.ofNat (data.length <<< 3) =
      UInt64.ofNat (8*(m ++ data).length) := by
  rw [← UInt64.ofNat_add,List.length_append,Nat.shiftLeft_eq,Nat.mul_add,Nat.mul_comm data.length]

variable {c : Ctx} {m data : List UInt8}

theorem Holds.full (h : Holds c m) (hlen : m.length%64+data.length = 64) {c' : Ctx}
    (hstate : c'.state = compress c.state (rest 64 m ++ data))
    (hcount : c'.bitcount = c.bitcount + UInt64.ofNat (data.length <<< 3)) :
    Holds c' (m ++ data) := by
  have hfull : (rest 64 m ++ data).length = 64 := by rw [List.length_append,rest_length,hlen]
  have hmod : (m ++ data).length%64 = 0 := by rw [List.length_append]; omega
  exact
    { state := by rw [hstate,h.state,absorb_full _ _ (by decide) hfull]
      bitcount := by rw [hcount,h.bitcount,bitcount_add]
      buffer := by rw [hmod,load_zero,rest_full (by decide) hfull] }

theorem Holds.load_fill (h : Holds c m) (data : List UInt8) :
    load (c.fill (m.length%64) data).buffer 0 (m.length%64+data.length) = rest 64 m ++ data := by
  rw [Ctx.fill_buffer,load_add,Nat.zero_add,load_store,load_store_other (Or.inl (by omega)),
    h.buffer]

theorem Holds.part (h : Holds c m) (data : List UInt8) (hlen : m.length%64+data.length < 64) :
    Holds ((c.fill (m.length%64) data).count (UInt64.ofNat (data.length <<< 3))) (m ++ data) := by
  have hpart : (rest 64 m ++ data).length < 64 := by rwa [List.length_append,rest_length]
  have hmod : (m ++ data).length%64 = m.length%64+data.length := by
    rw [List.length_append]
    omega
  exact
    { state := by rw [absorb_part _ _ (by decide) hpart]; exact h.state
      bitcount := by rw [Ctx.count_bitcount,Ctx.fill_bitcount,h.bitcount,bitcount_add]
      buffer := by rw [hmod,Ctx.count_buffer,h.load_fill,rest_part (by decide) hpart] }

theorem rest_aligned (hm : m.length%64 = 0) : rest 64 m = [] :=
  List.length_eq_zero_iff.mp (by rw [rest_length,hm])

theorem Holds.wholeBlocks (h : Holds c m) (hm : m.length%64 = 0) (data : List UInt8) :
    ∃ blocks, data = blocks ++ (wholeBlocks c data).2 ∧ blocks.length%64 = 0 ∧
      (wholeBlocks c data).2.length < 64 ∧ Holds (wholeBlocks c data).1 (m ++ blocks) := by
  fun_induction Sha256.wholeBlocks c data generalizing m with
  | case1 c data hlen ih =>
    have hblock : (data.take 64).length = 64 := List.length_take_of_le hlen
    have hstep : Holds ((sha256Transform c (data.take 64)).count ((64 : UInt64) <<< 3))
        (m ++ data.take 64) := by
      refine h.full (by rw [hm,hblock]) ?_ (by rw [hblock,Ctx.count_bitcount,sha256Transform_bitcount]; rfl)
      rw [rest_aligned hm,Ctx.count_state,sha256Transform_state,List.nil_append]
    obtain ⟨blocks,hdata,hblocks,hshort,hholds⟩ := ih hstep (by rw [List.length_append]; omega)
    refine ⟨data.take 64 ++ blocks,?_,by rw [List.length_append]; omega,hshort,?_⟩
    · rw [List.append_assoc,← hdata,List.take_append_drop]
    · rwa [← List.append_assoc]
  | case2 c data hlen => exact ⟨[],rfl,rfl,by simpa using hlen,by simpa using h⟩

theorem Holds.updateAligned (h : Holds c m) (hm : m.length%64 = 0) (data : List UInt8) :
    Holds (updateAligned c data) (m ++ data) := by
  obtain ⟨blocks,hdata,hblocks,hshort,hholds⟩ := h.wholeBlocks hm data
  have hmod : (m ++ blocks).length%64 = 0 := by rw [List.length_append]; omega
  conv => arg 2; rw [hdata,← List.append_assoc]
  simp only [Sha256.updateAligned]
  split_ifs with hleft
  · have hpart := hholds.part (Sha256.wholeBlocks c data).2 (by omega)
    rwa [hmod] at hpart
  · rw [List.length_eq_zero_iff.mp (Nat.eq_zero_of_not_pos hleft),List.append_nil]
    exact hholds

theorem Holds.update (h : Holds c m) (data : List UInt8) :
    Holds (sha256Update c data) (m ++ data) := by
  simp only [sha256Update,h.usedspace]
  split_ifs with hnil hused hfree
  · rw [List.length_eq_zero_iff.mp hnil,List.append_nil]
    exact h
  · -- the piece completes the block in the buffer
    have hblock : (data.take (64-m.length%64)).length = 64-m.length%64 :=
      List.length_take_of_le hfree
    have hload := h.load_fill (data.take (64-m.length%64))
    rw [hblock,show m.length%64+(64-m.length%64) = 64 by omega] at hload
    conv => arg 2; rw [← List.take_append_drop (64-m.length%64) data,← List.append_assoc]
    refine Holds.updateAligned ?_ (by rw [List.length_append]; omega) _
    refine h.full (by omega) ?_ (by rw [hblock]; simp)
    rw [sha256Transform_state,Ctx.count_buffer,hload,Ctx.count_state,Ctx.fill_state]
  · exact h.part data (by omega)
  · exact h.updateAligned (by omega) data

theorem Holds.updates (h : Holds c m) (pieces : List (List UInt8)) :
    Holds (pieces.foldl sha256Update c) (m ++ pieces.flatten) := by
  induction pieces generalizing c m with
  | nil => simpa using h
  | cons piece pieces ih =>
    rw [List.flatten_cons,← List.append_assoc]
    exact ih (h.update piece)

theorem reverse32_byte (x : UInt32) {k : ℕ} (hk : k < 4) :
    ((reverse32 x >>> UInt32.ofNat (8*k)) &&& (0xff : UInt32)).toUInt8 =
      (x >>> UInt32.ofNat (8*(3-k))).toUInt8 := by
  apply UInt8.toBitVec_inj.mp
  ext i hi
  interval_cases k <;> interval_cases i <;> simp [reverse32]

theorem reverse64_byte (x : UInt64) {k : ℕ} (hk : k < 8) :
    (reverse64 x >>> UInt64.ofNat (8*k)).toUInt8 = (x >>> UInt64.ofNat (8*(7-k))).toUInt8 := by
  apply UInt8.toBitVec_inj.mp
  ext i hi
  interval_cases k <;> interval_cases i <;> simp [reverse64]

theorem digestBytes_eq (x : UInt32) : digestBytes x = (wordBytes x).reverse := by
  show (List.range 4).map (fun k => ((reverse32 x >>> UInt32.ofNat (8*k)) &&& (0xff : UInt32)).toUInt8) =
    (List.range 4).map fun k => (x >>> UInt32.ofNat (8*(3-k))).toUInt8
  exact List.map_congr_left fun k hk => reverse32_byte x (List.mem_range.mp hk)

theorem longBytes_reverse64 (x : UInt64) : longBytes (reverse64 x) = (longBytes x).reverse := by
  show _ = (List.range 8).map fun k => (x >>> UInt64.ofNat (8*(7-k))).toUInt8
  exact List.map_congr_left fun k hk => reverse64_byte x (List.mem_range.mp hk)

theorem Ctx.fill_cons (c : Ctx) (i : ℕ) (x : UInt8) (xs : List UInt8) :
    (c.fill i [x]).fill (i+1) xs = c.fill i (x::xs) :=
  congrArg (Ctx.mk c.state c.bitcount) (store_append c.buffer i [x] xs)

theorem load_store_first (b : Buf) (x y : UInt8) (xs : List UInt8) :
    load (store (store b 0 (x::xs)) 0 [y]) 0 (xs.length+1) = y::xs := by
  have hfirst : store (store b 0 (x::xs)) 0 [y] 0 = y := by simp [store]
  have hsplit : store b 0 (x::xs) = store (store b 0 [x]) (0+1) xs :=
    (store_append b 0 [x] xs).symm
  rw [load_succ,hfirst,load_store_other (Or.inr (Nat.le_refl (0+1))),hsplit,load_store]

theorem Holds.lastBlock_short (h : Holds c m) (hfits : m.length%64+1 ≤ 56) :
    (lastBlock c).state = c.state ∧ load (lastBlock c).buffer 0 56 =
      rest 64 m ++ 0x80::List.replicate (56-(m.length%64+1)) 0 := by
  simp only [Sha256.lastBlock,h.usedspace,if_pos hfits]
  split_ifs with hused
  · have hload := h.load_fill (0x80::List.replicate (56-(m.length%64+1)) 0)
    rw [List.length_cons,List.length_replicate,
      show m.length%64+(56-(m.length%64+1)+1) = 56 by omega] at hload
    rw [Ctx.fill_cons]
    exact ⟨rfl,hload⟩
  · have hm : m.length%64 = 0 := Nat.eq_zero_of_not_pos hused
    rw [hm,rest_aligned hm]
    exact ⟨rfl,load_store_first c.buffer 0 0x80 (List.replicate 55 0)⟩

/-- Where they do not fit, the bit and zeros fill the block, and the next one begins with zeros. -/
theorem Holds.lastBlock_long (h : Holds c m) (hlong : 56 < m.length%64+1) :
    (lastBlock c).state = absorb 64 compress sha256InitialHashValue
        (m ++ 0x80::List.replicate (64-(m.length%64+1)) 0) ∧
      rest 64 (m ++ 0x80::List.replicate (64-(m.length%64+1)) 0) = [] ∧
      load (lastBlock c).buffer 0 56 = List.replicate 56 0 := by
  have hlt : m.length%64 < 64 := Nat.mod_lt _ (by decide)
  have hload := h.load_fill (0x80::List.replicate (64-(m.length%64+1)) 0)
  rw [List.length_cons,List.length_replicate,
    show m.length%64+(64-(m.length%64+1)+1) = 64 by omega] at hload
  have hfull : (rest 64 m ++ 0x80::List.replicate (64-(m.length%64+1)) 0).length = 64 := by
    rw [← hload,load_length]
  have hfill : (if m.length%64+1 < 64 then
      (c.fill (m.length%64) [0x80]).fill (m.length%64+1) (List.replicate (64-(m.length%64+1)) 0)
      else c.fill (m.length%64) [0x80]) =
      c.fill (m.length%64) (0x80::List.replicate (64-(m.length%64+1)) 0) := by
    split_ifs with hroom
    · exact Ctx.fill_cons _ _ _ _
    · rw [show 64-(m.length%64+1) = 0 by omega]
      rfl
  simp only [Sha256.lastBlock,h.usedspace,if_neg (Nat.not_le_of_lt hlong),
    if_pos (by omega : 0 < m.length%64)]
  rw [hfill,hload]
  refine ⟨?_,rest_full (by decide) hfull,load_store _ _ _⟩
  rw [Ctx.fill_state,sha256Transform_state,Ctx.fill_state,h.state,
    absorb_full compress _ (by decide) hfull]

theorem Holds.lastBlock (h : Holds c m) :
    absorb 64 compress sha256InitialHashValue (m ++ padding m.length) =
      compress (lastBlock c).state (load (lastBlock c).buffer 0 56 ++
        (longBytes (UInt64.ofNat (8*m.length))).reverse) := by
  have hsize : (longBytes (UInt64.ofNat (8*m.length))).reverse.length = 8 := rfl
  rw [padding]
  generalize (longBytes (UInt64.ofNat (8*m.length))).reverse = size at hsize ⊢
  by_cases hfits : m.length%64+1 ≤ 56
  · obtain ⟨hstate,hload⟩ := h.lastBlock_short hfits
    rw [hstate,hload,show (119-m.length%64)%64 = 56-(m.length%64+1) by omega,h.state,
      absorb_full _ _ (by decide),List.append_assoc,List.cons_append]
    simp [hsize]
    omega
  · obtain ⟨hstate,hrest,hload⟩ := h.lastBlock_long (Nat.lt_of_not_le hfits)
    have hzeros : List.replicate ((119-m.length%64)%64) (0 : UInt8) =
        List.replicate (64-(m.length%64+1)) 0 ++ List.replicate 56 0 := by
      rw [List.replicate_append_replicate]
      congr 1
      omega
    rw [hstate,hload,hzeros,List.append_assoc,← List.cons_append,← List.append_assoc m,
      absorb_full _ _ (by decide) (by rw [hrest]; simp [hsize]),hrest,List.nil_append]

theorem Holds.final (h : Holds c m) : (sha256Final c).2 = digest m := by
  have hload : load ((Sha256.lastBlock c).fill 56 (longBytes (reverse64 c.bitcount))).buffer 0 64 =
      load (Sha256.lastBlock c).buffer 0 56 ++ (longBytes (UInt64.ofNat (8*m.length))).reverse := by
    rw [longBytes_reverse64,h.bitcount]
    generalize hsize : (longBytes (UInt64.ofNat (8*m.length))).reverse = size
    have hlen : size.length = 8 := by rw [← hsize]; rfl
    rw [Ctx.fill_buffer,show 64 = 56+size.length by rw [hlen],load_add,Nat.zero_add,load_store,
      load_store_other (Or.inl (by decide))]
  have hbytes : digestBytes = fun x => (wordBytes x).reverse := funext digestBytes_eq
  rw [digest,h.lastBlock,← hload,← hbytes]
  simp only [sha256Final,sha256Transform_state,Ctx.fill_state]

theorem sha256Raw_eq (m : List UInt8) : sha256Raw m = digest m := (holds_init.update m).final

@[simp] theorem digest_length (m : List UInt8) : (digest m).length = 32 := rfl

/-- `sha256_init`, any updates and `sha256_final` give the digest of what the updates bring, one
after the other. -/
theorem pieces_digest (pieces : List (List UInt8)) :
    (sha256Final (pieces.foldl sha256Update sha256Init)).2 = digest pieces.flatten :=
  (holds_init.updates pieces).final

end Sha256
end MeterLogger
