import MeterLogger.Buffers
import MeterLogger.Cbc

/-!
# AES-128 in CBC mode

The buffer functions of `aes.c` in one memory: they copy a block to the output, work on it
there and move a pointer to the vector along. The cipher itself is a parameter. In place,
encryption leaves the chained blocks in the buffer; to another buffer, decryption leaves the
blocks decrypted.
-/

namespace MeterLogger
namespace AesCbc

open Buffers

abbrev Block := Fin 16 → UInt8

/-- AES-128, HMAC-SHA256 and SHA-256 as functions of key and input. -/
structure Primitives where
  cipher : List UInt8 → Block → Block
  invCipher : List UInt8 → Block → Block
  invCipher_cipher : ∀ key b, invCipher key (cipher key b) = b
  hmacSha256 : List UInt8 → List UInt8 → List UInt8
  hmacSha256_length : ∀ key input, (hmacSha256 key input).length = 32
  sha256Raw : List UInt8 → List UInt8

/-- A loop over `n` bytes that puts `f` of the byte there and the byte at `src` to `dst`. -/
def byteLoop (f : UInt8 → UInt8 → UInt8) (mem : Buf) (dst src : ℕ) : ℕ → Buf
  | 0 => mem
  | n+1 =>
    let m := byteLoop f mem dst src n
    store m (dst+n) [f (m (dst+n)) (m (src+n))]

def blockCopy (mem : Buf) (output input : ℕ) : Buf := byteLoop (fun _ b => b) mem output input 16

def xorWithIv (mem : Buf) (buf iv : ℕ) : Buf := byteLoop (· ^^^ ·) mem buf iv 16

def getBlock (mem : Buf) (a : ℕ) : Block := fun i => mem (a+i)

def putBlock (mem : Buf) (a : ℕ) (b : Block) : Buf := fun x =>
  if h : a ≤ x ∧ x < a+16 then b ⟨x-a,by omega⟩ else mem x

/-- `Cipher()` or `InvCipher()` on the block at `state`. -/
def onState (f : Block → Block) (mem : Buf) (state : ℕ) : Buf :=
  putBlock mem state (f (getBlock mem state))

def encryptLoop (enc : Block → Block) : ℕ → Buf → ℕ → ℕ → ℕ → Buf
  | 0, mem, _, _, _ => mem
  | n+1, mem, output, input, iv =>
    let mem := blockCopy mem output input
    let mem := xorWithIv mem output iv
    let mem := onState enc mem output
    encryptLoop enc n mem (output+16) (input+16) output

def decryptLoop (dec : Block → Block) : ℕ → Buf → ℕ → ℕ → ℕ → Buf
  | 0, mem, _, _, _ => mem
  | n+1, mem, output, input, iv =>
    let mem := blockCopy mem output input
    let mem := onState dec mem output
    let mem := xorWithIv mem output iv
    decryptLoop dec n mem (output+16) (input+16) input

/-- The rounds of `for (i = 0; i < length; i += KEYLEN)`. -/
def rounds (length : ℕ) : ℕ := (length+15)/16

/-- What follows the loops when the length is no multiple of 16: one block more, filled up with
zeros. -/
def lastBlock (f : Block → Block) (mem : Buf) (output input remainders : ℕ) : Buf :=
  if remainders = 0 then mem
  else
    let mem := blockCopy mem output input
    let mem := store mem (output+remainders) (List.replicate (16-remainders) 0)
    onState f mem output

def aes128CbcEncryptBuffer (enc : Block → Block) (mem : Buf) (output input length iv : ℕ) : Buf :=
  let mem := blockCopy mem output input
  let mem := encryptLoop enc (rounds length) mem output input iv
  lastBlock enc mem (output+16*rounds length) (input+16*rounds length) (length%16)

def aes128CbcDecryptBuffer (dec : Block → Block) (mem : Buf) (output input length iv : ℕ) : Buf :=
  let mem := blockCopy mem output input
  let mem := decryptLoop dec (rounds length) mem output input iv
  lastBlock dec mem (output+16*rounds length) (input+16*rounds length) (length%16)

/-- Two runs of bytes have no byte in common. -/
def Apart (a n b m : ℕ) : Prop := a+n ≤ b ∨ b+m ≤ a

instance (a n b m : ℕ) : Decidable (Apart a n b m) := inferInstanceAs (Decidable (_ ∨ _))

section Blocks

variable {mem : Buf} {a b : ℕ} {block : Block}

theorem putBlock_out {x : ℕ} (h : x < a ∨ a+16 ≤ x) : putBlock mem a block x = mem x := by
  rw [putBlock,dif_neg (by omega)]

@[simp] theorem getBlock_putBlock : getBlock (putBlock mem a block) a = block := by
  funext i
  have hi := i.isLt
  rw [getBlock,putBlock,dif_pos (by omega)]
  congr 1
  apply Fin.ext
  simp

theorem getBlock_putBlock_other (h : Apart a 16 b 16) :
    getBlock (putBlock mem a block) b = getBlock mem b := by
  funext i
  have hi := i.isLt
  exact putBlock_out (by rw [Apart] at h; omega)

theorem getBlock_congr {mem' : Buf} (h : ∀ i < 16, mem (a+i) = mem' (b+i)) :
    getBlock mem a = getBlock mem' b := by
  funext i
  exact h i i.isLt

@[simp] theorem putBlock_putBlock (block' : Block) :
    putBlock (putBlock mem a block) a block' = putBlock mem a block' := by
  funext x
  by_cases h : a ≤ x ∧ x < a+16
  · rw [putBlock,dif_pos h]
    rw [putBlock,dif_pos h]
  · rw [putBlock_out (by omega),putBlock_out (by omega),putBlock_out (by omega)]

@[simp] theorem putBlock_getBlock : putBlock mem a (getBlock mem a) = mem := by
  funext x
  by_cases h : a ≤ x ∧ x < a+16
  · rw [putBlock,dif_pos h,getBlock]
    congr 1
    show a+(x-a) = x
    omega
  · exact putBlock_out (by omega)

/-- The loop changes every byte once when source and destination do not overlap, or are the
same. -/
theorem byteLoop_eq (f : UInt8 → UInt8 → UInt8) {dst src n : ℕ} (h : src = dst ∨ Apart dst n src n) :
    byteLoop f mem dst src n = fun x =>
      if dst ≤ x ∧ x < dst+n then f (mem x) (mem (src+(x-dst))) else mem x := by
  rw [Apart] at h
  induction n with
  | zero =>
    funext x
    rw [byteLoop,if_neg (by omega)]
  | succ n ih =>
    rw [byteLoop,ih (by omega)]
    funext x
    by_cases hx : x = dst+n
    · rw [hx,if_pos (by omega),store,if_pos (by simp),Nat.sub_self]
      simp only [List.getD_cons_zero]
      rw [if_neg (by omega),if_neg (by omega)]
      congr 2
      omega
    · rw [store_out (by simp only [List.length_singleton]; omega)]
      by_cases hin : dst ≤ x ∧ x < dst+n
      · rw [if_pos hin,if_pos (by omega)]
      · rw [if_neg hin,if_neg (by omega)]

theorem byteLoop_block (f : UInt8 → UInt8 → UInt8) {dst src : ℕ} (h : src = dst ∨ Apart dst 16 src 16) :
    byteLoop f mem dst src 16 =
      putBlock mem dst fun i => f (getBlock mem dst i) (getBlock mem src i) := by
  rw [byteLoop_eq f h]
  funext x
  by_cases hx : dst ≤ x ∧ x < dst+16
  · rw [if_pos hx,putBlock,dif_pos hx,getBlock,getBlock]
    congr 2
    show x = dst+(x-dst)
    omega
  · rw [if_neg hx,putBlock_out (by omega)]

def xorBlock (b iv : Block) : Block := fun i => b i ^^^ iv i

theorem xorBlock_xorBlock (b iv : Block) : xorBlock (xorBlock b iv) iv = b := by
  funext i
  rw [xorBlock,xorBlock,UInt8.xor_assoc,UInt8.xor_self,UInt8.xor_zero]

theorem blockCopy_eq {output input : ℕ} (h : input = output ∨ Apart output 16 input 16) :
    blockCopy mem output input = putBlock mem output (getBlock mem input) :=
  byteLoop_block _ h

theorem xorWithIv_eq {buf iv : ℕ} (h : Apart buf 16 iv 16) :
    xorWithIv mem buf iv = putBlock mem buf (xorBlock (getBlock mem buf) (getBlock mem iv)) :=
  byteLoop_block _ (Or.inr h)

end Blocks

def getBlocks (mem : Buf) (a n : ℕ) : List Block := (List.range n).map fun i => getBlock mem (a+16*i)

section Loops

variable {mem mem' : Buf} {a b n : ℕ}

@[simp] theorem getBlocks_length (mem : Buf) (a n : ℕ) : (getBlocks mem a n).length = n := by
  simp [getBlocks]

theorem getBlocks_succ (mem : Buf) (a n : ℕ) :
    getBlocks mem a (n+1) = getBlock mem a :: getBlocks mem (a+16) n := by
  rw [getBlocks,List.range_succ_eq_map,List.map_cons,List.map_map]
  congr 1
  apply List.map_congr_left
  intro i _
  simp only [Function.comp_apply]
  congr 1
  omega

theorem getBlocks_congr (h : ∀ i < 16*n, mem (a+i) = mem' (b+i)) :
    getBlocks mem a n = getBlocks mem' b n := by
  apply List.map_congr_left
  intro k hk
  have hlt := List.mem_range.mp hk
  apply getBlock_congr
  intro i hi
  rw [Nat.add_assoc,Nat.add_assoc]
  exact h (16*k+i) (by omega)

theorem load_block (mem : Buf) (a : ℕ) : load mem a 16 = List.ofFn (getBlock mem a) := by
  apply List.ext_getElem
  · simp
  · intro i hi _
    rw [load_getElem,List.getElem_ofFn]
    rfl

theorem load_blocks (mem : Buf) (a n : ℕ) :
    load mem a (16*n) = (getBlocks mem a n).flatMap List.ofFn := by
  induction n generalizing a with
  | zero => rfl
  | succ n ih =>
    rw [getBlocks_succ,List.flatMap_cons,← ih,← load_block,← load_add]
    congr 1
    omega

theorem encryptRound (enc : Block → Block) {output iv : ℕ} (h : Apart output 16 iv 16) :
    onState enc (xorWithIv (blockCopy mem output output) output iv) output =
      putBlock mem output (enc (xorBlock (getBlock mem output) (getBlock mem iv))) := by
  rw [blockCopy_eq (Or.inl rfl),putBlock_getBlock,xorWithIv_eq h,onState,getBlock_putBlock,
    putBlock_putBlock]

theorem decryptRound (dec : Block → Block) {output input iv : ℕ} (h : Apart output 16 input 16)
    (hiv : Apart output 16 iv 16) :
    xorWithIv (onState dec (blockCopy mem output input) output) output iv =
      putBlock mem output (xorBlock (dec (getBlock mem input)) (getBlock mem iv)) := by
  rw [blockCopy_eq (Or.inr h),onState,getBlock_putBlock,putBlock_putBlock,xorWithIv_eq hiv,
    getBlock_putBlock,putBlock_putBlock,getBlock_putBlock_other hiv]

theorem encryptLoop_spec (enc : Block → Block) {iv : ℕ} (h : Apart a (16*n) iv 16) :
    getBlocks (encryptLoop enc n mem a a iv) a n =
        Cbc.encrypt xorBlock enc (getBlock mem iv) (getBlocks mem a n) ∧
      ∀ x, x < a ∨ a+16*n ≤ x → encryptLoop enc n mem a a iv x = mem x := by
  induction n generalizing mem a iv with
  | zero => exact ⟨rfl,fun _ _ => rfl⟩
  | succ n ih =>
    rw [Apart] at h
    have hiv : Apart a 16 iv 16 := by rw [Apart]; omega
    rw [encryptLoop,encryptRound enc hiv]
    have hnext : Apart (a+16) (16*n) a 16 := by rw [Apart]; omega
    obtain ⟨hblocks,hframe⟩ :=
      @ih (putBlock mem a (enc (xorBlock (getBlock mem a) (getBlock mem iv)))) (a+16) a hnext
    constructor
    · rw [getBlocks_succ,hblocks,getBlock_putBlock,getBlocks_succ,Cbc.encrypt]
      congr 1
      · rw [getBlock_congr fun i hi => hframe (a+i) (by omega),getBlock_putBlock]
      · congr 1
        apply getBlocks_congr
        intro i hi
        exact putBlock_out (by omega)
    · intro x hx
      rw [hframe x (by omega),putBlock_out (by omega)]

theorem decryptLoop_spec (dec : Block → Block) {iv : ℕ} (h : Apart a (16*n) b (16*n))
    (hiv : Apart a (16*n) iv 16) :
    getBlocks (decryptLoop dec n mem a b iv) a n =
        Cbc.decrypt xorBlock dec (getBlock mem iv) (getBlocks mem b n) ∧
      ∀ x, x < a ∨ a+16*n ≤ x → decryptLoop dec n mem a b iv x = mem x := by
  induction n generalizing mem a b iv with
  | zero => exact ⟨rfl,fun _ _ => rfl⟩
  | succ n ih =>
    rw [Apart] at h hiv
    have hround : Apart a 16 b 16 := by rw [Apart]; omega
    have hround' : Apart a 16 iv 16 := by rw [Apart]; omega
    rw [decryptLoop,decryptRound dec hround hround']
    have hnext : Apart (a+16) (16*n) (b+16) (16*n) := by rw [Apart]; omega
    have hnext' : Apart (a+16) (16*n) b 16 := by rw [Apart]; omega
    obtain ⟨hblocks,hframe⟩ :=
      @ih (putBlock mem a (xorBlock (dec (getBlock mem b)) (getBlock mem iv))) (a+16) (b+16) b
        hnext hnext'
    constructor
    · rw [getBlocks_succ,hblocks,getBlock_putBlock_other hround,getBlocks_succ,Cbc.decrypt]
      congr 1
      · rw [getBlock_congr fun i hi => hframe (a+i) (by omega),getBlock_putBlock]
      · congr 1
        apply getBlocks_congr
        intro i hi
        exact putBlock_out (by omega)
    · intro x hx
      rw [hframe x (by omega),putBlock_out (by omega)]

end Loops

section BufferFunctions

variable {mem : Buf} {output input iv n length : ℕ}

@[simp] theorem rounds_blocks (n : ℕ) : rounds (16*n) = n := by
  rw [rounds]
  omega

theorem aes128CbcEncryptBuffer_spec (enc : Block → Block) (h : Apart output (16*n) iv 16) :
    getBlocks (aes128CbcEncryptBuffer enc mem output output (16*n) iv) output n =
        Cbc.encrypt xorBlock enc (getBlock mem iv) (getBlocks mem output n) ∧
      ∀ x, x < output ∨ output+16*n ≤ x →
        aes128CbcEncryptBuffer enc mem output output (16*n) iv x = mem x := by
  have hrem : 16*n%16 = 0 := by omega
  rw [aes128CbcEncryptBuffer,blockCopy_eq (Or.inl rfl),putBlock_getBlock,rounds_blocks,hrem,
    lastBlock,if_pos rfl]
  exact encryptLoop_spec enc h

theorem aes128CbcDecryptBuffer_spec (dec : Block → Block) (hn : 0 < n)
    (h : Apart output (16*n) input (16*n)) (hiv : Apart output (16*n) iv 16) :
    getBlocks (aes128CbcDecryptBuffer dec mem output input (16*n) iv) output n =
      Cbc.decrypt xorBlock dec (getBlock mem iv) (getBlocks mem input n) := by
  have hrem : 16*n%16 = 0 := by omega
  rw [Apart] at h hiv
  rw [aes128CbcDecryptBuffer,blockCopy_eq (Or.inr (by rw [Apart]; omega)),rounds_blocks,hrem,
    lastBlock,if_pos rfl,(decryptLoop_spec dec h hiv).1]
  congr 1
  · exact getBlock_putBlock_other (by rw [Apart]; omega)
  · apply getBlocks_congr
    intro i hi
    exact putBlock_out (by omega)

theorem byteLoop_out (f : UInt8 → UInt8 → UInt8) {dst src x : ℕ} (h : x < dst ∨ dst+n ≤ x) :
    byteLoop f mem dst src n x = mem x := by
  induction n with
  | zero => rfl
  | succ n ih =>
    rw [byteLoop,store_out (by simp only [List.length_singleton]; omega)]
    exact ih (by omega)

theorem decryptLoop_out (dec : Block → Block) {x : ℕ} (h : x < output ∨ output+16*n ≤ x) :
    decryptLoop dec n mem output input iv x = mem x := by
  induction n generalizing mem output input iv with
  | zero => rfl
  | succ n ih =>
    rw [decryptLoop,ih (by omega),xorWithIv,byteLoop_out _ (by omega),onState,
      putBlock_out (by omega),blockCopy,byteLoop_out _ (by omega)]

def decryptSpan (length : ℕ) : ℕ := max 16 (16*rounds length+if length%16 = 0 then 0 else 16)

/-- A decryption of any length writes whole blocks from the output on, one block more behind a
length that is no multiple of 16. -/
theorem aes128CbcDecryptBuffer_out (dec : Block → Block) {x : ℕ}
    (h : x < output ∨ output+decryptSpan length ≤ x) :
    aes128CbcDecryptBuffer dec mem output input length iv x = mem x := by
  have hspan : x < output ∨ output+16 ≤ x ∧
      output+16*rounds length+(if length%16 = 0 then 0 else 16) ≤ x := by
    rw [decryptSpan] at h
    omega
  have hcopy : ∀ m, decryptLoop dec (rounds length) (blockCopy m output input) output input iv x =
      m x := by
    intro m
    rw [decryptLoop_out dec (by split at hspan <;> omega),blockCopy,byteLoop_out _ (by omega)]
  rw [aes128CbcDecryptBuffer,lastBlock]
  split
  · exact hcopy mem
  · rename_i hrem
    rw [if_neg hrem] at hspan
    rw [onState,putBlock_out (by omega),
      store_out (by simp only [List.length_replicate]; omega),blockCopy,byteLoop_out _ (by omega)]
    exact hcopy mem

end BufferFunctions

def blocksOf (bytes : List UInt8) : List Block :=
  (List.range (bytes.length/16)).map fun k i => bytes.getD (16*k+i) 0

theorem getBlocks_eq (mem : Buf) (a n : ℕ) : getBlocks mem a n = blocksOf (load mem a (16*n)) := by
  have hlen : (load mem a (16*n)).length/16 = n := by
    rw [load_length]
    omega
  rw [blocksOf,hlen]
  apply List.map_congr_left
  intro k hk
  have hlt := List.mem_range.mp hk
  funext i
  have hi := i.isLt
  have hin : 16*k+i < (load mem a (16*n)).length := by
    rw [load_length]
    omega
  rw [List.getD_eq_getElem _ _ hin,load_getElem,getBlock]
  congr 1
  omega

theorem flatMap_blocks_length (bs : List Block) : (bs.flatMap List.ofFn).length = 16*bs.length := by
  induction bs with
  | nil => rfl
  | cons b bs ih =>
    rw [List.flatMap_cons,List.length_append,ih,List.length_ofFn,List.length_cons]
    omega

theorem blocksOf_cons (b : Block) (bytes : List UInt8) :
    blocksOf (List.ofFn b ++ bytes) = b :: blocksOf bytes := by
  have hlen : (List.ofFn b ++ bytes).length/16 = bytes.length/16+1 := by
    rw [List.length_append,List.length_ofFn]
    omega
  rw [blocksOf,hlen,List.range_succ_eq_map,List.map_cons,List.map_map]
  congr 1
  · funext i
    have hi := i.isLt
    rw [List.getD_append _ _ _ _ (by rw [List.length_ofFn]; omega),
      List.getD_eq_getElem _ _ (by rw [List.length_ofFn]; omega),List.getElem_ofFn]
    congr 1
    apply Fin.ext
    simp
  · apply List.map_congr_left
    intro k _
    funext i
    simp only [Function.comp_apply]
    rw [List.getD_append_right _ _ _ _ (by rw [List.length_ofFn]; omega),List.length_ofFn]
    congr 1
    omega

theorem blocksOf_flatMap (bs : List Block) : blocksOf (bs.flatMap List.ofFn) = bs := by
  induction bs with
  | nil => rfl
  | cons b bs ih => rw [List.flatMap_cons,blocksOf_cons,ih]

end AesCbc
end MeterLogger
