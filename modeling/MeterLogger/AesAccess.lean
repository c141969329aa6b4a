import MeterLogger.AesCbc
import MeterLogger.Noted

/-!
# The memory that a decryption touches

`AES128_CBC_decrypt_buffer` byte by byte, with a note of every byte of the memory that is read
or written. Without the notes it is the function of before. For a length of whole blocks it
stays in its buffers; it writes sixteen bytes in front of the loop whatever the length is, and a
block behind the loop for any other length.
-/

namespace MeterLogger
namespace AesAccess

open AesCbc Buffers Noted

/-- A byte read or written. -/
inductive Access
  | read (a : ℕ)
  | write (a : ℕ)
  deriving DecidableEq

abbrev Memory (A : Type) := Noted Access Buf A

def readByte (a : ℕ) : Memory UInt8 := look (.read a) fun mem => mem a

def writeByte (a : ℕ) (b : UInt8) : Memory Unit := change (.write a) fun mem => store mem a [b]

def readBytes (a : ℕ) : ℕ → Memory (List UInt8)
  | 0 => pure []
  | n+1 => do
    let b ← readByte a
    let bs ← readBytes (a+1) n
    pure (b::bs)

def writeBytes (a : ℕ) : List UInt8 → Memory Unit
  | [] => pure ()
  | b::bs => do
    writeByte a b
    writeBytes (a+1) bs

/-- `output[i] = input[i]`. -/
def copyBytes (output input : ℕ) : ℕ → Memory Unit
  | 0 => pure ()
  | n+1 => do
    copyBytes output input n
    let b ← readByte (input+n)
    writeByte (output+n) b

/-- `buf[i] ^= Iv[i]`. -/
def xorBytes (buf iv : ℕ) : ℕ → Memory Unit
  | 0 => pure ()
  | n+1 => do
    xorBytes buf iv n
    let b ← readByte (buf+n)
    let v ← readByte (iv+n)
    writeByte (buf+n) (b ^^^ v)

def blockCopy (output input : ℕ) : Memory Unit := copyBytes output input 16

def xorWithIv (buf iv : ℕ) : Memory Unit := xorBytes buf iv 16

/-- `InvCipher()` takes the block at `state` and leaves a block there. -/
def onState (f : Block → Block) (state : ℕ) : Memory Unit := do
  let bytes ← readBytes state 16
  writeBytes state (List.ofFn (f fun i => bytes.getD i 0))

def decryptLoop (dec : Block → Block) : ℕ → ℕ → ℕ → ℕ → Memory Unit
  | 0, _, _, _ => pure ()
  | n+1, output, input, iv => do
    blockCopy output input
    onState dec output
    xorWithIv output iv
    decryptLoop dec n (output+16) (input+16) input

def lastBlock (f : Block → Block) (output input remainders : ℕ) : Memory Unit :=
  if remainders = 0 then pure ()
  else do
    blockCopy output input
    writeBytes (output+remainders) (List.replicate (16-remainders) 0)
    onState f output

def aes128CbcDecryptBuffer (dec : Block → Block) (output input length iv : ℕ) : Memory Unit := do
  blockCopy output input
  decryptLoop dec (rounds length) output input iv
  lastBlock dec (output+16*rounds length) (input+16*rounds length) (length%16)

section Erased

variable (mem : Buf)

theorem readBytes_value (a n : ℕ) : (readBytes a n).value mem = load mem a n := by
  induction n generalizing a with
  | zero => rfl
  | succ n ih =>
    rw [load_succ]
    exact congrArg (mem a :: ·) (ih (a+1))

@[simp] theorem readBytes_final (a n : ℕ) : (readBytes a n).final mem = mem := by
  induction n generalizing a with
  | zero => rfl
  | succ n ih => exact ih (a+1)

theorem writeBytes_final (a : ℕ) (bytes : List UInt8) :
    (writeBytes a bytes).final mem = store mem a bytes := by
  induction bytes generalizing mem a with
  | nil => exact (store_nil mem a).symm
  | cons b bytes ih =>
    have hone : (writeBytes a (b::bytes)).final mem = (writeBytes (a+1) bytes).final (store mem a [b]) :=
      rfl
    rw [hone,ih]
    exact store_append mem a [b] bytes

theorem copyBytes_final (output input n : ℕ) :
    (copyBytes output input n).final mem = byteLoop (fun _ b => b) mem output input n := by
  induction n with
  | zero => rfl
  | succ n ih =>
    rw [byteLoop,← ih]
    rfl

theorem xorBytes_final (buf iv n : ℕ) :
    (xorBytes buf iv n).final mem = byteLoop (· ^^^ ·) mem buf iv n := by
  induction n with
  | zero => rfl
  | succ n ih =>
    rw [byteLoop,← ih]
    rfl

@[simp] theorem blockCopy_final (output input : ℕ) :
    (blockCopy output input).final mem = AesCbc.blockCopy mem output input :=
  copyBytes_final mem output input 16

@[simp] theorem xorWithIv_final (buf iv : ℕ) :
    (xorWithIv buf iv).final mem = AesCbc.xorWithIv mem buf iv :=
  xorBytes_final mem buf iv 16

theorem store_block (a : ℕ) (b : Block) : store mem a (List.ofFn b) = putBlock mem a b := by
  funext x
  by_cases hx : a ≤ x ∧ x < a+16
  · obtain ⟨k,rfl⟩ : ∃ k, x = a+k := ⟨x-a,by omega⟩
    have hk : k < (List.ofFn b).length := by
      rw [List.length_ofFn]
      omega
    rw [store_in hk,List.getElem_ofFn,putBlock,dif_pos hx]
    congr 1
    apply Fin.ext
    show k = a+k-a
    omega
  · rw [store_out (by rw [List.length_ofFn]; omega),putBlock_out (by omega)]

@[simp] theorem onState_final (f : Block → Block) (state : ℕ) :
    (onState f state).final mem = AesCbc.onState f mem state := by
  have hblock : (fun i : Fin 16 => (load mem state 16).getD i 0) = getBlock mem state := by
    funext i
    have hi := i.isLt
    rw [List.getD_eq_getElem _ _ (by rw [load_length]; omega),load_getElem]
    rfl
  rw [onState,final_bind,readBytes_value,readBytes_final,writeBytes_final,hblock,store_block]
  rfl

@[simp] theorem decryptLoop_final (dec : Block → Block) (n output input iv : ℕ) :
    (decryptLoop dec n output input iv).final mem = AesCbc.decryptLoop dec n mem output input iv := by
  induction n generalizing mem output input iv with
  | zero => rfl
  | succ n ih =>
    rw [decryptLoop,AesCbc.decryptLoop,final_bind,blockCopy_final,final_bind,onState_final,
      final_bind,xorWithIv_final,ih]

@[simp] theorem lastBlock_final (f : Block → Block) (output input remainders : ℕ) :
    (lastBlock f output input remainders).final mem =
      AesCbc.lastBlock f mem output input remainders := by
  rw [lastBlock,AesCbc.lastBlock]
  split
  · rfl
  · rw [final_bind,blockCopy_final,final_bind,writeBytes_final,onState_final]

@[simp] theorem aes128CbcDecryptBuffer_final (dec : Block → Block) (output input length iv : ℕ) :
    (aes128CbcDecryptBuffer dec output input length iv).final mem =
      AesCbc.aes128CbcDecryptBuffer dec mem output input length iv := by
  rw [aes128CbcDecryptBuffer,AesCbc.aes128CbcDecryptBuffer,final_bind,blockCopy_final,final_bind,
    decryptLoop_final,lastBlock_final]

end Erased

/-- Reads in `R` and writes in `W` only. -/
def Within (R W : ℕ → Prop) : Access → Prop
  | .read a => R a
  | .write a => W a

abbrev Stays {A : Type} (R W : ℕ → Prop) (m : Memory A) : Prop :=
  Triple (fun _ => True) m (Within R W) fun _ _ => True

section Stays

variable {A B : Type} {R W : ℕ → Prop}

theorem stays_pure (a : A) : Stays R W (pure a) := triple_pure fun _ _ => trivial

theorem stays_bind {m : Memory A} {f : A → Memory B} (hm : Stays R W m)
    (hf : ∀ a, Stays R W (f a)) : Stays R W (m >>= f) :=
  triple_bind hm hf

theorem stays_read {a : ℕ} (h : R a) : Stays R W (readByte a) :=
  (triple_look (show Within R W (.read a) from h) _).weaken (fun _ h => h) fun _ _ _ => trivial

theorem stays_write {a : ℕ} (h : W a) (b : UInt8) : Stays R W (writeByte a b) :=
  triple_change (show Within R W (.write a) from h) fun _ _ => trivial

theorem stays_readBytes {a n : ℕ} (h : ∀ k < n, R (a+k)) : Stays R W (readBytes a n) := by
  induction n generalizing a with
  | zero => exact stays_pure _
  | succ n ih =>
    refine stays_bind (stays_read (h 0 (by omega))) fun b => ?_
    refine stays_bind (ih fun k hk => ?_) fun bs => stays_pure _
    rw [Nat.add_assoc]
    exact h (1+k) (by omega)

theorem stays_writeBytes {a : ℕ} {bytes : List UInt8} (h : ∀ k < bytes.length, W (a+k)) :
    Stays R W (writeBytes a bytes) := by
  induction bytes generalizing a with
  | nil => exact stays_pure _
  | cons b bytes ih =>
    rw [List.length_cons] at h
    refine stays_bind (stays_write (h 0 (by omega)) b) fun _ => ih fun k hk => ?_
    rw [Nat.add_assoc]
    exact h (1+k) (by omega)

theorem stays_copyBytes {output input n : ℕ} (hr : ∀ k < n, R (input+k))
    (hw : ∀ k < n, W (output+k)) : Stays R W (copyBytes output input n) := by
  induction n with
  | zero => exact stays_pure _
  | succ n ih =>
    refine stays_bind (ih (fun k hk => hr k (by omega)) fun k hk => hw k (by omega)) fun _ => ?_
    exact stays_bind (stays_read (hr n (by omega))) fun b => stays_write (hw n (by omega)) b

theorem stays_xorBytes {buf iv n : ℕ} (hv : ∀ k < n, R (iv+k)) (hr : ∀ k < n, R (buf+k))
    (hw : ∀ k < n, W (buf+k)) : Stays R W (xorBytes buf iv n) := by
  induction n with
  | zero => exact stays_pure _
  | succ n ih =>
    refine stays_bind (ih (fun k hk => hv k (by omega)) (fun k hk => hr k (by omega))
      fun k hk => hw k (by omega)) fun _ => ?_
    refine stays_bind (stays_read (hr n (by omega))) fun b => ?_
    exact stays_bind (stays_read (hv n (by omega))) fun v => stays_write (hw n (by omega)) _

theorem stays_onState {f : Block → Block} {state : ℕ} (hr : ∀ k < 16, R (state+k))
    (hw : ∀ k < 16, W (state+k)) : Stays R W (onState f state) := by
  refine stays_bind (stays_readBytes hr) fun bytes => stays_writeBytes fun k hk => hw k ?_
  rwa [List.length_ofFn] at hk

theorem stays_decryptLoop {dec : Block → Block} {n output input iv : ℕ}
    (hv : ∀ k < 16, R (iv+k)) (hi : ∀ k < 16*n, R (input+k)) (hr : ∀ k < 16*n, R (output+k))
    (hw : ∀ k < 16*n, W (output+k)) : Stays R W (decryptLoop dec n output input iv) := by
  induction n generalizing output input iv with
  | zero => exact stays_pure _
  | succ n ih =>
    have hnext : ∀ {P : ℕ → Prop} {a : ℕ}, (∀ k < 16*(n+1), P (a+k)) → ∀ k < 16*n, P (a+16+k) := by
      intro P a h k hk
      rw [Nat.add_assoc]
      exact h (16+k) (by omega)
    have hfirst : ∀ {P : ℕ → Prop} {a : ℕ}, (∀ k < 16*(n+1), P (a+k)) → ∀ k < 16, P (a+k) :=
      fun h k hk => h k (by omega)
    refine stays_bind (stays_copyBytes (hfirst hi) (hfirst hw)) fun _ => ?_
    refine stays_bind (stays_onState (hfirst hr) (hfirst hw)) fun _ => ?_
    refine stays_bind (stays_xorBytes hv (hfirst hr) (hfirst hw)) fun _ => ?_
    exact ih (hfirst hi) (hnext hi) (hnext hr) (hnext hw)

theorem stays_aes128CbcDecryptBuffer {dec : Block → Block} {n output input iv : ℕ} (hn : 0 < n)
    (hv : ∀ k < 16, R (iv+k)) (hi : ∀ k < 16*n, R (input+k)) (hr : ∀ k < 16*n, R (output+k))
    (hw : ∀ k < 16*n, W (output+k)) :
    Stays R W (aes128CbcDecryptBuffer dec output input (16*n) iv) := by
  have hrem : 16*n%16 = 0 := by omega
  refine stays_bind (stays_copyBytes (fun k hk => hi k (by omega)) fun k hk => hw k (by omega))
    fun _ => ?_
  rw [rounds_blocks,hrem,lastBlock,if_pos rfl]
  exact stays_bind (stays_decryptLoop hv hi hr hw) fun _ => stays_pure _

end Stays

section Written

variable (mem : Buf)

theorem blockCopy_writes (output input : ℕ) : .write output ∈ (blockCopy output input).notes mem := by
  have hloop : ∀ n, .write output ∈ (copyBytes output input (n+1)).notes mem := by
    intro n
    induction n with
    | zero => simp [copyBytes,readByte,writeByte]
    | succ n ih =>
      rw [copyBytes,notes_bind]
      exact List.mem_append_left _ ih
  exact hloop 15

/-- The block in front of the loop is written even when there is none to decrypt. -/
theorem aes128CbcDecryptBuffer_writes (dec : Block → Block) (output input length iv : ℕ) :
    .write output ∈ (aes128CbcDecryptBuffer dec output input length iv).notes mem := by
  rw [aes128CbcDecryptBuffer,notes_bind]
  exact List.mem_append_left _ (blockCopy_writes mem output input)

/-- Behind a length that is no multiple of 16 a block is written past the end. -/
theorem aes128CbcDecryptBuffer_writes_past (dec : Block → Block) {length : ℕ} (h : length%16 ≠ 0)
    (output input iv : ℕ) :
    .write (output+16*rounds length) ∈
      (aes128CbcDecryptBuffer dec output input length iv).notes mem := by
  rw [aes128CbcDecryptBuffer,notes_bind]
  refine List.mem_append_right _ ?_
  rw [notes_bind]
  refine List.mem_append_right _ ?_
  rw [lastBlock,if_neg h,notes_bind]
  exact List.mem_append_left _ (blockCopy_writes _ _ _)

end Written

end AesAccess
end MeterLogger
