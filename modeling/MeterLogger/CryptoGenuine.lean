import Mathlib.Data.FinEnum
import MeterLogger.AesAccess
import MeterLogger.Crypto

/-!
# What is accepted as an encrypted message

`decrypt_aes_hmac_combined` does not ask whether the ciphertext is made of whole blocks. With
whole blocks behind a valid tag, at least one, what is accepted is what the encryption makes of
the text that is taken out, and the decryption stays in the message and in the text. Without,
it writes past the text.
-/

namespace MeterLogger
namespace Crypto

open AesAccess AesCbc Buffers Noted

/-- The loop over the padding; `last` is the address of the last byte. -/
def checkPadding (last : ℕ) (pad : UInt8) : ℕ → ℕ → Memory Bool
  | 0, _ => pure true
  | n+1, i => do
    let b ← readByte (last-i)
    if b = pad then checkPadding last pad n (i+1) else pure false

/-- `decrypt_aes_hmac_combined` from the decryption of the buffer on. -/
def openNoted (p : Primitives) (keys : Keys) (dst message encryptedLen : ℕ) : Memory ℕ := do
  AesAccess.aes128CbcDecryptBuffer (p.invCipher keys.aesKey) dst (message+sha256DigestLength+16)
    encryptedLen (message+sha256DigestLength)
  if encryptedLen = 0 then pure 0
  else do
    let pad ← readByte (dst+encryptedLen-1)
    if pad = 0 ∨ 16 < pad then pure 0
    else do
      let ok ← checkPadding (dst+encryptedLen-1) pad pad.toNat 0
      if ok then pure (sizeSub encryptedLen pad.toNat) else pure 0

/-- `decrypt_aes_hmac_combined` with a note of each byte it touches. -/
def decryptNoted (p : Primitives) (keys : Keys) (dst topic topicL message messageL : ℕ) :
    Memory ℕ :=
  if messageL < sha256DigestLength+16 then pure 0
  else do
    let topicText ← readBytes topic topicL
    let body ← readBytes (message+sha256DigestLength) (messageL-sha256DigestLength)
    let tag ← readBytes message sha256DigestLength
    if p.hmacSha256 keys.hmacSha256Key (topicText ++ body) ≠ tag then pure 0
    else openNoted p keys dst message (messageL-(sha256DigestLength+16))

section Erased

variable {mem : Buf}

theorem checkPadding_value (last : ℕ) (pad : UInt8) (n i : ℕ) :
    (checkPadding last pad n i).value mem =
      (List.range n).all fun j => decide (mem (last-(i+j)) = pad) := by
  induction n generalizing i with
  | zero => rfl
  | succ n ih =>
    have hread : (readByte (last-i)).value mem = mem (last-i) := rfl
    rw [List.range_succ_eq_map,List.all_cons,List.all_map,checkPadding,value_bind,hread]
    simp only [Nat.add_zero]
    by_cases h : mem (last-i) = pad
    · rw [if_pos h,decide_eq_true h,Bool.true_and]
      refine (ih (i+1)).trans ?_
      congr 1
      funext j
      rw [Function.comp_apply,Nat.succ_eq_add_one,Nat.add_assoc,Nat.add_comm 1 j]
    · rw [if_neg h,decide_eq_false h,Bool.false_and]
      rfl

@[simp] theorem checkPadding_final (last : ℕ) (pad : UInt8) (n i : ℕ) :
    (checkPadding last pad n i).final mem = mem := by
  induction n generalizing i with
  | zero => rfl
  | succ n ih =>
    rw [checkPadding,final_bind]
    split
    · exact ih (i+1)
    · rfl

variable {p : Primitives} {keys : Keys} {dst topic topicL message messageL : ℕ}

theorem decryptNoted_erased :
    ((decryptNoted p keys dst topic topicL message messageL).final mem,
        (decryptNoted p keys dst topic topicL message messageL).value mem) =
      decryptAesHmacCombined p keys mem dst topic topicL message messageL := by
  rw [decryptNoted,decryptAesHmacCombined]
  split
  · rfl
  rw [final_bind,value_bind,readBytes_value,readBytes_final,final_bind,value_bind,readBytes_value,
    readBytes_final,final_bind,value_bind,readBytes_value,readBytes_final,authenticated]
  split
  · rfl
  rw [openNoted,final_bind,value_bind,aes128CbcDecryptBuffer_final]
  dsimp only
  generalize AesCbc.aes128CbcDecryptBuffer (p.invCipher keys.aesKey) mem dst
    (message+sha256DigestLength+16) (messageL-(sha256DigestLength+16))
    (message+sha256DigestLength) = out
  by_cases hnil : messageL-(sha256DigestLength+16) = 0
  · rw [if_pos hnil,if_pos hnil]
    rfl
  rw [if_neg hnil,if_neg hnil,final_bind,value_bind]
  have hread : (readByte (dst+(messageL-(sha256DigestLength+16))-1)).value out =
    out (dst+(messageL-(sha256DigestLength+16))-1) := rfl
  have hstay : (readByte (dst+(messageL-(sha256DigestLength+16))-1)).final out = out := rfl
  rw [hread,hstay]
  generalize out (dst+(messageL-(sha256DigestLength+16))-1) = pad
  split
  · rfl
  rw [final_bind,value_bind,checkPadding_final,checkPadding_value]
  simp only [Nat.zero_add]
  split <;> rfl

end Erased

/-- The tag of the message is the one of its contents. -/
def TagValid (p : Primitives) (keys : Keys) (mem : Buf) (topic topicL message messageL : ℕ) : Prop :=
  p.hmacSha256 keys.hmacSha256Key (authenticated mem topic topicL message messageL) =
    load mem message sha256DigestLength

instance (p : Primitives) (keys : Keys) (mem : Buf) (topic topicL message messageL : ℕ) :
    Decidable (TagValid p keys mem topic topicL message messageL) :=
  inferInstanceAs (Decidable (_ = _))

/-- The address lies in the topic, in the message or in the text. -/
def Readable (dst topic topicL message messageL a : ℕ) : Prop :=
  (topic ≤ a ∧ a < topic+topicL) ∨ (message ≤ a ∧ a < message+messageL) ∨
    (dst ≤ a ∧ a < dst+(messageL-48))

/-- The address lies in the text. -/
def Writable (dst messageL a : ℕ) : Prop := dst ≤ a ∧ a < dst+(messageL-48)

section Touched

variable {p : Primitives} {keys : Keys} {mem : Buf} {dst topic topicL message messageL : ℕ}

theorem decryptNoted_notes (h : 48 ≤ messageL) :
    (decryptNoted p keys dst topic topicL message messageL).notes mem =
      (readBytes topic topicL).notes mem ++
        ((readBytes (message+32) (messageL-32)).notes mem ++
          ((readBytes message 32).notes mem ++
            if TagValid p keys mem topic topicL message messageL then
              (openNoted p keys dst message (messageL-48)).notes mem
            else [])) := by
  have hlen : ¬messageL < sha256DigestLength+16 := by
    rw [sha256DigestLength]
    omega
  rw [decryptNoted,if_neg hlen,notes_bind,readBytes_value,readBytes_final,notes_bind,
    readBytes_value,readBytes_final,notes_bind,readBytes_value,readBytes_final]
  by_cases htag : TagValid p keys mem topic topicL message messageL
  · have hsame := htag
    rw [TagValid,authenticated] at hsame
    rw [if_pos htag,if_neg (not_not.mpr hsame)]
    rfl
  · have hother := htag
    rw [TagValid,authenticated] at hother
    rw [if_neg htag,if_pos hother]
    rfl

theorem stays_checkPadding {R W : ℕ → Prop} {last n i : ℕ} {pad : UInt8}
    (h : ∀ j < n, R (last-(i+j))) : Stays R W (checkPadding last pad n i) := by
  induction n generalizing i with
  | zero => exact stays_pure _
  | succ n ih =>
    refine stays_bind (stays_read (h 0 (by omega))) fun b => ?_
    split
    · refine ih fun j hj => ?_
      rw [Nat.add_assoc]
      exact h (1+j) (by omega)
    · exact stays_pure _

/-- With whole blocks, at least one, the decryption stays in the message and the text. -/
theorem stays_openNoted {k : ℕ} (hk : 0 < k) :
    Stays (Readable dst topic topicL message (48+16*k)) (Writable dst (48+16*k))
      (openNoted p keys dst message (16*k)) := by
  have hmessage : ∀ {a}, message ≤ a → a < message+(48+16*k) →
      Readable dst topic topicL message (48+16*k) a := fun h₁ h₂ => Or.inr (Or.inl ⟨h₁,h₂⟩)
  have htext : ∀ {a}, dst ≤ a → a < dst+16*k → Writable dst (48+16*k) a := by
    intro a h₁ h₂
    rw [Writable]
    omega
  have hread : ∀ {a}, dst ≤ a → a < dst+16*k →
      Readable dst topic topicL message (48+16*k) a := fun h₁ h₂ => Or.inr (Or.inr (htext h₁ h₂))
  rw [openNoted,sha256DigestLength]
  refine stays_bind (stays_aes128CbcDecryptBuffer hk
    (fun i hi => hmessage (by omega) (by omega)) (fun i hi => hmessage (by omega) (by omega))
    (fun i hi => hread (by omega) (by omega)) fun i hi => htext (by omega) (by omega)) fun _ => ?_
  rw [if_neg (by omega)]
  refine stays_bind (stays_read (hread (by omega) (by omega))) fun pad => ?_
  split
  · exact stays_pure _
  rename_i hpad
  have hle : pad.toNat ≤ 16 := by
    rcases not_or.mp hpad with ⟨_,hgt⟩
    exact Nat.le_of_not_lt fun hlt => hgt (UInt8.lt_iff_toNat_lt.mpr hlt)
  refine stays_bind (stays_checkPadding fun j hj => hread (by omega) (by omega)) fun ok => ?_
  split
  · exact stays_pure _
  · exact stays_pure _

theorem openNoted_writes (encryptedLen : ℕ) :
    .write dst ∈ (openNoted p keys dst message encryptedLen).notes mem := by
  rw [openNoted,notes_bind]
  exact List.mem_append_left _ (aes128CbcDecryptBuffer_writes mem _ _ _ _ _)

theorem openNoted_writes_past {encryptedLen : ℕ} (h : encryptedLen%16 ≠ 0) :
    .write (dst+16*rounds encryptedLen) ∈
      (openNoted p keys dst message encryptedLen).notes mem := by
  rw [openNoted,notes_bind]
  exact List.mem_append_left _ (aes128CbcDecryptBuffer_writes_past mem _ h _ _ _)

/-- Everything touched lies in the topic, in the message or in the text. -/
def Inside (p : Primitives) (keys : Keys) (mem : Buf) (dst topic topicL message messageL : ℕ) : Prop :=
  ∀ e ∈ (decryptNoted p keys dst topic topicL message messageL).notes mem,
    Within (Readable dst topic topicL message messageL) (Writable dst messageL) e

theorem inside_iff :
    Inside p keys mem dst topic topicL message messageL ↔
      (48 ≤ messageL → TagValid p keys mem topic topicL message messageL →
        48 < messageL ∧ (messageL-48)%16 = 0) := by
  constructor
  · intro h hlen htag
    have hopen : ∀ e ∈ (openNoted p keys dst message (messageL-48)).notes mem,
        Within (Readable dst topic topicL message messageL) (Writable dst messageL) e := by
      intro e he
      refine h e ?_
      rw [decryptNoted_notes hlen,if_pos htag]
      exact List.mem_append_right _ (List.mem_append_right _ (List.mem_append_right _ he))
    have hblocks : (messageL-48)%16 = 0 := by
      by_contra hne
      have hpast : Writable dst messageL (dst+16*rounds (messageL-48)) :=
        hopen _ (openNoted_writes_past hne)
      rw [Writable,rounds] at hpast
      omega
    have hfirst : Writable dst messageL dst := hopen _ (openNoted_writes _)
    rw [Writable] at hfirst
    exact ⟨by omega,hblocks⟩
  · intro h
    by_cases hlen : 48 ≤ messageL
    · have hread : ∀ a n, (∀ k < n, Readable dst topic topicL message messageL (a+k)) →
          ∀ e ∈ (readBytes a n).notes mem,
            Within (Readable dst topic topicL message messageL) (Writable dst messageL) e :=
        fun a n hin => (stays_readBytes hin mem trivial).1
      intro e he
      rw [decryptNoted_notes hlen,List.mem_append,List.mem_append,List.mem_append] at he
      rcases he with he | he | he | he
      · exact hread _ _ (fun k hk => Or.inl (by omega)) e he
      · exact hread _ _ (fun k hk => Or.inr (Or.inl (by omega))) e he
      · exact hread _ _ (fun k hk => Or.inr (Or.inl (by omega))) e he
      · split at he
        · rename_i htag
          obtain ⟨hgt,hblocks⟩ := h hlen htag
          obtain ⟨k,rfl⟩ : ∃ k, messageL = 48+16*k := ⟨(messageL-48)/16,by omega⟩
          rw [Nat.add_sub_cancel_left] at he
          exact (stays_openNoted (by omega) mem trivial).1 e he
        · cases he
    · intro e he
      rw [decryptNoted,if_pos (by rw [sha256DigestLength]; omega)] at he
      cases he

end Touched

/-- There are finitely many blocks, so a cipher undone by its inverse also undoes it. -/
theorem cipher_invCipher (p : Primitives) (key : List UInt8) (b : Block) :
    p.cipher key (p.invCipher key b) = b := by
  have hleft : Function.LeftInverse (p.invCipher key) (p.cipher key) := p.invCipher_cipher key
  have hsurj : Function.Surjective (p.cipher key) := Finite.surjective_of_injective hleft.injective
  exact hleft.rightInverse_of_surjective hsurj b

section Genuine

variable {p : Primitives} {keys : Keys} {mem : Buf} {dst topic topicL message messageL : ℕ}

theorem padded_load {out : Buf} {k : ℕ} {pad : UInt8} (hk : 0 < k)
    (hpad : 1 ≤ pad.toNat ∧ pad.toNat ≤ 16) (h : ∀ i < pad.toNat, out (dst+16*k-1-i) = pad) :
    padded (load out dst (16*k-pad.toNat)) = load out dst (16*k) := by
  have hsplit : 16*k = 16*k-pad.toNat+pad.toNat := by omega
  have hmod : 16-(16*k-pad.toNat)%16 = pad.toNat := by omega
  have hend : load out (dst+(16*k-pad.toNat)) pad.toNat = List.replicate pad.toNat pad := by
    rw [List.eq_replicate_iff]
    refine ⟨load_length _ _ _,fun b hb => ?_⟩
    obtain ⟨i,hi,rfl⟩ := List.getElem_of_mem hb
    rw [load_length] at hi
    rw [load_getElem]
    refine Eq.trans (congrArg out ?_) (h (pad.toNat-1-i) (by omega))
    omega
  rw [padded,padding,load_length,hmod,UInt8.ofNat_toNat]
  conv_rhs => rw [hsplit,load_add,hend]

theorem decryptAesHmacCombined_text {k : ℕ} (hk : 0 < k)
    (hpos : 0 < (decryptAesHmacCombined p keys mem dst topic topicL message (48+16*k)).2) :
    padded (load (decryptAesHmacCombined p keys mem dst topic topicL message (48+16*k)).1 dst
        (decryptAesHmacCombined p keys mem dst topic topicL message (48+16*k)).2) =
      load (AesCbc.aes128CbcDecryptBuffer (p.invCipher keys.aesKey) mem dst (message+48) (16*k)
        (message+32)) dst (16*k) := by
  have hlen : 48+16*k-(32+16) = 16*k := by omega
  rw [decryptAesHmacCombined,if_neg (by rw [sha256DigestLength]; omega)] at hpos ⊢
  split at hpos
  · exact absurd hpos (Nat.lt_irrefl 0)
  rename_i htag
  rw [if_neg htag]
  simp only [sha256DigestLength,hlen,Nat.add_assoc message 32 16,Nat.reduceAdd] at hpos ⊢
  generalize AesCbc.aes128CbcDecryptBuffer (p.invCipher keys.aesKey) mem dst (message+48) (16*k)
    (message+32) = out at hpos ⊢
  rw [if_neg (by omega)] at hpos ⊢
  generalize hlast : out (dst+16*k-1) = pad at hpos ⊢
  split at hpos
  · exact absurd hpos (Nat.lt_irrefl 0)
  rename_i hpad
  split at hpos
  · rename_i hall
    rw [if_neg hpad,if_pos hall]
    obtain ⟨hzero,hgt⟩ := not_or.mp hpad
    have hle : pad.toNat ≤ 16 := Nat.le_of_not_lt fun hlt => hgt (UInt8.lt_iff_toNat_lt.mpr hlt)
    have hge : 1 ≤ pad.toNat := by
      rcases Nat.eq_zero_or_pos pad.toNat with h | h
      · exact absurd (UInt8.toNat_inj.mp h) hzero
      · exact h
    have hsub : sizeSub (16*k) pad.toNat = 16*k-pad.toNat := by
      rw [sizeSub,if_pos (by omega)]
    rw [hsub]
    refine padded_load hk ⟨hge,hle⟩ fun i hi => ?_
    rw [List.all_eq_true] at hall
    exact of_decide_eq_true (hall i (List.mem_range.mpr hi))
  · exact absurd hpos (Nat.lt_irrefl 0)

/-- Whole blocks behind a valid tag are the sealed form of the text that is taken out. -/
theorem decryptAesHmacCombined_genuine {k : ℕ} (hk : 0 < k)
    (hdst : Apart dst (16*k) message (48+16*k))
    (htag : TagValid p keys mem topic topicL message (48+16*k))
    (hpos : 0 < (decryptAesHmacCombined p keys mem dst topic topicL message (48+16*k)).2) :
    load mem message (48+16*k) =
      sealed p keys (getBlock mem (message+32)) (load mem topic topicL)
        (load (decryptAesHmacCombined p keys mem dst topic topicL message (48+16*k)).1 dst
          (decryptAesHmacCombined p keys mem dst topic topicL message (48+16*k)).2) := by
  have htext := decryptAesHmacCombined_text hk hpos
  rw [Apart] at hdst
  have hspec := @aes128CbcDecryptBuffer_spec mem dst (message+48) (message+32) k
    (p.invCipher keys.aesKey) hk (by rw [Apart]; omega) (by rw [Apart]; omega)
  have hblocks : blocksOf (padded (load
      (decryptAesHmacCombined p keys mem dst topic topicL message (48+16*k)).1 dst
      (decryptAesHmacCombined p keys mem dst topic topicL message (48+16*k)).2)) =
      Cbc.decrypt xorBlock (p.invCipher keys.aesKey) (getBlock mem (message+32))
        (getBlocks mem (message+48) k) := by
    rw [htext,← getBlocks_eq,hspec]
  have hbody : sealedBody p keys (getBlock mem (message+32))
      (load (decryptAesHmacCombined p keys mem dst topic topicL message (48+16*k)).1 dst
        (decryptAesHmacCombined p keys mem dst topic topicL message (48+16*k)).2) =
      load mem (message+32) (16+16*k) := by
    rw [sealedBody,hblocks,Cbc.decrypt_encrypted xorBlock_xorBlock (cipher_invCipher p keys.aesKey),
      load_add,load_block,load_blocks]
  have hrest : 48+16*k-32 = 16+16*k := by omega
  rw [TagValid,authenticated,sha256DigestLength,hrest] at htag
  rw [sealed,hbody,htag,← load_add]
  congr 1
  omega

end Genuine

/-- A text is taken out only of what the encryption makes of that text, with the topic and the
vector of the message, and nothing else is touched. -/
structure Sound (p : Primitives) (keys : Keys) (mem : Buf) (dst topic topicL message messageL : ℕ) :
    Prop where
  genuine : TagValid p keys mem topic topicL message messageL →
    let out := (decryptNoted p keys dst topic topicL message messageL).final mem
    let n := (decryptNoted p keys dst topic topicL message messageL).value mem
    0 < n → (∃ k, 1 ≤ k ∧ messageL = 48+16*k) ∧
      ∀ (mem' : Buf) (dst' topic' message' : ℕ),
        load mem' topic' topicL = load mem topic topicL → load mem' message' n = load out dst n →
        Apart dst' messageL topic' topicL → Apart dst' messageL message' n →
        let sent := encryptAesHmacCombined p keys (getBlock mem (message+32)) mem' dst' topic' topicL
          message' n
        sent.2 = messageL ∧ load sent.1 dst' messageL = load mem message messageL
  inside : Inside p keys mem dst topic topicL message messageL

/-- A decryption to a buffer of its own is sound just when what follows the tag and the vector of
a message with a valid tag is made of whole blocks, at least one. -/
theorem decrypt_sound (p : Primitives) (keys : Keys) (mem : Buf)
    (dst topic topicL message messageL : ℕ) (hdst : Apart dst (messageL-48) message messageL) :
    Sound p keys mem dst topic topicL message messageL ↔
      (48 ≤ messageL → TagValid p keys mem topic topicL message messageL →
        48 < messageL ∧ (messageL-48)%16 = 0) := by
  constructor
  · exact fun h => inside_iff.mp h.inside
  · intro h
    refine ⟨?_,inside_iff.mpr h⟩
    intro htag out n hpos
    have herased : (out,n) = decryptAesHmacCombined p keys mem dst topic topicL message messageL :=
      decryptNoted_erased
    have hout := congrArg Prod.fst herased
    have hn := congrArg Prod.snd herased
    dsimp only at hout hn
    have hlong : 48 ≤ messageL := by
      by_contra hlt
      rw [hn,decryptAesHmacCombined,if_pos (by rw [sha256DigestLength]; omega)] at hpos
      exact absurd hpos (Nat.lt_irrefl 0)
    obtain ⟨hgt,hblocks⟩ := h hlong htag
    obtain ⟨k,rfl⟩ : ∃ k, messageL = 48+16*k := ⟨(messageL-48)/16,by omega⟩
    rw [Nat.add_sub_cancel_left] at hdst
    have hgenuine := decryptAesHmacCombined_genuine (by omega) hdst htag (hn ▸ hpos)
    rw [← hout,← hn] at hgenuine
    have hlength : 48+16*(n/16+1) = 48+16*k := by
      have hlen := congrArg List.length hgenuine
      rw [load_length,sealed_length,load_length] at hlen
      exact hlen.symm
    refine ⟨⟨k,by omega,rfl⟩,?_⟩
    intro mem' dst' topic' message' htopic htext htopicApart htextApart
    rw [← hlength] at htopicApart htextApart
    obtain ⟨hret,hsent,_⟩ := @encryptAesHmacCombined_spec p keys (getBlock mem (message+32)) mem' dst'
      topic' topicL message' n htopicApart htextApart
    rw [hlength] at hret hsent
    exact ⟨hret,by rw [hsent,htopic,htext,← hgenuine]⟩

namespace Sample

/-- The block of zeros taken back, a ciphertext of one block and one byte, and its tag under
the topic `"/a"`. -/
def zeroBack : List UInt8 :=
  [0x8b,0xa2,0x9c,0xe7,0xf2,0x32,0x3b,0xcc,0xbb,0x15,0xaf,0x70,0xd2,0xf7,0x89,0x67]

def forged : List UInt8 :=
  [0x8a,0x01,0x02,0x03,0x04,0x05,0x06,0x07,0x08,0x09,0x0a,0x0b,0x0c,0x0d,0x0e,0x0f]

def forgedBack : List UInt8 :=
  [0x2e,0xcf,0x19,0xd3,0xf6,0x60,0xd2,0x95,0x51,0x34,0x90,0xa5,0x09,0x90,0x2c,0xa5]

def forgedTag : List UInt8 :=
  [0xe1,0xfc,0xe8,0x60,0x36,0x8a,0x33,0xc6,0x12,0xdf,0x3c,0xb5,0x28,0xae,0x46,0xbd,
    0xf3,0x61,0x0d,0x38,0x80,0x52,0x1f,0xe9,0xaf,0x03,0x28,0x34,0x04,0x04,0x80,0xab]

/-- AES-128, HMAC-SHA256 and SHA-256 at the inputs that the decryption of it gives. -/
def forgedPrimitives : Primitives where
  cipher k b := swapBlock (digest.take 16) (blockOf []) (blockOf zeroBack) k
    (swapBlock (digest.take 16) (blockOf forged) (blockOf forgedBack) k b)
  invCipher k b := swapBlock (digest.take 16) (blockOf forged) (blockOf forgedBack) k
    (swapBlock (digest.take 16) (blockOf []) (blockOf zeroBack) k b)
  invCipher_cipher k b := by rw [swapBlock_swapBlock,swapBlock_swapBlock]
  hmacSha256 key input :=
    if key = digest.drop 16 ∧ input = [0x2f,0x61] ++ iv ++ forged ++ [0] then forgedTag
    else List.replicate 32 0
  hmacSha256_length key input := by
    split <;> rfl
  sha256Raw input := if input = masterKey then digest else List.replicate 32 0

/-- The topic at 0, the message at 16. -/
def forgedMem : Buf :=
  store (store (fun _ => 0) 0 [0x2f,0x61]) 16 (forgedTag ++ iv ++ forged ++ [0])

end Sample

open Sample in
/-- The 64 bytes of the message `"1"`: the condition is met, and the decryption is sound. -/
theorem decrypt_sound_sample :
    let keys := initAesHmacCombined primitives masterKey
    let packet := store Sample.mem 16 (tag ++ iv ++ ciphertext)
    Sound primitives keys packet 100 0 2 16 64 := by
  intro keys packet
  exact (decrypt_sound primitives keys packet 100 0 2 16 64 (by decide)).mpr fun _ _ => by decide

open Sample in
/-- A ciphertext of one block and one byte with a valid tag: sixteen bytes are taken out of it. -/
theorem decrypt_unsound : ¬∀ (p : Primitives) (keys : Keys) (mem : Buf)
    (dst topic topicL message messageL : ℕ), Apart dst (messageL-48) message messageL →
      Sound p keys mem dst topic topicL message messageL := by
  intro h
  have hsound := h forgedPrimitives (initAesHmacCombined forgedPrimitives masterKey) forgedMem 200 0 2
    16 65 (by decide)
  have htag : TagValid forgedPrimitives (initAesHmacCombined forgedPrimitives masterKey) forgedMem
    0 2 16 65 := by decide
  have hpos : 0 < (decryptNoted forgedPrimitives (initAesHmacCombined forgedPrimitives masterKey)
      200 0 2 16 65).value forgedMem := by
    decide +kernel
  obtain ⟨⟨k,_,hk⟩,_⟩ := hsound.genuine htag hpos
  omega

end Crypto
end MeterLogger
