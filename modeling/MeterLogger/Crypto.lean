import Mathlib.Data.Fintype.Fin
import Mathlib.Data.List.OfFn
import MeterLogger.AesCbc

/-!
# Authenticated encryption of messages

`crypto.c` puts the tag, the initialisation vector and the ciphertext of the padded message in
one buffer; the tag is taken over the topic and what follows the tag. The buffer of
`encrypt_aes_hmac_combined` is `sealed`, and `decrypt_aes_hmac_combined` takes the message out
of it again. What the tag binds is the text of topic and message run together.
-/

namespace MeterLogger
namespace Crypto

open AesCbc Buffers

def sha256DigestLength : ℕ := 32

structure Keys where
  aesKey : List UInt8
  hmacSha256Key : List UInt8

def initAesHmacCombined (p : Primitives) (key : List UInt8) : Keys :=
  let masterKey := key.take 16
  let hash := p.sha256Raw masterKey
  { aesKey := hash.take 16, hmacSha256Key := (hash.drop 16).take 16 }

/-- What `hmac_sha256_update` is given: the topic, and the message from behind the tag on. -/
def authenticated (mem : Buf) (topic topicL message messageL : ℕ) : List UInt8 :=
  load mem topic topicL ++
    load mem (message+sha256DigestLength) (messageL-sha256DigestLength)

/-- `encrypt_aes_hmac_combined` with the bytes of `os_get_random`; the length it returns. -/
def encryptAesHmacCombined (p : Primitives) (keys : Keys) (random : Block) (mem : Buf)
    (dst topic topicL message messageL : ℕ) : Buf × ℕ :=
  let mem := putBlock mem (dst+sha256DigestLength) random
  let pad := 16-messageL%16
  let paddedLen := messageL+pad
  let mem := store mem (dst+sha256DigestLength+16) (load mem message messageL)
  let mem := store mem (dst+sha256DigestLength+16+messageL)
    (List.replicate pad (UInt8.ofNat pad))
  let mem := aes128CbcEncryptBuffer (p.cipher keys.aesKey) mem (dst+sha256DigestLength+16)
    (dst+sha256DigestLength+16) paddedLen (dst+sha256DigestLength)
  let totalLen := sha256DigestLength+16+paddedLen
  (store mem dst (p.hmacSha256 keys.hmacSha256Key (authenticated mem topic topicL dst totalLen)),
    totalLen)

/-- The difference of two `size_t`. -/
def sizeSub (a b : ℕ) : ℕ := if b ≤ a then a-b else 2^32-(b-a)

/-- `decrypt_aes_hmac_combined`; 0 for a message that is refused. -/
def decryptAesHmacCombined (p : Primitives) (keys : Keys) (mem : Buf)
    (dst topic topicL message messageL : ℕ) : Buf × ℕ :=
  if messageL < sha256DigestLength+16 then (mem,0)
  else if p.hmacSha256 keys.hmacSha256Key (authenticated mem topic topicL message messageL) ≠
      load mem message sha256DigestLength then (mem,0)
  else
    let encryptedLen := messageL-(sha256DigestLength+16)
    let mem := aes128CbcDecryptBuffer (p.invCipher keys.aesKey) mem dst
      (message+sha256DigestLength+16) encryptedLen (message+sha256DigestLength)
    if encryptedLen = 0 then (mem,0)
    else
      let pad := mem (dst+encryptedLen-1)
      if pad = 0 ∨ 16 < pad then (mem,0)
      else if (List.range pad.toNat).all fun i => mem (dst+encryptedLen-1-i) = pad then
        (mem,sizeSub encryptedLen pad.toNat)
      else (mem,0)

/-- PKCS#7 padding. -/
def padding (n : ℕ) : List UInt8 := List.replicate (16-n%16) (UInt8.ofNat (16-n%16))

def padded (message : List UInt8) : List UInt8 := message ++ padding message.length

def sealedBody (p : Primitives) (keys : Keys) (random : Block) (message : List UInt8) :
    List UInt8 :=
  List.ofFn random ++
    (Cbc.encrypt xorBlock (p.cipher keys.aesKey) random (blocksOf (padded message))).flatMap
      List.ofFn

def sealed (p : Primitives) (keys : Keys) (random : Block) (topic message : List UInt8) :
    List UInt8 :=
  p.hmacSha256 keys.hmacSha256Key (topic ++ sealedBody p keys random message) ++
    sealedBody p keys random message

theorem padded_length (message : List UInt8) :
    (padded message).length = 16*(message.length/16+1) := by
  rw [padded,padding,List.length_append,List.length_replicate]
  omega

theorem sealedBody_length (p : Primitives) (keys : Keys) (random : Block) (message : List UInt8) :
    (sealedBody p keys random message).length = 16+16*(message.length/16+1) := by
  have hblocks : (blocksOf (padded message)).length = message.length/16+1 := by
    rw [blocksOf,List.length_map,List.length_range,padded_length]
    omega
  rw [sealedBody,List.length_append,List.length_ofFn,flatMap_blocks_length,Cbc.encrypt_length,
    hblocks]

theorem sealed_length (p : Primitives) (keys : Keys) (random : Block) (topic message : List UInt8) :
    (sealed p keys random topic message).length = 48+16*(message.length/16+1) := by
  rw [sealed,List.length_append,p.hmacSha256_length,sealedBody_length]
  omega

section Encrypt

variable {p : Primitives} {keys : Keys} {random : Block} {mem : Buf}
  {dst topic topicL message messageL : ℕ}

/-- The buffer before the encryption: vector and padded message. -/
def plaintextMem (random : Block) (mem : Buf) (dst : ℕ) (text : List UInt8) : Buf :=
  store (putBlock mem (dst+32) random) (dst+48) (padded text)

theorem plaintextMem_out {text : List UInt8} {x : ℕ}
    (h : x < dst+32 ∨ dst+48+(padded text).length ≤ x) : plaintextMem random mem dst text x = mem x := by
  rw [plaintextMem,store_out (by omega),putBlock_out (by omega)]

theorem plaintextMem_eq (hmessage : Apart dst (48+16*(messageL/16+1)) message messageL) :
    store
        (store (putBlock mem (dst+32) random) (dst+48)
          (load (putBlock mem (dst+32) random) message messageL))
        (dst+48+messageL) (List.replicate (16-messageL%16) (UInt8.ofNat (16-messageL%16))) =
      plaintextMem random mem dst (load mem message messageL) := by
  have htext : load (putBlock mem (dst+32) random) message messageL = load mem message messageL := by
    apply load_congr
    intro k hk
    rw [Apart] at hmessage
    exact putBlock_out (by omega)
  have hlen : (load mem message messageL).length = messageL := load_length _ _ _
  have happend := store_append (putBlock mem (dst+32) random) (dst+48) (load mem message messageL)
    (padding (load mem message messageL).length)
  rw [hlen,padding] at happend
  rw [htext,plaintextMem,padded,padding,hlen]
  exact happend

def ciphertextMem (p : Primitives) (keys : Keys) (random : Block) (mem : Buf) (dst : ℕ)
    (text : List UInt8) : Buf :=
  aes128CbcEncryptBuffer (p.cipher keys.aesKey) (plaintextMem random mem dst text) (dst+48) (dst+48)
    (16*(text.length/16+1)) (dst+32)

theorem ciphertextMem_out {text : List UInt8} {x : ℕ}
    (h : x < dst+32 ∨ dst+48+16*(text.length/16+1) ≤ x) :
    ciphertextMem p keys random mem dst text x = mem x := by
  have hlen := padded_length text
  have happart : Apart (dst+48) (16*(text.length/16+1)) (dst+32) 16 := by rw [Apart]; omega
  rw [ciphertextMem,(aes128CbcEncryptBuffer_spec _ happart).2 x (by omega),
    plaintextMem_out (by omega)]

theorem ciphertextMem_body (text : List UInt8) :
    load (ciphertextMem p keys random mem dst text) (dst+32) (16+16*(text.length/16+1)) =
      sealedBody p keys random text := by
  have hlen := padded_length text
  have happart : Apart (dst+48) (16*(text.length/16+1)) (dst+32) 16 := by rw [Apart]; omega
  have hspec := @aes128CbcEncryptBuffer_spec (plaintextMem random mem dst text) _ _ _
    (p.cipher keys.aesKey) happart
  rw [← ciphertextMem] at hspec
  obtain ⟨hblocks,hframe⟩ := hspec
  have hvector : getBlock (plaintextMem random mem dst text) (dst+32) = random := by
    have hsame : getBlock (plaintextMem random mem dst text) (dst+32) =
        getBlock (putBlock mem (dst+32) random) (dst+32) := by
      apply getBlock_congr
      intro i hi
      rw [plaintextMem,store_out (by omega)]
    rw [hsame,getBlock_putBlock]
  have hvector' : getBlock (ciphertextMem p keys random mem dst text) (dst+32) = random := by
    refine Eq.trans ?_ hvector
    apply getBlock_congr
    intro i hi
    exact hframe _ (by omega)
  have htext : getBlocks (plaintextMem random mem dst text) (dst+48) (text.length/16+1) =
      blocksOf (padded text) := by
    rw [getBlocks_eq,← hlen,plaintextMem,load_store]
  rw [hvector,htext] at hblocks
  rw [load_add,load_block,hvector',load_blocks,sealedBody,Nat.add_assoc dst 32 16,hblocks]

theorem encryptAesHmacCombined_spec
    (htopic : Apart dst (48+16*(messageL/16+1)) topic topicL)
    (hmessage : Apart dst (48+16*(messageL/16+1)) message messageL) :
    (encryptAesHmacCombined p keys random mem dst topic topicL message messageL).2 =
        48+16*(messageL/16+1) ∧
      load (encryptAesHmacCombined p keys random mem dst topic topicL message messageL).1 dst
          (48+16*(messageL/16+1)) =
        sealed p keys random (load mem topic topicL) (load mem message messageL) ∧
      ∀ x, x < dst ∨ dst+(48+16*(messageL/16+1)) ≤ x →
        (encryptAesHmacCombined p keys random mem dst topic topicL message messageL).1 x =
          mem x := by
  have hpadded : messageL+(16-messageL%16) = 16*(messageL/16+1) := by omega
  have hbody : 48+16*(messageL/16+1)-32 = 16+16*(messageL/16+1) := by omega
  have hlen : (load mem message messageL).length = messageL := load_length _ _ _
  have hsealed : load (ciphertextMem p keys random mem dst (load mem message messageL)) (dst+32)
      (16+16*(messageL/16+1)) = sealedBody p keys random (load mem message messageL) := by
    have hbytes := @ciphertextMem_body p keys random mem dst (load mem message messageL)
    rwa [hlen] at hbytes
  have hframe : ∀ x, x < dst+32 ∨ dst+48+16*(messageL/16+1) ≤ x →
      ciphertextMem p keys random mem dst (load mem message messageL) x = mem x := by
    intro x hx
    exact ciphertextMem_out (by rwa [hlen])
  have htopic' : load (ciphertextMem p keys random mem dst (load mem message messageL)) topic topicL =
      load mem topic topicL := by
    apply load_congr
    intro k hk
    rw [Apart] at htopic
    exact hframe _ (by omega)
  have hcipher : aes128CbcEncryptBuffer (p.cipher keys.aesKey)
      (plaintextMem random mem dst (load mem message messageL)) (dst+48) (dst+48)
      (16*(messageL/16+1)) (dst+32) =
      ciphertextMem p keys random mem dst (load mem message messageL) := by
    rw [ciphertextMem,hlen]
  rw [encryptAesHmacCombined]
  simp only [sha256DigestLength,authenticated,hpadded,Nat.add_assoc dst 32 16,Nat.reduceAdd]
  rw [plaintextMem_eq hmessage,hcipher,hbody,htopic',hsealed]
  refine ⟨trivial,?_,?_⟩
  · have htag := p.hmacSha256_length keys.hmacSha256Key
      (load mem topic topicL ++ sealedBody p keys random (load mem message messageL))
    have hsplit : 48+16*(messageL/16+1) = 32+(16+16*(messageL/16+1)) := by omega
    rw [hsplit,load_add,sealed]
    congr 1
    · rw [← htag,load_store]
    · rw [load_store_other (by omega),hsealed]
  · intro x hx
    rw [store_out (by rw [p.hmacSha256_length]; omega)]
    exact hframe x (by omega)

end Encrypt

section Decrypt

variable {p : Primitives} {keys : Keys} {random : Block} {mem : Buf}
  {dst topic topicL message messageL : ℕ} {text : List UInt8}

theorem sealed_parts {topicText : List UInt8}
    (h : load mem message (48+16*(text.length/16+1)) = sealed p keys random topicText text) :
    load mem message 32 =
        p.hmacSha256 keys.hmacSha256Key (topicText ++ sealedBody p keys random text) ∧
      load mem (message+32) (16+16*(text.length/16+1)) = sealedBody p keys random text ∧
      getBlock mem (message+32) = random ∧
      getBlocks mem (message+48) (text.length/16+1) =
        Cbc.encrypt xorBlock (p.cipher keys.aesKey) random (blocksOf (padded text)) := by
  have htag := p.hmacSha256_length keys.hmacSha256Key (topicText ++ sealedBody p keys random text)
  have hbody := sealedBody_length p keys random text
  obtain ⟨h₁,h₂⟩ := load_append h
  rw [htag] at h₁ h₂
  rw [hbody] at h₂
  have h₃ := h₂
  rw [sealedBody] at h₃
  obtain ⟨hvector,hblocks⟩ := load_append h₃
  rw [List.length_ofFn] at hvector hblocks
  refine ⟨h₁,h₂,?_,?_⟩
  · rw [load_block] at hvector
    exact List.ofFn_injective hvector
  · have hlen : (Cbc.encrypt xorBlock (p.cipher keys.aesKey) random
        (blocksOf (padded text))).length = text.length/16+1 := by
      rw [Cbc.encrypt_length,blocksOf,List.length_map,List.length_range,padded_length]
      omega
    rw [flatMap_blocks_length,hlen] at hblocks
    rw [getBlocks_eq,← Nat.add_assoc message 32 16,hblocks,blocksOf_flatMap]

theorem flatMap_blocksOf {bytes : List UInt8} {n : ℕ} (h : bytes.length = 16*n) :
    (blocksOf bytes).flatMap List.ofFn = bytes := by
  have hload : load (store (fun _ => 0) 0 bytes) 0 (16*n) = bytes := by
    rw [← h]
    exact load_store _ _ _
  conv_lhs => rw [← hload]
  rw [← getBlocks_eq,← load_blocks,hload]

theorem padded_end {mem : Buf} {a : ℕ} (h : load mem a (16*(text.length/16+1)) = padded text)
    {i : ℕ} (hi : i < 16-text.length%16) :
    mem (a+16*(text.length/16+1)-1-i) = UInt8.ofNat (16-text.length%16) := by
  have hlen := padded_length text
  obtain ⟨_,hpad⟩ := load_append (show load mem a (16*(text.length/16+1)) =
    text ++ padding text.length from h)
  have hidx : a+16*(text.length/16+1)-1-i = a+text.length+(16-text.length%16-1-i) := by omega
  have hin : 16-text.length%16-1-i < (load mem (a+text.length) (padding text.length).length).length := by
    rw [load_length,padding,List.length_replicate]
    omega
  rw [hidx,← load_getElem hin,List.getElem_of_eq hpad]
  simp only [padding,List.getElem_replicate]

/-- A sealed message is taken out of its packet: its length is returned, and the message with
its padding is in the buffer. -/
theorem decryptAesHmacCombined_sealed
    (h : load mem message (48+16*(text.length/16+1)) =
      sealed p keys random (load mem topic topicL) text)
    (hdst : Apart dst (16*(text.length/16+1)) message (48+16*(text.length/16+1))) :
    (decryptAesHmacCombined p keys mem dst topic topicL message (48+16*(text.length/16+1))).2 =
        text.length ∧
      load (decryptAesHmacCombined p keys mem dst topic topicL message
          (48+16*(text.length/16+1))).1 dst (16*(text.length/16+1)) = padded text := by
  obtain ⟨htag,hbody,hvector,hblocks⟩ := sealed_parts h
  rw [Apart] at hdst
  have henc : 48+16*(text.length/16+1)-(32+16) = 16*(text.length/16+1) := by omega
  have hauth : authenticated mem topic topicL message (48+16*(text.length/16+1)) =
      load mem topic topicL ++ sealedBody p keys random text := by
    have hlen : 48+16*(text.length/16+1)-32 = 16+16*(text.length/16+1) := by omega
    rw [authenticated,sha256DigestLength,hlen,hbody]
  have hplain : load (aes128CbcDecryptBuffer (p.invCipher keys.aesKey) mem dst (message+48)
      (16*(text.length/16+1)) (message+32)) dst (16*(text.length/16+1)) = padded text := by
    rw [load_blocks,aes128CbcDecryptBuffer_spec _ (Nat.succ_pos _) (by rw [Apart]; omega)
      (by rw [Apart]; omega),hvector,hblocks,
      Cbc.encrypt_decrypted xorBlock_xorBlock (p.invCipher_cipher keys.aesKey)]
    exact flatMap_blocksOf (padded_length text)
  have hpad : ∀ i, i < 16-text.length%16 → _ := fun i hi => padded_end hplain hi
  have hlast := hpad 0 (by omega)
  rw [Nat.sub_zero] at hlast
  have hsmall : (UInt8.ofNat (16-text.length%16)).toNat = 16-text.length%16 := by
    rw [UInt8.toNat_ofNat']
    omega
  rw [decryptAesHmacCombined,if_neg (by rw [sha256DigestLength]; omega),if_neg (by
    rw [hauth,sha256DigestLength,htag]
    simp)]
  simp only [sha256DigestLength,henc,Nat.add_assoc message 32 16,Nat.reduceAdd]
  have hvalid : ¬(UInt8.ofNat (16-text.length%16) = 0 ∨ 16 < UInt8.ofNat (16-text.length%16)) := by
    rintro (hzero | hgt)
    · have hnat := congrArg UInt8.toNat hzero
      rw [hsmall] at hnat
      have hz : UInt8.toNat 0 = 0 := rfl
      omega
    · have hnat := UInt8.lt_iff_toNat_lt.mp hgt
      rw [hsmall] at hnat
      have hz : UInt8.toNat 16 = 16 := rfl
      omega
  rw [if_neg (by omega),hlast,if_neg hvalid,if_pos (by
    rw [List.all_eq_true]
    intro i hi
    rw [hsmall,List.mem_range] at hi
    simpa using hpad i hi)]
  refine ⟨?_,hplain⟩
  rw [hsmall,sizeSub,if_pos (by omega)]
  omega

theorem decryptAesHmacCombined_out {x : ℕ}
    (h : x < dst ∨ dst+decryptSpan (messageL-48) ≤ x) :
    (decryptAesHmacCombined p keys mem dst topic topicL message messageL).1 x = mem x := by
  have hbuffer : ∀ input iv, aes128CbcDecryptBuffer (p.invCipher keys.aesKey) mem dst input
      (messageL-48) iv x = mem x := fun input iv => aes128CbcDecryptBuffer_out _ h
  rw [decryptAesHmacCombined]
  split
  · rfl
  split
  · rfl
  have hmem := hbuffer (message+sha256DigestLength+16) (message+sha256DigestLength)
  simp only [show messageL-(sha256DigestLength+16) = messageL-48 from rfl]
  generalize aes128CbcDecryptBuffer (p.invCipher keys.aesKey) mem dst
    (message+sha256DigestLength+16) (messageL-48) (message+sha256DigestLength) = mem' at hmem ⊢
  by_cases hnil : messageL-48 = 0
  · rwa [if_pos hnil]
  · rw [if_neg hnil]
    split
    · exact hmem
    split
    · exact hmem
    · exact hmem

end Decrypt

/-- What is encrypted with a topic is decrypted with it, in any memory that holds the packet and
the topic: the length of the message comes back, and the message with its padding. The message
given to the encryption is left alone. -/
theorem decrypt_encrypt (p : Primitives) (key : List UInt8) (random : Block) (mem : Buf)
    (dst topic topicL message messageL : ℕ)
    (htopic : Apart dst (48+16*(messageL/16+1)) topic topicL)
    (hmessage : Apart dst (48+16*(messageL/16+1)) message messageL) :
    let keys := initAesHmacCombined p key
    let sent := encryptAesHmacCombined p keys random mem dst topic topicL message messageL
    sent.2 = 48+16*(messageL/16+1) ∧
      load sent.1 message messageL = load mem message messageL ∧
      ∀ (mem' : Buf) (dst' topic' packet : ℕ),
        load mem' topic' topicL = load mem topic topicL →
        load mem' packet sent.2 = load sent.1 dst sent.2 →
        Apart dst' (sent.2-48) packet sent.2 →
        let got := decryptAesHmacCombined p keys mem' dst' topic' topicL packet sent.2
        got.2 = messageL ∧
          load got.1 dst' (sent.2-48) = load mem message messageL ++ padding messageL ∧
          ∀ x, x < dst' ∨ dst'+(sent.2-48) ≤ x → got.1 x = mem' x := by
  obtain ⟨hlength,hsealed,hframe⟩ :=
    @encryptAesHmacCombined_spec p (initAesHmacCombined p key) random mem _ _ _ _ _ htopic hmessage
  have hbody : 48+16*(messageL/16+1)-48 = 16*(messageL/16+1) := by omega
  have hlen : (load mem message messageL).length = messageL := load_length _ _ _
  simp only [hlength,hbody]
  refine ⟨trivial,?_,?_⟩
  · apply load_congr
    intro k hk
    rw [Apart] at hmessage
    exact hframe _ (by omega)
  · intro mem' dst' topic' packet htopic' hpacket hdst
    rw [hsealed,← htopic'] at hpacket
    have hgot := @decryptAesHmacCombined_sealed p (initAesHmacCombined p key) random mem' dst' topic'
      topicL packet (load mem message messageL)
    rw [hlen] at hgot
    obtain ⟨hret,htext⟩ := hgot hpacket hdst
    rw [padded,hlen] at htext
    refine ⟨hret,htext,fun x hx => decryptAesHmacCombined_out ?_⟩
    have hspan : decryptSpan (16*(messageL/16+1)) = 16*(messageL/16+1) := by
      rw [decryptSpan,rounds_blocks,if_pos (by omega)]
      omega
    rwa [hbody,hspan]

/-- A permutation of blocks that exchanges two under one key. -/
def swapBlock (key : List UInt8) (x y : Block) (k : List UInt8) (b : Block) : Block :=
  if k = key then if b = x then y else if b = y then x else b else b

theorem swapBlock_swapBlock (key : List UInt8) (x y : Block) (k : List UInt8) (b : Block) :
    swapBlock key x y k (swapBlock key x y k b) = b := by
  simp only [swapBlock]
  split_ifs <;> simp_all

def blockOf (bytes : List UInt8) : Block := fun i => bytes.getD i 0

namespace Sample

def masterKey : List UInt8 := (List.range 16).map UInt8.ofNat

def digest : List UInt8 :=
  [0xbe,0x45,0xcb,0x26,0x05,0xbf,0x36,0xbe,0xbd,0xe6,0x84,0x84,0x1a,0x28,0xf0,0xfd,
    0x43,0xc6,0x98,0x50,0xa3,0xdc,0xe5,0xfe,0xdb,0xa6,0x99,0x28,0xee,0x3a,0x89,0x91]

def iv : List UInt8 := (List.range 16).map fun i => UInt8.ofNat (0xa0+i)

/-- `"1"` with its NUL and fourteen bytes of padding, mixed with the vector. -/
def mixed : List UInt8 :=
  [0x91,0xa1,0xac,0xad,0xaa,0xab,0xa8,0xa9,0xa6,0xa7,0xa4,0xa5,0xa2,0xa3,0xa0,0xa1]

def ciphertext : List UInt8 :=
  [0x9c,0x3b,0xad,0xd9,0xff,0x3e,0x95,0xa7,0xd3,0x06,0xf5,0xe3,0xe0,0xa5,0xe1,0x28]

def tag : List UInt8 :=
  [0x48,0x11,0xec,0x57,0xc4,0x64,0x52,0x77,0x3d,0x38,0xba,0x0d,0xcd,0xec,0x53,0xb6,
    0x7a,0x6a,0x76,0xb1,0x50,0x46,0x73,0x3f,0xfb,0x06,0xbc,0x92,0xcd,0x25,0xd1,0x4c]

/-- AES-128, HMAC-SHA256 and SHA-256 at the inputs that the message `"1"` under the topic
`"/a"` gives. -/
def primitives : Primitives where
  cipher := swapBlock (digest.take 16) (blockOf mixed) (blockOf ciphertext)
  invCipher := swapBlock (digest.take 16) (blockOf mixed) (blockOf ciphertext)
  invCipher_cipher := swapBlock_swapBlock _ _ _
  hmacSha256 key input :=
    if key = digest.drop 16 ∧ input = [0x2f,0x61] ++ iv ++ ciphertext then tag
    else List.replicate 32 0
  hmacSha256_length key input := by
    split <;> rfl
  sha256Raw input := if input = masterKey then digest else List.replicate 32 0

/-- The topic at 0, the message at 8. -/
def mem : Buf := store (store (fun _ => 0) 0 [0x2f,0x61]) 8 [0x31,0]

end Sample

open Sample in
/-- The message `"1"` with its NUL: 64 bytes are sent, two come back. -/
theorem decrypt_encrypt_sample :
    let keys := initAesHmacCombined primitives masterKey
    let sent := encryptAesHmacCombined primitives keys (blockOf iv) mem 16 0 2 8 2
    let got := decryptAesHmacCombined primitives keys sent.1 100 0 2 16 sent.2
    sent.2 = 64 ∧ got.2 = 2 ∧ load got.1 100 16 = [0x31,0] ++ List.replicate 14 14 := by
  obtain ⟨hlength,_,hgot⟩ := decrypt_encrypt primitives masterKey (blockOf iv) mem 16 0 2 8 2
    (by decide) (by decide)
  obtain ⟨hret,htext,_⟩ := hgot _ 100 0 16 (by decide) rfl
    (by rw [hlength]; decide)
  exact ⟨hlength,hret,htext⟩

/-- What the tag is taken over, for a topic and an encrypted message. -/
def hmacInput (topic message : List UInt8) : List UInt8 := topic ++ message.drop sha256DigestLength

theorem load_drop (mem : Buf) (a n k : ℕ) : (load mem a n).drop k = load mem (a+k) (n-k) := by
  by_cases hk : k ≤ n
  · obtain ⟨m,rfl⟩ : ∃ m, n = k+m := ⟨n-k,by omega⟩
    have hlen : (load mem a k).length = k := load_length _ _ _
    rw [load_add,List.drop_append_of_le_length (by omega),List.drop_of_length_le (by omega),
      Nat.add_sub_cancel_left]
    rfl
  · have hzero : n-k = 0 := by omega
    rw [hzero,List.drop_of_length_le (by rw [load_length]; omega)]
    rfl

/-- `decrypt_aes_hmac_combined` takes the tag over it, in whatever memory topic and message
stand. -/
theorem authenticated_eq (mem : Buf) (topic topicL message messageL : ℕ) :
    authenticated mem topic topicL message messageL =
      hmacInput (load mem topic topicL) (load mem message messageL) := by
  rw [authenticated,hmacInput,load_drop]

theorem hmacInput_eq (topic₁ message₁ topic₂ message₂ : List UInt8) :
    hmacInput topic₁ message₁ = hmacInput topic₂ message₂ ↔
      ∃ moved,
        (topic₂ = topic₁ ++ moved ∧ message₁.drop 32 = moved ++ message₂.drop 32) ∨
          (topic₁ = topic₂ ++ moved ∧ message₂.drop 32 = moved ++ message₁.drop 32) := by
  rw [hmacInput,hmacInput,sha256DigestLength,List.append_eq_append_iff,exists_or]

theorem hmacInput_inj {topic₁ message₁ topic₂ message₂ : List UInt8}
    (hlen : topic₁.length = topic₂.length ∨ message₁.length = message₂.length)
    (heq : hmacInput topic₁ message₁ = hmacInput topic₂ message₂) :
    topic₁ = topic₂ ∧ message₁.drop 32 = message₂.drop 32 := by
  rw [hmacInput,hmacInput,sha256DigestLength] at heq
  rcases hlen with hlen | hlen
  · exact List.append_inj heq hlen
  · exact List.append_inj' heq (by rw [List.length_drop,List.length_drop,hlen])

/-- What decrypting feeds to HMAC is the same for two topics and messages just when the one topic
continues with the first bytes behind the tag of the other message, and the rest agrees. Topics of
one length, or messages of one length, are bound. -/
theorem authenticated_eq_iff (mem₁ mem₂ : Buf)
    (topic₁ topicL₁ message₁ messageL₁ topic₂ topicL₂ message₂ messageL₂ : ℕ) :
    let t₁ := load mem₁ topic₁ topicL₁
    let m₁ := load mem₁ message₁ messageL₁
    let t₂ := load mem₂ topic₂ topicL₂
    let m₂ := load mem₂ message₂ messageL₂
    (authenticated mem₁ topic₁ topicL₁ message₁ messageL₁ =
        authenticated mem₂ topic₂ topicL₂ message₂ messageL₂ ↔
      ∃ moved,
        (t₂ = t₁ ++ moved ∧ m₁.drop 32 = moved ++ m₂.drop 32) ∨
          (t₁ = t₂ ++ moved ∧ m₂.drop 32 = moved ++ m₁.drop 32)) ∧
      (topicL₁ = topicL₂ ∨ messageL₁ = messageL₂ →
        authenticated mem₁ topic₁ topicL₁ message₁ messageL₁ =
          authenticated mem₂ topic₂ topicL₂ message₂ messageL₂ →
        t₁ = t₂ ∧ m₁.drop 32 = m₂.drop 32) := by
  intro t₁ m₁ t₂ m₂
  rw [authenticated_eq,authenticated_eq]
  refine ⟨hmacInput_eq t₁ m₁ t₂ m₂,fun hlen => hmacInput_inj ?_⟩
  rw [load_length,load_length,load_length,load_length]
  exact hlen

/-- A byte moved from the message to the topic: the input to the tag is the same. -/
theorem authenticated_recut : ¬∀ (mem₁ mem₂ : Buf)
    (topic₁ topicL₁ message₁ messageL₁ topic₂ topicL₂ message₂ messageL₂ : ℕ),
    48 ≤ messageL₁ → 48 ≤ messageL₂ →
      authenticated mem₁ topic₁ topicL₁ message₁ messageL₁ =
        authenticated mem₂ topic₂ topicL₂ message₂ messageL₂ →
      load mem₁ topic₁ topicL₁ = load mem₂ topic₂ topicL₂ ∧
        (load mem₁ message₁ messageL₁).drop 32 = (load mem₂ message₂ messageL₂).drop 32 := by
  intro h
  let mem₁ : Buf := store (store (fun _ => 0) 0 [0x2f,0x61]) 8
    (List.replicate 32 0 ++ 0x62::List.replicate 16 0)
  let mem₂ : Buf := store (fun _ => 0) 0 [0x2f,0x61,0x62]
  have heq := h mem₁ mem₂ 0 2 8 49 0 3 8 48 (by decide) (by decide) (by decide)
  exact absurd heq.1 (by decide)

end Crypto
end MeterLogger
