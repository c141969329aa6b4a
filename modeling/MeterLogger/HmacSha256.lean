import MeterLogger.Aes
import MeterLogger.Crypto
import MeterLogger.Sha256

/-!
# HMAC-SHA256, and the encryption of messages with the ciphers of the firmware

The tag of `hmac-sha256.c` over a text that comes in pieces is the nested hash of the whole text
under the padded key. With it, the digest and the block cipher, the encryption of messages is a
function without parameters.
-/

namespace MeterLogger
namespace HmacSha256

open Buffers Sha256

structure HmacCtx where
  oKeyPad : List UInt8
  ctx : Ctx

def hmacSha256Init (key : List UInt8) : HmacCtx :=
  let iKeyPad := fun _ => 0
  let iKeyPad := store iKeyPad 0 (if 64 < key.length then sha256Raw key else key)
  { oKeyPad := (load iKeyPad 0 64).map (· ^^^ 0x5c)
    ctx := sha256Update sha256Init ((load iKeyPad 0 64).map (· ^^^ 0x36)) }

def hmacSha256Update (hctx : HmacCtx) (msg : List UInt8) : HmacCtx :=
  { hctx with ctx := sha256Update hctx.ctx msg }

def hmacSha256Final (hctx : HmacCtx) : List UInt8 :=
  let hash := (sha256Final hctx.ctx).2
  let ctx := sha256Update (sha256Update sha256Init hctx.oKeyPad) hash
  (sha256Final ctx).2

def hmacSha256 (key msg : List UInt8) : List UInt8 :=
  hmacSha256Final (hmacSha256Update (hmacSha256Init key) msg)

/-- The key, or its digest if it is longer than a block, filled up with zeros. -/
def blockKey (key : List UInt8) : List UInt8 :=
  let short := if 64 < key.length then digest key else key
  short ++ List.replicate (64-short.length) 0

def hmac (key msg : List UInt8) : List UInt8 :=
  digest ((blockKey key).map (· ^^^ 0x5c) ++ digest ((blockKey key).map (· ^^^ 0x36) ++ msg))

theorem load_key {key : List UInt8} (h : key.length ≤ 64) :
    load (store (fun _ => 0) 0 key) 0 64 = key ++ List.replicate (64-key.length) 0 := by
  have hzeros : ∀ i, load (fun _ => 0) i (64-key.length) = List.replicate (64-key.length) 0 := by
    intro i
    exact List.eq_replicate_iff.mpr ⟨load_length _ _ _,by simp [load]⟩
  rw [show 64 = key.length+(64-key.length) by omega,load_add,load_store,Nat.zero_add,
    load_store_other (Or.inr (by omega)),Nat.add_sub_cancel_left,hzeros]

theorem init_pad (key : List UInt8) :
    load (store (fun _ => 0) 0 (if 64 < key.length then sha256Raw key else key)) 0 64 =
      blockKey key := by
  rw [sha256Raw_eq,blockKey,load_key]
  split_ifs with h
  · rw [digest_length]
    decide
  · exact Nat.le_of_not_lt h

/-- The context that has taken the bytes of `msg` under a key. -/
structure Keyed (hctx : HmacCtx) (key msg : List UInt8) : Prop where
  oKeyPad : hctx.oKeyPad = (blockKey key).map (· ^^^ 0x5c)
  ctx : Holds hctx.ctx ((blockKey key).map (· ^^^ 0x36) ++ msg)

theorem keyed_init (key : List UInt8) : Keyed (hmacSha256Init key) key [] := by
  constructor
  · simp only [hmacSha256Init,init_pad]
  · simp only [hmacSha256Init,init_pad]
    simpa using holds_init.update ((blockKey key).map (· ^^^ 0x36))

variable {hctx : HmacCtx} {key msg : List UInt8}

theorem Keyed.update (h : Keyed hctx key msg) (data : List UInt8) :
    Keyed (hmacSha256Update hctx data) key (msg ++ data) := by
  refine ⟨h.oKeyPad,?_⟩
  rw [← List.append_assoc]
  exact h.ctx.update data

theorem Keyed.updates (h : Keyed hctx key msg) (pieces : List (List UInt8)) :
    Keyed (pieces.foldl hmacSha256Update hctx) key (msg ++ pieces.flatten) := by
  induction pieces generalizing hctx msg with
  | nil => simpa using h
  | cons piece pieces ih =>
    rw [List.flatten_cons,← List.append_assoc]
    exact ih (h.update piece)

theorem Keyed.final (h : Keyed hctx key msg) : hmacSha256Final hctx = hmac key msg := by
  have houter := (holds_init.update hctx.oKeyPad).update (sha256Final hctx.ctx).2
  rw [hmacSha256Final,houter.final,h.ctx.final,h.oKeyPad,hmac,List.nil_append]

theorem hmacSha256_eq (key msg : List UInt8) : hmacSha256 key msg = hmac key msg :=
  ((keyed_init key).update msg).final

/-- `hmac_sha256_init`, any updates and `hmac_sha256_final` give the tag of what the updates bring,
one after the other. -/
theorem pieces_hmac (key : List UInt8) (pieces : List (List UInt8)) :
    hmacSha256Final (pieces.foldl hmacSha256Update (hmacSha256Init key)) =
      hmac key pieces.flatten :=
  ((keyed_init key).updates pieces).final

open AesCbc Crypto

/-- The block cipher, the tag and the digest of the firmware. -/
def primitives : Primitives where
  cipher := Aes.cipher
  invCipher := Aes.invCipher
  invCipher_cipher := Aes.invCipher_cipher
  hmacSha256 := hmacSha256
  hmacSha256_length key input := by rw [hmacSha256_eq,hmac,digest_length]
  sha256Raw := sha256Raw

/-- The tag as `encrypt_aes_hmac_combined` takes it, from the topic and the rest of the packet. -/
def packetTag (keys : Keys) (topic body : List UInt8) : List UInt8 :=
  hmacSha256Final (hmacSha256Update (hmacSha256Update (hmacSha256Init keys.hmacSha256Key) topic) body)

theorem packetTag_eq (keys : Keys) (topic body : List UInt8) :
    packetTag keys topic body = hmac keys.hmacSha256Key (topic ++ body) :=
  (((keyed_init keys.hmacSha256Key).update topic).update body).final

/-- A packet carries the tag that its two pieces give under the second half of the digest of the
master key, and wherever packet and topic are, the message comes out of it again. -/
theorem packet_opened (key : List UInt8) (random : Block) (mem : Buf)
    (dst topic topicL message messageL : ℕ)
    (htopic : Apart dst (48+16*(messageL/16+1)) topic topicL)
    (hmessage : Apart dst (48+16*(messageL/16+1)) message messageL) :
    let keys := initAesHmacCombined primitives key
    let sent := encryptAesHmacCombined primitives keys random mem dst topic topicL message messageL
    keys.hmacSha256Key = (digest (key.take 16)).drop 16 ∧
      load sent.1 dst 32 =
        packetTag keys (load mem topic topicL) (load sent.1 (dst+32) (sent.2-32)) ∧
      ∀ (mem' : Buf) (dst' topic' packet : ℕ),
        load mem' topic' topicL = load mem topic topicL →
        load mem' packet sent.2 = load sent.1 dst sent.2 →
        Apart dst' (sent.2-48) packet sent.2 →
        let got := decryptAesHmacCombined primitives keys mem' dst' topic' topicL packet sent.2
        got.2 = messageL ∧ load got.1 dst' messageL = load mem message messageL := by
  obtain ⟨hlength,hsealed,-⟩ := @encryptAesHmacCombined_spec primitives
    (initAesHmacCombined primitives key) random mem _ _ _ _ _ htopic hmessage
  have hkey : (initAesHmacCombined primitives key).hmacSha256Key =
      (digest (key.take 16)).drop 16 := by
    have hhash : primitives.sha256Raw (key.take 16) = digest (key.take 16) := sha256Raw_eq _
    simp only [initAesHmacCombined,hhash]
    exact List.take_of_length_le (by rw [List.length_drop,digest_length])
  have hlen : (load mem message messageL).length = messageL := load_length _ _ _
  simp only [hlength]
  refine ⟨hkey,?_,?_⟩
  · obtain ⟨htag,hbody⟩ := load_append hsealed
    rw [primitives.hmacSha256_length] at htag hbody
    rw [sealedBody_length,hlen] at hbody
    rw [htag,show 48+16*(messageL/16+1)-32 = 16+16*(messageL/16+1) by omega,hbody,packetTag_eq]
    exact hmacSha256_eq _ _
  · intro mem' dst' topic' packet htopic' hpacket hdst
    rw [hsealed,← htopic'] at hpacket
    have hgot := @decryptAesHmacCombined_sealed primitives (initAesHmacCombined primitives key) random
      mem' dst' topic' topicL packet (load mem message messageL)
    rw [hlen] at hgot
    obtain ⟨hret,htext⟩ := hgot hpacket (by
      rwa [show 48+16*(messageL/16+1)-48 = 16*(messageL/16+1) by omega] at hdst)
    refine ⟨hret,?_⟩
    rw [padded] at htext
    have hfront := (load_append htext).1
    rwa [hlen] at hfront

/-- A message of two bytes under a topic of two bytes. -/
theorem packet_opened_sample :
    let keys := initAesHmacCombined primitives Sample.masterKey
    let sent := encryptAesHmacCombined primitives keys (blockOf Sample.iv) Sample.mem 16 0 2 8 2
    let got := decryptAesHmacCombined primitives keys sent.1 100 0 2 16 sent.2
    got.2 = 2 ∧ load got.1 100 2 = [0x31,0] := by
  have hlength := (@encryptAesHmacCombined_spec primitives
    (initAesHmacCombined primitives Sample.masterKey) (blockOf Sample.iv) Sample.mem 16 0 2 8 2
    (by decide) (by decide))
  have h := (packet_opened Sample.masterKey (blockOf Sample.iv) Sample.mem 16 0 2 8 2
    (by decide) (by decide)).2.2
  exact h _ 100 0 16 (load_congr fun k hk => hlength.2.2 _ (by omega)) rfl
    (by rw [hlength.1]; decide)

end HmacSha256
end MeterLogger
