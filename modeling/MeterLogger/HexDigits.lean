import MeterLogger.Buffers
import MeterLogger.Bytes
import MeterLogger.OtaHeader
import MeterLogger.SysCfg

/-!
# Hexadecimal digits

Two functions read bytes from pairs of hexadecimal digits. `hex_to_bytes` looks at all the digits
before it writes a byte, and `ota_parse_sha256` writes as it reads, so that a digest it refuses may
be half written; they take the same strings and give the same bytes.
-/

namespace MeterLogger
namespace HexDigits

open Buffers CStrings SysCfg

/-- `(uint8_t)((high << 4) | low)` -/
def hexByte (high low : ℕ) : UInt8 := UInt8.ofNat (high*16+low)

/-- The first loop of `hex_to_bytes`, `n` bytes from byte `i` on. -/
def validLoop (hex : List UInt8) : ℕ → ℕ → Bool
  | 0, _ => true
  | n+1, i =>
    if hex.getD (2*i) 0 = 0 ∨ hex.getD (2*i+1) 0 = 0 then false
    else
      match OtaHeader.hexCharToVal (hex.getD (2*i) 0), OtaHeader.hexCharToVal (hex.getD (2*i+1) 0) with
      | some _, some _ => validLoop hex n (i+1)
      | _, _ => false

def writeLoop (hex : List UInt8) : ℕ → ℕ → Buf → Buf
  | 0, _, bytes => bytes
  | n+1, i, bytes =>
    match OtaHeader.hexCharToVal (hex.getD (2*i) 0), OtaHeader.hexCharToVal (hex.getD (2*i+1) 0) with
    | some high, some low => writeLoop hex n (i+1) (store bytes i [hexByte high low])
    | _, _ => bytes

def hexToBytes (hex : List UInt8) (bytes : Buf) (len : ℕ) : Bool × Buf :=
  if validLoop hex len 0 then (true,writeLoop hex len 0 bytes) else (false,bytes)

/-- The loop of `ota_parse_sha256`. -/
def digestLoop (hex : List UInt8) : ℕ → ℕ → Buf → Bool × Buf
  | 0, _, digest => (true,digest)
  | n+1, i, digest =>
    match OtaHeader.hexCharToVal (hex.getD (2*i) 0), OtaHeader.hexCharToVal (hex.getD (2*i+1) 0) with
    | some high, some low => digestLoop hex n (i+1) (store digest i [hexByte high low])
    | _, _ => (false,digest)

/-- What `ota_parse_sha256` returns and writes. -/
structure Parsed where
  ok : Bool
  digest : Buf
  enabled : Bool

def otaParseSha256 (hex : Option (List UInt8)) (digest : Buf) : Parsed :=
  match hex with
  | none => ⟨true,digest,false⟩
  | some hex =>
    if cstr hex = [] then ⟨true,digest,false⟩
    else if (cstr hex).length ≠ 64 then ⟨false,digest,false⟩
    else
      let r := digestLoop hex 32 0 digest
      ⟨r.1,r.2,r.1⟩

/-- The key as it lies in memory, with what stands behind it. -/
def keyBuf (c : SyscfgT) : Buf := fun i => c.key.toList.getD i 0

/-- `cfg_save_key`; the checksums are not asked for. -/
def cfgSaveKey (s : State) (keyHexStr : Option (List UInt8)) : State × Bool :=
  match keyHexStr with
  | none => (s,false)
  | some hex =>
    if (cstr hex).length = 32 then
      let r := hexToBytes hex (keyBuf s.sysCfg) 16
      let s := { s with sysCfg := { s.sysCfg with key := Vector.ofFn fun i => r.2 i } }
      if r.1 then store s else (s,false)
    else (s,false)

def IsHex (c : UInt8) : Prop := 48 ≤ c ∧ c ≤ 57 ∨ 97 ≤ c ∧ c ≤ 102 ∨ 65 ≤ c ∧ c ≤ 70

instance (c : UInt8) : Decidable (IsHex c) := inferInstanceAs (Decidable (_ ∨ _ ∨ _))

/-- The first `2n` characters are digits. -/
def Digits (hex : List UInt8) (n : ℕ) : Prop := ∀ k < 2*n, IsHex (hex.getD k 0)

def digit (c : UInt8) : ℕ := if c ≤ 57 then c.toNat-48 else if 97 ≤ c then c.toNat-87 else c.toNat-55

def valueAt (hex : List UInt8) (i : ℕ) : UInt8 :=
  hexByte (digit (hex.getD (2*i) 0)) (digit (hex.getD (2*i+1) 0))

def valueOf (hex : List UInt8) (n : ℕ) : List UInt8 := (List.range n).map (valueAt hex)

/-- Of a string: `hex_to_bytes` writes the value of the digits or nothing at all, the digest is the
one `hex_to_bytes` reads, a malformed one is refused, and the key changes only for 32 digits. -/
structure Consistent (hex : List UInt8) : Prop where
  exact : ∀ bytes n, Digits hex n → hexToBytes hex bytes n = (true,store bytes 0 (valueOf hex n))
  atomic : ∀ bytes n, ¬Digits hex n → hexToBytes hex bytes n = (false,bytes)
  digest : (cstr hex).length = 64 → ∀ digest,
    (otaParseSha256 (some hex) digest).ok = (hexToBytes hex digest 32).1 ∧
      ((otaParseSha256 (some hex) digest).ok = true →
        (otaParseSha256 (some hex) digest).digest = (hexToBytes hex digest 32).2 ∧
          (otaParseSha256 (some hex) digest).enabled = true)
  malformed : cstr hex ≠ [] → (cstr hex).length ≠ 64 ∨ ¬Digits hex 32 → ∀ digest,
    (otaParseSha256 (some hex) digest).ok = false ∧
      (otaParseSha256 (some hex) digest).enabled = false
  key : ∀ s, (cfgSaveKey s (some hex)).1.sysCfg.key ≠ s.sysCfg.key →
    (cstr hex).length = 32 ∧ Digits hex 16

def Pair (hex : List UInt8) (i : ℕ) : Prop :=
  IsHex (hex.getD (2*i) 0) ∧ IsHex (hex.getD (2*i+1) 0)

instance (hex : List UInt8) (i : ℕ) : Decidable (Pair hex i) := inferInstanceAs (Decidable (_ ∧ _))

section Loops

variable {hex : List UInt8} {n i : ℕ} {bytes digest : Buf}

theorem hexCharToVal_digit {c : UInt8} (h : IsHex c) :
    OtaHeader.hexCharToVal c = some (digit c) := by
  have hall : ∀ c, IsHex c → OtaHeader.hexCharToVal c = some (digit c) :=
    Bytes.forall_byte (by decide +kernel)
  exact hall c h

theorem hexCharToVal_none {c : UInt8} (h : ¬IsHex c) : OtaHeader.hexCharToVal c = none := by
  rw [IsHex,not_or,not_or] at h
  rw [OtaHeader.hexCharToVal,if_neg h.1,if_neg h.2.1,if_neg h.2.2]

theorem digits_iff : Digits hex n ↔ ∀ i < n, Pair hex i := by
  constructor
  · intro h i hi
    exact ⟨h _ (by omega),h _ (by omega)⟩
  · intro h k hk
    obtain ⟨heven,hodd⟩ := h (k/2) (by omega)
    rcases Nat.mod_two_eq_zero_or_one k with hmod | hmod
    · rwa [show 2*(k/2) = k by omega] at heven
    · rwa [show 2*(k/2)+1 = k by omega] at hodd

theorem pair_of_some {high low : ℕ} (hhigh : OtaHeader.hexCharToVal (hex.getD (2*i) 0) = some high)
    (hlow : OtaHeader.hexCharToVal (hex.getD (2*i+1) 0) = some low) : Pair hex i := by
  constructor
  · by_contra hno
    rw [hexCharToVal_none hno] at hhigh
    cases hhigh
  · by_contra hno
    rw [hexCharToVal_none hno] at hlow
    cases hlow

theorem validLoop_succ (hex : List UInt8) (n i : ℕ) :
    validLoop hex (n+1) i = if Pair hex i then validLoop hex n (i+1) else false := by
  have hzero : ¬IsHex 0 := by decide
  rw [validLoop]
  by_cases hpair : Pair hex i
  · have hne : ¬(hex.getD (2*i) 0 = 0 ∨ hex.getD (2*i+1) 0 = 0) := by
      rintro (hnul | hnul)
      · exact hzero (hnul ▸ hpair.1)
      · exact hzero (hnul ▸ hpair.2)
    rw [if_neg hne,if_pos hpair,hexCharToVal_digit hpair.1,hexCharToVal_digit hpair.2]
  · rw [if_neg hpair]
    split
    · rfl
    · split
      · rename_i hhigh hlow
        exact absurd (pair_of_some hhigh hlow) hpair
      · rfl

theorem writeLoop_succ (h : Pair hex i) (n : ℕ) (bytes : Buf) :
    writeLoop hex (n+1) i bytes = writeLoop hex n (i+1) (store bytes i [valueAt hex i]) := by
  rw [writeLoop,hexCharToVal_digit h.1,hexCharToVal_digit h.2]
  rfl

theorem digestLoop_eq (hex : List UInt8) (n i : ℕ) (digest : Buf) :
    (digestLoop hex n i digest).1 = validLoop hex n i ∧
      (validLoop hex n i = true → (digestLoop hex n i digest).2 = writeLoop hex n i digest) := by
  induction n generalizing i digest with
  | zero => exact ⟨rfl,fun _ => rfl⟩
  | succ n ih =>
    rw [validLoop_succ]
    by_cases hpair : Pair hex i
    · rw [if_pos hpair,writeLoop_succ hpair,digestLoop,hexCharToVal_digit hpair.1,
        hexCharToVal_digit hpair.2]
      exact ih _ _
    · rw [if_neg hpair,digestLoop]
      refine ⟨?_,fun hno => absurd hno Bool.false_ne_true⟩
      split
      · rename_i hhigh hlow
        exact absurd (pair_of_some hhigh hlow) hpair
      · rfl

theorem validLoop_iff : validLoop hex n i = true ↔ ∀ k < n, Pair hex (i+k) := by
  induction n generalizing i with
  | zero => simp [validLoop]
  | succ n ih =>
    rw [validLoop_succ]
    split
    · rename_i hpair
      rw [ih]
      constructor
      · intro h k hk
        cases k with
        | zero => exact hpair
        | succ k => exact (Nat.add_right_comm i 1 k) ▸ h k (by omega)
      · intro h k hk
        have hnext := h (k+1) (by omega)
        rwa [show i+(k+1) = i+1+k by omega] at hnext
    · rename_i hpair
      exact iff_of_false Bool.false_ne_true fun h => hpair (h 0 (Nat.succ_pos n))

theorem writeLoop_eq (h : ∀ k < n, Pair hex (i+k)) (bytes : Buf) :
    writeLoop hex n i bytes = store bytes i ((List.range n).map fun k => valueAt hex (i+k)) := by
  induction n generalizing i bytes with
  | zero => exact (store_nil bytes i).symm
  | succ n ih =>
    have hnext : ∀ k < n, Pair hex (i+1+k) := fun k hk => by
      rw [show i+1+k = i+(k+1) by omega]
      exact h (k+1) (by omega)
    have hfirst : Pair hex i := h 0 (Nat.succ_pos n)
    rw [writeLoop_succ hfirst,ih hnext,List.range_succ_eq_map,List.map_cons,
      List.map_map]
    have happend := store_append bytes i [valueAt hex i]
      ((List.range n).map fun k => valueAt hex (i+1+k))
    rw [List.length_singleton] at happend
    have hlater : (List.range n).map (fun k => valueAt hex (i+1+k)) =
        (List.range n).map ((fun k => valueAt hex (i+k)) ∘ Nat.succ) :=
      List.map_congr_left fun k _ => by rw [Function.comp_apply,show i+1+k = i+k.succ by omega]
    rw [happend,hlater]
    exact rfl

theorem hexToBytes_digits (h : Digits hex n) (bytes : Buf) :
    hexToBytes hex bytes n = (true,store bytes 0 (valueOf hex n)) := by
  have hpairs : ∀ k < n, Pair hex (0+k) := fun k hk => (Nat.zero_add k).symm ▸ digits_iff.1 h k hk
  rw [hexToBytes,if_pos (validLoop_iff.2 hpairs),writeLoop_eq hpairs,valueOf]
  simp only [Nat.zero_add]

theorem hexToBytes_other (h : ¬Digits hex n) (bytes : Buf) :
    hexToBytes hex bytes n = (false,bytes) := by
  have hno : ¬(validLoop hex n 0 = true) := fun hvalid =>
    h (digits_iff.2 fun i hi => Nat.zero_add i ▸ validLoop_iff.1 hvalid i hi)
  rw [hexToBytes,if_neg hno]

end Loops

theorem otaParseSha256_whole {hex : List UInt8} (h : (cstr hex).length = 64) (digest : Buf) :
    (otaParseSha256 (some hex) digest).ok = (hexToBytes hex digest 32).1 ∧
      ((otaParseSha256 (some hex) digest).ok = true →
        (otaParseSha256 (some hex) digest).digest = (hexToBytes hex digest 32).2 ∧
          (otaParseSha256 (some hex) digest).enabled = true) := by
  have hne : cstr hex ≠ [] := fun hnil => by
    rw [hnil,List.length_nil] at h
    omega
  obtain ⟨hok,hwritten⟩ := digestLoop_eq hex 32 0 digest
  rw [otaParseSha256,if_neg hne,if_neg (not_not_intro h),hexToBytes]
  by_cases hvalid : validLoop hex 32 0 = true
  · rw [if_pos hvalid]
    exact ⟨hok.trans hvalid,fun _ => ⟨hwritten hvalid,hok.trans hvalid⟩⟩
  · rw [if_neg hvalid]
    have hfalse : (digestLoop hex 32 0 digest).1 = false :=
      hok.trans (Bool.not_eq_true _ ▸ hvalid)
    exact ⟨hfalse,fun htrue => absurd (hfalse.symm.trans htrue) Bool.false_ne_true⟩

theorem otaParseSha256_refused {hex : List UInt8} (hne : cstr hex ≠ [])
    (h : (cstr hex).length ≠ 64 ∨ ¬Digits hex 32) (digest : Buf) :
    (otaParseSha256 (some hex) digest).ok = false ∧
      (otaParseSha256 (some hex) digest).enabled = false := by
  by_cases hlen : (cstr hex).length = 64
  · have hdigits : ¬Digits hex 32 := h.resolve_left (not_not_intro hlen)
    have hok : (digestLoop hex 32 0 digest).1 = false := by
      have hagree := (otaParseSha256_whole hlen digest).1
      rw [hexToBytes_other hdigits,otaParseSha256,if_neg hne,if_neg (not_not_intro hlen)] at hagree
      exact hagree
    rw [otaParseSha256,if_neg hne,if_neg (not_not_intro hlen)]
    exact ⟨hok,hok⟩
  · rw [otaParseSha256,if_neg hne,if_pos hlen]
    exact ⟨rfl,rfl⟩

theorem ofFn_keyBuf (c : SyscfgT) : (Vector.ofFn fun i : Fin 16 => keyBuf c i) = c.key := by
  apply Vector.ext
  intro i hi
  rw [Vector.getElem_ofFn,keyBuf]
  exact List.getD_eq_getElem _ _ (c.key.length_toList.symm ▸ hi)

theorem cfgSaveKey_other {hex : List UInt8} (h : ¬((cstr hex).length = 32 ∧ Digits hex 16))
    (s : State) : (cfgSaveKey s (some hex)).1.sysCfg.key = s.sysCfg.key := by
  rw [cfgSaveKey]
  by_cases hlen : (cstr hex).length = 32
  · have hdigits : ¬Digits hex 16 := fun hd => h ⟨hlen,hd⟩
    rw [if_pos hlen,hexToBytes_other hdigits]
    exact ofFn_keyBuf s.sysCfg
  · rw [if_neg hlen]

theorem valueOf_cons (high low : UInt8) (hex : List UInt8) (n : ℕ) :
    valueOf (high::low::hex) (n+1) = hexByte (digit high) (digit low)::valueOf hex n := by
  rw [valueOf,List.range_succ_eq_map,List.map_cons,List.map_map]
  exact rfl

theorem digits_cons {high low : UInt8} {hex : List UInt8} {n : ℕ} :
    Digits (high::low::hex) (n+1) ↔ (IsHex high ∧ IsHex low) ∧ Digits hex n := by
  rw [digits_iff,digits_iff]
  constructor
  · intro h
    exact ⟨h 0 (Nat.succ_pos n),fun i hi => h (i+1) (Nat.succ_lt_succ hi)⟩
  · rintro ⟨hfirst,hrest⟩ i hi
    cases i with
    | zero => exact hfirst
    | succ i => exact hrest i (Nat.lt_of_succ_lt_succ hi)

theorem hexToBytes_list {hex : List UInt8} {n : ℕ} (h : hex.length = 2*n) :
    (Digits hex n → OtaHeader.hexToBytes hex = some (valueOf hex n)) ∧
      (¬Digits hex n → OtaHeader.hexToBytes hex = none) := by
  induction n generalizing hex with
  | zero =>
    obtain rfl : hex = [] := List.eq_nil_of_length_eq_zero h
    exact ⟨fun _ => rfl,fun hno => absurd (fun k hk => absurd hk (Nat.not_lt_zero k)) hno⟩
  | succ n ih =>
    match hex, h with
    | high::low::hex, h =>
      have hrest : hex.length = 2*n := by
        rw [List.length_cons,List.length_cons] at h
        omega
      obtain ⟨hsome,hnone⟩ := ih hrest
      rw [digits_cons,valueOf_cons,OtaHeader.hexToBytes]
      constructor
      · rintro ⟨⟨hhigh,hlow⟩,hrest⟩
        rw [hexCharToVal_digit hhigh,hexCharToVal_digit hlow,hsome hrest]
        exact rfl
      · intro hno
        by_cases hhigh : IsHex high
        · by_cases hlow : IsHex low
          · rw [hnone fun hrest => hno ⟨⟨hhigh,hlow⟩,hrest⟩,hexCharToVal_digit hhigh,
              hexCharToVal_digit hlow]
            exact rfl
          · rw [hexCharToVal_none hlow,hexCharToVal_digit hhigh]
            exact rfl
        · rw [hexCharToVal_none hhigh]
          exact rfl

/-- What the caller sees of the digest: `none` for a malformed one, `some none` for a missing one. -/
def Parsed.read (p : Parsed) : Option (Option (List UInt8)) :=
  if p.ok then some (if p.enabled then some (load p.digest 0 32) else none) else none

theorem otaParseSha256_read {hex : List UInt8} (h : 0 ∉ hex) (digest : Buf) :
    (otaParseSha256 (some hex) digest).read = OtaHeader.otaParseSha256 (some hex) := by
  have hcstr : cstr hex = hex := cstr_self h
  cases hex with
  | nil => exact rfl
  | cons c hex =>
    have hne : cstr (c::hex) ≠ [] := hcstr.symm ▸ List.cons_ne_nil c hex
    have hota : OtaHeader.otaParseSha256 (some (c::hex)) =
        if (c::hex).length ≠ 64 then none else (OtaHeader.hexToBytes (c::hex)).map some := rfl
    rw [hota]
    by_cases hlen : (c::hex).length = 64
    · have hlen' : (cstr (c::hex)).length = 64 := hcstr.symm ▸ hlen
      obtain ⟨hok,hread⟩ := otaParseSha256_whole hlen' digest
      obtain ⟨hsome,hnone⟩ := hexToBytes_list (n := 32) hlen
      rw [if_neg (not_not_intro hlen),Parsed.read]
      by_cases hdigits : Digits (c::hex) 32
      · rw [hexToBytes_digits hdigits] at hok hread
        obtain ⟨hdigest,henabled⟩ := hread hok
        have hload : load (store digest 0 (valueOf (c::hex) 32)) 0 32 = valueOf (c::hex) 32 := by
          have hwhole := load_store digest 0 (valueOf (c::hex) 32)
          rwa [valueOf,List.length_map,List.length_range] at hwhole
        rw [hok,henabled,hdigest,hsome hdigits,if_pos rfl,if_pos rfl,hload]
        exact rfl
      · obtain ⟨hok,-⟩ := otaParseSha256_refused hne (Or.inr hdigits) digest
        rw [hok,hnone hdigits]
        exact rfl
    · have hlen' : (cstr (c::hex)).length ≠ 64 := hcstr.symm ▸ hlen
      obtain ⟨hok,-⟩ := otaParseSha256_refused hne (Or.inl hlen') digest
      rw [if_pos hlen,Parsed.read,hok]
      exact rfl

/-- A string of digits is read exactly, anything else leaves the bytes alone, and the two readers
agree. -/
theorem hex_consistent (hex : List UInt8) : Consistent hex where
  exact bytes _ h := hexToBytes_digits h bytes
  atomic bytes _ h := hexToBytes_other h bytes
  digest h digest := otaParseSha256_whole h digest
  malformed hne h digest := otaParseSha256_refused hne h digest
  key s hchanged := by
    by_contra hno
    exact hchanged (cfgSaveKey_other hno s)

end HexDigits
end MeterLogger
