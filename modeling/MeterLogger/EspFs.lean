import MeterLogger.CStrings
import MeterLogger.HeatshrinkDecoder
import MeterLogger.HeatshrinkTokens

/-!
# The file system of the web pages

The image that `mkespfsimage` writes and the functions of `espfs.c` that find a file in it and read
it, whether it is stored as it is or compressed. An image is found again file by file; what is read
of a file in whatever pieces begins the file.
-/

namespace MeterLogger
namespace EspFs

open Buffers CStrings Lzss HeatshrinkDecoder

/-- `htoxs` and `htoxl`, the lowest byte first. -/
def littleEndian : ℕ → ℕ → List UInt8
  | 0, _ => []
  | k+1, n => UInt8.ofNat n::littleEndian k (n >>> 8)

/-- The number that bytes stand for, the lowest first. -/
def leValue : List UInt8 → ℕ
  | [] => 0
  | b::bs => b.toNat+256*leValue bs

/-- A 32-bit word of the flash. -/
def word (mem : Buf) (addr : ℕ) : ℕ := leValue (load mem addr 4)

/-- One byte of `memcpyAligned`. -/
def alignedByte (mem : Buf) (src : ℕ) : UInt8 :=
  let b := src &&& 3
  let w := word mem (src-b)
  if b = 0 then UInt8.ofNat (w >>> 0)
  else if b = 1 then UInt8.ofNat (w >>> 8)
  else if b = 2 then UInt8.ofNat (w >>> 16)
  else UInt8.ofNat (w >>> 24)

def memcpyAligned (mem : Buf) (src len : ℕ) : List UInt8 :=
  (List.range len).map fun x => alignedByte mem (src+x)

structure EspFsHeader where
  magic : ℕ
  flags : UInt8
  compression : UInt8
  nameLen : ℤ
  fileLenComp : ℤ
  fileLenDecomp : ℤ

def headerSize : ℕ := 16

def headerMagic : ℕ := 0x73665345

def flagLastFile : UInt8 := 1

def compressNone : UInt8 := 0

def compressHeatshrink : UInt8 := 1

/-- The header in its bytes, of which the lengths are signed. -/
def EspFsHeader.ofBytes (bytes : List UInt8) : EspFsHeader where
  magic := leValue (bytes.take 4)
  flags := bytes.getD 4 0
  compression := bytes.getD 5 0
  nameLen := Int.bmod (leValue ((bytes.drop 6).take 2)) (2^16)
  fileLenComp := Int.bmod (leValue ((bytes.drop 8).take 4)) (2^32)
  fileLenDecomp := Int.bmod (leValue ((bytes.drop 12).take 4)) (2^32)

def EspFsHeader.bytes (flags compression : UInt8) (nameLen fileLenComp fileLenDecomp : ℕ) :
    List UInt8 :=
  [69,83,102,115] ++ [flags,compression] ++ littleEndian 2 nameLen ++
    littleEndian 4 fileLenComp ++ littleEndian 4 fileLenDecomp

/-- A file of the host, with what stands behind its name in the buffer of the tool. -/
structure HostFile where
  fileName : List UInt8
  after : List UInt8
  fdat : List UInt8

/-- The name without `./` or `/`. -/
def HostFile.realName (f : HostFile) : List UInt8 :=
  let name := if f.fileName.head? = some 46 then f.fileName.drop 1 else f.fileName
  if name.head? = some 47 then name.drop 1 else name

/-- `nameLen` and `csize`, rounded to the next 32-bit boundary. -/
def rounded (n : ℕ) : ℕ := if n &&& 3 ≠ 0 then n+(4-(n &&& 3)) else n

/-- What `handleFile` stores of a file, and how; `none` where the tool gives up. -/
def storedAs (compression : UInt8) (level : ℤ) (fdat : List UInt8) : Option (UInt8 × List UInt8) :=
  if compression = compressNone then some (compressNone,fdat)
  else if compression = compressHeatshrink then
    (HeatshrinkEncoder.compressHeatshrink fdat (fdat.length*2) level).map fun cdat =>
      if fdat.length < cdat.length then (compressNone,fdat) else (compressHeatshrink,cdat)
  else none

/-- What `handleFile` writes of a file that is stored as `s`. -/
def written (f : HostFile) (s : UInt8 × List UInt8) : List UInt8 :=
  let nameLen := rounded (f.realName.length+1)
  EspFsHeader.bytes 0 s.1 nameLen s.2.length f.fdat.length ++
    ((f.realName ++ 0::f.after).take nameLen ++
      (s.2 ++ List.replicate (rounded s.2.length-s.2.length) 0))

/-- `handleFile`; an empty file cannot be mapped and is left out. -/
def handleFile (compression : UInt8) (level : ℤ) (f : HostFile) : Option (List UInt8) :=
  if f.fdat = [] then some [] else (storedAs compression level f.fdat).map (written f)

def finishArchive : List UInt8 := EspFsHeader.bytes flagLastFile compressNone 0 0 0

def mkespfsimage (compression : UInt8) (level : ℤ) (files : List HostFile) :
    Option (List UInt8) :=
  (files.mapM (handleFile compression level)).map fun parts => parts.flatten ++ finishArchive

structure EspFsFile where
  header : ℕ
  decompressor : UInt8
  posDecomp : ℤ
  posStart : ℕ
  posComp : ℕ
  decompData : Option Decoder

/-- `ESPFS_POS` in the window of the flash. -/
def espFsData : ℕ := 0x7C000+0x40200000

/-- The loop of `espFsOpen` from the header at `p` on; `some none` for `NULL`, `none` when the fuel
is used up. -/
def openLoop (mem : Buf) (fileName : List UInt8) : ℕ → ℕ → Option (Option EspFsFile)
  | 0, _ => none
  | fuel+1, hpos =>
    let h := EspFsHeader.ofBytes (memcpyAligned mem hpos headerSize)
    if h.magic ≠ headerMagic then some none
    else if h.flags &&& flagLastFile ≠ 0 then some none
    else
      let p := hpos+headerSize
      let namebuf := memcpyAligned mem p 256
      if cstr namebuf = fileName then
        let p := (p+h.nameLen).toNat
        if h.compression = compressNone then
          some (some ⟨hpos,h.compression,0,p,p,none⟩)
        else if h.compression = compressHeatshrink then
          let parm := (memcpyAligned mem p 1).headD 0
          let dec := heatshrinkDecoderAlloc 16 ((parm >>> 4) &&& 0xf).toNat (parm &&& 0xf).toNat
          some (some ⟨hpos,h.compression,0,p,p+1,dec⟩)
        else some none
      else
        let p := (p+(h.nameLen+h.fileLenComp)).toNat
        openLoop mem fileName fuel (if p &&& 3 ≠ 0 then p+(4-(p &&& 3)) else p)

/-- The name that `espFsOpen` looks for: without one slash. -/
def stripped (fileName : List UInt8) : List UInt8 :=
  if fileName.head? = some 47 then fileName.drop 1 else fileName

def espFsOpen (mem : Buf) (fuel : ℕ) (fileName : List UInt8) : Option (Option EspFsFile) :=
  openLoop mem (stripped fileName) fuel espFsData

/-- The loop of `espFsRead` for a compressed file, with what it has decoded; telling the decoder that
the input is finished changes nothing in it. -/
def readLoop (mem : Buf) (flen : ℤ) (len : ℕ) :
    ℕ → EspFsFile → List UInt8 → Option (EspFsFile × List UInt8)
  | 0, _, _ => none
  | fuel+1, fh, out =>
    if out.length < len then
      let elen := ((flen-(fh.posComp-fh.posStart))%2^32).toNat
      if elen = 0 then some (fh,out)
      else do
        let dec ← fh.decompData
        let ebuff := memcpyAligned mem fh.posComp 16
        let s := heatshrinkDecoderSink dec (ebuff.take (if 16 < elen then 16 else elen))
        let r ← heatshrinkDecoderPoll s.1 (len-out.length)
        readLoop mem flen len fuel { fh with
          posComp := fh.posComp+s.2
          posDecomp := fh.posDecomp+r.2.1.length
          decompData := some r.1 } (out ++ r.2.1)
    else some (fh,out)

/-- `espFsRead`: what it puts into the buffer, as many bytes as it returns. -/
def espFsRead (mem : Buf) (fh : EspFsFile) (len : ℕ) : Option (EspFsFile × List UInt8) :=
  let flen := Int.bmod (leValue (memcpyAligned mem (fh.header+8) 4)) (2^32)
  if fh.decompressor = compressNone then
    let toRead := flen-(fh.posComp-fh.posStart)
    let len := if toRead < len then toRead else len
    some ({ fh with posDecomp := fh.posDecomp+len, posComp := (fh.posComp+len).toNat },
      memcpyAligned mem fh.posComp len.toNat)
  else if fh.decompressor = compressHeatshrink then readLoop mem flen len (flen.toNat+2) fh []
  else some (fh,[])

def reads (mem : Buf) : EspFsFile → List ℕ → Option (EspFsFile × List (List UInt8))
  | fh, [] => some (fh,[])
  | fh, len::lens => do
    let r ← espFsRead mem fh len
    let t ← reads mem r.1 lens
    some (t.1,r.2::t.2)

@[simp] theorem littleEndian_length (k n : ℕ) : (littleEndian k n).length = k := by
  induction k generalizing n with
  | zero => rfl
  | succ k ih => simp [littleEndian,ih]

theorem leValue_littleEndian (k n : ℕ) : leValue (littleEndian k n) = n%256^k := by
  induction k generalizing n with
  | zero => simp [littleEndian,leValue,Nat.mod_one]
  | succ k ih =>
    rw [littleEndian,leValue,ih,UInt8.toNat_ofNat',Nat.shiftRight_eq_div_pow]
    show n%256+256*(n/256%256^k) = n%256^(k+1)
    rw [Nat.pow_succ',Nat.mod_mul]

theorem byte_leValue (bytes : List UInt8) (k : ℕ) :
    UInt8.ofNat (leValue bytes >>> (8*k)) = bytes.getD k 0 := by
  induction bytes generalizing k with
  | nil => simp [leValue]
  | cons b bytes ih =>
    cases k with
    | zero =>
      rw [leValue,Nat.mul_zero,Nat.shiftRight_zero,List.getD_cons_zero,← UInt8.toNat_inj,
        UInt8.toNat_ofNat']
      have hb := b.toNat_lt
      omega
    | succ k =>
      have hshift : leValue (b::bytes) >>> 8 = leValue bytes := by
        have hb := b.toNat_lt
        rw [leValue,Nat.shiftRight_eq_div_pow]
        omega
      rw [Nat.mul_succ,Nat.add_comm,Nat.shiftRight_add,hshift,ih,List.getD_cons_succ]

theorem alignedByte_eq (mem : Buf) (src : ℕ) : alignedByte mem src = mem src := by
  have hmod : src &&& 3 = src%4 := Nat.and_two_pow_sub_one_eq_mod src 2
  have hbyte : ∀ b < 4, src%4 = b → UInt8.ofNat (word mem (src-b) >>> (8*b)) = mem src := by
    intro b hb heq
    have hlt : b < (load mem (src-b) 4).length := by rwa [load_length]
    rw [word,byte_leValue,List.getD_eq_getElem _ _ hlt,load_getElem]
    congr 1
    omega
  simp only [alignedByte,hmod]
  split_ifs with h₀ h₁ h₂
  · rw [h₀]
    exact hbyte 0 (by decide) h₀
  · rw [h₁]
    exact hbyte 1 (by decide) h₁
  · rw [h₂]
    exact hbyte 2 (by decide) h₂
  · have h₃ : src%4 = 3 := by omega
    rw [h₃]
    exact hbyte 3 (by decide) h₃

theorem memcpyAligned_eq (mem : Buf) (src len : ℕ) : memcpyAligned mem src len = load mem src len :=
  List.map_congr_left fun _ _ => alignedByte_eq mem _

theorem bmod_small {n m : ℕ} (h : 2*n < m) : Int.bmod n m = n := by
  rw [Int.bmod_eq_of_le]
  · omega
  · omega

theorem ofBytes_bytes (flags compression : UInt8) {nameLen fileLenComp fileLenDecomp : ℕ}
    (hname : nameLen < 2^15) (hcomp : fileLenComp < 2^31) (hdecomp : fileLenDecomp < 2^31) :
    EspFsHeader.ofBytes (EspFsHeader.bytes flags compression nameLen fileLenComp fileLenDecomp) =
      ⟨headerMagic,flags,compression,nameLen,fileLenComp,fileLenDecomp⟩ := by
  have htwo := leValue_littleEndian 2 nameLen
  have hfour := leValue_littleEndian 4 fileLenComp
  have hfour' := leValue_littleEndian 4 fileLenDecomp
  rw [Nat.mod_eq_of_lt (by omega)] at htwo hfour hfour'
  have hmagic : leValue ((EspFsHeader.bytes flags compression nameLen fileLenComp
      fileLenDecomp).take 4) = headerMagic := by
    show leValue [69,83,102,115] = headerMagic
    decide
  have hname' : ((EspFsHeader.bytes flags compression nameLen fileLenComp
      fileLenDecomp).drop 6).take 2 = littleEndian 2 nameLen := rfl
  have hcomp' : ((EspFsHeader.bytes flags compression nameLen fileLenComp
      fileLenDecomp).drop 8).take 4 = littleEndian 4 fileLenComp := rfl
  have hdecomp' : ((EspFsHeader.bytes flags compression nameLen fileLenComp
      fileLenDecomp).drop 12).take 4 = littleEndian 4 fileLenDecomp := rfl
  rw [EspFsHeader.ofBytes,hmagic,hname',hcomp',hdecomp',htwo,hfour,hfour',bmod_small (by omega),
    bmod_small (by omega),bmod_small (by omega)]
  rfl

theorem rounded_spec (n : ℕ) : n ≤ rounded n ∧ rounded n < n+4 ∧ rounded n%4 = 0 := by
  have hmod : n &&& 3 = n%4 := Nat.and_two_pow_sub_one_eq_mod n 2
  rw [rounded,hmod]
  split_ifs <;> omega

theorem rounded_add {a : ℕ} (ha : a%4 = 0) (n : ℕ) : rounded (a+n) = a+rounded n := by
  obtain ⟨hle,hlt,hmod⟩ := rounded_spec (a+n)
  obtain ⟨hle',hlt',hmod'⟩ := rounded_spec n
  omega

/-- The length that stands in the header of an open file. -/
def Long (mem : Buf) (fh : EspFsFile) (n : ℕ) : Prop :=
  leValue (load mem (fh.header+8) 4) = n ∧ n < 2^31

/-- An open file that is stored as it is, of which `given` was read. -/
structure Plain (mem : Buf) (data given : List UInt8) (fh : EspFsFile) : Prop where
  decompressor : fh.decompressor = compressNone
  long : Long mem fh data.length
  stored : load mem fh.posStart data.length = data
  start_le : fh.posStart ≤ fh.posComp
  le_end : fh.posComp ≤ fh.posStart+data.length
  given : given = data.take (fh.posComp-fh.posStart)

/-- An open file that is stored as the bytes `comp` behind one for the sizes. -/
structure Packed (w l : ℕ) (mem : Buf) (comp data given : List UInt8) (fh : EspFsFile) : Prop where
  decompressor : fh.decompressor = compressHeatshrink
  long : Long mem fh (comp.length+1)
  stored : load mem (fh.posStart+1) comp.length = comp
  start_le : fh.posStart+1 ≤ fh.posComp
  le_end : fh.posComp ≤ fh.posStart+1+comp.length
  decoder : ∃ dec, fh.decompData = some dec ∧
    Run.Good w l ⟨dec,comp.take (fh.posComp-(fh.posStart+1)),given⟩
  sized : HeatshrinkDecoder.Sized w l
  token : 7 ≤ w+l
  decoded : decode w l [] (byteBits comp) = data

/-- A file with the contents `data`, of which `given` was read. -/
def Opened (mem : Buf) (data given : List UInt8) (fh : EspFsFile) : Prop :=
  Plain mem data given fh ∨ ∃ w l comp, Packed w l mem comp data given fh

/-- All the bytes of the file in the image were taken. -/
def Exhausted (mem : Buf) (fh : EspFsFile) : Prop :=
  fh.posComp = fh.posStart+leValue (load mem (fh.header+8) 4)

variable {mem : Buf} {data given comp : List UInt8} {fh : EspFsFile} {w l : ℕ}

theorem Opened.begins (h : Opened mem data given fh) : given <+: data := by
  rcases h with hplain | ⟨w,l,comp,hpacked⟩
  · rw [hplain.given]
    exact List.take_prefix _ _
  · obtain ⟨dec,-,hgood⟩ := hpacked.decoder
    have hdecoded := hgood.decoded (byteBits (comp.drop (fh.posComp-(fh.posStart+1))))
    rw [← byteBits_append,List.take_append_drop,hpacked.decoded] at hdecoded
    rw [hdecoded]
    exact List.prefix_append _ _

theorem flen_eq {n : ℕ} (h : Long mem fh n) :
    Int.bmod (leValue (memcpyAligned mem (fh.header+8) 4)) (2^32) = n := by
  rw [memcpyAligned_eq,h.1]
  exact bmod_small (by have := h.2; omega)

theorem load_part {mem : Buf} {a k n : ℕ} {data : List UInt8}
    (h : load mem a data.length = data) (hn : k+n ≤ data.length) :
    load mem (a+k) n = (data.drop k).take n := by
  rw [show data.length = k+(n+(data.length-k-n)) by omega,load_add,load_add] at h
  conv => rhs; rw [← h]
  rw [List.drop_left' (load_length _ _ _),List.take_left' (load_length _ _ _)]

theorem read_plain (h : Plain mem data given fh) (len : ℕ) :
    ∃ fh' out, espFsRead mem fh len = some (fh',out) ∧ Plain mem data (given ++ out) fh' ∧
      out.length ≤ len ∧ (out.length < len → given ++ out = data) := by
  have hstart := h.start_le
  have hend := h.le_end
  obtain ⟨k,hk⟩ : ∃ k, fh.posComp = fh.posStart+k := ⟨fh.posComp-fh.posStart,by omega⟩
  obtain ⟨n,hn⟩ : ∃ n, n = min len (data.length-k) := ⟨_,rfl⟩
  have hlen : (if (data.length : ℤ)-((fh.posComp : ℤ)-fh.posStart) < len
      then (data.length : ℤ)-((fh.posComp : ℤ)-fh.posStart) else len) = n := by
    split_ifs <;> omega
  have hload : load mem fh.posComp n = (data.drop k).take n := by
    rw [hk]
    exact load_part h.stored (by omega)
  have hread : espFsRead mem fh len = some ({ fh with
      posDecomp := fh.posDecomp+n, posComp := fh.posComp+n },(data.drop k).take n) := by
    rw [espFsRead,if_pos h.decompressor]
    simp only [flen_eq h.long,hlen]
    simp only [memcpyAligned_eq,Int.toNat_natCast,hload,← Int.natCast_add]
  have hgiven := h.given
  rw [hk,Nat.add_sub_cancel_left] at hgiven
  refine ⟨_,_,hread,⟨h.decompressor,h.long,h.stored,?_,?_,?_⟩,?_,fun hless => ?_⟩
  · show fh.posStart ≤ fh.posComp+n
    omega
  · show fh.posComp+n ≤ fh.posStart+data.length
    omega
  · show _ = data.take (fh.posComp+n-fh.posStart)
    rw [hgiven,show fh.posComp+n-fh.posStart = k+n by omega,List.take_add]
  · rw [List.length_take,List.length_drop]
    omega
  · rw [List.length_take,List.length_drop] at hless
    have hall : (data.drop k).take n = data.drop k :=
      List.take_of_length_le (by rw [List.length_drop]; omega)
    rw [hgiven,hall,List.take_append_drop]

theorem elen_eq (h : Packed w l mem comp data given fh) :
    ((((comp.length+1 : ℕ) : ℤ)-((fh.posComp : ℤ)-fh.posStart))%2^32).toNat =
      fh.posStart+1+comp.length-fh.posComp := by
  have hstart := h.start_le
  have hend := h.le_end
  have hlong := h.long.2
  omega

/-- A step of the loop of `espFsRead`: the next bytes go into the decoder, and when it leaves room it
has given out all that they decode to. -/
theorem Packed.fed (h : Packed w l mem comp data given fh)
    (hmore : fh.posComp < fh.posStart+1+comp.length) (room : ℕ) :
    ∃ dec n r, fh.decompData = some dec ∧ n ≤ fh.posStart+1+comp.length-fh.posComp ∧
      (dec.inputSize = 0 → 0 < n) ∧
      (heatshrinkDecoderSink dec ((memcpyAligned mem fh.posComp 16).take
        (if 16 < fh.posStart+1+comp.length-fh.posComp then 16
          else fh.posStart+1+comp.length-fh.posComp))).2 = n ∧
      heatshrinkDecoderPoll (heatshrinkDecoderSink dec ((memcpyAligned mem fh.posComp 16).take
        (if 16 < fh.posStart+1+comp.length-fh.posComp then 16
          else fh.posStart+1+comp.length-fh.posComp))).1 room = some r ∧
      Packed w l mem comp data (given ++ r.2.1) { fh with
        posComp := fh.posComp+n
        posDecomp := fh.posDecomp+r.2.1.length
        decompData := some r.1 } ∧
      r.2.1.length ≤ room ∧
      (r.2.1.length < room → r.1.inputSize = 0 ∧
        (fh.posComp+n = fh.posStart+1+comp.length → given ++ r.2.1 = data)) := by
  have hstart := h.start_le
  obtain ⟨dec,hdec,hgood⟩ := h.decoder
  obtain ⟨k,hk⟩ : ∃ k, fh.posComp = fh.posStart+1+k := ⟨fh.posComp-(fh.posStart+1),by omega⟩
  rw [hk,Nat.add_sub_cancel_left] at hgood
  obtain ⟨m,hm⟩ : ∃ m, m = if 16 < fh.posStart+1+comp.length-fh.posComp then 16
      else fh.posStart+1+comp.length-fh.posComp := ⟨_,rfl⟩
  have hmle : 0 < m ∧ m ≤ 16 ∧ k+m ≤ comp.length := by
    rw [hm]
    split_ifs <;> omega
  have hbuff : (memcpyAligned mem fh.posComp 16).take m = (comp.drop k).take m := by
    rw [memcpyAligned_eq,show 16 = m+(16-m) by omega,load_add,List.take_left' (load_length _ _ _),hk]
    exact load_part h.stored hmle.2.2
  have hlen : ((comp.drop k).take m).length = m := by
    rw [List.length_take,List.length_drop]
    omega
  have hne : (comp.drop k).take m ≠ [] := fun hnil => by
    rw [hnil] at hlen
    exact absurd hlen (Nat.ne_of_lt hmle.1)
  rw [← hm,hbuff]
  obtain ⟨hinv,hsunk,hrest⟩ := heatshrinkDecoderSink_spec hgood.inv hne
  obtain ⟨n,hn'⟩ : ∃ n, n = (heatshrinkDecoderSink dec ((comp.drop k).take m)).2 := ⟨_,rfl⟩
  have hn : n = min (dec.inputBufferSize-dec.inputSize) m := by
    rw [hn']
    exact hsunk.trans (by rw [hlen])
  rw [← hn'] at hrest
  have hbuffer : 0 < dec.inputBufferSize := hgood.inv.buffer_pos
  have htaken : comp.take k ++ ((comp.drop k).take m).take n = comp.take (k+n) := by
    rw [List.take_take,Nat.min_eq_left (by omega),List.take_add]
  have hgood' : Run.Good w l
      ⟨(heatshrinkDecoderSink dec ((comp.drop k).take m)).1,comp.take (k+n),given⟩ :=
    ⟨hinv,fun bits => by rw [← htaken,byteBits_append,List.append_assoc,hgood.decoded,hrest]⟩
  obtain ⟨hsd',new,res,hpoll,hinv',hrest',hle,hall⟩ :=
    heatshrinkDecoderPoll_spec h.sized hinv room
  have hgood'' : Run.Good w l ⟨hsd',comp.take (k+n),given ++ new⟩ :=
    ⟨by rwa [List.reverse_append],fun bits => by
      rw [hgood'.decoded,hrest',List.reverse_append,List.append_assoc]⟩
  refine ⟨dec,n,(hsd',new,res),hdec,by omega,fun hzero => ?_,hn'.symm,hpoll,
    ⟨h.decompressor,h.long,h.stored,?_,?_,⟨hsd',rfl,?_⟩,h.sized,h.token,h.decoded⟩,hle,
    fun hless => ?_⟩
  · omega
  · show fh.posStart+1 ≤ fh.posComp+n
    omega
  · show fh.posComp+n ≤ fh.posStart+1+comp.length
    omega
  · show Run.Good w l ⟨hsd',comp.take (fh.posComp+n-(fh.posStart+1)),given ++ new⟩
    rw [show fh.posComp+n-(fh.posStart+1) = k+n by omega]
    exact hgood''
  · obtain ⟨hzero,hopen⟩ := hall hless
    refine ⟨hzero,fun hend => ?_⟩
    have hdecoded := hgood''.decoded []
    rw [List.append_nil,List.take_of_length_le (by omega),h.decoded,List.reverse_append,
      hopen h.token,List.append_nil] at hdecoded
    exact hdecoded.symm

/-- The loop of `espFsRead`; `slack` is for a buffer of the decoder that is full at first. -/
theorem readLoop_spec (len : ℕ) {fuel slack : ℕ} {out : List UInt8}
    (h : Packed w l mem comp data (given ++ out) fh) (hout : out.length ≤ len)
    (hlast : fh.posComp = fh.posStart+1+comp.length → given ++ out = data)
    (hslack : slack = 1 ∨ ∀ dec, fh.decompData = some dec → dec.inputSize = 0)
    (hfuel : fh.posStart+1+comp.length-fh.posComp+slack+1 < fuel) :
    ∃ fh' out', readLoop mem (comp.length+1 : ℕ) len fuel fh out = some (fh',out') ∧
      Packed w l mem comp data (given ++ out') fh' ∧ out'.length ≤ len ∧
      (out'.length < len → given ++ out' = data) := by
  induction fuel generalizing fh out slack with
  | zero => exact absurd hfuel (Nat.not_lt_zero _)
  | succ fuel ih =>
    have hend := h.le_end
    rw [readLoop]
    by_cases hroom : out.length < len
    · rw [if_pos hroom]
      simp only [elen_eq h]
      by_cases hzero : fh.posStart+1+comp.length-fh.posComp = 0
      · rw [if_pos hzero]
        exact ⟨fh,out,rfl,h,hout,fun _ => hlast (by omega)⟩
      · rw [if_neg hzero]
        obtain ⟨dec,n,r,hdec,hn,hpos,hsink,hpoll,hfed,hle,hall⟩ :=
          h.fed (by omega) (len-out.length)
        rw [List.append_assoc] at hfed hall
        simp only [hdec,hsink,hpoll,Option.bind_eq_bind,Option.bind_some]
        have hlen : (out ++ r.2.1).length = out.length+r.2.1.length := List.length_append
        by_cases hfull : (out ++ r.2.1).length = len
        · refine ⟨_,_,?_,hfed,Nat.le_of_eq hfull,fun hless => absurd hfull (Nat.ne_of_lt hless)⟩
          obtain ⟨fuel',rfl⟩ : ∃ fuel', fuel = fuel'+1 := ⟨fuel-1,by omega⟩
          rw [readLoop,if_neg (by omega)]
        · obtain ⟨hdrained,hlast'⟩ := hall (by omega)
          refine ih hfed (by omega) hlast'
            (Or.inr fun dec' hdec' => Option.some.inj hdec' ▸ hdrained : (0 : ℕ) = 1 ∨ _) ?_
          show fh.posStart+1+comp.length-(fh.posComp+n)+0+1 < fuel
          rcases hslack with rfl | hslack
          · omega
          · have hpos' := hpos (hslack dec hdec)
            omega
    · rw [if_neg hroom]
      exact ⟨fh,out,rfl,h,hout,fun hless => absurd hless hroom⟩

/-- A read gives as much as was asked for, or completes the file, or finds all the compressed bytes
taken: then nothing comes any more, even when the decoder still holds some of the file. -/
theorem Opened.read (h : Opened mem data given fh) (len : ℕ) :
    ∃ fh' out, espFsRead mem fh len = some (fh',out) ∧ Opened mem data (given ++ out) fh' ∧
      out.length ≤ len ∧
      (out.length < len → given ++ out = data ∨ Exhausted mem fh ∧ out = []) := by
  rcases h with hplain | ⟨w,l,comp,hpacked⟩
  · obtain ⟨fh',out,hread,hplain',hle,hall⟩ := read_plain hplain len
    exact ⟨fh',out,hread,Or.inl hplain',hle,fun hless => Or.inl (hall hless)⟩
  · have hne : fh.decompressor ≠ compressNone := by
      rw [hpacked.decompressor]
      decide
    have hread : espFsRead mem fh len =
        readLoop mem (comp.length+1 : ℕ) len (comp.length+1+2) fh [] := by
      rw [espFsRead,if_neg hne,if_pos hpacked.decompressor]
      simp only [flen_eq hpacked.long,Int.toNat_natCast]
    rw [hread]
    have hstart := hpacked.start_le
    by_cases hend : fh.posComp = fh.posStart+1+comp.length
    · refine ⟨fh,[],?_,Or.inr ⟨w,l,comp,?_⟩,Nat.zero_le _,fun _ => Or.inr ⟨?_,rfl⟩⟩
      · have hzero := (elen_eq hpacked).trans (by omega : _ = 0)
        rw [readLoop]
        simp only [hzero,if_true]
        split_ifs <;> rfl
      · rwa [List.append_nil]
      · rw [Exhausted,hpacked.long.1]
        omega
    · have hnil : Packed w l mem comp data (given ++ []) fh := by rwa [List.append_nil]
      obtain ⟨fh',out,hloop,hpacked',hle,hall⟩ := readLoop_spec len hnil (Nat.zero_le len)
        (fun hlast => absurd hlast hend) (Or.inl rfl : 1 = 1 ∨ _)
        (by omega : fh.posStart+1+comp.length-fh.posComp+1+1 < comp.length+1+2)
      exact ⟨fh',out,hloop,Or.inr ⟨w,l,comp,hpacked'⟩,hle,fun hless => Or.inl (hall hless)⟩

theorem Opened.reads (h : Opened mem data given fh) (lens : List ℕ) :
    ∃ fh' outs, reads mem fh lens = some (fh',outs) ∧
      Opened mem data (given ++ outs.flatten) fh' := by
  induction lens generalizing given fh with
  | nil => exact ⟨fh,[],rfl,by rwa [List.flatten_nil,List.append_nil]⟩
  | cons len lens ih =>
    obtain ⟨fh₁,out,hread,h₁,-,-⟩ := h.read len
    obtain ⟨fh',outs,hreads,h'⟩ := ih h₁
    refine ⟨fh',out::outs,?_,?_⟩
    · rw [EspFs.reads,hread]
      simp only [Option.bind_eq_bind,Option.bind_some,hreads]
    · rwa [List.flatten_cons,← List.append_assoc]

/-- A file whose name and size the image has room for. -/
structure Fits (f : HostFile) : Prop where
  name : 0 ∉ f.realName
  short : f.realName.length < 256
  behind : 3 ≤ f.after.length
  small : f.fdat.length < 2^31

/-- What is stored is the file, or is decoded to it. -/
def Kept (data : List UInt8) (s : UInt8 × List UInt8) : Prop :=
  s.1 = compressNone ∧ s.2 = data ∨
    s.1 = compressHeatshrink ∧ ∃ w l out, s.2 = UInt8.ofNat ((w <<< 4) ||| l)::out ∧
      HeatshrinkEncoder.Sized w l ∧ decode w l [] (byteBits out) = data

theorem storedAs_spec {compression : UInt8} {level : ℤ} (hdata : data ≠ [])
    (hcompression : compression = compressNone ∨ compression = compressHeatshrink)
    (hlevel : level = -1 ∨ 1 ≤ level ∧ level ≤ 9) :
    ∃ s, storedAs compression level data = some s ∧ Kept data s ∧ s.2.length ≤ data.length ∧
      (compression = compressNone → s.1 = compressNone) := by
  rcases hcompression with rfl | rfl
  · exact ⟨(compressNone,data),rfl,Or.inl ⟨rfl,rfl⟩,Nat.le_refl _,fun _ => rfl⟩
  · obtain ⟨w,l,out,hout,hs,-,hdecode⟩ := HeatshrinkEncoder.compressHeatshrink_spec hdata hlevel
    rw [storedAs,if_neg (by decide),if_pos rfl,Nat.mul_comm,hout,Option.map_some]
    by_cases hlong : data.length < (UInt8.ofNat ((w <<< 4) ||| l)::out).length
    · rw [if_pos hlong]
      exact ⟨(compressNone,data),rfl,Or.inl ⟨rfl,rfl⟩,Nat.le_refl _,fun _ => rfl⟩
    · rw [if_neg hlong]
      have hle := Nat.le_of_not_lt hlong
      exact ⟨_,rfl,Or.inr ⟨rfl,w,l,out,rfl,hs,hdecode hle⟩,hle,id⟩

variable {f : HostFile} {s : UInt8 × List UInt8} {hpos : ℕ}

theorem bytes_length (flags compression : UInt8) (nameLen fileLenComp fileLenDecomp : ℕ) :
    (EspFsHeader.bytes flags compression nameLen fileLenComp fileLenDecomp).length = headerSize :=
  rfl

theorem written_length (hf : Fits f) :
    (written f s).length =
      headerSize+(rounded (f.realName.length+1)+rounded s.2.length) := by
  obtain ⟨hle,-,-⟩ := rounded_spec s.2.length
  obtain ⟨-,hname,-⟩ := rounded_spec (f.realName.length+1)
  have hbehind := hf.behind
  simp only [written,List.length_append,List.length_take,List.length_cons,List.length_replicate,
    bytes_length]
  omega

theorem written_parts (hf : Fits f)
    (hload : load mem hpos (written f s).length = written f s) :
    load mem hpos headerSize = EspFsHeader.bytes 0 s.1 (rounded (f.realName.length+1)) s.2.length
        f.fdat.length ∧
      cstr (load mem (hpos+headerSize) 256) = f.realName ∧
      load mem (hpos+headerSize+rounded (f.realName.length+1)) s.2.length = s.2 := by
  have hshort := hf.short
  have hbehind := hf.behind
  obtain ⟨hle,hlt,-⟩ := rounded_spec (f.realName.length+1)
  obtain ⟨hheader,hrest⟩ := load_append hload
  rw [bytes_length] at hheader hrest
  have hfield : ((f.realName ++ 0::f.after).take (rounded (f.realName.length+1))).length =
      rounded (f.realName.length+1) := by
    rw [List.length_take,List.length_append,List.length_cons]
    omega
  obtain ⟨hname,hdata⟩ := load_append hrest
  rw [hfield] at hname hdata
  refine ⟨hheader,?_,(load_append hdata).1⟩
  rw [show rounded (f.realName.length+1) =
    f.realName.length+1+(rounded (f.realName.length+1)-(f.realName.length+1)) by omega,
    List.take_add,List.append_cons,List.take_left' (by simp)] at hname
  have hbytes := (load_append hname).1
  rw [List.length_append,List.length_singleton] at hbytes
  rw [show 256 = f.realName.length+1+(255-f.realName.length) by omega,load_add,hbytes,
    ← List.append_cons,cstr_append_nul,cstr_self hf.name]

/-- The first file in what is left of the image: it is opened when it has the name, else the next
one is looked at. -/
theorem openLoop_written (hf : Fits f) (hs : Kept f.fdat s) (hsmall : s.2.length ≤ f.fdat.length)
    (hne : f.fdat ≠ []) (hload : load mem hpos (written f s).length = written f s)
    (halign : hpos%4 = 0) (fuel : ℕ) (name : List UInt8) :
    (f.realName = name → ∃ fh, openLoop mem name (fuel+1) hpos = some (some fh) ∧
      Opened mem f.fdat [] fh ∧ fh.decompressor = s.1 ∧ ¬Exhausted mem fh) ∧
    (f.realName ≠ name → openLoop mem name (fuel+1) hpos =
      openLoop mem name fuel (hpos+(written f s).length)) := by
  have hshort := hf.short
  have hbound := hf.small
  obtain ⟨hheader,hname,hdata⟩ := written_parts hf hload
  obtain ⟨hle,hlt,hmod⟩ := rounded_spec (f.realName.length+1)
  have hparsed := @ofBytes_bytes 0 s.1 _ _ _ (by omega : rounded (f.realName.length+1) < 2^15)
    (by omega : s.2.length < 2^31) hbound
  rw [← hheader] at hparsed
  obtain ⟨p,hp⟩ : ∃ p, p = hpos+headerSize+rounded (f.realName.length+1) := ⟨_,rfl⟩
  have hskip : ((hpos+headerSize : ℕ)+(rounded (f.realName.length+1) : ℤ)).toNat = p := by omega
  have hlength : leValue (load mem (hpos+8) 4) = s.2.length := by
    have hlow : load mem hpos headerSize = load mem hpos 8 ++ (load mem (hpos+8) 4 ++
        load mem (hpos+8+4) 4) := by
      rw [← load_add,← load_add]
      rfl
    have hvalue := leValue_littleEndian 4 s.2.length
    rw [Nat.mod_eq_of_lt (by omega)] at hvalue
    rw [← hvalue]
    have hbytes := hlow.symm.trans hheader
    have hdrop := congrArg (fun bytes : List UInt8 => (bytes.drop 8).take 4) hbytes
    simp only [List.drop_left' (load_length _ _ _),List.take_left' (load_length _ _ _)] at hdrop
    rw [hdrop]
    rfl
  rw [← hp] at hdata
  constructor
  · rintro rfl
    rw [openLoop]
    simp only [memcpyAligned_eq,hparsed,hname,hskip,ne_eq,not_true_eq_false,if_false,if_true,
      show ((0 : UInt8) &&& flagLastFile ≠ 0) = False by decide]
    rcases hs with ⟨hnone,hsame⟩ | ⟨hheat,w,l,out,hout,hsized,hdecode⟩
    · rw [if_pos hnone]
      rw [hsame] at hdata hlength
      refine ⟨_,rfl,Or.inl ⟨hnone,⟨hlength,hbound⟩,hdata,Nat.le_refl _,Nat.le_add_right _ _,?_⟩,
        rfl,?_⟩
      · rw [Nat.sub_self,List.take_zero]
      · have hpos' := List.length_pos_of_ne_nil hne
        simp only [Exhausted,hlength]
        omega
    · obtain ⟨hsd,halloc,hsized',hgood⟩ := HeatshrinkEncoder.decoder_good hsized
      obtain ⟨hw,hl⟩ := HeatshrinkEncoder.parm_sizes hsized
      have hnot : s.1 ≠ compressNone := by
        rw [hheat]
        decide
      rw [hout,List.length_cons] at hdata hlength hsmall
      obtain ⟨hparm,hout',-⟩ := load_cons hdata
      rw [Nat.add_sub_cancel] at hout'
      rw [if_neg hnot,if_pos hheat]
      simp only [load_succ,load_zero,List.headD_cons,hparm,hw,hl,halloc]
      refine ⟨_,rfl,Or.inr ⟨w,l,out,hheat,⟨hlength,by omega⟩,hout',Nat.le_refl _,
        Nat.le_add_right _ _,⟨hsd,rfl,?_⟩,hsized',hsized.token,hdecode⟩,rfl,?_⟩
      · rw [Nat.sub_self,List.take_zero]
        exact hgood
      · have hsome : out ≠ [] := fun hnil => by
          rw [hnil] at hdecode
          exact hne (hdecode.symm.trans (decode_nil []))
        have hpos' := List.length_pos_of_ne_nil hsome
        simp only [Exhausted,hlength]
        omega
  · intro hother
    have hnext : ((hpos+headerSize : ℕ)+((rounded (f.realName.length+1) : ℤ)+s.2.length)).toNat =
        p+s.2.length := by omega
    have hround : (if (p+s.2.length) &&& 3 ≠ 0 then p+s.2.length+(4-((p+s.2.length) &&& 3))
        else p+s.2.length) = hpos+(written f s).length := by
      have hsame : rounded (p+s.2.length) = p+rounded s.2.length :=
        rounded_add (by rw [hp]; simp only [headerSize]; omega) _
      rw [written_length hf,← Nat.add_assoc hpos,← Nat.add_assoc (hpos+headerSize),← hp,← hsame]
      rfl
    rw [openLoop]
    simp only [memcpyAligned_eq,hparsed,hname,hother,hnext,ne_eq,not_true_eq_false,if_false,
      show ((0 : UInt8) &&& flagLastFile ≠ 0) = False by decide]
    exact congrArg (openLoop mem name fuel) hround

theorem openLoop_last (hload : load mem hpos finishArchive.length = finishArchive) (fuel : ℕ)
    (name : List UInt8) : openLoop mem name (fuel+1) hpos = some none := by
  have hlen : finishArchive.length = headerSize := rfl
  rw [hlen] at hload
  have hparsed : EspFsHeader.ofBytes (load mem hpos headerSize) =
      ⟨headerMagic,flagLastFile,compressNone,(0 : ℕ),(0 : ℕ),(0 : ℕ)⟩ := by
    rw [hload,finishArchive,ofBytes_bytes _ _ (by decide) (by decide) (by decide)]
  rw [openLoop]
  simp only [memcpyAligned_eq,hparsed]
  rw [if_neg (by simp),if_pos (by decide)]

/-- Opening finds the first of the files with the name, if there is one, and that has all of its
bytes before it. -/
def Finds (mem : Buf) (compression : UInt8) (files : List HostFile) (name : List UInt8)
    (res : Option (Option EspFsFile)) : Prop :=
  match files.find? fun f => f.fdat ≠ [] ∧ f.realName = name with
  | none => res = some none
  | some f => ∃ fh, res = some (some fh) ∧ Opened mem f.fdat [] fh ∧ ¬Exhausted mem fh ∧
      (compression = compressNone → Plain mem f.fdat [] fh)

theorem Opened.plain (h : Opened mem data given fh) (hnone : fh.decompressor = compressNone) :
    Plain mem data given fh := by
  rcases h with hplain | ⟨w,l,comp,hpacked⟩
  · exact hplain
  · rw [hpacked.decompressor] at hnone
    exact absurd hnone (by decide)

theorem openLoop_image {compression : UInt8} {level : ℤ}
    (hcompression : compression = compressNone ∨ compression = compressHeatshrink)
    (hlevel : level = -1 ∨ 1 ≤ level ∧ level ≤ 9) (files : List HostFile)
    (hfiles : ∀ f ∈ files, Fits f) (name : List UInt8) :
    ∃ parts, files.mapM (handleFile compression level) = some parts ∧
      ∀ (mem : Buf) (hpos fuel : ℕ), hpos%4 = 0 → files.length < fuel →
        load mem hpos (parts.flatten ++ finishArchive).length = parts.flatten ++ finishArchive →
        Finds mem compression files name (openLoop mem name fuel hpos) := by
  induction files with
  | nil =>
    refine ⟨[],rfl,fun mem hpos fuel _ hfuel hload => ?_⟩
    obtain ⟨fuel',rfl⟩ : ∃ fuel', fuel = fuel'+1 := ⟨fuel-1,by omega⟩
    exact openLoop_last hload fuel' name
  | cons f files ih =>
    obtain ⟨parts,hparts,hwalk⟩ := ih fun f' hf' => hfiles f' (List.mem_cons_of_mem _ hf')
    have hf := hfiles f List.mem_cons_self
    by_cases hempty : f.fdat = []
    · refine ⟨[]::parts,?_,fun mem hpos fuel halign hfuel hload => ?_⟩
      · rw [List.mapM_cons,handleFile,if_pos hempty,hparts]
        rfl
      · have hwalk' := hwalk mem hpos fuel halign (Nat.lt_of_succ_lt hfuel) hload
        rwa [Finds,List.find?_cons_of_neg (by simp [hempty])]
    · obtain ⟨s,hs,hkept,hsmall,hplain⟩ := storedAs_spec hempty hcompression hlevel
      refine ⟨written f s::parts,?_,fun mem hpos fuel halign hfuel hload => ?_⟩
      · rw [List.mapM_cons,handleFile,if_neg hempty,hs,hparts]
        rfl
      · obtain ⟨fuel',rfl⟩ : ∃ fuel', fuel = fuel'+1 := ⟨fuel-1,by omega⟩
        rw [List.flatten_cons,List.append_assoc] at hload
        obtain ⟨hfirst,hrest⟩ := load_append hload
        obtain ⟨hfound,hnext⟩ := openLoop_written hf hkept hsmall hempty hfirst halign fuel' name
        by_cases hname : f.realName = name
        · rw [Finds,List.find?_cons_of_pos (by simp [hempty,hname])]
          obtain ⟨fh,hopen,hopened,hsame,hfresh⟩ := hfound hname
          exact ⟨fh,hopen,hopened,hfresh,fun hnone => hopened.plain (hsame.trans (hplain hnone))⟩
        · rw [hnext hname,Finds,List.find?_cons_of_neg (by simp [hname])]
          refine hwalk mem _ _ ?_ (Nat.lt_of_succ_lt_succ hfuel) hrest
          obtain ⟨-,-,hmod⟩ := rounded_spec (f.realName.length+1)
          obtain ⟨-,-,hmod'⟩ := rounded_spec s.2.length
          rw [written_length hf,headerSize]
          omega

theorem espFsOpen_image {compression : UInt8} {level : ℤ}
    (hcompression : compression = compressNone ∨ compression = compressHeatshrink)
    (hlevel : level = -1 ∨ 1 ≤ level ∧ level ≤ 9) {files : List HostFile}
    (hfiles : ∀ f ∈ files, Fits f) (fileName : List UInt8) {fuel : ℕ}
    (hfuel : files.length < fuel) :
    ∃ image, mkespfsimage compression level files = some image ∧
      ∀ mem, load mem espFsData image.length = image →
        Finds mem compression files (stripped fileName) (espFsOpen mem fuel fileName) := by
  obtain ⟨parts,hparts,hwalk⟩ :=
    openLoop_image hcompression hlevel files hfiles (stripped fileName)
  exact ⟨parts.flatten ++ finishArchive,by rw [mkespfsimage,hparts]; rfl,
    fun mem hload => hwalk mem espFsData fuel (by decide) hfuel hload⟩

/-- The tool writes an image of whatever files, compressed at whatever level or not, and a path is
looked up in it as in the list of the files: nothing is opened when no file has the name, else the
first one that has it. Of the open file, reads of whatever lengths give the beginning, and a read of
more than its length all of it. -/
theorem image_read {compression : UInt8} {level : ℤ}
    (hcompression : compression = compressNone ∨ compression = compressHeatshrink)
    (hlevel : level = -1 ∨ 1 ≤ level ∧ level ≤ 9) (files : List HostFile)
    (hfiles : ∀ f ∈ files, Fits f) (fileName : List UInt8) (fuel : ℕ)
    (hfuel : files.length < fuel) :
    ∃ image, mkespfsimage compression level files = some image ∧
      ∀ mem, load mem espFsData image.length = image →
        match files.find? fun f => f.fdat ≠ [] ∧ f.realName = stripped fileName with
        | none => espFsOpen mem fuel fileName = some none
        | some f => ∃ fh, espFsOpen mem fuel fileName = some (some fh) ∧
            (∀ lens, ∃ fh' outs, reads mem fh lens = some (fh',outs) ∧ outs.flatten <+: f.fdat) ∧
            ∀ len, f.fdat.length < len → ∃ fh', espFsRead mem fh len = some (fh',f.fdat) := by
  obtain ⟨image,himage,hfind⟩ := espFsOpen_image hcompression hlevel hfiles fileName hfuel
  refine ⟨image,himage,fun mem hload => ?_⟩
  have hfinds := hfind mem hload
  rw [Finds] at hfinds
  cases hcase : files.find? fun f => f.fdat ≠ [] ∧ f.realName = stripped fileName with
  | none =>
    rw [hcase] at hfinds
    exact hfinds
  | some f =>
    rw [hcase] at hfinds
    obtain ⟨fh,hopen,hopened,hfresh,-⟩ := hfinds
    refine ⟨fh,hopen,fun lens => ?_,fun len hlen => ?_⟩
    · obtain ⟨fh',outs,hreads,hopened'⟩ := hopened.reads lens
      exact ⟨fh',outs,hreads,hopened'.begins⟩
    · obtain ⟨fh',out,hread,hopened',-,hall⟩ := hopened.read len
      have hle := hopened'.begins.length_le
      rw [List.nil_append] at hle hall
      obtain hout | ⟨hexhausted,-⟩ := hall (Nat.lt_of_le_of_lt hle hlen)
      · exact ⟨fh',by rw [hread,hout]⟩
      · exact absurd hexhausted hfresh

def pages : List HostFile :=
  [⟨ascii "./index.tpl",[0,0,0],ascii "%ap_mac%"⟩,⟨ascii "index.tpl",[0,0,0],[1,2,3]⟩]

theorem pages_fit : ∀ f ∈ pages, Fits f := by
  intro f hf
  simp only [pages,List.mem_cons,List.not_mem_nil,or_false] at hf
  rcases hf with rfl | rfl
  · exact ⟨by decide,by decide,by decide,by decide⟩
  · exact ⟨by decide,by decide,by decide,by decide⟩

theorem image_read_pages :
    ∃ image, mkespfsimage compressHeatshrink (-1) pages = some image ∧
      ∀ mem, load mem espFsData image.length = image →
        match pages.find? fun f => f.fdat ≠ [] ∧ f.realName = stripped (ascii "/index.tpl") with
        | none => espFsOpen mem 3 (ascii "/index.tpl") = some none
        | some f => ∃ fh, espFsOpen mem 3 (ascii "/index.tpl") = some (some fh) ∧
            (∀ lens, ∃ fh' outs, reads mem fh lens = some (fh',outs) ∧ outs.flatten <+: f.fdat) ∧
            ∀ len, f.fdat.length < len → ∃ fh', espFsRead mem fh len = some (fh',f.fdat) :=
  image_read (Or.inr rfl) (Or.inl rfl) pages pages_fit (ascii "/index.tpl") 3 (by decide)

end EspFs
end MeterLogger
