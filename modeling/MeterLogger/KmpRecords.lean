import Mathlib.Algebra.GroupWithZero.Nat
import MeterLogger.KmpCovered

/-!
# Registers of other sizes

A register of a reply says how many bytes its value has. `kmp_decode_frame` cuts the data of a
reply into pieces of nine bytes, as if every value had four. A reply with a value of another
size is decoded to the registers that its length bytes delimit just when that value is the last
one and has fewer than four bytes: then it is no whole piece, and is left out.
-/

namespace MeterLogger
namespace KmpAccess

open Buffers Crc16 Kmp Noted

/-- A register with a value of any size, as the meter sends it. -/
structure SizedRecord where
  rid : UInt16
  unit : UInt8
  length : UInt8
  siEx : UInt8
  data : List UInt8
  data_length : data.length = length.toNat

def SizedRecord.bytes (r : SizedRecord) : List UInt8 :=
  u16Bytes r.rid ++ ([r.unit,r.length,r.siEx] ++ r.data)

def bigEndian (bytes : List UInt8) : ℕ := bytes.foldl (fun n b => n*2^8+b.toNat) 0

def SizedRecord.register (r : SizedRecord) : Register where
  rid := toInt16 r.rid.toNat
  unit := r.unit
  length := r.length
  siEx := r.siEx
  value := toInt32 (bigEndian r.data%2^32)

def recordBytes (records : List SizedRecord) : List UInt8 := records.flatMap SizedRecord.bytes

/-- The frame is an accepted register reply with the records, one behind the other. -/
structure Reply (records : List SizedRecord) (s : Decoder) (length : ℕ) : Prop where
  fits : length ≤ kmpFrameL
  accepted : Accepted s.frame length
  body_eq : ∃ dst, bodyOf (textOf s.frame length) = [dst,0x10] ++ recordBytes records

/-- The frame is rejected, or every register that is stored is the record at its place. -/
def Delimited (records : List SizedRecord) (s : Decoder) (length : ℕ) : Prop :=
  (kmpDecodeFrame length).value s ≤ 0 ∨
    ∀ i, .register i ∈ (kmpDecodeFrame length).notes s →
      ∃ r, records[i]? = some r ∧
        ((kmpDecodeFrame length).final s).response.registers i = r.register

section Records

variable {records : List SizedRecord} {frame : Buf} {a : ℕ}

theorem SizedRecord.bytes_length (r : SizedRecord) : r.bytes.length = 5+r.length.toNat := by
  have hrid : (u16Bytes r.rid).length = 2 := rfl
  rw [SizedRecord.bytes,List.length_append,List.length_append,hrid,r.data_length]
  simp only [List.length_cons,List.length_nil]
  omega

def span (lengths : List UInt8) : ℕ := (lengths.map fun l => 5+l.toNat).sum

theorem recordBytes_length (records : List SizedRecord) :
    (recordBytes records).length = span (records.map SizedRecord.length) := by
  induction records with
  | nil => rfl
  | cons r records ih =>
    rw [recordBytes,List.flatMap_cons,List.length_append,r.bytes_length]
    rw [recordBytes] at ih
    rw [ih]
    rfl

theorem load_records {k : ℕ} (h : load frame a (recordBytes records).length = recordBytes records)
    (hfour : ∀ r ∈ records.take k, r.length = 4) (hk : k ≤ records.length) :
    load frame (a+9*k) (recordBytes (records.drop k)).length = recordBytes (records.drop k) := by
  induction k generalizing records a with
  | zero => exact h
  | succ k ih =>
    cases records with
    | nil => cases hk
    | cons r records =>
      rw [recordBytes,List.flatMap_cons] at h
      obtain ⟨_,hrest⟩ := load_append h
      have hnine : r.bytes.length = 9 := by
        rw [r.bytes_length,hfour r (by simp)]
        rfl
      rw [hnine] at hrest
      have hnext := ih hrest (fun x hx => hfour x (by simp [hx]))
        (by simpa using hk)
      rw [show a+9+9*k = a+9*(k+1) by omega] at hnext
      exact hnext

theorem registerAt_sized {r : SizedRecord} (hfour : r.length = 4)
    (h : load frame a r.bytes.length = r.bytes) : registerAt frame a = r.register := by
  have hrid : u16Bytes r.rid = [(r.rid >>> 8).toUInt8,(r.rid &&& 0xff).toUInt8] := rfl
  obtain ⟨rid,unit,length,siEx,data,hdata⟩ := r
  dsimp only at hfour
  subst hfour
  have hsize : data.length = 4 := hdata
  match data, hsize with
  | [x,y,z,w], _ =>
    rw [SizedRecord.bytes,hrid] at h
    simp only [List.cons_append,List.nil_append] at h
    obtain ⟨h₀,h,_⟩ := load_cons h
    obtain ⟨h₁,h,_⟩ := load_cons h
    obtain ⟨h₂,h,_⟩ := load_cons h
    obtain ⟨h₃,h,_⟩ := load_cons h
    obtain ⟨h₄,h,_⟩ := load_cons h
    obtain ⟨h₅,h,_⟩ := load_cons h
    obtain ⟨h₆,h,_⟩ := load_cons h
    obtain ⟨h₇,h,_⟩ := load_cons h
    obtain ⟨h₈,_⟩ := load_cons h
    have h16 : be16 frame a = rid.toNat := by
      rw [be16,h₀,h₁]
      exact u16Bytes_value _ _ _ hrid
    have h32 : be32 frame (a+5) = bigEndian [x,y,z,w]%2^32 := by
      have hx := x.toNat_lt
      have hy := y.toNat_lt
      have hz := z.toNat_lt
      have hw := w.toNat_lt
      rw [be32,h₅,h₆,h₇,h₈]
      simp only [bigEndian,List.foldl_cons,List.foldl_nil]
      omega
    rw [registerAt,h16,h32,h₂,h₃,h₄]
    rfl

end Records

section Stored

variable {records : List SizedRecord} {s : Decoder} {length : ℕ}

theorem Reply.load_eq (h : Reply records s length) :
    load (store s.frame 1 (textOf s.frame length)) 3 (recordBytes records).length =
      recordBytes records := by
  obtain ⟨dst,hbody⟩ := h.body_eq
  have hload : load (store s.frame 1 (textOf s.frame length)) 1
      (bodyOf (textOf s.frame length)).length = bodyOf (textOf s.frame length) := by
    have htake := load_take (store s.frame 1 (textOf s.frame length)) (i := 1)
      (show (textOf s.frame length).length-3 ≤ (textOf s.frame length).length by omega)
    rw [load_store] at htake
    rw [bodyOf_length,bodyOf]
    exact htake.symm
  rw [hbody] at hload
  exact (load_append hload).2

theorem Reply.body_length (h : Reply records s length) :
    (bodyOf (textOf s.frame length)).length = 2+(recordBytes records).length := by
  obtain ⟨dst,hbody⟩ := h.body_eq
  rw [hbody,List.length_append]
  rfl

theorem Reply.command_eq (h : Reply records s length) : command (textOf s.frame length) = 0x10 := by
  obtain ⟨dst,hbody⟩ := h.body_eq
  have hlen := bodyOf_length (textOf s.frame length)
  have hget : (bodyOf (textOf s.frame length)).getD 1 0 = command (textOf s.frame length) := by
    have hlong : 1 < (bodyOf (textOf s.frame length)).length := by
      rw [h.body_length]
      omega
    have htext : 1 < (textOf s.frame length).length := by omega
    rw [command,List.getD_eq_getElem _ _ hlong,List.getD_eq_getElem _ _ htext]
    exact List.getElem_take
  rw [← hget,hbody]
  rfl

theorem Reply.value_eq (h : Reply records s length) (hne : records ≠ []) :
    (kmpDecodeFrame length).value s = 1 := by
  have hlen := recordBytes_length records
  have hpos : 0 < (recordBytes records).length := by
    cases records with
    | nil => exact absurd rfl hne
    | cons r records =>
      rw [hlen]
      simp only [span,List.map_cons,List.sum_cons]
      omega
  rw [kmpDecodeFrame_value h.accepted h.fits,if_pos]
  exact Or.inr ⟨h.command_eq,by rw [h.body_length]; omega⟩

theorem Reply.stored_iff (h : Reply records s length) (i : ℕ) :
    .register i ∈ (kmpDecodeFrame length).notes s ↔ 9*(i+1) ≤ (recordBytes records).length := by
  have hcmd := h.command_eq
  have hlen := h.body_length
  rw [mem_kmpDecodeFrame_notes h.accepted h.fits (by exact not_false),mem_dataNotes]
  constructor
  · rintro (he | ⟨hcid,_⟩ | ⟨_,_,he | ⟨k,hk,⟨m,_,he⟩ | he⟩⟩)
    · cases he
    · rw [hcmd] at hcid
      exact absurd hcid (by decide)
    · cases he
    · cases he
    · injection he with he
      omega
  · intro hi
    exact Or.inr (Or.inr ⟨hcmd,by omega,Or.inr ⟨i,by omega,Or.inr rfl⟩⟩)

theorem Reply.registers_eq (h : Reply records s length) {i : ℕ}
    (hi : 9*(i+1) ≤ (recordBytes records).length) :
    ((kmpDecodeFrame length).final s).response.registers i =
      registerAt (store s.frame 1 (textOf s.frame length)) (3+9*i) := by
  obtain ⟨hlow,_⟩ := textOf_length h.accepted.long h.accepted.stop
  have hcmd := h.command_eq
  have hlen := h.body_length
  rw [bodyOf_length] at hlen
  have hcid : store s.frame 1 (textOf s.frame length) 2 = 0x10 := by
    rw [← hcmd]
    exact store_getD (show 1 < (textOf s.frame length).length by omega)
  have htype : ¬store s.frame 1 (textOf s.frame length) 2 = 0x01 := by
    rw [hcid]
    decide
  have hserial : ¬store s.frame 1 (textOf s.frame length) 2 = 0x02 := by
    rw [hcid]
    decide
  have hrun := congrArg Prod.snd (kmpDecodeFrame_run s length)
  rw [kmpDecodeFrame_accepted h.accepted h.fits] at hrun
  dsimp only at hrun
  rw [hrun,Kmp.decodeData]
  dsimp only
  rw [if_neg htype,if_neg hserial,if_pos hcid,if_pos (by omega)]
  dsimp only
  rw [if_pos (by omega),Nat.add_comm]

end Stored

/-- Every value but the last has four bytes, and the last has fewer. -/
def ShortLast (lengths : List UInt8) : Prop :=
  ∃ front last, lengths = front ++ [last] ∧ (∀ l ∈ front, l = 4) ∧ last < 4

/-- Every reply with records of these lengths is rejected, or decoded to the records. -/
def AllDelimited (lengths : List UInt8) : Prop :=
  ∀ records : List SizedRecord, records.map SizedRecord.length = lengths →
    ∀ (s : Decoder) (length : ℕ), Reply records s length → Delimited records s length

section Lengths

variable {lengths front : List UInt8}

theorem span_append (xs ys : List UInt8) : span (xs ++ ys) = span xs+span ys := by
  rw [span,List.map_append,List.sum_append]
  rfl

theorem span_cons (l : UInt8) (xs : List UInt8) : span (l::xs) = 5+l.toNat+span xs := by
  rw [span,List.map_cons,List.sum_cons]
  rfl

theorem span_four (h : ∀ l ∈ front, l = 4) : span front = 9*front.length := by
  induction front with
  | nil => rfl
  | cons l front ih =>
    have hl : l.toNat = 4 := by
      rw [h l (by simp)]
      rfl
    rw [span_cons,ih fun x hx => h x (by simp [hx]),hl,List.length_cons]
    omega

theorem first_other (h : ∃ l ∈ lengths, l ≠ 4) :
    ∃ front l more, lengths = front ++ l::more ∧ (∀ x ∈ front, x = 4) ∧ l ≠ 4 := by
  induction lengths with
  | nil =>
    obtain ⟨l,hl,_⟩ := h
    cases hl
  | cons x lengths ih =>
    by_cases hx : x = 4
    · obtain ⟨l,hl,hne⟩ := h
      have hrest : ∃ l ∈ lengths, l ≠ 4 := by
        rcases List.mem_cons.mp hl with rfl | hl
        · exact absurd hx hne
        · exact ⟨l,hl,hne⟩
      obtain ⟨front,l,more,rfl,hfront,hother⟩ := ih hrest
      refine ⟨x::front,l,more,rfl,?_,hother⟩
      intro y hy
      rcases List.mem_cons.mp hy with rfl | hy
      · exact hx
      · exact hfront y hy
    · exact ⟨[],x,lengths,rfl,by simp,hx⟩

/-- Such a reply has no piece behind its four-byte values, so what is stored is right. -/
theorem ShortLast.allDelimited (h : ShortLast lengths) : AllDelimited lengths := by
  obtain ⟨front,last,rfl,hfront,hlast⟩ := h
  intro records hlengths s length hreply
  have hspan := recordBytes_length records
  have hcount := congrArg List.length hlengths
  rw [hlengths,span_append,span_four hfront,span_cons] at hspan
  rw [List.length_map,List.length_append,List.length_singleton] at hcount
  have hthree := UInt8.lt_iff_toNat_lt.mp hlast
  have hfour : UInt8.toNat 4 = 4 := rfl
  have hnil : span [] = 0 := rfl
  refine Or.inr fun i hi => ?_
  rw [hreply.stored_iff] at hi
  have hlt : i < records.length := by omega
  refine ⟨records[i],List.getElem?_eq_getElem hlt,?_⟩
  have hearlier : ∀ r ∈ records.take (i+1), r.length = 4 := by
    intro r hr
    have hmem : r.length ∈ (records.map SizedRecord.length).take (i+1) := by
      rw [← List.map_take]
      exact List.mem_map_of_mem hr
    rw [hlengths,List.take_append_of_le_length (by omega)] at hmem
    exact hfront _ (List.mem_of_mem_take hmem)
  have hload := load_records hreply.load_eq
    (fun r hr => hearlier r (List.take_subset_take_left _ (Nat.le_succ i) hr)) (by omega)
  rw [List.drop_eq_getElem_cons hlt,recordBytes,List.flatMap_cons] at hload
  rw [hreply.registers_eq hi]
  have hmem : records[i] ∈ records.take (i+1) := by
    rw [List.take_succ_eq_append_getElem hlt]
    exact List.mem_append_right _ (List.mem_singleton_self _)
  exact registerAt_sized (hearlier _ hmem) (load_append hload).1

end Lengths

/-- A record of a given size, with as few reserved bytes as its size allows. -/
def probe (l : UInt8) : SizedRecord where
  rid := 0x0100
  unit := 0
  length := l
  siEx := 0
  data := (1::List.replicate 255 0).take l.toNat
  data_length := by
    have hlt := l.toNat_lt
    rw [List.length_take,List.length_cons,List.length_replicate]
    omega

theorem probe_bytes (l : UInt8) : (probe l).bytes = [1,0,0,l,0] ++ (probe l).data := by
  have hrid : u16Bytes 0x0100 = [1,0] := by decide
  rw [SizedRecord.bytes,show (probe l).rid = 0x0100 from rfl,hrid]
  rfl

theorem foldl_zeros (m n : ℕ) :
    (List.replicate m (0 : UInt8)).foldl (fun n b => n*2^8+b.toNat) n = n*2^(8*m) := by
  induction m generalizing n with
  | zero => simp
  | succ m ih =>
    have hb : UInt8.toNat 0 = 0 := rfl
    rw [List.replicate_succ,List.foldl_cons,ih,hb,Nat.add_zero,Nat.mul_assoc,← Nat.pow_add]
    congr 2
    omega

theorem bigEndian_probe {l : UInt8} (h : l ≠ 4) : bigEndian (probe l).data%2^32 ≤ 2^16 := by
  have hlt := l.toNat_lt
  rw [probe]
  dsimp only
  cases hl : l.toNat with
  | zero => decide
  | succ m =>
    have hthree : m ≠ 3 := by
      rintro rfl
      exact h (UInt8.toNat_inj.mp hl)
    have hone : 0*2^8+UInt8.toNat 1 = 1 := rfl
    rw [List.take_succ_cons,List.take_replicate,Nat.min_eq_left (by omega),bigEndian,
      List.foldl_cons,hone,foldl_zeros,Nat.one_mul]
    by_cases hm : m ≤ 2
    · exact Nat.le_trans (Nat.mod_le _ _) (Nat.pow_le_pow_right (by decide) (by omega))
    · rw [Nat.mod_eq_zero_of_dvd (Nat.pow_dvd_pow 2 (by omega))]
      exact Nat.zero_le _

theorem reserved_probe (l : UInt8) :
    (probe l).bytes.countP kmpCode.reserved = if kmpCode.reserved l then 1 else 0 := by
  have hdata : (probe l).data.countP kmpCode.reserved = 0 := by
    rw [List.countP_eq_zero]
    intro b hb
    rcases List.mem_cons.mp (List.mem_of_mem_take hb) with rfl | hb
    · decide
    · rw [(List.mem_replicate.mp hb).2]
      decide
  have hone : ¬kmpCode.reserved 1 = true := by decide
  have hzero : ¬kmpCode.reserved 0 = true := by decide
  rw [probe_bytes,List.countP_append,hdata]
  simp only [List.countP_cons,List.countP_nil,if_neg hone,if_neg hzero]
  omega

theorem reserved_probes (lengths : List UInt8) :
    (recordBytes (lengths.map probe)).countP kmpCode.reserved = lengths.countP kmpCode.reserved := by
  induction lengths with
  | nil => rfl
  | cons l lengths ih =>
    rw [recordBytes] at ih
    rw [List.map_cons,recordBytes,List.flatMap_cons,List.countP_append,reserved_probe,ih,
      List.countP_cons,Nat.add_comm]

/-- A reply with records of these sizes fits the frame, also if both bytes of its checksum are
stuffed. -/
def Fits (lengths : List UInt8) : Prop := span lengths+lengths.countP kmpCode.reserved+8 ≤ kmpFrameL

instance (lengths : List UInt8) : Decidable (Fits lengths) := inferInstanceAs (Decidable (_ ≤ _))

def probeReply (lengths : List UInt8) : List UInt8 :=
  wire 0x40 (checked ([0x3f,0x10] ++ recordBytes (lengths.map probe)))

theorem probe_reply {lengths : List UInt8} (hfits : Fits lengths) :
    Reply (lengths.map probe) (Sample.received (probeReply lengths)) (probeReply lengths).length := by
  have hmap : (lengths.map probe).map SizedRecord.length = lengths := by
    rw [List.map_map]
    exact List.map_id lengths
  have hbytes := recordBytes_length (lengths.map probe)
  rw [hmap] at hbytes
  have hload : load (Sample.received (probeReply lengths)).frame 0 (probeReply lengths).length =
      probeReply lengths := load_store _ _ _
  obtain ⟨htext,haccepted⟩ := @wire_accepted _ _ ([0x3f,0x10] ++ recordBytes (lengths.map probe))
    (by rw [List.length_append]; exact Nat.le_add_right _ _) hload
  refine ⟨?_,haccepted,0x3f,?_⟩
  · have hstuffed := kmpCode.stuff_length
      (checked ([0x3f,0x10] ++ recordBytes (lengths.map probe)))
    have hcrc := List.countP_le_length (p := kmpCode.reserved)
      (l := crcBytes (ccitCrc16 0 ([0x3f,0x10] ++ recordBytes (lengths.map probe))))
    have hhead : [0x3f,0x10].countP kmpCode.reserved = 0 := by decide
    have hrecords := reserved_probes lengths
    simp only [checked,List.length_append,List.countP_append,hhead,crcBytes_length,List.length_cons,
      List.length_nil,hbytes] at hstuffed hcrc
    rw [Fits] at hfits
    simp only [probeReply,wire,checked,List.length_cons,List.length_append,List.length_nil]
    omega
  · rw [show (textOf (Sample.received (probeReply lengths)).frame (probeReply lengths).length) = _
      from htext,bodyOf_checked]

/-- The piece at the first value of another size holds a 1 where the four bytes of the value
begin: the first byte of the value, or of the next record if the value has none. -/
theorem probe_stored {lengths front more : List UInt8} {l : UInt8} {s : Decoder} {length : ℕ}
    (hlengths : lengths = front ++ l::more) (hfront : ∀ x ∈ front, x = 4)
    (hlong : 9*(front.length+1) ≤ span lengths) (hreply : Reply (lengths.map probe) s length) :
    store s.frame 1 (textOf s.frame length) (3+9*front.length+5) = 1 := by
  have hdrop : (lengths.map probe).drop front.length = probe l::more.map probe := by
    rw [hlengths,List.map_append,List.drop_left' (List.length_map _)]
    rfl
  have hearlier : ∀ r ∈ (lengths.map probe).take front.length, r.length = 4 := by
    intro r hr
    rw [hlengths,List.map_append,List.take_left' (List.length_map _)] at hr
    obtain ⟨x,hx,rfl⟩ := List.mem_map.mp hr
    exact hfront x hx
  have hle : front.length ≤ (lengths.map probe).length := by
    rw [hlengths,List.length_map,List.length_append]
    exact Nat.le_add_right _ _
  have hload := load_records hreply.load_eq hearlier hle
  rw [hdrop,recordBytes,List.flatMap_cons] at hload
  rw [probe_bytes,List.append_assoc] at hload
  have hrest := (load_append hload).2
  rw [hlengths,span_append,span_four hfront,span_cons] at hlong
  -- The bytes from there on begin with a 1.
  have hone : ∃ bytes, (probe l).data ++ (more.map probe).flatMap SizedRecord.bytes = 1::bytes := by
    cases hl : l.toNat with
    | zero =>
      cases more with
      | nil =>
        have hnil : span [] = 0 := rfl
        omega
      | cons m more =>
        have hnone : (probe l).data = [] := by
          rw [probe]
          dsimp only
          rw [hl]
          rfl
        rw [hnone,List.map_cons,List.flatMap_cons,probe_bytes]
        exact ⟨_,rfl⟩
    | succ n =>
      have hsome : (probe l).data = 1::(List.replicate 255 0).take n := by
        rw [probe]
        dsimp only
        rw [hl]
        rfl
      exact ⟨_,by rw [hsome]; rfl⟩
  obtain ⟨bytes,hbytes⟩ := hone
  rw [hbytes] at hrest
  exact (load_cons hrest).1

/-- A reply with probes that is cut right has a short value at its end and no other. -/
theorem AllDelimited.shortLast {lengths : List UInt8} (h : AllDelimited lengths)
    (hother : ∃ l ∈ lengths, l ≠ 4) (hfits : Fits lengths) : ShortLast lengths := by
  obtain ⟨front,l,more,hlengths,hfront,hne⟩ := first_other hother
  by_contra hshort
  have hmap : (lengths.map probe).map SizedRecord.length = lengths := by
    rw [List.map_map]
    exact List.map_id lengths
  have hlong : 9*(front.length+1) ≤ span lengths := by
    rw [hlengths,span_append,span_four hfront,span_cons]
    cases more with
    | nil =>
      have hge : ¬l < 4 := fun hlt => hshort ⟨front,l,hlengths,hfront,hlt⟩
      have hfour : UInt8.toNat 4 = 4 := rfl
      have hle : 4 ≤ l.toNat := by
        have hnat := mt UInt8.lt_iff_toNat_lt.mpr hge
        omega
      have hnot : l.toNat ≠ 4 := fun heq => hne (UInt8.toNat_inj.mp heq)
      omega
    | cons m more =>
      rw [span_cons]
      omega
  have hreply := probe_reply hfits
  have hbytes := recordBytes_length (lengths.map probe)
  rw [hmap] at hbytes
  have hpos : lengths.map probe ≠ [] := by
    rw [hlengths]
    simp
  rcases h _ hmap _ _ hreply with hle | hall
  · rw [hreply.value_eq hpos] at hle
    exact absurd hle (by decide)
  · obtain ⟨r,hr,hstored⟩ := hall front.length ((hreply.stored_iff _).mpr (by omega))
    have hprobe : r = probe l := by
      have hget : (lengths.map probe)[front.length]? = some (probe l) := by
        rw [hlengths]
        simp
      rw [hget] at hr
      exact (Option.some.inj hr).symm
    have hbyte := probe_stored hlengths hfront hlong hreply
    rw [hreply.registers_eq (by omega),hprobe] at hstored
    have hvalue := congrArg Register.value hstored
    have hsmall := bigEndian_probe hne
    generalize store _ 1 _ = frame at hbyte hvalue
    have hbe : (registerAt frame (3+9*front.length)).value =
        toInt32 (be32 frame (3+9*front.length+5)) := rfl
    have href : (probe l).register.value = toInt32 (bigEndian (probe l).data%2^32) := rfl
    have hone : UInt8.toNat 1 = 1 := rfl
    have h₁ := (frame (3+9*front.length+5+1)).toNat_lt
    have h₂ := (frame (3+9*front.length+5+2)).toNat_lt
    have h₃ := (frame (3+9*front.length+5+3)).toNat_lt
    rw [hbe,href,be32,hbyte,hone,toInt32,toInt32,if_pos (by omega),if_pos (by omega)] at hvalue
    omega

/-- Register replies of at most eight records, one of them with a value of another size: those
whose only such value is the last one and has fewer than four bytes are decoded to the records
that the length bytes delimit, whatever is in them. Of other sizes that fit a frame some reply
is not. -/
theorem records_delimited (lengths : List UInt8) (_ : lengths.length ≤ 8)
    (hother : ∃ l ∈ lengths, l ≠ 4) :
    (ShortLast lengths → AllDelimited lengths) ∧
      (Fits lengths → AllDelimited lengths → ShortLast lengths) :=
  ⟨ShortLast.allDelimited,fun hfits h => h.shortLast hother hfits⟩

/-- A value of two bytes behind one of four. -/
theorem records_delimited_short : AllDelimited [4,2] :=
  (records_delimited [4,2] (by decide) ⟨2,by decide,by decide⟩).1
    ⟨[4],2,rfl,fun _ hl => List.mem_singleton.mp hl,by decide⟩

/-- A value of two bytes in front of one of four. -/
theorem records_misread : ¬∀ lengths : List UInt8, lengths.length ≤ 8 → (∃ l ∈ lengths, l ≠ 4) →
    AllDelimited lengths := by
  intro h
  obtain ⟨front,last,heq,_,hlast⟩ :=
    (h [2,4] (by decide) ⟨2,by decide,by decide⟩).shortLast ⟨2,by decide,by decide⟩ (by decide)
  have hend := congrArg List.getLast? heq
  rw [List.getLast?_concat] at hend
  have hfour : last = 4 := (Option.some.inj hend).symm
  rw [hfour] at hlast
  exact absurd hlast (by decide)

end KmpAccess
end MeterLogger
