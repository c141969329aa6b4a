import MeterLogger.KmpAccess

/-!
# What a KMP reply is decoded from

The notes of a decoding in terms of the received bytes. In front of the application layer no
index is out of range, and no difference of lengths is negative. The application layer reads the
fields of a type or serial reply at fixed indices and takes the number of registers from the
length: what is read there lies under the checksum, and in the arrays, just for some lengths.
-/

namespace MeterLogger
namespace KmpAccess

open Buffers Crc16 Kmp Noted

/-- The bytes behind the start byte, unstuffed: destination, command, data, checksum and stop
byte. -/
def textOf (frame : Buf) (length : ℕ) : List UInt8 := kmpCode.unstuff (load frame 1 (length-1))

def bodyOf (text : List UInt8) : List UInt8 := text.take (text.length-3)

def command (text : List UInt8) : UInt8 := text.getD 1 0

def crcOf (text : List UInt8) : ℕ :=
  (text.getD (text.length-3) 0).toNat*2^8+(text.getD (text.length-2) 0).toNat

/-- A frame with a stop byte and the right checksum. -/
structure Accepted (frame : Buf) (length : ℕ) : Prop where
  long : 6 ≤ length
  stop : frame (length-1) = 0x0d
  crc : crcOf (textOf frame length) = (ccitCrc16 0 (bodyOf (textOf frame length))).toNat

/-- The loop unstuffs what is in the frame; a stop byte is no escape byte, so the loop does not
look behind the end. -/
theorem unstuffLoop_eq {frame : Buf} {length n i : ℕ} (hlast : frame (length-1) ≠ 0x1b)
    (h : length ≤ i+n) : Kmp.unstuffLoop frame length n i = kmpCode.unstuff (load frame i (length-i)) := by
  induction n generalizing i with
  | zero =>
    rw [show length-i = 0 by omega]
    rfl
  | succ n ih =>
    rw [Kmp.unstuffLoop]
    by_cases hi : i < length
    · obtain ⟨m,hm⟩ : ∃ m, length-i = m+1 := ⟨length-i-1,by omega⟩
      have hrest := @ih (i+1) (by omega)
      rw [show length-(i+1) = m by omega] at hrest
      rw [if_pos hi,hm,load_succ]
      cases m with
      | zero =>
        have hne : frame i ≠ 0x1b := by
          rwa [show length-1 = i by omega] at hlast
        have hne' : frame i ≠ kmpCode.esc := hne
        rw [if_neg hne,hrest,load_zero,StuffingCode.unstuff,StuffingCode.unstuff,if_neg hne']
      | succ m =>
        have hskip := @ih (i+2) (by omega)
        rw [show length-(i+2) = m by omega] at hskip
        rw [hrest,hskip,load_succ,StuffingCode.unstuff]
        rfl
    · rw [if_neg hi,show length-i = 0 by omega]
      rfl

section Text

variable {frame : Buf} {length : ℕ}

theorem textOf_length (h : 6 ≤ length) (hstop : frame (length-1) = 0x0d) :
    3 ≤ (textOf frame length).length ∧ (textOf frame length).length ≤ length-1 := by
  have hle := kmpCode.unstuff_length_le (load frame 1 (length-1))
  have hlast : (load frame 1 (length-1)).getLast? ≠ some kmpCode.esc := by
    obtain ⟨m,hm⟩ : ∃ m, length-1 = m+1 := ⟨length-2,by omega⟩
    have hend : load frame (1+m) 1 = [0x0d] := by
      rw [load_succ,load_zero,Nat.add_comm 1 m,← hm,hstop]
    rw [hm,load_add,hend,List.getLast?_concat]
    decide
  have hge := kmpCode.length_le_unstuff hlast
  rw [load_length] at hle hge
  rw [textOf]
  omega

theorem kmpByteUnstuff_text (h : 6 ≤ length) (hle : length ≤ kmpFrameL)
    (hstop : frame (length-1) = 0x0d) :
    Kmp.kmpByteUnstuff ⟨frame,length,0⟩ =
      ⟨store frame 1 (textOf frame length),(textOf frame length).length+1,
        (textOf frame length).length⟩ := by
  obtain ⟨hlow,hhigh⟩ := textOf_length h hstop
  have hloop : Kmp.unstuffLoop frame length length 1 = textOf frame length := by
    rw [unstuffLoop_eq (by rw [hstop]; decide) (by omega)]
    rfl
  rw [Kmp.kmpByteUnstuff,hloop,putData,if_pos ⟨by omega,by omega⟩]

theorem store_getD {text : List UInt8} {k : ℕ} (hk : k < text.length) :
    store frame 1 text (1+k) = text.getD k 0 := by
  rw [store_in hk,List.getD_eq_getElem _ _ hk]

theorem load_take (b : Buf) {i n k : ℕ} (h : k ≤ n) : (load b i n).take k = load b i k := by
  obtain ⟨m,rfl⟩ : ∃ m, n = k+m := ⟨n-k,by omega⟩
  rw [load_add,List.take_append_of_le_length (by rw [load_length]),
    List.take_of_length_le (by rw [load_length])]

theorem crcOk_text {text : List UInt8} (h : 3 ≤ text.length) (n : ℕ) :
    crcOk ⟨store frame 1 text,text.length+1,n⟩ = true ↔
      crcOf text = (ccitCrc16 0 (bodyOf text)).toNat := by
  have hbody : load (store frame 1 text) 1 (text.length+1-4) = bodyOf text := by
    rw [← load_take (store frame 1 text) (show text.length+1-4 ≤ text.length by omega),load_store,
      bodyOf,show text.length+1-4 = text.length-3 by omega]
  have hcrc : be16 (store frame 1 text) (text.length+1-3) = crcOf text := by
    rw [be16,crcOf,show text.length+1-3 = 1+(text.length-3) by omega,store_getD (by omega),
      show 1+(text.length-3)+1 = 1+(text.length-2) by omega,store_getD (by omega)]
  rw [crcOk,decide_eq_true_iff,Kmp.kmpCrc16]
  dsimp only
  rw [hcrc,hbody]

end Text

/-- No index is out of range, nothing goes to the response, no difference is negative. -/
def Plain : Use → Prop
  | .frame i present => i < kmpFrameL ∧ i < present
  | .field _ _ => False
  | .unstuffed i present => i < kmpFrameL ∧ i < present
  | .register _ => False
  | .minus a b => b ≤ a

/-- Every index lies in its array and in the data that is there, no difference is negative. -/
def InArrays : Use → Prop
  | .frame i present => i < kmpFrameL ∧ i < present
  | .field i present => i < kmpFrameL ∧ i < present
  | .unstuffed i present => i < kmpFrameL ∧ i < present
  | .register i => i < 8
  | .minus a b => b ≤ a

theorem Plain.inArrays {e : Use} (h : Plain e) : InArrays e := by
  cases e with
  | field _ _ => exact h.elim
  | register _ => exact h.elim
  | _ => exact h

section Front

variable {f : Buf} {length : ℕ}

theorem plain_minus {a b : ℕ} (h : b ≤ a) {pre : Decoder → Prop} :
    Triple pre (minus a b) Plain fun c s => c = a-b ∧ pre s :=
  triple_look (show Plain (.minus a b) from h) _

theorem plain_readFrame {i : ℕ} (hle : length ≤ kmpFrameL) (h : i < length) :
    Triple (fun s => s.frame = f) (readFrame length i) Plain fun c s => c = f i ∧ s.frame = f := by
  refine (triple_look (show Plain (.frame i length) from ⟨by omega,h⟩) _).weaken (fun _ h => h) ?_
  rintro c s ⟨hc,hs⟩
  exact ⟨by rw [hc,hs],hs⟩

theorem plain_writeUnstuffed {j : ℕ} (hle : length ≤ kmpFrameL) (h : j < length) (b : UInt8) :
    Triple (fun s => s.frame = f) (writeUnstuffed length j b) Plain fun _ s => s.frame = f :=
  triple_change (show Plain (.unstuffed j length) from ⟨by omega,h⟩) fun _ hs => hs

theorem plain_unstuffLoop (hle : length ≤ kmpFrameL) (hlast : f (length-1) ≠ 0x1b) {n i j : ℕ}
    (hj : j < i) (hi : i ≤ length) :
    Triple (fun s => s.frame = f) (unstuffLoop length n i j) Plain fun k _ => k < length := by
  induction n generalizing i j with
  | zero => exact triple_pure fun _ _ => by omega
  | succ n ih =>
    rw [unstuffLoop]
    split
    · rename_i hlt
      refine triple_bind (plain_readFrame hle hlt) fun c => Triple.assume fun hc => ?_
      split
      · rename_i hesc
        have hne : i ≠ length-1 := by
          rintro rfl
          exact hlast (hc ▸ hesc)
        refine triple_bind (plain_readFrame hle (by omega)) fun e => Triple.assume fun _ => ?_
        exact triple_bind (plain_writeUnstuffed hle (by omega) _) fun _ =>
          ih (by omega) (by omega)
      · exact triple_bind (plain_writeUnstuffed hle (by omega) _) fun _ =>
          ih (by omega) (by omega)
    · exact triple_pure fun _ _ => by omega

theorem plain_copyBack (hle : length ≤ kmpFrameL) {j k : ℕ} (hk : k ≤ j) (hj : j < length) :
    Triple (fun _ => True) (copyBack length j k) Plain fun _ _ => True := by
  induction k with
  | zero => exact triple_pure fun _ _ => trivial
  | succ k ih =>
    refine triple_bind (ih (by omega)) fun _ => ?_
    refine triple_bind (triple_look (show Plain (.unstuffed k j) from ⟨by omega,by omega⟩) _)
      fun b => ?_
    exact triple_change (show Plain (.frame (1+k) length) from ⟨by omega,by omega⟩)
      fun _ _ => trivial

theorem plain_kmpByteUnstuff (hle : length ≤ kmpFrameL) (hlast : f (length-1) ≠ 0x1b)
    (h : 0 < length) :
    Triple (fun s => s.frame = f) (kmpByteUnstuff length) Plain fun _ _ => True := by
  refine triple_bind ((plain_unstuffLoop hle hlast (by omega) h).weaken (fun _ hs => hs)
    fun k _ hk => ⟨hk,trivial⟩) fun k => Triple.assume fun hk => ?_
  split
  · exact triple_bind (plain_copyBack hle (Nat.le_refl k) hk) fun _ => triple_pure fun _ _ => trivial
  · exact triple_pure fun _ _ => trivial

theorem plain_readFrames (hle : length ≤ kmpFrameL) {i n : ℕ} (h : i+n ≤ length) :
    Triple (fun s => s.frame = f) (readFrames length i n) Plain fun _ s => s.frame = f := by
  induction n generalizing i with
  | zero => exact triple_pure fun _ hs => hs
  | succ n ih =>
    refine triple_bind (plain_readFrame hle (by omega)) fun b => Triple.assume fun _ => ?_
    exact triple_bind (ih (by omega)) fun bs => triple_pure fun _ hs => hs

theorem plain_kmpCrc16 (hle : length ≤ kmpFrameL) {n : ℕ} (h : 1+n ≤ length) :
    Triple (fun s => s.frame = f) (kmpCrc16 length n) Plain fun _ s => s.frame = f :=
  triple_bind (plain_readFrames hle h) fun _ => triple_pure fun _ hs => hs

theorem plain_checkFrame (hle : length ≤ kmpFrameL) (h : 4 ≤ length) :
    Triple (fun s => s.frame = f) (checkFrame length) Plain fun _ _ => True := by
  refine triple_bind (plain_minus h) fun n => Triple.assume fun hn => ?_
  refine triple_bind (plain_kmpCrc16 hle (by omega)) fun crc => ?_
  refine triple_bind (plain_minus (by omega)) fun lo => Triple.assume fun hlo => ?_
  refine triple_bind (plain_readFrame hle (by omega)) fun b => Triple.assume fun _ => ?_
  refine triple_bind (plain_minus (by omega)) fun hi => Triple.assume fun hhi => ?_
  refine triple_bind (plain_readFrame hle (by omega)) fun c => Triple.assume fun _ => ?_
  exact triple_pure fun _ _ => trivial

end Front

/-- `k` bytes of the frame from index `i` on go to the response. -/
def fieldNotes (n i k : ℕ) : List Use := (List.range k).map fun m => .field (i+m) n

def registerNotes (n count : ℕ) : List Use :=
  (List.range count).flatMap fun i => fieldNotes n (9*i+3) 9 ++ [.register i]

/-- The notes of the application layer, for an unstuffed frame of length `n`. -/
def dataNotes (n : ℕ) (cid : UInt8) : List Use :=
  .frame 2 n ::
    if cid = 0x01 ∨ cid = 0x02 then fieldNotes n 3 4
    else if cid = 0x10 ∧ n-4 > 2 then .minus (n-4) 2 :: registerNotes n ((n-4-2)/9)
    else []

theorem registerLoop_notes (s : Decoder) (n count : ℕ) :
    (registerLoop n count).notes s = registerNotes n count := by
  induction count with
  | zero => rfl
  | succ count ih =>
    have hone : (registerField n (9*count+3)).notes ((registerLoop n count).final s) =
        fieldNotes n (9*count+3) 9 := rfl
    rw [registerLoop,notes_bind,notes_bind,ih,hone,registerNotes,registerNotes,List.range_succ,
      List.flatMap_append]
    rfl

theorem decodeData_notes (s : Decoder) (n : ℕ) :
    (decodeData n (n-4)).notes s = dataNotes n (s.frame 2) := by
  have hcid : (readFrame n 2).value s = s.frame 2 := rfl
  have hnote : (readFrame n 2).notes s = [.frame 2 n] := rfl
  have hstay : (readFrame n 2).final s = s := rfl
  rw [decodeData,notes_bind,hcid,hnote,hstay,dataNotes,List.singleton_append]
  congr 1
  by_cases h₁ : s.frame 2 = 0x01
  · rw [if_pos h₁,if_pos (Or.inl h₁)]
    rfl
  rw [if_neg h₁]
  by_cases h₂ : s.frame 2 = 0x02
  · rw [if_pos h₂,if_pos (Or.inr h₂)]
    rfl
  rw [if_neg h₂,if_neg (not_or.mpr ⟨h₁,h₂⟩)]
  by_cases h₃ : s.frame 2 = 0x10
  · rw [if_pos h₃]
    split
    · rename_i hdata
      rw [if_pos ⟨h₃,hdata⟩,notes_bind,notes_bind,registerLoop_notes]
      have hminus : (minus (n-4) 2).notes s = [.minus (n-4) 2] := rfl
      have hvalue : (minus (n-4) 2).value s = n-4-2 := rfl
      rw [hminus,hvalue,notes_pure,List.append_nil]
      rfl
    · rename_i hdata
      rw [if_neg (not_and_of_not_right _ hdata)]
      rfl
  · rw [if_neg h₃,if_neg (not_and_of_not_left _ h₃)]
    split <;> rfl

section Notes

variable {frame : Buf} {length : ℕ}

theorem kmpDecodeFrame_accepted (h : Accepted frame length) (hle : length ≤ kmpFrameL) :
    Kmp.kmpDecodeFrame frame length =
      Kmp.decodeData ⟨store frame 1 (textOf frame length),(textOf frame length).length+1,
        (textOf frame length).length⟩ := by
  obtain ⟨hlow,_⟩ := textOf_length h.long h.stop
  have hlong := h.long
  rw [Kmp.kmpDecodeFrame,if_neg (by omega),if_pos h.stop,kmpByteUnstuff_text h.long hle h.stop]
  exact if_pos ((crcOk_text hlow _).mpr h.crc)

theorem kmpDecodeFrame_refused (h : ¬Accepted frame length) (hle : length ≤ kmpFrameL) :
    (Kmp.kmpDecodeFrame frame length).1 ≤ 0 := by
  rw [Kmp.kmpDecodeFrame]
  split
  · exact Int.le_refl 0
  rename_i hlong
  split
  · rename_i hstop
    obtain ⟨hlow,_⟩ := textOf_length (by omega) hstop
    rw [kmpByteUnstuff_text (by omega) hle hstop]
    dsimp only
    split
    · rename_i hcrc
      exact absurd ⟨by omega,hstop,(crcOk_text hlow _).mp hcrc⟩ h
    · decide
  · exact Int.le_refl 0

/-- What is noted from the unstuffing on: indices in range, and behind them, for an accepted
frame, the notes of the application layer. -/
theorem unstuffed_notes {t : Decoder} (hframe : t.frame = frame) (hlong : 6 ≤ length)
    (hle : length ≤ kmpFrameL) (hstop : frame (length-1) = 0x0d) :
    ∃ front, (∀ e ∈ front, Plain e) ∧
      (Accepted frame length → (do
          let length ← kmpByteUnstuff length
          let ok ← checkFrame length
          if ok then decodeData length (length-4) else pure (-1) : Decoding ℤ).notes t =
        front ++ dataNotes ((textOf frame length).length+1) (command (textOf frame length))) ∧
      (¬Accepted frame length → (do
          let length ← kmpByteUnstuff length
          let ok ← checkFrame length
          if ok then decodeData length (length-4) else pure (-1) : Decoding ℤ).notes t = front) := by
  obtain ⟨hlow,hhigh⟩ := textOf_length hlong hstop
  obtain ⟨hvalue,hdata,_⟩ := kmpByteUnstuff_run t length
  have hplain := (plain_kmpByteUnstuff hle (by rw [hstop]; decide) (by omega) t hframe).1
  rw [hframe,kmpByteUnstuff_text hlong hle hstop] at hvalue hdata
  dsimp only at hvalue hdata
  rw [notes_bind,hvalue,notes_bind]
  generalize (kmpByteUnstuff length).final t = u at hdata
  obtain ⟨hok,hsame⟩ := checkFrame_run u (show 3 ≤ (textOf frame length).length+1 by omega) 0
  have hcheck := (plain_checkFrame (show (textOf frame length).length+1 ≤ kmpFrameL by omega)
    (by omega) u hdata).1
  rw [hdata] at hok
  have hcrc := @crcOk_text frame _ hlow 0
  rw [← hok] at hcrc
  rw [hsame]
  refine ⟨(kmpByteUnstuff length).notes t ++ (checkFrame ((textOf frame length).length+1)).notes u,
    ?_,?_,?_⟩
  · intro e he
    rcases List.mem_append.mp he with he | he
    · exact hplain e he
    · exact hcheck e he
  · intro h
    have hcid : u.frame 2 = command (textOf frame length) := by
      rw [hdata,command]
      exact store_getD (show 1 < (textOf frame length).length by omega)
    rw [if_pos (hcrc.mpr h.crc),decodeData_notes,hcid,List.append_assoc]
  · intro h
    have hbad : ¬(checkFrame ((textOf frame length).length+1)).value u = true :=
      fun hyes => h ⟨hlong,hstop,hcrc.mp hyes⟩
    rw [if_neg hbad,notes_pure,List.append_nil]

theorem kmpDecodeFrame_notes (s : Decoder) (hle : length ≤ kmpFrameL) :
    ∃ front, (∀ e ∈ front, Plain e) ∧
      (Accepted s.frame length → (kmpDecodeFrame length).notes s =
        front ++ dataNotes ((textOf s.frame length).length+1) (command (textOf s.frame length))) ∧
      (¬Accepted s.frame length → (kmpDecodeFrame length).notes s = front) := by
  rw [kmpDecodeFrame,notes_bind]
  have hclear : (setResponse fun _ => Response.zero).notes s = [] := rfl
  have hframe : ((setResponse fun _ => Response.zero).final s).frame = s.frame := rfl
  rw [hclear,List.nil_append]
  generalize (setResponse fun _ => Response.zero).final s = t at hframe
  by_cases hshort : length < 6
  · have hno : ¬Accepted s.frame length := fun h => absurd h.long (by omega)
    split
    · exact ⟨[],by simp,fun h => absurd h hno,fun _ => rfl⟩
    split
    · rename_i hone
      refine ⟨[.minus length 1,.frame (length-1) length],?_,fun h => absurd h hno,fun _ => rfl⟩
      rw [hone]
      simp [Plain,kmpFrameL]
    · exact ⟨[],by simp,fun h => absurd h hno,fun _ => rfl⟩
  rw [if_neg (by omega),if_neg (by omega),if_neg hshort,notes_bind]
  have hminus : (minus length 1).notes t = [.minus length 1] := rfl
  have hlast : (minus length 1).value t = length-1 := rfl
  have hstay : (minus length 1).final t = t := rfl
  have hnote : (readFrame length (length-1)).notes t = [.frame (length-1) length] := rfl
  have hread : (readFrame length (length-1)).value t = t.frame (length-1) := rfl
  have hstay' : (readFrame length (length-1)).final t = t := rfl
  rw [hminus,hlast,hstay,notes_bind,hnote,hread,hstay',hframe]
  have hminus_plain : Plain (.minus length 1) := show 1 ≤ length by omega
  have hread_plain : Plain (.frame (length-1) length) :=
    show length-1 < kmpFrameL ∧ length-1 < length by omega
  have hhead : ∀ front : List Use, (∀ e ∈ front, Plain e) →
      ∀ e ∈ [.minus length 1] ++ ([.frame (length-1) length] ++ front), Plain e := by
    intro front hfront e he
    rw [List.mem_append,List.mem_append,List.mem_singleton,List.mem_singleton] at he
    rcases he with rfl | rfl | he
    · exact hminus_plain
    · exact hread_plain
    · exact hfront e he
  by_cases hstop : s.frame (length-1) = 0x0d
  · obtain ⟨front,hfront,haccepted,hrefused⟩ := unstuffed_notes hframe (by omega) hle hstop
    refine ⟨[.minus length 1] ++ ([.frame (length-1) length] ++ front),hhead front hfront,?_,?_⟩
    · intro h
      rw [if_pos hstop,haccepted h,List.append_assoc,List.append_assoc]
    · intro h
      rw [if_pos hstop,hrefused h]
  · rw [if_neg hstop,notes_pure]
    exact ⟨_,hhead [] (by simp),fun h => absurd h.stop hstop,fun _ => rfl⟩

end Notes

/-- What a reply has in front of its checksum at least: destination and command, and behind them
four bytes of data or a register. -/
def shortest (cid : UInt8) : ℕ :=
  if cid = 0x01 ∨ cid = 0x02 then 6 else if cid = 0x10 then 11 else 2

/-- A decoding takes the fields of the response from between the start byte and the checksum,
and refuses a frame too short for its command. -/
structure Covered (s : Decoder) (length : ℕ) : Prop where
  fields : 0 < (kmpDecodeFrame length).value s →
    ∀ i present, .field i present ∈ (kmpDecodeFrame length).notes s → 1 ≤ i ∧ i+3 < present
  refused : (bodyOf (textOf s.frame length)).length < shortest (command (textOf s.frame length)) →
    (kmpDecodeFrame length).value s ≤ 0

/-- The frame is long enough for its command; register replies without data and other commands
are refused. -/
def LongEnough (text : List UInt8) : Prop :=
  command text ∈ [0x01,0x02,0x10,0x11] → shortest (command text) ≤ (bodyOf text).length ∨
    (command text = 0x10 ∧ (bodyOf text).length ≤ 2)

section Lists

variable {n count : ℕ} {cid : UInt8}

theorem mem_fieldNotes {i k : ℕ} {e : Use} : e ∈ fieldNotes n i k ↔ ∃ m < k, e = .field (i+m) n := by
  simp only [fieldNotes,List.mem_map,List.mem_range,eq_comm]

theorem mem_registerNotes {e : Use} :
    e ∈ registerNotes n count ↔
      ∃ i < count, (∃ m < 9, e = .field (9*i+3+m) n) ∨ e = .register i := by
  simp only [registerNotes,List.mem_flatMap,List.mem_range,List.mem_append,mem_fieldNotes,
    List.mem_singleton]

theorem mem_dataNotes {e : Use} :
    e ∈ dataNotes n cid ↔ e = .frame 2 n ∨
      ((cid = 0x01 ∨ cid = 0x02) ∧ ∃ m < 4, e = .field (3+m) n) ∨
      (cid = 0x10 ∧ n-4 > 2 ∧ (e = .minus (n-4) 2 ∨
        ∃ i < (n-4-2)/9, (∃ m < 9, e = .field (9*i+3+m) n) ∨ e = .register i)) := by
  rw [dataNotes,List.mem_cons]
  refine or_congr_right ?_
  by_cases h₁ : cid = 0x01 ∨ cid = 0x02
  · have hne : cid ≠ 0x10 := by
      rcases h₁ with rfl | rfl
      · decide
      · decide
    rw [if_pos h₁,mem_fieldNotes]
    simp only [h₁,hne,true_and,false_and,or_false]
  · rw [if_neg h₁]
    by_cases h₂ : cid = 0x10 ∧ n-4 > 2
    · rw [if_pos h₂,List.mem_cons,mem_registerNotes]
      constructor
      · exact fun h => Or.inr ⟨h₂.1,h₂.2,h⟩
      · rintro (⟨h,_⟩ | ⟨_,_,h⟩)
        · exact absurd h h₁
        · exact h
    · rw [if_neg h₂]
      constructor
      · intro he
        cases he
      · rintro (⟨h,_⟩ | ⟨h,hn,_⟩)
        · exact absurd h h₁
        · exact absurd ⟨h,hn⟩ h₂

/-- Replies to the known commands are answered with 1, but for register replies without data. -/
theorem decodeData_value (f : Frame) :
    (Kmp.decodeData f).1 =
      if f.frame 2 ∈ [0x01,0x02,0x11] ∨ (f.frame 2 = 0x10 ∧ f.frameLength-4 > 2) then 1 else 0 := by
  rw [Kmp.decodeData]
  dsimp only
  by_cases h₁ : f.frame 2 = 0x01
  · rw [if_pos h₁,if_pos (Or.inl (by simp [h₁]))]
  rw [if_neg h₁]
  by_cases h₂ : f.frame 2 = 0x02
  · rw [if_pos h₂,if_pos (Or.inl (by simp [h₂]))]
  rw [if_neg h₂]
  by_cases h₃ : f.frame 2 = 0x10
  · rw [if_pos h₃]
    by_cases hdata : f.frameLength-4 > 2
    · rw [if_pos hdata,if_pos (Or.inr ⟨h₃,hdata⟩)]
    · rw [if_neg hdata,if_neg (by simp [h₃,hdata])]
  rw [if_neg h₃]
  by_cases h₄ : f.frame 2 = 0x11
  · rw [if_pos h₄,if_pos (Or.inl (by simp [h₄]))]
  · rw [if_neg h₄,if_neg (by simp [h₁,h₂,h₃,h₄])]

end Lists

section Decoded

variable {s : Decoder} {length : ℕ}

theorem mem_answered {c : UInt8} : c ∈ [0x01,0x02,0x10,0x11] ↔ c ∈ [0x01,0x02,0x11] ∨ c = 0x10 := by
  simp only [List.mem_cons,List.not_mem_nil,or_false]
  tauto

theorem bodyOf_length (text : List UInt8) : (bodyOf text).length = text.length-3 := by
  rw [bodyOf,List.length_take]
  omega

theorem kmpDecodeFrame_value (h : Accepted s.frame length) (hle : length ≤ kmpFrameL) :
    (kmpDecodeFrame length).value s =
      if command (textOf s.frame length) ∈ [0x01,0x02,0x11] ∨
        (command (textOf s.frame length) = 0x10 ∧ 2 < (bodyOf (textOf s.frame length)).length)
      then 1 else 0 := by
  obtain ⟨hlow,_⟩ := textOf_length h.long h.stop
  have hrun := congrArg Prod.fst (kmpDecodeFrame_run s length)
  rw [kmpDecodeFrame_accepted h hle,decodeData_value] at hrun
  have hcid : store s.frame 1 (textOf s.frame length) 2 = command (textOf s.frame length) :=
    store_getD (show 1 < (textOf s.frame length).length by omega)
  have hlen : (textOf s.frame length).length+1-4 = (bodyOf (textOf s.frame length)).length := by
    rw [bodyOf_length]
    omega
  simp only [hcid,hlen] at hrun
  exact hrun

theorem kmpDecodeFrame_value_refused (h : ¬Accepted s.frame length) (hle : length ≤ kmpFrameL) :
    (kmpDecodeFrame length).value s ≤ 0 := by
  have hrun := congrArg Prod.fst (kmpDecodeFrame_run s length)
  dsimp only at hrun
  rw [hrun]
  exact kmpDecodeFrame_refused h hle

/-- The notes that are not plain are those of the application layer of an accepted frame. -/
theorem mem_kmpDecodeFrame_notes (h : Accepted s.frame length) (hle : length ≤ kmpFrameL) {e : Use}
    (he : ¬Plain e) :
    e ∈ (kmpDecodeFrame length).notes s ↔
      e ∈ dataNotes ((bodyOf (textOf s.frame length)).length+4) (command (textOf s.frame length)) := by
  obtain ⟨hlow,_⟩ := textOf_length h.long h.stop
  obtain ⟨front,hfront,hnotes,_⟩ := kmpDecodeFrame_notes s hle
  have hlen : (textOf s.frame length).length+1 = (bodyOf (textOf s.frame length)).length+4 := by
    rw [bodyOf_length]
    omega
  rw [hnotes h,hlen,List.mem_append]
  constructor
  · rintro (hin | hin)
    · exact absurd (hfront e hin) he
    · exact hin
  · exact Or.inr

theorem mem_kmpDecodeFrame_notes_refused (h : ¬Accepted s.frame length) (hle : length ≤ kmpFrameL)
    {e : Use} (he : e ∈ (kmpDecodeFrame length).notes s) : Plain e := by
  obtain ⟨front,hfront,_,hnotes⟩ := kmpDecodeFrame_notes s hle
  rw [hnotes h] at he
  exact hfront e he

end Decoded

/-- A frame of at most `KMP_FRAME_L` bytes is decoded from what its checksum covers just when it
is not accepted or long enough for its command. -/
theorem decode_covered (s : Decoder) (length : ℕ) (hle : length ≤ kmpFrameL) :
    Covered s length ↔ (Accepted s.frame length → LongEnough (textOf s.frame length)) := by
  constructor
  · intro h hok hcid
    have hvalue := kmpDecodeFrame_value hok hle
    by_contra hshort
    obtain ⟨hlt,hdata⟩ := not_or.mp hshort
    have hle0 := h.refused (Nat.lt_of_not_le hlt)
    rw [hvalue] at hle0
    split at hle0
    · exact absurd hle0 (by decide)
    rename_i hno
    obtain ⟨hno,hnodata⟩ := not_or.mp hno
    have hten : command (textOf s.frame length) = 0x10 := (mem_answered.mp hcid).resolve_left hno
    exact hdata ⟨hten,Nat.le_of_not_lt fun hgt => hnodata ⟨hten,hgt⟩⟩
  · intro h
    by_cases hok : Accepted s.frame length
    · have hvalue := kmpDecodeFrame_value hok hle
      have hlong := h hok
      constructor
      · intro hpos i present hin
        rw [mem_kmpDecodeFrame_notes hok hle (by exact not_false),mem_dataNotes] at hin
        rcases hin with hin | ⟨hcid,m,hm,hin⟩ | ⟨hcid,hdata,hin | ⟨k,hk,⟨m,hm,hin⟩ | hin⟩⟩
        · cases hin
        · injection hin with hi hp
          have hfour : 6 ≤ (bodyOf (textOf s.frame length)).length := by
            rcases hlong (by rcases hcid with h | h <;> simp [h]) with hlong | ⟨hten,_⟩
            · rwa [shortest,if_pos hcid] at hlong
            · rw [hten] at hcid
              exact absurd hcid (by decide)
          omega
        · cases hin
        · injection hin with hi hp
          omega
        · cases hin
      · intro hshort
        rw [hvalue]
        split
        · rename_i hyes
          exfalso
          rcases hyes with hcid | ⟨hten,hdata⟩
          · rcases hlong (mem_answered.mpr (Or.inl hcid)) with hlong | ⟨hten,_⟩
            · omega
            · rw [hten] at hcid
              exact absurd hcid (by decide)
          · rcases hlong (mem_answered.mpr (Or.inr hten)) with hlong | ⟨_,hnone⟩
            · omega
            · omega
        · exact Int.le_refl 0
    · have hle0 := kmpDecodeFrame_value_refused hok hle
      exact ⟨fun hpos => absurd hpos (Int.not_lt.mpr hle0),fun _ => hle0⟩

namespace Sample

def received (bytes : List UInt8) : Decoder := ⟨store (fun _ => 0) 0 bytes,fun _ => 0,Response.zero⟩

/-- The request for the serial number, as it comes back from an echo. -/
def echo : List UInt8 := wire 0x80 (checked [0x3f,0x02])

def serial : List UInt8 := wire 0x40 (checked [0x3f,0x02,0x00,0x12,0x34,0x56])

def nine : List UInt8 :=
  wire 0x40 (checked (replyBody (List.replicate 9 ⟨0x3c,3,0x42,1234⟩)))

end Sample

theorem bodyOf_checked (body : List UInt8) : bodyOf (checked body ++ [0x0d]) = body := by
  rw [bodyOf,checked,List.append_assoc,List.take_append_of_le_length (by simp),
    List.take_of_length_le (by simp)]

theorem crcOf_checked (body : List UInt8) :
    crcOf (checked body ++ [0x0d]) = (ccitCrc16 0 body).toNat := by
  obtain ⟨hi,lo,hcrc⟩ : ∃ hi lo, crcBytes (ccitCrc16 0 body) = [hi,lo] := ⟨_,_,rfl⟩
  have hlen : (body ++ ([hi,lo] ++ [0x0d])).length = body.length+3 := by simp
  have hget : ∀ k, (body ++ ([hi,lo] ++ [0x0d])).getD (body.length+k) 0 =
      ([hi,lo] ++ [0x0d]).getD k 0 := by
    intro k
    rw [List.getD_append_right _ _ _ _ (Nat.le_add_right _ _),Nat.add_sub_cancel_left]
  rw [← crcBytes_value _ hi lo hcrc,crcOf,checked,hcrc,List.append_assoc,hlen,
    show body.length+3-3 = body.length+0 by omega,show body.length+3-2 = body.length+1 by omega,
    hget,hget]
  rfl

theorem wire_accepted {frame : Buf} {first : UInt8} {body : List UInt8} (hbody : 2 ≤ body.length)
    (h : load frame 0 (wire first (checked body)).length = wire first (checked body)) :
    textOf frame (wire first (checked body)).length = checked body ++ [0x0d] ∧
      Accepted frame (wire first (checked body)).length := by
  have hlen : (wire first (checked body)).length = (kmpCode.stuff (checked body)).length+2 := by
    simp [wire]
  have hge := kmpCode.length_le_stuff (checked body)
  have hchecked : (checked body).length = body.length+2 := by
    rw [checked,List.length_append,crcBytes_length]
  obtain ⟨_,hrest,_⟩ := load_cons h
  have hstop : frame ((wire first (checked body)).length-1) = 0x0d := by
    have hlast := (load_append (show load frame 1 ((wire first (checked body)).length-1) =
      kmpCode.stuff (checked body) ++ [0x0d] from hrest)).2
    obtain ⟨hb,_⟩ := load_cons hlast
    rw [hlen]
    rwa [Nat.add_comm] at hb
  have htext : textOf frame (wire first (checked body)).length = checked body ++ [0x0d] := by
    have hend : kmpCode.unstuff [0x0d] = [0x0d] := by decide
    rw [textOf,show load frame 1 ((wire first (checked body)).length-1) =
      kmpCode.stuff (checked body) ++ [0x0d] from hrest,kmpCode.unstuff_append,hend]
  refine ⟨htext,⟨by omega,hstop,?_⟩⟩
  rw [htext,crcOf_checked,bodyOf_checked]

theorem command_checked {body : List UInt8} (h : 2 ≤ body.length) :
    command (checked body ++ [0x0d]) = body.getD 1 0 := by
  rw [command,checked,List.append_assoc,List.getD_append _ _ _ _ h]

theorem wire_length_le {first : UInt8} {body : List UInt8} (h : body.length ≤ 500) :
    (wire first (checked body)).length ≤ kmpFrameL := by
  have hstuff := kmpCode.stuff_length_le (checked body)
  rw [checked,List.length_append,crcBytes_length] at hstuff
  rw [wire,List.length_cons,List.length_append,List.length_singleton,kmpFrameL,checked]
  omega

theorem received_wire (first : UInt8) {body : List UInt8} (h : 2 ≤ body.length) :
    textOf (Sample.received (wire first (checked body))).frame (wire first (checked body)).length =
        checked body ++ [0x0d] ∧
      Accepted (Sample.received (wire first (checked body))).frame
        (wire first (checked body)).length :=
  wire_accepted h (load_store _ _ _)

open Sample in
/-- A serial reply with its four bytes of data is long enough. -/
theorem decode_covered_serial : Covered (received serial) serial.length := by
  refine (decode_covered (received serial) serial.length (wire_length_le (by decide))).mpr
    fun _ _ => Or.inl ?_
  obtain ⟨htext,_⟩ := received_wire 0x40
    (show 2 ≤ [0x3f,0x02,0x00,0x12,0x34,0x56].length by decide)
  rw [serial,htext,bodyOf_checked,command_checked (by decide)]
  decide

open Sample in
/-- The six bytes of the request are accepted as a reply: serial number 0x35e90d00, of the
checksum, the stop byte and the byte behind the frame. -/
theorem echo_uncovered : ¬∀ (s : Decoder) (length : ℕ), length ≤ kmpFrameL → Covered s length := by
  intro h
  have hfits : echo.length ≤ kmpFrameL := wire_length_le (by decide)
  obtain ⟨htext,hok⟩ : textOf (received echo).frame echo.length = checked [0x3f,0x02] ++ [0x0d] ∧
      Accepted (received echo).frame echo.length := received_wire 0x80 (by decide)
  have hle := (h (received echo) echo.length hfits).refused (by
    rw [htext,bodyOf_checked,command_checked (by decide)]
    decide)
  have hone : (kmpDecodeFrame echo.length).value (received echo) = 1 := by
    rw [kmpDecodeFrame_value hok hfits,htext,command_checked (by decide)]
    rfl
  rw [hone] at hle
  exact absurd hle (by decide)

/-- Every index that a decoding uses lies in its array and in the data that is there, and no
length is negative. -/
def Inside (s : Decoder) (length : ℕ) : Prop :=
  ∀ e ∈ (kmpDecodeFrame length).notes s, InArrays e

/-- A frame of at most `KMP_FRAME_L` bytes is decoded inside the arrays just when it is not
accepted, or its type or serial reply has one byte of data at least, and its register reply no
more data than eight registers. -/
theorem decode_inside (s : Decoder) (length : ℕ) (hle : length ≤ kmpFrameL) :
    Inside s length ↔ (Accepted s.frame length →
      (command (textOf s.frame length) ∈ [0x01,0x02] → 3 ≤ (bodyOf (textOf s.frame length)).length) ∧
        (command (textOf s.frame length) = 0x10 →
          (bodyOf (textOf s.frame length)).length < 2+9*9)) := by
  constructor
  · intro h hok
    have hdata : ∀ e, ¬Plain e → e ∈ dataNotes ((bodyOf (textOf s.frame length)).length+4)
        (command (textOf s.frame length)) → InArrays e := fun e he hin =>
      h e ((mem_kmpDecodeFrame_notes hok hle he).mpr hin)
    constructor
    · intro hcid
      simp only [List.mem_cons,List.not_mem_nil,or_false] at hcid
      have hlast : InArrays (.field (3+3) ((bodyOf (textOf s.frame length)).length+4)) :=
        hdata _ (by exact not_false) (mem_dataNotes.mpr (Or.inr (Or.inl ⟨hcid,3,by decide,rfl⟩)))
      have hlt := hlast.2
      omega
    · intro hten
      by_contra hmany
      have hninth : InArrays (.register 8) :=
        hdata _ (by exact not_false) (mem_dataNotes.mpr (Or.inr (Or.inr ⟨hten,by omega,
          Or.inr ⟨8,by omega,Or.inr rfl⟩⟩)))
      exact absurd hninth (by decide : ¬8 < 8)
  · intro h e he
    by_cases hplain : Plain e
    · exact hplain.inArrays
    by_cases hok : Accepted s.frame length
    · obtain ⟨hfour,hten⟩ := h hok
      obtain ⟨hlow,hhigh⟩ := textOf_length hok.long hok.stop
      have hlen := bodyOf_length (textOf s.frame length)
      have hbound : (bodyOf (textOf s.frame length)).length+4 ≤ kmpFrameL := by omega
      rw [mem_kmpDecodeFrame_notes hok hle hplain,mem_dataNotes] at he
      rcases he with rfl | ⟨hcid,m,hm,rfl⟩ | ⟨hcid,hdata,rfl | ⟨k,hk,⟨m,hm,rfl⟩ | rfl⟩⟩
      · show 2 < kmpFrameL ∧ 2 < _
        omega
      · have hbody := hfour (by rcases hcid with h | h <;> simp [h])
        show 3+m < kmpFrameL ∧ 3+m < _
        omega
      · show 2 ≤ _
        omega
      · show 9*k+3+m < kmpFrameL ∧ 9*k+3+m < _
        omega
      · have hbody := hten hcid
        show k < 8
        omega
    · exact absurd (mem_kmpDecodeFrame_notes_refused hok hle he) hplain

open Sample in
theorem decode_inside_serial : Inside (received serial) serial.length := by
  refine (decode_inside (received serial) serial.length (wire_length_le (by decide))).mpr
    fun _ => ?_
  obtain ⟨htext,_⟩ := received_wire 0x40
    (show 2 ≤ [0x3f,0x02,0x00,0x12,0x34,0x56].length by decide)
  rw [serial,htext,bodyOf_checked,command_checked (by decide)]
  exact ⟨fun _ => by decide,fun hten => absurd hten (by decide)⟩

open Sample in
/-- The ninth register is written behind the list. -/
theorem nine_outside : ¬∀ (s : Decoder) (length : ℕ), length ≤ kmpFrameL → Inside s length := by
  intro h
  have hbody := replyBody_length (List.replicate 9 ⟨0x3c,3,0x42,1234⟩)
  rw [List.length_replicate] at hbody
  have hle : nine.length ≤ kmpFrameL := wire_length_le (by omega)
  obtain ⟨htext,hok⟩ : textOf (received nine).frame nine.length =
        checked (replyBody (List.replicate 9 ⟨0x3c,3,0x42,1234⟩)) ++ [0x0d] ∧
      Accepted (received nine).frame nine.length := received_wire 0x40 (by omega)
  have hwritten : .register 8 ∈ (kmpDecodeFrame nine.length).notes (received nine) := by
    rw [mem_kmpDecodeFrame_notes hok hle (by exact not_false),mem_dataNotes,htext,
      bodyOf_checked,command_checked (by omega)]
    exact Or.inr (Or.inr ⟨rfl,by omega,Or.inr ⟨8,by omega,Or.inr rfl⟩⟩)
  have hlt : (8 : ℕ) < 8 := h (received nine) nine.length hle _ hwritten
  exact absurd hlt (by decide)

end KmpAccess
end MeterLogger
