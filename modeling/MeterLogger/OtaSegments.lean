import MeterLogger.OtaStaging

/-!
# Segments

A response is taken in whatever way it is cut into packets. The machine that has received it in
one packet and the one that has received it in many differ in what is left in the header buffer
and in how the writes were grouped, or both have given up.
-/

namespace MeterLogger
namespace Ota

open CStrings FlashWriter OtaHeader Runs

variable {P : Platform}

def flashOk : FlashIo := ⟨true,fun _ => true,true,fun _ => 0xFF⟩

/-- Writes are not told apart by how many bytes each takes. -/
def kept : Action → Bool
  | .writeSectors _ => false
  | _ => true

/-- The machine without what depends on the packets: when the header has been parsed its buffer
is not read any more. -/
def core (s : State P) : State P :=
  { s with
    headerBuffer := if s.headersParsed then [] else s.headerBuffer
    timeoutTimer := false
    log := s.log.filter kept }

/-- What a connection leads to; a download that has been given up has cleared both flags, one
that has been staged is complete. -/
def outcome (s : State P) : Option (State P) :=
  if s.inProgress || s.isValidBinary then some (core s) else none

section Core

variable {s t : State P}

theorem outcome_congr (h : core s = core t) : outcome s = outcome t := by
  have hin : s.inProgress = t.inProgress := by
    show (core s).inProgress = (core t).inProgress
    rw [h]
  have hvalid : s.isValidBinary = t.isValidBinary := by
    show (core s).isValidBinary = (core t).isValidBinary
    rw [h]
  rw [outcome,outcome,hin,hvalid,h]

theorem outcome_some (h : s.inProgress = true) : outcome s = some (core s) := by
  rw [outcome,h]
  rfl

theorem outcome_none (h : outcome s = none) : ¬Listening s := by
  intro hl
  rw [outcome_some hl.inProgress] at h
  cases h

theorem outcome_core (h : outcome s = some (core t)) : core s = core t := by
  rw [outcome] at h
  split at h
  · exact Option.some.inj h
  · cases h

theorem core_core (s : State P) : core (core s) = core s := by
  rw [core,core,List.filter_filter]
  cases s.headersParsed <;> simp only [Bool.and_self,Bool.false_eq_true,if_true,if_false]

theorem core_post (s : State P) {a : Action} (ha : kept a = true) :
    core (s.post a) = (core s).post a := by
  rw [core,State.post,List.filter_append,List.filter_cons_of_pos ha]
  rfl

theorem core_write (s : State P) (sectors : List ℕ) :
    core (s.post (.writeSectors sectors)) = core s := by
  rw [core,State.post,List.filter_append]
  simp only [List.filter_cons,kept,List.filter_nil,List.append_nil,Bool.false_eq_true,if_false]
  rfl

theorem outcome_fail (s : State P) (status : String) (b : Bool) :
    outcome (otaFailUpdate s status b) = none := by
  cases b <;> rfl

end Core

section Body

variable {s t : State P} {a b data : List UInt8}

/-- The bytes fit in the response and in the image. -/
def Fits (s : State P) (n : ℕ) : Prop :=
  s.responseLengthKnown = true ∧ s.responseReceivedBytes+n ≤ s.responseLength ∧
    s.firmwareSizeKnown = true ∧ s.receivedBytes+n ≤ s.firmwareSize ∧
    s.receivedBytes+n ≤ maxFirmwareSize

instance (s : State P) (n : ℕ) : Decidable (Fits s n) := by
  unfold Fits
  infer_instance

def written (P : Platform) (s : State P) (data : List UInt8) : State P :=
  { s with
    shaCtx := if s.hasSha256 then s.shaCtx ++ data else s.shaCtx
    flash := P.writer.program s.status data s.flash
    status := P.writer.advance s.status data
    receivedBytes := s.receivedBytes+data.length
    responseReceivedBytes := s.responseReceivedBytes+data.length }

def begun (P : Platform) (s : State P) : State P :=
  { initWriter P (eraseFirst P s) with
    shaCtx := (otaRehashFlash flashOk (initWriter P (eraseFirst P s))).getD s.shaCtx }

def writing (P : Platform) (s : State P) (magicByte : UInt8) : Option (State P) :=
  if s.isValidBinary then some s
  else if s.receivedBytes = 0 ∧ magicByte ≠ 0xE9 ∧ magicByte ≠ 0xEA then none
  else some (begun P s)

/-- The machine after body bytes, if it does not give up. -/
def accept (P : Platform) (s : State P) (data : List UInt8) : Option (State P) :=
  if data = [] then some s
  else if Fits s data.length then (writing P s (data.headD 0)).map fun t => written P t data
  else none

theorem written_append (s : State P) (a b : List UInt8) :
    written P (written P s a) b = written P s (a ++ b) := by
  have hsha : ∀ u : State P, (written P u a).hasSha256 = u.hasSha256 := fun _ => rfl
  rw [written,hsha]
  simp only [written,P.writer.program_append,P.writer.advance_append,List.length_append,
    Nat.add_assoc]
  split <;> simp

theorem rehashLoop_isSome (f : Flash) (fuel addr endAddr : ℕ) (ctx : List UInt8) :
    (rehashLoop flashOk f fuel addr endAddr ctx).isSome = true := by
  induction fuel generalizing addr ctx with
  | zero => rfl
  | succ fuel ih =>
    rw [rehashLoop]
    split
    · exact ih _ _
    · rfl

theorem startWriter_eq (s : State P) (magicByte : UInt8)
    (h : ¬(s.receivedBytes = 0 ∧ magicByte ≠ 0xE9 ∧ magicByte ≠ 0xEA)) :
    startWriter P flashOk s magicByte = (begun P s,none) := by
  have hsome : (otaRehashFlash flashOk (initWriter P (eraseFirst P s))).isSome = true := by
    rw [otaRehashFlash]
    split
    · exact rehashLoop_isSome _ _ _ _ _
    · rfl
  obtain ⟨ctx,hctx⟩ := Option.isSome_iff_exists.mp hsome
  have herase : flashOk.eraseOk = true := rfl
  rw [startWriter,if_neg h,begun,herase]
  dsimp only
  rw [if_neg (show ¬(!true) = true from Bool.false_ne_true),hctx]
  rfl

theorem core_writeBody (s : State P) (data : List UInt8) :
    core (writeBody P flashOk s data) = core (written P s data) := by
  have hwrite : flashOk.writeOk = true := rfl
  rw [writeBody,hwrite,if_neg (show ¬(!true) = true from Bool.false_ne_true)]
  cases hsha : s.hasSha256 with
  | true => simp [core,written,State.post,hsha,kept]
  | false => simp [core,written,State.post,hsha,kept]

theorem receiveBody_outcome (hin : s.inProgress = true) (data : List UInt8) :
    outcome (receiveBody P flashOk s data) = (accept P s data).map core := by
  have hgo : ∀ t : State P, t.inProgress = true →
      outcome (writeBody P flashOk t data) = some (core (written P t data)) := by
    intro t ht
    rw [outcome_congr (core_writeBody t data)]
    exact outcome_some ht
  rw [receiveBody,accept]
  split
  · rw [outcome_some hin]
    rfl
  · by_cases hfits : Fits s data.length
    · obtain ⟨hknown,hlen,hsize,hbytes,hmax⟩ := id hfits
      rw [if_pos hfits,if_neg,if_neg,writing]
      · split
        · exact hgo s hin
        · by_cases hmagic : s.receivedBytes = 0 ∧ data.headD 0 ≠ 0xE9 ∧ data.headD 0 ≠ 0xEA
          · rw [if_pos hmagic,startWriter,if_pos hmagic]
            exact outcome_fail _ _ _
          · rw [if_neg hmagic,startWriter_eq s _ hmagic]
            exact hgo (begun P s) hin
      · rw [hsize]
        simp only [Bool.not_true,Bool.false_eq_true,false_or]
        omega
      · rw [hknown]
        simp only [Bool.not_true,Bool.false_eq_true,false_or]
        omega
    · rw [if_neg hfits]
      split
      · exact outcome_fail _ _ _
      · rename_i hresponse
        rw [if_pos]
        · exact outcome_fail _ _ _
        · by_contra hno
          apply hfits
          simp only [Bool.not_eq_true',not_or,Bool.not_eq_false] at hno hresponse
          refine ⟨hresponse.1,?_,hno.1,?_,?_⟩ <;> omega

theorem writing_spec {magicByte : UInt8} (h : writing P s magicByte = some t) :
    t.isValidBinary = true ∧ ∀ n, Fits t n ↔ Fits s n := by
  rw [writing] at h
  split at h
  · rename_i hvalid
    obtain rfl := Option.some.inj h
    exact ⟨hvalid,fun _ => Iff.rfl⟩
  · split at h
    · cases h
    · obtain rfl := Option.some.inj h
      exact ⟨rfl,fun _ => Iff.rfl⟩

theorem written_fits (s : State P) (data : List UInt8) (n : ℕ) :
    Fits (written P s data) n ↔ Fits s (data.length+n) := by
  simp only [Fits,written,Nat.add_assoc]

theorem Fits.of_le {n m : ℕ} (h : Fits s m) (hle : n ≤ m) : Fits s n := by
  obtain ⟨hknown,hlen,hsize,hbytes,hmax⟩ := h
  exact ⟨hknown,by omega,hsize,by omega,by omega⟩

theorem accept_cons (hne : data ≠ []) :
    accept P s data = if Fits s data.length then
      (writing P s (data.headD 0)).map fun t => written P t data else none := by
  rw [accept,if_neg hne]

theorem accept_append (s : State P) (a b : List UInt8) :
    accept P s (a ++ b) = (accept P s a).bind fun t => accept P t b := by
  have hnil : ∀ t : State P, accept P t [] = some t := fun t => by rw [accept,if_pos rfl]
  by_cases ha : a = []
  · rw [ha,List.nil_append,hnil,Option.bind_some]
  · by_cases hb : b = []
    · rw [hb,List.append_nil]
      cases hacc : accept P s a with
      | none => rfl
      | some t => rw [Option.bind_some,hnil]
    · have hne : a ++ b ≠ [] := List.append_ne_nil_of_left_ne_nil ha b
      have hhead : (a ++ b).headD 0 = a.headD 0 := by
        cases a with
        | nil => exact absurd rfl ha
        | cons x xs => rfl
      rw [accept_cons ha,accept_cons hne,hhead,List.length_append]
      by_cases hfits : Fits s a.length
      · rw [if_pos hfits]
        cases hwriting : writing P s (a.headD 0) with
        | none => simp
        | some t =>
          obtain ⟨hvalid,hsame⟩ := writing_spec hwriting
          have hnext : writing P (written P t a) (b.headD 0) = some (written P t a) := by
            rw [writing,if_pos (show (written P t a).isValidBinary = true from hvalid)]
          have hiff : Fits (written P t a) b.length ↔ Fits s (a.length+b.length) := by
            rw [written_fits,hsame]
          rw [Option.map_some,Option.map_some,Option.bind_some,accept_cons hb,hnext,Option.map_some,
            written_append]
          simp only [hiff]
      · rw [if_neg hfits,if_neg fun h => hfits (h.of_le (Nat.le_add_right _ _))]
        rfl

theorem begun_core (s : State P) : begun P (core s) = core (begun P s) := by
  have herase : eraseFirst P (core s) = core (eraseFirst P s) :=
    (core_post { s with isValidBinary := true, targetBaseAddr := P.roms s.targetRom } rfl).symm
  rw [begun,herase]
  rfl

theorem accept_core (s : State P) (data : List UInt8) :
    accept P (core s) data = (accept P s data).map core := by
  have hwriting : writing P (core s) (data.headD 0) = (writing P s (data.headD 0)).map core := by
    rw [writing,writing]
    show (if s.isValidBinary then some (core s)
      else if s.receivedBytes = 0 ∧ data.headD 0 ≠ 0xE9 ∧ data.headD 0 ≠ 0xEA then none
      else some (begun P (core s))) = _
    rw [begun_core]
    split
    · rfl
    · split <;> rfl
  have hfits : Fits (core s) data.length ↔ Fits s data.length := Iff.rfl
  rw [accept,accept]
  split
  · rfl
  · simp only [hfits]
    split
    · rw [hwriting,Option.map_map,Option.map_map]
      rfl
    · rfl

theorem accept_kept (h : accept P s data = some t) :
    t.headersParsed = s.headersParsed ∧ (Listening s → Listening t) := by
  rw [accept] at h
  split at h
  · obtain rfl := Option.some.inj h
    exact ⟨rfl,id⟩
  · split at h
    · rw [Option.map_eq_some_iff] at h
      obtain ⟨u,hu,rfl⟩ := h
      rw [writing] at hu
      split at hu
      · obtain rfl := Option.some.inj hu
        exact ⟨rfl,fun hl => ⟨hl.inProgress,hl.retryPending⟩⟩
      · split at hu
        · cases hu
        · obtain rfl := Option.some.inj hu
          exact ⟨rfl,fun hl => ⟨hl.inProgress,hl.retryPending⟩⟩
    · cases h

end Body

section Header

variable {s t : State P} {data : List UInt8}

/-- The machine without the header buffer. -/
def bare (s : State P) : State P :=
  { s with headerBuffer := [], timeoutTimer := false, log := s.log.filter kept }

theorem bare_core (s : State P) : bare (core s) = bare s := by
  rw [bare,core,List.filter_filter]
  simp only [Bool.and_self]
  rfl

theorem core_eq_bare (h : s.headersParsed = true) : core s = bare s := by
  rw [core,if_pos h]
  rfl

theorem acceptWhole_bare (s : State P) (length : ℕ) :
    acceptWhole (bare s) length = (bare (acceptWhole s length).1,(acceptWhole s length).2) := by
  rw [acceptWhole,acceptWhole]
  split <;> rfl

theorem acceptRange_bare (s : State P) (length start stop total : ℕ) :
    acceptRange (bare s) length start stop total =
      (bare (acceptRange s length start stop total).1,(acceptRange s length start stop total).2) := by
  have hfields : (bare s).requestOffset = s.requestOffset ∧
      (bare s).firmwareSizeKnown = s.firmwareSizeKnown ∧ (bare s).firmwareSize = s.firmwareSize :=
    ⟨rfl,rfl,rfl⟩
  rw [acceptRange,acceptRange,hfields.1,hfields.2.1,hfields.2.2]
  split
  · rfl
  · split
    · rfl
    · split
      · rfl
      · split <;> rfl

theorem acceptResponse_bare (s : State P) (headers : List UInt8) (code length : ℕ) :
    acceptResponse (bare s) headers code length =
      (bare (acceptResponse s headers code length).1,(acceptResponse s headers code length).2) := by
  rw [acceptResponse,acceptResponse]
  split
  · exact acceptWhole_bare (answered s code) length
  · split
    · rfl
    · exact acceptRange_bare (answered s code) _ _ _ _

theorem acceptHeader_bare (s : State P) (headers : List UInt8) :
    acceptHeader (bare s) headers = (bare (acceptHeader s headers).1,(acceptHeader s headers).2) := by
  rw [acceptHeader,acceptHeader]
  cases otaParseStatusCode headers with
  | none => rfl
  | some code =>
    dsimp only
    split
    · rfl
    · cases contentLength headers with
      | none => rfl
      | some length =>
        dsimp only
        rw [acceptResponse_bare]
        rcases acceptResponse s headers code length with ⟨t,_ | error⟩ <;> rfl

theorem acceptHeader_kept {headers : List UInt8} (h : acceptHeader s headers = (t,none)) :
    t.headersParsed = true ∧ (Listening s → Listening t) := by
  obtain ⟨_,hspec⟩ := acceptHeader_spec s headers
  rw [h] at hspec
  obtain ⟨hparsed,ho,_⟩ := hspec rfl
  exact ⟨hparsed,fun hl => ⟨ho.inProgress.trans hl.inProgress,ho.retryPending.trans hl.retryPending⟩⟩

/-- The machine after a packet, if it does not give up: as far as the header goes it is one with
what has been received before. -/
def receive (P : Platform) (s : State P) (data : List UInt8) : Option (State P) :=
  if s.headersParsed then accept P s data
  else
    match totalHeaderSize ((s.headerBuffer ++ data).take (otaMaxHeaderSize-1)) with
    | none =>
      if otaMaxHeaderSize-1 ≤ (s.headerBuffer ++ data).length then none
      else some { s with headerBuffer := s.headerBuffer ++ data }
    | some n =>
      match acceptHeader s ((s.headerBuffer ++ data).take n) with
      | (t,none) => accept P t ((s.headerBuffer ++ data).drop n)
      | (_,some _) => none

/-- A header that has not been parsed has not ended. -/
def Midway (s : State P) : Prop :=
  s.headersParsed = false →
    s.headerBuffer.length < otaMaxHeaderSize-1 ∧ totalHeaderSize s.headerBuffer = none

/-- What follows an accepted header is the same in two machines that differ in the buffer. -/
theorem acceptHeader_outcome {u : State P} (h : bare s = bare u) (headers body : List UInt8) :
    (match acceptHeader s headers with
      | (t,none) => accept P t body
      | (_,some _) => none).map core =
    (match acceptHeader u headers with
      | (t,none) => accept P t body
      | (_,some _) => none).map core := by
  have hs := acceptHeader_bare s headers
  have hu := acceptHeader_bare u headers
  rw [h] at hs
  obtain ⟨hbare,hcheck⟩ := Prod.mk.inj (hs.symm.trans hu)
  rcases ht : acceptHeader s headers with ⟨t,e⟩
  rcases ht' : acceptHeader u headers with ⟨t',e'⟩
  rw [ht,ht'] at hbare hcheck
  dsimp only at hbare hcheck
  subst hcheck
  cases e with
  | none =>
    have hparsed := (acceptHeader_kept ht).1
    have hparsed' := (acceptHeader_kept ht').1
    dsimp only
    rw [← accept_core,← accept_core,core_eq_bare hparsed,core_eq_bare hparsed',hbare]
  | some error => rfl

theorem core_collect (s : State P) (buffer : List UInt8) :
    core { core s with headerBuffer := buffer } = core { s with headerBuffer := buffer } := by
  rw [core,core,core,List.filter_filter]
  simp only [Bool.and_self]

theorem receive_core (s : State P) (data : List UInt8) :
    (receive P (core s) data).map core = (receive P s data).map core := by
  rw [receive,receive]
  by_cases hparsed : s.headersParsed = true
  · rw [if_pos (show (core s).headersParsed = true from hparsed),if_pos hparsed,accept_core,
      Option.map_map]
    congr 1
    funext t
    exact core_core t
  · have hbuffer : (core s).headerBuffer = s.headerBuffer := if_neg hparsed
    rw [if_neg (show ¬(core s).headersParsed = true from hparsed),if_neg hparsed,hbuffer]
    cases totalHeaderSize ((s.headerBuffer ++ data).take (otaMaxHeaderSize-1)) with
    | none =>
      dsimp only
      split
      · rfl
      · exact congrArg some (core_collect s (s.headerBuffer ++ data))
    | some n => exact acceptHeader_outcome (bare_core s) _ _

theorem receive_congr {u : State P} (h : core s = core u) (data : List UInt8) :
    (receive P s data).map core = (receive P u data).map core := by
  rw [← receive_core,h,receive_core]

theorem endHeader_outcome {n : ℕ} (hl : Listening s)
    (hshort : s.headerBuffer.length < otaMaxHeaderSize-1)
    (hm : totalHeaderSize s.headerBuffer = none)
    (hn : totalHeaderSize ((s.headerBuffer ++ data).take (otaMaxHeaderSize-1)) = some n) :
    outcome (match endHeader { s with
        headerBuffer := (s.headerBuffer ++ data).take (otaMaxHeaderSize-1) } data
          s.headerBuffer.length n with
      | (s,none) => s
      | (s,some body) => receiveBody P flashOk s body) =
    (match acceptHeader s ((s.headerBuffer ++ data).take n) with
      | (t,none) => accept P t ((s.headerBuffer ++ data).drop n)
      | (_,some _) => none).map core := by
  have hle := (totalHeaderSize_spec hn).1
  rw [List.length_take,List.length_append] at hle
  have htake : ((s.headerBuffer ++ data).take (otaMaxHeaderSize-1)).take n =
      (s.headerBuffer ++ data).take n := by
    rw [List.take_take,Nat.min_eq_left (by omega)]
  have hlate : ¬n < s.headerBuffer.length := by
    intro hlt
    rw [List.take_append,List.take_of_length_le (l := s.headerBuffer) (by omega)] at hn
    exact absurd (hm.symm.trans (totalHeaderSize_of_append hn hlt.le)) (by simp)
  have hdrop : data.drop (n-s.headerBuffer.length) = (s.headerBuffer ++ data).drop n := by
    rw [List.drop_append,List.drop_of_length_le (l := s.headerBuffer) (by omega),List.nil_append]
  have hbare : bare { s with headerBuffer := (s.headerBuffer ++ data).take (otaMaxHeaderSize-1) } =
      bare s := rfl
  rw [← acceptHeader_outcome hbare,endHeader,acceptHeader_take hn,htake]
  rcases ht : acceptHeader { s with
      headerBuffer := (s.headerBuffer ++ data).take (otaMaxHeaderSize-1) }
        ((s.headerBuffer ++ data).take n) with ⟨t,_ | error⟩
  · have hin := ((acceptHeader_kept ht).2 ⟨hl.inProgress,hl.retryPending⟩).inProgress
    dsimp only
    rw [if_neg hlate,if_neg (by omega),hdrop]
    exact receiveBody_outcome hin _
  · exact outcome_fail _ _ _

theorem packet_outcome (hl : Listening s) (hm : Midway s) (data : List UInt8) :
    outcome (match receiveHeader s data with
      | (s,none) => s
      | (s,some body) => receiveBody P flashOk s body) = (receive P s data).map core := by
  rw [receiveHeader,receive]
  by_cases hparsed : s.headersParsed = true
  · rw [if_pos hparsed,if_pos hparsed]
    exact receiveBody_outcome hl.inProgress data
  · obtain ⟨hshort,hunended⟩ := hm (Bool.eq_false_iff.mpr hparsed)
    rw [if_neg hparsed,if_neg hparsed,collectHeader_eq hshort]
    dsimp only
    cases hn : totalHeaderSize ((s.headerBuffer ++ data).take (otaMaxHeaderSize-1)) with
    | none =>
      have hfull : otaMaxHeaderSize-1 ≤ ((s.headerBuffer ++ data).take (otaMaxHeaderSize-1)).length ↔
          otaMaxHeaderSize-1 ≤ (s.headerBuffer ++ data).length := by
        rw [List.length_take]
        omega
      dsimp only
      by_cases hroom : otaMaxHeaderSize-1 ≤ (s.headerBuffer ++ data).length
      · rw [if_pos hroom,if_pos (hfull.mpr hroom)]
        exact outcome_fail _ _ _
      · rw [if_neg hroom,if_neg fun hno => hroom (hfull.mp hno),List.take_of_length_le (by omega)]
        exact outcome_some hl.inProgress
    | some n => exact endHeader_outcome hl hshort hunended hn

theorem receive_append (s : State P) (a b : List UInt8) :
    ((receive P s a).bind fun t => receive P t b).map core = (receive P s (a ++ b)).map core := by
  have hbody : ∀ (u : State P) (x : List UInt8), u.headersParsed = true →
      (accept P u x).bind (fun t => receive P t b) = accept P u (x ++ b) := by
    intro u x hu
    rw [accept_append]
    cases hx : accept P u x with
    | none => rfl
    | some t =>
      have ht : t.headersParsed = true := (accept_kept hx).1.trans hu
      rw [Option.bind_some,Option.bind_some,receive,if_pos ht]
  rw [receive,receive]
  by_cases hparsed : s.headersParsed = true
  · rw [if_pos hparsed,if_pos hparsed,hbody s a hparsed]
  · rw [if_neg hparsed,if_neg hparsed]
    cases hn : totalHeaderSize ((s.headerBuffer ++ a).take (otaMaxHeaderSize-1)) with
    | none =>
      dsimp only
      by_cases hroom : otaMaxHeaderSize-1 ≤ (s.headerBuffer ++ a).length
      · have hroom' : otaMaxHeaderSize-1 ≤ (s.headerBuffer ++ (a ++ b)).length := by
          rw [← List.append_assoc,List.length_append]
          omega
        rw [if_pos hroom,← List.append_assoc,List.take_append_of_le_length hroom,hn]
        dsimp only
        rw [if_pos (by rwa [List.append_assoc])]
        rfl
      · rw [if_neg hroom,Option.bind_some,receive,if_neg hparsed]
        dsimp only
        rw [List.append_assoc]
        cases totalHeaderSize ((s.headerBuffer ++ (a ++ b)).take (otaMaxHeaderSize-1)) with
        | none => rfl
        | some n =>
          have hbare : bare { s with headerBuffer := s.headerBuffer ++ a } = bare s := rfl
          exact acceptHeader_outcome hbare _ _
    | some n =>
      have hle := (totalHeaderSize_spec hn).1
      rw [List.length_take] at hle
      have hmore : totalHeaderSize ((s.headerBuffer ++ (a ++ b)).take (otaMaxHeaderSize-1)) =
          some n := by
        rw [← List.append_assoc,List.take_append]
        exact totalHeaderSize_append hn _
      have htake : (s.headerBuffer ++ (a ++ b)).take n = (s.headerBuffer ++ a).take n := by
        rw [← List.append_assoc,List.take_append_of_le_length (by omega)]
      have hdrop : (s.headerBuffer ++ (a ++ b)).drop n = (s.headerBuffer ++ a).drop n ++ b := by
        rw [← List.append_assoc,List.drop_append_of_le_length (by omega)]
      rw [hmore]
      dsimp only
      rw [htake,hdrop]
      rcases ht : acceptHeader s ((s.headerBuffer ++ a).take n) with ⟨t,_ | error⟩
      · exact congrArg (Option.map core) (hbody t _ (acceptHeader_kept ht).1)
      · rfl

theorem receive_nil (hm : Midway s) : receive P s [] = some s := by
  rw [receive]
  by_cases hparsed : s.headersParsed = true
  · rw [if_pos hparsed,accept,if_pos rfl]
  · obtain ⟨hshort,hunended⟩ := hm (Bool.eq_false_iff.mpr hparsed)
    rw [if_neg hparsed,List.append_nil,List.take_of_length_le (by omega),hunended]
    dsimp only
    rw [if_neg (by omega)]

theorem receive_kept (hl : Listening s) (h : receive P s data = some t) :
    Listening t ∧ Midway t := by
  have hafter : ∀ u : State P, u.headersParsed = true → Midway u := by
    intro u hu hno
    exact absurd (hu.symm.trans hno) (by decide)
  rw [receive] at h
  by_cases hparsed : s.headersParsed = true
  · rw [if_pos hparsed] at h
    exact ⟨(accept_kept h).2 hl,hafter t ((accept_kept h).1.trans hparsed)⟩
  · rw [if_neg hparsed] at h
    cases hn : totalHeaderSize ((s.headerBuffer ++ data).take (otaMaxHeaderSize-1)) with
    | none =>
      rw [hn] at h
      dsimp only at h
      split at h
      · cases h
      · rename_i hroom
        rw [List.take_of_length_le (by omega)] at hn
        obtain rfl := Option.some.inj h
        exact ⟨⟨hl.inProgress,hl.retryPending⟩,fun _ => ⟨Nat.lt_of_not_le hroom,hn⟩⟩
    | some n =>
      rw [hn] at h
      dsimp only at h
      rcases ht : acceptHeader s ((s.headerBuffer ++ data).take n) with ⟨u,_ | error⟩
      · rw [ht] at h
        obtain ⟨hu,hlisten⟩ := acceptHeader_kept ht
        exact ⟨(accept_kept h).2 (hlisten hl),hafter t ((accept_kept h).1.trans hu)⟩
      · rw [ht] at h
        cases h

end Header

section Segments

variable {s t : State P}

theorem Listening.of_core (h : core s = core t) (hl : Listening t) : Listening s := by
  have hin : (core s).inProgress = (core t).inProgress := by rw [h]
  have hpending : (core s).retryPending = (core t).retryPending := by rw [h]
  exact ⟨hin.trans hl.inProgress,hpending.trans hl.retryPending⟩

theorem Midway.of_core (h : core s = core t) (hm : Midway t) : Midway s := by
  intro hparsed
  have hboth : (core s).headersParsed = (core t).headersParsed := by rw [h]
  have hbuffers : (core s).headerBuffer = (core t).headerBuffer := by rw [h]
  have hparsed' : t.headersParsed = false := hboth.symm.trans hparsed
  have hsame : s.headerBuffer = t.headerBuffer := by
    rw [core,core] at hbuffers
    dsimp only at hbuffers
    rwa [hparsed,hparsed',if_neg Bool.false_ne_true,if_neg Bool.false_ne_true] at hbuffers
  rw [hsame]
  exact hm hparsed'

theorem otaTcpRecvCb_ignored (h : ¬Listening s) (io : FlashIo) (data : List UInt8) :
    otaTcpRecvCb P io s data = s := by
  rw [otaTcpRecvCb,if_pos (not_listening h)]

theorem otaTcpRecvCb_outcome (hl : Listening s) (hm : Midway s) (data : List UInt8) :
    outcome (otaTcpRecvCb P flashOk s data) = (receive P s data).map core := by
  have hcore : core { s with timeoutTimer := true } = core s := rfl
  have hpacket := packet_outcome (s := { s with timeoutTimer := true })
    ⟨hl.inProgress,hl.retryPending⟩ hm data
  rw [otaTcpRecvCb,hl.guard,if_neg Bool.false_ne_true,← receive_congr hcore]
  exact hpacket

theorem segments_ignored (segments : List (List UInt8)) (h : ¬Listening s) :
    segments.foldl (otaTcpRecvCb P flashOk) s = s := by
  induction segments with
  | nil => rfl
  | cons data rest ih => rw [List.foldl_cons,otaTcpRecvCb_ignored h,ih]

/-- A response that comes in segments is received as if it came in one packet. -/
theorem segments_outcome (segments : List (List UInt8)) (hl : Listening s) (hm : Midway s) :
    outcome (segments.foldl (otaTcpRecvCb P flashOk) s) =
      (receive P s segments.flatten).map core := by
  induction segments generalizing s with
  | nil =>
    rw [List.foldl_nil,List.flatten_nil,receive_nil hm]
    exact outcome_some hl.inProgress
  | cons data rest ih =>
    have hfirst := otaTcpRecvCb_outcome hl hm data
    rw [List.foldl_cons,List.flatten_cons,← receive_append]
    cases hr : receive P s data with
    | none =>
      rw [hr] at hfirst
      rw [segments_ignored rest (outcome_none hfirst)]
      exact hfirst
    | some t =>
      obtain ⟨hlt,hmt⟩ := receive_kept hl hr
      have hcore : core (otaTcpRecvCb P flashOk s data) = core t := by
        rw [hr] at hfirst
        exact outcome_core hfirst
      rw [ih (hlt.of_core hcore) (hmt.of_core hcore),receive_congr hcore]
      rfl

end Segments

section Disconnect

variable {s t : State P}

theorem report_core (s : State P) (text : String) : core (s.report text) = (core s).report text :=
  core_post s rfl

theorem seeFailure_core (s : State P) (reason : RetryReason) :
    core (seeFailure s reason) = seeFailure (core s) reason := by
  cases reason <;> rfl

theorem retryLater_core (s : State P) (reason : RetryReason) :
    core (retryLater s reason) = retryLater (core s) reason := by
  have hstatus : ∀ text, kept (.status text) = true := fun _ => rfl
  rw [retryLater,retryLater]
  split
  · exact congrArg (fun u : State P => { u with retryTimer := true }) (core_post _ (hstatus _))
  · rfl

theorem reportExhausted_core (s : State P) :
    core (reportExhausted s) = reportExhausted (core s) := by
  rw [reportExhausted,reportExhausted]
  simp only [apply_ite core,report_core]
  rfl

theorem retryExhausted_core (s : State P) :
    core (retryExhausted s) = retryExhausted (core s) := by
  rw [retryExhausted,retryExhausted]
  exact congrArg (fun u : State P => { u with inProgress := false }) (reportExhausted_core _)

theorem otaTriggerReconnect_core (s : State P) (reason : RetryReason) :
    core (otaTriggerReconnect s reason) = otaTriggerReconnect (core s) reason := by
  have hafter : ∀ u : State P,
      core (if u.retryCount < otaMaxRetries then retryLater u reason else retryExhausted u) =
        if (core u).retryCount < otaMaxRetries then retryLater (core u) reason
        else retryExhausted (core u) := by
    intro u
    rw [apply_ite core,retryLater_core,retryExhausted_core]
    rfl
  rw [otaTriggerReconnect,otaTriggerReconnect,apply_ite core]
  dsimp only
  rw [hafter,seeFailure_core]
  rfl

theorem otaScheduleRangeContinue_core (s : State P) :
    core (otaScheduleRangeContinue s) = otaScheduleRangeContinue (core s) := by
  rw [otaScheduleRangeContinue,otaScheduleRangeContinue]
  exact apply_ite core _ _ _

theorem outcome_of_commutes {f : State P → State P} (h : ∀ s, core (f s) = f (core s)) (s : State P) :
    outcome (f s) = outcome (f (core s)) := by
  apply outcome_congr
  rw [h,h,core_core]

theorem announceSuccess_core (s : State P) :
    core (announceSuccess s) = announceSuccess (core s) := by
  have hstatus : ∀ text, kept (.status text) = true := fun _ => rfl
  rw [announceSuccess,announceSuccess,report_core,core_post _ (hstatus _)]
  by_cases hfull : s.lastReportedProgress < 100
  · rw [if_pos hfull,if_pos (show (core s).lastReportedProgress < 100 from hfull),report_core]
    rfl
  · rw [if_neg hfull,if_neg (show ¬(core s).lastReportedProgress < 100 from hfull)]
    rfl

theorem succeed_core (s : State P) :
    core ({ announceSuccess s with inProgress := false }.post .restartDefered) =
      { announceSuccess (core s) with inProgress := false }.post .restartDefered := by
  have hpost := core_post { announceSuccess s with inProgress := false } (a := .restartDefered) rfl
  rw [hpost,← announceSuccess_core]
  rfl

theorem commitImage_core (io : StageIo) (s : State P) :
    outcome (commitImage io s) = outcome (commitImage io (core s)) := by
  have hset : core (s.post (.setTempRom s.targetRom)) = (core s).post (.setTempRom s.targetRom) :=
    core_post s rfl
  rw [commitImage,commitImage]
  cases io.setTempOk with
  | false =>
    rw [if_pos (show (!false) = true from rfl),if_pos (show (!false) = true from rfl),outcome_fail,
      outcome_fail]
  | true =>
    rw [if_neg (show ¬(!true) = true from Bool.false_ne_true),
      if_neg (show ¬(!true) = true from Bool.false_ne_true)]
    apply outcome_congr
    rw [succeed_core,succeed_core,hset,core_post (core s) rfl,core_core]
    rfl

theorem finishWriter_core (s : State P) :
    core (finishWriter P s) = core (finishWriter P (core s)) := by
  have hwrite : ∀ u : State P, core (finishWriter P u) =
      { core (otaCleanupTimers u) with flash := P.writer.finish u.status u.flash } := by
    intro u
    rw [← core_write (otaCleanupTimers u) (P.writer.finishSectors u.status)]
    rfl
  have htimers : core (otaCleanupTimers (core s)) = core (otaCleanupTimers s) :=
    congrArg (fun u : State P => { u with retryTimer := false, progressTimer := false }) (core_core s)
  rw [hwrite,hwrite,htimers]
  rfl

theorem stageImage_core (io : StageIo) (s : State P) :
    outcome (stageImage P io s) = outcome (stageImage P io (core s)) := by
  rw [stageImage,stageImage]
  cases io.endOk with
  | false =>
    rw [if_pos (show (!false) = true from rfl),if_pos (show (!false) = true from rfl),outcome_fail,
      outcome_fail]
  | true =>
    have hcheck : checkImage P (finishWriter P (core s)) = checkImage P (finishWriter P s) := rfl
    rw [if_neg (show ¬(!true) = true from Bool.false_ne_true),
      if_neg (show ¬(!true) = true from Bool.false_ne_true)]
    dsimp only
    rw [hcheck]
    cases checkImage P (finishWriter P s) with
    | some error => exact (outcome_fail _ _ _).trans (outcome_fail _ _ _).symm
    | none =>
      dsimp only
      rw [commitImage_core,finishWriter_core,← commitImage_core]

theorem endResponse_core (io : StageIo) (s : State P) :
    outcome (endResponse P io s) = outcome (endResponse P io (core s)) := by
  have hreconnect : ∀ reason (u : State P), outcome (otaTriggerReconnect u reason) =
      outcome (otaTriggerReconnect (core u) reason) :=
    fun reason => outcome_of_commutes fun u => otaTriggerReconnect_core u reason
  rw [endResponse,endResponse]
  by_cases hcomplete : complete s = true
  · rw [if_pos hcomplete,if_pos (show complete (core s) = true from hcomplete)]
    exact stageImage_core io s
  · rw [if_neg hcomplete,if_neg (show ¬complete (core s) = true from hcomplete)]
    by_cases hbroken : otaIncompleteHttpResponse s = true
    · rw [if_pos hbroken,if_pos (show otaIncompleteHttpResponse (core s) = true from hbroken)]
      exact hreconnect _ s
    · rw [if_neg hbroken,if_neg (show ¬otaIncompleteHttpResponse (core s) = true from hbroken)]
      by_cases hnone : (!s.headersParsed || !s.responseLengthKnown) = true
      · rw [if_pos hnone,
          if_pos (show (!(core s).headersParsed || !(core s).responseLengthKnown) = true from hnone)]
        exact hreconnect _ { s with tcpFailureSeen := true }
      · rw [if_neg hnone,
          if_neg (show ¬(!(core s).headersParsed || !(core s).responseLengthKnown) = true from hnone)]
        by_cases hpart : partComplete s = true
        · rw [if_pos hpart,if_pos (show partComplete (core s) = true from hpart)]
          exact outcome_of_commutes otaScheduleRangeContinue_core s
        · rw [if_neg hpart,if_neg (show ¬partComplete (core s) = true from hpart)]
          exact hreconnect _ s

theorem otaTcpDisconCb_core (io : StageIo) (s : State P) :
    outcome (otaTcpDisconCb P io s) = outcome (otaTcpDisconCb P io (core s)) := by
  rw [otaTcpDisconCb,otaTcpDisconCb]
  by_cases hguard : (!s.inProgress || s.retryPending) = true
  · rw [if_pos hguard,if_pos (show (!(core s).inProgress || (core s).retryPending) = true from hguard)]
    exact outcome_congr (core_core s).symm
  · rw [if_neg hguard,if_neg (show ¬(!(core s).inProgress || (core s).retryPending) = true from hguard)]
    exact endResponse_core io { s with timeoutTimer := false }

theorem outcome_none_iff : outcome s = none ↔ s.inProgress = false ∧ s.isValidBinary = false := by
  rw [outcome]
  cases s.inProgress <;> cases s.isValidBinary <;> simp

theorem outcome_eq (h : outcome s = outcome t) :
    outcome s = none ∧ outcome t = none ∨ core s = core t := by
  cases ht : outcome t with
  | none =>
    rw [ht] at h
    exact Or.inl ⟨h,rfl⟩
  | some c =>
    right
    rw [outcome] at ht
    split at ht
    · obtain rfl := Option.some.inj ht
      apply outcome_core
      rwa [h,outcome,if_pos]
    · cases ht

theorem disconnected_outcome (h : outcome s = outcome t) (io : StageIo) :
    outcome (next P s (.disconnected io)) = outcome (next P t (.disconnected io)) := by
  have hgiven : ∀ u : State P, outcome u = none → outcome (next P u (.disconnected io)) = none := by
    intro u hu
    have hflags := outcome_none_iff.mp hu
    rw [next,otaTcpDisconCb,if_pos (by simp [hflags.1])]
    exact outcome_none_iff.mpr hflags
  rcases outcome_eq h with ⟨hs,ht⟩ | hcore
  · rw [hgiven s hs,hgiven t ht]
  · have hphase : core { s with phase := .idle } = core { t with phase := .idle } :=
      congrArg (fun u : State P => { u with phase := .idle }) hcore
    rw [next,next,otaTcpDisconCb_core,hphase,← otaTcpDisconCb_core]

end Disconnect

inductive Verdict
  | staged
  | failed
  | retry
  | continues
  deriving DecidableEq

/-- What has been decided; of the downloads that have ended a failed one is not valid any more. -/
def verdict (s : State P) : Verdict :=
  if s.inProgress then if s.continuePending then .continues else .retry
  else if s.isValidBinary then .staged
  else .failed

section Verdicts

variable {s t : State P}

/-- The same outcome is the same verdict, and the same image unless the download has failed. -/
theorem verdict_of_outcome (h : outcome s = outcome t) :
    verdict s = verdict t ∧ (verdict s ≠ .failed →
      s.receivedBytes = t.receivedBytes ∧ s.flash = t.flash ∧ s.shaCtx = t.shaCtx) := by
  rcases outcome_eq h with ⟨hs,ht⟩ | hcore
  · obtain ⟨hin,hvalid⟩ := outcome_none_iff.mp hs
    obtain ⟨hin',hvalid'⟩ := outcome_none_iff.mp ht
    have hfailed : verdict s = .failed := by
      rw [verdict,hin,hvalid]
      rfl
    have hfailed' : verdict t = .failed := by
      rw [verdict,hin',hvalid']
      rfl
    exact ⟨hfailed.trans hfailed'.symm,fun hno => absurd hfailed hno⟩
  · refine ⟨?_,fun _ => ⟨?_,?_,?_⟩⟩
    · show verdict (core s) = verdict (core t)
      rw [hcore]
    · show (core s).receivedBytes = (core t).receivedBytes
      rw [hcore]
    · show (core s).flash = (core t).flash
      rw [hcore]
    · show (core s).shaCtx = (core t).shaCtx
      rw [hcore]

/-- A connection on which a response comes in segments, up to its end. -/
def reply (segments : List (List UInt8)) (io : StageIo) : List Event :=
  .connected true::segments.map (fun data => .received data flashOk) ++ [.disconnected io]

def afterReply (P : Platform) (s : State P) (segments : List (List UInt8)) (io : StageIo) :
    State P := (reply segments io).foldl (next P) s

theorem afterReply_eq (s : State P) (segments : List (List UInt8)) (io : StageIo) :
    afterReply P s segments io =
      next P (segments.foldl (otaTcpRecvCb P flashOk) (next P s (.connected true)))
        (.disconnected io) := by
  rw [afterReply,reply,List.foldl_append,List.foldl_cons,List.foldl_nil,List.foldl_cons,
    List.foldl_map]
  rfl

theorem Inv.midway {c : Command} {w : World P} (h : Inv P c w) (hphase : w.ota.phase = .connecting)
    (hl : Listening (next P w.ota (.connected true))) :
    Midway (next P w.ota (.connected true)) := by
  have hestablished : (next P w.ota (.connected true)).phase = .established := by
    rw [next,otaTcpConnectCb]
    split <;> rfl
  have hconnection := ((h.connected hphase true).good hl.inProgress).connection hl.retryPending
  intro hparsed
  have hh := hconnection.header hestablished hparsed
  have hbuffer : (next P w.ota (.connected true)).headerBuffer = [] := hh.buffer
  rw [hbuffer]
  exact ⟨hh.short,hh.unended⟩

theorem Inv.reply_outcome {c : Command} {w : World P} (h : Inv P c w)
    (hphase : w.ota.phase = .connecting) {segments₁ segments₂ : List (List UInt8)}
    (heq : segments₁.flatten = segments₂.flatten) (io : StageIo) :
    outcome (afterReply P w.ota segments₁ io) = outcome (afterReply P w.ota segments₂ io) := by
  rw [afterReply_eq,afterReply_eq]
  apply disconnected_outcome
  by_cases hl : Listening (next P w.ota (.connected true))
  · have hm := h.midway hphase hl
    rw [segments_outcome segments₁ hl hm,segments_outcome segments₂ hl hm,heq]
  · rw [segments_ignored segments₁ hl,segments_ignored segments₂ hl]

/-- In every reachable state in which a connection opens, the same bytes lead to the same verdict
in whatever way they are cut into segments, and to the same image unless they lead to a failure. -/
theorem segments_agree (s : State P) (a : StartArgs) {es : List Event} {w : World P}
    (h : Run (worldStep P) (started s a) es w) (hphase : w.ota.phase = .connecting)
    {segments₁ segments₂ : List (List UInt8)} (heq : segments₁.flatten = segments₂.flatten)
    (io : StageIo) :
    verdict (afterReply P w.ota segments₁ io) = verdict (afterReply P w.ota segments₂ io) ∧
      (verdict (afterReply P w.ota segments₁ io) ≠ .failed →
        (afterReply P w.ota segments₁ io).receivedBytes =
          (afterReply P w.ota segments₂ io).receivedBytes ∧
        (afterReply P w.ota segments₁ io).flash = (afterReply P w.ota segments₂ io).flash ∧
        (afterReply P w.ota segments₁ io).shaCtx = (afterReply P w.ota segments₂ io).shaCtx) := by
  obtain ⟨c,hinv⟩ := started_inv s a
  exact verdict_of_outcome ((hinv.run h).reply_outcome hphase heq io)

def sampleEnd (segments : List (List UInt8)) : State samplePlatform :=
  afterReply samplePlatform (started (State.boot samplePlatform fun _ => 0xFF) sampleArgs).ota
    segments sampleStage

theorem segments_agree_sample :
    verdict (sampleEnd [sampleHeader]) =
        verdict (sampleEnd [sampleHeader.take 9,sampleHeader.drop 9]) ∧
      (verdict (sampleEnd [sampleHeader]) ≠ .failed →
        (sampleEnd [sampleHeader]).receivedBytes =
          (sampleEnd [sampleHeader.take 9,sampleHeader.drop 9]).receivedBytes ∧
        (sampleEnd [sampleHeader]).flash =
          (sampleEnd [sampleHeader.take 9,sampleHeader.drop 9]).flash ∧
        (sampleEnd [sampleHeader]).shaCtx =
          (sampleEnd [sampleHeader.take 9,sampleHeader.drop 9]).shaCtx) := by
  have heq : [sampleHeader].flatten = [sampleHeader.take 9,sampleHeader.drop 9].flatten := by
    rw [List.flatten_cons,List.flatten_cons,List.flatten_cons,List.flatten_nil,List.append_nil,
      List.append_nil,List.take_append_drop]
  exact segments_agree _ sampleArgs (Run.nil _) rfl heq sampleStage

end Verdicts

end Ota
end MeterLogger
