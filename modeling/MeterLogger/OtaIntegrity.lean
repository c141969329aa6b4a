import MeterLogger.OtaMachine
import MeterLogger.Runs

/-!
# Integrity of the staged image

Along every run of the download the bytes accepted so far are the ones the server delivered
last for their offsets, and they are in flash or in the hands of the writer. The receive
offset, the writer, the hash and the request stay in step through retries, continued ranges
and full responses, so that what is staged for the next boot is the image of the server.
-/

namespace MeterLogger
namespace Ota

open CStrings FlashWriter OtaHeader Runs

variable {P : Platform}

section Header

variable {buffer : List UInt8} {n : ℕ}

theorem contentLength_append {headers : List UInt8} (h : headerEnd <:+ headers)
    (rest : List UInt8) : contentLength (headers ++ rest) = contentLength headers := by
  have hname : 13 ∉ ascii "Content-Length" := by decide
  obtain ⟨heq,hcr⟩ := otaGetHeaderValue_extends hname h rest
  rw [contentLength,contentLength,heq]
  rcases hv : otaGetHeaderValue headers (ascii "Content-Length") with ⟨_ | value,_ | _⟩
  · rfl
  · rfl
  · rw [hv] at hcr
    show (otaParseUint32 (value ++ rest)).filter _ = (otaParseUint32 value).filter _
    rw [otaParseUint32_append (hcr value rfl)]
  · rfl

theorem contentRange_append {headers : List UInt8} (h : headerEnd <:+ headers)
    (rest : List UInt8) : contentRange (headers ++ rest) = contentRange headers := by
  have hname : 13 ∉ ascii "Content-Range" := by decide
  obtain ⟨heq,hcr⟩ := otaGetHeaderValue_extends hname h rest
  rw [contentRange,contentRange,heq]
  rcases hv : otaGetHeaderValue headers (ascii "Content-Range") with ⟨_ | value,_ | _⟩
  · rfl
  · rfl
  · rw [hv] at hcr
    show otaParseContentRange (value ++ rest) = otaParseContentRange value
    rw [otaParseContentRange_append (hcr value rfl)]
  · rfl

theorem acceptHeader_take (h : totalHeaderSize buffer = some n) (s : State P) :
    acceptHeader s (cstr buffer) = acceptHeader s (buffer.take n) := by
  obtain ⟨_,hend,hcut⟩ := totalHeaderSize_spec h
  have htext := hcut []
  rw [List.append_nil] at htext
  have hresponse : ∀ (code length : ℕ) (rest : List UInt8),
      acceptResponse s (buffer.take n ++ rest) code length =
        acceptResponse s (buffer.take n) code length := by
    intro code length rest
    rw [acceptResponse,acceptResponse,contentRange_append hend]
  rw [htext,acceptHeader,acceptHeader,otaParseStatusCode_append hend,contentLength_append hend]
  simp only [hresponse]

end Header

section Failures

variable {s t : State P} {rom : ℕ}

/-- The image has not been staged. -/
def Unstaged (s : State P) : Prop := ∀ rom, .setTempRom rom ∉ s.log

@[simp] theorem post_log (s : State P) (a : Action) : (s.post a).log = s.log ++ [a] := rfl

theorem Unstaged.post (h : Unstaged s) {a : Action} (ha : ∀ rom, a ≠ .setTempRom rom) :
    Unstaged (s.post a) := by
  intro rom hm
  rw [post_log,List.mem_append,List.mem_singleton] at hm
  rcases hm with hm | hm
  · exact h rom hm
  · exact ha rom hm.symm

theorem Unstaged.report (h : Unstaged s) (text : String) : Unstaged (s.report text) :=
  h.post fun _ => by simp

theorem otaFailUpdate_inProgress (s : State P) (status : String) (b : Bool) :
    (otaFailUpdate s status b).inProgress = false := by
  cases b <;> rfl

theorem otaFailUpdate_log (s : State P) (status : String) (b : Bool) :
    .setTempRom rom ∈ (otaFailUpdate s status b).log ↔ .setTempRom rom ∈ s.log := by
  cases b <;> simp [otaFailUpdate,espconnAbort,State.report,otaCleanupTimers]

theorem Unstaged.fail (h : Unstaged s) (status : String) (b : Bool) :
    Unstaged (otaFailUpdate s status b) := fun rom hm => h rom ((otaFailUpdate_log s status b).mp hm)

theorem Unstaged.exhausted (h : Unstaged s) : Unstaged (reportExhausted s) := by
  rw [reportExhausted]
  have hstep : ∀ (b : Bool) (u : State P) (text : String), Unstaged u →
      Unstaged (if b then u.report text else u) := by
    intro b u text hu
    cases b
    · exact hu
    · exact hu.report text
  have hall := hstep s.otherFailureSeen _ "error_incomplete_firmware"
    (hstep s.incompleteHttpResponseSeen _ "error_incomplete_http_response"
      (hstep s.tcpFailureSeen _ "error_tcp_connection"
        (hstep s.dnsFailureSeen _ "error_dns_resolution" h)))
  split
  · exact hall
  · exact hall.report _

/-- The callbacks do not return at once. -/
structure Listening (s : State P) : Prop where
  inProgress : s.inProgress = true
  retryPending : s.retryPending = false

theorem Listening.guard (h : Listening s) : (!s.inProgress || s.retryPending) = false := by
  rw [h.inProgress,h.retryPending]
  rfl

/-- The variables that a failure leaves as they are. -/
structure Alike (s t : State P) : Prop where
  flash : t.flash = s.flash
  targetRom : t.targetRom = s.targetRom
  firmwareSize : t.firmwareSize = s.firmwareSize
  firmwareSizeKnown : t.firmwareSizeKnown = s.firmwareSizeKnown
  expectedSha256₁ : t.expectedSha256₁ = s.expectedSha256₁
  expectedSha256₂ : t.expectedSha256₂ = s.expectedSha256₂

theorem Alike.trans {u : State P} (h : Alike s t) (h' : Alike t u) : Alike s u where
  flash := h'.flash.trans h.flash
  targetRom := h'.targetRom.trans h.targetRom
  firmwareSize := h'.firmwareSize.trans h.firmwareSize
  firmwareSizeKnown := h'.firmwareSizeKnown.trans h.firmwareSizeKnown
  expectedSha256₁ := h'.expectedSha256₁.trans h.expectedSha256₁
  expectedSha256₂ := h'.expectedSha256₂.trans h.expectedSha256₂

/-- A download that goes on with another attempt, from the start of the sector it was in. -/
structure Rewound (s t : State P) : Prop where
  inProgress : t.inProgress = true
  retryPending : t.retryPending = true
  continuePending : t.continuePending = false
  receivedBytes : t.receivedBytes = s.receivedBytes/sectorSize*sectorSize
  alike : Alike s t

/-- What a failure leads to. -/
structure GivesUp (s t : State P) : Prop where
  outcome : t.inProgress = false ∨ Rewound s t
  unstaged : Unstaged s → Unstaged t

theorem GivesUp.of_alike {u : State P} (h : GivesUp u t) (ha : Alike s u)
    (hbytes : u.receivedBytes = s.receivedBytes) (hu : Unstaged s → Unstaged u) : GivesUp s t where
  outcome := h.outcome.imp_right fun hr =>
    ⟨hr.inProgress,hr.retryPending,hr.continuePending,hbytes ▸ hr.receivedBytes,ha.trans hr.alike⟩
  unstaged := fun hs => h.unstaged (hu hs)

theorem retryLater_givesUp (h : s.inProgress = true) (hc : s.continuePending = false)
    (reason : RetryReason) : GivesUp s (retryLater s reason) := by
  rw [retryLater]
  constructor
  · right
    split
    · exact ⟨h,rfl,hc,rfl,rfl,rfl,rfl,rfl,rfl,rfl⟩
    · exact ⟨h,rfl,hc,rfl,rfl,rfl,rfl,rfl,rfl,rfl⟩
  · intro hu
    split
    · exact Unstaged.post (s := { s with
        retryCount := s.retryCount+1
        retryPending := true
        receivedBytes := s.receivedBytes/sectorSize*sectorSize }) hu fun _ => by simp
    · exact hu

theorem retryExhausted_givesUp (s : State P) : GivesUp s (retryExhausted s) where
  outcome := Or.inl rfl
  unstaged := fun hu => Unstaged.exhausted (s := { otaCleanupTimers s with
    retryPending := false
    continuePending := false
    isValidBinary := false
    dnsPending := false }) hu

theorem otaTriggerReconnect_givesUp (h : Listening s) (reason : RetryReason) :
    GivesUp s (otaTriggerReconnect s reason) := by
  have hlater : ∀ u : State P, u.inProgress = true → u.continuePending = false → GivesUp u
      (if u.retryCount < otaMaxRetries then retryLater u reason else retryExhausted u) := by
    intro u hu hc
    split
    · exact retryLater_givesUp hu hc reason
    · exact retryExhausted_givesUp u
  have hin := h.inProgress
  rw [otaTriggerReconnect,h.guard,if_neg Bool.false_ne_true]
  apply GivesUp.of_alike (hlater (seeFailure _ reason) _ _)
  · cases reason <;> exact ⟨rfl,rfl,rfl,rfl,rfl,rfl⟩
  · cases reason <;> rfl
  · cases reason <;> exact id
  · cases reason <;> exact hin
  · cases reason <;> rfl

theorem otaTriggerReconnect_from {u : State P} (h : Listening u) (ha : Alike s u)
    (hbytes : u.receivedBytes = s.receivedBytes) (hu : Unstaged s → Unstaged u)
    (reason : RetryReason) : GivesUp s (otaTriggerReconnect u reason) :=
  (otaTriggerReconnect_givesUp h reason).of_alike ha hbytes hu

theorem GivesUp.abort (h : GivesUp s t) : GivesUp s (espconnAbort t) where
  outcome := h.outcome.imp_right fun hr =>
    ⟨hr.inProgress,hr.retryPending,hr.continuePending,hr.receivedBytes,
      hr.alike.trans ⟨rfl,rfl,rfl,rfl,rfl,rfl⟩⟩
  unstaged := fun hu => (h.unstaged hu).post fun _ => by simp

/-- The download has been given up. -/
structure Stopped (s t : State P) : Prop where
  inProgress : t.inProgress = false
  unstaged : Unstaged s → Unstaged t

theorem otaFailUpdate_stopped {u : State P} (hu : Unstaged s → Unstaged u) (status : String)
    (b : Bool) : Stopped s (otaFailUpdate u status b) where
  inProgress := otaFailUpdate_inProgress u status b
  unstaged := fun h => (hu h).fail status b

end Failures

/-- The offset of the first body byte, from the header of a response: of a full response 0, of a
partial one the start of its range. -/
def startOf (header : List UInt8) : Option ℕ :=
  match otaParseStatusCode header with
  | none => none
  | some code =>
    if code = 200 then some 0
    else if code = 206 then (contentRange header).map fun range => range.1
    else none

/-- Where the body begins in what was received on a connection, and the offset of its first
byte. -/
def bodyStart (stream : List UInt8) : Option (ℕ × ℕ) :=
  (totalHeaderSize (stream.take (otaMaxHeaderSize-1))).bind fun n =>
    (startOf (stream.take n)).map fun start => (n,start)

/-- The machine, what it received on this connection, and the bytes that were delivered last for
each offset. -/
structure World (P : Platform) where
  ota : State P
  stream : List UInt8
  delivered : ℕ → Option UInt8

def deliver (stream data : List UInt8) (delivered : ℕ → Option UInt8) : ℕ → Option UInt8 :=
  match bodyStart (stream ++ data) with
  | none => delivered
  | some (n,start) => fun x =>
    if start+(stream.length-n) ≤ x ∧ x < start+((stream ++ data).length-n) then
      (stream ++ data)[n+(x-start)]?
    else delivered x

/-- A step of the machine; bytes that come while it does not listen are dropped. -/
def worldNext (P : Platform) (w : World P) (e : Event) : World P :=
  match e with
  | .connected sendOk => ⟨next P w.ota (.connected sendOk),[],w.delivered⟩
  | .received data io =>
    if !w.ota.inProgress || w.ota.retryPending then { w with ota := next P w.ota (.received data io) }
    else
      ⟨next P w.ota (.received data io),w.stream ++ data,deliver w.stream data w.delivered⟩
  | e => { w with ota := next P w.ota e }

def worldStep (P : Platform) (w : World P) (e : Event) (w' : World P) : Prop :=
  Enabled w.ota e ∧ w' = worldNext P w e

def started (s : State P) (a : StartArgs) : World P :=
  ⟨(startOtaUpdate { s with log := [] } a).1,[],fun _ => none⟩

theorem bodyStart_eq {stream : List UInt8} {n start : ℕ}
    (hn : totalHeaderSize (stream.take (otaMaxHeaderSize-1)) = some n)
    (hs : startOf (stream.take n) = some start) : bodyStart stream = some (n,start) := by
  rw [bodyStart,hn,Option.bind_some,hs,Option.map_some]

theorem bodyStart_append {stream : List UInt8} {n start : ℕ}
    (h : bodyStart stream = some (n,start)) (data : List UInt8) :
    bodyStart (stream ++ data) = some (n,start) := by
  rw [bodyStart,Option.bind_eq_some_iff] at h
  obtain ⟨m,hm,hs⟩ := h
  rw [Option.map_eq_some_iff] at hs
  obtain ⟨start',hs,heq⟩ := hs
  obtain ⟨rfl,rfl⟩ := Prod.mk.inj heq
  have hle : m ≤ stream.length := by
    have hspec := (totalHeaderSize_spec hm).1
    rw [List.length_take] at hspec
    omega
  apply bodyStart_eq
  · rw [List.take_append]
    exact totalHeaderSize_append hm _
  · rwa [List.take_append_of_le_length hle]

/-- The slot to be written and the digests that were given with the command. -/
structure Command where
  targetRom : ℕ
  expectedSha256₁ : Option (List UInt8)
  expectedSha256₂ : Option (List UInt8)

def commandOf (s : State P) : Command := ⟨s.targetRom,s.expectedSha256₁,s.expectedSha256₂⟩

/-- The writer has the image in hand, and it has been hashed. -/
structure Live (P : Platform) (s : State P) (image : List UInt8) : Prop where
  base : s.targetBaseAddr = P.roms s.targetRom
  writing : Writing P.writer (P.roms s.targetRom) image s.status s.flash
  hashed : s.hasSha256 = true → s.shaCtx = image

/-- Whole sectors of the image are in flash. -/
structure Parked (P : Platform) (s : State P) (image : List UInt8) : Prop where
  aligned : image.length%sectorSize = 0
  holds : Holds s.flash (P.roms s.targetRom) image

def live (s : State P) : Bool := s.isValidBinary && (!s.retryPending || s.continuePending)

def Stored (P : Platform) (s : State P) (image : List UInt8) : Prop :=
  if live s then Live P s image else Parked P s image

/-- The bytes accepted so far are the ones delivered last. -/
structure Accepted (P : Platform) (w : World P) (image : List UInt8) : Prop where
  length : image.length = w.ota.receivedBytes
  delivered : ∀ i (h : i < image.length), w.delivered i = some image[i]
  stored : Stored P w.ota image

/-- The header, as far as it has come, is in the buffer. -/
structure InHeader (w : World P) : Prop where
  buffer : w.ota.headerBuffer = w.stream
  short : w.stream.length < otaMaxHeaderSize-1
  unended : totalHeaderSize w.stream = none
  offset : w.ota.requestOffset = w.ota.receivedBytes

/-- The body bytes of the response have been accepted from the request offset on. -/
structure InBody (w : World P) (n : ℕ) : Prop where
  start : bodyStart w.stream = some (n,w.ota.requestOffset)
  header_le : n ≤ w.stream.length
  received : w.ota.receivedBytes = w.ota.requestOffset+(w.stream.length-n)

/-- Where a listening machine is in the response. -/
structure Connection (w : World P) : Prop where
  quiet : w.ota.phase ≠ .established → w.ota.headersParsed = false ∧ w.ota.headerBuffer = []
  header : w.ota.phase = .established → w.ota.headersParsed = false → InHeader w
  body : w.ota.phase = .established → w.ota.headersParsed = true → ∃ n, InBody w n

/-- What holds while a download is in progress. -/
structure Good (P : Platform) (c : Command) (w : World P) : Prop where
  accepted : ∃ image, Accepted P w image
  size : w.ota.firmwareSizeKnown = true →
    minFirmwareSize ≤ w.ota.firmwareSize ∧ w.ota.firmwareSize ≤ maxFirmwareSize
  connection : w.ota.retryPending = false → Connection w
  armed : w.ota.retryTimer = true → w.ota.retryPending = true
  unstaged : Unstaged w.ota
  command : commandOf w.ota = c

/-- The image in the slot is the one of the server, and its digest is right if any was given. -/
structure Staged (P : Platform) (c : Command) (w : World P) : Prop where
  size_ge : minFirmwareSize ≤ w.ota.firmwareSize
  size_le : w.ota.firmwareSize ≤ maxFirmwareSize
  bytes : ∀ i < w.ota.firmwareSize,
    w.delivered i = some (w.ota.flash (P.roms c.targetRom+i))
  digest : c.expectedSha256₁.isSome ∨ c.expectedSha256₂.isSome →
    (if c.targetRom = 0 then c.expectedSha256₁ else c.expectedSha256₂) =
      some (P.sha256 (readFlash w.ota.flash (P.roms c.targetRom) w.ota.firmwareSize))

structure Inv (P : Platform) (c : Command) (w : World P) : Prop where
  good : w.ota.inProgress = true → Good P c w
  staged : w.ota.inProgress = false → ∀ rom, .setTempRom rom ∈ w.ota.log →
    rom = c.targetRom ∧ Staged P c w

section Invariant

variable {c : Command} {w : World P} {t : State P} {image : List UInt8}

theorem Inv.stopped (hin : t.inProgress = false) (hu : Unstaged t) (stream : List UInt8)
    (delivered : ℕ → Option UInt8) : Inv P c ⟨t,stream,delivered⟩ where
  good := fun h => absurd (h.symm.trans hin) (by decide)
  staged := fun _ rom hm => absurd hm (hu rom)

theorem Stored.rewind {s : State P} (h : Stored P s image) :
    Holds s.flash (P.roms s.targetRom) (image.take (image.length/sectorSize*sectorSize)) := by
  rw [Stored] at h
  split at h
  · exact h.writing.rewind (P.roms_aligned _)
  · exact h.holds.take _

theorem Good.givesUp (h : Good P c w) (hg : GivesUp w.ota t) (stream : List UInt8) :
    Inv P c ⟨t,stream,w.delivered⟩ := by
  rcases hg.outcome with hin | hr
  · exact Inv.stopped hin (hg.unstaged h.unstaged) _ _
  · refine ⟨fun _ => ?_,fun hin => absurd (hr.inProgress.symm.trans hin) (by decide)⟩
    obtain ⟨image,hlen,hdel,hstored⟩ := h.accepted
    have hlive : live t = false := by
      rw [live,hr.retryPending,hr.continuePending]
      simp
    have htake : (image.take (image.length/sectorSize*sectorSize)).length =
        image.length/sectorSize*sectorSize := by
      rw [List.length_take]
      exact Nat.min_eq_left (Nat.div_mul_le_self _ _)
    refine ⟨⟨image.take (image.length/sectorSize*sectorSize),?_,?_,?_⟩,?_,?_,?_,?_,?_⟩
    · rw [htake,hlen]
      exact hr.receivedBytes.symm
    · intro i hi
      rw [List.getElem_take]
      exact hdel i (by rw [List.length_take] at hi; omega)
    · rw [Stored,hlive,if_neg Bool.false_ne_true]
      refine ⟨?_,?_⟩
      · rw [htake]
        exact Nat.mul_mod_left _ _
      · have hheld := hstored.rewind
        rwa [← hr.alike.flash,← hr.alike.targetRom] at hheld
    · show t.firmwareSizeKnown = true → _ ≤ t.firmwareSize ∧ t.firmwareSize ≤ _
      rw [hr.alike.firmwareSizeKnown,hr.alike.firmwareSize]
      exact h.size
    · intro hp
      exact absurd (hr.retryPending.symm.trans hp) (by decide)
    · exact fun _ => hr.retryPending
    · exact hg.unstaged h.unstaged
    · show commandOf t = c
      rw [← h.command,commandOf,hr.alike.targetRom,hr.alike.expectedSha256₁,
        hr.alike.expectedSha256₂]
      rfl

/-- The variables that tell where the image is. -/
structure SameImage (s t : State P) : Prop where
  status : t.status = s.status
  targetRom : t.targetRom = s.targetRom
  targetBaseAddr : t.targetBaseAddr = s.targetBaseAddr
  shaCtx : t.shaCtx = s.shaCtx
  expectedSha256₁ : t.expectedSha256₁ = s.expectedSha256₁
  expectedSha256₂ : t.expectedSha256₂ = s.expectedSha256₂
  flash : t.flash = s.flash

theorem Stored.of_same {s : State P} (h : Stored P s image) (hs : SameImage s t)
    (hlive : live t = live s) : Stored P t image := by
  rw [Stored] at h ⊢
  rw [hlive]
  split
  · rename_i hl
    rw [if_pos hl] at h
    refine ⟨?_,?_,?_⟩
    · rw [hs.targetBaseAddr,hs.targetRom]
      exact h.base
    · rw [hs.targetRom,hs.status,hs.flash]
      exact h.writing
    · rw [State.hasSha256,hs.expectedSha256₁,hs.expectedSha256₂,hs.shaCtx]
      exact h.hashed
  · rename_i hl
    rw [if_neg hl] at h
    refine ⟨h.aligned,?_⟩
    rw [hs.flash,hs.targetRom]
    exact h.holds

theorem Accepted.of_same (h : Accepted P w image) (hs : SameImage w.ota t)
    (hlive : live t = live w.ota) (hbytes : t.receivedBytes = w.ota.receivedBytes)
    (stream : List UInt8) : Accepted P ⟨t,stream,w.delivered⟩ image where
  length := h.length.trans hbytes.symm
  delivered := h.delivered
  stored := h.stored.of_same hs hlive

theorem Inv.goes (hin : w.ota.inProgress = true) (h : Good P c w) : Inv P c w where
  good := fun _ => h
  staged := fun hstop => absurd (hin.symm.trans hstop) (by decide)

/-- While the machine does not listen the connection and the timeout are of no account. -/
theorem Inv.ignored (h : Inv P c w) (hl : ¬Listening w.ota) (phase : Phase) (timer : Bool)
    (stream : List UInt8) :
    Inv P c ⟨{ w.ota with phase := phase, timeoutTimer := timer },stream,w.delivered⟩ where
  good := by
    intro hin
    have hg := h.good hin
    obtain ⟨image,ha⟩ := hg.accepted
    have hpending : w.ota.retryPending = true := by
      by_contra hp
      exact hl ⟨hin,Bool.eq_false_iff.mpr hp⟩
    have haccepted := ha.of_same (t := { w.ota with phase := phase, timeoutTimer := timer })
      ⟨rfl,rfl,rfl,rfl,rfl,rfl,rfl⟩ rfl rfl stream
    refine ⟨⟨image,haccepted⟩,hg.size,?_,hg.armed,hg.unstaged,hg.command⟩
    intro hp
    exact absurd (hpending.symm.trans hp) (by decide)
  staged := by
    intro hin rom hm
    obtain ⟨hrom,hs⟩ := h.staged hin rom hm
    exact ⟨hrom,hs.size_ge,hs.size_le,hs.bytes,hs.digest⟩

theorem not_listening {s : State P} (h : ¬Listening s) : (!s.inProgress || s.retryPending) = true := by
  by_contra hne
  rw [Bool.not_eq_true,Bool.or_eq_false_iff,Bool.not_eq_false'] at hne
  exact h ⟨hne.1,hne.2⟩

theorem Good.reconnect (h : Good P c w) {u : State P} (hu : Listening u) (ha : Alike w.ota u)
    (hbytes : u.receivedBytes = w.ota.receivedBytes) (hlog : Unstaged w.ota → Unstaged u)
    (reason : RetryReason) : Inv P c { w with ota := otaTriggerReconnect u reason } :=
  h.givesUp (otaTriggerReconnect_from hu ha hbytes hlog reason) _

theorem Good.dnsFound (h : Good P c w) (hl : Listening w.ota) {found connectOk : Bool}
    (hidle : connectOk = true → w.ota.phase = .idle) :
    Inv P c { w with ota := otaDnsFoundCb w.ota found connectOk } := by
  have hlistening : ∀ timer, Listening { w.ota with dnsPending := false, timeoutTimer := timer } :=
    fun _ => ⟨hl.inProgress,hl.retryPending⟩
  rw [otaDnsFoundCb,hl.guard,if_neg Bool.false_ne_true]
  cases found with
  | false =>
    exact h.reconnect (hlistening false) ⟨rfl,rfl,rfl,rfl,rfl,rfl⟩ rfl id .dns
  | true =>
    cases connectOk with
    | false =>
      exact h.reconnect (hlistening false) ⟨rfl,rfl,rfl,rfl,rfl,rfl⟩ rfl id .tcp
    | true =>
      obtain ⟨image,ha⟩ := h.accepted
      have haccepted := ha.of_same (t := { w.ota with dnsPending := false, phase := .connecting })
        ⟨rfl,rfl,rfl,rfl,rfl,rfl,rfl⟩ rfl rfl w.stream
      have hquiet := (h.connection hl.retryPending).quiet (by rw [hidle rfl]; decide)
      show Inv P c ⟨{ w.ota with dnsPending := false, phase := .connecting },w.stream,w.delivered⟩
      refine Inv.goes hl.inProgress ⟨⟨image,haccepted⟩,h.size,fun _ => ⟨fun _ => hquiet,?_,?_⟩,
        h.armed,h.unstaged,h.command⟩
      · exact fun hphase => absurd hphase (by simp)
      · exact fun hphase => absurd hphase (by simp)

theorem Good.dnsGethostbyname (h : Good P c w) (hl : Listening w.ota)
    (hidle : w.ota.phase = .idle) (dns : DnsResult) :
    Inv P c { w with ota := dnsGethostbyname w.ota dns } := by
  cases dns with
  | ok connectOk => exact h.dnsFound hl fun _ => hidle
  | inProgress => exact Inv.goes hl.inProgress h
  | error =>
    have hlistening : Listening { w.ota with dnsPending := false, timeoutTimer := false } :=
      ⟨hl.inProgress,hl.retryPending⟩
    exact h.reconnect hlistening ⟨rfl,rfl,rfl,rfl,rfl,rfl⟩ rfl id .dns

theorem Inv.idle (h : Inv P c w) (hin : w.ota.inProgress = false) (hstop : t.inProgress = false)
    (hflash : t.flash = w.ota.flash) (hsize : t.firmwareSize = w.ota.firmwareSize)
    (hlog : t.log = w.ota.log) (stream : List UInt8) : Inv P c ⟨t,stream,w.delivered⟩ where
  good := fun h => absurd (hstop.symm.trans h) (by decide)
  staged := by
    intro _ rom hm
    rw [hlog] at hm
    obtain ⟨hrom,hs⟩ := h.staged hin rom hm
    refine ⟨hrom,?_,?_,?_,?_⟩
    · exact hsize ▸ hs.size_ge
    · exact hsize ▸ hs.size_le
    · intro i hi
      rw [hflash]
      exact hs.bytes i (hsize ▸ hi)
    · rw [hflash,hsize]
      exact hs.digest

/-- The next attempt: the writer goes on if the range continues, else whole sectors are kept. -/
theorem Inv.retry (h : Inv P c w) (harmed : w.ota.retryTimer = true) (dns : DnsResult) :
    Inv P c (worldNext P w (.retry dns)) := by
  show Inv P c ⟨otaRetryTimerCb { w.ota with retryTimer := false } dns,w.stream,w.delivered⟩
  rw [otaRetryTimerCb]
  by_cases hin : w.ota.inProgress = true
  · have hg := h.good hin
    have hpending := hg.armed harmed
    rw [if_neg (by simp [hin])]
    obtain ⟨image,ha⟩ := hg.accepted
    generalize hu : ({ w.ota with
      retryTimer := false
      continuePending := false
      retryPending := false
      headersParsed := false
      isValidBinary := w.ota.continuePending && w.ota.isValidBinary
      headerBuffer := []
      responseLength := 0
      responseReceivedBytes := 0
      responseLengthKnown := false
      responseStatusCode := 0
      responseRangeEnd := 0
      responseRangeTotal := 0
      responseRangeValid := false
      phase := .idle
      timeoutTimer := true
      dnsPending := true } : State P) = u
    have hlive : live u = live w.ota := by
      rw [← hu,live,live,hpending]
      simp [Bool.and_comm]
    have haccepted := ha.of_same (t := u) (by rw [← hu]; exact ⟨rfl,rfl,rfl,rfl,rfl,rfl,rfl⟩) hlive
      (by rw [← hu]) w.stream
    have hgood : Good P c ⟨u,w.stream,w.delivered⟩ := by
      refine ⟨⟨image,haccepted⟩,?_,fun _ => ⟨fun _ => ?_,?_,?_⟩,?_,?_,?_⟩
      · rw [← hu]
        exact hg.size
      · rw [← hu]
        exact ⟨rfl,rfl⟩
      · rw [← hu]
        exact fun hphase => absurd hphase (by simp)
      · rw [← hu]
        exact fun hphase => absurd hphase (by simp)
      · rw [← hu]
        exact fun harmed => absurd harmed (by simp)
      · rw [← hu]
        exact hg.unstaged
      · rw [← hu]
        exact hg.command
    have hlistening : Listening u := by
      rw [← hu]
      exact ⟨hin,rfl⟩
    have hidle : u.phase = .idle := by rw [← hu]
    have hdns := hgood.dnsGethostbyname hlistening hidle dns
    rw [← hu] at hdns
    exact hdns
  · rw [if_pos (by simpa using hin)]
    have hstop : w.ota.inProgress = false := Bool.eq_false_iff.mpr hin
    exact h.idle (t := { w.ota with retryTimer := false }) hstop hstop rfl rfl rfl w.stream

theorem Inv.connected (h : Inv P c w) (hphase : w.ota.phase = .connecting) (sendOk : Bool) :
    Inv P c (worldNext P w (.connected sendOk)) := by
  show Inv P c ⟨otaTcpConnectCb { w.ota with phase := .established } sendOk,[],w.delivered⟩
  rw [otaTcpConnectCb]
  by_cases hl : Listening w.ota
  · have hg := h.good hl.inProgress
    obtain ⟨image,ha⟩ := hg.accepted
    obtain ⟨hheaders,hbuffer⟩ := (hg.connection hl.retryPending).quiet (by rw [hphase]; decide)
    rw [if_neg (by simp [hl.inProgress,hl.retryPending])]
    generalize hu : ({ w.ota with
      phase := .established
      dnsPending := false
      requestOffset := w.ota.receivedBytes
      responseReceivedBytes := 0
      responseLength := 0
      responseLengthKnown := false
      responseStatusCode := 0
      responseRangeEnd := 0
      responseRangeTotal := 0
      responseRangeValid := false } : State P).post
        (.send (requestText w.ota.url w.ota.receivedBytes)) = u
    have hunstaged : Unstaged u := by
      rw [← hu]
      exact Unstaged.post hg.unstaged fun _ => by simp
    have hlistening : Listening u := by
      rw [← hu]
      exact ⟨hl.inProgress,hl.retryPending⟩
    cases sendOk with
    | true =>
      have haccepted := ha.of_same (t := u) (by rw [← hu]; exact ⟨rfl,rfl,rfl,rfl,rfl,rfl,rfl⟩)
        (by rw [← hu]; rfl) (by rw [← hu]; rfl) []
      have hgood : Good P c ⟨u,[],w.delivered⟩ := by
        refine ⟨⟨image,haccepted⟩,?_,fun _ => ⟨fun hno => ?_,fun _ _ => ?_,fun _ hbody => ?_⟩,?_,
          hunstaged,?_⟩
        · rw [← hu]
          exact hg.size
        · rw [← hu] at hno
          exact absurd rfl hno
        · rw [← hu]
          exact ⟨hbuffer,show 0 < 1023 by decide,show totalHeaderSize [] = none by decide,rfl⟩
        · rw [← hu] at hbody
          exact absurd (hheaders.symm.trans hbody) (by decide)
        · rw [← hu]
          exact hg.armed
        · rw [← hu]
          exact hg.command
      have hgoes := Inv.goes hlistening.inProgress hgood
      rw [← hu] at hgoes
      exact hgoes
    | false =>
      have hlistening' : Listening { u with timeoutTimer := false } :=
        ⟨hlistening.inProgress,hlistening.retryPending⟩
      have halike : Alike w.ota { u with timeoutTimer := false } := by
        rw [← hu]
        exact ⟨rfl,rfl,rfl,rfl,rfl,rfl⟩
      have hgoes := hg.givesUp
        (otaTriggerReconnect_from hlistening' halike (by rw [← hu]; rfl) (fun _ => hunstaged) .tcp).abort []
      rw [← hu] at hgoes
      exact hgoes
  · have hguard := not_listening hl
    rw [if_pos hguard]
    exact h.ignored hl _ w.ota.timeoutTimer _

end Invariant

end Ota
end MeterLogger
