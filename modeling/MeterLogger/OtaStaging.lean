import MeterLogger.OtaReceive

/-!
# Staging

What the end of a connection, an error or a timer does to the download, and the integrity of
what is staged: along every run the slot that is to be booted holds the image of the server.
-/

namespace MeterLogger
namespace Ota

open CStrings FlashWriter OtaHeader Runs

variable {P : Platform} {c : Command} {w : World P}

section Disconnect

variable {s t : State P}

theorem announceSuccess_log (s : State P) (rom : ℕ) :
    .setTempRom rom ∈ (announceSuccess s).log ↔ .setTempRom rom ∈ s.log := by
  rw [announceSuccess]
  split <;> simp [State.report]

theorem announceSuccess_flash (s : State P) : (announceSuccess s).flash = s.flash := by
  rw [announceSuccess]
  split <;> rfl

theorem announceSuccess_firmwareSize (s : State P) :
    (announceSuccess s).firmwareSize = s.firmwareSize := by
  rw [announceSuccess]
  split <;> rfl

theorem shaMatched_spec (h : shaMatched P s = true) :
    (if s.targetRom = 0 then s.expectedSha256₁ else s.expectedSha256₂) =
      some (P.sha256 s.shaCtx) := by
  rw [shaMatched] at h
  split at h
  · rename_i hrom
    rw [if_pos hrom.1]
    exact (of_decide_eq_true h).symm
  · split at h
    · rename_i hrom
      rw [if_neg (by rw [hrom.1]; decide)]
      exact (of_decide_eq_true h).symm
    · exact absurd h (by decide)

theorem Good.finished (h : Good P c w) (hl : Listening w.ota) (hc : complete w.ota = true)
    (hsha : w.ota.hasSha256 = true → shaMatched P w.ota = true) (hflash : t.flash =
      P.writer.finish w.ota.status w.ota.flash) (hsize : t.firmwareSize = w.ota.firmwareSize) :
    Staged P c ⟨t,w.stream,w.delivered⟩ := by
  rw [complete] at hc
  simp only [Bool.and_eq_true,decide_eq_true_eq] at hc
  obtain ⟨⟨⟨⟨hvalid,_⟩,_⟩,hknown⟩,hfull⟩ := hc
  obtain ⟨image,hlen,hdel,hstored⟩ := h.accepted
  have hlive : live w.ota = true := by
    rw [live,hvalid,hl.retryPending]
    rfl
  rw [Stored,if_pos hlive] at hstored
  have hrom : w.ota.targetRom = c.targetRom := congrArg Command.targetRom h.command
  have hholds := hstored.writing.finish (P.roms_aligned _)
  rw [← hflash,hrom] at hholds
  obtain ⟨hge,hle⟩ := h.size hknown
  have hlength : image.length = w.ota.firmwareSize := hlen.trans hfull
  refine ⟨hsize ▸ hge,hsize ▸ hle,?_,?_⟩
  · intro i hi
    rw [hsize,← hlength] at hi
    rw [hdel i hi]
    exact congrArg some (hholds i hi).symm
  · intro hany
    have hhas : w.ota.hasSha256 = true := by
      rw [← h.command] at hany
      rw [State.hasSha256,Bool.or_eq_true]
      exact hany
    have hmatch := shaMatched_spec (hsha hhas)
    have hread := hholds.readFlash_eq
    rw [hlength,← hsize] at hread
    show _ = some (P.sha256 (readFlash t.flash (P.roms c.targetRom) t.firmwareSize))
    rw [hread,← hstored.hashed hhas,← hmatch,← h.command]
    rfl

theorem checkImage_sha (h : checkImage P s = none) (hsha : s.hasSha256 = true) :
    shaMatched P s = true := by
  rw [checkImage] at h
  split at h
  · cases h
  · split at h
    · cases h
    · rw [hsha,Bool.true_and] at h
      cases hm : shaMatched P s with
      | true => rfl
      | false =>
        rw [hm] at h
        cases h

/-- What staging does: the download ends, and the slot is set that was written. -/
structure Committed (s t : State P) : Prop where
  inProgress : t.inProgress = false
  flash : t.flash = s.flash
  firmwareSize : t.firmwareSize = s.firmwareSize
  setTempRom : ∀ {rom}, .setTempRom rom ∈ t.log → .setTempRom rom ∈ s.log ∨ rom = s.targetRom

theorem commitImage_spec (io : StageIo) (s : State P) : Committed s (commitImage io s) := by
  have hpost : ∀ {rom}, .setTempRom rom ∈ (s.post (.setTempRom s.targetRom)).log →
      .setTempRom rom ∈ s.log ∨ rom = s.targetRom := by
    intro rom hm
    rw [post_log,List.mem_append,List.mem_singleton,Action.setTempRom.injEq] at hm
    exact hm
  rw [commitImage]
  split
  · exact ⟨rfl,rfl,rfl,fun hm => hpost ((otaFailUpdate_log _ _ _).mp hm)⟩
  · have hflash := announceSuccess_flash (s.post (.setTempRom s.targetRom))
    have hsize := announceSuccess_firmwareSize (s.post (.setTempRom s.targetRom))
    have hlog := announceSuccess_log (s.post (.setTempRom s.targetRom))
    generalize announceSuccess (s.post (.setTempRom s.targetRom)) = t at hflash hsize hlog
    refine ⟨rfl,hflash,hsize,fun {rom} hm => hpost ((hlog rom).mp ?_)⟩
    have hlast := List.mem_append.mp hm
    rw [List.mem_singleton] at hlast
    exact hlast.resolve_right (by simp)

@[simp] theorem finishWriter_flash (s : State P) :
    (finishWriter P s).flash = P.writer.finish s.status s.flash := rfl

@[simp] theorem finishWriter_firmwareSize (s : State P) :
    (finishWriter P s).firmwareSize = s.firmwareSize := rfl

@[simp] theorem finishWriter_receivedBytes (s : State P) :
    (finishWriter P s).receivedBytes = s.receivedBytes := rfl

@[simp] theorem finishWriter_hasSha256 (s : State P) :
    (finishWriter P s).hasSha256 = s.hasSha256 := rfl

theorem stageImage_spec (io : StageIo) (s : State P) :
    Stopped s (stageImage P io s) ∨
      (s.hasSha256 = true → shaMatched P s = true) ∧
        Committed (finishWriter P s) (stageImage P io s) := by
  have hunstaged : ∀ f : Flash, Unstaged s →
      Unstaged { (otaCleanupTimers s).post (.writeSectors (P.writer.finishSectors s.status)) with
        flash := f } := fun _ hu => Unstaged.post (s := otaCleanupTimers s) hu fun _ => by simp
  rw [stageImage]
  split
  · exact Or.inl (otaFailUpdate_stopped (hunstaged _) _ _)
  · dsimp only
    cases hcheck : checkImage P (finishWriter P s) with
    | some error => exact Or.inl (otaFailUpdate_stopped (hunstaged _) _ _)
    | none => exact Or.inr ⟨checkImage_sha hcheck,commitImage_spec io _⟩

theorem Good.stage (h : Good P c w) (hl : Listening w.ota) (hc : complete w.ota = true)
    (io : StageIo) :
    Inv P c ⟨stageImage P io { w.ota with phase := .idle, timeoutTimer := false },w.stream,
      w.delivered⟩ := by
  rcases stageImage_spec io { w.ota with phase := .idle, timeoutTimer := false } with
    hstop | ⟨hsha,hcommit⟩
  · exact Inv.stopped hstop.inProgress (hstop.unstaged h.unstaged) _ _
  · refine ⟨fun hin => absurd (hin.symm.trans hcommit.inProgress) (by decide),fun _ rom hm => ⟨?_,?_⟩⟩
    · rcases hcommit.setTempRom hm with hold | hnew
      · have hlast := List.mem_append.mp hold
        rw [List.mem_singleton] at hlast
        exact absurd (hlast.resolve_right (by simp)) (h.unstaged rom)
      · exact hnew.trans (congrArg Command.targetRom h.command)
    · exact h.finished hl hc hsha (hcommit.flash.trans (finishWriter_flash _))
        (hcommit.firmwareSize.trans (finishWriter_firmwareSize _))

theorem Good.continues (h : Good P c w) (hl : Listening w.ota) :
    Inv P c ⟨otaScheduleRangeContinue { w.ota with phase := .idle, timeoutTimer := false },w.stream,
      w.delivered⟩ := by
  obtain ⟨image,ha⟩ := h.accepted
  have hlive : (w.ota.isValidBinary && (!true || true)) = live w.ota := by
    rw [live,hl.retryPending]
    rfl
  have haccepted := ha.of_same (t := { w.ota with
    phase := .idle
    dnsPending := false
    continuePending := true
    retryPending := true
    timeoutTimer := false
    retryTimer := true }) ⟨rfl,rfl,rfl,rfl,rfl,rfl,rfl⟩ hlive rfl w.stream
  rw [otaScheduleRangeContinue,if_neg (by simp [hl.inProgress,hl.retryPending])]
  refine Inv.goes hl.inProgress ⟨⟨image,haccepted⟩,h.size,fun hp => ?_,fun _ => rfl,h.unstaged,
    h.command⟩
  exact absurd hp (by simp)

theorem Inv.disconnected (h : Inv P c w) (io : StageIo) :
    Inv P c (worldNext P w (.disconnected io)) := by
  show Inv P c ⟨otaTcpDisconCb P io { w.ota with phase := .idle },w.stream,w.delivered⟩
  by_cases hl : Listening w.ota
  · have hg := h.good hl.inProgress
    have hlistening : ∀ seen, Listening { w.ota with
        phase := .idle, timeoutTimer := false, tcpFailureSeen := seen } :=
      fun _ => ⟨hl.inProgress,hl.retryPending⟩
    rw [otaTcpDisconCb,hl.guard,if_neg Bool.false_ne_true,endResponse]
    split
    · rename_i hc
      exact hg.stage hl hc io
    · split
      · exact hg.reconnect (hlistening _) ⟨rfl,rfl,rfl,rfl,rfl,rfl⟩ rfl id .incompleteHttpResponse
      · split
        · exact hg.reconnect (hlistening true) ⟨rfl,rfl,rfl,rfl,rfl,rfl⟩ rfl id .tcp
        · split
          · exact hg.continues hl
          · exact hg.reconnect (hlistening _) ⟨rfl,rfl,rfl,rfl,rfl,rfl⟩ rfl id .other
  · rw [otaTcpDisconCb,if_pos (not_listening hl)]
    exact h.ignored hl _ w.ota.timeoutTimer _

end Disconnect

theorem Inv.connectionError (h : Inv P c w) : Inv P c (worldNext P w .connectionError) := by
  show Inv P c ⟨otaTcpReconCb { w.ota with phase := .idle },w.stream,w.delivered⟩
  by_cases hl : Listening w.ota
  · have hg := h.good hl.inProgress
    have hlistening : Listening { w.ota with
        phase := .idle, timeoutTimer := false, tcpFailureSeen := true } :=
      ⟨hl.inProgress,hl.retryPending⟩
    rw [otaTcpReconCb,if_neg (by simp [hl.inProgress,hl.retryPending])]
    dsimp only
    split
    · exact hg.reconnect hlistening ⟨rfl,rfl,rfl,rfl,rfl,rfl⟩ rfl id .incompleteHttpResponse
    · exact hg.reconnect hlistening ⟨rfl,rfl,rfl,rfl,rfl,rfl⟩ rfl id .tcp
  · rw [otaTcpReconCb,if_pos (not_listening hl)]
    exact h.ignored hl _ w.ota.timeoutTimer _

theorem Inv.timeout (h : Inv P c w) : Inv P c (worldNext P w .timeout) := by
  show Inv P c ⟨otaTimeoutTimerCb { w.ota with timeoutTimer := false },w.stream,w.delivered⟩
  by_cases hl : Listening w.ota
  · have hg := h.good hl.inProgress
    have hfrom : ∀ seen reason, GivesUp w.ota (otaTriggerReconnect { w.ota with
        timeoutTimer := false, dnsPending := false, tcpFailureSeen := seen } reason) := by
      intro seen reason
      apply otaTriggerReconnect_from
      · exact ⟨hl.inProgress,hl.retryPending⟩
      · exact ⟨rfl,rfl,rfl,rfl,rfl,rfl⟩
      · rfl
      · exact id
    rw [otaTimeoutTimerCb,if_neg (by simp [hl.inProgress,hl.retryPending])]
    dsimp only
    cases hdns : w.ota.dnsPending with
    | true => exact hg.givesUp (hfrom _ .dns) _
    | false =>
      simp only [Bool.not_false,Bool.true_and,Bool.false_eq_true,if_false]
      split
      · exact hg.givesUp (hfrom true .incompleteHttpResponse).abort _
      · exact hg.givesUp (hfrom _ .tcp).abort _
  · rw [otaTimeoutTimerCb,if_pos (not_listening hl)]
    exact h.ignored hl w.ota.phase false _

theorem Inv.progress (h : Inv P c w) : Inv P c (worldNext P w .progress) := by
  show Inv P c ⟨otaProgressTimerCb w.ota,w.stream,w.delivered⟩
  rw [otaProgressTimerCb]
  split
  · exact h
  · rename_i hguard
    have hin : w.ota.inProgress = true := by
      cases hin : w.ota.inProgress with
      | true => rfl
      | false => exact absurd (by simp [hin]) hguard
    dsimp only
    split
    · exact h
    · have hg := h.good hin
      have hunstaged := hg.unstaged.post (a := .status (ascii "flashing_" ++
        Decimal.decimal (w.ota.receivedBytes*100/w.ota.firmwareSize%256) ++ ascii "%")) fun _ => by simp
      exact Inv.goes hin (hg.touched w.ota.timeoutTimer _ hunstaged)

theorem Inv.dnsFound (h : Inv P c w) {found connectOk : Bool}
    (hidle : connectOk = true → w.ota.phase = .idle) :
    Inv P c (worldNext P w (.dnsFound found connectOk)) := by
  show Inv P c { w with ota := otaDnsFoundCb w.ota found connectOk }
  by_cases hl : Listening w.ota
  · exact (h.good hl.inProgress).dnsFound hl hidle
  · rw [otaDnsFoundCb,if_pos (not_listening hl)]
    exact h

theorem Inv.step (h : Inv P c w) {e : Event} {w' : World P} (hs : worldStep P w e w') :
    Inv P c w' := by
  obtain ⟨henabled,rfl⟩ := hs
  cases e with
  | dnsFound found connectOk => exact h.dnsFound henabled
  | connected sendOk => exact h.connected henabled sendOk
  | received data io => exact h.received henabled data io
  | disconnected io => exact h.disconnected io
  | connectionError => exact h.connectionError
  | timeout => exact h.timeout
  | retry dns => exact h.retry henabled dns
  | progress => exact h.progress

section Start

variable {s t : State P}

theorem setDigests_log (s : State P) (hex₁ hex₂ : Option (List UInt8)) :
    (setDigests s hex₁ hex₂).1.log = s.log := by
  rw [setDigests]
  split
  · rfl
  · dsimp only
    split <;> rfl

theorem setDigests_spec (hex₁ hex₂ : Option (List UInt8)) (h : (setDigests s hex₁ hex₂).2 = true) :
    ∃ digest₁ digest₂, otaParseSha256 hex₁ = some digest₁ ∧ otaParseSha256 hex₂ = some digest₂ ∧
      (setDigests s hex₁ hex₂).1 =
        { s with expectedSha256₁ := digest₁, expectedSha256₂ := digest₂ } := by
  rw [setDigests] at h ⊢
  rcases h₁ : otaParseSha256 hex₁ with _ | digest₁
  · rw [h₁] at h
    exact absurd h (by simp)
  · rw [h₁] at h
    dsimp only at h ⊢
    rcases h₂ : otaParseSha256 hex₂ with _ | digest₂
    · rw [h₂] at h
      exact absurd h (by simp)
    · exact ⟨digest₁,digest₂,rfl,rfl,rfl⟩

def targetSlot (a : StartArgs) : ℕ := if a.lastBootRom.getD a.currentRom = 0 then 1 else 0

/-- Nothing has been received. -/
structure Fresh (s : State P) : Prop where
  listening : Listening s
  retryTimer : s.retryTimer = false
  isValidBinary : s.isValidBinary = false
  receivedBytes : s.receivedBytes = 0
  firmwareSizeKnown : s.firmwareSizeKnown = false
  quiet : s.headersParsed = false ∧ s.headerBuffer = []
  unstaged : Unstaged s

theorem Fresh.good (h : Fresh s) (hphase : s.phase = .idle) :
    Good P (commandOf s) ⟨s,[],fun _ => none⟩ where
  accepted := by
    refine ⟨[],h.receivedBytes.symm,fun i hi => absurd hi (Nat.not_lt_zero i),?_⟩
    rw [Stored,live,h.isValidBinary]
    exact ⟨rfl,Holds.nil _ _⟩
  size := fun hknown => absurd (hknown.symm.trans h.firmwareSizeKnown) (by decide)
  connection := fun _ => ⟨fun _ => h.quiet,
    fun hno => absurd (hphase.symm.trans hno) (by decide),
    fun hno => absurd (hphase.symm.trans hno) (by decide)⟩
  armed := fun harmed => absurd (harmed.symm.trans h.retryTimer) (by decide)
  unstaged := h.unstaged
  command := rfl

theorem Fresh.of_command (h : Fresh s) (digest₁ digest₂ : Option (List UInt8)) (rom : ℕ)
    (ctx : List UInt8) : Fresh { s with
      expectedSha256₁ := digest₁, expectedSha256₂ := digest₂, targetRom := rom, shaCtx := ctx } :=
  ⟨⟨h.listening.inProgress,h.listening.retryPending⟩,h.retryTimer,h.isValidBinary,
    h.receivedBytes,h.firmwareSizeKnown,h.quiet,h.unstaged⟩

theorem selectTarget_fresh (h : Fresh s) (a : StartArgs) : Fresh (selectTarget s a) := by
  rw [selectTarget]
  split
  · exact h.of_command _ _ _ _
  · exact h.of_command _ _ _ _

theorem selectTarget_command (s : State P) (a : StartArgs) :
    commandOf (selectTarget s a) = ⟨targetSlot a,s.expectedSha256₁,s.expectedSha256₂⟩ := by
  rw [selectTarget]
  split <;> rfl

theorem resolveHost_good (h : Fresh s) (url : Url) :
    Good P (commandOf s) ⟨resolveHost s url,[],fun _ => none⟩ ∧ Listening (resolveHost s url) := by
  have hfresh : Fresh (resolveHost s url) :=
    ⟨⟨h.listening.inProgress,h.listening.retryPending⟩,h.retryTimer,h.isValidBinary,
      h.receivedBytes,h.firmwareSizeKnown,h.quiet,h.unstaged⟩
  exact ⟨hfresh.good rfl,hfresh.listening⟩

/-- A started download keeps to its command; a malformed command starts none. -/
theorem startOtaUpdate_inv (hs : Unstaged s) (a : StartArgs) :
    Stopped s (startOtaUpdate s a).1 ∨
      ∃ digest₁ digest₂, otaParseSha256 a.hexSha256₁ = some digest₁ ∧
        otaParseSha256 a.hexSha256₂ = some digest₂ ∧
        Inv P ⟨targetSlot a,digest₁,digest₂⟩ ⟨(startOtaUpdate s a).1,[],fun _ => none⟩ := by
  have hreset : Fresh (resetForStart s) :=
    ⟨⟨rfl,rfl⟩,rfl,rfl,rfl,rfl,⟨rfl,rfl⟩,Unstaged.post hs fun _ => by simp⟩
  have hlog := setDigests_log (resetForStart s) a.hexSha256₁ a.hexSha256₂
  have hspec := setDigests_spec (s := resetForStart s) a.hexSha256₁ a.hexSha256₂
  rw [startOtaUpdate]
  rcases hset : setDigests (resetForStart s) a.hexSha256₁ a.hexSha256₂ with ⟨t,_ | _⟩
  · rw [hset] at hlog
    dsimp only at hlog ⊢
    exact Or.inl (otaFailUpdate_stopped (fun _ rom hm => hreset.unstaged rom (hlog ▸ hm)) _ _)
  · rw [hset] at hspec
    obtain ⟨digest₁,digest₂,h₁,h₂,ht⟩ := hspec rfl
    dsimp only at ht ⊢
    have hselected : Fresh (selectTarget t a) := by
      apply selectTarget_fresh
      rw [ht]
      exact hreset.of_command _ _ _ _
    have hcommand : commandOf (selectTarget t a) = ⟨targetSlot a,digest₁,digest₂⟩ := by
      rw [selectTarget_command,ht]
    cases hurl : a.url.bind parseUrl with
    | none =>
      dsimp only
      exact Or.inl (otaFailUpdate_stopped (fun _ => hselected.unstaged) _ _)
    | some url =>
      obtain ⟨hgood,hlistening⟩ := resolveHost_good hselected url
      rw [hcommand] at hgood
      exact Or.inr ⟨digest₁,digest₂,h₁,h₂,hgood.dnsGethostbyname hlistening rfl a.dns⟩

theorem started_inv (s : State P) (a : StartArgs) : ∃ c, Inv P c (started s a) := by
  have hclear : Unstaged { s with log := [] } := fun _ => List.not_mem_nil
  rcases startOtaUpdate_inv hclear a with hstop | ⟨digest₁,digest₂,_,_,hinv⟩
  · exact ⟨⟨targetSlot a,none,none⟩,Inv.stopped hstop.inProgress (hstop.unstaged hclear) _ _⟩
  · exact ⟨_,hinv⟩

end Start

section Clean

variable {s : State P} {header image : List UInt8} {io : FlashIo} {rom n : ℕ}

/-- The whole image has been requested. -/
structure Requested (s : State P) (phase : Phase) (rom : ℕ) : Prop where
  listening : Listening s
  phase : s.phase = phase
  targetRom : s.targetRom = rom
  headersParsed : s.headersParsed = false
  headerBuffer : s.headerBuffer = []
  hasSha256 : s.hasSha256 = false

/-- A full response with the image. -/
structure Reply (header image : List UInt8) : Prop where
  size : totalHeaderSize ((header ++ image).take (otaMaxHeaderSize-1)) = some header.length
  status : otaParseStatusCode header = some 200
  length : contentLength header = some image.length
  size_ge : minFirmwareSize ≤ image.length
  size_le : image.length ≤ maxFirmwareSize
  magic : image.headD 0 = 0xE9 ∨ image.headD 0 = 0xEA

/-- No operation on the flash fails. -/
structure Reliable (io : FlashIo) : Prop where
  eraseOk : io.eraseOk = true
  writeOk : io.writeOk = true

/-- The header of a full response has been accepted. -/
structure Awaiting (s : State P) (rom n : ℕ) : Prop where
  listening : Listening s
  phase : s.phase = .established
  targetRom : s.targetRom = rom
  hasSha256 : s.hasSha256 = false
  receivedBytes : s.receivedBytes = 0
  responseLengthKnown : s.responseLengthKnown = true
  responseLength : s.responseLength = n
  responseReceivedBytes : s.responseReceivedBytes = 0
  firmwareSizeKnown : s.firmwareSizeKnown = true
  firmwareSize : s.firmwareSize = n

/-- The image is with the writer, completely. -/
structure Received (s : State P) (rom n : ℕ) : Prop where
  listening : Listening s
  phase : s.phase = .established
  targetRom : s.targetRom = rom
  hasSha256 : s.hasSha256 = false
  complete : complete s = true
  receivedBytes : s.receivedBytes = n
  firmwareSize : s.firmwareSize = n

theorem acceptHeader_reply (h : Reply header image) (hl : Listening s)
    (hphase : s.phase = .established) (hrom : s.targetRom = rom) (hsha : s.hasSha256 = false) :
    ∃ t, acceptHeader s header = (t,none) ∧ Awaiting t rom image.length ∧ t.isValidBinary = false := by
  have hrange : ¬(image.length < minFirmwareSize ∨ maxFirmwareSize < image.length) := by
    have hge := h.size_ge
    have hle := h.size_le
    omega
  have hkind : ¬((200 : ℕ) ≠ 200 ∧ (200 : ℕ) ≠ 206) := by decide
  rw [acceptHeader,h.status]
  dsimp only
  rw [if_neg hkind,h.length]
  dsimp only
  rw [acceptResponse,if_pos rfl,acceptWhole,if_neg hrange]
  exact ⟨_,rfl,⟨⟨hl.inProgress,hl.retryPending⟩,hphase,hrom,hsha,rfl,rfl,rfl,rfl,rfl,rfl⟩,rfl⟩

theorem receiveHeader_reply (h : Reply header image) (hs : Requested s .established rom) :
    ∃ t, receiveHeader s (header ++ image) = (t,some image) ∧ Awaiting t rom image.length ∧
      t.isValidBinary = false := by
  have hshort : s.headerBuffer.length < otaMaxHeaderSize-1 := by
    rw [hs.headerBuffer]
    decide
  have hle := (totalHeaderSize_spec h.size).1
  rw [List.length_take] at hle
  have htake : ((header ++ image).take (otaMaxHeaderSize-1)).take header.length = header := by
    rw [List.take_take,Nat.min_eq_left (by omega),List.take_left]
  rw [receiveHeader,if_neg (by simp [hs.headersParsed]),collectHeader_eq hshort,hs.headerBuffer,
    List.nil_append]
  dsimp only
  rw [h.size]
  dsimp only
  rw [endHeader,acceptHeader_take h.size,htake]
  obtain ⟨t,ht,hawait⟩ := acceptHeader_reply (s := { s with
      headerBuffer := (header ++ image).take (otaMaxHeaderSize-1) }) h
    ⟨hs.listening.inProgress,hs.listening.retryPending⟩ hs.phase hs.targetRom hs.hasSha256
  refine ⟨t,?_,hawait⟩
  rw [ht]
  dsimp only
  rw [if_neg (by simp),if_neg (by simp),List.length_nil,Nat.sub_zero,List.drop_left]

theorem startWriter_reply (hsha : s.hasSha256 = false) {magicByte : UInt8}
    (hmagic : magicByte = 0xE9 ∨ magicByte = 0xEA) (hio : Reliable io) :
    startWriter P io s magicByte = (initWriter P (eraseFirst P s),none) := by
  have hrehash : otaRehashFlash io (initWriter P (eraseFirst P s)) = some s.shaCtx := by
    have hsha' : ¬(initWriter P (eraseFirst P s)).hasSha256 = true :=
      fun hno => absurd (hsha.symm.trans hno) (by decide)
    rw [otaRehashFlash,if_neg hsha']
    rfl
  rw [startWriter,if_neg (by rcases hmagic with rfl | rfl <;> simp)]
  dsimp only
  rw [hio.eraseOk,if_neg (show ¬(!true) = true from Bool.false_ne_true),hrehash]
  rfl

theorem Awaiting.write (h : Awaiting s rom image.length) (hvalid : s.isValidBinary = true)
    (hio : Reliable io) : Received (writeBody P io s image) rom image.length := by
  have hbytes : s.receivedBytes+image.length = image.length := by rw [h.receivedBytes,Nat.zero_add]
  have hresponse : s.responseReceivedBytes+image.length = s.responseLength := by
    rw [h.responseReceivedBytes,Nat.zero_add,h.responseLength]
  rw [writeBody,h.hasSha256,hio.writeOk,if_neg Bool.false_ne_true,
    if_neg (show ¬(!true) = true from Bool.false_ne_true)]
  refine ⟨⟨h.listening.inProgress,h.listening.retryPending⟩,h.phase,h.targetRom,h.hasSha256,?_,
    hbytes,h.firmwareSize⟩
  show (s.isValidBinary && s.responseLengthKnown && decide (s.responseReceivedBytes+image.length =
    s.responseLength) && s.firmwareSizeKnown &&
    decide (s.receivedBytes+image.length = s.firmwareSize)) = true
  rw [hbytes,hresponse,h.firmwareSize,h.responseLengthKnown,h.firmwareSizeKnown,hvalid]
  simp

theorem Awaiting.body_eq (h : Awaiting s rom image.length) (hvalid : s.isValidBinary = false)
    (hpos : 0 < image.length) (hmax : image.length ≤ maxFirmwareSize)
    (hmagic : image.headD 0 = 0xE9 ∨ image.headD 0 = 0xEA) (hio : Reliable io) :
    receiveBody P io s image = writeBody P io (initWriter P (eraseFirst P s)) image := by
  have hne : image ≠ [] := List.ne_nil_of_length_pos hpos
  have hstart := startWriter_reply (P := P) h.hasSha256 hmagic hio
  rw [receiveBody,if_neg hne,if_neg,if_neg,if_neg (by simp [hvalid]),hstart]
  · rw [h.firmwareSizeKnown,h.firmwareSize,h.receivedBytes]
    simp only [Bool.not_true,Bool.false_eq_true,false_or]
    omega
  · rw [h.responseLengthKnown,h.responseLength,h.responseReceivedBytes]
    simp only [Bool.not_true,Bool.false_eq_true,false_or]
    omega

theorem Awaiting.body (h : Awaiting s rom image.length) (hvalid : s.isValidBinary = false)
    (hpos : 0 < image.length) (hmax : image.length ≤ maxFirmwareSize)
    (hmagic : image.headD 0 = 0xE9 ∨ image.headD 0 = 0xEA) (hio : Reliable io) :
    Received (receiveBody P io s image) rom image.length := by
  have hstarted : Awaiting (initWriter P (eraseFirst P s)) rom image.length :=
    ⟨⟨h.listening.inProgress,h.listening.retryPending⟩,h.phase,h.targetRom,h.hasSha256,
      h.receivedBytes,h.responseLengthKnown,h.responseLength,h.responseReceivedBytes,
      h.firmwareSizeKnown,h.firmwareSize⟩
  rw [h.body_eq hvalid hpos hmax hmagic hio]
  exact hstarted.write rfl hio

theorem otaTcpRecvCb_reply (h : Reply header image) (hs : Requested s .established rom)
    (hio : Reliable io) :
    Received (otaTcpRecvCb P io s (header ++ image)) rom image.length := by
  have hrequested : Requested { s with timeoutTimer := true } .established rom :=
    ⟨⟨hs.listening.inProgress,hs.listening.retryPending⟩,hs.phase,hs.targetRom,hs.headersParsed,
      hs.headerBuffer,hs.hasSha256⟩
  obtain ⟨t,ht,hawait,hvalid⟩ := receiveHeader_reply h hrequested
  have hpos : 0 < image.length := Nat.lt_of_lt_of_le (by decide) h.size_ge
  rw [otaTcpRecvCb,hs.listening.guard,if_neg Bool.false_ne_true]
  dsimp only
  rw [ht]
  exact hawait.body hvalid hpos h.size_le h.magic hio

theorem commitImage_log (io : StageIo) (s : State P) :
    .setTempRom s.targetRom ∈ (commitImage io s).log := by
  have hpost : .setTempRom s.targetRom ∈ (s.post (.setTempRom s.targetRom)).log := by
    rw [post_log]
    exact List.mem_append_right _ (List.mem_singleton_self _)
  rw [commitImage]
  split
  · exact (otaFailUpdate_log _ _ _).mpr hpost
  · have hlog := announceSuccess_log (s.post (.setTempRom s.targetRom)) s.targetRom
    generalize announceSuccess (s.post (.setTempRom s.targetRom)) = t at hlog
    exact List.mem_append_left _ (hlog.mpr hpost)

/-- When the connection of a complete download ends, its image passes the checks. -/
theorem otaTcpDisconCb_commits (h : Received s rom n) (hn : minFirmwareSize ≤ n) {io : StageIo}
    (hend : io.endOk = true) : otaTcpDisconCb P io { s with phase := .idle } =
      commitImage io (finishWriter P { s with phase := .idle, timeoutTimer := false }) := by
  have hcheck : checkImage P (finishWriter P { s with phase := .idle, timeoutTimer := false }) = none := by
    have hbytes : ¬n < minFirmwareSize := by omega
    have hsha : State.hasSha256 { s with phase := .idle, timeoutTimer := false } = false := h.hasSha256
    rw [checkImage,finishWriter_receivedBytes,finishWriter_firmwareSize,finishWriter_hasSha256,hsha,
      h.receivedBytes,h.firmwareSize,if_neg hbytes,if_neg (not_not.mpr rfl),Bool.false_and]
    rfl
  rw [otaTcpDisconCb,if_neg (by simp [h.listening.inProgress,h.listening.retryPending]),endResponse,
    if_pos (show complete { s with phase := .idle, timeoutTimer := false } = true from h.complete),
    stageImage,hend,if_neg (show ¬(!true) = true from Bool.false_ne_true)]
  dsimp only
  rw [hcheck]

theorem otaTcpDisconCb_received (h : Received s rom n) (hn : minFirmwareSize ≤ n) {io : StageIo}
    (hend : io.endOk = true) :
    .setTempRom rom ∈ (otaTcpDisconCb P io { s with phase := .idle }).log := by
  rw [otaTcpDisconCb_commits h hn hend,← h.targetRom]
  exact commitImage_log io (finishWriter P { s with phase := .idle, timeoutTimer := false })

/-- A command without digests, when the host resolves at once and the connection opens. -/
theorem startOtaUpdate_connecting {a : StartArgs} {url : Url} (hurl : a.url.bind parseUrl = some url)
    (h₁ : a.hexSha256₁ = none) (h₂ : a.hexSha256₂ = none) (hdns : a.dns = .ok true) :
    Requested (startOtaUpdate s a).1 .connecting (targetSlot a) := by
  rw [startOtaUpdate,h₁,h₂,setDigests,otaParseSha256]
  dsimp only
  rw [hurl,hdns]
  exact ⟨⟨rfl,rfl⟩,rfl,rfl,rfl,rfl,rfl⟩

theorem otaTcpConnectCb_requested {phase : Phase} (h : Requested s phase rom) :
    Requested (otaTcpConnectCb { s with phase := .established } true) .established rom := by
  rw [otaTcpConnectCb,if_neg (by simp [h.listening.inProgress,h.listening.retryPending])]
  exact ⟨⟨h.listening.inProgress,h.listening.retryPending⟩,rfl,h.targetRom,h.headersParsed,
    h.headerBuffer,h.hasSha256⟩

/-- A clean download: the slot that was not booted last is set for the next boot. -/
theorem clean_download (s : State P) {a : StartArgs} {url : Url}
    (hurl : a.url.bind parseUrl = some url) (h₁ : a.hexSha256₁ = none) (h₂ : a.hexSha256₂ = none)
    (hdns : a.dns = .ok true) (hr : Reply header image) (hio : Reliable io) {stage : StageIo}
    (hend : stage.endOk = true) :
    ∃ w, Run (worldStep P) (started s a)
        [.connected true,.received (header ++ image) io,.disconnected stage] w ∧
      .setTempRom (targetSlot a) ∈ w.ota.log := by
  have hstart := startOtaUpdate_connecting (s := { s with log := [] }) hurl h₁ h₂ hdns
  generalize hw₀ : started s a = w₀
  have hota : w₀.ota = (startOtaUpdate { s with log := [] } a).1 := by rw [← hw₀,started]
  rw [← hota] at hstart
  have hrequested : Requested (worldNext P w₀ (.connected true)).ota .established (targetSlot a) :=
    otaTcpConnectCb_requested hstart
  generalize hw₁ : worldNext P w₀ (.connected true) = w₁ at hrequested
  have hreceived : Received (worldNext P w₁ (.received (header ++ image) io)).ota (targetSlot a)
      image.length := by
    rw [worldNext,hrequested.listening.guard,if_neg Bool.false_ne_true]
    exact otaTcpRecvCb_reply hr hrequested hio
  generalize hw₂ : worldNext P w₁ (.received (header ++ image) io) = w₂ at hreceived
  refine ⟨worldNext P w₂ (.disconnected stage),?_,?_⟩
  · apply Run.cons (t := w₁) ⟨hstart.phase,hw₁.symm⟩
    apply Run.cons (t := w₂) ⟨hrequested.phase,hw₂.symm⟩
    exact Run.single ⟨hreceived.phase,rfl⟩
  · exact otaTcpDisconCb_received hreceived hr.size_ge hend

end Clean

theorem Inv.run (hi : Inv P c w) {es : List Event} {w' : World P}
    (h : Run (worldStep P) w es w') : Inv P c w' := by
  apply h.invariant
  · exact fun _ _ _ h hs => h.step hs
  · exact hi

theorem Inv.of_log (h : Inv P c w) {rom : ℕ} (hm : .setTempRom rom ∈ w.ota.log) :
    rom = c.targetRom ∧ Staged P c w := by
  cases hin : w.ota.inProgress with
  | true => exact absurd hm ((h.good hin).unstaged rom)
  | false => exact h.staged hin rom hm

/-- In every run of the callbacks after a command, a slot that is set for the next boot holds the
bytes that the server delivered last, and its digest is right if any digest was given. -/
theorem staged_intact (s : State P) (a : StartArgs) {es : List Event} {w : World P}
    (h : Run (worldStep P) (started s a) es w) {rom : ℕ} (hm : .setTempRom rom ∈ w.ota.log) :
    rom = targetSlot a ∧
      ∃ digest₁ digest₂, otaParseSha256 a.hexSha256₁ = some digest₁ ∧
        otaParseSha256 a.hexSha256₂ = some digest₂ ∧ Staged P ⟨rom,digest₁,digest₂⟩ w := by
  have hclear : Unstaged { s with log := [] } := fun _ => List.not_mem_nil
  rcases startOtaUpdate_inv hclear a with hstop | ⟨digest₁,digest₂,h₁,h₂,hinv⟩
  · have hnone : ∀ slot : ℕ, rom = slot := by
      intro slot
      have hstart : Inv P ⟨slot,none,none⟩ (started s a) :=
        Inv.stopped hstop.inProgress (hstop.unstaged hclear) _ _
      exact ((hstart.run h).of_log hm).1
    exact absurd ((hnone 0).symm.trans (hnone 1)) (by decide)
  · obtain ⟨rfl,hstaged⟩ := (Inv.run (w := started s a) hinv h).of_log hm
    exact ⟨rfl,digest₁,digest₂,h₁,h₂,hstaged⟩

/-- The slots of a 1 MB flash, with the writer of `FlashWriter`. -/
def samplePlatform : Platform where
  writer := Buffered.writer
  roms := fun rom => if rom = 0 then 0x2000 else 0x82000
  roms_aligned := by
    intro rom
    split <;> rfl
  sha256 := fun _ => []

def sampleArgs : StartArgs where
  url := some (ascii "http://update.local/fw.bin")
  hexSha256₁ := none
  hexSha256₂ := none
  lastBootRom := some 0
  currentRom := 0
  dns := .ok true

def sampleHeader : List UInt8 := ascii "HTTP/1.0 200 OK\r\nContent-Length: 102400\r\n\r\n"

def sampleImage : List UInt8 := List.replicate 102400 0xE9

def sampleIo : FlashIo := ⟨true,fun _ => true,true,fun _ => 0xFF⟩

def sampleStage : StageIo := ⟨true,fun _ => 0xFF,true⟩

theorem sampleReply : Reply sampleHeader sampleImage where
  size := by
    have hheader : totalHeaderSize sampleHeader = some sampleHeader.length := by decide
    rw [List.take_append,List.take_of_length_le (show sampleHeader.length ≤ otaMaxHeaderSize-1 by decide)]
    exact totalHeaderSize_append hheader _
  status := by decide
  length := by
    rw [sampleImage,List.length_replicate]
    decide
  size_ge := by
    rw [sampleImage,List.length_replicate]
    decide
  size_le := by
    rw [sampleImage,List.length_replicate]
    decide
  magic := Or.inl rfl

theorem staged_intact_sample : ∃ w, Run (worldStep samplePlatform)
    (started (State.boot samplePlatform fun _ => 0xFF) sampleArgs)
    [.connected true,.received (sampleHeader ++ sampleImage) sampleIo,.disconnected sampleStage] w ∧
    .setTempRom 1 ∈ w.ota.log ∧ Staged samplePlatform ⟨1,none,none⟩ w := by
  have hurl : sampleArgs.url.bind parseUrl =
      some ⟨ascii "update.local",80,ascii "update.local",ascii "/fw.bin"⟩ := by decide
  have hio : Reliable sampleIo := ⟨rfl,rfl⟩
  have hend : sampleStage.endOk = true := rfl
  obtain ⟨w,hrun,hm⟩ := clean_download (State.boot samplePlatform fun _ => 0xFF) hurl rfl rfl rfl
    sampleReply hio hend
  obtain ⟨_,digest₁,digest₂,h₁,h₂,hstaged⟩ := staged_intact _ sampleArgs hrun hm
  obtain rfl : none = digest₁ := Option.some.inj h₁
  obtain rfl : none = digest₂ := Option.some.inj h₂
  exact ⟨w,hrun,hm,hstaged⟩

end Ota
end MeterLogger
