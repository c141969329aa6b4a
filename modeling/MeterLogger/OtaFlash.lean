import MeterLogger.OtaFailure

/-!
# Accesses to the flash

Whatever a callback erases or writes lies in the slot of the command, and only received bytes
and the end of a complete download touch the flash at all. This holds for the callbacks in any
order, also those of a connection that has been aborted.
-/

namespace MeterLogger
namespace Ota

open CStrings FlashWriter OtaHeader Runs

variable {P : Platform} {rom : ℕ}

/-- The sectors that an action may erase or write. -/
def touched : Action → List ℕ
  | .eraseSector sector => [sector]
  | .writeSectors sectors => sectors
  | _ => []

/-- The sector lies in the part of a slot that an image may take. -/
def InSlot (P : Platform) (rom sector : ℕ) : Prop :=
  P.roms rom ≤ sector*sectorSize ∧ sector*sectorSize < P.roms rom+maxFirmwareSize

/-- An action that leaves the flash alone and does not restart the device. -/
def calm : Action → Bool
  | .eraseSector _ => false
  | .writeSectors _ => false
  | .restartDefered => false
  | _ => true

/-- What has been done since meets the condition. -/
def Does (p : Action → Prop) (s t : State P) : Prop :=
  ∃ new, t.log = s.log ++ new ∧ ∀ a ∈ new, p a

/-- What has been done since touches the slot only. -/
def Within (P : Platform) (rom : ℕ) (s t : State P) : Prop :=
  Does (fun a => ∀ sector ∈ touched a, InSlot P rom sector) s t

def Quiet (s t : State P) : Prop := Does (fun a => calm a = true) s t

section Logs

variable {p q : Action → Prop} {s t u : State P}

theorem Does.of_log (h : t.log = s.log) : Does p s t :=
  ⟨[],by rw [h,List.append_nil],fun _ hm => absurd hm List.not_mem_nil⟩

theorem Does.trans (h : Does p s t) (h' : Does p t u) : Does p s u := by
  obtain ⟨new,hnew,hall⟩ := h
  obtain ⟨new',hnew',hall'⟩ := h'
  refine ⟨new ++ new',by rw [hnew',hnew,List.append_assoc],?_⟩
  intro a hm
  rcases List.mem_append.mp hm with hm | hm
  · exact hall a hm
  · exact hall' a hm

theorem Does.post (h : Does p s t) {a : Action} (ha : p a) : Does p s (t.post a) := by
  refine h.trans ⟨[a],post_log t a,?_⟩
  intro b hm
  rw [List.mem_singleton.mp hm]
  exact ha

theorem Does.mono (h : Does p s t) (hpq : ∀ a, p a → q a) : Does q s t := by
  obtain ⟨new,hnew,hall⟩ := h
  exact ⟨new,hnew,fun a hm => hpq a (hall a hm)⟩

theorem Does.drop (h : Does p s t) {a : Action} (hm : a ∈ t.log.drop s.log.length) : p a := by
  obtain ⟨new,hnew,hall⟩ := h
  rw [hnew,List.drop_left] at hm
  exact hall a hm

theorem Quiet.of_log (h : t.log = s.log) : Quiet s t := Does.of_log h

theorem Quiet.post (h : Quiet s t) {a : Action} (ha : calm a = true) : Quiet s (t.post a) :=
  Does.post h ha

theorem Quiet.report (h : Quiet s t) (text : String) : Quiet s (t.report text) := h.post rfl

theorem Quiet.fail (h : Quiet s t) (status : String) (b : Bool) :
    Quiet s (otaFailUpdate t status b) := by
  have hfail : Quiet s (otaFailUpdate t status false) :=
    (h.post (a := .startScan) rfl).post (a := .status (ascii status)) rfl
  cases b with
  | false => exact hfail
  | true => exact hfail.post (a := .abort) rfl

theorem calm_touched {a : Action} (h : calm a = true) : touched a = [] := by
  cases a <;> first | rfl | exact absurd h Bool.false_ne_true

theorem Quiet.within (h : Quiet s t) : Within P rom s t := by
  apply h.mono
  intro a ha sector hm
  rw [calm_touched ha] at hm
  exact absurd hm List.not_mem_nil

theorem Quiet.unrestarted (h : Quiet s t) : Does (· ≠ .restartDefered) s t := by
  apply h.mono
  intro a ha hno
  rw [hno] at ha
  exact absurd ha Bool.false_ne_true

theorem Within.post (h : Within P rom s t) {a : Action}
    (ha : ∀ sector ∈ touched a, InSlot P rom sector) : Within P rom s (t.post a) := Does.post h ha

theorem Within.quiet (h : Within P rom s t) {a : Action} (ha : touched a = []) :
    Within P rom s (t.post a) := by
  apply h.post
  rw [ha]
  exact fun _ hm => absurd hm List.not_mem_nil

end Logs

/-- A writer that goes on is in the slot of the command, behind what has been accepted. -/
def Placed (s : State P) : Prop := s.inProgress = true → live s = true → ∃ old new,
  s.status = P.writer.advance (P.writer.init (P.roms s.targetRom+old)) new ∧
    s.receivedBytes = old+new.length ∧ s.receivedBytes ≤ maxFirmwareSize

/-- A step that keeps to the slot of the command. -/
structure Careful (s t : State P) : Prop where
  targetRom : t.inProgress = true → s.inProgress = true ∧ t.targetRom = s.targetRom
  placed : Placed s → Placed t
  within : Placed s → Within P s.targetRom s t
  unrestarted : t.inProgress = true → Does (· ≠ .restartDefered) s t

namespace Careful

variable {s t u : State P}

theorem trans (h : Careful s t) (hrom : t.targetRom = s.targetRom) (h' : Careful t u) :
    Careful s u where
  targetRom := by
    intro hin
    obtain ⟨hin',hu⟩ := h'.targetRom hin
    obtain ⟨hs,ht⟩ := h.targetRom hin'
    exact ⟨hs,hu.trans ht⟩
  placed := fun hs => h'.placed (h.placed hs)
  within := fun hs => (h.within hs).trans (hrom ▸ h'.within (h.placed hs))
  unrestarted := fun hin => (h.unrestarted (h'.targetRom hin).1).trans (h'.unrestarted hin)

theorem same (hin : t.inProgress = s.inProgress) (hrom : t.targetRom = s.targetRom)
    (hlive : live t = true → live s = true) (hstatus : t.status = s.status)
    (hbytes : t.receivedBytes = s.receivedBytes) (hquiet : Quiet s t) : Careful s t where
  targetRom := fun h => ⟨hin ▸ h,hrom⟩
  placed := by
    intro hs ht hl
    obtain ⟨old,new,hadvance,hlen,hmax⟩ := hs (hin ▸ ht) (hlive hl)
    exact ⟨old,new,by rw [hstatus,hadvance,hrom],by rw [hbytes,hlen],by rw [hbytes]; exact hmax⟩
  within := fun _ => hquiet.within
  unrestarted := fun _ => hquiet.unrestarted

theorem dead (hin : t.inProgress = true → s.inProgress = true ∧ t.targetRom = s.targetRom)
    (hlive : live t = false) (hquiet : Quiet s t) : Careful s t where
  targetRom := hin
  placed := fun _ _ hl => absurd (hl.symm.trans hlive) (by decide)
  within := fun _ => hquiet.within
  unrestarted := fun _ => hquiet.unrestarted

theorem ended (hin : t.inProgress = false) (hwithin : Placed s → Within P s.targetRom s t) :
    Careful s t where
  targetRom := fun h => absurd (h.symm.trans hin) (by decide)
  placed := fun _ h => absurd (h.symm.trans hin) (by decide)
  within := hwithin
  unrestarted := fun h => absurd (h.symm.trans hin) (by decide)

theorem refl (s : State P) : Careful s s := same rfl rfl id rfl rfl (Quiet.of_log rfl)

theorem abort (h : Careful s t) : Careful s (espconnAbort t) where
  targetRom := h.targetRom
  placed := h.placed
  within := fun hs => (h.within hs).quiet (a := .abort) rfl
  unrestarted := fun hin => (h.unrestarted hin).post (a := .abort) (by simp)

end Careful

section Failures

variable {s t u : State P}

theorem otaFailUpdate_careful (h : Placed s → Within P s.targetRom s u) (status : String)
    (b : Bool) : Careful s (otaFailUpdate u status b) := by
  have hfail : Careful s (otaFailUpdate u status false) := Careful.ended rfl
    fun hs => ((h hs).quiet (a := .startScan) rfl).quiet (a := .status (ascii status)) rfl
  cases b with
  | false => exact hfail
  | true => exact hfail.abort

theorem reportExhausted_quiet (s : State P) : Quiet s (reportExhausted s) := by
  have hif : ∀ (b : Bool) (u : State P) (text : String),
      Quiet s u → Quiet s (if b then u.report text else u) := by
    intro b u text hu
    cases b
    · exact hu
    · exact hu.report text
  have hall := hif s.otherFailureSeen _ "error_incomplete_firmware"
    (hif s.incompleteHttpResponseSeen _ "error_incomplete_http_response"
      (hif s.tcpFailureSeen _ "error_tcp_connection"
        (hif s.dnsFailureSeen s "error_dns_resolution" (Quiet.of_log rfl))))
  rw [reportExhausted]
  split
  · exact hall
  · exact hall.report _

theorem otaTriggerReconnect_careful (s : State P) (reason : RetryReason) :
    Careful s (otaTriggerReconnect s reason) := by
  have hafter : ∀ u : State P, u.inProgress = s.inProgress → u.targetRom = s.targetRom →
      u.continuePending = false → u.log = s.log → Careful s
        (if u.retryCount < otaMaxRetries then retryLater u reason else retryExhausted u) := by
    intro u hin hrom hcontinue hlog
    have hdead : ∀ v : State P, v.retryPending = true → v.continuePending = false →
        live v = false := by
      intro v hr hc
      rw [live,hr,hc]
      exact Bool.and_false _
    split
    · rw [retryLater]
      have hquiet : Quiet s { u with
          retryCount := u.retryCount+1
          retryPending := true
          receivedBytes := u.receivedBytes/sectorSize*sectorSize } := Quiet.of_log hlog
      split
      · exact Careful.dead (fun h => ⟨hin ▸ h,hrom⟩) (hdead _ rfl hcontinue) (hquiet.post rfl)
      · exact Careful.dead (fun h => ⟨hin ▸ h,hrom⟩) (hdead _ rfl hcontinue) hquiet
    · have hquiet : Quiet u (retryExhausted u) := reportExhausted_quiet _
      have hdone : Quiet s (retryExhausted u) := Does.trans (Quiet.of_log hlog) hquiet
      exact Careful.ended rfl fun _ => hdone.within
  rw [otaTriggerReconnect]
  split
  · exact Careful.refl s
  · apply hafter
    · cases reason <;> rfl
    · cases reason <;> rfl
    · cases reason <;> rfl
    · cases reason <;> rfl

theorem Careful.reconnect (h : Careful s t) (hrom : t.targetRom = s.targetRom)
    (reason : RetryReason) : Careful s (otaTriggerReconnect t reason) :=
  h.trans hrom (otaTriggerReconnect_careful t reason)

theorem otaDnsFoundCb_careful (s : State P) (found connectOk : Bool) :
    Careful s (otaDnsFoundCb s found connectOk) := by
  have hsame : Careful s { s with dnsPending := false, timeoutTimer := false } :=
    Careful.same rfl rfl id rfl rfl (Quiet.of_log rfl)
  rw [otaDnsFoundCb]
  split
  · exact Careful.refl s
  · cases found with
    | false => exact hsame.reconnect rfl .dns
    | true =>
      cases connectOk with
      | false => exact hsame.reconnect rfl .tcp
      | true => exact Careful.same rfl rfl id rfl rfl (Quiet.of_log rfl)

theorem dnsGethostbyname_careful (s : State P) (dns : DnsResult) :
    Careful s (dnsGethostbyname s dns) := by
  cases dns with
  | ok connectOk => exact otaDnsFoundCb_careful s true connectOk
  | inProgress => exact Careful.refl s
  | error =>
    have hsame : Careful s { s with dnsPending := false, timeoutTimer := false } :=
      Careful.same rfl rfl id rfl rfl (Quiet.of_log rfl)
    exact hsame.reconnect rfl .dns

theorem otaRetryTimerCb_careful (s : State P) (dns : DnsResult) :
    Careful s (otaRetryTimerCb s dns) := by
  rw [otaRetryTimerCb]
  split
  · exact Careful.refl s
  · refine Careful.trans ?_ ?_ (dnsGethostbyname_careful _ dns)
    · refine Careful.same rfl rfl ?_ rfl rfl (Quiet.of_log rfl)
      intro hl
      simp only [live,Bool.and_eq_true] at hl
      rw [live,hl.1.1,hl.1.2]
      simp
    · rfl

theorem otaTimeoutTimerCb_careful (s : State P) : Careful s (otaTimeoutTimerCb s) := by
  have hsame : ∀ seen, Careful s { s with
      dnsPending := false, timeoutTimer := false, tcpFailureSeen := seen } :=
    fun _ => Careful.same rfl rfl id rfl rfl (Quiet.of_log rfl)
  rw [otaTimeoutTimerCb]
  split
  · exact Careful.refl s
  · dsimp only
    cases s.dnsPending with
    | true => exact (hsame s.tcpFailureSeen).reconnect rfl .dns
    | false =>
      simp only [Bool.not_false,Bool.true_and,Bool.false_eq_true,if_false]
      split
      · exact ((hsame true).reconnect rfl .incompleteHttpResponse).abort
      · exact ((hsame s.tcpFailureSeen).reconnect rfl .tcp).abort

theorem otaProgressTimerCb_careful (s : State P) : Careful s (otaProgressTimerCb s) := by
  rw [otaProgressTimerCb]
  split
  · exact Careful.refl s
  · dsimp only
    split
    · exact Careful.refl s
    · exact Careful.same rfl rfl id rfl rfl ((Quiet.of_log rfl).post rfl)

theorem otaTcpConnectCb_careful (s : State P) (sendOk : Bool) :
    Careful s (otaTcpConnectCb s sendOk) := by
  rw [otaTcpConnectCb]
  split
  · exact Careful.refl s
  · have hsent : ∀ timeout, Careful s { State.post { s with
        dnsPending := false
        requestOffset := s.receivedBytes
        responseReceivedBytes := 0
        responseLength := 0
        responseLengthKnown := false
        responseStatusCode := 0
        responseRangeEnd := 0
        responseRangeTotal := 0
        responseRangeValid := false } (.send (requestText s.url s.receivedBytes)) with
        timeoutTimer := timeout } :=
      fun _ => Careful.same rfl rfl id rfl rfl ((Quiet.of_log rfl).post rfl)
    cases sendOk with
    | true => exact hsent s.timeoutTimer
    | false => exact ((hsent false).reconnect rfl .tcp).abort

theorem otaTcpReconCb_careful (s : State P) : Careful s (otaTcpReconCb s) := by
  have hsame : Careful s { s with timeoutTimer := false, tcpFailureSeen := true } :=
    Careful.same rfl rfl id rfl rfl (Quiet.of_log rfl)
  rw [otaTcpReconCb]
  split
  · exact Careful.refl s
  · dsimp only
    split
    · exact hsame.reconnect rfl _
    · exact hsame.reconnect rfl _

end Failures

section Receiving

variable {s t : State P} {io : FlashIo} {data : List UInt8}

theorem inSlot_of_le {old n sector : ℕ} (hle : (P.roms rom+old)/sectorSize ≤ sector)
    (hlt : sector*sectorSize < P.roms rom+n) (hn : n ≤ maxFirmwareSize) : InSlot P rom sector := by
  have haligned := P.roms_aligned rom
  rw [InSlot]
  simp only [sectorSize] at *
  omega

theorem writeBody_careful (hin : s.inProgress = true) (hl : live s = true)
    (hmax : s.receivedBytes+data.length ≤ maxFirmwareSize) : Careful s (writeBody P io s data) := by
  rw [writeBody]
  generalize hu : (if s.hasSha256 then { s with shaCtx := s.shaCtx ++ data } else s) = u
  obtain ⟨hin',hrom,hlog,hstatus,hbytes⟩ : u.inProgress = s.inProgress ∧
      u.targetRom = s.targetRom ∧ u.log = s.log ∧ u.status = s.status ∧
      u.receivedBytes = s.receivedBytes := by
    rw [← hu]
    split
    · exact ⟨rfl,rfl,rfl,rfl,rfl⟩
    · exact ⟨rfl,rfl,rfl,rfl,rfl⟩
  have hposted : Placed s → Within P s.targetRom s
      (u.post (.writeSectors (P.writer.sectors u.status data))) := by
    intro hs
    obtain ⟨old,new,hadvance,hlen,_⟩ := hs hin hl
    apply Within.post
    · exact (Quiet.of_log hlog).within
    · intro sector hm
      rw [touched,hstatus,hadvance] at hm
      obtain ⟨hle,hlt⟩ := P.writer.sectors_within _ _ _ sector hm
      exact inSlot_of_le hle (n := s.receivedBytes+data.length) (by omega) hmax
  split
  · apply otaFailUpdate_careful
    exact hposted
  · have hunrestarted : Does (· ≠ .restartDefered) s
        (u.post (.writeSectors (P.writer.sectors u.status data))) :=
      (Does.of_log hlog).post (by simp)
    refine ⟨fun h => ⟨hin' ▸ h,hrom⟩,?_,hposted,fun _ => hunrestarted⟩
    intro hs _ _
    obtain ⟨old,new,hadvance,hlen,_⟩ := hs hin hl
    refine ⟨old,new ++ data,?_,?_,?_⟩
    · show P.writer.advance u.status data =
        P.writer.advance (P.writer.init (P.roms u.targetRom+old)) (new ++ data)
      rw [hstatus,hrom,hadvance,P.writer.advance_append]
    · show u.receivedBytes+data.length = old+(new ++ data).length
      rw [hbytes,hlen,List.length_append,Nat.add_assoc]
    · show u.receivedBytes+data.length ≤ maxFirmwareSize
      rw [hbytes]
      exact hmax

theorem startWriter_careful (hin : s.inProgress = true) (hmax : s.receivedBytes < maxFirmwareSize)
    (io : FlashIo) (magicByte : UInt8) :
    Within P s.targetRom s (startWriter P io s magicByte).1 ∧
      ((startWriter P io s magicByte).2 = none →
        Careful s (startWriter P io s magicByte).1 ∧
          (startWriter P io s magicByte).1.targetRom = s.targetRom ∧
          (startWriter P io s magicByte).1.receivedBytes = s.receivedBytes ∧
          (startWriter P io s magicByte).1.isValidBinary = true ∧
          (startWriter P io s magicByte).1.retryPending = s.retryPending) := by
  have hslot : InSlot P s.targetRom ((P.roms s.targetRom+s.receivedBytes)/sectorSize) := by
    have hlt : (P.roms s.targetRom+s.receivedBytes)/sectorSize*sectorSize <
        P.roms s.targetRom+(s.receivedBytes+1) :=
      Nat.lt_succ_of_le (Nat.div_mul_le_self _ _)
    exact inSlot_of_le le_rfl hlt hmax
  have herase : Within P s.targetRom s (eraseFirst P s) := by
    have hself : Within P s.targetRom s s := (Quiet.of_log rfl).within
    apply Within.post (t := { s with
      isValidBinary := true, targetBaseAddr := P.roms s.targetRom }) hself
    intro sector hm
    rw [touched,List.mem_singleton] at hm
    rw [hm]
    exact hslot
  rw [startWriter]
  split
  · exact ⟨(Quiet.of_log rfl).within,fun hno => absurd hno (by simp)⟩
  · cases io.eraseOk with
    | false => exact ⟨herase,fun hno => absurd hno (by simp)⟩
    | true =>
      rw [if_neg (show ¬(!true) = true from Bool.false_ne_true)]
      dsimp only
      cases hr : otaRehashFlash io (initWriter P (eraseFirst P s)) with
      | none => exact ⟨herase,fun hno => absurd hno (by simp)⟩
      | some ctx =>
        have hunrestarted : Does (· ≠ .restartDefered) s (eraseFirst P s) :=
          (Does.of_log (t := s) rfl).post (a := .eraseSector _) (by simp)
        refine ⟨herase,fun _ => ⟨⟨fun h => ⟨hin,rfl⟩,?_,fun _ => herase,fun _ => hunrestarted⟩,
          rfl,rfl,rfl,rfl⟩⟩
        intro _ _ _
        refine ⟨s.receivedBytes,[],?_,rfl,Nat.le_of_lt hmax⟩
        show P.writer.init (P.roms s.targetRom+s.receivedBytes) = _
        rw [P.writer.advance_nil]
        rfl

theorem receiveBody_careful (hl : Listening s) (io : FlashIo) (data : List UInt8) :
    Careful s (receiveBody P io s data) := by
  have hin := hl.inProgress
  have hquiet : Placed s → Within P s.targetRom s s := fun _ => (Quiet.of_log rfl).within
  rw [receiveBody]
  split
  · exact Careful.refl s
  · rename_i hne
    have hpos := List.length_pos_iff.mpr hne
    split
    · exact otaFailUpdate_careful hquiet _ _
    · split
      · exact otaFailUpdate_careful hquiet _ _
      · rename_i hfits
        have hmax : s.receivedBytes+data.length ≤ maxFirmwareSize := by
          simp only [not_or,Nat.not_lt] at hfits
          exact hfits.2.2.2
        split
        · rename_i hvalid
          have hlive : live s = true := by
            rw [live,hvalid,hl.retryPending]
            rfl
          exact writeBody_careful hin hlive hmax
        · have hgoes := startWriter_inProgress s io (data.headD 0)
          obtain ⟨herased,hstart⟩ := startWriter_careful hin (by omega) io (data.headD 0)
          rcases hw : startWriter P io s (data.headD 0) with ⟨u,_ | error⟩
          · rw [hw] at hgoes hstart
            obtain ⟨hcareful,hrom,hbytes,hvalid,hpending⟩ := hstart rfl
            dsimp only at hgoes hcareful hrom hbytes hvalid hpending ⊢
            have hlive : live u = true := by
              rw [live,hvalid,hpending,hl.retryPending]
              rfl
            rw [← hbytes] at hmax
            exact hcareful.trans hrom (writeBody_careful (hgoes.trans hin) hlive hmax)
          · rw [hw] at herased
            exact otaFailUpdate_careful (fun _ => herased) _ _

/-- A header that is not refused leaves the download listening. -/
def Heard (s : State P) (r : State P × Option (List UInt8)) : Prop :=
  Careful s r.1 ∧ (r.2.isSome = true → Listening r.1 ∧ r.1.targetRom = s.targetRom)

theorem Heard.none (h : Careful s t) : Heard s (t,none) :=
  ⟨h,fun hno => absurd hno Bool.false_ne_true⟩

theorem endHeader_heard (hl : Listening s) (data : List UInt8) (len total : ℕ) :
    Heard s (endHeader s data len total) := by
  obtain ⟨hlog,hspec⟩ := acceptHeader_spec s (cstr s.headerBuffer)
  rw [endHeader]
  rcases ha : acceptHeader s (cstr s.headerBuffer) with ⟨v,_ | error⟩
  · rw [ha] at hlog hspec
    obtain ⟨_,hopened,_,hkind⟩ := hspec rfl
    dsimp only at hlog hopened hkind ⊢
    have hquiet : Quiet s v := Quiet.of_log hlog
    split
    · exact Heard.none (otaFailUpdate_careful (fun _ => hquiet.within) _ _)
    · split
      · exact Heard.none (otaFailUpdate_careful (fun _ => hquiet.within) _ _)
      · have hrom : v.targetRom = s.targetRom := congrArg Command.targetRom hopened.command
        refine ⟨?_,fun _ => ⟨⟨hopened.inProgress.trans hl.inProgress,
          hopened.retryPending.trans hl.retryPending⟩,hrom⟩⟩
        rcases hkind with hwhole | hpart
        · apply Careful.dead (fun h => ⟨hopened.inProgress ▸ h,hrom⟩)
          · rw [live,hwhole.isValidBinary,Bool.false_and]
          · exact hquiet
        · exact Careful.same hopened.inProgress hrom (fun h => hpart.live ▸ h) hpart.same.status
            hpart.receivedBytes hquiet
  · rw [ha] at hlog
    have hquiet : Quiet s v := Quiet.of_log hlog
    exact Heard.none (otaFailUpdate_careful (fun _ => hquiet.within) _ _)

theorem receiveHeader_heard (hl : Listening s) (data : List UInt8) :
    Heard s (receiveHeader s data) := by
  have hcollect : Careful s (collectHeader s data) :=
    Careful.same rfl rfl id rfl rfl (Quiet.of_log rfl)
  rw [receiveHeader]
  split
  · exact ⟨Careful.refl s,fun _ => ⟨hl,rfl⟩⟩
  · dsimp only
    split
    · split
      · exact Heard.none (otaFailUpdate_careful hcollect.within _ _)
      · exact Heard.none hcollect
    · obtain ⟨hcareful,hlistens⟩ := endHeader_heard (s := collectHeader s data)
        ⟨hl.inProgress,hl.retryPending⟩ data _ _
      exact ⟨hcollect.trans rfl hcareful,hlistens⟩

theorem otaTcpRecvCb_careful (s : State P) (io : FlashIo) (data : List UInt8) :
    Careful s (otaTcpRecvCb P io s data) := by
  rw [otaTcpRecvCb]
  split
  · exact Careful.refl s
  · rename_i hguard
    simp only [Bool.or_eq_true,Bool.not_eq_true',not_or,Bool.not_eq_false,Bool.not_eq_true] at hguard
    have htimer : Careful s { s with timeoutTimer := true } :=
      Careful.same rfl rfl id rfl rfl (Quiet.of_log rfl)
    obtain ⟨hheader,hbody⟩ := receiveHeader_heard (s := { s with timeoutTimer := true })
      ⟨hguard.1,hguard.2⟩ data
    dsimp only
    rcases hr : receiveHeader { s with timeoutTimer := true } data with ⟨u,_ | body⟩
    · rw [hr] at hheader
      exact htimer.trans rfl hheader
    · rw [hr] at hheader hbody
      obtain ⟨hl,hrom⟩ := hbody rfl
      exact htimer.trans rfl (hheader.trans hrom (receiveBody_careful hl io body))

end Receiving

section Disconnect

variable {s : State P}

theorem announceSuccess_quiet (s : State P) : Quiet s (announceSuccess s) := by
  rw [announceSuccess]
  split
  · exact ((((Quiet.of_log rfl).report _).post rfl).report _)
  · exact (((Quiet.of_log rfl).post rfl).report _)

theorem commitImage_careful {u : State P} (h : Placed s → Within P s.targetRom s u) (io : StageIo) :
    Careful s (commitImage io u) := by
  have hset : Placed s → Within P s.targetRom s (u.post (.setTempRom u.targetRom)) :=
    fun hs => (h hs).quiet rfl
  rw [commitImage]
  split
  · exact otaFailUpdate_careful hset _ _
  · apply Careful.ended rfl
    intro hs
    exact Within.quiet ((hset hs).trans (announceSuccess_quiet _).within) (a := .restartDefered) rfl

theorem stageImage_careful (hin : s.inProgress = true) (hl : live s = true) (io : StageIo) :
    Careful s (stageImage P io s) := by
  have hposted : Placed s → Within P s.targetRom s
      ((otaCleanupTimers s).post (.writeSectors (P.writer.finishSectors s.status))) := by
    intro hs
    obtain ⟨old,new,hadvance,hlen,hmax⟩ := hs hin hl
    have hself : Within P s.targetRom s (otaCleanupTimers s) := (Quiet.of_log rfl).within
    apply hself.post
    intro sector hm
    rw [touched,hadvance] at hm
    obtain ⟨hle,hlt⟩ := P.writer.finishSectors_within _ _ sector hm
    exact inSlot_of_le hle (n := s.receivedBytes) (by omega) hmax
  rw [stageImage]
  split
  · apply otaFailUpdate_careful
    exact hposted
  · dsimp only
    split
    · apply otaFailUpdate_careful
      exact hposted
    · apply commitImage_careful
      exact hposted

theorem otaScheduleRangeContinue_careful (s : State P) :
    Careful s (otaScheduleRangeContinue s) := by
  rw [otaScheduleRangeContinue]
  split
  · exact Careful.refl s
  · rename_i hguard
    simp only [Bool.or_eq_true,not_or,Bool.not_eq_true] at hguard
    refine Careful.same rfl rfl ?_ rfl rfl (Quiet.of_log rfl)
    intro hlive
    simp only [live,Bool.and_eq_true] at hlive
    rw [live,hlive.1,hguard.2]
    rfl

theorem otaTcpDisconCb_careful (s : State P) (io : StageIo) :
    Careful s (otaTcpDisconCb P io s) := by
  rw [otaTcpDisconCb]
  split
  · exact Careful.refl s
  · rename_i hguard
    simp only [Bool.or_eq_true,Bool.not_eq_true',not_or,Bool.not_eq_false,Bool.not_eq_true] at hguard
    have hsame : ∀ seen, Careful s { s with timeoutTimer := false, tcpFailureSeen := seen } :=
      fun _ => Careful.same rfl rfl id rfl rfl (Quiet.of_log rfl)
    rw [endResponse]
    dsimp only
    split
    · rename_i hcomplete
      have hlive : live s = true := by
        simp only [complete,Bool.and_eq_true] at hcomplete
        rw [live,hcomplete.1.1.1.1,hguard.2]
        rfl
      exact (hsame s.tcpFailureSeen).trans rfl
        (stageImage_careful (s := { s with timeoutTimer := false }) hguard.1 hlive io)
    · split
      · exact (hsame s.tcpFailureSeen).reconnect rfl _
      · split
        · exact (hsame true).reconnect rfl _
        · split
          · exact (hsame s.tcpFailureSeen).trans rfl (otaScheduleRangeContinue_careful _)
          · exact (hsame s.tcpFailureSeen).reconnect rfl _

end Disconnect

section Events

variable {s : State P}

theorem next_careful (s : State P) (e : Event) : Careful s (next P s e) := by
  have hsame : ∀ phase timeoutTimer retryTimer, Careful s { s with
      phase := phase, timeoutTimer := timeoutTimer, retryTimer := retryTimer } :=
    fun _ _ _ => Careful.same rfl rfl id rfl rfl (Quiet.of_log rfl)
  cases e with
  | dnsFound found connectOk => exact otaDnsFoundCb_careful s found connectOk
  | connected sendOk =>
    exact (hsame .established s.timeoutTimer s.retryTimer).trans rfl
      (otaTcpConnectCb_careful _ sendOk)
  | received data io => exact otaTcpRecvCb_careful s io data
  | disconnected io =>
    exact (hsame .idle s.timeoutTimer s.retryTimer).trans rfl (otaTcpDisconCb_careful _ io)
  | connectionError =>
    exact (hsame .idle s.timeoutTimer s.retryTimer).trans rfl (otaTcpReconCb_careful _)
  | timeout =>
    exact (hsame s.phase false s.retryTimer).trans rfl (otaTimeoutTimerCb_careful _)
  | retry dns =>
    exact (hsame s.phase s.timeoutTimer false).trans rfl (otaRetryTimerCb_careful _ dns)
  | progress => exact otaProgressTimerCb_careful s

end Events

section Start

variable {s : State P}

def begins (a : StartArgs) : Bool :=
  (otaParseSha256 a.hexSha256₁).isSome && (otaParseSha256 a.hexSha256₂).isSome &&
    (a.url.bind parseUrl).isSome

theorem setDigests_ok (s : State P) (hex₁ hex₂ : Option (List UInt8)) :
    (setDigests s hex₁ hex₂).2 =
      ((otaParseSha256 hex₁).isSome && (otaParseSha256 hex₂).isSome) := by
  rw [setDigests]
  cases otaParseSha256 hex₁ with
  | none => rfl
  | some digest₁ => cases otaParseSha256 hex₂ <;> rfl

theorem startOtaUpdate_cases (s : State P) (a : StartArgs) :
    (begins a = false ∧ ∃ u status, Quiet s u ∧
      startOtaUpdate s a = (otaFailUpdate u status false,false)) ∨
    (begins a = true ∧ ∃ u, Quiet s u ∧ Placed u ∧ u.targetRom = targetSlot a ∧
      startOtaUpdate s a = (dnsGethostbyname u a.dns,true)) := by
  have hreset : Quiet s (resetForStart s) := (Quiet.of_log rfl).post (t := s) (a := .stopScan) rfl
  have hok := setDigests_ok (resetForStart s) a.hexSha256₁ a.hexSha256₂
  have hlog := setDigests_log (resetForStart s) a.hexSha256₁ a.hexSha256₂
  have hspec := setDigests_spec (s := resetForStart s) a.hexSha256₁ a.hexSha256₂
  rw [startOtaUpdate,begins,← hok]
  rcases hset : setDigests (resetForStart s) a.hexSha256₁ a.hexSha256₂ with ⟨t,_ | _⟩
  · rw [hset] at hlog
    exact Or.inl ⟨rfl,t,_,hreset.trans (Does.of_log hlog),rfl⟩
  · rw [hset] at hlog hspec
    obtain ⟨_,_,_,_,ht⟩ := hspec rfl
    dsimp only at ht ⊢
    have hselect : (selectTarget t a).log = t.log ∧ (selectTarget t a).isValidBinary = false ∧
        (selectTarget t a).targetRom = targetSlot a := by
      rw [selectTarget,ht]
      split <;> exact ⟨rfl,rfl,rfl⟩
    have hquiet : Quiet s (selectTarget t a) := hreset.trans (Does.of_log (hselect.1.trans hlog))
    cases hurl : a.url.bind parseUrl with
    | none => exact Or.inl ⟨rfl,_,_,hquiet,rfl⟩
    | some url =>
      refine Or.inr ⟨rfl,resolveHost (selectTarget t a) url,hquiet,?_,hselect.2.2,rfl⟩
      intro _ hl
      simp [live,resolveHost,hselect.2.1] at hl

theorem startOtaUpdate_careful (s : State P) (a : StartArgs) :
    Within P (targetSlot a) s (startOtaUpdate s a).1 ∧ Placed (startOtaUpdate s a).1 ∧
      ((startOtaUpdate s a).1.inProgress = true →
        (startOtaUpdate s a).1.targetRom = targetSlot a) := by
  rcases startOtaUpdate_cases s a with ⟨_,u,status,hquiet,heq⟩ | ⟨_,u,hquiet,hplaced,hrom,heq⟩
  · rw [heq]
    exact ⟨(hquiet.fail status false).within,fun hno => absurd hno Bool.false_ne_true,
      fun hno => absurd hno Bool.false_ne_true⟩
  · obtain ⟨hkeep,hstay,hwithin⟩ := dnsGethostbyname_careful u a.dns
    rw [heq]
    refine ⟨hquiet.within.trans (hrom ▸ hwithin hplaced),hstay hplaced,?_⟩
    intro hin
    exact (hkeep hin).2.trans hrom

end Start

end Ota
end MeterLogger
