import MeterLogger.OtaFlash

/-!
# Boots and commands

The device over several boots: the command that starts a download or confirms a new image, the
download, the deferred restart, and what the boot loader keeps. The boot loader is a parameter, of
which only this is assumed: a temporary boot runs the staged slot once and leaves the
configuration as it is, and the slot in RTC memory is the running one, as long as that memory is
readable.
-/

namespace MeterLogger
namespace Boot

open CStrings Decimal FlashWriter Ota Runs

variable {P : Platform}

inductive BootMode
  | standard
  | tempRom
  deriving DecidableEq

/-- The data of the boot loader in RTC memory. -/
structure RtcData where
  lastMode : BootMode
  nextMode : BootMode
  lastRom : ℕ
  tempRom : ℕ

/-- What a boot leaves: the running slot, the committed one and the data in RTC memory. -/
structure Booted where
  running : ℕ
  currentRom : ℕ
  rtc : Option RtcData

/-- The functions of the boot loader: the data behind `rboot_set_temp_rom`, and a boot, into the slot
`temp` that RTC memory asks for or without such a request. -/
structure BootLoader where
  setTempRom (rtc : Option RtcData) (running rom : ℕ) : RtcData
  start (currentRom : ℕ) (rtc : Option RtcData) (temp : Option ℕ) : Booted

/-- What is known of the boot loader. -/
structure BootLoader.Documented (B : BootLoader) : Prop where
  start_running : ∀ currentRom rtc temp,
    (B.start currentRom rtc temp).running = temp.getD currentRom
  start_currentRom : ∀ currentRom rtc temp, (B.start currentRom rtc temp).currentRom = currentRom
  start_lastRom : ∀ currentRom rtc temp, ∀ r ∈ (B.start currentRom rtc temp).rtc,
    r.lastRom = (B.start currentRom rtc temp).running
  start_lastMode : ∀ currentRom rtc rom, ∃ r ∈ (B.start currentRom rtc (some rom)).rtc,
    r.lastMode = .tempRom
  setTempRom_lastRom : ∀ rtc running rom, (∀ r ∈ rtc, r.lastRom = running) →
    (B.setTempRom rtc running rom).lastRom = running
  setTempRom_lastMode : ∀ rtc running rom,
    (B.setTempRom rtc running rom).lastMode = rtc.elim .standard RtcData.lastMode

/-- `currentRom` is the slot committed in the configuration of the boot loader; `staged` is the slot
that has been staged by a download since the boot. -/
structure Device (P : Platform) where
  ota : Ota.State P
  running : ℕ
  currentRom : ℕ
  rtc : Option RtcData
  restartPending : Bool
  staged : Option ℕ

namespace Device

def report (d : Device P) (text : List UInt8) : Device P :=
  { d with ota := d.ota.post (.status text) }

def boot (P : Platform) (flash : Flash) (rom : ℕ) : Device P where
  ota := .boot P flash
  running := rom
  currentRom := rom
  rtc := some ⟨.standard,.standard,rom,0⟩
  restartPending := false
  staged := none

end Device

/-- The command: its text, the URL and the digests that are parsed from it, and what the boot
loader and the network answer. -/
structure OtaUpdate where
  params : List UInt8
  finalUrl : List UInt8
  sha256User₁ : List UInt8
  sha256User₂ : List UInt8
  dns : DnsResult
  setCurrentOk : Bool
  setRtcOk : Bool

def confirms (c : OtaUpdate) : Bool := (strstr c.params (ascii "action=confirm")).isSome

/-- The mode and the slot of the last boot, from RTC memory if it is readable. -/
def bootMode (d : Device P) : BootMode := d.rtc.elim .standard RtcData.lastMode

def lastRom (d : Device P) : ℕ := d.rtc.elim d.currentRom RtcData.lastRom

def confirm (d : Device P) (c : OtaUpdate) : Device P :=
  let rom := lastRom d
  if bootMode d = .tempRom ∨ d.currentRom ≠ rom then
    let d := if c.setCurrentOk then { d with currentRom := rom } else d
    let d :=
      if c.setRtcOk then
        { d with rtc := d.rtc.map fun r =>
          { r with lastMode := .standard, nextMode := .standard, lastRom := rom } }
      else d
    d.report (ascii "self_test_passed_committed")
  else d.report (ascii "already_committed")

def startArgs (d : Device P) (c : OtaUpdate) : StartArgs where
  url := some c.finalUrl
  hexSha256₁ := if c.sha256User₁ = [] then none else some c.sha256User₁
  hexSha256₂ := if c.sha256User₂ = [] then none else some c.sha256User₂
  lastBootRom := d.rtc.map RtcData.lastRom
  currentRom := d.currentRom
  dns := c.dns

def startDownload (d : Device P) (c : OtaUpdate) : Device P :=
  match startOtaUpdate { d.ota with inProgress := true } (startArgs d c) with
  | (ota,true) =>
    { d with ota := ota }.report (ascii "started&target_rom=" ++ decimal (ota.targetRom+1))
  | (ota,false) =>
    let d := { d with ota := ota }.report (ascii "error_no_url")
    { d with ota := { d.ota with inProgress := false } }

def mqttRpcOtaUpdate (d : Device P) (c : OtaUpdate) : Device P :=
  if confirms c then confirm d c
  else if bootMode d = .tempRom then d.report (ascii "error_unconfirmed_temp_rom")
  else if d.ota.inProgress then d.report (ascii "error_busy")
  else startDownload d c

/-- An authenticated command is dispatched unless a download is in progress. -/
def mqttDataCb (d : Device P) (c : OtaUpdate) : Device P :=
  if d.ota.inProgress then d else mqttRpcOtaUpdate d c

/-- The next boot, into the staged slot or the committed one. -/
def reboot (B : BootLoader) (d : Device P) (temp : Option ℕ) : Device P :=
  let b := B.start d.currentRom d.rtc temp
  { ota := .boot P d.ota.flash
    running := b.running
    currentRom := b.currentRom
    rtc := b.rtc
    restartPending := false
    staged := none }

/-- The download has called `system_restart_defered`. -/
def restarts (s t : Ota.State P) : Bool := .restartDefered ∈ t.log.drop s.log.length

/-- A callback of the download; it restarts the device when it has set the slot. -/
def otaNext (P : Platform) (B : BootLoader) (d : Device P) (e : Ota.Event) : Device P :=
  let ota := next P d.ota e
  if restarts d.ota ota then
    { d with
      ota := ota
      rtc := some (B.setTempRom d.rtc d.running ota.targetRom)
      restartPending := true
      staged := some ota.targetRom }
  else { d with ota := ota }

/-- Sectors that hold the settings and the crash log. -/
def isReserved (sector : ℕ) : Bool :=
  (0x76 ≤ sector && sector < 0x7C) || (0xF8 ≤ sector && sector < 0xFC)

inductive Event
  | ota (e : Ota.Event)
  | otaUpdate (c : OtaUpdate)
  | restartDefered
  | restart (temp : Option ℕ)
  | reset (temp : Option ℕ)
  | rtcLost
  | reserved (sector : ℕ)

/-- A temporary boot is one that RTC memory asks for. -/
def Temporary (d : Device P) (temp : Option ℕ) : Prop :=
  ∀ rom, temp = some rom → ∃ r, d.rtc = some r ∧ r.nextMode = .tempRom ∧ r.tempRom = rom

/-- The restart timer fires when it is armed; a reset may come at any time, and so may any callback
of the download. -/
def Enabled (d : Device P) : Event → Prop
  | .restart temp => d.restartPending = true ∧ Temporary d temp
  | .reset temp => Temporary d temp
  | .reserved sector => isReserved sector = true
  | _ => True

def next (P : Platform) (B : BootLoader) (d : Device P) : Event → Device P
  | .ota e => otaNext P B d e
  | .otaUpdate c => mqttDataCb d c
  | .restartDefered => { d with restartPending := true }
  | .restart temp => reboot B d temp
  | .reset temp => reboot B d temp
  | .rtcLost => { d with rtc := none }
  | .reserved _ => d

def step (P : Platform) (B : BootLoader) (d : Device P) (e : Event) (t : Device P) : Prop :=
  Enabled d e ∧ t = next P B d e

/-- A sector is erased or written by the download. -/
def Touches (d t : Device P) (sector : ℕ) : Prop :=
  ∃ a ∈ t.ota.log.drop d.ota.log.length, sector ∈ touched a

/-- A sector is erased or written. -/
def Accesses (d : Device P) (e : Event) (t : Device P) (sector : ℕ) : Prop :=
  e = .reserved sector ∨ Touches d t sector

/-- The slots hold neither the settings nor the crash log. -/
def Layout (P : Platform) : Prop := ∀ rom sector, isReserved sector = true → ¬InSlot P rom sector

def downloads (d : Device P) : Event → Bool
  | .otaUpdate c =>
    !d.ota.inProgress && !confirms c && bootMode d ≠ .tempRom && begins (startArgs d c)
  | _ => false

section Steps

variable {B : BootLoader} {d t : Device P} {c : OtaUpdate} {e : Event} {sector rom : ℕ}

theorem Touches.within (h : Touches d t sector) (hw : Within P rom d.ota t.ota) :
    InSlot P rom sector := by
  obtain ⟨a,hm,hs⟩ := h
  exact hw.drop hm sector hs

theorem not_touches (h : Quiet d.ota t.ota) : ¬Touches d t sector := by
  rintro ⟨a,hm,hs⟩
  rw [calm_touched (h.drop hm)] at hs
  exact absurd hs List.not_mem_nil

theorem reboot_quiet (d : Device P) (temp : Option ℕ) : ¬Touches d (reboot B d temp) sector := by
  rintro ⟨a,hm,_⟩
  simp [reboot,State.boot] at hm

/-- What a confirmation may change. -/
structure Confirmed (d t : Device P) (c : OtaUpdate) : Prop where
  inProgress : t.ota.inProgress = d.ota.inProgress
  quiet : Quiet d.ota t.ota
  running : t.running = d.running
  staged : t.staged = d.staged
  rtc : ∀ r, t.rtc = some r → ∃ u, d.rtc = some u ∧ (r = u ∨ r.lastRom = lastRom d)
  committed : c.setCurrentOk = true → t.currentRom = lastRom d

theorem confirm_confirmed (d : Device P) (c : OtaUpdate) : Confirmed d (confirm d c) c := by
  have hquiet : ∀ text, Quiet d.ota (d.ota.post (.status text)) :=
    fun _ => (Quiet.of_log rfl).post rfl
  have hsame : ∀ r, d.rtc = some r → ∃ u, d.rtc = some u ∧ (r = u ∨ r.lastRom = lastRom d) :=
    fun r hr => ⟨r,hr,Or.inl rfl⟩
  have hset : ∀ r, (d.rtc.map fun r : RtcData =>
      { r with lastMode := .standard, nextMode := .standard, lastRom := lastRom d }) = some r →
      ∃ u, d.rtc = some u ∧ (r = u ∨ r.lastRom = lastRom d) := by
    intro r hr
    obtain ⟨u,hu,rfl⟩ := Option.map_eq_some_iff.mp hr
    exact ⟨u,hu,Or.inr rfl⟩
  rw [confirm]
  dsimp only
  split
  · cases hset' : c.setCurrentOk with
    | false =>
      have hno : c.setCurrentOk = true → d.currentRom = lastRom d :=
        fun h => absurd (h.symm.trans hset') (by decide)
      cases c.setRtcOk with
      | false => exact ⟨rfl,hquiet _,rfl,rfl,hsame,hno⟩
      | true => exact ⟨rfl,hquiet _,rfl,rfl,hset,hno⟩
    | true =>
      cases c.setRtcOk with
      | false => exact ⟨rfl,hquiet _,rfl,rfl,hsame,fun _ => rfl⟩
      | true => exact ⟨rfl,hquiet _,rfl,rfl,hset,fun _ => rfl⟩
  · rename_i hno
    rw [not_or,not_not] at hno
    exact ⟨rfl,hquiet _,rfl,rfl,hsame,fun _ => hno.2⟩

/-- What a download may change when it starts. -/
structure Started (d t : Device P) : Prop where
  running : t.running = d.running
  currentRom : t.currentRom = d.currentRom
  rtc : t.rtc = d.rtc
  staged : t.staged = d.staged
  placed : Placed t.ota
  targetRom : t.ota.inProgress = true → t.ota.targetRom = targetSlot (startArgs d c)
  within : Within P (targetSlot (startArgs d c)) d.ota t.ota

theorem startDownload_started (d : Device P) (c : OtaUpdate) :
    Started (c := c) d (startDownload d c) := by
  obtain ⟨hwithin,hplaced,hrom⟩ :=
    startOtaUpdate_careful { d.ota with inProgress := true } (startArgs d c)
  rw [startDownload]
  rcases hs : startOtaUpdate { d.ota with inProgress := true } (startArgs d c) with ⟨ota,_ | _⟩
  · rw [hs] at hwithin
    exact ⟨rfl,rfl,rfl,rfl,fun hno => absurd hno Bool.false_ne_true,
      fun hno => absurd hno Bool.false_ne_true,hwithin.quiet (a := .status _) rfl⟩
  · rw [hs] at hwithin hplaced hrom
    exact ⟨rfl,rfl,rfl,rfl,hplaced,hrom,hwithin.quiet (a := .status _) rfl⟩

theorem startDownload_refused (h : begins (startArgs d c) = false) :
    (startDownload d c).ota.inProgress = false ∧ Quiet d.ota (startDownload d c).ota := by
  rw [startDownload]
  rcases startOtaUpdate_cases { d.ota with inProgress := true } (startArgs d c) with
    ⟨_,u,status,hquiet,heq⟩ | ⟨hbegins,_⟩
  · rw [heq]
    exact ⟨rfl,(hquiet.fail status false).post (a := .status _) rfl⟩
  · exact absurd (hbegins.symm.trans h) (by decide)

/-- What a command leads to: nothing, an answer, a confirmation, or a download. -/
theorem mqttDataCb_cases (d : Device P) (c : OtaUpdate) :
    (∃ t, mqttDataCb d c = { d with ota := t } ∧ t.inProgress = d.ota.inProgress ∧
      Quiet d.ota t ∧ (t.inProgress = true → t = d.ota)) ∨
    (d.ota.inProgress = false ∧ confirms c = true ∧ mqttDataCb d c = confirm d c) ∨
    (d.ota.inProgress = false ∧ mqttDataCb d c = startDownload d c ∧
      downloads d (.otaUpdate c) = begins (startArgs d c)) := by
  rw [mqttDataCb]
  split
  · rename_i hin
    exact Or.inl ⟨d.ota,rfl,rfl,Quiet.of_log rfl,fun _ => rfl⟩
  · rename_i hin
    rw [Bool.not_eq_true] at hin
    rw [mqttRpcOtaUpdate]
    split
    · rename_i hconfirms
      exact Or.inr (Or.inl ⟨hin,hconfirms,rfl⟩)
    · rename_i hconfirms
      rw [Bool.not_eq_true] at hconfirms
      split
      · refine Or.inl ⟨_,rfl,rfl,(Quiet.of_log rfl).post rfl,?_⟩
        intro hno
        exact absurd (hno.symm.trans hin) (by decide)
      · rename_i hmode
        rw [if_neg (by rw [hin]; decide)]
        refine Or.inr (Or.inr ⟨hin,rfl,?_⟩)
        rw [downloads,hin,hconfirms]
        simp [hmode]

/-- What a callback of the download may change. -/
structure Called (B : BootLoader) (d t : Device P) (e : Ota.Event) : Prop where
  ota : t.ota = Ota.next P d.ota e
  running : t.running = d.running
  currentRom : t.currentRom = d.currentRom
  rtc : t.rtc = d.rtc ∨ ∃ rom, t.rtc = some (B.setTempRom d.rtc d.running rom)
  staged : t.staged = d.staged ∨ restarts d.ota t.ota = true

theorem otaNext_called (d : Device P) (e : Ota.Event) : Called B d (otaNext P B d e) e := by
  rw [otaNext]
  split
  · exact ⟨rfl,rfl,rfl,Or.inr ⟨_,rfl⟩,Or.inr ‹_›⟩
  · exact ⟨rfl,rfl,rfl,Or.inl rfl,Or.inl rfl⟩

theorem Called.lastRom {e : Ota.Event} (h : Called B d t e) (hB : B.Documented)
    (hrom : ∀ r ∈ d.rtc, r.lastRom = d.running) : ∀ r ∈ t.rtc, r.lastRom = t.running := by
  rw [h.running]
  rcases h.rtc with heq | ⟨rom,heq⟩
  · rw [heq]
    exact hrom
  · rw [heq]
    rintro r ⟨⟩
    exact hB.setTempRom_lastRom _ _ rom hrom

theorem Called.bootMode {e : Ota.Event} (h : Called B d t e) (hB : B.Documented) :
    bootMode t = bootMode d := by
  rw [Boot.bootMode,Boot.bootMode]
  rcases h.rtc with heq | ⟨rom,heq⟩
  · rw [heq]
  · rw [heq]
    exact hB.setTempRom_lastMode _ _ rom

theorem restarts_ends (s : Ota.State P) (e : Ota.Event)
    (h : restarts s (Ota.next P s e) = true) : (Ota.next P s e).inProgress = false := by
  rw [← Bool.not_eq_true]
  intro hin
  have hunrestarted := (next_careful s e).unrestarted hin
  exact absurd rfl (hunrestarted.drop (of_decide_eq_true h))

end Steps

section Downloads

variable {B : BootLoader} {d : Device P} {s : Ota.State P} {c : OtaUpdate} {rom n : ℕ}
  {header image : List UInt8} {io : FlashIo} {stage : StageIo}

/-- A command without digests, when the host of its URL resolves at once. -/
structure Fetches (d : Device P) (c : OtaUpdate) : Prop where
  inProgress : d.ota.inProgress = false
  confirms : confirms c = false
  bootMode : bootMode d = .standard
  url : ∃ url, parseUrl c.finalUrl = some url
  sha256User₁ : c.sha256User₁ = []
  sha256User₂ : c.sha256User₂ = []
  dns : c.dns = .ok true

theorem Requested.post {phase : Phase} (h : Requested s phase rom) (a : Action) :
    Requested (s.post a) phase rom :=
  ⟨⟨h.listening.inProgress,h.listening.retryPending⟩,h.phase,h.targetRom,h.headersParsed,
    h.headerBuffer,h.hasSha256⟩

theorem Fetches.connecting (h : Fetches d c) : ∃ o, mqttDataCb d c = { d with ota := o } ∧
    Requested o .connecting (targetSlot (startArgs d c)) := by
  obtain ⟨url,hurl⟩ := h.url
  have h₁ : (startArgs d c).hexSha256₁ = none := if_pos h.sha256User₁
  have h₂ : (startArgs d c).hexSha256₂ = none := if_pos h.sha256User₂
  have hreq := startOtaUpdate_connecting (s := { d.ota with inProgress := true })
    (a := startArgs d c) hurl h₁ h₂ h.dns
  have hmode : ¬Boot.bootMode d = .tempRom := by
    rw [h.bootMode]
    decide
  rw [mqttDataCb,h.inProgress,if_neg Bool.false_ne_true,mqttRpcOtaUpdate,h.confirms,
    if_neg Bool.false_ne_true,if_neg hmode,h.inProgress,if_neg Bool.false_ne_true,startDownload]
  rcases hs : startOtaUpdate { d.ota with inProgress := true } (startArgs d c) with ⟨o,_ | _⟩
  · have hin : o.inProgress = false := by
      rcases startOtaUpdate_cases { d.ota with inProgress := true } (startArgs d c) with
        ⟨_,u,status,_,heq⟩ | ⟨_,u,_,_,_,heq⟩
      · rw [hs] at heq
        rw [(Prod.mk.inj heq).1]
        rfl
      · rw [hs] at heq
        exact absurd (Prod.mk.inj heq).2 Bool.false_ne_true
    rw [hs] at hreq
    exact absurd (hreq.listening.inProgress.symm.trans hin) (by decide)
  · rw [hs] at hreq
    exact ⟨_,rfl,Requested.post hreq _⟩

theorem otaNext_goes {e : Ota.Event} (h : (Ota.next P d.ota e).inProgress = true) :
    otaNext P B d e = { d with ota := Ota.next P d.ota e } := by
  have hno : ¬restarts d.ota (Ota.next P d.ota e) = true :=
    fun hr => absurd (h.symm.trans (restarts_ends d.ota e hr)) (by decide)
  rw [otaNext,if_neg hno]

theorem Fetches.requested (h : Fetches d c) (ok : Device P → Event → Prop)
    (hstart : ok d (.otaUpdate c))
    (hcalls : ∀ u e, ok u (.ota e)) : ∃ o,
      Run (Guarded ok (step P B)) d [.otaUpdate c,.ota (.connected true)] { d with ota := o } ∧
      Requested o .established (targetSlot (startArgs d c)) := by
  obtain ⟨o,heq,hreq⟩ := h.connecting
  have hconnected : Requested (Ota.next P o (.connected true)) .established
      (targetSlot (startArgs d c)) := otaTcpConnectCb_requested hreq
  refine ⟨Ota.next P o (.connected true),?_,hconnected⟩
  apply Run.cons (t := { d with ota := o }) ⟨hstart,trivial,heq.symm⟩
  apply Run.single
  refine ⟨hcalls _ _,trivial,?_⟩
  exact (otaNext_goes (d := { d with ota := o }) (e := .connected true)
    hconnected.listening.inProgress).symm

theorem mem_posted {p : Action → Prop} {t : Ota.State P} (h : Does p s t) (a : Action) :
    a ∈ (t.post a).log.drop s.log.length := by
  obtain ⟨new,hnew,_⟩ := h
  rw [post_log,hnew,List.append_assoc,List.drop_left]
  exact List.mem_append_right _ (List.mem_singleton_self a)

theorem writeBody_log (hio : Reliable io) (s : Ota.State P) (data : List UInt8) :
    ∃ sectors, (writeBody P io s data).log = s.log ++ [.writeSectors sectors] := by
  rw [writeBody,hio.writeOk]
  cases s.hasSha256 with
  | false => exact ⟨_,rfl⟩
  | true => exact ⟨_,rfl⟩

theorem reply_erases (hr : Reply header image) (hs : Requested s .established rom)
    (hio : Reliable io) : .eraseSector (P.roms rom/sectorSize) ∈
      (Ota.next P s (.received (header ++ image) io)).log.drop s.log.length := by
  have hrequested : Requested { s with timeoutTimer := true } .established rom :=
    ⟨⟨hs.listening.inProgress,hs.listening.retryPending⟩,hs.phase,hs.targetRom,hs.headersParsed,
      hs.headerBuffer,hs.hasSha256⟩
  have hheard := receiveHeader_heard hrequested.listening (header ++ image)
  obtain ⟨t,ht,hawait,hvalid⟩ := receiveHeader_reply hr hrequested
  rw [ht] at hheard
  have hdoes : Does (· ≠ .restartDefered) s t := hheard.1.unrestarted hawait.listening.inProgress
  have hpos : 0 < image.length := Nat.lt_of_lt_of_le (by decide) hr.size_ge
  have herased := mem_posted hdoes (.eraseSector (P.roms rom/sectorSize))
  have hsector : (eraseFirst P t).log = (t.post (.eraseSector (P.roms rom/sectorSize))).log := by
    rw [eraseFirst,post_log,post_log,currentFlashAddr,hawait.receivedBytes,Nat.add_zero,
      hawait.targetRom]
  obtain ⟨sectors,hwritten⟩ := writeBody_log hio (initWriter P (eraseFirst P t)) image
  have hlog : (initWriter P (eraseFirst P t)).log = (eraseFirst P t).log := rfl
  rw [Ota.next,otaTcpRecvCb,hs.listening.guard,if_neg Bool.false_ne_true]
  dsimp only
  rw [ht]
  dsimp only
  rw [hawait.body_eq hvalid hpos hr.size_le hr.magic hio,hwritten,hlog,hsector,List.drop_append]
  exact List.mem_append_left _ herased

theorem announceSuccess_targetRom (s : Ota.State P) :
    (announceSuccess s).targetRom = s.targetRom := by
  rw [announceSuccess]
  split <;> rfl

theorem received_restarts (h : Received s rom n) (hn : minFirmwareSize ≤ n)
    (hend : stage.endOk = true) (hset : stage.setTempOk = true) :
    restarts s (Ota.next P s (.disconnected stage)) = true ∧
      (Ota.next P s (.disconnected stage)).targetRom = rom := by
  generalize hu : finishWriter P { s with phase := .idle, timeoutTimer := false } = u
  have hfinished : Does (fun _ => True) s u ∧ u.targetRom = s.targetRom := by
    rw [← hu]
    exact ⟨(Does.of_log (t := s) rfl).post (a := .writeSectors _) trivial,rfl⟩
  have hquiet := announceSuccess_quiet (u.post (.setTempRom u.targetRom))
  have hrom := announceSuccess_targetRom (u.post (.setTempRom u.targetRom))
  have hdone := (hfinished.1.post (a := .setTempRom u.targetRom) trivial).trans
    (hquiet.mono fun _ _ => trivial)
  rw [Ota.next,otaTcpDisconCb_commits h hn hend,hu,commitImage,hset,
    if_neg (show ¬(!true) = true from Bool.false_ne_true)]
  generalize announceSuccess (u.post (.setTempRom u.targetRom)) = t at hrom hdone
  have hends : Does (fun _ => True) s { t with inProgress := false } := hdone
  exact ⟨decide_eq_true (mem_posted hends .restartDefered),
    hrom.trans (hfinished.2.trans h.targetRom)⟩

theorem Fetches.staged (h : Fetches d c) (ok : Device P → Event → Prop)
    (hstart : ok d (.otaUpdate c))
    (hcalls : ∀ u e, ok u (.ota e)) (hr : Reply header image) (hio : Reliable io)
    (hend : stage.endOk = true) (hset : stage.setTempOk = true) : ∃ o,
      Run (Guarded ok (step P B)) d [.otaUpdate c,.ota (.connected true),
        .ota (.received (header ++ image) io),.ota (.disconnected stage)]
        { d with
          ota := o
          rtc := some (B.setTempRom d.rtc d.running (targetSlot (startArgs d c)))
          restartPending := true
          staged := some (targetSlot (startArgs d c)) } ∧
      o.inProgress = false := by
  obtain ⟨o,hrun,hreq⟩ := h.requested ok hstart hcalls
  have hreceived : Received (Ota.next P o (.received (header ++ image) io))
      (targetSlot (startArgs d c)) image.length := otaTcpRecvCb_reply hr hreq hio
  obtain ⟨hrestarts,hrom⟩ := received_restarts hreceived hr.size_ge hend hset
  have hgoes := otaNext_goes (B := B) (d := { d with ota := o }) (e := .received (header ++ image) io)
    hreceived.listening.inProgress
  generalize Ota.next P o (.received (header ++ image) io) = u at hreceived hrestarts hrom hgoes
  refine ⟨Ota.next P u (.disconnected stage),?_,restarts_ends _ _ hrestarts⟩
  have hreceive : Guarded ok (step P B) { d with ota := o } (.ota (.received (header ++ image) io))
      { d with ota := u } := ⟨hcalls _ _,trivial,hgoes.symm⟩
  refine (hrun.snoc hreceive).snoc ⟨hcalls _ _,trivial,?_⟩
  show _ = otaNext P B { d with ota := u } (.disconnected stage)
  rw [otaNext,if_pos hrestarts,hrom]

end Downloads

end Boot
end MeterLogger
