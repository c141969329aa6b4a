import MeterLogger.OtaBoot

/-!
# The slots of the firmware

Downloads keep out of the slot that runs and the slot that is committed, and a staged slot stays
as it is until the restart, along every run in which no download starts when it should not: on a
running slot that is not the committed one, or between the staging and the restart.
-/

namespace MeterLogger
namespace Boot

open CStrings Decimal FlashWriter Ota Runs

variable {P : Platform} {B : BootLoader} {d t : Device P} {e : Event} {sector : ℕ}

/-- A download only starts on the committed slot. -/
def OnCommitted (d : Device P) (e : Event) : Prop :=
  downloads d e = true → d.running = d.currentRom

/-- RTC memory names the running slot, and a download is about another slot. -/
structure Spared (d : Device P) : Prop where
  lastRom : ∀ r, d.rtc = some r → r.lastRom = d.running
  placed : Placed d.ota
  running : d.ota.inProgress = true → d.ota.targetRom ≠ d.running
  currentRom : d.ota.inProgress = true → d.ota.targetRom ≠ d.currentRom

theorem Spared.idle (hin : d.ota.inProgress = false)
    (hrom : ∀ r, d.rtc = some r → r.lastRom = d.running) : Spared d where
  lastRom := hrom
  placed := fun h => absurd (h.symm.trans hin) (by decide)
  running := fun h => absurd (h.symm.trans hin) (by decide)
  currentRom := fun h => absurd (h.symm.trans hin) (by decide)

theorem targetSlot_ne (a : StartArgs) : targetSlot a ≠ a.lastBootRom.getD a.currentRom := by
  rw [targetSlot]
  split
  · rename_i hzero
    rw [hzero]
    decide
  · rename_i hne
    exact fun h => hne h.symm

theorem Spared.lastBootRom (h : Spared d) (hrun : d.running = d.currentRom) (c : OtaUpdate) :
    (startArgs d c).lastBootRom.getD (startArgs d c).currentRom = d.running := by
  show (d.rtc.map RtcData.lastRom).getD d.currentRom = d.running
  cases hr : d.rtc with
  | none => exact hrun.symm
  | some r => exact h.lastRom r hr

theorem Spared.otaNext (hB : B.Documented) (h : Spared d) (e : Ota.Event) :
    Spared (otaNext P B d e) := by
  have hcareful := next_careful d.ota e
  have hspec := otaNext_called (B := B) d e
  rw [← hspec.ota] at hcareful
  refine ⟨hspec.lastRom hB h.lastRom,hcareful.placed h.placed,?_,?_⟩
  · intro hin
    obtain ⟨hin,hrom⟩ := hcareful.targetRom hin
    rw [hrom,hspec.running]
    exact h.running hin
  · intro hin
    obtain ⟨hin,hrom⟩ := hcareful.targetRom hin
    rw [hrom,hspec.currentRom]
    exact h.currentRom hin

theorem Spared.confirm (h : Spared d) (hin : d.ota.inProgress = false) (c : OtaUpdate) :
    Spared (confirm d c) := by
  have hspec := confirm_confirmed d c
  apply Spared.idle (hspec.inProgress.trans hin)
  intro r hr
  rw [hspec.running]
  obtain ⟨u,hu,rfl | hlast⟩ := hspec.rtc r hr
  · exact h.lastRom r hu
  · rw [hlast,Boot.lastRom,hu]
    exact h.lastRom u hu

theorem Spared.startDownload (h : Spared d) {c : OtaUpdate}
    (hbegins : begins (startArgs d c) = true → d.running = d.currentRom) :
    Spared (startDownload d c) := by
  have hspec := startDownload_started d c
  have hroms : ∀ r, (Boot.startDownload d c).rtc = some r →
      r.lastRom = (Boot.startDownload d c).running := by
    rw [hspec.rtc,hspec.running]
    exact h.lastRom
  cases hb : begins (startArgs d c) with
  | false => exact Spared.idle (startDownload_refused hb).1 hroms
  | true =>
    have hrun := hbegins hb
    have hne := targetSlot_ne (startArgs d c)
    rw [h.lastBootRom hrun] at hne
    refine ⟨hroms,hspec.placed,?_,?_⟩
    · intro hin
      rw [hspec.targetRom hin,hspec.running]
      exact hne
    · intro hin
      rw [hspec.targetRom hin,hspec.currentRom,← hrun]
      exact hne

theorem reboot_spared (hB : B.Documented) (d : Device P) (temp : Option ℕ) :
    Spared (reboot B d temp) := Spared.idle rfl (hB.start_lastRom _ _ _)

theorem Spared.step (hB : B.Documented) (h : Spared d) (hok : OnCommitted d e)
    (hs : step P B d e t) : Spared t := by
  obtain ⟨_,rfl⟩ := hs
  cases e with
  | ota e => exact h.otaNext hB e
  | otaUpdate c =>
    rw [next]
    rcases mqttDataCb_cases d c with ⟨u,heq,hin,_,hsame⟩ | ⟨hin,_,heq⟩ | ⟨hin,heq,hdown⟩
    · rw [heq]
      cases hu : u.inProgress with
      | true =>
        rw [hsame hu]
        exact h
      | false => exact Spared.idle hu h.lastRom
    · rw [heq]
      exact h.confirm hin c
    · rw [heq]
      exact h.startDownload fun hb => hok (hdown.trans hb)
  | restartDefered => exact ⟨h.lastRom,h.placed,h.running,h.currentRom⟩
  | restart temp => exact reboot_spared hB d temp
  | reset temp => exact reboot_spared hB d temp
  | rtcLost =>
    exact ⟨fun r hr => absurd hr (by simp [next]),h.placed,h.running,h.currentRom⟩
  | reserved sector => exact h

theorem Spared.run (hB : B.Documented) {flash : Flash} {rom : ℕ} {es : List Event}
    (h : Run (Guarded OnCommitted (Boot.step P B)) (.boot P flash rom) es d) : Spared d := by
  apply h.invariant
  · exact fun _ _ _ hi hs => hi.step hB hs.1 hs.2
  · apply Spared.idle rfl
    intro r hr
    rw [← Option.some.inj hr]
    rfl

theorem Spared.touches (h : Spared d) (hok : OnCommitted d e) (hs : Boot.step P B d e t)
    (ht : Touches d t sector) :
    ∃ rom, InSlot P rom sector ∧ rom ≠ d.running ∧ rom ≠ d.currentRom := by
  obtain ⟨_,rfl⟩ := hs
  have hself : ∀ {u : Device P}, u.ota.log = d.ota.log → ¬Touches d u sector :=
    fun hlog => not_touches (Quiet.of_log hlog)
  cases e with
  | ota e =>
    have hspec := otaNext_called (B := B) d e
    cases hin : d.ota.inProgress with
    | true =>
      have hwithin := (next_careful d.ota e).within h.placed
      rw [← hspec.ota] at hwithin
      exact ⟨d.ota.targetRom,ht.within hwithin,h.running hin,h.currentRom hin⟩
    | false =>
      have hidle := (next_stays hin e).log
      rw [← hspec.ota] at hidle
      exact absurd ht (hself hidle)
  | otaUpdate c =>
    rw [next] at ht
    rcases mqttDataCb_cases d c with ⟨u,heq,_,hquiet,_⟩ | ⟨_,_,heq⟩ | ⟨_,heq,hdown⟩
    · rw [heq] at ht
      exact absurd ht (not_touches hquiet)
    · rw [heq] at ht
      exact absurd ht (not_touches (confirm_confirmed d c).quiet)
    · rw [heq] at ht
      cases hb : begins (startArgs d c) with
      | false => exact absurd ht (not_touches (startDownload_refused hb).2)
      | true =>
        have hrun := hok (hdown.trans hb)
        have hne := targetSlot_ne (startArgs d c)
        rw [h.lastBootRom hrun] at hne
        exact ⟨_,ht.within (startDownload_started d c).within,hne,hrun ▸ hne⟩
  | restartDefered => exact absurd ht (hself rfl)
  | restart temp => exact absurd ht (reboot_quiet d temp)
  | reset temp => exact absurd ht (reboot_quiet d temp)
  | rtcLost => exact absurd ht (hself rfl)
  | reserved sector => exact absurd ht (hself rfl)

/-- What a download erases or writes lies in a slot that neither runs nor is committed. -/
theorem slots_spared (hB : B.Documented) {flash : Flash} {rom : ℕ} {es : List Event}
    (h : Run (Guarded OnCommitted (Boot.step P B)) (.boot P flash rom) es d) (hok : OnCommitted d e)
    (hs : Boot.step P B d e t) (ht : Touches d t sector) :
    ∃ rom, InSlot P rom sector ∧ rom ≠ d.running ∧ rom ≠ d.currentRom :=
  (Spared.run hB h).touches hok hs ht

def sampleUpdate : OtaUpdate where
  params := []
  finalUrl := ascii "http://update.local/fw.bin"
  sha256User₁ := []
  sha256User₂ := []
  dns := .ok true
  setCurrentOk := true
  setRtcOk := true

/-- A confirmation; the configuration of the boot loader cannot be written. -/
def sampleConfirm : OtaUpdate where
  params := ascii "action=confirm"
  finalUrl := []
  sha256User₁ := []
  sha256User₂ := []
  dns := .inProgress
  setCurrentOk := false
  setRtcOk := true

def sampleLoader : BootLoader where
  setTempRom rtc running rom :=
    match rtc with
    | some r => { r with nextMode := .tempRom, tempRom := rom }
    | none => ⟨.standard,.tempRom,running,rom⟩
  start currentRom _ temp :=
    { running := temp.getD currentRom
      currentRom := currentRom
      rtc := some ⟨if temp.isSome then .tempRom else .standard,.standard,temp.getD currentRom,0⟩ }

theorem sampleLoader_documented : sampleLoader.Documented where
  start_running _ _ _ := rfl
  start_currentRom _ _ _ := rfl
  start_lastRom := by
    rintro currentRom rtc temp r ⟨⟩
    rfl
  start_lastMode currentRom _ rom := ⟨⟨.tempRom,.standard,rom,0⟩,rfl,rfl⟩
  setTempRom_lastRom rtc running rom h := by
    cases rtc with
    | none => rfl
    | some r => exact h r rfl
  setTempRom_lastMode rtc running rom := by cases rtc <;> rfl

def sampleDevice : Device samplePlatform := .boot samplePlatform (fun _ => 0xFF) 0

theorem fetches_sample {d : Device samplePlatform} (hin : d.ota.inProgress = false)
    (hmode : bootMode d = .standard) : Fetches d sampleUpdate where
  inProgress := hin
  confirms := by decide
  bootMode := hmode
  url := ⟨⟨ascii "update.local",80,ascii "update.local",ascii "/fw.bin"⟩,by decide⟩
  sha256User₁ := rfl
  sha256User₂ := rfl
  dns := rfl

theorem reliable_sample : Reliable sampleIo := ⟨rfl,rfl⟩

def sampleReceived : Event := .ota (.received (sampleHeader ++ sampleImage) sampleIo)

/-- The first packet of an image for the slot of a download touches the slot. -/
theorem touches_sample {d : Device samplePlatform} (rom : ℕ)
    (h : Requested d.ota .established rom) :
    Touches d (next samplePlatform sampleLoader d sampleReceived) (samplePlatform.roms rom/sectorSize) := by
  refine ⟨.eraseSector (samplePlatform.roms rom/sectorSize),?_,List.mem_singleton_self _⟩
  rw [sampleReceived,next,(otaNext_called d _).ota]
  exact reply_erases sampleReply h reliable_sample

/-- The first slot runs; the second is written. -/
theorem slots_spared_sample : ∃ d,
    Run (Guarded OnCommitted (step samplePlatform sampleLoader)) sampleDevice
      [.otaUpdate sampleUpdate,.ota (.connected true)] d ∧
    Touches d (next samplePlatform sampleLoader d sampleReceived) 0x82 ∧
    ∃ rom, InSlot samplePlatform rom 0x82 ∧ rom ≠ d.running ∧ rom ≠ d.currentRom := by
  have hfetch : Fetches sampleDevice sampleUpdate := fetches_sample rfl rfl
  obtain ⟨o,hrun,hreq⟩ := hfetch.requested OnCommitted (fun _ => rfl)
    fun _ _ hno => absurd hno Bool.false_ne_true
  have htouch := touches_sample (d := { sampleDevice with ota := o }) 1 hreq
  refine ⟨_,hrun,htouch,?_⟩
  exact slots_spared sampleLoader_documented hrun (e := sampleReceived) (fun hno => absurd hno Bool.false_ne_true)
    ⟨trivial,rfl⟩ htouch

theorem staged_sample (ok : Device samplePlatform → Event → Prop)
    (hstart : ok sampleDevice (.otaUpdate sampleUpdate)) (hcalls : ∀ d e, ok d (.ota e)) : ∃ o,
    Run (Guarded ok (step samplePlatform sampleLoader)) sampleDevice [.otaUpdate sampleUpdate,
      .ota (.connected true),sampleReceived,.ota (.disconnected sampleStage)]
      ⟨o,0,0,some ⟨.standard,.tempRom,0,1⟩,true,some 1⟩ ∧ o.inProgress = false := by
  have hfetch : Fetches sampleDevice sampleUpdate := fetches_sample rfl rfl
  exact hfetch.staged ok hstart hcalls sampleReply reliable_sample rfl rfl

/-- The download that follows a confirmation that was not written erases the committed slot. -/
theorem slots_not_spared : ¬∀ (P : Platform) (B : BootLoader), B.Documented →
    ∀ (flash : Flash) (rom : ℕ) (es : List Event) (d t : Device P) (e : Event) (sector : ℕ),
    Run (step P B) (.boot P flash rom) es d → step P B d e t → Touches d t sector →
    ∃ rom, InSlot P rom sector ∧ rom ≠ d.running ∧ rom ≠ d.currentRom := by
  intro hall
  obtain ⟨o,hstaged,_⟩ := staged_sample (fun _ _ => True) trivial fun _ _ => trivial
  have hstaged := hstaged.mono fun _ _ _ h => h.2
  let booted : Device samplePlatform :=
    reboot sampleLoader ⟨o,0,0,some ⟨.standard,.tempRom,0,1⟩,true,some 1⟩ (some 1)
  have hboot : step samplePlatform sampleLoader ⟨o,0,0,some ⟨.standard,.tempRom,0,1⟩,true,some 1⟩
      (.restart (some 1)) booted := ⟨⟨rfl,fun rom h => ⟨_,rfl,rfl,Option.some.inj h⟩⟩,rfl⟩
  let confirmed : Device samplePlatform :=
    { booted with
      ota := booted.ota.post (.status (ascii "self_test_passed_committed"))
      rtc := some ⟨.standard,.standard,1,0⟩ }
  have hconfirm : step samplePlatform sampleLoader booted (.otaUpdate sampleConfirm) confirmed := by
    refine ⟨trivial,?_⟩
    rw [next,mqttDataCb,if_neg (show ¬booted.ota.inProgress = true from Bool.false_ne_true),
      mqttRpcOtaUpdate,if_pos (show confirms sampleConfirm = true by decide)]
    rfl
  have hfetch : Fetches confirmed sampleUpdate := fetches_sample rfl rfl
  obtain ⟨o',hrequested,hreq⟩ := hfetch.requested (fun _ _ => True) trivial fun _ _ => trivial
  have hrequested := hrequested.mono fun _ _ _ h => h.2
  have hrun := ((hstaged.snoc hboot).snoc hconfirm).append hrequested
  have htouch : Touches { confirmed with ota := o' }
      (next samplePlatform sampleLoader { confirmed with ota := o' } sampleReceived) 2 :=
    touches_sample 0 hreq
  obtain ⟨rom,hin,_,hzero⟩ := hall samplePlatform sampleLoader sampleLoader_documented
    (fun _ => 0xFF) 0 _ _ _ sampleReceived 2 hrun
    ⟨trivial,rfl⟩ htouch
  have hroms : samplePlatform.roms rom = 0x82000 := if_neg hzero
  rw [InSlot,hroms] at hin
  exact absurd hin.1 (by decide)

/-- A confirmation is written, and RTC memory is not lost on a slot that is not committed. -/
def Sound (d : Device P) : Event → Prop
  | .otaUpdate c => confirms c = true → c.setCurrentOk = true
  | .rtcLost => d.running = d.currentRom
  | _ => True

/-- A slot that runs without being committed is known to be temporary. -/
structure Known (d : Device P) : Prop where
  lastRom : ∀ r, d.rtc = some r → r.lastRom = d.running
  mode : d.running = d.currentRom ∨ bootMode d = .tempRom

theorem Known.lastRom_eq (h : Known d) : Boot.lastRom d = d.running := by
  cases hr : d.rtc with
  | none =>
    have hmode : bootMode d = .standard := by
      rw [bootMode,hr]
      rfl
    rw [Boot.lastRom,hr]
    rcases h.mode with heq | htemp
    · exact heq.symm
    · exact absurd (htemp.symm.trans hmode) (by decide)
  | some r =>
    rw [Boot.lastRom,hr]
    exact h.lastRom r hr

theorem reboot_known (hB : B.Documented) (d : Device P) (temp : Option ℕ) :
    Known (reboot B d temp) := by
  refine ⟨hB.start_lastRom _ _ _,?_⟩
  cases temp with
  | none => exact Or.inl ((hB.start_running _ _ _).trans (hB.start_currentRom _ _ _).symm)
  | some rom =>
    obtain ⟨r,hr,hmode⟩ := hB.start_lastMode d.currentRom d.rtc rom
    right
    show (B.start d.currentRom d.rtc (some rom)).rtc.elim .standard RtcData.lastMode = .tempRom
    rw [Option.mem_def.mp hr]
    exact hmode

theorem Known.step (hB : B.Documented) (h : Known d) (hok : Sound d e) (hs : step P B d e t) :
    Known t := by
  obtain ⟨_,rfl⟩ := hs
  cases e with
  | ota e =>
    have hspec := otaNext_called (B := B) d e
    refine ⟨hspec.lastRom hB h.lastRom,?_⟩
    rw [next,hspec.running,hspec.currentRom,hspec.bootMode hB]
    exact h.mode
  | otaUpdate c =>
    rw [next]
    rcases mqttDataCb_cases d c with ⟨u,heq,_⟩ | ⟨_,hconfirms,heq⟩ | ⟨_,heq,_⟩
    · rw [heq]
      exact ⟨h.lastRom,h.mode⟩
    · have hspec := confirm_confirmed d c
      rw [heq]
      constructor
      · intro r hr
        rw [hspec.running]
        obtain ⟨u,hu,rfl | hlast⟩ := hspec.rtc r hr
        · exact h.lastRom r hu
        · exact hlast.trans h.lastRom_eq
      · rw [hspec.running,hspec.committed (hok hconfirms)]
        exact Or.inl h.lastRom_eq.symm
    · have hspec := startDownload_started d c
      rw [heq]
      constructor
      · rw [hspec.rtc,hspec.running]
        exact h.lastRom
      · rw [bootMode,hspec.rtc,hspec.running,hspec.currentRom]
        exact h.mode
  | restartDefered => exact ⟨h.lastRom,h.mode⟩
  | restart temp => exact reboot_known hB d temp
  | reset temp => exact reboot_known hB d temp
  | rtcLost => exact ⟨fun r hr => absurd hr (by simp [next]),Or.inl hok⟩
  | reserved sector => exact ⟨h.lastRom,h.mode⟩

/-- Downloads start on the committed slot as long as confirmations are written and a slot that is
not committed is known to be temporary. -/
theorem sound_onCommitted (hB : B.Documented) {flash : Flash} {rom : ℕ} {es : List Event}
    (h : Run (Guarded Sound (Boot.step P B)) (.boot P flash rom) es d) (e : Event) :
    OnCommitted d e := by
  have hknown : Known d := by
    apply h.invariant
    · exact fun _ _ _ hi hs => hi.step hB hs.1 hs.2
    · refine ⟨?_,Or.inl rfl⟩
      intro r hr
      rw [← Option.some.inj hr]
      rfl
  intro hdown
  cases e with
  | otaUpdate c =>
    rcases hknown.mode with heq | htemp
    · exact heq
    · rw [downloads,htemp] at hdown
      simp at hdown
  | _ => exact absurd hdown Bool.false_ne_true

/-- No download starts between the staging and the restart. -/
def Awaits (d : Device P) (e : Event) : Prop := d.staged.isSome = true → downloads d e = false

/-- The download that staged a slot is over. -/
def Settled (d : Device P) : Prop := d.staged.isSome = true → d.ota.inProgress = false

theorem Settled.otaNext (h : Settled d) (e : Ota.Event) : Settled (otaNext P B d e) := by
  have hspec := otaNext_called (B := B) d e
  intro hstaged
  rcases hspec.staged with heq | hrestarts
  · rw [heq] at hstaged
    rw [hspec.ota]
    exact (next_stays (h hstaged) e).inProgress
  · rw [hspec.ota] at hrestarts ⊢
    exact restarts_ends d.ota e hrestarts

theorem Settled.step (h : Settled d) (hok : Awaits d e) (hs : step P B d e t) : Settled t := by
  obtain ⟨_,rfl⟩ := hs
  cases e with
  | ota e => exact h.otaNext e
  | otaUpdate c =>
    intro hstaged
    rw [next] at hstaged ⊢
    rcases mqttDataCb_cases d c with ⟨u,heq,hin,_⟩ | ⟨hin,_,heq⟩ | ⟨_,heq,hdown⟩
    · rw [heq] at hstaged ⊢
      exact hin.trans (h hstaged)
    · rw [heq]
      exact (confirm_confirmed d c).inProgress.trans hin
    · rw [heq] at hstaged ⊢
      rw [(startDownload_started d c).staged] at hstaged
      exact (startDownload_refused (hdown.symm.trans (hok hstaged))).1
  | restartDefered => exact h
  | restart temp => exact fun _ => rfl
  | reset temp => exact fun _ => rfl
  | rtcLost => exact h
  | reserved sector => exact h

theorem Settled.run {flash : Flash} {rom : ℕ} {es : List Event}
    (h : Run (Guarded Awaits (Boot.step P B)) (.boot P flash rom) es d) : Settled d := by
  apply h.invariant
  · exact fun _ _ _ hi hs => hi.step hs.1 hs.2
  · exact fun _ => rfl

theorem Settled.untouched (h : Settled d) (hok : Awaits d e) (hs : Boot.step P B d e t)
    (hstaged : d.staged.isSome = true) : ¬Touches d t sector := by
  obtain ⟨_,rfl⟩ := hs
  have hin := h hstaged
  cases e with
  | ota e =>
    apply not_touches
    apply Quiet.of_log
    rw [next,(otaNext_called d e).ota]
    exact (next_stays hin e).log
  | otaUpdate c =>
    rw [next]
    rcases mqttDataCb_cases d c with ⟨u,heq,_,hquiet,_⟩ | ⟨_,_,heq⟩ | ⟨_,heq,hdown⟩
    · rw [heq]
      exact not_touches hquiet
    · rw [heq]
      exact not_touches (confirm_confirmed d c).quiet
    · rw [heq]
      exact not_touches (startDownload_refused (hdown.symm.trans (hok hstaged))).2
  | restartDefered => exact not_touches (Quiet.of_log rfl)
  | restart temp => exact reboot_quiet d temp
  | reset temp => exact reboot_quiet d temp
  | rtcLost => exact not_touches (Quiet.of_log rfl)
  | reserved sector => exact not_touches (Quiet.of_log rfl)

/-- From the staging until the restart the staged slot stays as it is. -/
theorem staged_stable (hl : Layout P) {flash : Flash} {rom target : ℕ} {es : List Event}
    (h : Run (Guarded Awaits (Boot.step P B)) (.boot P flash rom) es d) (hok : Awaits d e)
    (hs : Boot.step P B d e t) (hstaged : d.staged = some target) (ha : Accesses d e t sector) :
    ¬InSlot P target sector := by
  rcases ha with rfl | ht
  · exact hl target sector hs.1
  · have hsome : d.staged.isSome = true := by
      rw [hstaged]
      rfl
    exact absurd ht ((Settled.run h).untouched hok hs hsome)

theorem layout_sample : Layout samplePlatform := by
  intro rom sector hreserved hin
  have hroms : samplePlatform.roms rom = 0x2000 ∨ samplePlatform.roms rom = 0x82000 := by
    by_cases hzero : rom = 0
    · exact Or.inl (if_pos hzero)
    · exact Or.inr (if_neg hzero)
  simp only [isReserved,Bool.or_eq_true,Bool.and_eq_true,decide_eq_true_eq] at hreserved
  simp only [InSlot,sectorSize,maxFirmwareSize] at hin
  omega

/-- The settings are saved after the staging. -/
theorem staged_stable_sample : ∃ d, Run (Guarded Awaits (step samplePlatform sampleLoader)) sampleDevice
      [.otaUpdate sampleUpdate,.ota (.connected true),sampleReceived,
        .ota (.disconnected sampleStage)] d ∧
    d.staged = some 1 ∧ ¬InSlot samplePlatform 1 0x76 := by
  obtain ⟨o,hrun,_⟩ := staged_sample Awaits (fun hno => absurd hno Bool.false_ne_true)
    fun _ _ _ => rfl
  refine ⟨_,hrun,rfl,?_⟩
  exact staged_stable layout_sample hrun (e := .reserved 0x76) (fun _ => rfl) ⟨rfl,rfl⟩ rfl
    (Or.inl rfl)

/-- A command that arrives before the restart erases the staged slot. -/
theorem staged_erased : ¬∀ (P : Platform) (B : BootLoader), B.Documented → Layout P →
    ∀ (flash : Flash) (rom target : ℕ) (es : List Event) (d t : Device P) (e : Event) (sector : ℕ),
    Run (step P B) (.boot P flash rom) es d → step P B d e t → d.staged = some target →
    Accesses d e t sector → ¬InSlot P target sector := by
  intro hall
  obtain ⟨o,hstaged,hin⟩ := staged_sample (fun _ _ => True) trivial fun _ _ => trivial
  have hfetch : Fetches (P := samplePlatform) ⟨o,0,0,some ⟨.standard,.tempRom,0,1⟩,true,some 1⟩
      sampleUpdate := fetches_sample hin rfl
  obtain ⟨o',hrequested,hreq⟩ := hfetch.requested (fun _ _ => True) trivial fun _ _ => trivial
  have hrun := (hstaged.append hrequested).mono fun _ _ _ h => h.2
  let d : Device samplePlatform := ⟨o',0,0,some ⟨.standard,.tempRom,0,1⟩,true,some 1⟩
  have htouch : Touches d (next samplePlatform sampleLoader d sampleReceived) 0x82 :=
    touches_sample 1 hreq
  exact hall samplePlatform sampleLoader sampleLoader_documented layout_sample (fun _ => 0xFF) 0 1
    _ _ _ sampleReceived 0x82 hrun ⟨trivial,rfl⟩ rfl (Or.inr htouch) ⟨by decide,by decide⟩

end Boot
end MeterLogger
