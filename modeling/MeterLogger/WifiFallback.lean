import MeterLogger.WifiSystem

/-!
# The fallback network

Three scans without the fallback access point lead back to the default network, provided that a
scan which sees it while the device has switched finds `wifi_fallback_active` clear: the flag
hides the access point from the scan, and `wifi_fallback` sets it.
-/

namespace MeterLogger
namespace Wifi

open CStrings CharArray Runs

/-- A completed scan: whether it saw the fallback access point, whether the device had switched,
whether MQTT was connected, the number of scans in a row that have not seen it, and what was
done. -/
structure ScanRecord where
  seen : Bool
  switched : Bool
  established : Bool
  unseen : ℕ
  action : ScanAction
  deriving DecidableEq

structure Watched where
  sys : System
  established : Bool
  unseen : ℕ
  log : List ScanRecord

def seen (infos : List BssInfo) : Bool := infos.any fun info => info.named staFallbackSsid

def Watched.scanned (w : Watched) (infos : List BssInfo) (connectStatus : UInt8) : Watched :=
  let unseen := if seen infos then 0 else w.unseen+1
  { w with
    unseen := unseen
    log := w.log ++ [⟨seen infos,w.sys.fallback.lastPresent,w.established,unseen,
      (wifiScanDoneCb (some infos) connectStatus w.sys.toState).2⟩] }

def Watched.watch (w : Watched) : System.Event → Watched
  | .scanDone (some infos) connectStatus =>
    if w.sys.scan.running then w.scanned infos connectStatus else w
  | .mqttConnected => { w with established := true }
  | .mqttDisconnected => { w with established := false }
  | _ => w

def Watched.next (w : Watched) (e : System.Event) : Watched :=
  { w.watch e with sys := w.sys.next e }

def Watched.Step : Watched → System.Event → Watched → Prop :=
  Guarded (fun w e => w.sys.can e = true) (ofFun Watched.next)

def Watched.start (sys : System) : Watched := ⟨sys,false,0,[]⟩

/-- A completed scan that sees the fallback access point after a switch finds
`wifi_fallback_active` clear. -/
def unmasked (w : Watched) : System.Event → Bool
  | .scanDone (some infos) _ => !(w.sys.scan.running && w.sys.fallback.lastPresent && seen infos &&
    w.sys.fallback.active)
  | _ => true

/-- The device goes back only after three scans without the access point, and tries again while
it is there without MQTT. -/
structure ScanRecord.Hysteretic (r : ScanRecord) : Prop where
  back : r.action = .default → 3 ≤ r.unseen
  retry : r.seen = true → r.switched = true → r.established = false →
    r.action = .retryMqtt ∨ r.action = .retryWifi

/-- The flags may be cleared, and what is left agrees with what was there. -/
structure Tame (f g : Fallback) : Prop where
  count : g.lastPresent = true → f.lastPresent = true ∧ g.missCount = f.missCount
  mqtt : g.mqttConnected = true → f.mqttConnected = true
  active : g.mqttConnected = true → f.active = true → g.active = true

theorem Tame.refl (f : Fallback) : Tame f f := ⟨fun h => ⟨h,rfl⟩,id,fun _ => id⟩

section Tame

variable (s : State) (env : ApNetwork.Env)

theorem tame_timeout : Tame s.fallback (wifiTestTimeoutTimerFunc env s).fallback := by
  rw [wifiTestTimeoutTimerFunc]
  dsimp only
  split
  · exact Tame.refl _
  · exact ⟨fun h => (Bool.noConfusion h),fun h => (Bool.noConfusion h),fun h => (Bool.noConfusion h)⟩

theorem tame_event (evt : SystemEvent) : Tame s.fallback (handleEvent evt env s).fallback := by
  rw [handleEvent]
  obtain ⟨kind,reason⟩ := evt
  cases kind with
  | connected =>
    dsimp only
    split <;> exact Tame.refl _
  | gotIp ip mask =>
    dsimp only
    split
    · exact ⟨fun h => ⟨h,rfl⟩,fun h => (Bool.noConfusion h),fun h => (Bool.noConfusion h)⟩
    · split
      · exact ⟨fun h => ⟨h,rfl⟩,id,fun _ _ => rfl⟩
      · exact Tame.refl _
  | disconnected => exact Tame.refl _
  | dhcpTimeout => exact Tame.refl _
  | authmodeChange => exact Tame.refl _
  | staConnected => exact Tame.refl _
  | staDisconnected => exact Tame.refl _

theorem tame_handle (evt : SystemEvent) :
    Tame s.fallback (wifiHandleEventCb evt env s).fallback := by
  rcases wifiHandleEventCb_cases evt env s with h | ⟨_,h | h | h⟩ <;> rw [h]
  · exact tame_event s env evt
  · exact Tame.refl _
  · exact tame_event (testSucceeded s) env evt
  · exact tame_timeout (markFailed evt.reason s) env

end Tame

theorem Tame.of_eq {f g : Fallback} (h : g = f) : Tame f g := h ▸ Tame.refl f

theorem tame_scan (s : State) (connectStatus : UInt8) :
    Tame s.fallback (wifiScanDoneCb none connectStatus s).1.fallback := by
  rw [wifiScanDoneCb]
  split
  · exact Tame.refl _
  · exact ⟨fun h => ⟨h,rfl⟩,id,fun _ => id⟩

theorem tame_reconnect (s : System) :
    Tame s.fallback (System.wifiReconnectTimerFunc s).fallback := by
  rw [System.wifiReconnectTimerFunc]
  split
  · exact Tame.refl _
  · exact ⟨fun h => (Bool.noConfusion h),fun h => (Bool.noConfusion h),fun h => (Bool.noConfusion h)⟩

theorem tame_test (s : State) (ssid pwd : List UInt8) (stayTimeMs : ℕ) :
    Tame s.fallback (wifiTestSsidPwd ssid pwd stayTimeMs s).1.fallback := by
  rw [wifiTestSsidPwd]
  split
  · exact Tame.refl _
  · split <;> exact Tame.refl _

/-- The flags in that state: the access point is seen unless `wifi_fallback_active` hides it. -/
theorem judged_fallback (infos : List BssInfo) (s : State) :
    (judged infos s).fallback = { s.fallback with present := !s.fallback.active && seen infos } := rfl

/-- What a judgement comes to, in the flags and in what is done. -/
inductive Judgement (f : Fallback) : Fallback → ScanAction → Prop
  | switch (hpresent : f.present = true) (hlast : f.lastPresent = false) : Judgement f
      { f with missCount := 0, active := true, mqttConnected := false, lastPresent := true } .switch
  | retryMqtt (hpresent : f.present = true) (hmqtt : f.mqttConnected = false) :
      Judgement f { f with missCount := 0 } .retryMqtt
  | retryWifi (hpresent : f.present = true) (hmqtt : f.mqttConnected = false) :
      Judgement f { f with missCount := 0, active := true, mqttConnected := false } .retryWifi
  | stay (hpresent : f.present = true) (hmqtt : f.mqttConnected = true) :
      Judgement f { f with missCount := 0 } .none
  | back (hpresent : f.present = false) (hlast : f.lastPresent = true)
      (hmiss : 3 ≤ f.missCount+1) : Judgement f
      { f with missCount := 0, active := false, mqttConnected := false, lastPresent := false }
      .default
  | miss (hpresent : f.present = false) (hlast : f.lastPresent = true)
      (hmiss : ¬3 ≤ f.missCount+1) : Judgement f { f with missCount := f.missCount+1 } .none
  | idle (hpresent : f.present = false) (hlast : f.lastPresent = false) : Judgement f f .none

theorem hysteresis_judgement (connectStatus : UInt8) (s : State) :
    Judgement s.fallback (hysteresis connectStatus s).1.fallback (hysteresis connectStatus s).2 := by
  rw [hysteresis]
  split
  · rename_i hpresent
    dsimp only
    split
    · exact .switch hpresent ‹_›
    · split
      · split
        · exact .retryMqtt hpresent ‹_›
        · exact .retryWifi hpresent ‹_›
      · exact .stay hpresent (Bool.not_eq_false _ ▸ ‹_›)
  · rename_i hpresent
    have hpresent := Bool.eq_false_iff.mpr hpresent
    split
    · dsimp only
      split
      · exact .back hpresent ‹_› ‹_›
      · exact .miss hpresent ‹_› ‹_›
    · exact .idle hpresent (Bool.eq_false_iff.mpr ‹_›)

theorem scanDone_judgement (infos : List BssInfo) (connectStatus : UInt8) {s : State}
    (h : s.scan.running = true) :
    Judgement { s.fallback with present := !s.fallback.active && seen infos }
      (wifiScanDoneCb (some infos) connectStatus s).1.fallback
      (wifiScanDoneCb (some infos) connectStatus s).2 := by
  rw [wifiScanDoneCb_some infos connectStatus h,← judged_fallback]
  exact hysteresis_judgement connectStatus (judged infos s)

/-- What is known of the flags when `n` scans in a row have not seen the access point. -/
structure Flags (established : Bool) (n : ℕ) (f : Fallback) : Prop where
  count : f.lastPresent = true → f.missCount.toNat = n ∧ n < 3
  active : f.mqttConnected = true → f.active = true
  mqtt : f.mqttConnected = true → established = true

theorem Flags.tame {established : Bool} {n : ℕ} {f g : Fallback} (h : Flags established n f)
    (ht : Tame f g) : Flags established n g where
  count hlast := by
    obtain ⟨hbefore,hmiss⟩ := ht.count hlast
    rw [hmiss]
    exact h.count hbefore
  active hmqtt := ht.active hmqtt (h.active (ht.mqtt hmqtt))
  mqtt hmqtt := h.mqtt (ht.mqtt hmqtt)

section Judged

variable {established seen : Bool} {n : ℕ} {f g : Fallback} {action : ScanAction}

theorem Flags.judged (h : Flags established n f)
    (hj : Judgement { f with present := !f.active && seen } g action)
    (hfree : f.lastPresent = true → seen = true → f.active = false) :
    Flags established (if seen then 0 else n+1) g ∧
      (⟨seen,f.lastPresent,established,if seen then 0 else n+1,action⟩ : ScanRecord).Hysteretic := by
  -- What is not present after a switch has not been seen.
  have hunseen : (!f.active && seen) = false → f.lastPresent = true → seen = false := by
    intro hpresent hlast
    by_contra hseen
    have hseen := Bool.not_eq_false _ ▸ hseen
    rw [hfree hlast hseen,hseen] at hpresent
    exact Bool.noConfusion hpresent
  have hsight : (!f.active && seen) = true → seen = true := fun hpresent =>
    (Bool.and_eq_true_iff.mp hpresent).2
  cases hj with
  | switch hpresent hlast =>
    rw [if_pos (hsight hpresent)]
    refine ⟨⟨fun _ => ⟨rfl,by decide⟩,fun hm => Bool.noConfusion hm,fun hm => Bool.noConfusion hm⟩,
      ⟨fun hback => ScanAction.noConfusion hback,fun _ hswitched => ?_⟩⟩
    exact absurd hswitched (Bool.eq_false_iff.mp hlast)
  | retryMqtt hpresent hmqtt =>
    rw [if_pos (hsight hpresent)]
    exact ⟨⟨fun _ => ⟨rfl,by decide⟩,h.active,h.mqtt⟩,
      ⟨fun hback => ScanAction.noConfusion hback,fun _ _ _ => Or.inl rfl⟩⟩
  | retryWifi hpresent hmqtt =>
    rw [if_pos (hsight hpresent)]
    exact ⟨⟨fun _ => ⟨rfl,by decide⟩,fun hm => Bool.noConfusion hm,fun hm => Bool.noConfusion hm⟩,
      ⟨fun hback => ScanAction.noConfusion hback,fun _ _ _ => Or.inr rfl⟩⟩
  | stay hpresent hmqtt =>
    rw [if_pos (hsight hpresent)]
    refine ⟨⟨fun _ => ⟨rfl,by decide⟩,h.active,h.mqtt⟩,
      ⟨fun hback => ScanAction.noConfusion hback,fun _ _ hdown => ?_⟩⟩
    exact absurd (h.mqtt hmqtt) (Bool.eq_false_iff.mp hdown)
  | back hpresent hlast hmiss =>
    rw [if_neg (Bool.eq_false_iff.mp (hunseen hpresent hlast))]
    refine ⟨⟨fun hl => Bool.noConfusion hl,fun hm => Bool.noConfusion hm,
      fun hm => Bool.noConfusion hm⟩,⟨fun _ => ?_,fun hseen => ?_⟩⟩
    · obtain ⟨hcount,hlt⟩ := h.count hlast
      have hnext : 3 ≤ (f.missCount+1).toNat := UInt8.le_iff_toNat_le.mp hmiss
      rw [UInt8.toNat_add,hcount] at hnext
      exact hnext.trans (Nat.mod_le _ _)
    · exact absurd hseen (Bool.eq_false_iff.mp (hunseen hpresent hlast))
  | miss hpresent hlast hmiss =>
    rw [if_neg (Bool.eq_false_iff.mp (hunseen hpresent hlast))]
    refine ⟨⟨fun _ => ?_,h.active,h.mqtt⟩,
      ⟨fun hback => ScanAction.noConfusion hback,fun hseen => ?_⟩⟩
    · obtain ⟨hcount,hlt⟩ := h.count hlast
      have hnext : ¬3 ≤ (f.missCount+1).toNat := fun hle => hmiss (UInt8.le_iff_toNat_le.mpr hle)
      have hsum : (f.missCount+1).toNat = n+1 := by
        rw [UInt8.toNat_add,hcount,show (1 : UInt8).toNat = 1 from rfl,Nat.mod_eq_of_lt (by omega)]
      rw [hsum] at hnext
      exact ⟨hsum,by omega⟩
    · exact absurd hseen (Bool.eq_false_iff.mp (hunseen hpresent hlast))
  | idle hpresent hlast =>
    refine ⟨⟨fun hl => absurd hl (Bool.eq_false_iff.mp hlast),h.active,h.mqtt⟩,
      ⟨fun hback => ScanAction.noConfusion hback,fun _ hswitched => ?_⟩⟩
    exact absurd hswitched (Bool.eq_false_iff.mp hlast)

end Judged

structure Watched.Inv (w : Watched) : Prop where
  flags : Flags w.established w.unseen w.sys.fallback
  log : ∀ r ∈ w.log, r.Hysteretic

theorem Watched.Inv.tame {w : Watched} {sys : System} (h : w.Inv)
    (ht : Tame w.sys.fallback sys.fallback) : Watched.Inv { w with sys := sys } :=
  ⟨h.flags.tame ht,h.log⟩

theorem inv_scanned {w : Watched} {infos : List BssInfo} {connectStatus : UInt8} (h : w.Inv)
    (hrunning : w.sys.scan.running = true)
    (hok : unmasked w (.scanDone (some infos) connectStatus) = true) :
    (w.next (.scanDone (some infos) connectStatus)).Inv := by
  have hfree : w.sys.fallback.lastPresent = true → seen infos = true →
      w.sys.fallback.active = false := by
    intro hlast hseen
    simpa [unmasked,hrunning,hlast,hseen] using hok
  obtain ⟨hflags,hrecord⟩ :=
    h.flags.judged (scanDone_judgement infos connectStatus hrunning) hfree
  have hwatch : w.watch (.scanDone (some infos) connectStatus) = w.scanned infos connectStatus :=
    if_pos hrunning
  rw [Watched.next,hwatch]
  refine ⟨hflags,fun r hr => ?_⟩
  rcases List.mem_append.mp hr with hr | hr
  · exact h.log r hr
  · rw [List.mem_singleton.mp hr]
    exact hrecord

theorem Watched.inv_next {w : Watched} {e : System.Event} (h : w.Inv) (hok : unmasked w e = true) :
    (w.next e).Inv := by
  cases e with
  | scanDone results connectStatus =>
    cases results with
    | none => exact h.tame (tame_scan w.sys.toState connectStatus)
    | some infos =>
      by_cases hrunning : w.sys.scan.running = true
      · exact inv_scanned h hrunning hok
      · have hwatch : w.watch (.scanDone (some infos) connectStatus) = w := if_neg hrunning
        have hdone := wifiScanDoneCb_aborted (some infos) connectStatus hrunning
        rw [Watched.next,hwatch]
        exact h.tame (Tame.of_eq (congrArg (fun r => r.1.fallback) hdone))
  | wifiEvent evt env => exact h.tame (tame_handle w.sys.toState env evt)
  | testSsidPwd ssid pwd stayTimeMs => exact h.tame (tame_test w.sys.toState ssid pwd stayTimeMs)
  | testStartTimer => exact h.tame (Tame.refl _)
  | testTimeoutTimer env => exact h.tame (tame_timeout (System.timeoutFired w.sys.toState) env)
  | delayedWifiDefaultTimer =>
    exact h.tame ⟨fun hl => ⟨hl,rfl⟩,fun hm => Bool.noConfusion hm,fun hm => Bool.noConfusion hm⟩
  | wifiReconnectTimer => exact h.tame (tame_reconnect { w.sys with wifiReconnectTimer := none })
  | mqttConnected => exact ⟨⟨h.flags.count,id,fun _ => rfl⟩,h.log⟩
  | mqttDisconnected =>
    have hdown : ¬(if w.sys.fallback.active then false else w.sys.fallback.mqttConnected) = true := by
      split
      · exact Bool.noConfusion
      · exact fun hm => absurd (h.flags.active hm) ‹_›
    exact ⟨⟨h.flags.count,fun hm => absurd hm hdown,fun hm => absurd hm hdown⟩,h.log⟩
  | destroy => exact h.tame (Tame.refl _)
  | _ => exact h.tame (Tame.of_eq (System.next_calm w.sys rfl).fallback)

/-- In a run in which no scan after a switch is blinded by `wifi_fallback_active`, the device goes
back only after three scans in a row without the fallback access point, and tries again whenever
it is there without MQTT. -/
theorem fallback_hysteresis {c : WifiCfg} {meshSsid : List UInt8} {env : ApNetwork.Env}
    {es : List System.Event} {w : Watched}
    (h : Run (Guarded (fun w e => unmasked w e = true) Watched.Step) (.start (.start c meshSsid env)) es w) :
    ∀ r ∈ w.log, r.Hysteretic := by
  have hstart : Watched.Inv (.start (.start c meshSsid env)) :=
    ⟨⟨fun hl => Bool.noConfusion hl,fun hm => Bool.noConfusion hm,fun hm => Bool.noConfusion hm⟩,
      fun r hr => absurd hr List.not_mem_nil⟩
  refine (h.invariant (I := Watched.Inv) ?_ hstart).log
  rintro w e t hw ⟨hok,_,rfl⟩
  exact Watched.inv_next hw hok

def homeStart : Watched := .start System.home

def fallbackInfo : BssInfo := ⟨snprintf (zeros 32) 32 staFallbackSsid,10,6⟩

def neighbourInfo : BssInfo := ⟨snprintf (zeros 32) 32 (ascii "neighbour"),10,6⟩

/-- The station is not connecting any more, so that the scanner may run. -/
def linkLost : System.Event := .wifiEvent ⟨.disconnected,reasonAssocLeave⟩ ⟨true,0⟩

/-- The device switches when a scan sees the fallback access point, and three scans follow. -/
def scans (infos : List BssInfo) : List System.Event :=
  [linkLost,.scanTimer true,.scanDone (some [fallbackInfo]) 0,
    linkLost,.scanTimer true,.scanDone (some infos) 0,
    .scanTimer true,.scanDone (some infos) 0,.scanTimer true,.scanDone (some infos) 0]

/-- Three scans see another access point only. -/
theorem fallback_hysteresis_gone : ∃ w,
    Run (Guarded (fun w e => unmasked w e = true) Watched.Step) homeStart (scans [neighbourInfo]) w ∧
      w.log = [⟨true,false,false,0,.switch⟩,⟨false,true,false,1,.none⟩,⟨false,true,false,2,.none⟩,
        ⟨false,true,false,3,.default⟩] ∧ ∀ r ∈ w.log, r.Hysteretic := by
  have hallowed : allowed (fun w e => unmasked w e = true ∧ w.sys.can e = true) Watched.next
      homeStart (scans [neighbourInfo]) = true := by decide +kernel
  have hrun := guarded_of_allowed hallowed
  exact ⟨_,hrun,by decide +kernel,fallback_hysteresis hrun⟩

/-- The device goes back although every scan sees the fallback access point. -/
theorem fallback_ignored : ¬∀ (c : WifiCfg) (meshSsid : List UInt8) (env : ApNetwork.Env)
    (es : List System.Event) (w : Watched), Run Watched.Step (.start (.start c meshSsid env)) es w →
      ∀ r ∈ w.log, r.Hysteretic := by
  intro h
  have hallowed : allowed (fun w e => w.sys.can e = true) Watched.next homeStart
      (scans [fallbackInfo]) = true := by decide +kernel
  have hlog : ⟨true,true,false,0,.default⟩ ∈
      ((scans [fallbackInfo]).foldl Watched.next homeStart).log := by decide +kernel
  have hback := (h _ _ _ _ _ (run_of_allowed hallowed) _ hlog).back rfl
  exact absurd hback (by decide)

end Wifi
end MeterLogger
