import MeterLogger.WifiTest

/-!
# Undoing a test

A timeout restores the configuration that the last request has saved. That is the one from
before the first of the overlapping tests as long as each request finds it in force.
-/

namespace MeterLogger
namespace Wifi

open CStrings CharArray Runs

/-- The network before the first of the overlapping tests, and after the last. -/
structure TestRecord where
  before : List UInt8 × List UInt8
  after : List UInt8 × List UInt8
  deriving DecidableEq

structure Tested where
  sys : System
  origin : List UInt8 × List UInt8
  log : List TestRecord

/-- What is in force when a test becomes active, or was when it did. -/
def Tested.before (w : Tested) : List UInt8 × List UInt8 :=
  if w.sys.test.active then w.origin else w.sys.sdk.stationConf.names

def Tested.next (w : Tested) (e : System.Event) : Tested where
  sys := w.sys.next e
  origin := w.before
  log :=
    if w.sys.test.active && !(w.sys.next e).test.active then
      w.log ++ [⟨w.origin,(w.sys.next e).sdk.stationConf.names⟩]
    else w.log

def Tested.Step : Tested → System.Event → Tested → Prop :=
  Guarded (fun w e => w.sys.can e = true) (ofFun Tested.next)

def Tested.start (sys : System) : Tested := ⟨sys,([],[]),[]⟩

/-- The configuration that a timeout would restore is in force. -/
def savedInForce (s : State) : Bool := (savedConf s.test).names = s.sdk.stationConf.names

/-- A request during a test, or a repeated one without a test, finds in force what a timeout
would restore; and the device does not restart during a test. -/
def undoable (s : System) : System.Event → Bool
  | .testSsidPwd ssid _ _ =>
    (if isRepeat ssid s.toState then s.test.active else s.test.isTesting || !s.test.active) ||
      savedInForce s.toState
  | .destroy => !s.test.active
  | _ => true

theorem short_of_names {c d : StationConf} (h : c.names = d.names) (hd : d.Short) : c.Short := by
  have hssid : str c.ssid = str d.ssid := congrArg Prod.fst h
  have hpwd : str c.password = str d.password := congrArg Prod.snd h
  rw [StationConf.Short,hssid,hpwd]
  exact hd

theorem str_copied {n size : ℕ} {a b : Vector UInt8 n} (hlt : size < n)
    (hlen : (str b).length ≤ size) :
    str ((strncpy (zeros n) (strncpy a b.toList n).toList size).set size 0) = str b := by
  have hall : (str b).take n = str b := List.take_of_length_le (hlen.trans hlt.le)
  have hfull : cstr (strncpy a b.toList n).toList = str b := str_strncpy_full.trans hall
  rw [str_strncpy_set hlt,hfull,List.take_of_length_le hlen]

theorem saved_begun {s t : State} (h : Begun s t) (hshort : s.sdk.stationConf.Short) :
    (savedConf t.test).names = s.sdk.stationConf.names := by
  rw [savedConf,h.ssid,h.pwd]
  exact Prod.ext (str_copied (by decide) hshort.1) (str_copied (by decide) hshort.2)

theorem Begun.active {s t : State} (h : Begun s t) : t.test.active = true := by
  rw [Test.active,h.isTesting,Bool.true_or,Bool.true_or]

theorem repeat_active {s : State} {ssid : List UInt8} (pwd : List UInt8) (stayTimeMs : ℕ)
    (h : isRepeat ssid s = true) :
    (wifiTestSsidPwd ssid pwd stayTimeMs s).1.test.active = true ∧
      savedConf (wifiTestSsidPwd ssid pwd stayTimeMs s).1.test = savedConf s.test := by
  rw [request_repeat pwd stayTimeMs h]
  refine ⟨?_,rfl⟩
  by_cases htest : s.test.isTesting = true
  · simp [Test.active,htest]
  · have hstatus := status_of_repeat h (Bool.eq_false_iff.mpr htest)
    simp [Test.active,hstatus]

theorem saved_timeout (s : State) (env : ApNetwork.Env) :
    savedConf (wifiTestTimeoutTimerFunc env s).test = savedConf s.test := by
  have hend : savedConf (endTest s.test) = savedConf s.test := by
    rw [endTest]
    split <;> rfl
  rw [wifiTestTimeoutTimerFunc]
  dsimp only
  split <;> exact hend

/-- From one state of a test to the next: what was saved stays, and it is in force when the test is
over. -/
structure Kept (s t : State) : Prop where
  saved : (savedConf t.test).names = (savedConf s.test).names
  ended : t.test.active = false → t.sdk.stationConf = savedConf t.test

theorem Kept.of_eq {s t : State} (h : t.test = s.test) (hactive : s.test.active = true) :
    Kept s t := by
  refine ⟨by rw [h],fun hover => ?_⟩
  rw [h,hactive] at hover
  exact Bool.noConfusion hover

theorem kept_timeout (s : State) (env : ApNetwork.Env) :
    Kept s (wifiTestTimeoutTimerFunc env s) :=
  ⟨congrArg StationConf.names (saved_timeout s env),fun _ => (reverted_timeout s env).conf⟩

section Steps

variable {s : System}

theorem kept_event (evt : SystemEvent) (env : ApNetwork.Env) (hactive : s.test.active = true) :
    Kept s.toState (wifiHandleEventCb evt env s.toState) := by
  rcases wifiHandleEventCb_cases evt env s.toState with h | ⟨_,h | h | h⟩ <;> rw [h]
  · exact Kept.of_eq (quiet_event s.toState evt env).test hactive
  · exact Kept.of_eq rfl hactive
  · have htest := (quiet_event (testSucceeded s.toState) evt env).test
    refine ⟨by rw [htest]; rfl,fun hover => ?_⟩
    have hheld : (testSucceeded s.toState).test.active = true := by simp [testSucceeded,Test.active]
    rw [htest,hheld] at hover
    exact Bool.noConfusion hover
  · obtain ⟨hsaved,hover⟩ := kept_timeout (markFailed evt.reason s.toState) env
    exact ⟨hsaved,hover⟩

theorem kept_request (ssid pwd : List UInt8) (stayTimeMs : ℕ) (hactive : s.test.active = true)
    (hok : undoable s (.testSsidPwd ssid pwd stayTimeMs) = true) :
    Kept s.toState (wifiTestSsidPwd ssid pwd stayTimeMs s.toState).1 := by
  by_cases hrepeat : isRepeat ssid s.toState = true
  · obtain ⟨hstill,hsaved⟩ := repeat_active pwd stayTimeMs hrepeat
    exact ⟨congrArg StationConf.names hsaved,
      fun hover => absurd hstill (Bool.eq_false_iff.mp hover)⟩
  · by_cases htest : s.test.isTesting = true
    · rw [request_busy pwd stayTimeMs hrepeat htest]
      exact Kept.of_eq rfl hactive
    · have hbegun := request_begun pwd stayTimeMs hrepeat htest
      have hsame : (savedConf s.test).names = s.sdk.stationConf.names := by
        simpa [undoable,hrepeat,htest,hactive,savedInForce] using hok
      have hshort := short_of_names hsame.symm (savedConf_short s.test)
      exact ⟨(saved_begun hbegun hshort).trans hsame.symm,
        fun hover => absurd hbegun.active (Bool.eq_false_iff.mp hover)⟩

theorem active_next {e : System.Event} (hactive : s.test.active = true)
    (hok : undoable s e = true) : Kept s.toState (s.next e).toState := by
  cases e with
  | wifiEvent evt env => exact kept_event evt env hactive
  | testSsidPwd ssid pwd stayTimeMs => exact kept_request ssid pwd stayTimeMs hactive hok
  | testStartTimer =>
    have hstill : (s.next .testStartTimer).test.active = true := by
      simp [System.next,System.act,wifiTestStartTimerFunc,Test.active]
    exact ⟨rfl,fun hover => absurd hstill (Bool.eq_false_iff.mp hover)⟩
  | testTimeoutTimer env =>
    obtain ⟨hsaved,hover⟩ := kept_timeout (System.timeoutFired s.toState) env
    exact ⟨hsaved,hover⟩
  | destroy =>
    rw [undoable,hactive] at hok
    exact Bool.noConfusion hok
  | _ => exact Kept.of_eq (next_quiet s rfl).test hactive

/-- Without a test: there is none after it either, or one has begun with what was in force saved. -/
inductive Idle (s t : State) : Prop
  | still (hactive : t.test.active = false) (hshort : t.sdk.stationConf.Short)
  | begun (hactive : t.test.active = true)
      (hsaved : (savedConf t.test).names = s.sdk.stationConf.names)

theorem idle_request (ssid pwd : List UInt8) (stayTimeMs : ℕ) (hidle : s.test.active = false)
    (hshort : s.sdk.stationConf.Short)
    (hok : undoable s (.testSsidPwd ssid pwd stayTimeMs) = true) :
    Idle s.toState (wifiTestSsidPwd ssid pwd stayTimeMs s.toState).1 := by
  by_cases hrepeat : isRepeat ssid s.toState = true
  · obtain ⟨hactive,hsaved⟩ := repeat_active pwd stayTimeMs hrepeat
    have hsame : (savedConf s.test).names = s.sdk.stationConf.names := by
      simpa [undoable,hrepeat,hidle,savedInForce] using hok
    exact .begun hactive ((congrArg StationConf.names hsaved).trans hsame)
  · have htest : s.test.isTesting ≠ true := by
      intro htest
      simp [Test.active,htest] at hidle
    have hbegun := request_begun pwd stayTimeMs hrepeat htest
    exact .begun hbegun.active (saved_begun hbegun hshort)

theorem Idle.of_quiet {t : State} (h : Quiet s.toState t) (hidle : s.test.active = false)
    (hshort : s.sdk.stationConf.Short) : Idle s.toState t :=
  .still (h.test.symm ▸ hidle) (h.short hshort)

theorem idle_next {e : System.Event} (hidle : s.test.active = false)
    (hshort : s.sdk.stationConf.Short) (hok : undoable s e = true) (hcan : s.can e = true) :
    Idle s.toState (s.next e).toState := by
  have hnone : s.test.isTesting = false ∧ s.test.startTimer.isSome = false ∧
      s.test.timeoutTimer.isSome = false := by
    simpa only [Test.active,Bool.or_eq_false_iff,and_assoc] using hidle
  cases e with
  | wifiEvent evt env =>
    rcases wifiHandleEventCb_cases evt env s.toState with h | ⟨hbusy,_⟩
    · have hquiet := quiet_event s.toState evt env
      rw [← h] at hquiet
      exact Idle.of_quiet hquiet hidle hshort
    · exact absurd hbusy (Bool.eq_false_iff.mp hnone.1)
  | testSsidPwd ssid pwd stayTimeMs => exact idle_request ssid pwd stayTimeMs hidle hshort hok
  | testStartTimer => exact absurd hcan (Bool.eq_false_iff.mp hnone.2.1)
  | testTimeoutTimer env => exact absurd hcan (Bool.eq_false_iff.mp hnone.2.2)
  | destroy =>
    refine .still ?_ hshort
    have hstopped : (s.next .destroy).test.active = s.test.isTesting := by
      simp [System.next,System.systemRestartDefered,System.act,wifiStopScan,Test.active]
    exact hstopped.trans hnone.1
  | _ => exact Idle.of_quiet (next_quiet s rfl) hidle hshort

end Steps

structure Tested.Inv (w : Tested) : Prop where
  saved : w.sys.test.active = true → (savedConf w.sys.test).names = w.origin
  short : w.sys.test.active = false → w.sys.sdk.stationConf.Short
  log : ∀ r ∈ w.log, r.after = r.before

theorem inv_active {w : Tested} {e : System.Event} (h : w.Inv) (hactive : w.sys.test.active = true)
    (hok : undoable w.sys e = true) : (w.next e).Inv := by
  have hkept := active_next hactive hok
  have hsaved := hkept.saved.trans (h.saved hactive)
  have hbefore : w.before = w.origin := if_pos hactive
  refine ⟨fun _ => hsaved.trans hbefore.symm,fun hover => ?_,fun r hr => ?_⟩
  · exact (hkept.ended hover).symm ▸ savedConf_short _
  · rw [Tested.next] at hr
    dsimp only at hr
    split at hr
    · rename_i hended
      have hover : (w.sys.next e).test.active = false := by simpa [hactive] using hended
      rcases List.mem_append.mp hr with hr | hr
      · exact h.log r hr
      · rw [List.mem_singleton.mp hr]
        exact (congrArg StationConf.names (hkept.ended hover)).trans hsaved
    · exact h.log r hr

theorem inv_idle {w : Tested} {e : System.Event} (h : w.Inv) (hidle : w.sys.test.active = false)
    (hok : undoable w.sys e = true) (hcan : w.sys.can e = true) : (w.next e).Inv := by
  have hlog : (w.next e).log = w.log := if_neg (by simp [hidle])
  have hbefore : w.before = w.sys.sdk.stationConf.names := if_neg (Bool.eq_false_iff.mp hidle)
  cases idle_next hidle (h.short hidle) hok hcan with
  | still hover hshort =>
    exact ⟨fun hactive => absurd hactive (Bool.eq_false_iff.mp hover),fun _ => hshort,
      hlog.symm ▸ h.log⟩
  | begun hactive hsaved =>
    exact ⟨fun _ => hsaved.trans hbefore.symm,
      fun hover => absurd hactive (Bool.eq_false_iff.mp hover),hlog.symm ▸ h.log⟩

/-- In a run in which requests during a test find in force what was saved, the last of
overlapping tests leaves the station in the network from before the first. -/
theorem test_undone {c : WifiCfg} {meshSsid : List UInt8} {env : ApNetwork.Env}
    {es : List System.Event} {w : Tested}
    (h : Run (Guarded (fun w e => undoable w.sys e = true) Tested.Step)
      (.start (.start c meshSsid env)) es w) : ∀ r ∈ w.log, r.after = r.before := by
  have hstart : Tested.Inv (.start (.start c meshSsid env)) :=
    ⟨fun hactive => Bool.noConfusion hactive,fun _ => printConf_short _ _ _,
      fun r hr => absurd hr List.not_mem_nil⟩
  refine (h.invariant (I := Tested.Inv) ?_ hstart).log
  rintro w e t hw ⟨hok,hcan,rfl⟩
  by_cases hactive : w.sys.test.active = true
  · exact inv_active hw hactive hok
  · exact inv_idle hw (Bool.eq_false_iff.mpr hactive) hok hcan

/-- The test of `cafe` succeeds, and then `es` happen during its hold. -/
def holdCafe (es : List System.Event) : List System.Event :=
  testCafe (.wifiEvent ⟨.gotIp 0 0,0⟩ ⟨true,0⟩) ++ es

/-- The hold ends. -/
theorem test_undone_hold :
    ((holdCafe [.testTimeoutTimer ⟨true,0⟩]).foldl Tested.next (.start System.home)).log ≠ [] ∧
      ∀ r ∈ ((holdCafe [.testTimeoutTimer ⟨true,0⟩]).foldl Tested.next (.start System.home)).log,
        r.after = r.before := by
  have hallowed : allowed (fun w e => undoable w.sys e = true ∧ w.sys.can e = true) Tested.next
      (.start System.home) (holdCafe [.testTimeoutTimer ⟨true,0⟩]) = true := by decide
  have hlog : ((holdCafe [.testTimeoutTimer ⟨true,0⟩]).foldl Tested.next
      (.start System.home)).log.isEmpty = false := by decide
  exact ⟨List.isEmpty_eq_false_iff.mp hlog,test_undone (guarded_of_allowed hallowed)⟩

/-- Another test that is requested in the hold is undone into the network of the first. -/
theorem test_strands : ¬∀ (c : WifiCfg) (meshSsid : List UInt8) (env : ApNetwork.Env)
    (es : List System.Event) (w : Tested), (∀ e ∈ es, e ≠ .destroy) →
      Run Tested.Step (.start (.start c meshSsid env)) es w → ∀ r ∈ w.log, r.after = r.before := by
  intro h
  let es : List System.Event := holdCafe
    [.testSsidPwd (ascii "bar") [] 0,.testStartTimer,.testTimeoutTimer ⟨true,0⟩]
  have hallowed : allowed (fun w e => w.sys.can e = true) Tested.next (.start System.home) es = true
      := by decide +kernel
  have hlog : ⟨(ascii "home",[]),(ascii "cafe",[])⟩ ∈ (es.foldl Tested.next (.start System.home)).log
      := by decide +kernel
  have hsame := h _ _ _ _ _ (by simp [es,holdCafe,testCafe]) (run_of_allowed hallowed) _ hlog
  exact absurd hsame (by decide)

end Wifi
end MeterLogger
