import MeterLogger.Config

/-!
# The valve output

`ac_out.c`: the triac outputs on GPIO14 and GPIO15, and the three timers that drive them. A
valve is opened by a low or a high level, depending on the build.
-/

namespace MeterLogger
namespace AcOut

open Config Runs

/-- `THERMO_NO` and `THERMO_ON_AC_2`. -/
structure Build where
  thermoNo : Bool
  thermoOnAc2 : Bool
  deriving DecidableEq

inductive PwmState
  | on
  | off
  deriving DecidableEq

/-- The levels are high if true; a timer is armed or not. -/
structure State where
  gpio14 : Bool
  gpio15 : Bool
  testTimer : Bool
  outOffTimer : Bool
  pwmTimer : Bool
  dutyCycle : ℕ
  pwmState : PwmState
  cfg : Config.State
  deriving DecidableEq

def Build.level (b : Build) (isOpen : Bool) : Bool := isOpen ^^ b.thermoNo

def acTestTimerFunc (s : State) : State := { s with gpio14 := !s.gpio14 }

def acOutOffTimerFunc (b : Build) (s : State) : State :=
  { s with
    gpio14 := false
    gpio15 := if b.thermoOnAc2 then false else s.gpio15
    outOffTimer := false }

/-- Both halves of the period arm the timer again. -/
def acPwmTimerFunc (b : Build) (s : State) : State :=
  match s.pwmState with
  | .off =>
    { s with
      pwmState := .on
      gpio14 := if 0 < s.dutyCycle then b.level true else s.gpio14
      pwmTimer := true }
  | .on =>
    { s with
      pwmState := .off
      gpio14 := if s.dutyCycle < 1000 then b.level false else s.gpio14
      pwmTimer := true }

def acTest (b : Build) (s : State) : State :=
  { s with
    gpio14 := true
    gpio15 := if b.thermoOnAc2 then false else s.gpio15
    testTimer := true }

/-- `ac_thermo_open` and `ac_thermo_close`. -/
def acThermo (b : Build) (s : State) (isOpen : Bool) : State :=
  { s with
    gpio14 := b.level isOpen
    gpio15 := if b.thermoOnAc2 then b.level isOpen else s.gpio15
    cfg := saveThermoState s.cfg isOpen }

def acThermoOpen (b : Build) (s : State) : State := acThermo b s true

def acThermoClose (b : Build) (s : State) : State := acThermo b s false

def acThermoPwm (s : State) (dutyCycle : ℕ) : State := { s with dutyCycle := dutyCycle, pwmTimer := true }

/-- The timer that switches the output off fires at once. -/
def acOff (s : State) : State := { s with testTimer := false, outOffTimer := true }

/-- The start of the program: the valve takes the state that was saved. -/
def boot (b : Build) (gpio14 gpio15 : Bool) (cfg : Config.State) : State :=
  let s : State := ⟨gpio14,gpio15,false,false,false,0,.off,cfg⟩
  if cfg.sysCfg.acThermoState then acThermoOpen b s else acThermoClose b s

inductive Event
  | thermo (isOpen : Bool)
  | test
  | pwm (dutyCycle : ℕ)
  | off
  | testTimer
  | outOffTimer
  | pwmTimer
  deriving DecidableEq

/-- A timer fires when it is armed. -/
def Enabled (s : State) : Event → Prop
  | .testTimer => s.testTimer = true
  | .outOffTimer => s.outOffTimer = true
  | .pwmTimer => s.pwmTimer = true
  | _ => True

def next (b : Build) (s : State) : Event → State
  | .thermo isOpen => acThermo b s isOpen
  | .test => acTest b s
  | .pwm dutyCycle => acThermoPwm s dutyCycle
  | .off => acOff s
  | .testTimer => acTestTimerFunc s
  | .outOffTimer => acOutOffTimerFunc b s
  | .pwmTimer => acPwmTimerFunc b s

def step (b : Build) (s : State) (e : Event) (t : State) : Prop := Enabled s e ∧ t = next b s e

def isTimer : Event → Bool
  | .testTimer | .outOffTimer | .pwmTimer => true
  | _ => false

/-- The last command, if it opened or closed the valve. -/
def lastThermo (last : Option Bool) : Event → Option Bool
  | .thermo isOpen => some isOpen
  | .test | .pwm _ | .off => none
  | .testTimer | .outOffTimer | .pwmTimer => last

/-- No timer of an earlier command moves the output away from the level of the valve. -/
structure Undisturbed (b : Build) (s : State) (isOpen : Bool) : Prop where
  test : s.testTimer = false
  outOff : s.outOffTimer = true → b.level isOpen = false
  pwm : s.pwmTimer = true → if isOpen then 1000 ≤ s.dutyCycle else s.dutyCycle = 0

/-- The valve is opened and closed only when nothing will disturb it. -/
def Ok (b : Build) (s : State) (e : Event) : Prop :=
  ∀ isOpen, e = .thermo isOpen → Undisturbed b s isOpen

/-- The output follows the valve. -/
structure Follows (b : Build) (s : State) (isOpen : Bool) : Prop where
  gpio14 : s.gpio14 = b.level isOpen
  saved : s.cfg.sysCfg.acThermoState = isOpen

section Steps

variable {b : Build} {s t : State} {isOpen : Bool} {e : Event} {es : List Event}

theorem saveThermoState_state (c : Config.State) (isOpen : Bool) :
    (saveThermoState c isOpen).sysCfg.acThermoState = isOpen := by
  rw [saveThermoState]
  split
  · assumption
  · rw [changeDefered,cfgSaveDefered]
    split <;> rfl

theorem acThermo_follows (b : Build) (s : State) (isOpen : Bool) :
    Follows b (acThermo b s isOpen) isOpen := ⟨rfl,saveThermoState_state _ _⟩

theorem Undisturbed.thermo (h : Undisturbed b s isOpen) : Undisturbed b (acThermo b s isOpen) isOpen :=
  ⟨h.test,h.outOff,h.pwm⟩

theorem next_undisturbed (he : Enabled s e) (ht : isTimer e = true) (hu : Undisturbed b s isOpen)
    (hf : Follows b s isOpen) : Undisturbed b (next b s e) isOpen ∧ Follows b (next b s e) isOpen := by
  cases e with
  | testTimer => exact absurd (hu.test.symm.trans he) (by decide)
  | outOffTimer =>
    refine ⟨⟨hu.test,fun h => absurd h (by simp [next,acOutOffTimerFunc]),hu.pwm⟩,?_,hf.saved⟩
    exact (hu.outOff he).symm
  | pwmTimer =>
    have hpwm := hu.pwm he
    rw [next,acPwmTimerFunc]
    cases hstate : s.pwmState with
    | off =>
      refine ⟨⟨hu.test,hu.outOff,fun _ => hpwm⟩,?_,hf.saved⟩
      cases isOpen with
      | true =>
        have hpos : 0 < s.dutyCycle := Nat.lt_of_lt_of_le (by decide) hpwm
        exact if_pos hpos
      | false =>
        have hzero : ¬0 < s.dutyCycle := by
          have hduty : s.dutyCycle = 0 := hpwm
          omega
        exact (if_neg hzero).trans hf.gpio14
    | on =>
      refine ⟨⟨hu.test,hu.outOff,fun _ => hpwm⟩,?_,hf.saved⟩
      cases isOpen with
      | true =>
        have hfull : ¬s.dutyCycle < 1000 := Nat.not_lt.mpr hpwm
        exact (if_neg hfull).trans hf.gpio14
      | false =>
        have hzero : s.dutyCycle = 0 := hpwm
        exact if_pos (by omega)
  | thermo _ => cases ht
  | test => cases ht
  | pwm _ => cases ht
  | off => cases ht

theorem fires_undisturbed (h : Run (Guarded (fun _ e => isTimer e = true) (step b)) s es t)
    (hu : Undisturbed b s isOpen) (hf : Follows b s isOpen) : Follows b t isOpen := by
  have hall := h.invariant (I := fun s => Undisturbed b s isOpen ∧ Follows b s isOpen) (by
    rintro s e t ⟨hu,hf⟩ ⟨ht,he,rfl⟩
    exact next_undisturbed he ht hu hf) ⟨hu,hf⟩
  exact hall.2

theorem level_ne (b : Build) (isOpen : Bool) : b.level (!isOpen) ≠ b.level isOpen := by
  rw [Build.level,Build.level]
  cases isOpen <;> cases b.thermoNo <;> decide

theorem fire (he : Enabled s e) (ht : isTimer e = true) :
    Guarded (fun _ e => isTimer e = true) (step b) s e (next b s e) := ⟨ht,he,rfl⟩

theorem pwm_disturbs (hpwm : s.pwmTimer = true)
    (hduty : ¬if isOpen then 1000 ≤ s.dutyCycle else s.dutyCycle = 0) :
    ∃ es t, Run (Guarded (fun _ e => isTimer e = true) (step b)) s es t ∧
      t.gpio14 ≠ b.level isOpen := by
  have hother : ∀ u : State, u.pwmTimer = true → u.dutyCycle = s.dutyCycle →
      u.pwmState = (if isOpen then .on else .off) →
      (acPwmTimerFunc b u).gpio14 = b.level (!isOpen) := by
    intro u _ hcycle hstate
    rw [acPwmTimerFunc,hstate]
    cases isOpen with
    | true =>
      have hlow : u.dutyCycle < 1000 := by
        rw [hcycle]
        exact Nat.not_le.mp hduty
      exact if_pos hlow
    | false =>
      have hpos : 0 < u.dutyCycle := by
        rw [hcycle]
        exact Nat.pos_of_ne_zero hduty
      exact if_pos hpos
  by_cases hstate : s.pwmState = if isOpen then .on else .off
  · refine ⟨[.pwmTimer],_,.single (fire hpwm rfl),?_⟩
    rw [show (next b s .pwmTimer).gpio14 = b.level (!isOpen) from hother s hpwm rfl hstate]
    exact level_ne b isOpen
  · have hstep : (acPwmTimerFunc b s).pwmTimer = true ∧
        (acPwmTimerFunc b s).dutyCycle = s.dutyCycle ∧
        (acPwmTimerFunc b s).pwmState = if isOpen then .on else .off := by
      rw [acPwmTimerFunc]
      cases hnow : s.pwmState with
      | off =>
        rw [hnow] at hstate
        cases isOpen with
        | true => exact ⟨rfl,rfl,rfl⟩
        | false => exact absurd rfl hstate
      | on =>
        rw [hnow] at hstate
        cases isOpen with
        | true => exact absurd rfl hstate
        | false => exact ⟨rfl,rfl,rfl⟩
    obtain ⟨htimer,hcycle,hnext⟩ := hstep
    refine ⟨[.pwmTimer,.pwmTimer],_,.cons (fire hpwm rfl) (.single (fire htimer rfl)),?_⟩
    rw [show (next b (next b s .pwmTimer) .pwmTimer).gpio14 = b.level (!isOpen) from
      hother (acPwmTimerFunc b s) htimer hcycle hnext]
    exact level_ne b isOpen

/-- The valve keeps the level of a command, whatever fires, if and only if nothing was left
behind that disturbs it. -/
theorem undisturbed_iff (b : Build) (s : State) (isOpen : Bool) :
    (∀ es t, Run (Guarded (fun _ e => isTimer e = true) (step b)) (acThermo b s isOpen) es t →
      Follows b t isOpen) ↔ Undisturbed b s isOpen := by
  constructor
  · intro h
    refine ⟨?_,fun hoff => ?_,fun hpwm => ?_⟩
    · by_contra htest
      have harmed : Enabled (acThermo b s isOpen) .testTimer := (Bool.not_eq_false _).mp htest
      have hfollows := h [.testTimer] _ (.single (fire harmed rfl))
      exact (Bool.not_eq_self _).mp hfollows.gpio14
    · exact (h [.outOffTimer] _ (.single (fire hoff rfl))).gpio14.symm
    · by_contra hduty
      obtain ⟨es,t,hrun,hlevel⟩ := pwm_disturbs (b := b) (s := acThermo b s isOpen) hpwm hduty
      exact hlevel (h es t hrun).gpio14
  · intro hu es t hrun
    exact fires_undisturbed hrun hu.thermo (acThermo_follows b s isOpen)

end Steps

theorem boot_follows (b : Build) (gpio14 gpio15 : Bool) (cfg : Config.State) :
    Undisturbed b (boot b gpio14 gpio15 cfg) cfg.sysCfg.acThermoState ∧
      Follows b (boot b gpio14 gpio15 cfg) cfg.sysCfg.acThermoState := by
  have hcommand : ∀ isOpen, Undisturbed b ⟨gpio14,gpio15,false,false,false,0,.off,cfg⟩ isOpen :=
    fun _ => ⟨rfl,fun h => absurd h Bool.false_ne_true,fun h => absurd h Bool.false_ne_true⟩
  rw [boot]
  cases cfg.sysCfg.acThermoState with
  | true => exact ⟨(hcommand true).thermo,acThermo_follows b _ true⟩
  | false => exact ⟨(hcommand false).thermo,acThermo_follows b _ false⟩

theorem run_follows {b : Build} {s t : State} {es : List Event}
    (h : Run (Guarded (Ok b) (step b)) s es t) (last : Option Bool)
    (hlast : ∀ isOpen, last = some isOpen → Undisturbed b s isOpen ∧ Follows b s isOpen) :
    ∀ isOpen, es.foldl lastThermo last = some isOpen →
      Undisturbed b t isOpen ∧ Follows b t isOpen := by
  induction h generalizing last with
  | nil => exact hlast
  | @cons s _ _ e _ hs _ ih =>
    obtain ⟨hok,he,rfl⟩ := hs
    apply ih (lastThermo last e)
    intro isOpen hcommand
    cases e with
    | thermo now =>
      obtain rfl : now = isOpen := Option.some.inj hcommand
      exact ⟨(hok now rfl).thermo,acThermo_follows b s now⟩
    | test => cases hcommand
    | pwm dutyCycle => cases hcommand
    | off => cases hcommand
    | testTimer =>
      obtain ⟨hu,hf⟩ := hlast isOpen hcommand
      exact next_undisturbed he rfl hu hf
    | outOffTimer =>
      obtain ⟨hu,hf⟩ := hlast isOpen hcommand
      exact next_undisturbed he rfl hu hf
    | pwmTimer =>
      obtain ⟨hu,hf⟩ := hlast isOpen hcommand
      exact next_undisturbed he rfl hu hf

/-- In a run in which the valve is opened and closed only when no timer of an earlier command
can disturb it, the output has the level of the last command and the state saved is its. -/
theorem valve_follows {b : Build} {gpio14 gpio15 : Bool} {cfg : Config.State} {es : List Event}
    {s : State} (h : Run (Guarded (Ok b) (step b)) (boot b gpio14 gpio15 cfg) es s) {isOpen : Bool}
    (hlast : es.foldl lastThermo (some cfg.sysCfg.acThermoState) = some isOpen) :
    s.gpio14 = b.level isOpen ∧ s.cfg.sysCfg.acThermoState = isOpen := by
  obtain ⟨_,hf⟩ := run_follows h (some cfg.sysCfg.acThermoState)
    (by
      rintro _ ⟨⟩
      exact boot_follows b gpio14 gpio15 cfg)
    isOpen hlast
  exact ⟨hf.gpio14,hf.saved⟩

def sampleBuild : Build := ⟨false,false⟩

def sampleState : State := boot sampleBuild false false (Config.boot sampleCfg (some sampleCfg))

/-- The output is tested and switched off before the valve is opened. -/
theorem valve_follows_open : ∃ s, Run (Guarded (Ok sampleBuild) (step sampleBuild)) sampleState
    [.test,.testTimer,.off,.outOffTimer,.thermo true] s ∧
      s.gpio14 = sampleBuild.level true ∧ s.cfg.sysCfg.acThermoState = true := by
  have hother : ∀ (s : State) (e : Event), (∀ isOpen, e ≠ .thermo isOpen) → Ok sampleBuild s e :=
    fun _ _ hne isOpen he => absurd he (hne isOpen)
  have hrun : Run (Guarded (Ok sampleBuild) (step sampleBuild)) sampleState
      [.test,.testTimer,.off,.outOffTimer,.thermo true]
      ([.test,.testTimer,.off,.outOffTimer,.thermo true].foldl (next sampleBuild) sampleState) := by
    refine .cons ⟨hother _ _ (by simp),trivial,rfl⟩ ?_
    refine .cons ⟨hother _ _ (by simp),rfl,rfl⟩ ?_
    refine .cons ⟨hother _ _ (by simp),trivial,rfl⟩ ?_
    refine .cons ⟨hother _ _ (by simp),rfl,rfl⟩ ?_
    refine .single ⟨?_,trivial,rfl⟩
    rintro _ ⟨⟩
    exact ⟨rfl,fun h => absurd h (by decide),fun h => absurd h (by decide)⟩
  exact ⟨_,hrun,valve_follows hrun rfl⟩

/-- The test is on when the valve is opened; its timer goes on. -/
theorem valve_disturbed : ¬∀ (b : Build) (gpio14 gpio15 : Bool) (cfg : Config.State)
    (es : List Event) (s : State) (isOpen : Bool), Run (step b) (boot b gpio14 gpio15 cfg) es s →
    es.foldl lastThermo (some cfg.sysCfg.acThermoState) = some isOpen →
    s.gpio14 = b.level isOpen ∧ s.cfg.sysCfg.acThermoState = isOpen := by
  intro h
  have hrun : Run (step sampleBuild) sampleState [.test,.thermo true,.testTimer]
      ([.test,.thermo true,.testTimer].foldl (next sampleBuild) sampleState) := by
    refine .cons ⟨trivial,rfl⟩ ?_
    refine .cons ⟨trivial,rfl⟩ ?_
    exact .single ⟨rfl,rfl⟩
  have hlevel := (h _ _ _ _ _ _ true hrun rfl).1
  exact absurd hlevel (by decide)

end AcOut
end MeterLogger
