import MeterLogger.Calendar
import MeterLogger.ConfigCommands
import MeterLogger.Decimal
import MeterLogger.Runs

/-!
# Cron

`minute_timer_func` runs the jobs that match the local time, and arms its timer again so that it
comes at the beginning of a minute. Nothing remembers the minute of the last run.
-/

namespace MeterLogger
namespace Cron

open CStrings CharArray SysCfg Calendar Runs

/-- Summer time in Copenhagen, from the time that is one hour ahead of UTC. -/
def isSummer (dt : Tm) : Bool :=
  let s := dt.hour*3600+dt.min*60+dt.sec
  if dt.mon < 2 || 9 < dt.mon then false
  else if 2 < dt.mon && dt.mon < 9 then true
  else
    -- The Sunday before this day, or this day, is the last one of a month of 31 days.
    let lastSunday := dt.wday+25 ≤ dt.mday
    if dt.mon = 2 then lastSunday && (dt.wday ≠ 0 || 7200 ≤ s)
    else if lastSunday then dt.wday = 0 && s < 3600
    else true

def isDst (utc : ℕ) : Bool := isSummer (gmtime (utc+3600))

def localTime (utc : ℕ) : ℕ := utc+3600+if isDst utc then 3600 else 0

/-- The same minute of the local calendar; in the hour that comes twice the clock tells which of
the two it is. -/
structure SameMinute (t u : ℕ) : Prop where
  year : (gmtime (localTime t)).year = (gmtime (localTime u)).year
  mon : (gmtime (localTime t)).mon = (gmtime (localTime u)).mon
  mday : (gmtime (localTime t)).mday = (gmtime (localTime u)).mday
  hour : (gmtime (localTime t)).hour = (gmtime (localTime u)).hour
  min : (gmtime (localTime t)).min = (gmtime (localTime u)).min
  isdst : isDst t = isDst u

theorem SameMinute.utc {t u : ℕ} (h : SameMinute t u) : t/60 = u/60 := by
  have hlocal := gmtime_minute h.year h.mon h.mday h.hour h.min
  rw [localTime,localTime,h.isdst] at hlocal
  split at hlocal <;> omega

/-- A field that is left open matches everything. -/
def isOpen (field : Vector UInt8 8) : Bool := str field = ascii "*" || str field = []

def fieldMatches (field : Vector UInt8 8) (value : ℕ) : Bool :=
  isOpen field || (value : ℤ) = Decimal.atoi (str field)

/-- Sunday is 0 or 7. -/
def dayOfWeekMatches (field : Vector UInt8 8) (value : ℕ) : Bool :=
  isOpen field || (value : ℤ) = (Decimal.atoi (str field)).tmod 7

def jobMatches (job : CronJobT) (dt : Tm) : Bool :=
  fieldMatches job.hour dt.hour && fieldMatches job.minute dt.min &&
    fieldMatches job.dayOfMonth dt.mday && fieldMatches job.month (dt.mon+1) &&
    dayOfWeekMatches job.dayOfWeek dt.wday

/-- What a command meets: the flash, the variables of the caller, and whether the radio is in
another mode than the command wants. -/
structure JobEnv where
  flash : SyscfgT
  sums : Sums
  opmodeDiffers : Bool

def runCommand (chip : Chip) (env : JobEnv) (s : SysCfg.State) (job : CronJobT) : SysCfg.State :=
  let command := str job.command
  if command = ascii "open" then s.change fun c => { c with acThermoState := 1 }
  else if command = ascii "close" then s.change fun c => { c with acThermoState := 0 }
  else if command = ascii "set_ssid_pwd" then
    (cfgSaveSsidPwd chip env.flash env.sums s (str job.commandParams)).1
  else if command = ascii "start_ap" then
    if env.opmodeDiffers && s.sysCfg.apEnabled = 0 then
      (store (s.change fun c => { c with apEnabled := 1 })).1
    else s
  else if command = ascii "stop_ap" then
    if env.opmodeDiffers && s.sysCfg.apEnabled = 1 then
      (store (s.change fun c => { c with apEnabled := 0 })).1
    else s
  else if command = ascii "clear_cron" then s.change clearCronJobs
  -- `reconnect`, `off` and `test` leave the configuration alone.
  else s

/-- The loop over the jobs from job `i` on: the configuration, and the jobs that were run. A
command may change the table that the loop goes through. -/
def scanJobs (chip : Chip) (env : ℕ → JobEnv) (dt : Tm) :
    ℕ → ℕ → SysCfg.State → SysCfg.State × List ℕ
  | 0, _, s => (s,[])
  | k+1, i, s =>
    if h : i < s.sysCfg.cronJobsN.toNat ∧ i < 16 then
      have := h.2
      let job := s.sysCfg.cronJobList[i]
      if jobMatches job dt then
        let r := scanJobs chip env dt k (i+1) (runCommand chip (env i) s job)
        (r.1,i::r.2)
      else scanJobs chip env dt k (i+1) s
    else (s,[])

/-- A timer that is armed, in seconds. -/
structure Timer where
  delay : ℕ
  periodic : Bool
  deriving DecidableEq

/-- A job that was run: its place in the table and the time. -/
structure Execution where
  utc : ℕ
  slot : ℕ
  deriving DecidableEq

/-- `clock` is the time when the timer was armed or came last, `scanned` when the jobs were last
gone through. -/
structure State where
  sys : SysCfg.State
  secDrift : ℕ
  timer : Option Timer
  clock : ℕ
  scanned : Option ℕ
  log : List Execution

def cronInit (sys : SysCfg.State) (utc : ℕ) : State := ⟨sys,0,some ⟨60,true⟩,utc,none,[]⟩

/-- A timer that fires stays armed only if it is periodic. -/
def fired (timer : Option Timer) : Option Timer := timer.filter Timer.periodic

/-- On the minute the timer becomes periodic again, otherwise it is armed for the rest of the
minute. -/
def rearm (sec : ℕ) (s : State) : State :=
  if sec = 0 then
    if s.secDrift ≠ 0 then { s with timer := some ⟨60,true⟩, secDrift := 0 } else s
  else { s with timer := some ⟨60-sec,false⟩, secDrift := 60-sec }

def runJobs (chip : Chip) (env : ℕ → JobEnv) (utc : ℕ) (s : State) : State :=
  let r := scanJobs chip env (gmtime (localTime utc)) 16 0 s.sys
  { s with sys := r.1, scanned := some utc, log := s.log ++ r.2.map fun i => ⟨utc,i⟩ }

/-- `utc` is 0 while the time is not known. -/
def minuteTimerFunc (chip : Chip) (env : ℕ → JobEnv) (utc : ℕ) (s : State) : State :=
  let s := { s with timer := fired s.timer, clock := utc }
  if s.sys.otaInProgress then s
  else if utc = 0 then s
  else runJobs chip env utc (rearm (gmtime (localTime utc)).sec s)

/-- The timer comes `elapsed` seconds after it was armed, and meanwhile the clock was put forward
or back by `adjust`; or something else changes the configuration. -/
inductive Event
  | minute (elapsed : ℕ) (adjust : ℤ) (env : ℕ → JobEnv)
  | config (sys : SysCfg.State)

/-- The clock when the timer comes. -/
def clockAfter (s : State) (elapsed : ℕ) (adjust : ℤ) : ℕ := (s.clock+elapsed+adjust).toNat

def next (chip : Chip) (s : State) : Event → State
  | .minute elapsed adjust env => minuteTimerFunc chip env (clockAfter s elapsed adjust) s
  | .config sys => { s with sys := sys }

/-- The timer comes up to a second early or late, and the clock does not go back. -/
def Can (s : State) : Event → Prop
  | .minute elapsed adjust _ =>
    (∃ timer ∈ s.timer, timer.delay ≤ elapsed+1 ∧ elapsed ≤ timer.delay+1) ∧
      s.clock ≤ clockAfter s elapsed adjust
  | .config _ => True

def Step (chip : Chip) : State → Event → State → Prop := Guarded Can (ofFun (next chip))

/-- If the clock is still in the minute in which the jobs were last gone through, it runs through the
delay for which the timer was armed before the timer comes. An update leaves the jobs alone. -/
def InTime (s : State) : Event → Prop
  | .minute elapsed adjust _ => s.sys.otaInProgress = false → ∀ last ∈ s.scanned,
    last/60 = s.clock/60 → ∀ timer ∈ s.timer, (timer.delay : ℤ) ≤ elapsed+adjust
  | .config _ => True

section Scan

variable (chip : Chip) (env : ℕ → JobEnv) (dt : Tm)

theorem scanJobs_sorted (k i : ℕ) (s : SysCfg.State) :
    (scanJobs chip env dt k i s).2.Pairwise (· < ·) ∧ ∀ j ∈ (scanJobs chip env dt k i s).2, i ≤ j := by
  induction k generalizing i s with
  | zero => exact ⟨.nil,fun j hj => absurd hj List.not_mem_nil⟩
  | succ k ih =>
    rw [scanJobs]
    split
    · dsimp only
      split
      · obtain ⟨hsorted,hle⟩ := ih (i+1) (runCommand chip (env i) s _)
        refine ⟨List.pairwise_cons.mpr ⟨hle,hsorted⟩,fun j hj => ?_⟩
        rcases List.mem_cons.mp hj with rfl | hj
        · exact Nat.le_refl _
        · exact Nat.le_of_succ_le (hle j hj)
      · obtain ⟨hsorted,hle⟩ := ih (i+1) s
        exact ⟨hsorted,fun j hj => Nat.le_of_succ_le (hle j hj)⟩
    · exact ⟨.nil,fun j hj => absurd hj List.not_mem_nil⟩

end Scan

/-- No job has been run twice within a minute of the local calendar. -/
def OncePerMinute (log : List Execution) : Prop :=
  log.Pairwise fun a b => ¬(a.slot = b.slot ∧ SameMinute a.utc b.utc)

/-- What was run was run no later than the jobs were last gone through, and the armed delay does not
end before the minute of that is over. -/
structure Inv (s : State) : Prop where
  once : OncePerMinute s.log
  bound : ∀ e ∈ s.log, ∃ last ∈ s.scanned, e.utc ≤ last
  scanned_le : ∀ last ∈ s.scanned, last ≤ s.clock
  delay_ge : ∀ last ∈ s.scanned, ∀ timer ∈ s.timer, last+(60-last%60) ≤ s.clock+timer.delay
  periodic : ∀ timer ∈ s.timer, timer.periodic = true → timer.delay = 60

section Steps

variable {chip : Chip} {env : ℕ → JobEnv} {utc : ℕ} {s t : State}

theorem fired_some {timer armed : Timer} (h : timer ∈ fired s.timer) (ha : armed ∈ s.timer) :
    timer = armed ∧ armed.periodic = true := by
  rw [fired,Option.mem_def.mp ha] at h
  cases hp : armed.periodic <;> simp_all [Option.filter]

theorem sec_local (utc : ℕ) : (gmtime (localTime utc)).sec = utc%60 := by
  rw [localTime]
  show (utc+3600+_)%60 = utc%60
  split <;> omega

theorem rearm_delay (hp : ∀ timer ∈ s.timer, timer.delay = 60) (sec : ℕ) :
    ∀ timer ∈ (rearm sec s).timer, 60-sec ≤ timer.delay ∧
      (timer.periodic = true → timer.delay = 60) := by
  rw [rearm]
  split
  · split
    · rintro timer ⟨⟩
      exact ⟨Nat.sub_le 60 sec,fun _ => rfl⟩
    · intro timer ht
      rw [hp timer ht]
      exact ⟨Nat.sub_le 60 sec,fun _ => rfl⟩
  · rintro timer ⟨⟩
    exact ⟨Nat.le_refl _,fun hno => absurd hno Bool.false_ne_true⟩

theorem rearm_same (sec : ℕ) (s : State) :
    (rearm sec s).scanned = s.scanned ∧ (rearm sec s).log = s.log ∧ (rearm sec s).clock = s.clock := by
  rw [rearm]
  split
  · split <;> exact ⟨rfl,rfl,rfl⟩
  · exact ⟨rfl,rfl,rfl⟩

/-- When the timer comes in time, the minute in which the jobs were last gone through is over. -/
theorem Inv.rest_over (h : Inv s) {elapsed : ℕ} {adjust : ℤ} (hcan : Can s (.minute elapsed adjust env))
    (htime : InTime s (.minute elapsed adjust env)) (hota : s.sys.otaInProgress = false) :
    ∀ last ∈ s.scanned, last+(60-last%60) ≤ clockAfter s elapsed adjust := by
  intro last hlast
  obtain ⟨⟨timer,harmed,_⟩,hclock⟩ := hcan
  have hle := h.scanned_le last hlast
  by_cases hminute : last/60 = s.clock/60
  · have hends := h.delay_ge last hlast timer harmed
    have hwaited := htime hota last hlast hminute timer harmed
    rw [clockAfter]
    omega
  · omega

theorem Inv.skip (h : Inv s) (hle : s.clock ≤ utc) :
    Inv { s with timer := fired s.timer, clock := utc } := by
  have hfired : ∀ timer ∈ fired s.timer, timer ∈ s.timer := by
    intro timer ht
    cases ha : s.timer with
    | none => simp [fired,ha] at ht
    | some armed => rw [(fired_some ht ha).1]; rfl
  refine ⟨h.once,h.bound,fun last hlast => (h.scanned_le last hlast).trans hle,?_,
    fun timer ht => h.periodic timer (hfired timer ht)⟩
  intro last hlast timer ht
  exact (h.delay_ge last hlast timer (hfired timer ht)).trans (Nat.add_le_add_right hle _)

/-- When the jobs are gone through in a later minute, whichever they are, none is run again. -/
theorem Inv.runJobs (h : Inv s) (hlast : ∀ last ∈ s.scanned, last+(60-last%60) ≤ utc)
    (hclock : s.clock = utc) (hdelay : ∀ timer ∈ s.timer, 60-utc%60 ≤ timer.delay) :
    Inv (runJobs chip env utc s) := by
  have hearlier : ∀ e ∈ s.log, e.utc/60 < utc/60 := by
    intro e he
    obtain ⟨last,hmem,hle⟩ := h.bound e he
    have hrest := hlast last hmem
    omega
  have hnew : ∀ slots : List ℕ, ∀ e ∈ slots.map fun i => (⟨utc,i⟩ : Execution), e.utc = utc := by
    intro slots e he
    obtain ⟨i,_,rfl⟩ := List.mem_map.mp he
    rfl
  refine ⟨?_,?_,?_,?_,h.periodic⟩
  · refine List.pairwise_append.mpr ⟨h.once,?_,?_⟩
    · refine List.Pairwise.map _ (fun i j hlt => ?_) (scanJobs_sorted chip env _ 16 0 s.sys).1
      exact fun hsame => absurd hsame.1 (Nat.ne_of_lt hlt)
    · intro a ha b hb hsame
      have hminute := hsame.2.utc
      rw [hnew _ b hb] at hminute
      exact absurd hminute (Nat.ne_of_lt (hearlier a ha))
  · intro e he
    refine ⟨utc,rfl,?_⟩
    rcases List.mem_append.mp he with he | he
    · have hlt := hearlier e he
      omega
    · exact (hnew _ e he).le
  · rintro last ⟨⟩
    exact hclock.ge
  · rintro last ⟨⟩ timer ht
    have hrest := hdelay timer ht
    show utc+(60-utc%60) ≤ s.clock+timer.delay
    omega

theorem inv_minute (h : Inv s) {elapsed : ℕ} {adjust : ℤ} (hcan : Can s (.minute elapsed adjust env))
    (htime : InTime s (.minute elapsed adjust env)) :
    Inv (minuteTimerFunc chip env (clockAfter s elapsed adjust) s) := by
  have hskip : Inv { s with timer := fired s.timer, clock := clockAfter s elapsed adjust } :=
    h.skip hcan.2
  rw [minuteTimerFunc]
  dsimp only
  split
  · exact hskip
  · rename_i hota
    rw [Bool.not_eq_true] at hota
    split
    · exact hskip
    · have hrest := h.rest_over hcan htime hota
      obtain ⟨⟨armed,harmed,_⟩,_⟩ := hcan
      have hp : ∀ timer ∈ fired s.timer, timer.delay = 60 := by
        intro timer ht
        obtain ⟨rfl,hperiodic⟩ := fired_some ht harmed
        exact h.periodic timer harmed hperiodic
      generalize clockAfter s elapsed adjust = utc at hskip hrest ⊢
      have hdelay := rearm_delay (s := { s with timer := fired s.timer, clock := utc }) hp
        (gmtime (localTime utc)).sec
      obtain ⟨hscanned,hlog,hclock⟩ := rearm_same (gmtime (localTime utc)).sec
        { s with timer := fired s.timer, clock := utc }
      rw [sec_local] at hdelay hscanned hlog hclock ⊢
      have hrearmed : Inv (rearm (utc%60) { s with timer := fired s.timer, clock := utc }) := by
        refine ⟨?_,?_,?_,?_,fun timer ht => (hdelay timer ht).2⟩
        · rw [hlog]
          exact hskip.once
        · rw [hlog,hscanned]
          exact hskip.bound
        · rw [hscanned,hclock]
          exact hskip.scanned_le
        · rw [hscanned,hclock]
          intro last hlast timer _
          exact (hrest last hlast).trans (Nat.le_add_right _ _)
      refine hrearmed.runJobs ?_ hclock fun timer ht => (hdelay timer ht).1
      rw [hscanned]
      exact hrest

end Steps

theorem inv_step {chip : Chip} (s : State) (e : Event) (t : State) (h : Inv s)
    (hstep : Guarded InTime (Step chip) s e t) : Inv t := by
  obtain ⟨htime,hcan,rfl⟩ := hstep
  cases e with
  | minute elapsed adjust env => exact inv_minute h hcan htime
  | config sys => exact ⟨h.once,h.bound,h.scanned_le,h.delay_ge,h.periodic⟩

theorem inv_cronInit (sys : SysCfg.State) (utc : ℕ) : Inv (cronInit sys utc) where
  once := .nil
  bound _ he := absurd he List.not_mem_nil
  scanned_le _ hlast := nomatch hlast
  delay_ge _ hlast := nomatch hlast
  periodic := by
    rintro timer ⟨⟩ _
    rfl

/-- In a run in which the timer never comes before the clock has run through its delay, no job is run
twice within a minute. -/
theorem once_per_minute {chip : Chip} {sys : SysCfg.State} {utc : ℕ} {es : List Event} {s : State}
    (h : Run (Guarded InTime (Step chip)) (cronInit sys utc) es s) : OncePerMinute s.log :=
  (h.invariant inv_step (inv_cronInit sys utc)).once

/-- One job, for every minute. -/
def testJob : SysCfg.State :=
  ⟨⟨{ cleared with
      cronJobsN := 1
      cronJobList := modifyJob cleared.cronJobList 0 (writeCommand [] (ascii "test")) },0⟩,false,[]⟩

def quietEnv : ℕ → JobEnv := fun _ => ⟨⟨cleared,0⟩,⟨0,0⟩,false⟩

def booted : State := cronInit testJob 1699999950

/-- The first minute is over half past a minute of the clock. -/
def halfPast : State := next sampleChip booted (.minute 60 0 quietEnv)

theorem booted_can : Can booted (.minute 60 0 quietEnv) :=
  ⟨⟨⟨60,true⟩,rfl,by decide,by decide⟩,by decide⟩

theorem halfPast_timer : halfPast.timer = some ⟨30,false⟩ := by decide

theorem halfPast_can {elapsed : ℕ} (hle : 29 ≤ elapsed) (hge : elapsed ≤ 31) :
    Can halfPast (.minute elapsed 0 quietEnv) := by
  refine ⟨⟨⟨30,false⟩,halfPast_timer,?_,?_⟩,?_⟩
  · show 30 ≤ elapsed+1
    omega
  · exact hge
  · rw [clockAfter]
    omega

/-- The timer comes at the beginning of the next minute. -/
theorem once_per_minute_half : ∃ s,
    Run (Guarded InTime (Step sampleChip)) booted [.minute 60 0 quietEnv,.minute 30 0 quietEnv] s ∧
      s.log = [⟨1700000010,0⟩,⟨1700000040,0⟩] ∧ OncePerMinute s.log := by
  have hrest : InTime halfPast (.minute 30 0 quietEnv) := by
    intro _ last _ _ timer htimer
    rw [halfPast_timer] at htimer
    cases htimer
    decide
  have hrun : Run (Guarded InTime (Step sampleChip)) booted
      [.minute 60 0 quietEnv,.minute 30 0 quietEnv]
      (next sampleChip halfPast (.minute 30 0 quietEnv)) :=
    .cons ⟨fun _ _ hno => (nomatch hno),booted_can,rfl⟩
      (.single ⟨hrest,halfPast_can (by decide) (by decide),rfl⟩)
  exact ⟨_,hrun,by decide +kernel,once_per_minute hrun⟩

/-- The timer comes a second early, and the job is run again. -/
theorem twice_in_a_minute : ¬∀ (chip : Chip) (sys : SysCfg.State) (utc : ℕ) (es : List Event)
    (s : State), Run (Step chip) (cronInit sys utc) es s → OncePerMinute s.log := by
  intro h
  have hrun : Run (Step sampleChip) booted [.minute 60 0 quietEnv,.minute 29 0 quietEnv]
      (next sampleChip halfPast (.minute 29 0 quietEnv)) :=
    .cons ⟨booted_can,rfl⟩ (.single ⟨halfPast_can (by decide) (by decide),rfl⟩)
  have honce := h _ _ _ _ _ hrun
  have hlog : (next sampleChip halfPast (.minute 29 0 quietEnv)).log =
      [⟨1700000010,0⟩,⟨1700000039,0⟩] := by decide +kernel
  rw [hlog] at honce
  refine (List.pairwise_cons.mp honce).1 ⟨1700000039,0⟩ List.mem_cons_self ⟨rfl,?_⟩
  constructor <;> decide

end Cron
end MeterLogger
