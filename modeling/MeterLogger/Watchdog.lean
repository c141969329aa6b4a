import Mathlib.Data.Rat.Floor
import Mathlib.Tactic.Linarith
import MeterLogger.Runs
import MeterLogger.UnixTime

/-!
# Watchdogs

`watchdog_timer_func` comes once a second and compares the uptime with what it was at the last
reset. The uptime is made of the time of the network, which may jump, and of the seconds that were
counted before it was known; real time is kept beside it.
-/

namespace MeterLogger
namespace Watchdog

open UnixTime Runs

def watchdogMax : ℕ := 2

inductive WatchdogType
  | notEnabled
  | reboot
  | networkRestart
  deriving DecidableEq

structure WatchdogT where
  id : UInt32
  type : WatchdogType
  timeout : UInt32
  lastReset : UInt32
  deriving DecidableEq

/-- What the clocks show: the time of the network when it was first known, the seconds that were
counted until then, and the time of the network, with the overflows of its 32 bits; a time is 0
while it is not known. -/
structure Reading where
  initTime : UInt64
  offline : UInt64
  sntp : UInt64
  deriving DecidableEq

def reading (c : Clock) (sntpRaw : UInt32) : Reading :=
  ⟨c.initTime,c.ntpOfflineSecondCounter,(getUnixTime c.unix sntpRaw).1⟩

/-- A watchdog, and what happened to it: what the clocks showed at its last reset or addition, the
time of that, how often the timer had come by then, and whether the action was triggered since. -/
structure Entry extends WatchdogT where
  atReset : Reading
  since : ℚ
  resetTick : ℕ
  triggered : Bool
  deriving DecidableEq

/-- An action that was triggered. -/
structure Action where
  watchdog : WatchdogT
  time : ℚ
  since : ℚ
  deriving DecidableEq

/-- `now` is the time in seconds since the timer was started, and `ticks` how often it came. -/
structure State where
  clock : Clock
  watchdogList : List Entry
  now : ℚ
  ticks : ℕ
  log : List Action

/-- After `init_watchdog` and `start_watchdog`. -/
def start (clock : Clock) : State := ⟨clock,[],0,0,[]⟩

def addWatchdog (s : State) (id : UInt32) (type : WatchdogType) (timeout : UInt32)
    (sntpRaw : UInt32) : State × Bool :=
  if s.watchdogList.length < watchdogMax then
    let uptime := getUptime s.clock sntpRaw
    let entry : Entry :=
      ⟨⟨id,type,timeout,uptime.1.toUInt32⟩,reading s.clock sntpRaw,s.now,s.ticks,false⟩
    ({ s with clock := uptime.2, watchdogList := s.watchdogList ++ [entry] },true)
  else (s,false)

/-- The first watchdog with this number goes, and those behind it move up. -/
def removeWatchdog (s : State) (id : UInt32) : State × Bool :=
  ({ s with watchdogList := s.watchdogList.eraseP fun w => w.id = id },
    s.watchdogList.any fun w => w.id = id)

def resetEntry (id : UInt32) (uptime : UInt64) (clocks : Reading) (now : ℚ) (ticks : ℕ) (w : Entry) :
    Entry :=
  if w.id = id then
    { w with
      lastReset := uptime.toUInt32
      atReset := clocks
      since := now
      resetTick := ticks
      triggered := false }
  else w

def resetWatchdog (s : State) (id : UInt32) (sntpRaw : UInt32) : State :=
  let uptime := getUptime s.clock sntpRaw
  { s with
    clock := uptime.2
    watchdogList := s.watchdogList.map
      (resetEntry id uptime.1 (reading s.clock sntpRaw) s.now s.ticks) }

/-- The seconds since the last reset, as they are computed in 64 bits. -/
def sinceReset (uptime : UInt64) (w : WatchdogT) : UInt64 := uptime-w.lastReset.toUInt64

/-- A watchdog whose reset was at 0 is skipped. -/
def expired (uptime : UInt64) (w : WatchdogT) : Bool :=
  w.type ≠ .notEnabled && w.lastReset ≠ 0 && w.timeout.toUInt64 < sinceReset uptime w

def tickEntry (uptime : UInt64) (w : Entry) : Entry :=
  if expired uptime w.toWatchdogT then
    { w with lastReset := uptime.toUInt32, triggered := true }
  else w

def watchdogTimerFunc (s : State) (sntpRaw : UInt32) : State :=
  let uptime := getUptime s.clock sntpRaw
  let due := s.watchdogList.filter fun w => expired uptime.1 w.toWatchdogT
  { s with
    clock := uptime.2
    watchdogList := s.watchdogList.map (tickEntry uptime.1)
    ticks := s.ticks+1
    log := s.log ++ due.map fun w => ⟨w.toWatchdogT,s.now,w.since⟩ }

/-- What happens, with the seconds of the SNTP client if they are asked for. -/
inductive Call
  | add (id : UInt32) (type : WatchdogType) (timeout : UInt32) (sntpRaw : UInt32)
  | remove (id : UInt32)
  | reset (id : UInt32) (sntpRaw : UInt32)
  | tick (sntpRaw : UInt32)
  | sntpCheck (sntpRaw : UInt32)
  | offlineSecond
  | readUptime (sntpRaw : UInt32)
  | readUnixTime (sntpRaw : UInt32)
  | pass

structure Event where
  time : ℚ
  call : Call

def call (s : State) : Call → State
  | .add id type timeout sntpRaw => (addWatchdog s id type timeout sntpRaw).1
  | .remove id => (removeWatchdog s id).1
  | .reset id sntpRaw => resetWatchdog s id sntpRaw
  | .tick sntpRaw => watchdogTimerFunc s sntpRaw
  | .sntpCheck sntpRaw => { s with clock := sntpCheckTimerFunc s.clock sntpRaw }
  | .offlineSecond => { s with clock := ntpOfflineSecondCounterTimerFunc s.clock }
  | .readUptime sntpRaw => { s with clock := (getUptime s.clock sntpRaw).2 }
  | .readUnixTime sntpRaw =>
    { s with clock := { s.clock with unix := (getUnixTime s.clock.unix sntpRaw).2 } }
  | .pass => s

def next (s : State) (e : Event) : State := call { s with now := e.time } e.call

/-- The timer comes at every full second, everything else in between; the other two timers come
while they are armed. -/
def Can (s : State) (e : Event) : Prop :=
  s.now ≤ e.time ∧ match e.call with
    | .tick _ => e.time = s.ticks+1
    | .sntpCheck _ => e.time < s.ticks+1 ∧ s.clock.sntpCheckTimer = true
    | .offlineSecond => e.time < s.ticks+1 ∧ s.clock.ntpOfflineSecondCounterTimer = true
    | _ => e.time < s.ticks+1

def Step : State → Event → State → Prop := Guarded Can (ofFun next)

/-- The clocks have gone on by `n` seconds: counted while there was no time of the network, by that
time once it was known, or by both if it came in between. -/
structure Gone (r r' : Reading) (n : ℕ) : Prop where
  fits : n < 2^64
  offline : r'.initTime = 0 → r.initTime = 0 ∧ r'.offline.toNat = r.offline.toNat+n
  synced : r'.initTime ≠ 0 → r.initTime = 0 →
    r'.sntp.toNat+r'.offline.toNat = r'.initTime.toNat+r.offline.toNat+n
  online : r.initTime ≠ 0 → r'.initTime = r.initTime ∧ r'.offline = r.offline ∧
    r'.sntp.toNat = r.sntp.toNat+n

/-- The seconds since boot that a reading stands for. -/
def Reading.uptime (r : Reading) : UInt64 :=
  if r.initTime = 0 then r.offline else r.sntp-r.initTime+r.offline

/-- The clocks have kept time since the reset, when the timer has come `passed` times since: they are
ahead by no more than is left of the timeout, and once it is over they are at most `lag` seconds
behind. A reset at uptime 0 is followed by another one in time. -/
def Entry.Kept (lag passed : ℕ) (clocks : Reading) (w : Entry) : Prop :=
  if w.atReset.uptime = 0 then passed ≤ w.timeout.toNat+lag
  else w.atReset.uptime.toNat < 2^32 ∧ ∃ gone, Gone w.atReset clocks gone ∧
    (passed ≤ w.timeout.toNat → gone-passed ≤ w.timeout.toNat-passed) ∧
    (w.timeout.toNat+lag < passed → passed-gone ≤ lag)

/-- When the timer comes, the clocks have kept time for every watchdog that is enabled and was not
triggered since its last reset. -/
def Kept (lag : ℕ) (s : State) (e : Event) : Prop :=
  match e.call with
  | .tick sntpRaw => ∀ w ∈ s.watchdogList, w.type ≠ .notEnabled → w.triggered = false →
    w.Kept lag (s.ticks+1-w.resetTick) (reading s.clock sntpRaw)
  | _ => True

/-- Every action was triggered more than `timeout` seconds after the last reset. -/
def NotEarly (log : List Action) : Prop :=
  ∀ a ∈ log, (a.watchdog.timeout.toNat : ℚ) < a.time-a.since

/-- Of a watchdog without a reset for more than `timeout+1` seconds, and `lag` seconds more, the
action was triggered. -/
def NotLate (lag : ℕ) (s : State) : Prop :=
  ∀ w ∈ s.watchdogList, w.type ≠ .notEnabled →
    (w.timeout.toNat : ℚ)+1+lag < s.now-w.since → w.triggered = true

/-- The last reset was between two comings of the timer, and the action was triggered after the
timer had come more than `timeout` times since, and before it had come `lag` times more. -/
structure Entry.Good (lag ticks : ℕ) (w : Entry) : Prop where
  lastReset : w.triggered = false → w.lastReset = w.atReset.uptime.toUInt32
  begun : w.resetTick ≤ ticks
  after : (w.resetTick : ℚ) ≤ w.since
  before : w.since < w.resetTick+1
  overdue : w.triggered = true → w.timeout.toNat < ticks-w.resetTick
  within : w.type ≠ .notEnabled → w.triggered = false → ticks-w.resetTick ≤ w.timeout.toNat+lag

structure Inv (lag : ℕ) (s : State) : Prop where
  after : (s.ticks : ℚ) ≤ s.now
  before : s.now < s.ticks+1
  entries : ∀ w ∈ s.watchdogList, w.Good lag s.ticks
  notEarly : NotEarly s.log

theorem getUptime_eq (c : Clock) (sntpRaw : UInt32) :
    (getUptime c sntpRaw).1 = (reading c sntpRaw).uptime := by
  rw [getUptime,Reading.uptime]
  by_cases h : c.initTime = 0
  · rw [if_pos h]
    exact (if_pos h).symm
  · rw [if_neg h]
    exact (if_neg h).symm

/-- The uptime goes on as the clocks do, also when the counted seconds are left for the time of the
network. -/
theorem Gone.uptime_sub {r r' : Reading} {n : ℕ} (h : Gone r r' n) :
    (r'.uptime-r.uptime).toNat = n := by
  have hfits := h.fits
  have hbound := r.offline.toNat_lt
  rw [Reading.uptime,Reading.uptime]
  by_cases hknown : r'.initTime = 0
  · obtain ⟨hunknown,hcount⟩ := h.offline hknown
    rw [if_pos hknown,if_pos hunknown,UInt64.toNat_sub]
    omega
  · by_cases hunknown : r.initTime = 0
    · have hsum := h.synced hknown hunknown
      rw [if_neg hknown,if_pos hunknown,UInt64.toNat_sub,UInt64.toNat_add,UInt64.toNat_sub]
      have hinit := r'.initTime.toNat_lt
      omega
    · obtain ⟨hinit,hoffline,hsntp⟩ := h.online hunknown
      rw [if_neg hknown,if_neg hunknown,hinit,hoffline]
      have hcancel : r'.sntp-r.initTime+r.offline-(r.sntp-r.initTime+r.offline) = r'.sntp-r.sntp := by
        grind
      have hbefore := r.sntp.toNat_lt
      rw [hcancel,UInt64.toNat_sub]
      omega

section Entries

variable {lag ticks : ℕ} {uptime : UInt64} {clocks : Reading} {w : Entry}

theorem expired_iff {w : WatchdogT} : expired uptime w = true ↔
    w.type ≠ .notEnabled ∧ w.lastReset ≠ 0 ∧ w.timeout.toNat < (sinceReset uptime w).toNat := by
  rw [expired,Bool.and_eq_true,Bool.and_eq_true,decide_eq_true_eq,decide_eq_true_eq,
    decide_eq_true_eq,UInt64.lt_iff_toNat_lt,UInt32.toNat_toUInt64,and_assoc]

/-- A watchdog is due when the clocks have gone on by more than its timeout since the reset. -/
theorem Gone.expired_iff {gone : ℕ} (h : Gone w.atReset clocks gone) (hzero : w.atReset.uptime ≠ 0)
    (hfits : w.atReset.uptime.toNat < 2^32) (hreset : w.lastReset = w.atReset.uptime.toUInt32)
    (htype : w.type ≠ .notEnabled) :
    expired clocks.uptime w.toWatchdogT = true ↔ w.timeout.toNat < gone := by
  have hback : w.atReset.uptime.toUInt32.toUInt64 = w.atReset.uptime := by
    apply UInt64.toNat_inj.mp
    rw [UInt32.toNat_toUInt64,UInt64.toNat_toUInt32,Nat.mod_eq_of_lt hfits]
  have hne : w.lastReset ≠ 0 := by
    intro hno
    rw [hreset] at hno
    rw [hno] at hback
    exact hzero hback.symm
  have hgone : (sinceReset clocks.uptime w.toWatchdogT).toNat = gone := by
    rw [sinceReset,hreset,hback]
    exact h.uptime_sub
  rw [Watchdog.expired_iff,hgone]
  exact ⟨fun hall => hall.2.2,fun hlt => ⟨htype,hne,hlt⟩⟩

/-- While the clocks keep time the action is due when the timer has come often enough. -/
theorem Entry.Kept.expired {passed : ℕ} (h : w.Kept lag passed clocks)
    (hreset : w.lastReset = w.atReset.uptime.toUInt32) (htype : w.type ≠ .notEnabled) :
    (expired clocks.uptime w.toWatchdogT = true → w.timeout.toNat < passed) ∧
      (w.timeout.toNat+lag < passed → expired clocks.uptime w.toWatchdogT = true) := by
  rw [Entry.Kept] at h
  split at h
  · rename_i hzero
    have hskipped : w.lastReset = 0 := by
      rw [hreset,hzero]
      rfl
    exact ⟨fun hall => absurd hskipped (Watchdog.expired_iff.mp hall).2.1,
      fun hlt => absurd h (by omega)⟩
  · rename_i hzero
    obtain ⟨hfits,gone,hgone,hahead,hbehind⟩ := h
    rw [hgone.expired_iff hzero hfits hreset htype]
    omega

theorem Entry.Good.elapsed (h : w.Good lag ticks) {last : ℕ}
    (hlt : w.timeout.toNat < last-w.resetTick) : (w.timeout.toNat : ℚ) < last-w.since := by
  have hsum : w.resetTick+w.timeout.toNat+1 ≤ last := by omega
  have hcast : (w.resetTick : ℚ)+w.timeout.toNat+1 ≤ last := by exact_mod_cast hsum
  have hbefore := h.before
  linarith

theorem Entry.good_fresh {now : ℚ} (hafter : (ticks : ℚ) ≤ now) (hbefore : now < ticks+1)
    (w : WatchdogT) (hreset : w.lastReset = clocks.uptime.toUInt32) :
    (⟨w,clocks,now,ticks,false⟩ : Entry).Good lag ticks where
  lastReset _ := hreset
  begun := Nat.le_refl _
  after := hafter
  before := hbefore
  overdue h := nomatch h
  within _ _ := by
    rw [Nat.sub_self]
    exact Nat.zero_le _

theorem resetEntry_good {id : UInt32} {now : ℚ} (hafter : (ticks : ℚ) ≤ now)
    (hbefore : now < ticks+1) (h : w.Good lag ticks) :
    (resetEntry id clocks.uptime clocks now ticks w).Good lag ticks := by
  rw [resetEntry]
  split
  · exact Entry.good_fresh hafter hbefore _ rfl
  · exact h

theorem tickEntry_good (h : w.Good lag ticks)
    (hkept : w.type ≠ .notEnabled → w.triggered = false →
      w.Kept lag (ticks+1-w.resetTick) clocks) :
    (tickEntry clocks.uptime w).Good lag (ticks+1) := by
  have hover : w.triggered = true → w.timeout.toNat < ticks+1-w.resetTick := by
    intro htriggered
    have hlt := h.overdue htriggered
    omega
  rw [tickEntry]
  split
  · rename_i hexpired
    refine ⟨fun hopen => (nomatch hopen),h.begun.trans (Nat.le_succ _),h.after,h.before,
      fun _ => ?_,fun _ hopen => nomatch hopen⟩
    by_cases htriggered : w.triggered = true
    · exact hover htriggered
    · have htype := (expired_iff.mp hexpired).1
      have hopen := Bool.eq_false_iff.mpr htriggered
      exact ((hkept htype hopen).expired (h.lastReset hopen) htype).1 hexpired
  · rename_i hexpired
    refine ⟨h.lastReset,h.begun.trans (Nat.le_succ _),h.after,h.before,hover,fun htype hopen => ?_⟩
    exact not_lt.mp fun hlt =>
      hexpired (((hkept htype hopen).expired (h.lastReset hopen) htype).2 hlt)

end Entries

section Steps

variable {lag : ℕ} {s : State} {e : Event}

theorem notEarly_tick {raw : UInt32} (h : Inv lag s) (hnow : e.time = s.ticks+1)
    (hkept : ∀ w ∈ s.watchdogList, w.type ≠ .notEnabled → w.triggered = false →
      w.Kept lag (s.ticks+1-w.resetTick) (reading s.clock raw)) :
    NotEarly (watchdogTimerFunc { s with now := e.time } raw).log := by
  intro a ha
  rcases List.mem_append.mp ha with ha | ha
  · exact h.notEarly a ha
  · obtain ⟨w,hw,rfl⟩ := List.mem_map.mp ha
    obtain ⟨hmem,hexpired⟩ := List.mem_filter.mp hw
    have hgood := tickEntry_good (h.entries w hmem) (hkept w hmem)
    rw [← getUptime_eq,tickEntry,if_pos hexpired] at hgood
    have helapsed := hgood.elapsed (hgood.overdue rfl)
    dsimp only at helapsed ⊢
    rw [hnow]
    push_cast at helapsed
    exact helapsed

theorem inv_step (h : Inv lag s) (hkept : Kept lag s e) (hcan : Can s e) : Inv lag (next s e) := by
  obtain ⟨time,c⟩ := e
  obtain ⟨hlater,hcall⟩ := hcan
  have hafter : (s.ticks : ℚ) ≤ time := h.after.trans hlater
  cases c with
  | tick raw =>
    have hnow : time = s.ticks+1 := hcall
    refine ⟨?_,?_,fun w hw => ?_,notEarly_tick (e := ⟨time,.tick raw⟩) h hnow hkept⟩
    · show ((s.ticks+1 : ℕ) : ℚ) ≤ time
      push_cast
      exact hnow.ge
    · show time < ((s.ticks+1 : ℕ) : ℚ)+1
      push_cast
      linarith
    · obtain ⟨x,hx,rfl⟩ := List.mem_map.mp hw
      have hgood := tickEntry_good (h.entries x hx) (hkept x hx)
      rw [← getUptime_eq] at hgood
      exact hgood
  | add id type timeout raw =>
    have hbefore : time < s.ticks+1 := hcall
    show Inv lag (addWatchdog { s with now := time } id type timeout raw).1
    rw [addWatchdog]
    split
    · refine ⟨hafter,hbefore,fun w hw => ?_,h.notEarly⟩
      rcases List.mem_append.mp hw with hw | hw
      · exact h.entries w hw
      · rw [List.mem_singleton.mp hw]
        exact Entry.good_fresh hafter hbefore _ (by rw [getUptime_eq])
    · exact ⟨hafter,hbefore,h.entries,h.notEarly⟩
  | remove id =>
    exact ⟨hafter,hcall,fun w hw => h.entries w (List.mem_of_mem_eraseP hw),h.notEarly⟩
  | reset id raw =>
    refine ⟨hafter,hcall,fun w hw => ?_,h.notEarly⟩
    obtain ⟨x,hx,rfl⟩ := List.mem_map.mp hw
    rw [getUptime_eq]
    exact resetEntry_good hafter hcall (h.entries x hx)
  | sntpCheck raw => exact ⟨hafter,hcall.1,h.entries,h.notEarly⟩
  | offlineSecond => exact ⟨hafter,hcall.1,h.entries,h.notEarly⟩
  | readUptime raw => exact ⟨hafter,hcall,h.entries,h.notEarly⟩
  | readUnixTime raw => exact ⟨hafter,hcall,h.entries,h.notEarly⟩
  | pass => exact ⟨hafter,hcall,h.entries,h.notEarly⟩

theorem Inv.notLate (h : Inv lag s) : NotLate lag s := by
  intro w hw htype hlong
  by_contra hopen
  have hgood := h.entries w hw
  have hwithin := hgood.within htype (Bool.eq_false_iff.mpr hopen)
  have hsum : s.ticks ≤ w.resetTick+w.timeout.toNat+lag := by omega
  have hcast : (s.ticks : ℚ) ≤ w.resetTick+w.timeout.toNat+lag := by exact_mod_cast hsum
  have hbefore := h.before
  have hafter := hgood.after
  linarith

end Steps

/-- In a run in which the clocks have kept time whenever the timer comes, no action is triggered
before its time is over, and none is missing a second after it, or as much later as the clocks lag. -/
theorem watchdog_sound {lag : ℕ} {clock : Clock} {es : List Event} {s : State}
    (h : Run (Guarded (Kept lag) Step) (start clock) es s) : NotEarly s.log ∧ NotLate lag s := by
  have hstart : Inv lag (start clock) := by
    refine ⟨?_,?_,fun w hw => absurd hw List.not_mem_nil,fun a ha => absurd ha List.not_mem_nil⟩
    · exact le_of_eq Nat.cast_zero
    · show (0 : ℚ) < ((0 : ℕ) : ℚ)+1
      norm_num
  have hinv : Inv lag s := by
    refine h.invariant (I := Inv lag) ?_ hstart
    rintro s e t hs ⟨hkept,hcan,rfl⟩
    exact inv_step hs hkept hcan
  exact ⟨hinv.notEarly,hinv.notLate⟩

def offline : Clock := { Clock.init with ntpOfflineSecondCounter := 10 }

def added : State := next (start offline) ⟨1/2,.add 1 .networkRestart 1 0⟩

/-- A second is counted, and the timer comes. -/
def counted : State := next (next added ⟨3/4,.offlineSecond⟩) ⟨1,.tick 0⟩

/-- The time of the network is known, and half a second later it has gone on. -/
def synced : State := next counted ⟨5/4,.sntpCheck 1700000000⟩

/-- A timeout of one second is over when the timer comes for the second time. -/
theorem watchdog_sound_second :
    Run (Guarded (Kept 0) Step) (start offline)
        [⟨1/2,.add 1 .networkRestart 1 0⟩,⟨3/4,.offlineSecond⟩,⟨1,.tick 0⟩,
          ⟨5/4,.sntpCheck 1700000000⟩,⟨2,.tick 1700000001⟩] (next synced ⟨2,.tick 1700000001⟩) ∧
      (next synced ⟨2,.tick 1700000001⟩).log = [⟨⟨1,.networkRestart,1,10⟩,2,1/2⟩] ∧
      NotEarly (next synced ⟨2,.tick 1700000001⟩).log ∧
      NotLate 0 (next synced ⟨2,.tick 1700000001⟩) := by
  have hfirst : Kept 0 (next added ⟨3/4,.offlineSecond⟩) ⟨1,.tick 0⟩ := by
    intro w hw _ _
    obtain rfl := List.mem_singleton.mp hw
    exact ⟨by decide,1,⟨by decide,fun _ => by decide,fun hno => absurd rfl hno,
      fun hno => absurd rfl hno⟩,by decide,by decide⟩
  have hsecond : Kept 0 synced ⟨2,.tick 1700000001⟩ := by
    intro w hw _ _
    obtain rfl := List.mem_singleton.mp hw
    exact ⟨by decide,2,⟨by decide,fun hno => absurd hno (by decide),fun _ _ => by decide,
      fun hno => absurd rfl hno⟩,by decide,by decide⟩
  have hrun : Run (Guarded (Kept 0) Step) (start offline)
      [⟨1/2,.add 1 .networkRestart 1 0⟩,⟨3/4,.offlineSecond⟩,⟨1,.tick 0⟩,
        ⟨5/4,.sntpCheck 1700000000⟩,⟨2,.tick 1700000001⟩] (next synced ⟨2,.tick 1700000001⟩) := by
    refine .cons ⟨trivial,⟨?_,?_⟩,rfl⟩ (.cons ⟨trivial,⟨?_,?_,?_⟩,rfl⟩
      (.cons ⟨hfirst,⟨?_,?_⟩,rfl⟩ (.cons ⟨trivial,⟨?_,?_,?_⟩,rfl⟩ (.single ⟨hsecond,⟨?_,?_⟩,rfl⟩))))
    all_goals decide +kernel
  exact ⟨hrun,by decide +kernel,watchdog_sound hrun⟩

/-- The first time from the network comes right after boot. -/
def checked : State := next (start Clock.init) ⟨1/4,.sntpCheck 1700000000⟩

/-- The time goes on before the watchdog is added. -/
def watched : State := next checked ⟨1/2,.add 1 .networkRestart 120 1700000001⟩

/-- The clock is put back by a second after the watchdog was added, and the network is restarted
half a second later instead of two minutes. -/
theorem watchdog_early : ¬∀ (clock : Clock) (es : List Event) (s : State),
    Run Step (start clock) es s → NotEarly s.log ∧ NotLate 0 s := by
  intro h
  have hcheck : Step (start Clock.init) ⟨1/4,.sntpCheck 1700000000⟩ checked :=
    ⟨⟨by decide +kernel,by show _ < _ ∧ _; decide +kernel⟩,rfl⟩
  have hadd : Step checked ⟨1/2,.add 1 .networkRestart 120 1700000001⟩ watched :=
    ⟨⟨by decide +kernel,by show _ < _; decide +kernel⟩,rfl⟩
  have htick : Step watched ⟨1,.tick 1700000000⟩ (next watched ⟨1,.tick 1700000000⟩) :=
    ⟨⟨by decide +kernel,by show _ = _; decide +kernel⟩,rfl⟩
  have hearly := (h _ _ _ (.cons hcheck (.cons hadd (.single htick)))).1
  have hlog : (next watched ⟨1,.tick 1700000000⟩).log =
      [⟨⟨1,.networkRestart,120,1⟩,1,1/2⟩] := by decide +kernel
  rw [hlog] at hearly
  exact absurd (hearly _ List.mem_cons_self) (by decide +kernel)

end Watchdog
end MeterLogger
