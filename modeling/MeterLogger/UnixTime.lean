import Mathlib.Algebra.Group.Nat.Defs
import Mathlib.Tactic.Common

/-!
# Unix time

`get_unix_time` extends the 32 bit seconds of the SNTP client: a step back from the end of their
range counts as one more overflow.
-/

namespace MeterLogger
namespace UnixTime

/-- The variables of `unix_time.c` that `get_unix_time` writes. -/
structure State where
  lastSntpRaw : UInt32
  epochOverflowOffset : UInt64
  currentUnixTime : UInt64

/-- What `init_unix_time` leaves. -/
def init : State := ⟨0,0,0⟩

/-- The time, 0 while it is not known; `sntpRaw` is what the SNTP client gives. -/
def getUnixTime (s : State) (sntpRaw : UInt32) : UInt64 × State :=
  if sntpRaw = 0 then (0,s)
  else
    let offset :=
      if sntpRaw < s.lastSntpRaw ∧ 0xF0000000 < s.lastSntpRaw then
        s.epochOverflowOffset+0x100000000
      else s.epochOverflowOffset
    let now := offset+sntpRaw.toUInt64
    (now,⟨sntpRaw,offset,now⟩)

theorem getUnixTime_again (s : State) (sntpRaw : UInt32) :
    (getUnixTime (getUnixTime s sntpRaw).2 sntpRaw).1 = (getUnixTime s sntpRaw).1 := by
  by_cases h : sntpRaw = 0
  · simp only [getUnixTime,if_pos h]
  · have hsame : ¬(sntpRaw < sntpRaw ∧ 0xF0000000 < sntpRaw) := fun hlt => UInt32.lt_irrefl _ hlt.1
    simp only [getUnixTime,if_neg h,if_neg hsame]

/-- The variables of `unix_time.c`; a timer is armed or not. -/
structure Clock where
  unix : State
  initTime : UInt64
  ntpOfflineSecondCounter : UInt64
  sntpCheckTimer : Bool
  ntpOfflineSecondCounterTimer : Bool

/-- What `init_unix_time` leaves at boot. -/
def Clock.init : Clock := ⟨UnixTime.init,0,0,true,true⟩

/-- `current_unix_time = get_unix_time()`. -/
def Clock.read (c : Clock) (sntpRaw : UInt32) : UInt64 × Clock :=
  let now := getUnixTime c.unix sntpRaw
  (now.1,{ c with unix := { now.2 with currentUnixTime := now.1 } })

/-- Before the first time from the network the seconds are counted, then they are added to the
time since. -/
def getUptime (c : Clock) (sntpRaw : UInt32) : UInt64 × Clock :=
  let now := c.read sntpRaw
  if c.initTime = 0 then (c.ntpOfflineSecondCounter,now.2)
  else (now.1-c.initTime+c.ntpOfflineSecondCounter,now.2)

/-- The timer comes again until there is a time. -/
def sntpCheckTimerFunc (c : Clock) (sntpRaw : UInt32) : Clock :=
  let now := c.read sntpRaw
  if now.1 = 0 then now.2
  else
    { now.2 with
      sntpCheckTimer := false
      ntpOfflineSecondCounterTimer := false
      initTime := if c.initTime = 0 then now.1 else c.initTime }

def ntpOfflineSecondCounterTimerFunc (c : Clock) : Clock :=
  { c with ntpOfflineSecondCounter := c.ntpOfflineSecondCounter+1 }

end UnixTime
end MeterLogger
