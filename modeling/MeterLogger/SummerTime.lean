import MeterLogger.Cron

/-!
# Summer time

The civil time of Copenhagen by the European rule, as instants, and the fields that
`minute_timer_func` compares with the jobs. The two are the same but for one hour of the year: the
program ends summer time at 00:00 UTC and not at 01:00 UTC.
-/

namespace MeterLogger
namespace SummerTime

open Calendar Cron

/-- The days from the first of March of the year 0 to that of a year. -/
def marchFirst (year : ℕ) : ℕ := year/400*146097+daysBefore (year%400)

def sundayBefore (z : ℕ) : ℕ := z-(z+3)%7

/-- The last Sunday of a month of 31 days, counted from 0. -/
def lastSunday (year mon : ℕ) : ℕ := sundayBefore (dayOf (year,mon,31))

/-- Seconds from the first of March of the year 0. -/
def instant (utc : ℕ) : ℕ := 719468*86400+utc

/-- From 01:00 UTC on the last Sunday of March to 01:00 UTC on the last Sunday of October. -/
def SummerOf (year utc : ℕ) : Prop :=
  lastSunday year 2*86400+3600 ≤ instant utc ∧ instant utc < lastSunday year 9*86400+3600

def Summer (utc : ℕ) : Prop := ∃ year, SummerOf year utc

/-- The last hour of summer time. -/
def LastHour (utc : ℕ) : Prop :=
  ∃ year, lastSunday year 9*86400 ≤ instant utc ∧ instant utc < lastSunday year 9*86400+3600

/-- Two times are the same to the fields of a cron job. -/
structure Agrees (t u : ℕ) : Prop where
  min : (gmtime t).min = (gmtime u).min
  hour : (gmtime t).hour = (gmtime u).hour
  mday : (gmtime t).mday = (gmtime u).mday
  mon : (gmtime t).mon = (gmtime u).mon
  wday : (gmtime t).wday = (gmtime u).wday

/-- A day in the year that begins on a first of March. -/
structure InYear (z year doy : ℕ) : Prop where
  day : z = marchFirst year+doy
  lt : doy < 366
  date : civil z = (year+((monthDay doy).1+2)/12,((monthDay doy).1+2)%12,(monthDay doy).2)

theorem exists_inYear (z : ℕ) : ∃ year doy, InYear z year doy := by
  obtain ⟨hyear,hle,hdoy⟩ := yearOfEra_bounds (Nat.mod_lt z (show 0 < 146097 by decide))
  have hsplit := Nat.div_add_mod z 146097
  refine ⟨yearOfEra (z%146097)+z/146097*400,z%146097-daysBefore (yearOfEra (z%146097)),?_,hdoy,?_⟩
  · rw [marchFirst,Nat.add_mul_div_right _ _ (by decide),Nat.div_eq_of_lt hyear,Nat.zero_add,
      Nat.add_mul_mod_self_right,Nat.mod_eq_of_lt hyear]
    omega
  · rw [civil]

theorem marchFirst_eq (year : ℕ) : marchFirst year+year/100 = 365*year+year/4+year/400 := by
  rw [marchFirst,daysBefore]
  omega

theorem marchFirst_add_le {y y' : ℕ} (h : y < y') : marchFirst y+365 ≤ marchFirst y' := by
  have hy := marchFirst_eq y
  have hy' := marchFirst_eq y'
  rw [show y/100 = y/4/25 by rw [Nat.div_div_eq_div_mul]] at hy
  rw [show y'/100 = y'/4/25 by rw [Nat.div_div_eq_div_mul]] at hy'
  have hquarters : y/4 ≤ y'/4 := Nat.div_le_div_right h.le
  have hcycles : y/400 ≤ y'/400 := Nat.div_le_div_right h.le
  omega

theorem dayOf_march (year : ℕ) : dayOf (year,2,31) = marchFirst year+30 := by
  simp [dayOf,marchFirst]

theorem dayOf_october (year : ℕ) : dayOf (year,9,31) = marchFirst year+244 := by
  simp [dayOf,marchFirst]

theorem InYear.unique {z year doy year' : ℕ} (h : InYear z year doy) (hlt : marchFirst year' < z)
    (hle : z < marchFirst year'+365) : year = year' := by
  have hday := h.day
  have hdoy := h.lt
  rcases Nat.lt_trichotomy year year' with hless | heq | hmore
  · have hnext := marchFirst_add_le hless
    omega
  · exact heq
  · have hnext := marchFirst_add_le hmore
    omega

theorem sundayBefore_bounds (z : ℕ) (h : 6 ≤ z) :
    sundayBefore z ≤ z ∧ z ≤ sundayBefore z+6 ∧ (sundayBefore z+3)%7 = 0 := by
  rw [sundayBefore]
  omega

/-- In a month of 31 days whose last day is `z`, the Sunday before a day is the last one of the
month when it is the 25th or later. -/
theorem last_sunday_iff {z d : ℕ} (hz : 30 ≤ z) (hd : d ≤ z) (hfirst : z ≤ d+30) :
    ((d+3)%7+25 ≤ d+31-z ↔ sundayBefore z ≤ d) ∧
      (sundayBefore z ≤ d → ((d+3)%7 = 0 ↔ d = sundayBefore z)) := by
  obtain ⟨hle,hge,hsunday⟩ := sundayBefore_bounds z (by omega)
  generalize sundayBefore z = s at *
  omega

theorem month_cases {doy : ℕ} (h : doy < 366) :
    doy < 31 ∧ (monthDay doy).1 = 0 ∧ (monthDay doy).2 = doy+1 ∨
      31 ≤ doy ∧ doy < 214 ∧ 1 ≤ (monthDay doy).1 ∧ (monthDay doy).1 ≤ 6 ∨
      214 ≤ doy ∧ doy < 245 ∧ (monthDay doy).1 = 7 ∧ (monthDay doy).2 = doy-213 ∨
      245 ≤ doy ∧ 8 ≤ (monthDay doy).1 ∧ (monthDay doy).1 < 12 := by
  have hsplit := Nat.div_add_mod (5*doy+2) 153
  have hlt := Nat.mod_lt (5*doy+2) (show 0 < 153 by decide)
  rw [monthDay]
  dsimp only
  generalize (5*doy+2)/153 = mp at *
  have hmp : mp = 0 ∨ 1 ≤ mp ∧ mp ≤ 6 ∨ mp = 7 ∨ 8 ≤ mp ∧ mp < 12 := by omega
  rcases hmp with rfl | hmp | rfl | hmp <;> omega

theorem isSummer_iff (dt : Tm) : isSummer dt = true ↔
    2 < dt.mon ∧ dt.mon < 9 ∨
      dt.mon = 2 ∧ dt.wday+25 ≤ dt.mday ∧ (dt.wday ≠ 0 ∨ 7200 ≤ dt.hour*3600+dt.min*60+dt.sec) ∨
      dt.mon = 9 ∧ (dt.wday+25 ≤ dt.mday →
        dt.wday = 0 ∧ dt.hour*3600+dt.min*60+dt.sec < 3600) := by
  rw [isSummer]
  generalize dt.hour*3600+dt.min*60+dt.sec = s
  dsimp only
  split_ifs with hout hin hmarch hlast
  · simp only [Bool.or_eq_true,decide_eq_true_eq] at hout
    exact iff_of_false (by decide) (by omega)
  · simp only [Bool.and_eq_true,decide_eq_true_eq] at hin
    exact iff_of_true rfl (Or.inl hin)
  · simp only [Bool.and_eq_true,Bool.or_eq_true,decide_eq_true_eq]
    omega
  · simp only [Bool.or_eq_true,Bool.and_eq_true,decide_eq_true_eq] at *
    omega
  · simp only [Bool.or_eq_true,Bool.and_eq_true,decide_eq_true_eq] at hout hin hlast
    exact iff_of_true rfl (by omega)

/-- What the program takes for summer time, `e` seconds into a day that is `doy` days behind the
first of March. -/
theorem isSummer_day {dt : Tm} {m doy e : ℕ} (hdoy : doy < 366) (he : e < 86400)
    (hmon : dt.mon = ((monthDay doy).1+2)%12) (hmday : dt.mday = (monthDay doy).2)
    (hwday : dt.wday = (m+doy+3)%7) (hs : dt.hour*3600+dt.min*60+dt.sec = e) :
    isSummer dt = true ↔
      sundayBefore (m+30)*86400+7200 ≤ (m+doy)*86400+e ∧
        (m+doy)*86400+e < sundayBefore (m+244)*86400+3600 := by
  obtain ⟨hle₁,hge₁,_⟩ := sundayBefore_bounds (m+30) (by omega)
  obtain ⟨hle₂,hge₂,_⟩ := sundayBefore_bounds (m+244) (by omega)
  rw [isSummer_iff,hs,hwday]
  rcases month_cases hdoy with ⟨hday,hmp,hd⟩ | ⟨hday,hday',hmp⟩ | ⟨hday,hday',hmp,hd⟩ | ⟨hday,hmp⟩
  · -- March: the last Sunday is this day, or it is behind us or still to come.
    obtain ⟨hlast,hsame⟩ := last_sunday_iff (z := m+30) (d := m+doy) (by omega) (by omega) (by omega)
    rw [show m+doy+31-(m+30) = dt.mday by omega] at hlast
    have hmarch : dt.mon = 2 := by rw [hmon,hmp]
    generalize (m+doy+3)%7 = w at *
    generalize sundayBefore (m+30) = s₁ at *
    generalize sundayBefore (m+244) = s₂ at *
    omega
  · have hbetween : 2 < dt.mon ∧ dt.mon < 9 := by omega
    refine iff_of_true (Or.inl hbetween) ?_
    generalize sundayBefore (m+30) = s₁ at *
    generalize sundayBefore (m+244) = s₂ at *
    omega
  · obtain ⟨hlast,hsame⟩ := last_sunday_iff (z := m+244) (d := m+doy) (by omega) (by omega) (by omega)
    rw [show m+doy+31-(m+244) = dt.mday by omega] at hlast
    have hoctober : dt.mon = 9 := by rw [hmon,hmp]
    generalize (m+doy+3)%7 = w at *
    generalize sundayBefore (m+30) = s₁ at *
    generalize sundayBefore (m+244) = s₂ at *
    omega
  · have hout : ¬(2 ≤ dt.mon ∧ dt.mon ≤ 9) := by omega
    generalize sundayBefore (m+30) = s₁ at *
    generalize sundayBefore (m+244) = s₂ at *
    omega

theorem lastSunday_year {z year doy year' : ℕ} (h : InYear z year doy)
    (hge : lastSunday year' 2 ≤ z) (hle : z ≤ lastSunday year' 9) : year = year' := by
  rw [lastSunday,dayOf_march] at hge
  rw [lastSunday,dayOf_october] at hle
  obtain ⟨_,hmarch,_⟩ := sundayBefore_bounds (marchFirst year'+30) (by omega)
  obtain ⟨hoctober,_,_⟩ := sundayBefore_bounds (marchFirst year'+244) (by omega)
  exact h.unique (by omega) (by omega)

section Instants

variable {utc year doy : ℕ}

theorem instant_ahead (h : InYear ((utc+3600)/86400+719468) year doy) :
    instant utc+3600 = (marchFirst year+doy)*86400+(utc+3600)%86400 := by
  have hday := h.day
  rw [instant]
  omega

theorem isDst_iff (h : InYear ((utc+3600)/86400+719468) year doy) : isDst utc = true ↔
    lastSunday year 2*86400+3600 ≤ instant utc ∧ instant utc < lastSunday year 9*86400 := by
  have hdate := h.date
  have hahead := instant_ahead h
  have hday := h.day
  rw [isDst,isSummer_day (m := marchFirst year) h.lt (Nat.mod_lt (utc+3600) (by decide)),
    ← hahead,lastSunday,lastSunday,dayOf_march,dayOf_october]
  · omega
  · rw [gmtime,hdate]
  · rw [gmtime,hdate]
  · show ((utc+3600)/86400+4)%7 = _
    omega
  · show (utc+3600)/3600%24*3600+(utc+3600)/60%60*60+(utc+3600)%60 = _
    omega

theorem march_lt_october (year : ℕ) : lastSunday year 2 < lastSunday year 9 := by
  rw [lastSunday,lastSunday,dayOf_march,dayOf_october,sundayBefore,sundayBefore]
  omega

theorem year_of_instant {year' : ℕ} (h : InYear ((utc+3600)/86400+719468) year doy)
    (hge : lastSunday year' 2*86400 ≤ instant utc)
    (hlt : instant utc < lastSunday year' 9*86400+3600) : year = year' := by
  have hahead := instant_ahead h
  have hday := h.day
  exact lastSunday_year h (by omega) (by omega)

theorem summer_iff (h : InYear ((utc+3600)/86400+719468) year doy) :
    Summer utc ↔ SummerOf year utc := by
  constructor
  · rintro ⟨year',hsummer⟩
    have hge := hsummer.1
    have hyear := year_of_instant h (Nat.le_of_add_right_le hge) hsummer.2
    rw [hyear]
    exact hsummer
  · exact fun hsummer => ⟨year,hsummer⟩

theorem lastHour_iff (h : InYear ((utc+3600)/86400+719468) year doy) : LastHour utc ↔
    lastSunday year 9*86400 ≤ instant utc ∧ instant utc < lastSunday year 9*86400+3600 := by
  constructor
  · rintro ⟨year',hge,hlt⟩
    have hmarch := Nat.mul_le_mul_right 86400 (march_lt_october year').le
    have hyear := year_of_instant h (hmarch.trans hge) hlt
    rw [hyear]
    exact ⟨hge,hlt⟩
  · exact fun hin => ⟨year,hin⟩

theorem summer_year (utc : ℕ) : Summer utc ↔ SummerOf (gmtime (utc+3600)).year utc := by
  obtain ⟨year,doy,h⟩ := exists_inYear ((utc+3600)/86400+719468)
  have hyear : (gmtime (utc+3600)).year = year+((monthDay doy).1+2)/12 := by
    rw [gmtime,h.date]
  refine ⟨fun hsummer => ?_,fun hsummer => ⟨_,hsummer⟩⟩
  rw [summer_iff h] at hsummer
  have hbefore : doy < 245 := by
    have hlt := hsummer.2
    have hahead := instant_ahead h
    rw [lastSunday,dayOf_october] at hlt
    obtain ⟨hle,_,_⟩ := sundayBefore_bounds (marchFirst year+244) (by omega)
    omega
  have hmonth : ((monthDay doy).1+2)/12 = 0 := by
    have hcases := month_cases h.lt
    omega
  rw [hyear,hmonth]
  exact hsummer

end Instants

instance (year utc : ℕ) : Decidable (SummerOf year utc) := inferInstanceAs (Decidable (_ ∧ _))

instance (utc : ℕ) : Decidable (Summer utc) := decidable_of_iff _ (summer_year utc).symm

/-- The civil time of Copenhagen. -/
def copenhagen (utc : ℕ) : ℕ := utc+if Summer utc then 7200 else 3600

/-- The program calls summer time what is summer time, the last hour excepted. -/
theorem isDst_eq (utc : ℕ) : isDst utc = true ↔ Summer utc ∧ ¬LastHour utc := by
  obtain ⟨year,doy,h⟩ := exists_inYear ((utc+3600)/86400+719468)
  have hlt := march_lt_october year
  rw [isDst_iff h,summer_iff h,lastHour_iff h,SummerOf]
  omega

theorem LastHour.summer {utc : ℕ} (h : LastHour utc) : Summer utc := by
  obtain ⟨year,hge,hlt⟩ := h
  have hbegun : lastSunday year 2*86400+3600 ≤ instant utc :=
    calc lastSunday year 2*86400+3600 ≤ (lastSunday year 2+1)*86400 := by
          rw [Nat.add_mul]
          exact Nat.add_le_add_left (by decide) _
      _ ≤ lastSunday year 9*86400 := Nat.mul_le_mul_right 86400 (march_lt_october year)
      _ ≤ instant utc := hge
  exact ⟨year,hbegun,hlt⟩

/-- Cron goes by the civil time of Copenhagen at every instant but those of the last hour of summer
time. -/
theorem civil_time_iff (utc : ℕ) : Agrees (localTime utc) (copenhagen utc) ↔ ¬LastHour utc := by
  constructor
  · intro hagrees hlast
    have hhour := hagrees.hour
    have hdst : ¬isDst utc = true := fun h => ((isDst_eq utc).mp h).2 hlast
    rw [localTime,copenhagen,if_pos hlast.summer,if_neg hdst] at hhour
    simp only [gmtime] at hhour
    omega
  · intro hlast
    have hsame : localTime utc = copenhagen utc := by
      have hdst := isDst_eq utc
      rw [localTime,copenhagen]
      by_cases hsummer : Summer utc
      · rw [if_pos (hdst.mpr ⟨hsummer,hlast⟩),if_pos hsummer]
      · rw [if_neg fun h => hsummer (hdst.mp h).1,if_neg hsummer]
    rw [hsame]
    exact ⟨rfl,rfl,rfl,rfl,rfl⟩

/-- The last Sunday of October 2024. -/
example : civil (lastSunday 2024 9) = (2024,9,27) := by decide

/-- The summer of 2024 ended on the 27th of October. Half an hour before, it was 2:30. -/
theorem civil_time_october : ¬∀ utc, 946684800 ≤ utc → utc < 4102444800 →
    Agrees (localTime utc) (copenhagen utc) := by
  intro h
  have hhour := (h 1729989000 (by decide) (by decide)).hour
  have hlocal : (gmtime (localTime 1729989000)).hour = 1 := by decide
  have hcivil : (gmtime (copenhagen 1729989000)).hour = 2 := by decide
  omega

end SummerTime
end MeterLogger
