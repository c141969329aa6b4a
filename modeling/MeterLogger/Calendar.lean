import Mathlib.Tactic.Common

/-!
# The calendar

`gmtime`: the date and the time of day of a Unix time. Years are counted from a first of March, so
that the leap day is the last one; a date can be turned back into its day.
-/

namespace MeterLogger
namespace Calendar

/-- `struct tm`: the month is counted from 0, the year from 0 as well. -/
structure Tm where
  sec : ℕ
  min : ℕ
  hour : ℕ
  mday : ℕ
  mon : ℕ
  year : ℕ
  wday : ℕ
  deriving DecidableEq, Repr

/-- The year of a 400 year cycle in which its day `doe` lies. -/
def yearOfEra (doe : ℕ) : ℕ :=
  let century := min (doe/36524) 3
  let doc := doe-century*36524
  let year := min (doc%1461/365) 3
  century*100+doc/1461*4+year

/-- The days of a cycle before one of its years. -/
def daysBefore (yoe : ℕ) : ℕ := 365*yoe+yoe/4-yoe/100

/-- The day of the year, from the first of March, as the number of the month from March and the
day of the month. -/
def monthDay (doy : ℕ) : ℕ × ℕ :=
  let mp := (5*doy+2)/153
  (mp,doy-(153*mp+2)/5+1)

/-- The date of a day, counted from the first of March of the year 0. -/
def civil (z : ℕ) : ℕ × ℕ × ℕ :=
  let doe := z%146097
  let yoe := yearOfEra doe
  let md := monthDay (doe-daysBefore yoe)
  (yoe+z/146097*400+(md.1+2)/12,(md.1+2)%12,md.2)

def gmtime (t : ℕ) : Tm :=
  let date := civil (t/86400+719468)
  ⟨t%60,t/60%60,t/3600%24,date.2.2,date.2.1,date.1,(t/86400+4)%7⟩

def dayOf (date : ℕ × ℕ × ℕ) : ℕ :=
  let mp := (date.2.1+10)%12
  let y := date.1-(mp+2)/12
  y/400*146097+daysBefore (y%400)+((153*mp+2)/5+date.2.2-1)

theorem yearOfEra_bounds {doe : ℕ} (h : doe < 146097) :
    yearOfEra doe < 400 ∧ daysBefore (yearOfEra doe) ≤ doe ∧
      doe-daysBefore (yearOfEra doe) < 366 := by
  unfold yearOfEra daysBefore
  dsimp only
  generalize hc : min (doe/36524) 3 = century
  generalize hy : min ((doe-century*36524)%1461/365) 3 = year
  have hquarters : (century*100+(doe-century*36524)/1461*4+year)/4 =
      century*25+(doe-century*36524)/1461 := by omega
  have hcenturies : (century*100+(doe-century*36524)/1461*4+year)/100 = century := by omega
  rw [hquarters,hcenturies]
  omega

theorem monthDay_bounds {doy : ℕ} (h : doy < 366) :
    (monthDay doy).1 < 12 ∧ (153*(monthDay doy).1+2)/5+(monthDay doy).2-1 = doy := by
  unfold monthDay
  dsimp only
  omega

theorem dayOf_civil (z : ℕ) : dayOf (civil z) = z := by
  have hdoe := Nat.mod_lt z (show 0 < 146097 by decide)
  obtain ⟨hyear,hle,hdoy⟩ := yearOfEra_bounds hdoe
  obtain ⟨hmonth,hday⟩ := monthDay_bounds hdoy
  have hsplit := Nat.div_add_mod z 146097
  rw [dayOf,civil]
  dsimp only
  generalize yearOfEra (z%146097) = yoe at *
  generalize monthDay (z%146097-daysBefore yoe) = md at *
  have hmp : ((md.1+2)%12+10)%12 = md.1 := by omega
  have hy : (yoe+z/146097*400+(md.1+2)/12-(md.1+2)/12) = yoe+z/146097*400 := by omega
  rw [hmp,hy,Nat.add_mul_div_right _ _ (by decide),Nat.div_eq_of_lt hyear,Nat.zero_add,
    Nat.add_mul_mod_self_right,Nat.mod_eq_of_lt hyear,hday]
  omega

theorem gmtime_minute {t u : ℕ} (hyear : (gmtime t).year = (gmtime u).year)
    (hmon : (gmtime t).mon = (gmtime u).mon) (hmday : (gmtime t).mday = (gmtime u).mday)
    (hhour : (gmtime t).hour = (gmtime u).hour) (hmin : (gmtime t).min = (gmtime u).min) :
    t/60 = u/60 := by
  have hday : civil (t/86400+719468) = civil (u/86400+719468) :=
    Prod.ext hyear (Prod.ext hmon hmday)
  have hdays := congrArg dayOf hday
  rw [dayOf_civil,dayOf_civil] at hdays
  simp only [gmtime] at hhour hmin
  omega

/-- A leap day. -/
example : gmtime 1709210096 = ⟨56,34,12,29,1,2024,4⟩ := by decide

end Calendar
end MeterLogger
