import AlarmQuery.Proofs.Time.Calendar
import AlarmQuery.Time.Amount

/-!
# Going back in time

An amount of time is taken off a time in two steps, the months first and the rest of it after
that.  `TimeAmount.LiesBefore` says what comes of it, and a larger amount never leads to a later
time.
-/

namespace AlarmQuery

/-! ## Months back -/

namespace Date

/-- A date lies so many months before `today`.  A month without such a day has its last day
instead. -/
structure LiesMonthsBefore (date today : Date) (months : Nat) : Prop where
  valid : date.IsValid
  months : date.monthNumber + months = today.monthNumber
  day : date.day = min today.day (monthLength date.year date.month)

theorem monthNumber_subMonths (date : Date) (months : Nat) :
    (date.subMonths months).monthNumber = date.monthNumber - months := by
  simp only [subMonths, monthNumber]
  omega

theorem liesMonthsBefore_subMonths {today : Date} (valid : today.IsValid) (months : Nat) :
    (today.subMonths months).LiesMonthsBefore today months where
  valid := by
    have month : ((today.monthNumber - months) % 12).toNat < 12 := by omega
    have pos := monthDays_pos (today.monthNumber - months)
    have day : 1 ≤ today.day := valid.2.2.1
    exact ⟨Nat.le_add_left 1 _, month, le_min day pos, min_le_right _ _⟩
  months := by
    rw [monthNumber_subMonths]
    omega
  day := rfl

theorem LiesMonthsBefore.unique {first second today : Date} {months : Nat}
    (one : first.LiesMonthsBefore today months) (two : second.LiesMonthsBefore today months) :
    first = second := by
  have number : first.monthNumber = second.monthNumber := by
    have := one.months
    have := two.months
    omega
  have year : first.year = second.year := by
    rw [← one.valid.monthNumber_div, number, two.valid.monthNumber_div]
  have month : first.month = second.month := by
    have := one.valid.monthNumber_mod
    have := two.valid.monthNumber_mod
    have := one.valid.1
    have := two.valid.1
    omega
  have day : first.day = second.day := by
    rw [one.day, two.day, year, month]
  rcases first
  rcases second
  rw [Date.mk.injEq]
  exact ⟨year, month, day⟩

theorem liesMonthsBefore_iff {date today : Date} (valid : today.IsValid) {months : Nat} :
    date.LiesMonthsBefore today months ↔ date = today.subMonths months := by
  constructor
  · intro lies
    exact lies.unique (liesMonthsBefore_subMonths valid months)
  · rintro rfl
    exact liesMonthsBefore_subMonths valid months

theorem subMonths_zero {today : Date} (valid : today.IsValid) : today.subMonths 0 = today := by
  symm
  rw [← liesMonthsBefore_iff valid]
  exact ⟨valid, by simp, (min_eq_left valid.2.2.2).symm⟩

/-- More months lead to no later day, although a short month may change the day. -/
theorem toDays_subMonths_le {today : Date} (valid : today.IsValid) {fewer more : Nat}
    (le : fewer ≤ more) : (today.subMonths more).toDays ≤ (today.subMonths fewer).toDays := by
  rcases Nat.eq_or_lt_of_le le with rfl | lt
  · exact le_refl _
  · apply le_of_lt
    apply toDays_lt_of_monthNumber_lt (liesMonthsBefore_subMonths valid more).valid
      (liesMonthsBefore_subMonths valid fewer).valid
    rw [monthNumber_subMonths, monthNumber_subMonths]
    omega

/-! ## The ends of the calendar -/

theorem year_le_of_toDays_le {first second : Date} (firstValid : first.IsValid)
    (secondValid : second.IsValid) (le : first.toDays ≤ second.toDays) :
    first.year ≤ second.year := by
  have number : first.monthNumber ≤ second.monthNumber := by
    by_contra later
    have := toDays_lt_of_monthNumber_lt secondValid firstValid (lt_of_not_ge later)
    omega
  rw [← firstValid.monthNumber_div, ← secondValid.monthNumber_div]
  omega

/-- The first day of a year. -/
theorem toDays_newYear_le_iff {year : Int} {date : Date} (valid : date.IsValid) :
    (Date.mk year 1 1).toDays ≤ date.toDays ↔ year ≤ date.year := by
  have newYear : (Date.mk year 1 1).IsValid :=
    ⟨le_refl 1, by simp, le_refl 1, (monthLength_bounds year (le_refl 1) (by simp)).1⟩
  constructor
  · exact year_le_of_toDays_le newYear valid
  · intro le
    rcases lt_or_eq_of_le le with lt | rfl
    · by_contra earlier
      exact absurd (year_le_of_toDays_le valid newYear (by omega)) (not_le_of_gt lt)
    · have month : (Date.mk date.year 1 1).monthNumber ≤ date.monthNumber := by
        simp [monthNumber]
      rcases lt_or_eq_of_le month with lt | same
      · exact le_of_lt (toDays_lt_of_monthNumber_lt newYear valid lt)
      · rw [newYear.toDays_eq, valid.toDays_eq, same]
        simp

end Date

/-! ## Instants back -/

namespace Instant

/-- A clock of the calendar shows an instant.  A leap second may follow any second. -/
structure InCalendar (instant : Instant) : Prop where
  inRange : instant.date.InRange
  nanos : instant.nanos < 2000000000

/-- An instant is the other one or lies before it. -/
def NotAfter (first second : Instant) : Prop :=
  first.second < second.second ∨ (first.second = second.second ∧ first.nanos ≤ second.nanos)

theorem NotAfter.refl (instant : Instant) : instant.NotAfter instant :=
  Or.inr ⟨rfl, le_refl _⟩

theorem NotAfter.second_le {first second : Instant} (notAfter : first.NotAfter second) :
    first.second ≤ second.second := by
  rcases notAfter with lt | ⟨same, _⟩
  · exact le_of_lt lt
  · exact le_of_eq same

/-- The nanoseconds since the beginning of 1970.  Those of a leap second are the first ones of the
second behind it. -/
def elapsed (instant : Instant) : Int := instant.second * 1000000000 + instant.nanos

@[simp]
theorem toDays_date (instant : Instant) : instant.date.toDays = instant.second / 86400 :=
  Date.toDays_ofDays _

theorem isValid_date (instant : Instant) : instant.date.IsValid := Date.isValid_ofDays _

/-- What lies between instants of the calendar belongs to it, too. -/
theorem inRange_of_between {first time last : Instant} (firstInRange : first.date.InRange)
    (lastInRange : last.date.InRange) (least : first.second ≤ time.second)
    (most : time.second ≤ last.second) : time.date.InRange := by
  have order {one two : Instant} (le : one.second ≤ two.second) :
      one.date.year ≤ two.date.year := by
    apply Date.year_le_of_toDays_le one.isValid_date two.isValid_date
    rw [toDays_date, toDays_date]
    exact Int.ediv_le_ediv (by decide) le
  exact ⟨le_trans firstInRange.1 (order least), le_trans (order most) lastInRange.2⟩

/-- An instant lies so many months before `now`, at the same time of day. -/
structure LiesMonthsBefore (earlier now : Instant) (months : Nat) : Prop where
  date : earlier.date.LiesMonthsBefore now.date months
  second : earlier.second % 86400 = now.second % 86400
  nanos : earlier.nanos = now.nanos

/-- An instant lies so many milliseconds before `start`.  It belongs to a leap second only if this
is the one that `start` lies in. -/
structure LiesMillisBefore (earlier start : Instant) (millis : Nat) : Prop where
  elapsed : earlier.elapsed + millis * 1000000 = start.elapsed
  second : earlier.second ≤ start.second
  nanos : earlier.nanos < 1000000000 ∨ earlier.second = start.second

theorem date_subMonths (now : Instant) (months : Nat) :
    (now.subMonths months).date = now.date.subMonths months := by
  have day : (now.subMonths months).second / 86400 = (now.date.subMonths months).toDays := by
    simp only [subMonths]
    omega
  rw [date, day, Date.ofDays_toDays (Date.liesMonthsBefore_subMonths now.isValid_date months).valid]

theorem subMonths_zero (now : Instant) : now.subMonths 0 = now := by
  rw [subMonths, Date.subMonths_zero now.isValid_date, toDays_date, Int.ediv_mul_add_emod]

/-- More months lead to the same moment or to one that is days earlier. -/
theorem days_subMonths (now : Instant) {fewer more : Nat} (le : fewer ≤ more) :
    (now.subMonths more).second = (now.subMonths fewer).second ∨
      (now.subMonths more).second + 86400 ≤ (now.subMonths fewer).second := by
  have order := Date.toDays_subMonths_le now.isValid_date le
  simp only [subMonths]
  omega

theorem liesMonthsBefore_iff {earlier now : Instant} {months : Nat} :
    earlier.LiesMonthsBefore now months ↔ earlier = now.subMonths months := by
  constructor
  · rintro ⟨lies, second, nanos⟩
    have days := congrArg Date.toDays ((Date.liesMonthsBefore_iff now.isValid_date).1 lies)
    rw [toDays_date] at days
    have here : earlier.second =
        (now.date.subMonths months).toDays * 86400 + now.second % 86400 := by omega
    rcases earlier with ⟨_, _⟩
    exact congrArg₂ mk here nanos
  · rintro rfl
    constructor
    · rw [date_subMonths]
      exact Date.liesMonthsBefore_subMonths now.isValid_date months
    · simp only [subMonths]
      omega
    · rfl

/-- Seen from outside of a leap second, an instant has not moved. -/
theorem elapsed_afterLeap (instant : Instant) : instant.afterLeap.elapsed = instant.elapsed := by
  rw [afterLeap]
  split
  · simp only [elapsed]
    omega
  · rfl

theorem nanos_afterLeap_lt {instant : Instant} (valid : instant.nanos < 2000000000) :
    instant.afterLeap.nanos < 1000000000 := by
  rw [afterLeap]
  split
  · dsimp only
    omega
  · omega

theorem liesMillisBefore_subMillis {start : Instant} (valid : start.nanos < 2000000000)
    (millis : Nat) : (start.subMillis millis).LiesMillisBefore start millis := by
  by_cases near : 1000000000 ≤ start.nanos ∧ millis / 1000 = 0
  · rw [subMillis, if_pos near]
    refine ⟨?_, le_refl _, Or.inr rfl⟩
    simp only [elapsed]
    omega
  · have same := start.elapsed_afterLeap
    have small := nanos_afterLeap_lt valid
    simp only [elapsed] at same
    rw [subMillis, if_neg near]
    dsimp only
    split
    all_goals
      refine ⟨?_, ?_, Or.inl ?_⟩
      · simp only [elapsed]
        omega
      · dsimp only
        omega
      · dsimp only
        omega

/-- Of two instants that lie before a start, the one further back is not after the other, also if
its start lies days before. -/
theorem LiesMillisBefore.notAfter {first second firstStart secondStart : Instant} {more less : Nat}
    (one : first.LiesMillisBefore firstStart more) (two : second.LiesMillisBefore secondStart less)
    (le : less ≤ more) (nanos : firstStart.nanos = secondStart.nanos)
    (valid : secondStart.nanos < 2000000000)
    (days : firstStart.second = secondStart.second ∨
      firstStart.second + 86400 ≤ secondStart.second) : first.NotAfter second := by
  rcases one with ⟨firstElapsed, firstSecond, firstNanos⟩
  rcases two with ⟨secondElapsed, secondSecond, secondNanos⟩
  simp only [Instant.elapsed] at firstElapsed secondElapsed
  rw [NotAfter]
  omega

theorem liesMillisBefore_iff {earlier start : Instant} (valid : start.nanos < 2000000000)
    {millis : Nat} : earlier.LiesMillisBefore start millis ↔ earlier = start.subMillis millis := by
  constructor
  · intro lies
    have found := liesMillisBefore_subMillis valid millis
    have one := lies.notAfter found (le_refl _) rfl valid (Or.inl rfl)
    have two := found.notAfter lies (le_refl _) rfl valid (Or.inl rfl)
    rw [NotAfter] at one two
    have second : earlier.second = (start.subMillis millis).second := by omega
    have nanos : earlier.nanos = (start.subMillis millis).nanos := by omega
    rcases earlier with ⟨_, _⟩
    exact congrArg₂ mk second nanos
  · rintro rfl
    exact liesMillisBefore_subMillis valid millis

end Instant

/-! ## Amounts back -/

namespace TimeAmount

/-- An instant lies so long before `now`: the months are taken off at once and the rest after that,
and the calendar has the instant in between, too. -/
def LiesBefore (amount : TimeAmount) (now earlier : Instant) : Prop :=
  ∃ start : Instant, start.LiesMonthsBefore now amount.months ∧ start.date.InRange ∧
    earlier.LiesMillisBefore start amount.millis ∧ earlier.date.InRange

theorem before?_eq_some_iff {amount : TimeAmount} {now earlier : Instant}
    (valid : now.nanos < 2000000000) :
    amount.before? now = some earlier ↔ amount.LiesBefore now earlier := by
  have startValid : (now.subMonths amount.months).nanos < 2000000000 := valid
  rw [before?]
  constructor
  · intro found
    split at found
    · rename_i fits
      obtain rfl := Option.some.inj found
      exact ⟨_, Instant.liesMonthsBefore_iff.2 rfl, fits.1,
        Instant.liesMillisBefore_subMillis startValid _, fits.2⟩
    · cases found
  · rintro ⟨start, months, startInRange, millis, inRange⟩
    obtain rfl := Instant.liesMonthsBefore_iff.1 months
    obtain rfl := (Instant.liesMillisBefore_iff startValid).1 millis
    exact if_pos ⟨startInRange, inRange⟩

/-- A smaller amount leads to an instant whenever a larger one does, and to no earlier one. -/
theorem before?_of_le {less more : TimeAmount} (months : less.months ≤ more.months)
    (millis : less.millis ≤ more.millis) {now : Instant} (inCalendar : now.InCalendar)
    {earlier : Instant} (found : more.before? now = some earlier) :
    ∃ later, less.before? now = some later ∧ earlier.NotAfter later ∧ later.NotAfter now := by
  have valid := inCalendar.nanos
  rcases (before?_eq_some_iff valid).1 found with ⟨start, monthsBack, startInRange, back, inRange⟩
  obtain rfl := Instant.liesMonthsBefore_iff.1 monthsBack
  let laterStart := now.subMonths less.months
  let later := laterStart.subMillis less.millis
  have startValid : laterStart.nanos < 2000000000 := valid
  have laterBack : later.LiesMillisBefore laterStart less.millis :=
    Instant.liesMillisBefore_subMillis startValid less.millis
  have days : (now.subMonths more.months).second = laterStart.second ∨
      (now.subMonths more.months).second + 86400 ≤ laterStart.second := now.days_subMonths months
  have laterDays : laterStart.second = now.second ∨ laterStart.second + 86400 ≤ now.second := by
    have order := now.days_subMonths (Nat.zero_le less.months)
    rwa [Instant.subMonths_zero] at order
  have notBefore : earlier.NotAfter later := back.notAfter laterBack millis rfl valid days
  have notAfter : later.NotAfter now :=
    laterBack.notAfter ⟨by simp, le_refl _, Or.inr rfl⟩ (Nat.zero_le _) rfl valid laterDays
  have laterStartInRange : laterStart.date.InRange :=
    Instant.inRange_of_between startInRange inCalendar.inRange (by omega) (by omega)
  have laterInRange : later.date.InRange :=
    Instant.inRange_of_between inRange inCalendar.inRange notBefore.second_le notAfter.second_le
  exact ⟨later, if_pos ⟨laterStartInRange, laterInRange⟩, notBefore, notAfter⟩

end TimeAmount

end AlarmQuery
