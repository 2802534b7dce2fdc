import Mathlib.Logic.Function.Iterate
import Mathlib.Tactic.IntervalCases

/-!
# Calendar — days and dates

The Gregorian calendar, extended to all years: the date of a day is reached from the first of January
1970 by going from one day to the next, or to the one before.

* `number_dateOf` — a date tells how many days have passed;
* `before_dateOf_iff` — dates are ordered as the days are;
* `year_bounds` — how many years a number of days are, at least and at most.
-/

namespace Muradin
namespace Lib

@[ext]
structure Date where
  year : Int
  month : Nat
  day : Nat
  deriving DecidableEq, Repr

namespace Date

def IsLeap (year : Int) : Prop :=
  year % 4 = 0 ∧ year % 100 ≠ 0 ∨ year % 400 = 0

instance (year : Int) : Decidable (IsLeap year) :=
  inferInstanceAs (Decidable (_ ∧ _ ∨ _))

def daysInMonth (year : Int) : Nat → Nat
  | 2 => if IsLeap year then 29 else 28
  | 4 | 6 | 9 | 11 => 30
  | 1 | 3 | 5 | 7 | 8 | 10 | 12 => 31
  | _ => 0

def epoch : Date :=
  { year := 1970
    month := 1
    day := 1 }

def next (a : Date) : Date :=
  if a.day < daysInMonth a.year a.month then
    { a with day := a.day + 1 }
  else if a.month < 12 then
    { a with month := a.month + 1, day := 1 }
  else
    { year := a.year + 1, month := 1, day := 1 }

def prev (a : Date) : Date :=
  if 1 < a.day then
    { a with day := a.day - 1 }
  else if 1 < a.month then
    { a with month := a.month - 1, day := daysInMonth a.year (a.month - 1) }
  else
    { year := a.year - 1, month := 12, day := 31 }

/-- The date of a day, counted from the epoch. -/
def dateOf : Int → Date
  | .ofNat n => next^[n] epoch
  | .negSucc n => prev^[n + 1] epoch

theorem dateOf_succ (n : Nat) : dateOf (n + 1 : Nat) = next (dateOf n) :=
  Function.iterate_succ_apply' next n epoch

theorem dateOf_negSucc (n : Nat) : dateOf (.negSucc (n + 1)) = prev (dateOf (.negSucc n)) :=
  Function.iterate_succ_apply' prev (n + 1) epoch

/-! ## Dates that are in the calendar -/

structure Valid (a : Date) : Prop where
  one_le_month : 1 ≤ a.month
  month_le : a.month ≤ 12
  one_le_day : 1 ≤ a.day
  day_le : a.day ≤ daysInMonth a.year a.month

variable {a b c : Date} {year : Int} {month : Nat}

theorem daysInMonth_bounds (h : 1 ≤ month) (h' : month ≤ 12) :
    28 ≤ daysInMonth year month ∧ daysInMonth year month ≤ 31 := by
  interval_cases month <;> simp [daysInMonth]
  -- February.
  split <;> simp

theorem Valid.day_le_31 (h : a.Valid) : a.day ≤ 31 :=
  Nat.le_trans h.day_le (daysInMonth_bounds h.one_le_month h.month_le).2

theorem valid_epoch : epoch.Valid :=
  { one_le_month := by decide
    month_le := by decide
    one_le_day := by decide
    day_le := by decide }

theorem valid_of_first {year : Int} {month : Nat} (h : 1 ≤ month) (h' : month ≤ 12) :
    Valid { year, month, day := 1 } :=
  { one_le_month := h
    month_le := h'
    one_le_day := Nat.le_refl 1
    day_le := Nat.le_trans (by decide : 1 ≤ 28) (daysInMonth_bounds h h').1 }

theorem valid_of_last {year : Int} {month : Nat} (h : 1 ≤ month) (h' : month ≤ 12) :
    Valid { year, month, day := daysInMonth year month } :=
  { one_le_month := h
    month_le := h'
    one_le_day := Nat.le_trans (by decide : 1 ≤ 28) (daysInMonth_bounds h h').1
    day_le := Nat.le_refl _ }

theorem Valid.next (h : a.Valid) : a.next.Valid := by
  unfold Date.next
  split
  · next hlt => exact { h with one_le_day := Nat.le_add_left 1 _, day_le := hlt }
  · split
    · next hlt => exact valid_of_first (Nat.le_add_left 1 _) hlt
    · exact valid_of_first (by decide) (by decide)

theorem Valid.prev (h : a.Valid) : a.prev.Valid := by
  unfold Date.prev
  split
  · next hlt =>
      exact { h with
        one_le_day := Nat.le_sub_one_of_lt hlt
        day_le := Nat.le_trans (Nat.sub_le _ _) h.day_le }
  · split
    · next hlt =>
        exact valid_of_last (Nat.le_sub_one_of_lt hlt) (Nat.le_trans (Nat.sub_le _ _) h.month_le)
    · exact valid_of_last (by decide) (by decide)

theorem valid_dateOf (z : Int) : (dateOf z).Valid := by
  cases z with
  | ofNat n =>
      induction n with
      | zero => exact valid_epoch
      | succ n ih =>
          show (dateOf (n + 1 : Nat)).Valid
          rw [dateOf_succ]
          exact ih.next
  | negSucc n =>
      induction n with
      | zero => exact valid_epoch.prev
      | succ n ih =>
          rw [dateOf_negSucc]
          exact ih.prev

/-! ## The number of a day -/

/-- The days of a year before its months. -/
def daysBeforeMonth (year : Int) : Nat → Nat
  | 0 => 0
  | month + 1 => daysBeforeMonth year month + daysInMonth year month

/-- The days before a year, from the first of January of the year 1 on. -/
def daysBeforeYear (year : Int) : Int :=
  365 * (year - 1) + (year - 1) / 4 - (year - 1) / 100 + (year - 1) / 400

def number (a : Date) : Int :=
  daysBeforeYear a.year + daysBeforeMonth a.year a.month + a.day - 1

theorem number_epoch : number epoch = 719162 := by
  decide

theorem daysBeforeYear_succ (year : Int) :
    daysBeforeYear (year + 1) = daysBeforeYear year + daysBeforeMonth year 12 + 31 := by
  have hmonths : daysBeforeMonth year 12 = 306 + daysInMonth year 2 := by
    simp only [daysBeforeMonth, daysInMonth]
    omega
  rw [hmonths]
  simp only [daysBeforeYear, daysInMonth]
  split
  · next hleap =>
      rw [IsLeap] at hleap
      omega
  · next hleap =>
      rw [IsLeap] at hleap
      omega

theorem number_next (h : a.Valid) : number a.next = number a + 1 := by
  obtain ⟨hm, hm', hd, hd'⟩ := h
  unfold Date.next
  split
  · simp only [number]
    omega
  · next hlast =>
      split
      · simp only [number, daysBeforeMonth]
        omega
      · next hdec =>
          have hmonth : a.month = 12 := by omega
          have hone : daysBeforeMonth (a.year + 1) 1 = 0 := rfl
          rw [hmonth] at hd' hlast
          have hday : a.day = 31 := by
            have hdays : daysInMonth a.year 12 = 31 := rfl
            omega
          simp only [number, daysBeforeYear_succ, hone, hmonth, hday]
          omega

theorem number_prev (h : a.Valid) : number a.prev = number a - 1 := by
  obtain ⟨hm, hm', hd, hd'⟩ := h
  unfold Date.prev
  split
  · simp only [number]
    omega
  · split
    · next hlt =>
        obtain ⟨m, hmonth⟩ : ∃ m, a.month = m + 1 := ⟨a.month - 1, by omega⟩
        simp only [number, hmonth, Nat.add_sub_cancel, daysBeforeMonth]
        omega
    · have hmonth : a.month = 1 := by omega
      have hone : daysBeforeMonth a.year 1 = 0 := rfl
      have hyear := daysBeforeYear_succ (a.year - 1)
      rw [Int.sub_add_cancel] at hyear
      simp only [number, hmonth, hone, hyear]
      omega

/-- The number of the day that a date was made for. -/
theorem number_dateOf (z : Int) : number (dateOf z) = z + 719162 := by
  cases z with
  | ofNat n =>
      induction n with
      | zero => exact number_epoch
      | succ n ih =>
          have hnext := number_next (valid_dateOf n)
          rw [← dateOf_succ] at hnext
          have ih : number (dateOf n) = n + 719162 := ih
          show number (dateOf (n + 1 : Nat)) = ((n + 1 : Nat) : Int) + 719162
          omega
  | negSucc n =>
      induction n with
      | zero => decide
      | succ n ih =>
          have hprev := number_prev (valid_dateOf (.negSucc n))
          rw [dateOf_negSucc]
          omega

/-! ## The order of dates -/

theorem daysBeforeMonth_le {month month' : Nat} (h : month ≤ month') :
    daysBeforeMonth year month ≤ daysBeforeMonth year month' :=
  monotone_nat_of_le_succ (fun _ => Nat.le_add_right _ _) h

theorem daysBeforeYear_le {year year' : Int} (h : year ≤ year') :
    daysBeforeYear year ≤ daysBeforeYear year' := by
  unfold daysBeforeYear
  omega

/-- A date is a day of its year. -/
theorem Valid.number_bounds (h : a.Valid) :
    daysBeforeYear a.year ≤ number a ∧ number a < daysBeforeYear (a.year + 1) := by
  have hmonth : daysBeforeMonth a.year (a.month + 1) ≤ daysBeforeMonth a.year 13 :=
    daysBeforeMonth_le (Nat.succ_le_succ h.month_le)
  have hfirst : daysBeforeMonth a.year (a.month + 1) =
      daysBeforeMonth a.year a.month + daysInMonth a.year a.month := rfl
  have hlast : daysBeforeMonth a.year 13 = daysBeforeMonth a.year 12 + 31 := rfl
  have hday := h.day_le
  have hone := h.one_le_day
  rw [number, daysBeforeYear_succ]
  omega

def Before (a b : Date) : Prop :=
  a.year < b.year ∨ a.year = b.year ∧ (a.month < b.month ∨ a.month = b.month ∧ a.day < b.day)

instance (a b : Date) : Decidable (a.Before b) :=
  inferInstanceAs (Decidable (_ ∨ _ ∧ (_ ∨ _ ∧ _)))

theorem Before.number_lt (h : a.Before b) (ha : a.Valid) (hb : b.Valid) : number a < number b := by
  rcases h with hyear | ⟨hyear, hmonth | ⟨hmonth, hday⟩⟩
  · calc number a
        < daysBeforeYear (a.year + 1) := ha.number_bounds.2
      _ ≤ daysBeforeYear b.year := daysBeforeYear_le hyear
      _ ≤ number b := hb.number_bounds.1
  · have hle : daysBeforeMonth a.year (a.month + 1) ≤ daysBeforeMonth a.year b.month :=
      daysBeforeMonth_le hmonth
    have hfirst : daysBeforeMonth a.year (a.month + 1) =
        daysBeforeMonth a.year a.month + daysInMonth a.year a.month := rfl
    have hlast := ha.day_le
    have hone := hb.one_le_day
    rw [number, number, ← hyear]
    omega
  · rw [number, number, hyear, hmonth]
    omega

theorem before_or_eq_or_before (a b : Date) : a.Before b ∨ a = b ∨ b.Before a := by
  rcases lt_trichotomy a.year b.year with hyear | hyear | hyear
  · exact Or.inl (Or.inl hyear)
  · rcases lt_trichotomy a.month b.month with hmonth | hmonth | hmonth
    · exact Or.inl (Or.inr ⟨hyear, Or.inl hmonth⟩)
    · rcases lt_trichotomy a.day b.day with hday | hday | hday
      · exact Or.inl (Or.inr ⟨hyear, Or.inr ⟨hmonth, hday⟩⟩)
      · cases a
        cases b
        cases hyear
        cases hmonth
        cases hday
        exact Or.inr (Or.inl rfl)
      · exact Or.inr (Or.inr (Or.inr ⟨hyear.symm, Or.inr ⟨hmonth.symm, hday⟩⟩))
    · exact Or.inr (Or.inr (Or.inr ⟨hyear.symm, Or.inl hmonth⟩))
  · exact Or.inr (Or.inr (Or.inl hyear))

/-! ## Days -/

theorem dateOf_inj {z z' : Int} : dateOf z = dateOf z' ↔ z = z' := by
  constructor
  · intro heq
    have hnumber : z + 719162 = z' + 719162 := by
      rw [← number_dateOf, ← number_dateOf, heq]
    omega
  · intro heq
    rw [heq]

theorem before_dateOf_iff {z z' : Int} : (dateOf z).Before (dateOf z') ↔ z < z' := by
  have hlt : ∀ {x y : Int}, (dateOf x).Before (dateOf y) → x < y := by
    intro x y hbefore
    have hnumber := hbefore.number_lt (valid_dateOf x) (valid_dateOf y)
    rw [number_dateOf, number_dateOf] at hnumber
    omega
  refine ⟨hlt, ?_⟩
  intro hz
  rcases before_or_eq_or_before (dateOf z) (dateOf z') with hbefore | heq | hbefore
  · exact hbefore
  · have := dateOf_inj.mp heq
    omega
  · have := hlt hbefore
    omega

/-- A year has 365 days, or one more. -/
theorem year_bounds (z : Int) :
    daysBeforeYear (dateOf z).year ≤ z + 719162 ∧
      z + 719162 < daysBeforeYear ((dateOf z).year + 1) := by
  rw [← number_dateOf]
  exact (valid_dateOf z).number_bounds

end Date

end Lib
end Muradin
