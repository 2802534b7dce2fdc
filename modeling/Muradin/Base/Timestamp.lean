import Mathlib.Data.List.Basic
import Muradin.Lib.Calendar
import Muradin.Lib.Decimal

/-!
# Timestamp — `base/timestamp.h` and `base/timestamp.cpp`

A time is a signed number of microseconds, and `/` and `%` cut towards zero.  The three texts of a time
go through `snprintf` into a buffer of 32 bytes; `to_string` leaves the last of them unused.

* `toString_injective` — `to_string` tells any two times apart;
* `formatted_not_truncated` — no time is too long for the buffer;
* `toFormattedString_lt_iff` — from 1970 to the end of the year 9999 the formatted texts are ordered as
  the times are.
-/

namespace Muradin
namespace Base

open Lib

/-! ## The time of day -/

/-- `struct tm`, as far as it is printed. -/
structure Tm where
  tmYear : Int
  tmMon : Int
  tmMday : Int
  tmHour : Int
  tmMin : Int
  tmSec : Int
  deriving DecidableEq, Repr

/-- `gmtime_r` -/
def gmtime (seconds : Int) : Tm :=
  let date := Date.dateOf (seconds / 86400)
  let rest := seconds % 86400
  { tmYear := date.year - 1900
    tmMon := date.month - 1
    tmMday := date.day
    tmHour := rest / 3600
    tmMin := rest % 3600 / 60
    tmSec := rest % 60 }

/-- `%4d` -/
def spaced (n : Int) : List Byte :=
  List.replicate (4 - (decimalInt n).length) (charByte ' ') ++ decimalInt n

/-- The two formats, with what stands between the fields. -/
def printTm (dash colon dot : List Byte) (tmTime : Tm) (microseconds : Int) : List Byte :=
  spaced (tmTime.tmYear + 1900) ++ (paddedInt 2 (tmTime.tmMon + 1) ++ (paddedInt 2 tmTime.tmMday ++
    (dash ++ (paddedInt 2 tmTime.tmHour ++ (colon ++ (paddedInt 2 tmTime.tmMin ++
      (colon ++ (paddedInt 2 tmTime.tmSec ++ (dot ++ paddedInt 6 microseconds)))))))))

/-- What `snprintf(buf, size, ..)` leaves in a buffer for a text without a zero. -/
def snprintf (size : Nat) (s : List Byte) : List Byte :=
  s.take (size - 1)

/-! ## The class -/

structure Timestamp where
  microSecondsSinceEpoch : Int
  min_le : -2 ^ 63 ≤ microSecondsSinceEpoch
  lt_max : microSecondsSinceEpoch < 2 ^ 63
  deriving DecidableEq

namespace Timestamp

/-- `kMicroSecondsPerSecond` -/
def kMicroSecondsPerSecond : Int := 1000 * 1000

def valid (t : Timestamp) : Bool :=
  0 < t.microSecondsSinceEpoch

/-- `seconds_since_epoch` -/
def secondsSinceEpoch (t : Timestamp) : Int :=
  t.microSecondsSinceEpoch.tdiv kMicroSecondsPerSecond

/-- The `microseconds` of the three functions below. -/
def microseconds (t : Timestamp) : Int :=
  t.microSecondsSinceEpoch.tmod kMicroSecondsPerSecond

/-- `"%lld.%06lld"` -/
def plainText (t : Timestamp) : List Byte :=
  decimalInt t.secondsSinceEpoch ++ text "." ++ paddedInt 6 t.microseconds

def toString (t : Timestamp) : List Byte :=
  snprintf 31 t.plainText

def formattedText (dash colon dot : List Byte) (t : Timestamp) : List Byte :=
  printTm dash colon dot (gmtime t.secondsSinceEpoch) t.microseconds

/-- `"%4d%02d%02d %02d:%02d:%02d.%06d"` -/
def toFormattedString (t : Timestamp) : List Byte :=
  snprintf 32 (t.formattedText (text " ") (text ":") (text "."))

/-- `"%4d%02d%02d-%02d%02d%02d-%06d"` -/
def toFormattedString1 (t : Timestamp) : List Byte :=
  snprintf 32 (t.formattedText (text "-") (text "") (text "-"))

variable {t t' : Timestamp}

/-! ## `to_string` -/

theorem eq_of_parts (hseconds : t.secondsSinceEpoch = t'.secondsSinceEpoch)
    (hmicros : t.microseconds = t'.microseconds) : t = t' := by
  have hparts := Int.mul_tdiv_add_tmod t.microSecondsSinceEpoch kMicroSecondsPerSecond
  have hparts' := Int.mul_tdiv_add_tmod t'.microSecondsSinceEpoch kMicroSecondsPerSecond
  have heq : t.microSecondsSinceEpoch = t'.microSecondsSinceEpoch := by
    rw [← hparts, ← hparts']
    rw [secondsSinceEpoch, secondsSinceEpoch] at hseconds
    rw [microseconds, microseconds] at hmicros
    rw [hseconds, hmicros]
  cases t
  cases t'
  cases heq
  rfl

theorem natAbs_secondsSinceEpoch_lt (t : Timestamp) : t.secondsSinceEpoch.natAbs < 10 ^ 13 := by
  have hmin := t.min_le
  have hmax := t.lt_max
  have hdivisor : kMicroSecondsPerSecond.natAbs = 1000000 := rfl
  rw [secondsSinceEpoch, Int.natAbs_tdiv, hdivisor]
  show t.microSecondsSinceEpoch.natAbs / 1000000 < 10 ^ 13
  omega

theorem natAbs_microseconds_lt (t : Timestamp) : t.microseconds.natAbs < 10 ^ 6 := by
  have hdivisor : kMicroSecondsPerSecond.natAbs = 1000000 := rfl
  rw [microseconds, Int.natAbs_tmod, hdivisor]
  omega

theorem toString_eq (t : Timestamp) : t.toString = t.plainText := by
  have hseconds := length_decimalInt_le (by decide) t.natAbs_secondsSinceEpoch_lt
  have hmicros := length_paddedInt_le (by decide) t.natAbs_microseconds_lt
  have hdot : (text ".").length = 1 := rfl
  refine List.take_of_length_le ?_
  rw [plainText, List.length_append, List.length_append]
  omega

/-- Both numbers can be read out of the text of a time, also of one before 1970. -/
theorem toString_injective : Function.Injective toString := by
  intro t t' heq
  have hdot : ∀ {bs : List Byte}, (∀ b ∈ bs, b = minus ∨ IsDigit b) → charByte '.' ∉ bs := by
    intro bs hbs hmem
    rcases hbs _ hmem with hminus | hdigit
    · exact absurd hminus (by decide)
    · exact absurd hdigit (by decide)
  rw [toString_eq, toString_eq, plainText, plainText, List.append_assoc, List.append_assoc] at heq
  -- The dot is where the seconds end.
  obtain ⟨hseconds, -, hmicros⟩ := (List.append_cons_inj_of_notMem
    (hdot fun _ => mem_decimalInt) (hdot fun _ => mem_paddedInt)).mp heq
  have hmicros : paddedInt 6 t.microseconds = paddedInt 6 t'.microseconds := hmicros
  refine eq_of_parts ?_ ?_
  · rw [← readInt_decimalInt t.secondsSinceEpoch, hseconds, readInt_decimalInt]
  · rw [← readInt_paddedInt 6 t.microseconds, hmicros, readInt_paddedInt]

/-! ## Fields of a fixed width -/

/-- `%02d` of a number of two digits. -/
theorem paddedInt_two {n : Int} (h : 0 ≤ n) (h' : n < 100) : paddedInt 2 n = fixed 2 n.natAbs := by
  have hfits : n.natAbs < 10 ^ (1 + 1) := by omega
  rw [paddedInt, if_neg (Int.not_lt.mpr h), padded_eq_fixed hfits]

/-- The ranges of what `gmtime_r` stores. -/
structure Ranges (tm : Tm) : Prop where
  mon : 0 ≤ tm.tmMon ∧ tm.tmMon < 12
  mday : 0 ≤ tm.tmMday ∧ tm.tmMday ≤ 31
  hour : 0 ≤ tm.tmHour ∧ tm.tmHour < 24
  min : 0 ≤ tm.tmMin ∧ tm.tmMin < 60
  sec : 0 ≤ tm.tmSec ∧ tm.tmSec < 60

theorem ranges_gmtime (seconds : Int) : Ranges (gmtime seconds) := by
  have hvalid := Date.valid_dateOf (seconds / 86400)
  have hmonth := hvalid.one_le_month
  have hmonth' := hvalid.month_le
  have hday := hvalid.day_le_31
  refine { mon := ⟨?_, ?_⟩, mday := ⟨?_, ?_⟩, hour := ⟨?_, ?_⟩, min := ⟨?_, ?_⟩, sec := ⟨?_, ?_⟩ }
  all_goals
    simp only [gmtime]
    omega

/-- The years of all times. -/
theorem year_gmtime_bounds (t : Timestamp) :
    -999999 < (gmtime t.secondsSinceEpoch).tmYear + 1900 ∧
      (gmtime t.secondsSinceEpoch).tmYear + 1900 < 999999 := by
  have hseconds := t.natAbs_secondsSinceEpoch_lt
  obtain ⟨hlow, hhigh⟩ := Date.year_bounds (t.secondsSinceEpoch / 86400)
  have hyear : (gmtime t.secondsSinceEpoch).tmYear + 1900 =
      (Date.dateOf (t.secondsSinceEpoch / 86400)).year := Int.sub_add_cancel _ 1900
  rw [hyear]
  constructor
  · by_contra hle
    have hfew := Date.daysBeforeYear_le (Int.add_le_add_right (Int.not_lt.mp hle) 1)
    have hdays : Date.daysBeforeYear (-999999 + 1) ≤ -200000000 := by decide
    omega
  · by_contra hle
    have hmany := Date.daysBeforeYear_le (Int.not_lt.mp hle)
    have hdays : 200000000 ≤ Date.daysBeforeYear 999999 := by decide
    omega

/-- A text of a time is as long as its year and what stands between the fields make it. -/
theorem length_formattedText (dash colon dot : List Byte) (t : Timestamp) :
    (t.formattedText dash colon dot).length ≤
      24 + dash.length + 2 * colon.length + dot.length := by
  obtain ⟨hmon, hmday, hhour, hmin, hsec⟩ := ranges_gmtime t.secondsSinceEpoch
  obtain ⟨hlow, hhigh⟩ := t.year_gmtime_bounds
  have hyear : (spaced ((gmtime t.secondsSinceEpoch).tmYear + 1900)).length ≤ 7 := by
    have hlen := length_decimalInt_le (n := (gmtime t.secondsSinceEpoch).tmYear + 1900)
      (w := 6) (by decide) (by omega)
    rw [spaced, List.length_append, List.length_replicate]
    omega
  have htwo : ∀ {n : Int}, 0 ≤ n → n < 100 → (paddedInt 2 n).length = 2 := by
    intro n h h'
    rw [paddedInt_two h h', length_fixed]
  have hmon := htwo (n := (gmtime t.secondsSinceEpoch).tmMon + 1) (by omega) (by omega)
  have hmday := htwo hmday.1 (by omega)
  have hhour := htwo hhour.1 (by omega)
  have hmin := htwo hmin.1 (by omega)
  have hsec := htwo hsec.1 (by omega)
  have hmicros := length_paddedInt_le (by decide) t.natAbs_microseconds_lt
  simp only [formattedText, printTm, List.length_append]
  omega

/-- The buffer of 32 bytes holds the whole text of every time, in either format. -/
theorem formatted_not_truncated (t : Timestamp) :
    t.toFormattedString = t.formattedText (text " ") (text ":") (text ".") ∧
      t.toFormattedString1 = t.formattedText (text "-") (text "") (text "-") := by
  constructor
  · refine List.take_of_length_le (Nat.le_trans (length_formattedText _ _ _ t) ?_)
    decide
  · refine List.take_of_length_le (Nat.le_trans (length_formattedText _ _ _ t) ?_)
    decide

/-! ## The order of texts -/

/-- A time from 1970 to the end of the year 9999. -/
def FourDigitYear (t : Timestamp) : Prop :=
  0 ≤ t.microSecondsSinceEpoch ∧ t.microSecondsSinceEpoch < 253402300800 * 1000000

instance (t : Timestamp) : Decidable t.FourDigitYear :=
  inferInstanceAs (Decidable (_ ∧ _))

theorem FourDigitYear.secondsSinceEpoch_eq (h : t.FourDigitYear) :
    t.secondsSinceEpoch = t.microSecondsSinceEpoch / 1000000 :=
  Int.tdiv_eq_ediv_of_nonneg h.1

theorem FourDigitYear.microseconds_eq (h : t.FourDigitYear) :
    t.microseconds = t.microSecondsSinceEpoch % 1000000 :=
  Int.tmod_eq_emod_of_nonneg h.1

theorem FourDigitYear.year_bounds (h : t.FourDigitYear) :
    1970 ≤ (gmtime t.secondsSinceEpoch).tmYear + 1900 ∧
      (gmtime t.secondsSinceEpoch).tmYear + 1900 < 10000 := by
  have hseconds := h.secondsSinceEpoch_eq
  obtain ⟨hmin, hmax⟩ := h
  obtain ⟨hlow, hhigh⟩ := Date.year_bounds (t.secondsSinceEpoch / 86400)
  have hyear : (gmtime t.secondsSinceEpoch).tmYear + 1900 =
      (Date.dateOf (t.secondsSinceEpoch / 86400)).year := Int.sub_add_cancel _ 1900
  rw [hyear]
  constructor
  · by_contra hle
    have hfew := Date.daysBeforeYear_le (Int.not_le.mp hle)
    have hdays : Date.daysBeforeYear 1970 = 719162 := by decide
    omega
  · by_contra hle
    have hmany := Date.daysBeforeYear_le (Int.not_lt.mp hle)
    have hdays : Date.daysBeforeYear 10000 = 3652059 := by decide
    omega

/-- The date, the time of day and the microseconds decide, in this order. -/
def Earlier (tm : Tm) (micros : Int) (tm' : Tm) (micros' : Int) : Prop :=
  tm.tmYear < tm'.tmYear ∨ tm.tmYear = tm'.tmYear ∧
  (tm.tmMon < tm'.tmMon ∨ tm.tmMon = tm'.tmMon ∧
  (tm.tmMday < tm'.tmMday ∨ tm.tmMday = tm'.tmMday ∧
  (tm.tmHour < tm'.tmHour ∨ tm.tmHour = tm'.tmHour ∧
  (tm.tmMin < tm'.tmMin ∨ tm.tmMin = tm'.tmMin ∧
  (tm.tmSec < tm'.tmSec ∨ tm.tmSec = tm'.tmSec ∧ micros < micros')))))

theorem FourDigitYear.lt_iff (h : t.FourDigitYear) (h' : t'.FourDigitYear) :
    t.microSecondsSinceEpoch < t'.microSecondsSinceEpoch ↔
      Earlier (gmtime t.secondsSinceEpoch) t.microseconds
        (gmtime t'.secondsSinceEpoch) t'.microseconds := by
  let tm := gmtime t.secondsSinceEpoch
  let tm' := gmtime t'.secondsSinceEpoch
  let z := t.secondsSinceEpoch / 86400
  let z' := t'.secondsSinceEpoch / 86400
  -- The day decides first, and the date tells the day.
  have hday : t.microSecondsSinceEpoch < t'.microSecondsSinceEpoch ↔ z < z' ∨ z = z' ∧
      (tm.tmHour < tm'.tmHour ∨ tm.tmHour = tm'.tmHour ∧
      (tm.tmMin < tm'.tmMin ∨ tm.tmMin = tm'.tmMin ∧
      (tm.tmSec < tm'.tmSec ∨ tm.tmSec = tm'.tmSec ∧ t.microseconds < t'.microseconds))) := by
    have hseconds := h.secondsSinceEpoch_eq
    have hseconds' := h'.secondsSinceEpoch_eq
    have hmicros := h.microseconds_eq
    have hmicros' := h'.microseconds_eq
    simp only [tm, tm', z, z', gmtime]
    omega
  have hbefore : z < z' ↔ tm.tmYear < tm'.tmYear ∨ tm.tmYear = tm'.tmYear ∧
      (tm.tmMon < tm'.tmMon ∨ tm.tmMon = tm'.tmMon ∧ tm.tmMday < tm'.tmMday) := by
    rw [← Date.before_dateOf_iff, Date.Before]
    simp only [tm, tm', z, z', gmtime]
    omega
  have heq : z = z' ↔
      tm.tmYear = tm'.tmYear ∧ tm.tmMon = tm'.tmMon ∧ tm.tmMday = tm'.tmMday := by
    rw [← Date.dateOf_inj, Date.ext_iff]
    simp only [tm, tm', z, z', gmtime]
    omega
  rw [hday, hbefore, heq, Earlier]
  constructor
  · rintro ((hyear | ⟨hyear, hmon | ⟨hmon, hmday⟩⟩) | ⟨⟨hyear, hmon, hmday⟩, htime⟩)
    · exact Or.inl hyear
    · exact Or.inr ⟨hyear, Or.inl hmon⟩
    · exact Or.inr ⟨hyear, Or.inr ⟨hmon, Or.inl hmday⟩⟩
    · exact Or.inr ⟨hyear, Or.inr ⟨hmon, Or.inr ⟨hmday, htime⟩⟩⟩
  · rintro (hyear | ⟨hyear, hmon | ⟨hmon, hmday | ⟨hmday, htime⟩⟩⟩)
    · exact Or.inl (Or.inl hyear)
    · exact Or.inl (Or.inr ⟨hyear, Or.inl hmon⟩)
    · exact Or.inl (Or.inr ⟨hyear, Or.inr ⟨hmon, hmday⟩⟩)
    · exact Or.inr ⟨⟨hyear, hmon, hmday⟩, htime⟩

theorem FourDigitYear.paddedInt_micros (h : t.FourDigitYear) :
    paddedInt 6 t.microseconds = fixed 6 t.microseconds.natAbs := by
  have hnonneg : 0 ≤ t.microseconds := by
    rw [h.microseconds_eq]
    omega
  rw [paddedInt, if_neg (Int.not_lt.mpr hnonneg), padded_eq_fixed t.natAbs_microseconds_lt]

/-- A year of four digits is not padded. -/
theorem FourDigitYear.spaced_year (h : t.FourDigitYear) :
    spaced ((gmtime t.secondsSinceEpoch).tmYear + 1900) =
      fixed 4 ((gmtime t.secondsSinceEpoch).tmYear + 1900).natAbs := by
  obtain ⟨hlow, hhigh⟩ := h.year_bounds
  generalize (gmtime t.secondsSinceEpoch).tmYear + 1900 = year at hlow hhigh
  have hlong : ¬ (decimal year.natAbs).length ≤ 3 := by
    rw [length_decimal_le (by decide)]
    omega
  have hshort : (decimal year.natAbs).length ≤ 4 := by
    rw [length_decimal_le (by decide)]
    omega
  have hnone : 4 - (decimal year.natAbs).length = 0 := by omega
  have hfits : year.natAbs < 10 ^ (3 + 1) := by omega
  have hpos : ¬ year < 0 := by omega
  rw [← padded_eq_fixed hfits, spaced, padded, decimalInt, if_neg hpos, hnone]
  rfl

/-- The texts of two times, of one format, are ordered as the times are. -/
theorem FourDigitYear.formattedText_lt_iff (h : t.FourDigitYear) (h' : t'.FourDigitYear)
    (dash colon dot : List Byte) :
    t.formattedText dash colon dot < t'.formattedText dash colon dot ↔
      t.microSecondsSinceEpoch < t'.microSecondsSinceEpoch := by
  obtain ⟨hmon, hmday, hhour, hmin, hsec⟩ := ranges_gmtime t.secondsSinceEpoch
  obtain ⟨hmon', hmday', hhour', hmin', hsec'⟩ := ranges_gmtime t'.secondsSinceEpoch
  obtain ⟨hyear, hyear₂⟩ := h.year_bounds
  obtain ⟨hyear', hyear₂'⟩ := h'.year_bounds
  have hmicros := t.natAbs_microseconds_lt
  have hmicros' := t'.natAbs_microseconds_lt
  have hnonneg : 0 ≤ t.microseconds := by
    rw [h.microseconds_eq]
    omega
  have hnonneg' : 0 ≤ t'.microseconds := by
    rw [h'.microseconds_eq]
    omega
  rw [h.lt_iff h', formattedText, formattedText, printTm, printTm, h.spaced_year, h'.spaced_year,
    h.paddedInt_micros, h'.paddedInt_micros]
  generalize gmtime t.secondsSinceEpoch = tm at *
  generalize gmtime t'.secondsSinceEpoch = tm' at *
  rw [paddedInt_two (by omega) (by omega), paddedInt_two hmday.1 (by omega),
    paddedInt_two hhour.1 (by omega), paddedInt_two hmin.1 (by omega),
    paddedInt_two hsec.1 (by omega), paddedInt_two (by omega) (by omega),
    paddedInt_two hmday'.1 (by omega), paddedInt_two hhour'.1 (by omega),
    paddedInt_two hmin'.1 (by omega), paddedInt_two hsec'.1 (by omega)]
  -- Field by field: each has the width of its numbers.
  rw [fixed_append_lt_iff (by omega) (by omega), fixed_append_lt_iff (by omega) (by omega),
    fixed_append_lt_iff (by omega) (by omega), same_append_lt_iff,
    fixed_append_lt_iff (by omega) (by omega), same_append_lt_iff,
    fixed_append_lt_iff (by omega) (by omega), same_append_lt_iff,
    fixed_append_lt_iff (by omega) (by omega), same_append_lt_iff, fixed_lt_iff hmicros hmicros',
    Earlier]
  omega

/-- From 1970 to the end of the year 9999 the formatted texts of either format are ordered as the
times are. -/
theorem toFormattedString_lt_iff (h : t.FourDigitYear) (h' : t'.FourDigitYear) :
    (t.toFormattedString < t'.toFormattedString ↔
      t.microSecondsSinceEpoch < t'.microSecondsSinceEpoch) ∧
    (t.toFormattedString1 < t'.toFormattedString1 ↔
      t.microSecondsSinceEpoch < t'.microSecondsSinceEpoch) := by
  rw [t.formatted_not_truncated.1, t'.formatted_not_truncated.1, t.formatted_not_truncated.2,
    t'.formatted_not_truncated.2]
  exact ⟨h.formattedText_lt_iff h' _ _ _, h.formattedText_lt_iff h' _ _ _⟩

/-- The last microsecond of the first day, and the one behind it. -/
theorem toFormattedString_lt_iff_midnight :
    ∃ t t' : Timestamp, t.microSecondsSinceEpoch = 86399999999 ∧
      t'.microSecondsSinceEpoch = 86400000000 ∧ t.toFormattedString < t'.toFormattedString := by
  let t : Timestamp :=
    { microSecondsSinceEpoch := 86399999999
      min_le := by decide
      lt_max := by decide }
  let t' : Timestamp :=
    { microSecondsSinceEpoch := 86400000000
      min_le := by decide
      lt_max := by decide }
  have h : t.FourDigitYear := by decide
  have h' : t'.FourDigitYear := by decide
  exact ⟨t, t', rfl, rfl, (toFormattedString_lt_iff h h').1.mpr (by decide)⟩

end Timestamp

end Base
end Muradin
