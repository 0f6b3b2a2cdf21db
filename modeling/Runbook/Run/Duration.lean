/-
  Durations in words.

  A duration is rounded to whole milliseconds, which a library puts into words;
  the conjunction in them is then replaced by a comma (`textBy`).  The library is
  a parameter, and `precise` is one.  It splits the milliseconds into units, from
  years of 365 days and months of thirty days and a half down to milliseconds, and
  leaves out those that are zero (`partsOf`).
-/
import Runbook.Decimal.Rounded
import Runbook.Text.Basic

namespace Runbook.Run

/-- A length of time in milliseconds: a whole number, a double, or one that was measured. -/
inductive Milliseconds where
  | whole (n : Int)
  | fractional (x : Float)
  | measured (x : Rat)

/-- Why a duration has no words. -/
inductive DurationFault where
  | notANumber
  | infinite
  | tooManyDays (days : Int)
  | daysOverflow
  | outOfCalendar
  deriving DecidableEq

/-- The most days that a duration can have. -/
def maxDays : Nat := 999999999

/-- The wording of a fault. -/
def DurationFault.message : DurationFault → String
  | notANumber => "cannot convert float NaN to integer"
  | infinite => "cannot convert float infinity to integer"
  | tooManyDays days => s!"days={days}; must have magnitude <= {maxDays}"
  | daysOverflow => "Python int too large to convert to C int"
  | outOfCalendar => "date value out of range"

/-- A duration as a whole number of milliseconds, a half to the even one. -/
def Milliseconds.rounded : Milliseconds → Except DurationFault Int
  | whole n => .ok n
  | measured x => .ok (Decimal.roundHalfEven x)
  | fractional x =>
    match Decimal.Double.ofFloat x with
    | .nan => .error .notANumber
    | .infinite _ => .error .infinite
    | .finite negative mantissa exponent =>
      .ok (Decimal.roundedParts negative mantissa exponent)

/-! ## Units -/

/-- The units of time. -/
inductive TimeUnit where
  | year
  | month
  | day
  | hour
  | minute
  | second
  | millisecond
  deriving DecidableEq, Repr

/-- The name of a unit, in the singular. -/
def TimeUnit.name : TimeUnit → String
  | year => "year"
  | month => "month"
  | day => "day"
  | hour => "hour"
  | minute => "minute"
  | second => "second"
  | millisecond => "millisecond"

/-- The milliseconds of a day. -/
def dayLength : Nat := 86400000

/-- The counts of the units in a number of milliseconds, the largest unit first.  Months are counted
in half days, of which each has 61. -/
def countsOf (n : Nat) : List (TimeUnit × Nat) :=
  let days := n / dayLength
  let rest := n % dayLength
  let halfDays := 2 * (days % 365)
  [(.year, days / 365), (.month, halfDays / 61), (.day, halfDays % 61 / 2),
    (.hour, rest / 3600000), (.minute, rest / 60000 % 60), (.second, rest / 1000 % 60),
    (.millisecond, rest % 1000)]

/-- The counts that are not zero; no milliseconds if there are none. -/
def partsOf (n : Nat) : List (TimeUnit × Nat) :=
  match (countsOf n).filter fun part => part.2 ≠ 0 with
  | [] => [(.millisecond, 0)]
  | parts => parts

/-- The digits of a number, with a comma before every group of three. -/
def groupedDigits (n : Nat) : String :=
  let rec group : List Char → List Char
    | a :: b :: c :: d :: ds => a :: b :: c :: ',' :: group (d :: ds)
    | ds => ds
  String.ofList (group (Nat.toDigits 10 n).reverse).reverse

/-- A count with its unit. -/
def partText (part : TimeUnit × Nat) : String :=
  groupedDigits part.2 ++ " " ++ part.1.name ++ if part.2 = 1 then "" else "s"

/-- Texts in a row, with commas between them and a conjunction before the last. -/
def conjoined : List String → String
  | [] => ""
  | [t] => t
  | [t, last] => t ++ " and " ++ last
  | t :: ts => t ++ ", " ++ conjoined ts

/-- The days from the first day of the calendar to today, and the days from today to its last day.
Both stand for the date of the run, which is no part of its surroundings: they are counted from a day
of the year 2024, in whole thousands. -/
def calendarDays : Nat × Nat := (739000, 2912000)

/-- The whole days in a number of milliseconds, rounded down. -/
def daysOf (n : Int) : Int := n.fdiv dayLength

/-- The words of a number of milliseconds, which have no sign.  They are found by way of the calendar:
a duration that does not fit in before today, or after it, has none. -/
def precise (n : Int) : Except DurationFault String :=
  if calendarDays.1 < daysOf n ∨ daysOf n < -calendarDays.2 then .error .outOfCalendar
  else .ok (conjoined ((partsOf n.natAbs).map partText))

/-! ## The words of a duration -/

/-- The first number of days that is too large to be counted at all. -/
def wordLimit : Int := 2147483648

/-- Refuses a number of days that a duration cannot have. -/
def checkDays (n : Int) : Except DurationFault Unit :=
  let days := daysOf n
  if days < -wordLimit ∨ wordLimit ≤ days then .error .daysOverflow
  else if days < -maxDays ∨ maxDays < days then .error (.tooManyDays days)
  else .ok ()

/-- The words of a duration, as a library puts its milliseconds into words. -/
def Milliseconds.textBy (library : Int → Except DurationFault String) (m : Milliseconds) :
    Except DurationFault String := do
  let n ← m.rounded
  checkDays n
  let words ← library n
  return Text.replaceAll " and " ", " words

/-- The words of a duration. -/
def Milliseconds.text (m : Milliseconds) : Except DurationFault String := m.textBy precise

end Runbook.Run
