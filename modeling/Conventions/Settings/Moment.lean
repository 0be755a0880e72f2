/-!
# Dates and times of day

Calendar dates, times of day with microseconds, and both together with an optional
offset from universal time in minutes. Each has a plain text and a descriptive one
that names its parts.
-/

namespace Conventions

structure Date where
  year : Nat
  month : Nat
  day : Nat
  deriving DecidableEq, Repr

structure Clock where
  hour : Nat
  minute : Nat
  second : Nat
  micros : Nat
  deriving DecidableEq, Repr

/-- A date, a time of day, or both. -/
inductive Moment where
  | date (d : Date)
  | time (t : Clock)
  | both (d : Date) (t : Clock) (offset : Option Int)
  deriving DecidableEq, Repr

/-- A number with leading zeros up to a width. -/
def padded (width n : Nat) : String :=
  let ds := Nat.toDigits 10 n
  String.ofList (List.replicate (width - ds.length) '0' ++ ds)

def isLeapYear (year : Nat) : Bool :=
  year % 4 == 0 && (year % 100 != 0 || year % 400 == 0)

def daysInMonth (year month : Nat) : Nat :=
  if month = 2 then if isLeapYear year then 29 else 28
  else if month = 4 ∨ month = 6 ∨ month = 9 ∨ month = 11 then 30
  else 31

/-- The calendar has this day. -/
def Date.isValid (d : Date) : Bool :=
  1 ≤ d.year && 1 ≤ d.month && d.month ≤ 12 && 1 ≤ d.day && d.day ≤ daysInMonth d.year d.month

def Date.text (d : Date) : String :=
  padded 4 d.year ++ "-" ++ padded 2 d.month ++ "-" ++ padded 2 d.day

def Clock.text (t : Clock) : String :=
  padded 2 t.hour ++ ":" ++ padded 2 t.minute ++ ":" ++ padded 2 t.second ++
    if t.micros = 0 then "" else "." ++ padded 6 t.micros

def offsetText (minutes : Int) : String :=
  (if minutes < 0 then "-" else "+") ++ padded 2 (minutes.natAbs / 60) ++ ":" ++
    padded 2 (minutes.natAbs % 60)

namespace Moment

def text : Moment → String
  | date d => d.text
  | time t => t.text
  | both d t none => d.text ++ " " ++ t.text
  | both d t (some minutes) => d.text ++ " " ++ t.text ++ offsetText minutes

/-- The parts of a time of day; trailing zero seconds and microseconds are left out. -/
def clockParts (t : Clock) : List Nat :=
  if t.micros ≠ 0 then [t.hour, t.minute, t.second, t.micros]
  else if t.second ≠ 0 then [t.hour, t.minute, t.second]
  else [t.hour, t.minute]

/-- An offset as days and seconds, the seconds never negative. -/
def offsetDescription (minutes : Int) : String :=
  if minutes = 0 then "datetime.timezone.utc"
  else
    let seconds := toString (minutes * 60 % 86400)
    let length := if minutes < 0 then "days=-1, seconds=" ++ seconds else "seconds=" ++ seconds
    "datetime.timezone(datetime.timedelta(" ++ length ++ "))"

def call (name : String) (parts : List String) : String :=
  "datetime." ++ name ++ "(" ++ ", ".intercalate parts ++ ")"

/-- The descriptive text. -/
def description : Moment → String
  | date d => call "date" ([d.year, d.month, d.day].map toString)
  | time t => call "time" ((clockParts t).map toString)
  | both d t offset =>
    call "datetime" ((([d.year, d.month, d.day] ++ clockParts t).map toString) ++
      match offset with
      | some minutes => ["tzinfo=" ++ offsetDescription minutes]
      | none => [])

end Moment

end Conventions
