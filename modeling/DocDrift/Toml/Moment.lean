import DocDrift.Text.Basic

/-!
Dates and times of configuration documents, and how diagnostics show them.
-/

namespace DocDrift.Toml

/-- A fixed number of decimal digits at the front of a text. -/
def splitNumber (width : Nat) (text : Text) : Option (Nat × Text) :=
  let digits := text.take width
  if digits.length = width && digits.all Char.isDigit then
    some (digits.foldl (fun n c => 10 * n + (c.toNat - '0'.toNat)) 0, text.drop width)
  else none

def splitMark (mark : Char) (text : Text) : Option Text :=
  match text with
  | c :: rest => if c = mark then some rest else none
  | [] => none

structure Date where
  year : Nat
  month : Nat
  day : Nat
  deriving DecidableEq, Repr

structure Clock where
  hour : Nat
  minute : Nat
  second : Nat
  microsecond : Nat
  deriving DecidableEq, Repr

namespace Date

def isLeap (year : Nat) : Bool := year % 4 == 0 && (year % 100 != 0 || year % 400 == 0)

def daysIn (year month : Nat) : Nat :=
  match month with
  | 2 => if isLeap year then 29 else 28
  | 4 | 6 | 9 | 11 => 30
  | _ => 31

def isValid (date : Date) : Bool := 1 ≤ date.year && date.day ≤ daysIn date.year date.month

/-- A date in the form `1988-10-27`, valid or not. -/
def split (text : Text) : Option (Date × Text) := do
  let (year, rest) ← splitNumber 4 text
  let (month, rest) ← splitMark '-' rest >>= splitNumber 2
  let (day, rest) ← splitMark '-' rest >>= splitNumber 2
  if 1 ≤ month && month ≤ 12 && 1 ≤ day && day ≤ 31 then some (⟨year, month, day⟩, rest) else none

end Date

namespace Clock

/-- The digits after the point of the seconds, of which six count; without a digit there is no
point. -/
def splitFraction (text : Text) : Nat × Text :=
  match text with
  | '.' :: rest =>
    let digits := rest.takeWhile Char.isDigit
    if digits = [] then (0, text)
    else
      let six := (digits ++ List.replicate 6 '0').take 6
      (six.foldl (fun n c => 10 * n + (c.toNat - '0'.toNat)) 0, rest.drop digits.length)
  | _ => (0, text)

/-- A time in the form `00:32:00.999999`. -/
def split (text : Text) : Option (Clock × Text) := do
  let (hour, rest) ← splitNumber 2 text
  let (minute, rest) ← splitMark ':' rest >>= splitNumber 2
  let (second, rest) ← splitMark ':' rest >>= splitNumber 2
  if hour < 24 && minute < 60 && second < 60 then
    let (fraction, rest) := splitFraction rest
    some (⟨hour, minute, second, fraction⟩, rest)
  else none

/-- The numbers of a time, without zero seconds and fractions at the end. -/
def numbers (clock : Clock) : List Nat :=
  [clock.hour, clock.minute] ++
    if clock.microsecond ≠ 0 then [clock.second, clock.microsecond]
    else if clock.second ≠ 0 then [clock.second]
    else []

end Clock

/-- The distance of a date and time from universal time, in minutes; zero is universal time. -/
def splitOffset (text : Text) : Option Int × Text :=
  match text with
  | c :: rest =>
    if c = 'Z' || c = 'z' then (some 0, rest)
    else if c = '+' || c = '-' then
      let distance := do
        let (hour, after) ← splitNumber 2 rest
        let (minute, after) ← splitMark ':' after >>= splitNumber 2
        if hour < 24 && minute < 60 then some (60 * hour + minute, after) else none
      match distance with
      | some (minutes, after) => (some (if c = '-' then -(minutes : Int) else minutes), after)
      | none => (none, text)
    else (none, text)
  | [] => (none, [])

def showNumbers (numbers : List Nat) : String := ", ".intercalate (numbers.map toString)

/-- A distance from universal time, as diagnostics show it. -/
def showOffset (minutes : Int) : String :=
  if minutes = 0 then "datetime.timezone.utc"
  else
    let seconds := 60 * minutes
    let shown :=
      if seconds < 0 then "days=-1, seconds=" ++ toString (seconds + 86400)
      else "seconds=" ++ toString seconds
    "datetime.timezone(datetime.timedelta(" ++ shown ++ "))"

/-- A date, or a date and time, as diagnostics show it. There is none where no date stands, and no
value where the calendar does not have it. -/
def splitDate (text : Text) : Option (Option String × Text) :=
  match Date.split text with
  | none => none
  | some (date, rest) =>
    let days := [date.year, date.month, date.day]
    let onlyDate := ("datetime.date(" ++ showNumbers days ++ ")", rest)
    let (shown, after) := match rest with
      | c :: more =>
        if c = 'T' || c = 't' || c = ' ' then
          match Clock.split more with
          | some (clock, after) =>
            let (offset, after) := splitOffset after
            let zone := match offset with
              | some minutes => ", tzinfo=" ++ showOffset minutes
              | none => ""
            ("datetime.datetime(" ++ showNumbers (days ++ clock.numbers) ++ zone ++ ")", after)
          | none => onlyDate
        else onlyDate
      | [] => onlyDate
    some (if date.isValid then some shown else none, after)

/-- A time, as diagnostics show it. -/
def splitTime (text : Text) : Option (String × Text) :=
  (Clock.split text).map fun (clock, rest) =>
    ("datetime.time(" ++ showNumbers clock.numbers ++ ")", rest)

end DocDrift.Toml
