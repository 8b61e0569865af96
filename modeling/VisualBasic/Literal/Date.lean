import VisualBasic.Text.Class
import VisualBasic.Literal.Numeral

/-!
Date literals: a date, a time of day or both, as written between number signs.
-/

set_option autoImplicit false

namespace VisualBasic

structure DateValue where
  year : Nat
  month : Nat
  day : Nat
  hour : Nat
  minute : Nat
  second : Nat
deriving DecidableEq, Inhabited

namespace DateValue

def isLeapYear (year : Nat) : Bool :=
  (year % 4 == 0 && year % 100 != 0) || year % 400 == 0

def daysInMonth (year month : Nat) : Nat :=
  match month with
  | 1 | 3 | 5 | 7 | 8 | 10 | 12 => 31
  | 4 | 6 | 9 | 11 => 30
  | 2 => if isLeapYear year then 29 else 28
  | _ => 0

def isDay (year month day : Nat) : Bool :=
  1 ≤ year && year ≤ 9999 && 1 ≤ month && month ≤ 12 && 1 ≤ day && day ≤ daysInMonth year month

/-- The number in decimal, with zeros in front up to the width. -/
def padded (width n : Nat) : String :=
  let digits := Nat.toDigits 10 n
  String.ofList (List.replicate (width - digits.length) '0' ++ digits)

def render (d : DateValue) : String :=
  padded 4 d.year ++ "-" ++ padded 2 d.month ++ "-" ++ padded 2 d.day ++ " "
    ++ padded 2 d.hour ++ ":" ++ padded 2 d.minute ++ ":" ++ padded 2 d.second

/-- A number of one to four digits, with the count of its digits. -/
def readNumber? (cs : List Char) : Option ((Nat × Nat) × List Char) :=
  let digits := cs.takeWhile isDecimalDigit
  if 1 ≤ digits.length ∧ digits.length ≤ 4 then
    some ((ofDigits 10 (digits.filterMap (digitValue? 10)), digits.length),
      cs.drop digits.length)
  else none

def skipBlanks (cs : List Char) : List Char := cs.dropWhile isBlank

/-- The text after a given character, whatever its width. -/
def after? (mark : Char) : List Char → Option (List Char)
  | c :: rest => if halfWidth c = mark then some rest else none
  | [] => none

/-- Reads `AM` or `PM`, whose second letter may be missing: false in the morning. -/
def readMeridiem? : List Char → Option (Bool × List Char)
  | [] => none
  | c :: rest =>
    let afterM := match rest with
      | m :: rest' => if halfWidth m = 'm' ∨ halfWidth m = 'M' then rest' else rest
      | [] => rest
    match (halfWidth c).toUpper with
    | 'A' => some (false, afterM)
    | 'P' => some (true, afterM)
    | _ => none

/-- The hour of the day for an hour of the twelve-hour clock. -/
def hourOfHalfDay? (afternoon : Bool) (hour : Nat) : Option Nat :=
  if hour = 0 ∨ 12 < hour then none
  else some (hour % 12 + if afternoon then 12 else 0)

/-- Minutes and seconds after the hour, as far as they are written. -/
def readMinutes? (cs : List Char) : Option ((Bool × Nat × Nat) × List Char) :=
  match after? ':' cs with
  | none => some ((false, 0, 0), cs)
  | some rest => do
    let ((minute, _), rest) ← readNumber? rest
    match after? ':' rest with
    | none => some ((true, minute, 0), rest)
    | some rest => do
      let ((second, _), rest) ← readNumber? rest
      some ((true, minute, second), rest)

/-- The time whose hour has been read.  An hour alone needs `AM` or `PM` to be a time. -/
def readTime? (hour : Nat) (cs : List Char) : Option ((Nat × Nat × Nat) × List Char) := do
  let ((hasMinutes, minute, second), rest) ← readMinutes? cs
  let rest := skipBlanks rest
  let (hour, rest) ← match readMeridiem? rest with
    | some (afternoon, rest) => (hourOfHalfDay? afternoon hour).map (·, rest)
    | none => if hasMinutes then some (hour, rest) else none
  if 23 < hour ∨ 59 < minute ∨ 59 < second then none
  else some ((hour, minute, second), rest)

/-- A year of two digits lies between 1931 and 2030. -/
def fullYear (value digits : Nat) : Nat :=
  if digits = 2 then (if value ≤ 30 then value + 2000 else value + 1900) else value

/-- The rest of a date after its first number: the year comes first when it has four digits, and
last otherwise. -/
def readDate? (first : Nat × Nat) (separator : Char) (cs : List Char) :
    Option ((Nat × Nat × Nat) × List Char) := do
  let (second, rest) ← readNumber? cs
  let rest ← after? separator rest
  let (third, rest) ← readNumber? rest
  if first.2 = 4 then some ((first.1, second.1, third.1), rest)
  else some ((fullYear third.1 third.2, first.1, second.1), rest)

/-- The date, the time or both that the text begins with; a time alone is on the first day of the
calendar. -/
def readMoment? (cs : List Char) : Option (DateValue × List Char) := do
  let (first, rest) ← readNumber? cs
  match (rest.head?.map halfWidth).filter (fun c => c == '/' || c == '-') with
  | none =>
    let ((hour, minute, second), rest) ← readTime? first.1 rest
    some (⟨1, 1, 1, hour, minute, second⟩, rest)
  | some separator =>
    let ((year, month, day), rest) ← readDate? first separator (rest.drop 1)
    let rest := skipBlanks rest
    match readNumber? rest with
    | some ((hour, _), rest) =>
      let ((hour, minute, second), rest) ← readTime? hour rest
      some (⟨year, month, day, hour, minute, second⟩, rest)
    | none =>
      if (rest.head?.map isDecimalDigit).getD false then none
      else some (⟨year, month, day, 0, 0, 0⟩, rest)

/-- The value of the whole text between the number signs. -/
def ofText? (cs : List Char) : Option DateValue := do
  let (moment, rest) ← readMoment? (skipBlanks cs)
  if isDay moment.year moment.month moment.day ∧ skipBlanks rest = [] then some moment else none

end DateValue

end VisualBasic
