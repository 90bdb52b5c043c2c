/-!
Contract: dates and times of a settings document.

A moment is a date, a time of day, or a date with a time, to which an offset may
be added. Its normal form has a `T` between date and time and capitals, a
fraction of at most nine digits that does not end in zero, and seconds even where
they are left out.

Owns: the reading of a moment into its normal form.
-/

namespace FactoryProxy.Toml

/-- A part of a moment in its normal form, and the rest. -/
abbrev MomentPart := List Char × List Char

/-- A number of exactly so many digits. -/
def digits? (count : Nat) (characters : List Char) : Option MomentPart :=
  let digits := characters.takeWhile Char.isDigit
  if digits.length = count then some (digits, characters.drop count) else none

def valueOfDigits (digits : List Char) : Nat :=
  digits.foldl (fun value c => 10 * value + (c.toNat - '0'.toNat)) 0

/-- Two digits with a value up to a limit. -/
def pair? (limit : Nat) (characters : List Char) : Option MomentPart := do
  let (digits, rest) ← digits? 2 characters
  if valueOfDigits digits ≤ limit then some (digits, rest) else none

def behind? (expected : Char) : List Char → Option (List Char)
  | [] => none
  | c :: rest => if c = expected then some rest else none

/-! ## Dates -/

def isLeapYear (year : Nat) : Bool :=
  year % 4 == 0 && (year % 100 != 0 || year % 400 == 0)

def daysIn (year month : Nat) : Nat :=
  if month = 2 then (if isLeapYear year then 29 else 28)
  else if [4, 6, 9, 11].contains month then 30
  else 31

/-- A year, a month and a day with dashes between them. -/
def date? (characters : List Char) : Option MomentPart := do
  let (year, rest) ← digits? 4 characters
  let (month, rest) ← digits? 2 (← behind? '-' rest)
  let (day, rest) ← digits? 2 (← behind? '-' rest)
  let monthNumber := valueOfDigits month
  let dayNumber := valueOfDigits day
  if 1 ≤ monthNumber ∧ monthNumber ≤ 12 ∧ 1 ≤ dayNumber
      ∧ dayNumber ≤ daysIn (valueOfDigits year) monthNumber then
    some (year ++ '-' :: month ++ '-' :: day, rest)
  else none

/-! ## Times -/

def withoutTrailingZeros (digits : List Char) : List Char :=
  (digits.reverse.dropWhile (· == '0')).reverse

/-- The fraction of a second, if there is one. -/
def fraction? (characters : List Char) : Option MomentPart :=
  match characters with
  | '.' :: rest =>
    let digits := rest.takeWhile Char.isDigit
    let kept := withoutTrailingZeros (digits.take 9)
    if digits.isEmpty then none
    else some (if kept.isEmpty then [] else '.' :: kept, rest.drop digits.length)
  | _ => some ([], characters)

/-- Seconds with their fraction. There may be sixty of them. -/
def seconds? (characters : List Char) : Option MomentPart :=
  match characters with
  | ':' :: rest => do
    let (seconds, rest) ← pair? 60 rest
    let (fraction, rest) ← fraction? rest
    return (':' :: seconds ++ fraction, rest)
  | _ => some (":00".toList, characters)

/-- An hour and a minute with a colon between them. -/
def hourAndMinute? (characters : List Char) : Option MomentPart := do
  let (hour, rest) ← pair? 23 characters
  let (minute, rest) ← pair? 59 (← behind? ':' rest)
  return (hour ++ ':' :: minute, rest)

def time? (characters : List Char) : Option MomentPart := do
  let (start, rest) ← hourAndMinute? characters
  let (seconds, rest) ← seconds? rest
  return (start ++ seconds, rest)

/-- The distance from universal time, if it is given. None at all is positive. -/
def offset? (characters : List Char) : Option MomentPart :=
  match characters with
  | c :: rest =>
    if c == 'Z' || c == 'z' then some (['Z'], rest)
    else if c == '+' || c == '-' then do
      let (distance, rest) ← hourAndMinute? rest
      return ((if distance = "00:00".toList then '+' else c) :: distance, rest)
    else some ([], characters)
  | [] => some ([], [])

/-! ## Moments -/

/-- The time of day behind a date, if there is one. -/
def timeOfDate? (characters : List Char) : Option MomentPart :=
  let joined (rest : List Char) : Option MomentPart := do
    let (time, rest) ← time? rest
    let (offset, rest) ← offset? rest
    return ('T' :: time ++ offset, rest)
  match characters with
  | c :: rest =>
    if c == 'T' || c == 't' then joined rest
    else if c == ' ' && rest.head?.any Char.isDigit then joined rest
    else some ([], characters)
  | [] => some ([], [])

def moment? (characters : List Char) : Option (String × List Char) :=
  let read : Option MomentPart :=
    if (digits? 4 characters).isSome then do
      let (date, rest) ← date? characters
      let (time, rest) ← timeOfDate? rest
      return (date ++ time, rest)
    else time? characters
  read.map (fun read => (String.ofList read.1, read.2))

end FactoryProxy.Toml
