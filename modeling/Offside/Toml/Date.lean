import Offside.Toml.Number

/-!
# Dates and times of TOML

A date, a time of day, or both, and with both also the distance from universal time. They are kept
in one normal form: `T` and `Z` are large, a fraction of a second has no zeros at its end, and a
distance is given in hours and minutes. `dateTime?` reads them as they stand in a document,
`dateOfText?` out of a text of their own, where hours and distances may be larger.
-/

namespace Offside

namespace Toml

def fixed? (n low high : Nat) (text : List Char) : Option (Nat × List Char) :=
  let ds := text.take n
  let value := ofDigits 10 ds
  if ds.length = n ∧ ds.all Char.isDigit ∧ low ≤ value ∧ value ≤ high then some (value, text.drop n)
  else none

def isLeap (year : Nat) : Bool := year % 4 == 0 && (year % 100 != 0 || year % 400 == 0)

def daysIn (year month : Nat) : Nat :=
  if month = 2 then if isLeap year then 29 else 28
  else if month = 4 ∨ month = 6 ∨ month = 9 ∨ month = 11 then 30
  else 31

def padded (width n : Nat) : String :=
  let s := toString n
  "".pushn '0' (width - s.length) ++ s

def date? (text : List Char) : Option (String × List Char) := do
  let (year, r) ← fixed? 4 0 9999 text
  let r ← expect '-' r
  let (month, r) ← fixed? 2 1 12 r
  let r ← expect '-' r
  let (day, r) ← fixed? 2 1 (daysIn year month) r
  return (padded 4 year ++ "-" ++ padded 2 month ++ "-" ++ padded 2 day, r)

def secondFraction : List Char → String × List Char
  | '.' :: r =>
    let ds := r.takeWhile Char.isDigit
    if ds.isEmpty then ("", '.' :: r)
    else
      let kept := ((ds.take 9).reverse.dropWhile (· == '0')).reverse
      (if kept.isEmpty then "" else "." ++ String.ofList kept, r.dropWhile Char.isDigit)
  | r => ("", r)

def time? (lastHour : Nat) (text : List Char) : Option (String × List Char) := do
  let (hour, r) ← fixed? 2 0 lastHour text
  let r ← expect ':' r
  let (minute, r) ← fixed? 2 0 59 r
  let r ← expect ':' r
  let (second, r) ← fixed? 2 0 60 r
  let (fraction, r) := secondFraction r
  return (padded 2 hour ++ ":" ++ padded 2 minute ++ ":" ++ padded 2 second ++ fraction, r)

def distance (negative : Bool) (minutes : Nat) : String :=
  (if negative && 0 < minutes then "-" else "+") ++ padded 2 (minutes / 60) ++ ":" ++
    padded 2 (minutes % 60)

/-- The distance from universal time: hours and minutes within the given bounds, and the number of
minutes in all. -/
def offset? (lastHour lastMinute most : Nat) : List Char → Option (String × List Char)
  | 'Z' :: r | 'z' :: r => some ("Z", r)
  | c :: r =>
    if c = '+' ∨ c = '-' then do
      let (hour, r) ← fixed? 2 0 lastHour r
      let r ← expect ':' r
      let (minute, r) ← fixed? 2 0 lastMinute r
      let minutes := 60 * hour + minute
      if minutes ≤ most then return (distance (c == '-') minutes, r) else none
    else none
  | [] => none

def isTimeMark (c : Char) : Bool := c == 'T' || c == 't' || c == ' '

/-! ## In a document -/

def timeAfterDate? : List Char → Option (String × List Char)
  | c :: r =>
    if isTimeMark c then do
      let (time, r) ← time? 23 r
      match offset? 23 59 1439 r with
      | some (offset, r) => return ("T" ++ time ++ offset, r)
      | none => return ("T" ++ time, r)
    else none
  | [] => none

def dateTime? (text : List Char) : Option (String × List Char) :=
  match date? text with
  | some (date, r) =>
    match timeAfterDate? r with
    | some (time, r) => some (date ++ time, r)
    | none => some (date, r)
  | none => time? 23 text

/-! ## In a text of its own -/

def dayMinutes : Nat := 1440

def restOfDate? : List Char → Option String
  | [] => some ""
  | c :: r =>
    if isTimeMark c then do
      match ← time? 24 r with
      | (time, []) => return "T" ++ time
      | (time, r) =>
        let (offset, r) ← offset? 99 99 dayMinutes r
        if r.isEmpty then return "T" ++ time ++ offset else none
    else none

def dateOfText? (text : List Char) : Option String :=
  if text[2]? = some ':' then
    match time? 24 text with
    | some (time, []) => some time
    | _ => none
  else do
    let (date, r) ← date? text
    return date ++ (← restOfDate? r)

end Toml

end Offside
