import ScriptHost.Number.Binary64
import ScriptHost.Toml.Basic

/-!
# Numbers, dates and times in TOML

A scalar other than a string is a run of characters without blanks (a date and a time may have one
between them), and what it is can be told from the run as a whole: `Toml.ofScalar?`.
-/

set_option autoImplicit false

namespace ScriptHost.Toml

/-! ## Digits -/

/-- The characters of the digits of a base. -/
def isDigitOf (base : Nat) (c : Char) : Bool :=
  if base = 16 then c.isDigit || ('a' ≤ c && c ≤ 'f') || ('A' ≤ c && c ≤ 'F')
  else '0' ≤ c && c.toNat < 48 + base

/-- The value of a digit. -/
def digitValue (c : Char) : Nat :=
  if c.isDigit then c.toNat - 48
  else if 'a' ≤ c then c.toNat - 87
  else c.toNat - 55

/-- The number written by digits of a base. -/
def digitsValue (base : Nat) (cs : List Char) : Nat :=
  cs.foldl (fun n c => n * base + digitValue c) 0

/-- The digits of a run in which single underscores may stand between digits. -/
def separated? (base : Nat) : List Char → Option (List Char)
  | [] => none
  | [c] => if isDigitOf base c then some [c] else none
  | c :: '_' :: rest =>
    if isDigitOf base c then (separated? base rest).map (c :: ·) else none
  | c :: rest => if isDigitOf base c then (separated? base rest).map (c :: ·) else none

/-- Takes a sign off the front. -/
def splitSign : List Char → Bool × List Char
  | '-' :: rest => (true, rest)
  | '+' :: rest => (false, rest)
  | cs => (false, cs)

/-! ## Numbers -/

/-- The range of integers. -/
def inRange (i : Int) : Bool :=
  decide (Int64.minValue.toInt ≤ i) && decide (i ≤ Int64.maxValue.toInt)

/-- The digits of a decimal number without extra zeros in front. -/
def decimalDigits? (cs : List Char) : Option (List Char) := do
  let ds ← separated? 10 cs
  guard (ds.length == 1 || ds.head? != some '0')
  return ds

/-- An integer, in base ten with a sign or in another base without. -/
def integer? (cs : List Char) : Option Int := do
  let i : Int ← match cs with
    | '0' :: 'x' :: rest => (separated? 16 rest).map fun ds => (digitsValue 16 ds : Int)
    | '0' :: 'o' :: rest => (separated? 8 rest).map fun ds => (digitsValue 8 ds : Int)
    | '0' :: 'b' :: rest => (separated? 2 rest).map fun ds => (digitsValue 2 ds : Int)
    | _ =>
      let (negative, rest) := splitSign cs
      (decimalDigits? rest).map fun ds =>
        let n : Int := digitsValue 10 ds
        if negative then -n else n
  guard (inRange i)
  return i

/-- Whether a run is a number with a fraction or an exponent, or one of the special ones. A
number that is not negative may not be too large for the format. -/
def isFloat (cs : List Char) : Bool :=
  let (below, rest) := splitSign cs
  if rest = "inf".toList || rest = "nan".toList then true
  else
    let mantissa := rest.takeWhile fun c => c != 'e' && c != 'E'
    let exponent := (rest.dropWhile fun c => c != 'e' && c != 'E').tail
    let whole := mantissa.takeWhile (· != '.')
    let fraction := (mantissa.dropWhile (· != '.')).tail
    let hasExponent := mantissa.length < rest.length
    let hasFraction := whole.length < mantissa.length
    let (negative, exponentDigits) := splitSign exponent
    match decimalDigits? whole with
    | none => false
    | some ds =>
      let fractionDigits := if hasFraction then separated? 10 fraction else some []
      let power := if hasExponent then separated? 10 exponentDigits else some []
      match fractionDigits, power with
      | some fs, some es =>
        let e : Int := digitsValue 10 es
        (hasFraction || hasExponent)
          && (below || !Number.Binary64.overflows (digitsValue 10 (ds ++ fs))
            ((if negative then -e else e) - fs.length))
      | _, _ => false

/-! ## Dates and times -/

/-- The number written by exactly `width` digits, and what follows. -/
def fixed? (width : Nat) (cs : List Char) : Option (Nat × List Char) :=
  let ds := cs.take width
  if ds.length == width && ds.all Char.isDigit then some (digitsValue 10 ds, cs.drop width)
  else none

/-- Takes one given character off the front. -/
def expect? (c : Char) : List Char → Option (List Char)
  | [] => none
  | d :: rest => if d = c then some rest else none

/-- The number of days of a month. -/
def daysIn (year month : Nat) : Nat :=
  if month = 2 then
    if year % 4 = 0 && (year % 100 != 0 || year % 400 = 0) then 29 else 28
  else if month = 4 || month = 6 || month = 9 || month = 11 then 30
  else 31

/-- Takes a date off the front. -/
def date? (cs : List Char) : Option (List Char) := do
  let (year, cs) ← fixed? 4 cs
  let cs ← expect? '-' cs
  let (month, cs) ← fixed? 2 cs
  let cs ← expect? '-' cs
  let (day, cs) ← fixed? 2 cs
  guard (1 ≤ month && month ≤ 12 && 1 ≤ day && day ≤ daysIn year month)
  return cs

/-- Takes hours and minutes off the front. -/
def clock? (cs : List Char) : Option (List Char) := do
  let (hour, cs) ← fixed? 2 cs
  let cs ← expect? ':' cs
  let (minute, cs) ← fixed? 2 cs
  guard (hour ≤ 23 && minute ≤ 59)
  return cs

/-- Takes a time off the front. -/
def time? (cs : List Char) : Option (List Char) := do
  let cs ← clock? cs
  let cs ← expect? ':' cs
  let (second, cs) ← fixed? 2 cs
  guard (second ≤ 60)
  match cs with
  | '.' :: rest =>
    guard (rest.head?.any Char.isDigit)
    return rest.dropWhile Char.isDigit
  | _ => return cs

/-- Whether a run is an offset from universal time. -/
def isOffset (cs : List Char) : Bool :=
  match cs with
  | [c] => c == 'Z' || c == 'z'
  | '+' :: rest => clock? rest == some []
  | '-' :: rest => clock? rest == some []
  | _ => false

/-- Whether a run is a date, a time, or both with or without an offset. -/
def isMoment (cs : List Char) : Bool :=
  match date? cs with
  | some [] => true
  | some (c :: rest) =>
    if c == 'T' || c == 't' || c == ' ' then
      match time? rest with
      | some rest => rest.isEmpty || isOffset rest
      | none => false
    else false
  | none => time? cs == some []

/-! ## Scalars -/

/-- The characters of a scalar. -/
def isScalarChar (c : Char) : Bool :=
  c.isAlphanum || c == '_' || c == '+' || c == '-' || c == '.' || c == ':'

/-- Takes the run of a scalar off the front. The blank between a date and a time belongs to it. -/
def splitScalar (cs : List Char) : List Char × List Char :=
  let run := cs.takeWhile isScalarChar
  let rest := cs.dropWhile isScalarChar
  match rest with
  | ' ' :: more =>
    if date? run == some [] && (fixed? 2 more).isSome then
      (run ++ [' '] ++ more.takeWhile isScalarChar, more.dropWhile isScalarChar)
    else (run, rest)
  | _ => (run, rest)

/-- The value of a run. -/
def ofScalar? (cs : List Char) : Option Toml :=
  if cs = "true".toList then some (boolean true)
  else if cs = "false".toList then some (boolean false)
  else match integer? cs with
    | some i => some (integer i)
    | none =>
      if isFloat cs then some (float (String.ofList cs))
      else if isMoment cs then some (moment (String.ofList cs))
      else none

end ScriptHost.Toml
