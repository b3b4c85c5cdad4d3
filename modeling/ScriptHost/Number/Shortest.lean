import ScriptHost.Number.Binary64

/-!
# The shortest decimal of a floating point number

The decimals that round to a number form an interval around it. `Binary64.shortest` takes the
coarsest grid of multiples of a power of ten that has a point in the interval, and on it the
point nearest to the number; of two points at the same distance, the larger. All comparisons are
between exact integers.

Two texts are built on it. `Binary64.digits` is the plain one, always positional. In
`Binary64.text`, the text scripts see, an integer below `10 ^ 21` is written through a 64-bit
integer, which clamps it.
-/

set_option autoImplicit false

namespace ScriptHost.Number

/-! ## The nearest point of a grid -/

/-- A positive rational interval around a value, with one common denominator. `closed` tells
whether the ends belong to it. -/
structure Around where
  low : Nat
  value : Nat
  high : Nat
  unit : Nat
  closed : Bool

namespace Around

/-- Whether the lower end is below a multiple of the unit. -/
def above (i : Around) (n : Nat) : Bool := if i.closed then i.low ≤ n else i.low < n

/-- Whether the upper end is above a multiple of the unit. -/
def below (i : Around) (n : Nat) : Bool := if i.closed then n ≤ i.high else n < i.high

/-- The interval seen at the scale of `10 ^ t`, so that the points of that grid are the
multiples of the unit. -/
def atScale (i : Around) (t : Int) : Around :=
  let up := Nat.pow 10 (-t).toNat
  { i with
    low := i.low * up
    value := i.value * up
    high := i.high * up
    unit := i.unit * Nat.pow 10 t.toNat }

/-- The multiple of the unit inside the interval that is nearest to the value: one of its two
neighbours, and the larger one when both are equally near. -/
def nearest? (i : Around) : Option Nat :=
  let d := i.value / i.unit
  let down := i.above (d * i.unit)
  let up := i.below ((d + 1) * i.unit)
  if up && (!down || decide (i.unit ≤ 2 * (i.value % i.unit))) then some (d + 1)
  else if down then some d
  else none

/-- The nearest point of the coarsest grid with a point in the interval, among the `n` grids
from `10 ^ t` downward: the point as a multiple and the exponent of the grid. -/
def coarsest (i : Around) : Nat → Int → Nat × Int
  | 0, t => (0, t)
  | n + 1, t =>
    match (i.atScale t).nearest? with
    | some d => (d, t)
    | none => coarsest i n (t - 1)

end Around

namespace Binary64

/-- The interval of the decimals that round to a finite positive magnitude. It reaches half way
to the neighbouring numbers, which are half as far below a power of two; its ends round to the
even significand. -/
def around (x : Binary64) : Around :=
  let m := x.significand
  let low := if x.fractionField = 0 ∧ 1 < x.exponentField then 4 * m - 1 else 4 * m - 2
  let q := x.scale - 2
  let up := Nat.pow 2 q.toNat
  { low := low * up
    value := 4 * m * up
    high := (4 * m + 2) * up
    unit := Nat.pow 2 (-q).toNat
    closed := m % 2 == 0 }

/-- The shortest decimal of the magnitude of a finite number, as digits and exponent of ten. -/
def shortest (x : Binary64) : Nat × Int :=
  if x.isZero then (0, 0)
  else
    let i := x.around
    let places := (Nat.toDigits 10 (i.value / i.unit)).length
    i.coarsest (places + 400) places

/-! ## Texts -/

/-- The decimal `n · 10 ^ e` without an exponent. -/
def positional (n : Nat) (e : Int) : List Char :=
  let ds := Nat.toDigits 10 n
  if 0 ≤ e then ds ++ List.replicate e.toNat '0'
  else
    let places := (-e).toNat
    if places < ds.length then
      ds.take (ds.length - places) ++ ['.'] ++ ds.drop (ds.length - places)
    else ['0', '.'] ++ List.replicate (places - ds.length) '0' ++ ds

/-- The plain text of a number: its shortest decimal with its sign, without an exponent. -/
def digits (x : Binary64) : String :=
  if x.isNaN then "NaN"
  else
    let sign := if x.negative then ['-'] else []
    if x.isInfinite then String.ofList (sign ++ "inf".toList)
    else
      let (n, e) := x.shortest
      String.ofList (sign ++ positional n e)

/-- The nearest integer of 64 bits. -/
def clampInt64 (i : Int) : Int := max Int64.minValue.toInt (min i Int64.maxValue.toInt)

/-- The text of a number as scripts see it. -/
def text (x : Binary64) : String :=
  if x.isNaN then "NaN"
  else if x.isInfinite then (if x.negative then "-Infinity" else "Infinity")
  else
    match x.integer? with
    | some i => if i.natAbs < Nat.pow 10 21 then toString (clampInt64 i) else x.digits
    | none => x.digits

end Binary64

end ScriptHost.Number
