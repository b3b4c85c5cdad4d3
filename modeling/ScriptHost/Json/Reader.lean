import ScriptHost.Json.Basic
import ScriptHost.Number.Binary64

/-!
# Reading JSON

The reader takes one character after the other (`Reader.feed`). Characters are gathered into
tokens and tokens are taken by a machine with a stack of unfinished containers, so there is no
limit to the nesting (`parse?`), unless one is asked for (`parseWithin?`). It is strict: one value
with blanks around it and nothing else, no raw control character in a string, no half of a
surrogate pair, no number beyond the range of 64-bit floating point.

A number is beyond the range when the floating point product of its significand and its power of
ten is. The significand is made of the first digits, as many as fit into 64 bits.
-/

set_option autoImplicit false

namespace ScriptHost

namespace Json

/-! ## Numbers -/

/-- The digits in front of a text and what follows them. -/
def spanDigits (cs : List Char) : List Char × List Char := cs.span Char.isDigit

/-- Appends digits to a significand while the result has at most 64 bits. The second part counts
the digits that are left. -/
def appendDigits : Nat → List Char → Nat × Nat
  | n, [] => (n, 0)
  | n, c :: rest =>
    let next := n * 10 + (c.toNat - '0'.toNat)
    if next < UInt64.size then appendDigits next rest else (n, rest.length + 1)

/-- The size of a number as significand and exponent of ten: an optional minus, an integer part
without extra zeros, an optional fraction and an optional exponent. Digits of the integer part
that do not fit into the significand raise the exponent; those of the fraction are of no account. -/
def decimal? (cs : List Char) : Option (Nat × Int) := do
  let cs := match cs with
    | '-' :: rest => rest
    | _ => cs
  let (whole, cs) := spanDigits cs
  guard (!whole.isEmpty && (whole.length == 1 || whole.head? != some '0'))
  let (fraction, cs) ← match cs with
    | '.' :: rest =>
      let (ds, rest) := spanDigits rest
      if ds.isEmpty then none else some (ds, rest)
    | _ => some ([], cs)
  let exponent ← match cs with
    | [] => some (0 : Int)
    | e :: rest =>
      if e != 'e' && e != 'E' then none
      else
        let (minus, rest) := match rest with
          | '-' :: rest => (true, rest)
          | '+' :: rest => (false, rest)
          | _ => (false, rest)
        let (ds, rest) := spanDigits rest
        if ds.isEmpty || !rest.isEmpty then none
        else
          let n : Int := Nat.ofDigitChars 10 ds 0
          some (if minus then -n else n)
  let (significand, raised) := appendDigits 0 whole
  let (significand, dropped) := appendDigits significand fraction
  return (significand, exponent + raised - (fraction.length - dropped : Nat))

/-- The value of a word that is not a string. -/
def ofWord? (cs : List Char) : Option Json :=
  if cs = "null".toList then some null
  else if cs = "true".toList then some (bool true)
  else if cs = "false".toList then some (bool false)
  else
    match decimal? cs with
    | some (significand, exponent) =>
      if Number.Binary64.productOverflows significand exponent then none
      else some (number (String.ofList cs))
    | none => none

/-! ## Tokens -/

/-- What the text of a JSON value is made of. -/
inductive Token where
  | openArray
  | closeArray
  | openObject
  | closeObject
  | comma
  | colon
  | text (chars : List Char)
  | word (chars : List Char)

/-- The characters between tokens. -/
def isBlank (c : Char) : Bool := c == ' ' || c == '\n' || c == '\r' || c == '\t'

/-- The tokens of one character. -/
def punctuation? (c : Char) : Option Token :=
  if c = '[' then some .openArray
  else if c = ']' then some .closeArray
  else if c = '\x7b' then some .openObject
  else if c = '\x7d' then some .closeObject
  else if c = ',' then some .comma
  else if c = ':' then some .colon
  else none

/-- The character that a one-letter escape stands for. -/
def unescape? (c : Char) : Option Char :=
  if c = '"' then some '"'
  else if c = '\\' then some '\\'
  else if c = '/' then some '/'
  else if c = 'b' then some '\x08'
  else if c = 'f' then some '\x0c'
  else if c = 'n' then some '\n'
  else if c = 'r' then some '\r'
  else if c = 't' then some '\t'
  else none

/-- What is being read. Text read so far is kept backward. -/
inductive Mode where
  /-- Blanks between tokens. -/
  | between
  /-- A word. -/
  | word (read : List Char)
  /-- The inside of a string. -/
  | text (read : List Char)
  /-- The character behind a backslash. -/
  | escape (read : List Char)
  /-- The digits of a code unit: how many are to come and the value of those read. With `high`,
  the unit has to be the second half of a surrogate pair. -/
  | unit (read : List Char) (high : Option Nat) (left : Nat) (value : Nat)
  /-- The backslash of the second half of a surrogate pair. -/
  | pairEscape (read : List Char) (high : Nat)
  /-- The letter of the second half of a surrogate pair. -/
  | pairLetter (read : List Char) (high : Nat)

/-- What follows a code unit: a character, or the second half of a surrogate pair. -/
def Mode.ofUnit? (read : List Char) (high : Option Nat) (unit : Nat) : Option Mode :=
  match high with
  | none =>
    if 0xD800 ≤ unit ∧ unit < 0xDC00 then some (.pairEscape read unit)
    else if 0xDC00 ≤ unit ∧ unit < 0xE000 then none
    else some (.text (Char.ofNat unit :: read))
  | some h =>
    if 0xDC00 ≤ unit ∧ unit < 0xE000 then
      some (.text (Char.ofNat (0x10000 + (h - 0xD800) * 0x400 + (unit - 0xDC00)) :: read))
    else none

/-- A character between tokens: the token it completes, if any, and what is read next. -/
def Mode.start (c : Char) : Option Token × Mode :=
  if isBlank c then (none, .between)
  else if c = '"' then (none, .text [])
  else match punctuation? c with
    | some t => (some t, .between)
    | none => (none, .word [c])

/-- Whether a character ends a word. -/
def endsWord (c : Char) : Bool := isBlank c || c == '"' || (punctuation? c).isSome

/-! ## The machine -/

/-- A container whose closing bracket is still to come. What it holds is kept backward. -/
inductive Frame where
  | array (items : List Json)
  | object (members : List (String × Json))
  /-- An object that waits for the value of a key. -/
  | member (members : List (String × Json)) (key : String)

/-- What may come next. -/
inductive Expect where
  | value
  /-- A value or the end of an array. -/
  | first
  | key
  /-- A key or the end of an object. -/
  | firstKey
  | colon
  /-- A comma or the end of a container. -/
  | next
  /-- Nothing: the value is complete. -/
  | done (value : Json)

/-- The unfinished containers, innermost first, and what may come next. -/
structure Machine where
  frames : List Frame
  expect : Expect

namespace Machine

/-- A value that is complete goes into the innermost container. -/
def deliver (value : Json) : List Frame → Option Machine
  | [] => some ⟨[], .done value⟩
  | .array items :: rest => some ⟨.array (value :: items) :: rest, .next⟩
  | .member members key :: rest => some ⟨.object ((key, value) :: members) :: rest, .next⟩
  | .object _ :: _ => none

/-- Takes one token. -/
def take (m : Machine) : Token → Option Machine
  | .text cs =>
    match m.expect, m.frames with
    | .value, frames => deliver (.string (String.ofList cs)) frames
    | .first, frames => deliver (.string (String.ofList cs)) frames
    | .key, .object members :: rest => some ⟨.member members (String.ofList cs) :: rest, .colon⟩
    | .firstKey, .object members :: rest =>
      some ⟨.member members (String.ofList cs) :: rest, .colon⟩
    | _, _ => none
  | .word cs =>
    match m.expect with
    | .value => (ofWord? cs).bind (deliver · m.frames)
    | .first => (ofWord? cs).bind (deliver · m.frames)
    | _ => none
  | .openArray =>
    match m.expect with
    | .value => some ⟨.array [] :: m.frames, .first⟩
    | .first => some ⟨.array [] :: m.frames, .first⟩
    | _ => none
  | .closeArray =>
    match m.expect, m.frames with
    | .first, .array items :: rest => deliver (.array items.reverse) rest
    | .next, .array items :: rest => deliver (.array items.reverse) rest
    | _, _ => none
  | .openObject =>
    match m.expect with
    | .value => some ⟨.object [] :: m.frames, .firstKey⟩
    | .first => some ⟨.object [] :: m.frames, .firstKey⟩
    | _ => none
  | .closeObject =>
    match m.expect, m.frames with
    | .firstKey, .object members :: rest => deliver (.object members.reverse) rest
    | .next, .object members :: rest => deliver (.object members.reverse) rest
    | _, _ => none
  | .comma =>
    match m.expect, m.frames with
    | .next, .array items :: rest => some ⟨.array items :: rest, .value⟩
    | .next, .object members :: rest => some ⟨.object members :: rest, .key⟩
    | _, _ => none
  | .colon =>
    match m.expect with
    | .colon => some ⟨m.frames, .value⟩
    | _ => none

end Machine

/-! ## The reader -/

/-- The state between two characters. -/
structure Reader where
  machine : Machine
  mode : Mode

namespace Reader

/-- The state in front of a value. -/
def init : Reader := ⟨⟨[], .value⟩, .between⟩

/-- Hands a token, if there is one, to the machine. -/
def hand (m : Machine) (mode : Mode) : Option Token → Option Reader
  | none => some ⟨m, mode⟩
  | some t => (m.take t).map (⟨·, mode⟩)

/-- Hands over a word that has come to its end. -/
def settle (r : Reader) : Option Reader :=
  match r.mode with
  | .word read => hand r.machine .between (some (.word read.reverse))
  | _ => some r

/-- Takes a character between tokens. -/
def start (r : Reader) (c : Char) : Option Reader :=
  let (t, mode) := Mode.start c
  hand r.machine mode t

/-- Takes one character. -/
def feed (r : Reader) (c : Char) : Option Reader :=
  match r.mode with
  | .between => r.start c
  | .word read =>
    if endsWord c then r.settle.bind (·.start c) else some { r with mode := .word (c :: read) }
  | .text read =>
    if c = '"' then hand r.machine .between (some (.text read.reverse))
    else if c = '\\' then some { r with mode := .escape read }
    else if c.toNat < 32 then none
    else some { r with mode := .text (c :: read) }
  | .escape read =>
    if c = 'u' then some { r with mode := .unit read none 3 0 }
    else (unescape? c).map fun e => { r with mode := .text (e :: read) }
  | .unit read high left value =>
    match Text.Hex.value? c, left with
    | none, _ => none
    | some d, 0 =>
      (Mode.ofUnit? read high (value * 16 + d)).map fun mode => { r with mode }
    | some d, left + 1 => some { r with mode := .unit read high left (value * 16 + d) }
  | .pairEscape read high =>
    if c = '\\' then some { r with mode := .pairLetter read high } else none
  | .pairLetter read high =>
    if c = 'u' then some { r with mode := .unit read (some high) 3 0 } else none

/-- Takes a text, one character after the other. -/
def run (r : Reader) (cs : List Char) : Option Reader := cs.foldlM feed r

/-- The value that has been read, when it is complete. -/
def result? (r : Reader) : Option Json :=
  match r.settle with
  | some ⟨⟨_, .done value⟩, .between⟩ => some value
  | _ => none

end Reader

/-- The value that a text writes. -/
def read? (cs : List Char) : Option Json := (Reader.init.run cs).bind Reader.result?

/-- The value that a text writes. -/
def parse? (s : String) : Option Json := read? s.toList

/-- The value that a text writes, if its containers stand inside one another to no more than a
given depth. -/
def parseWithin? (depth : Nat) (s : String) : Option Json :=
  (parse? s).filter fun j => decide (j.nesting ≤ depth)

/-- The integer of a number without fraction and exponent. -/
def int? : Json → Option Int
  | number text => text.toInt?
  | _ => none

/-- The value of a number that is written in digits alone. -/
def nat? : Json → Option Nat
  | number text => text.toNat?
  | _ => none

end Json

end ScriptHost
