import D0L.Json.Fault

namespace D0L.Json

/-!
# Numbers in a document

A number is read in two steps: its spelling, and the value of the spelling. The value is computed
in double precision from as many digits as fit 64 bits, so it can differ from the nearest number
in the last bit.

* `Spelling` — sign, digits before and after the point, and exponent.
* `spelling` — reads a spelling as far as it goes.
* `Spelling.value?` — the value, unless it is beyond the finite numbers.
-/

/-- A number as it is spelled. -/
structure Spelling where
  /-- Whether a minus sign stands in front. -/
  negative : Bool
  /-- The digits before the point. -/
  whole : List Nat
  /-- The digits after the point. -/
  fraction : List Nat
  /-- The exponent, if there is one. -/
  exponent : Option Int
deriving DecidableEq

/-- The value of a number in a document. -/
inductive Number where
  /-- An integer from zero on that fits 64 bits. -/
  | natural (value : Nat)
  /-- A negative integer that fits 64 bits, by its absolute value. -/
  | negative (value : Nat)
  /-- Any other number. -/
  | float (value : Binary64)
deriving DecidableEq

/-- The number in double precision. -/
def Number.toBinary64 : Number → Binary64
  | natural n => .signed false (.nearest n 1)
  | negative n => .signed true (.nearest n 1)
  | float x => x

/-- The number as something that stands in a document. -/
def Number.found : Number → Found
  | natural n => .natural n
  | negative n => .negative n
  | float x => .float x

/-! ### Spelling -/

/-- Whether a byte is a digit. -/
def isDigitByte (b : UInt8) : Bool := '0'.toUInt8 ≤ b && b ≤ '9'.toUInt8

/-- The digits at the start of the input, and what follows them. -/
def digitRun (input : List UInt8) : List Nat × List UInt8 :=
  ((input.takeWhile isDigitByte).map fun b => b.toNat - '0'.toNat, input.dropWhile isDigitByte)

/-- At least one digit. -/
def someDigits (input : List UInt8) : Except Fault (List Nat × List UInt8) :=
  match digitRun input with
  | ([], []) => .error .cutShort
  | ([], _ :: _) => .error .malformed
  | run => .ok run

/-- The digits before the point, which do not start with zero unless zero is all there is. -/
def wholeDigits (input : List UInt8) : Except Fault (List Nat × List UInt8) :=
  match someDigits input with
  | .error fault => .error fault
  | .ok (0 :: _ :: _, _) => .error .malformed
  | .ok run => .ok run

/-- The digits after the point; none if there is no point. -/
def fractionDigits : List UInt8 → Except Fault (List Nat × List UInt8)
  | [] => .ok ([], [])
  | b :: rest => if b = '.'.toUInt8 then someDigits rest else .ok ([], b :: rest)

/-- The number that digits stand for. -/
def ofDigits (digits : List Nat) : Nat := digits.foldl (fun n d => 10 * n + d) 0

/-- The signed power of ten behind the letter `e`, if there is one. -/
def exponentPart : List UInt8 → Except Fault (Option Int × List UInt8)
  | [] => .ok (none, [])
  | b :: rest =>
    if b = 'e'.toUInt8 ∨ b = 'E'.toUInt8 then
      let (negative, digits) := match rest with
        | [] => (false, [])
        | sign :: digits =>
          if sign = '-'.toUInt8 then (true, digits)
          else if sign = '+'.toUInt8 then (false, digits)
          else (false, sign :: digits)
      match someDigits digits with
      | .error fault => .error fault
      | .ok (run, rest) =>
        .ok (some (if negative then -(ofDigits run : Int) else ofDigits run), rest)
    else .ok (none, b :: rest)

/-- Reads a number, whose minus sign has been read already, as far as it goes. -/
def spelling (negative : Bool) (input : List UInt8) : Except Fault (Spelling × List UInt8) := do
  let (whole, input) ← wholeDigits input
  let (fraction, input) ← fractionDigits input
  let (exponent, input) ← exponentPart input
  return ({ negative, whole, fraction, exponent }, input)

/-! ### Value -/

/-- Appends digits to a number while it fits 64 bits; also counts the digits that are left. -/
def absorb (n : Nat) : List Nat → Nat × Nat
  | [] => (n, 0)
  | d :: rest =>
    if 10 * n + d ≤ Numeral.maxWord then absorb (10 * n + d) rest else (n, rest.length + 1)

/-- The greatest power of ten that is a finite number. -/
def greatestPower : Nat := 308

/-- A magnitude times a power of ten, in steps that are rounded one by one; nothing if the result
    is not finite. -/
def scale? (significand : Nat) (exponent : Int) : Option Magnitude :=
  let m := Magnitude.nearest significand 1
  let scale (k : Nat) := Magnitude.nearest (power 10 k) 1
  match exponent with
  | .ofNat k =>
    if k ≤ greatestPower then
      let product := m.times (scale k)
      if product.isFinite then some product else none
    -- no finite number is as great as such a power, but zero times it is zero
    else if significand = 0 then some .zero
    else none
  | .negSucc k =>
    if k + 1 ≤ greatestPower then some (m.dividedBy (scale (k + 1)))
    -- a greater power is no finite number, so it is divided by in two steps
    else if k + 1 ≤ 2 * greatestPower then
      some ((m.dividedBy (scale greatestPower)).dividedBy (scale (k + 1 - greatestPower)))
    else some .zero

/-- The value of a number, unless it is beyond the finite numbers. -/
def Spelling.value? (s : Spelling) : Option Number :=
  let (whole, left) := absorb 0 s.whole
  if left = 0 ∧ s.fraction = [] ∧ s.exponent = none then
    if !s.negative then some (.natural whole)
    -- minus zero is no integer
    else if 1 ≤ whole ∧ whole ≤ power 2 63 then some (.negative whole)
    else some (.float (.signed true (.nearest whole 1)))
  else
    -- digits that do not fit raise the exponent before the point, and are dropped behind it
    let (significand, unread) := absorb whole s.fraction
    let places : Int := s.fraction.length - unread
    (scale? significand (left - places + s.exponent.getD 0)).map fun m =>
      .float (.signed s.negative m)

/-- Reads a number, whose minus sign has been read already. -/
def number (negative : Bool) (input : List UInt8) : Except Fault (Number × List UInt8) := do
  let (spelling, rest) ← spelling negative input
  match spelling.value? with
  | some value => return (value, rest)
  | none => throw .malformed

end D0L.Json
