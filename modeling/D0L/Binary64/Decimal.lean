import D0L.Binary64.Basic

namespace D0L

/-!
# Decimals

A decimal is an integer times a power of ten. A person types decimals, and a positive number is
written as one with the fewest digits that still identify it: among the decimals that lie nearer to
it than to any other magnitude, those on the coarsest grid `10 ^ p`, and of these the one nearest
to the number.

* `Decimal.nearest` — the magnitude nearest to a decimal.
* `Binary64.ofText?` — the number that a person typed, correctly rounded.
* `Magnitude.onGrid?` — the decimal on one grid, if the grid has one.
* `Magnitude.shortest` — the decimal on the coarsest grid that has one.
-/

/-- The number `digits * 10 ^ exponent`. -/
structure Decimal where
  /-- The digits, as one number. -/
  digits : Nat
  /-- The power of ten. -/
  exponent : Int
deriving DecidableEq

namespace Decimal

/-- The magnitude nearest to a decimal. Far outside the range of the format nothing is computed:
    above `10 ^ 400` all is infinite, and below `2 ^ -1099` all is zero. -/
def nearest (d : Decimal) : Magnitude :=
  match d.exponent with
  | .ofNat k =>
    if d.digits = 0 then .zero
    else if 400 < k then .infinity
    else .nearest (d.digits * power 10 k) 1
  | .negSucc k =>
    -- the power of ten in the denominator has more than `3 * (k + 1)` binary digits
    if d.digits.log2 + 1100 < 3 * (k + 1) then .zero
    else .nearest d.digits (power 10 (k + 1))

end Decimal

/-! ### Typed numbers -/

namespace Binary64

/-- Splits an optional sign off; the flag tells a minus sign. -/
def splitSign : Text → Bool × Text
  | '-' :: rest => (true, rest)
  | '+' :: rest => (false, rest)
  | t => (false, t)

/-- The power of ten that stands behind the digits: nothing, or a letter `e` with an integer. -/
def exponent? : Text → Option Int
  | [] => some 0
  | c :: rest =>
    if c = 'e' ∨ c = 'E' then
      let (negative, digits) := splitSign rest
      (Numeral.digits? digits).map fun n => if negative then -(n : Int) else n
    else none

/-- Reads digits with at most one point and at least one digit, and an optional exponent. -/
def decimal? (t : Text) : Option Decimal :=
  let whole := t.takeWhile Char.isDigit
  let (fraction, rest) := match t.dropWhile Char.isDigit with
    | '.' :: rest => (rest.takeWhile Char.isDigit, rest.dropWhile Char.isDigit)
    | rest => ([], rest)
  if whole ++ fraction = [] then none
  else (exponent? rest).map fun e =>
    { digits := Nat.ofDigitChars 10 (whole ++ fraction) 0, exponent := e - fraction.length }

/-- The number that a text stands for: a decimal, `inf`, `infinity` or `nan` in capital or small
    letters, after an optional sign. -/
def ofText? (t : Text) : Option Binary64 :=
  let (negative, body) := splitSign t
  let name := body.map Char.toLower
  if name = "inf".toList ∨ name = "infinity".toList then some (.signed negative .infinity)
  else if name = "nan".toList then some .nan
  else (decimal? body).map fun d => .signed negative d.nearest

end Binary64

/-! ### The shortest decimal of a magnitude -/

namespace Magnitude

/-- The multiple of `10 ^ p` nearest to a magnitude, if it identifies the magnitude. Everything is
    measured in units of `2 ^ -1075`, in which the midpoints between magnitudes are integers; the
    midpoints themselves identify an even rank. Of two multiples that are equally near, the even
    one is taken. -/
def onGrid? (m : Magnitude) (p : Int) : Option Decimal :=
  let scale := power 10 (-p).toNat
  let grid := power 10 p.toNat * power 2 1075
  let value := 2 * m.units * scale
  let low := (unitsAt (m.rank - 1) + m.units) * scale
  let high := (m.units + unitsAt (m.rank + 1)) * scale
  let identifies (k : Nat) : Bool :=
    (low < k * grid && k * grid < high)
      || (m.rank % 2 = 0 && (k * grid = low || k * grid = high))
  let below := value / grid
  let above := below + 1
  let nearer :=
    if 2 * value < (below + above) * grid then below
    else if (below + above) * grid < 2 * value then above
    else if below % 2 = 0 then below else above
  -- at a power of two the gap below is half as wide as the one above, so the farther multiple
  -- may identify the magnitude where the nearer one does not
  let farther := if nearer = below then above else below
  if identifies nearer then some { digits := nearer, exponent := p }
  else if identifies farther then some { digits := farther, exponent := p }
  else none

/-- The powers of ten that can be the last digit of a shortest decimal, from the coarsest on. -/
def grids : List Int := (List.range 640).map fun (i : Nat) => 308 - (i : Int)

/-- The decimal with the fewest digits that identifies a positive finite magnitude. -/
def shortest (m : Magnitude) : Decimal :=
  (grids.findSome? m.onGrid?).getD { digits := m.units * power 5 1074, exponent := -1074 }

end Magnitude

namespace Decimal

/-- The power of ten of the first digit. -/
def leading (d : Decimal) : Int := (Numeral.write d.digits).length - 1 + d.exponent

/-- The digits with zeros up to the point, and the point inside or before them if there are places
    behind it. -/
def positional (d : Decimal) : Text :=
  let digits := Numeral.write d.digits
  match d.exponent with
  | .ofNat k => digits ++ List.replicate k '0'
  | .negSucc k =>
    let places := k + 1
    if places < digits.length then
      digits.take (digits.length - places) ++ '.' :: digits.drop (digits.length - places)
    else '0' :: '.' :: List.replicate (places - digits.length) '0' ++ digits

/-- One digit, the point and the other digits if there are any, and the signed power of ten. -/
def scientific (d : Decimal) : Text :=
  let mantissa := match Numeral.write d.digits with
    | first :: second :: rest => first :: '.' :: second :: rest
    | digits => digits
  let sign := if d.leading < 0 then '-' else '+'
  mantissa ++ 'e' :: sign :: Numeral.write d.leading.natAbs

end Decimal

namespace Binary64

/-- A minus sign for a negative number. -/
def signText (negative : Bool) : Text := if negative then ['-'] else []

/-- The number in positional form, for people. -/
def plain : Binary64 → Text
  | .nan => "NaN".toList
  | .signed negative m =>
    signText negative ++
      if m.rank = 0 then ['0']
      else if m.isFinite then m.shortest.positional
      else "inf".toList

end Binary64

end D0L
