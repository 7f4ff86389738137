import D0L.Binary64.Decimal

namespace D0L.Json

/-!
# Writing JSON

The text of strings, numbers and objects. A layout either leaves out all blanks or puts each member
of an object on a line of its own.

* `Layout` — compact or indented.
* `writeString`, `writeNumber`, `writeObject` — the text of a value.
-/

/-- Where blanks stand. -/
inductive Layout where
  /-- No blanks at all. -/
  | compact
  /-- One member a line, indented by two blanks a level. -/
  | indented
deriving DecidableEq

namespace Layout

/-- What stands between a bracket or comma and the next member, at a nesting depth. -/
def lineBreak : Layout → Nat → Text
  | compact, _ => []
  | indented, depth => '\n' :: List.replicate (2 * depth) ' '

/-- What stands between a key and its value. -/
def colon : Layout → Text
  | compact => [':']
  | indented => [':', ' ']

/-- What stands after the last character of a document. -/
def ending : Layout → Text
  | compact => []
  | indented => ['\n']

end Layout

/-! ### Strings -/

/-- A character inside a string: quotes, backslashes and controls are escaped, nothing else is. -/
def writeChar (c : Char) : Text :=
  match c with
  | '"' => ['\\', '"']
  | '\\' => ['\\', '\\']
  | '\x08' => ['\\', 'b']
  | '\x09' => ['\\', 't']
  | '\x0a' => ['\\', 'n']
  | '\x0c' => ['\\', 'f']
  | '\x0d' => ['\\', 'r']
  | _ =>
    if c.toNat < 0x20 then
      ['\\', 'u', '0', '0', Nat.digitChar (c.toNat / 16), Nat.digitChar (c.toNat % 16)]
    else [c]

/-- A string between double quotes. -/
def writeString (t : Text) : Text := '"' :: t.flatMap writeChar ++ ['"']

/-! ### Numbers -/

/-- The text of a positive decimal: positional with a point while the first digit stands at
    `10 ^ -5` to `10 ^ 15`, scientific otherwise. -/
def writeDecimal (d : Decimal) : Text :=
  if -5 ≤ d.leading ∧ d.leading < 16 then
    d.positional ++ if 0 ≤ d.exponent then ['.', '0'] else []
  else d.scientific

/-- The text of a number: the fewest digits that identify it, and `null` for what is no finite
    number. -/
def writeNumber : Binary64 → Text
  | .nan => "null".toList
  | .signed negative m =>
    if m.isFinite then
      Binary64.signText negative ++
        if m.rank = 0 then "0.0".toList else writeDecimal m.shortest
    else "null".toList

/-! ### Objects -/

/-- A key with the text of its value. -/
def writeMember (layout : Layout) (key value : Text) : Text :=
  writeString key ++ layout.colon ++ value

/-- An object at a nesting depth, from its keys with the texts of their values. -/
def writeObject (layout : Layout) (depth : Nat) : List (Text × Text) → Text
  | [] => ['{', '}']
  | (key, value) :: rest =>
    '{' :: layout.lineBreak (depth + 1) ++ writeMember layout key value
      ++ rest.flatMap (fun m => ',' :: layout.lineBreak (depth + 1) ++ writeMember layout m.1 m.2)
      ++ layout.lineBreak depth ++ ['}']

end D0L.Json
