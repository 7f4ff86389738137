import D0L.Json.Fault

namespace D0L.Json

/-!
# Strings in a document

A string is read one byte at a time. The state of the reader says where it stands inside the
string, and each byte leads to the next state and may yield bytes of the string's text.

* `Inside` — a place inside a string; `Inside.step` — what one byte does there.
* `stringBody` — the rest of a string after its opening quote, and what follows it.
-/

/-- The value of a hexadecimal digit. -/
def hexDigit? (b : UInt8) : Option Nat :=
  if '0'.toUInt8 ≤ b ∧ b ≤ '9'.toUInt8 then some (b.toNat - '0'.toNat)
  else if 'a'.toUInt8 ≤ b ∧ b ≤ 'f'.toUInt8 then some (b.toNat - 'a'.toNat + 10)
  else if 'A'.toUInt8 ≤ b ∧ b ≤ 'F'.toUInt8 then some (b.toNat - 'A'.toNat + 10)
  else none

/-- The number that hexadecimal digits stand for, with the digits read so far in `n`. -/
def hexNumber? (n : Nat) : List UInt8 → Option Nat
  | [] => some n
  | b :: rest => (hexDigit? b).bind fun d => hexNumber? (16 * n + d) rest

/-- Whether a code unit opens a pair that stands for one character. -/
def isHighHalf (n : Nat) : Bool := 0xD800 ≤ n && n ≤ 0xDBFF

/-- Whether a code unit closes such a pair. -/
def isLowHalf (n : Nat) : Bool := 0xDC00 ≤ n && n ≤ 0xDFFF

/-- The code point of a pair of halves. -/
def joinHalves (high low : Nat) : Nat := 0x10000 + (high - 0xD800) * 0x400 + (low - 0xDC00)

/-- The byte that a backslash followed by one character stands for. -/
def shortEscape? (b : UInt8) : Option UInt8 :=
  if b = '"'.toUInt8 ∨ b = '\\'.toUInt8 ∨ b = '/'.toUInt8 then some b
  else if b = 'b'.toUInt8 then some 0x08
  else if b = 'f'.toUInt8 then some 0x0C
  else if b = 'n'.toUInt8 then some 0x0A
  else if b = 'r'.toUInt8 then some 0x0D
  else if b = 't'.toUInt8 then some 0x09
  else none

/-- A place inside a string. -/
inductive Inside where
  /-- Between characters. -/
  | plain
  /-- After a backslash. -/
  | escape
  /-- Among the four digits of a code unit. -/
  | unit (digits : List UInt8)
  /-- After the first half of a pair. -/
  | half (high : Nat)
  /-- After the first half of a pair and a backslash. -/
  | halfEscape (high : Nat)
  /-- Among the four digits of the second half of a pair. -/
  | otherHalf (high : Nat) (digits : List UInt8)
deriving DecidableEq

/-- What a complete code unit stands for: a character, or the first half of a pair. -/
def Inside.ofUnit (n : Nat) : Option (Inside × List UInt8) :=
  -- a second half must follow a first one
  if isLowHalf n then none
  else if isHighHalf n then some (half n, [])
  else some (plain, String.utf8EncodeChar (Char.ofNat n))

/-- The next place and the bytes of the text that are now known, unless the byte may not stand
    here. The closing quote is not a step. -/
def Inside.step (b : UInt8) : Inside → Option (Inside × List UInt8)
  | plain =>
    if b = '\\'.toUInt8 then some (escape, [])
    else if b < 0x20 then none
    else some (plain, [b])
  | escape =>
    if b = 'u'.toUInt8 then some (unit [], [])
    else (shortEscape? b).map fun c => (plain, [c])
  | unit digits =>
    if digits.length < 3 then some (unit (digits ++ [b]), [])
    else (hexNumber? 0 (digits ++ [b])).bind ofUnit
  | half high => if b = '\\'.toUInt8 then some (halfEscape high, []) else none
  | halfEscape high => if b = 'u'.toUInt8 then some (otherHalf high [], []) else none
  | otherHalf high digits =>
    if digits.length < 3 then some (otherHalf high (digits ++ [b]), [])
    else (hexNumber? 0 (digits ++ [b])).bind fun low =>
      if isLowHalf low then
        some (plain, String.utf8EncodeChar (Char.ofNat (joinHalves high low)))
      else none

/-- Reads up to the closing quote. The bytes of the text so far are in `read`, last one first. -/
def stringBytes (read : List UInt8) :
    Inside → List UInt8 → Except Fault (List UInt8 × List UInt8)
  | _, [] => .error .cutShort
  | place, b :: rest =>
    if place = .plain ∧ b = '"'.toUInt8 then .ok (read.reverse, rest)
    else match place.step b with
      | none => .error .malformed
      | some (next, bytes) => stringBytes (bytes.reverse ++ read) next rest

/-- The text of a string from after its opening quote on, and what follows its closing quote. -/
def stringBody (input : List UInt8) : Except Fault (Text × List UInt8) :=
  match stringBytes [] .plain input with
  | .error fault => .error fault
  | .ok (bytes, rest) =>
    match Text.ofBytes? bytes with
    | some text => .ok (text, rest)
    | none => .error .malformed

end D0L.Json
