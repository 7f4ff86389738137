import D0L.Json.Number
import D0L.Json.Strings

namespace D0L.Json

/-!
# Values that nobody asked for

A value of any kind and any depth is passed over without being built. The state is a place inside
the value together with the brackets that are open there, and each byte makes one move.

* `Place` — what may stand next.
* `Move` — what one byte does; `Place.step` gives it.
* `skipFrom`, `skipValue` — the input that follows a value.

Nothing is decoded on the way: halves of pairs may stand alone, bytes need not be text, and
numbers may have any size.
-/

/-- Whether a byte may stand between tokens. -/
def isSpaceByte (b : UInt8) : Bool :=
  b = ' '.toUInt8 || b = '\t'.toUInt8 || b = '\n'.toUInt8 || b = '\r'.toUInt8

/-- A kind of bracket. -/
inductive Bracket where
  /-- The brackets around elements. -/
  | array
  /-- The brackets around members. -/
  | object
deriving DecidableEq

/-- The byte that closes a bracket. -/
def Bracket.closing : Bracket → UInt8
  | array => ']'.toUInt8
  | object => '}'.toUInt8

/-- A place inside a string that is passed over. -/
inductive Passing where
  /-- Between characters. -/
  | plain
  /-- After a backslash. -/
  | escape
  /-- Among the four digits of a code unit. -/
  | unit (digits : List UInt8)
deriving DecidableEq

/-- The next place in the string, unless the byte may not stand here. -/
def Passing.step (b : UInt8) : Passing → Option Passing
  | plain =>
    if b = '\\'.toUInt8 then some escape
    else if b < 0x20 then none
    else some plain
  | escape => if b = 'u'.toUInt8 then some (unit []) else (shortEscape? b).map fun _ => plain
  | unit digits =>
    if digits.length < 3 then some (unit (digits ++ [b]))
    -- any code unit will do, also a half without the other one
    else (hexNumber? 0 (digits ++ [b])).map fun _ => plain

/-- A place inside a value. -/
inductive Place where
  /-- Before a value. -/
  | value
  /-- After the bracket that opens an array. -/
  | firstItem
  /-- After the bracket that opens an object. -/
  | firstKey
  /-- After a comma in an object. -/
  | key
  /-- After a key. -/
  | colon
  /-- After a value inside brackets. -/
  | after
  /-- Inside a string, which may be a key. -/
  | string (isKey : Bool) (passing : Passing)
  /-- Inside a literal, with these letters left. -/
  | literal (left : List UInt8)
  /-- After a minus sign. -/
  | minus
  /-- After a zero at the start of a number. -/
  | zero
  /-- Among the digits before the point. -/
  | whole
  /-- After the point. -/
  | point
  /-- Among the digits after the point. -/
  | fraction
  /-- After the letter `e`. -/
  | mark
  /-- After the sign of an exponent. -/
  | sign
  /-- Among the digits of an exponent. -/
  | exponent
deriving DecidableEq

/-- What one byte does. -/
inductive Move where
  /-- It leads to another place. -/
  | go (place : Place) (brackets : List Bracket)
  /-- It is the last byte of the value. -/
  | finish
  /-- The value ended before it. -/
  | stop
  /-- It may not stand here. -/
  | refuse
deriving DecidableEq

/-- The end of a value inside some brackets. -/
def Move.ended : List Bracket → Move
  | [] => finish
  | brackets => go .after brackets

/-- The first byte of a value. -/
def Move.start (b : UInt8) (brackets : List Bracket) : Move :=
  if b = '"'.toUInt8 then go (.string false .plain) brackets
  else if b = '['.toUInt8 then go .firstItem (.array :: brackets)
  else if b = '{'.toUInt8 then go .firstKey (.object :: brackets)
  else if b = 'n'.toUInt8 then go (.literal (Text.toBytes "ull".toList)) brackets
  else if b = 't'.toUInt8 then go (.literal (Text.toBytes "rue".toList)) brackets
  else if b = 'f'.toUInt8 then go (.literal (Text.toBytes "alse".toList)) brackets
  else if b = '-'.toUInt8 then go .minus brackets
  else if b = '0'.toUInt8 then go .zero brackets
  else if isDigitByte b then go .whole brackets
  else refuse

/-- A byte after a value. -/
def Move.following (b : UInt8) : List Bracket → Move
  | [] => stop
  | bracket :: outer =>
    if isSpaceByte b then go .after (bracket :: outer)
    else if b = ','.toUInt8 then
      match bracket with
      | .array => go .value (bracket :: outer)
      | .object => go .key (bracket :: outer)
    else if b = bracket.closing then ended outer
    else refuse

/-- A byte inside a number, after digits that may end the number. -/
def Move.inNumber (b : UInt8) (point : Bool) (digits : Move) (brackets : List Bracket) : Move :=
  if isDigitByte b then digits
  else if point && b = '.'.toUInt8 then go .point brackets
  else if b = 'e'.toUInt8 ∨ b = 'E'.toUInt8 then go .mark brackets
  else following b brackets

/-- What a byte does at a place inside some brackets. -/
def Place.step (b : UInt8) (brackets : List Bracket) : Place → Move
  | value => if isSpaceByte b then .go value brackets else .start b brackets
  | firstItem =>
    if isSpaceByte b then .go firstItem brackets
    -- an empty array ends with the byte behind its opening bracket
    else if b = Bracket.array.closing then .ended brackets.tail
    else .start b brackets
  | firstKey =>
    if isSpaceByte b then .go firstKey brackets
    else if b = Bracket.object.closing then .ended brackets.tail
    else if b = '"'.toUInt8 then .go (.string true .plain) brackets
    else .refuse
  | key =>
    if isSpaceByte b then .go key brackets
    else if b = '"'.toUInt8 then .go (.string true .plain) brackets
    else .refuse
  | colon =>
    if isSpaceByte b then .go colon brackets
    else if b = ':'.toUInt8 then .go value brackets
    else .refuse
  | after => .following b brackets
  | string isKey passing =>
    if passing = .plain ∧ b = '"'.toUInt8 then
      if isKey then .go colon brackets else .ended brackets
    else match passing.step b with
      | some next => .go (string isKey next) brackets
      | none => .refuse
  -- a literal ends with its last letter, so this place is never reached
  | literal [] => .refuse
  | literal (c :: left) =>
    if b ≠ c then .refuse
    else if left = [] then .ended brackets
    else .go (literal left) brackets
  | minus =>
    if b = '0'.toUInt8 then .go zero brackets
    else if isDigitByte b then .go whole brackets
    else .refuse
  | zero => .inNumber b true .refuse brackets
  | whole => .inNumber b true (.go whole brackets) brackets
  | point => if isDigitByte b then .go fraction brackets else .refuse
  | fraction => .inNumber b false (.go fraction brackets) brackets
  | mark =>
    if b = '+'.toUInt8 ∨ b = '-'.toUInt8 then .go sign brackets
    else if isDigitByte b then .go exponent brackets
    else .refuse
  | sign => if isDigitByte b then .go exponent brackets else .refuse
  | exponent =>
    if isDigitByte b then .go exponent brackets else .following b brackets

/-- What the end of the input means at a place. A number that lacks a digit is malformed here. -/
def Place.atEnd (brackets : List Bracket) : Place → Except Fault (List UInt8)
  | minus | point | mark | sign => .error .malformed
  | zero | whole | fraction | exponent =>
    if brackets = [] then .ok [] else .error .cutShort
  | _ => .error .cutShort

/-- The input that follows a value, from a place inside the value. -/
def skipFrom (place : Place) (brackets : List Bracket) :
    List UInt8 → Except Fault (List UInt8)
  | [] => place.atEnd brackets
  | b :: rest =>
    match place.step b brackets with
    | .go next brackets => skipFrom next brackets rest
    | .finish => .ok rest
    | .stop => .ok (b :: rest)
    | .refuse => .error .malformed

/-- The input that follows a value and the blanks before it. -/
def skipValue (input : List UInt8) : Except Fault (List UInt8) := skipFrom .value [] input

end D0L.Json
