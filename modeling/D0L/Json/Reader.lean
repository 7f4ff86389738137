import D0L.Json.Skip

namespace D0L.Json

/-!
# Readers

A reader takes a value off the front of the input. It goes from left to right, ends at the first
fault, and on its way emits what it comes across; what was emitted before a fault stays.

* `Reader` — readers, which form a monad.
* `Reader.text`, `Reader.character`, `Reader.number` — readers of single values.
* `Reader.object`, `Reader.elements` — readers of the members and elements of a value.
* `Reader.document` — reads a value that is all there is.
-/

/-- What a reader has done: what it emitted, and its value with the input that is left. -/
structure Progress (ε α : Type) where
  /-- What was emitted, in order. -/
  emitted : List ε
  /-- The value and the input behind it, or the fault that ended the reading. -/
  outcome : Except Fault (α × List UInt8)

/-- A reader of an `α` that emits items of type `ε`. -/
def Reader (ε α : Type) := List UInt8 → Progress ε α

namespace Reader

variable {ε α β σ : Type}

/-- Runs a reader on some input. -/
def run (r : Reader ε α) (input : List UInt8) : Progress ε α := r input

/-- Two readers one after the other. -/
def andThen (r : Reader ε α) (f : α → Reader ε β) : Reader ε β := fun input =>
  match r.run input with
  | ⟨emitted, .error fault⟩ => ⟨emitted, .error fault⟩
  | ⟨emitted, .ok (a, rest)⟩ =>
    let next := (f a).run rest
    ⟨emitted ++ next.emitted, next.outcome⟩

instance : Monad (Reader ε) where
  pure a := fun input => ⟨[], .ok (a, input)⟩
  bind := andThen

/-- Ends the reading. -/
def fail (fault : Fault) : Reader ε α := fun _ => ⟨[], .error fault⟩

/-- Emits items. -/
def emit (items : List ε) : Reader ε Unit := fun input => ⟨items, .ok ((), input)⟩

/-- A reader that emits nothing. -/
def scan (f : List UInt8 → Except Fault (α × List UInt8)) : Reader ε α := fun input =>
  ⟨[], f input⟩

/-! ### Tokens -/

/-- Passes over blanks and looks at the next byte, which stays in the input. -/
def peek : Reader ε (Option UInt8) := fun input =>
  let rest := input.dropWhile isSpaceByte
  ⟨[], .ok (rest.head?, rest)⟩

/-- Passes over the next byte. -/
def advance : Reader ε Unit := fun input => ⟨[], .ok ((), input.tail)⟩

/-- Passes over blanks and one given byte. -/
def expect (b : UInt8) : Reader ε Unit := do
  match ← peek with
  | none => fail .cutShort
  | some c => if c = b then advance else fail .malformed

/-- The rest of a literal. -/
def letters : List UInt8 → List UInt8 → Except Fault (Unit × List UInt8)
  | [], input => .ok ((), input)
  | _ :: _, [] => .error .cutShort
  | c :: left, b :: rest => if b = c then letters left rest else .error .malformed

/-- Reads a literal from its second letter on. -/
def literal (name : Text) : Reader ε Unit := do
  advance
  scan (letters (Text.toBytes name.tail))

/-- Reads what stands in the place of a value that starts with the byte `b`; of an array or an
    object only the start. -/
def found (b : UInt8) : Reader ε Found := do
  if b = 'n'.toUInt8 then
    literal "null".toList
    return .null
  else if b = 't'.toUInt8 then
    literal "true".toList
    return .boolean true
  else if b = 'f'.toUInt8 then
    literal "false".toList
    return .boolean false
  else if b = '-'.toUInt8 then
    advance
    return (← scan (Json.number true)).found
  else if isDigitByte b then
    return (← scan (Json.number false)).found
  else if b = '"'.toUInt8 then
    advance
    return .text (← scan stringBody)
  else if b = '['.toUInt8 then
    return .array
  else if b = '{'.toUInt8 then
    return .object
  else fail .malformed

/-- Reads the next value as one of the wanted kind, given what to do with its kind. -/
def wanting (wanted : Wanted) (take : Found → Option α) : Reader ε α := do
  match ← peek with
  | none => fail .cutShort
  | some b =>
    let found ← found b
    match take found with
    | some a => return a
    | none => fail (.unfit (.kind found wanted))

/-! ### Single values -/

/-- Reads a string, which stands in the place of a `wanted`. -/
def textFor (wanted : Wanted) : Reader ε Text :=
  wanting wanted fun
    | .text t => some t
    | _ => none

/-- Reads a string. -/
def text : Reader ε Text := textFor .text

/-- The only character of a string. -/
def only : Text → Reader ε Char
  | [c] => return c
  | t => fail (.unfit (.notOneCharacter t))

/-- Reads a string of one character. -/
def character : Reader ε Char := do
  only (← textFor .character)

/-- Reads a number. -/
def number : Reader ε Binary64 :=
  wanting .number fun
    | .natural n => some (Number.natural n).toBinary64
    | .negative n => some (Number.negative n).toBinary64
    | .float x => some x
    | _ => none

/-- Passes over any value. -/
def ignored : Reader ε Unit :=
  scan fun input => (skipValue input).map fun rest => ((), rest)

/-! ### Members and elements -/

/-- Reads the key of the next member of an object, or the end of the object. -/
def nextKey (first : Bool) : Reader ε (Option Text) := do
  match ← peek with
  | none => fail .cutShort
  | some b =>
    if b = Bracket.object.closing then
      advance
      return none
    else
      -- a comma stands before every key but the first one
      let b ← if first then pure (some b) else
        if b = ','.toUInt8 then do
          advance
          peek
        else fail .malformed
      match b with
      | none => fail .cutShort
      | some b =>
        if b = '"'.toUInt8 then
          advance
          return some (← scan stringBody)
        else fail .malformed

/-- Reads members up to the end of the object, at most as many as `fuel` says. -/
def membersFrom (member : σ → Text → Reader ε σ) : Nat → Bool → σ → Reader ε σ
  | 0, _, _ => fail .cutShort
  | fuel + 1, first, state => do
    match ← nextKey first with
    | none => return state
    | some key => membersFrom member fuel false (← member state key)

/-- Reads all members of an object, whose opening bracket has been read. Each member is read from
    the colon on, given its key, and takes the state on. Every member takes up input, so the input
    bounds their number. -/
def members (member : σ → Text → Reader ε σ) (state : σ) : Reader ε σ := fun input =>
  (membersFrom member (input.length + 1) true state).run input

/-- Passes over the colon between a key and its value. -/
def colon : Reader ε Unit := expect ':'.toUInt8

/-- Reads the next element of an array, or nothing if the array ends here. -/
def element (first : Bool) (item : Reader ε α) : Reader ε (Option α) := do
  match ← peek with
  | none => fail .cutShort
  | some b =>
    if b = Bracket.array.closing then return none
    else if first then return some (← item)
    else if b = ','.toUInt8 then
      advance
      match ← peek with
      | none => fail .cutShort
      | some b =>
        -- nothing but an element may follow a comma
        if b = Bracket.array.closing then fail .malformed else return some (← item)
    else fail .malformed

/-- Passes over the end of an array. -/
def endOfArray : Reader ε Unit := expect Bracket.array.closing

/-- Reads a structure, which is written as an object or as an array. -/
def structured (wanted : Wanted) (object array : Reader ε α) : Reader ε α := do
  match ← peek with
  | none => fail .cutShort
  | some b =>
    if b = '{'.toUInt8 then
      advance
      object
    else if b = '['.toUInt8 then
      advance
      let a ← array
      endOfArray
      return a
    else
      -- the value is read all the same, since the fault names what was found
      let found ← found b
      fail (.unfit (.kind found wanted))

/-- Reads a value and makes sure that nothing but blanks follows. -/
def document (r : Reader ε α) : Reader ε α := do
  let a ← r
  match ← peek with
  | none => return a
  | some _ => fail .malformed

end Reader

end D0L.Json
