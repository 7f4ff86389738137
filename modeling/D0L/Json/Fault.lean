import D0L.Json.Writer
import D0L.Text.Quoted

namespace D0L.Json

/-!
# What is wrong with a document

* `Fault` — the document is no JSON, ends too early, cannot be read at all, or does not have the
  shape that its reader needs.
* `Misfit` — how the shape is wrong, with its message.
-/

/-- The kind of value that stands in a document. -/
inductive Found where
  /-- The literal `null`. -/
  | null
  /-- A truth value. -/
  | boolean (value : Bool)
  /-- An integer from zero on that fits 64 bits. -/
  | natural (value : Nat)
  /-- A negative integer that fits 64 bits, by its absolute value. -/
  | negative (value : Nat)
  /-- Any other number. -/
  | float (value : Binary64)
  /-- A string. -/
  | text (value : Text)
  /-- The start of an array. -/
  | array
  /-- The start of an object. -/
  | object
deriving DecidableEq

/-- The kind of value that a place in a document needs. -/
inductive Wanted where
  /-- A string. -/
  | text
  /-- A string of one character. -/
  | character
  /-- A number. -/
  | number
  /-- A single production. -/
  | production
  /-- A table of productions. -/
  | scheme
  /-- A whole grammar. -/
  | grammar
deriving DecidableEq

/-- A value that does not fit its place. -/
inductive Misfit where
  /-- The value is of another kind than its place needs. -/
  | kind (found : Found) (wanted : Wanted)
  /-- The string has none or several characters where one is needed. -/
  | notOneCharacter (value : Text)
  /-- A member that must be there is not. -/
  | missing (key : Text)
  /-- A member is there twice. -/
  | repeated (key : Text)
  /-- The array ends before the element at this index. -/
  | tooShort (index : Nat) (wanted : Wanted)
deriving DecidableEq

/-- Why a document was not read. -/
inductive Fault where
  /-- The text is not JSON. -/
  | malformed
  /-- The text ends inside a value. -/
  | cutShort
  /-- There is no text to read. -/
  | unreadable
  /-- The text is JSON of another shape. -/
  | unfit (misfit : Misfit)
deriving DecidableEq

/-! ### Messages -/

/-- What stands in the document. -/
def Found.message : Found → Text
  | null => "null".toList
  | boolean true => "boolean `true`".toList
  | boolean false => "boolean `false`".toList
  | natural n => "integer `".toList ++ Numeral.write n ++ ['`']
  | negative n => "integer `-".toList ++ Numeral.write n ++ ['`']
  | float x => "floating point `".toList ++ writeNumber x ++ ['`']
  | text t => "string ".toList ++ t.quoted
  | array => "sequence".toList
  | object => "map".toList

/-- What the place needs. -/
def Wanted.message : Wanted → Text
  | text => "a string".toList
  | character => "a character".toList
  | number => "f64".toList
  | production => "struct Rule".toList
  | scheme => "a map from single symbols to replacements".toList
  | grammar => "struct LSystem".toList

/-- The number of elements of an array that stands for a structure. -/
def Wanted.arity : Wanted → Nat
  | production => 2
  | grammar => 3
  | _ => 1

/-- How the value does not fit. -/
def Misfit.message : Misfit → Text
  | kind found wanted =>
    "invalid type: ".toList ++ found.message ++ ", expected ".toList ++ wanted.message
  | notOneCharacter value =>
    "invalid value: string ".toList ++ value.quoted ++ ", expected a character".toList
  | missing key => "missing field `".toList ++ key ++ ['`']
  | repeated key => "duplicate field `".toList ++ key ++ ['`']
  | tooShort index wanted =>
    "invalid length ".toList ++ Numeral.write index ++ ", expected ".toList ++ wanted.message
      ++ " with ".toList ++ Numeral.write wanted.arity ++ " elements".toList

/-- Why the document was not read, in one line. -/
def Fault.message : Fault → Text
  | malformed => "the text is not well-formed".toList
  | cutShort => "the text ends too early".toList
  | unreadable => "the text cannot be read".toList
  | unfit misfit => misfit.message

end D0L.Json
