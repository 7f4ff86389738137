import D0L.Json.Fault

namespace D0L

/-!
# Errors

Everything that can go wrong between a definition and its expansion, as causes; the wording is in
`Error.message`.
-/

/-- What a dialogue asks for. -/
inductive Field where
  /-- The angle. -/
  | angle
  /-- The start word. -/
  | start
  /-- How many rules follow. -/
  | ruleCount
  /-- One rule. -/
  | rule
  /-- How many generations to expand. -/
  | expansions
deriving DecidableEq

/-- Why a file cannot be used. -/
inductive FileFault where
  /-- There is no such file. -/
  | missing
  /-- The path leads to a folder. -/
  | isFolder
  /-- The path leads through something that is no folder. -/
  | notFolder
  /-- A name is longer than names may be, or a path than paths may be. -/
  | nameTooLong
  /-- There is no space left. -/
  | noSpace
  /-- The bytes are no text. -/
  | notText
deriving DecidableEq

/-- What went wrong. -/
inductive Error where
  /-- A rule without the symbol that it defines. -/
  | emptyRule
  /-- Something that is not the number asked for. -/
  | notANumber (field : Field) (input : Text)
  /-- A negative number of generations. -/
  | negativeCount (count : Int)
  /-- A generation that is longer than allowed. -/
  | overLimit (generation length limit : Nat)
  /-- Nothing left to read when something was asked for. -/
  | inputEnded (field : Field)
  /-- A file that cannot be used. -/
  | file (fault : FileFault)
  /-- A document that cannot be read. -/
  | document (fault : Json.Fault)
deriving DecidableEq

/-! ### Messages -/

/-- The name of what is asked for. -/
def Field.label : Field → Text
  | angle => "angle".toList
  | start => "starting pattern".toList
  | ruleCount => "number of rules".toList
  | rule => "rule".toList
  | expansions => "number of expansions".toList

/-- Why the file cannot be used, with the number of the operating system for it. -/
def FileFault.message : FileFault → Text
  | missing => "No such file or directory (os error 2)".toList
  | isFolder => "Is a directory (os error 21)".toList
  | notFolder => "Not a directory (os error 20)".toList
  | nameTooLong => "File name too long (os error 36)".toList
  | noSpace => "No space left on device (os error 28)".toList
  | notText => "stream did not contain valid UTF-8".toList

/-- What went wrong, in one line. -/
def Error.message : Error → Text
  | emptyRule =>
    "malformed rule ".toList ++ Text.quoted []
      ++ ": a rule needs at least the symbol it defines".toList
  | notANumber field input =>
    "expected a number for ".toList ++ field.label ++ ", got ".toList ++ input.quoted
  | negativeCount count =>
    "iteration count must not be negative, got ".toList ++ Numeral.writeInt count
  | overLimit generation length limit =>
    "generation ".toList ++ Numeral.write generation ++ " has ".toList ++ Numeral.write length
      ++ " symbols, which exceeds the limit of ".toList ++ Numeral.write limit
  | inputEnded field => "input ended while reading ".toList ++ field.label
  | file fault => "io error: ".toList ++ fault.message
  | document fault => "json error: ".toList ++ fault.message

end D0L
