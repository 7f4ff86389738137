import D0L.Command

namespace D0L

/-!
# The command line

Reads and writes files and the console; everything else is decided by `Command`.
-/

/-- Whether output is emphasised: as one variable forces it, another forbids it, and otherwise on a
    terminal. A variable that is `0` does not count. -/
def wantsColor (forced forbidden allowed : Option String) (isTerminal : Bool) : Bool :=
  if forced.any (· ≠ "0") then true
  else if forbidden.isSome then false
  else allowed.all (· ≠ "0") && isTerminal

/-- Opens a path for reading. Behind a zero byte nothing is read, since there may be no end. -/
def openPath (path : Text) : IO (Except FileFault Opened) := do
  try
    let file ← IO.FS.Handle.mk (String.ofList path) .read
    let first ← file.read 1
    if first.toList = [0] then return .ok .zeros
    return .ok (.bytes (first ++ (← file.readBinToEnd)).toList)
  catch
    | .noFileOrDirectory .. => return .error .missing
    | _ => return .ok .folder

/-- Writes a file. -/
def writePath (path text : Text) : IO (Except FileFault Unit) := do
  try
    let file ← IO.FS.Handle.mk (String.ofList path) .write
    file.putStr (String.ofList text)
    file.flush
    return .ok ()
  catch
    | .noFileOrDirectory .. => return .error .missing
    | _ => return .error .isFolder

/-- Prints some text at once. -/
def printText (t : Text) : IO Unit := do
  let stdout ← IO.getStdout
  stdout.putStr (String.ofList t)
  stdout.flush

/-- Reports a failure; the answer is the status of the program. -/
def reportFailure (failure : Failure) : IO UInt32 := do
  IO.eprintln ("Error: " ++ String.ofList failure.message)
  return 1

/-- The bytes of the next line, or of what is left. -/
partial def nextLine (stdin : IO.FS.Stream) (read : ByteArray) : IO ByteArray := do
  let byte ← stdin.read 1
  if byte.isEmpty then return read
  else if byte = ['\n'.toUInt8].toByteArray then return read ++ byte
  else nextLine stdin (read ++ byte)

/-- Holds a dialogue: as long as the dialogue on the input so far needs another line, one is read.
    Output that has been shown already is not shown again. -/
partial def converse (limit : Option Nat) (stdin : IO.FS.Stream) (input : ByteArray)
    (shown : Nat) : IO UInt32 := do
  let dialogue := Dialogue.ofInput limit input.toList
  printText (dialogue.output.drop shown)
  match dialogue.outcome with
  | .ok _ => return 0
  | .error (.inputEnded field) =>
    let line ← nextLine stdin .empty
    if line.isEmpty then reportFailure (.failed (.inputEnded field))
    else converse limit stdin (input ++ line) dialogue.output.length
  | .error e => reportFailure (.failed e)

/-- Does a task. -/
def perform (color : Bool) (task : Task) : IO UInt32 := do
  let opened ← match task.source?.bind Source.grammar with
    | some path => openPath path
    | none => pure (.error .missing)
  match task.work color fun _ => opened with
  | .error failure => reportFailure failure
  | .ok work =>
    let written ← match work.saved with
      | some (path, grammar) =>
        pure ((← writePath path grammar.file).mapError fun fault =>
          Failure.cannotWrite path (.file fault))
      | none => pure (.ok ())
    match written with
    | .error failure => reportFailure failure
    | .ok () =>
      printText work.output
      return 0

end D0L

/-- The program: the status is 0, 1 for a command that failed, or 2 if there is no such command. -/
def main (arguments : List String) : IO UInt32 := do
  let color := D0L.wantsColor (← IO.getEnv "CLICOLOR_FORCE") (← IO.getEnv "NO_COLOR")
    (← IO.getEnv "CLICOLOR") (← (← IO.getStdout).isTty)
  match D0L.Command.ofArguments? (arguments.map String.toList) with
  | none =>
    IO.eprintln "usage: interactive | expand | stats | save | presets, each with its options"
    return 2
  | some (.interactive limit) => D0L.converse limit (← IO.getStdin) .empty 0
  | some (.task task) => D0L.perform color task
