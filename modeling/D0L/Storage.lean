import D0L.Document
import D0L.Path

namespace D0L

/-!
# Folders and the grammars in them

A folder that holds files and no other folders, with the console beside it.

* `Folder.content?`, `Folder.put` — the content of a file, and setting it.
* `Folder.listing` — the files in the folder itself.
* `Folder.open`, `Folder.write` — reading and writing by path.
* `Grammar.fromOpened` — the grammar in a file that has been opened.
* `Grammar.load`, `Grammar.save` — reading a grammar from a folder, and writing it there.
-/

/-- Files by place, which is the shortest path to each: for a file in the folder itself that is its
    name. Of the files outside only those are known that have been written. -/
structure Folder where
  /-- The places with the bytes of the files. -/
  files : List (Text × List UInt8)
deriving DecidableEq

/-- What opening a path gives. -/
inductive Opened where
  /-- A folder, which has no bytes. -/
  | folder
  /-- The bytes of a file. -/
  | bytes (bytes : List UInt8)
  /-- Zero bytes without end. -/
  | zeros
deriving DecidableEq

/-- What is different after something has been written. -/
structure Written where
  /-- The folder. -/
  folder : Folder
  /-- What has been printed. -/
  printed : Text
deriving DecidableEq

namespace Folder

/-- The folder without files. -/
def empty : Folder where
  files := []

/-- The content of the file at a place. -/
def content? (folder : Folder) (place : Text) : Option (List UInt8) :=
  (folder.files.find? fun file => file.1 = place).map Prod.snd

/-- Sets the content of the file at a place among files. -/
def putIn (place : Text) (bytes : List UInt8) :
    List (Text × List UInt8) → List (Text × List UInt8)
  | [] => [(place, bytes)]
  | file :: rest =>
    -- a file keeps its place among the others
    if file.1 = place then (place, bytes) :: rest else file :: putIn place bytes rest

/-- The folder with the content of the file at a place set. -/
def put (folder : Folder) (place : Text) (bytes : List UInt8) : Folder where
  files := putIn place bytes folder.files

/-- The contents after setting one. -/
@[simp] theorem content?_put (folder : Folder) (place other : Text) (bytes : List UInt8) :
    (folder.put place bytes).content? other =
      if other = place then some bytes else folder.content? other := by
  simp only [content?, put]
  -- the first file at a place counts, and that is where the content is set
  induction folder.files with
  | nil => by_cases h : other = place <;> simp [putIn, h, Ne.symm]
  | cons file rest ih =>
    simp only [putIn]
    split
    · rename_i hplace
      by_cases h : other = place
      · simp [h]
      · have hfile : file.1 ≠ other := fun heq => h (heq.symm.trans hplace)
        simp [h, hfile, Ne.symm h]
    · rename_i hplace
      by_cases hfile : file.1 = other
      · have h : other ≠ place := fun heq => hplace (hfile.trans heq)
        simp [hfile, h]
      · simpa [List.find?_cons, hfile] using ih

/-- The files in the folder itself. -/
def listing (folder : Folder) : List (Text × List UInt8) :=
  folder.files.filter fun file => '/' ∉ file.1

/-! ### Reading and writing -/

/-- Why nothing can be behind a place where no folder is. -/
def obstacle (folder : Folder) (place : Text) : FileFault :=
  if (folder.content? place).isSome then .notFolder else .missing

/-- Opens what a path leads to, with some input on the console. Of what has been printed nothing can
    be read. -/
def «open» (folder : Folder) (input : List UInt8) (path : Text) : Except FileFault Opened := do
  match ← Path.target path with
  | .folder => return .folder
  | .file place =>
    match folder.content? place with
    | some bytes => return .bytes bytes
    | none => throw .missing
  | .device .input => return .bytes input
  | .device .zero | .device .full => return .zeros
  | .device _ => return .bytes []
  | .behind place => throw (folder.obstacle place)

/-- Writes a text in place of what its path led to before. -/
def write (folder : Folder) (path text : Text) : Except FileFault Written := do
  match ← Path.goal path with
  | .folder => throw .isFolder
  | .file place => return { folder := folder.put place (Text.toBytes text), printed := [] }
  | .device .output => return { folder, printed := text }
  | .device .full => throw .noSpace
  | .device _ => return { folder, printed := [] }
  | .behind place => throw (folder.obstacle place)

/-- What is written to a file is its content afterwards, and nothing is printed. -/
theorem write_eq {path place : Text} (hpath : Path.target path = .ok (.file place))
    (folder : Folder) (text : Text) :
    folder.write path text
      = .ok { folder := folder.put place (Text.toBytes text), printed := [] } := by
  rw [write, Path.goal_of_file hpath]
  rfl

/-- A name with a slash behind it: reading finds nothing there, and writing finds a folder. -/
example : Folder.empty.open [] "new/".toList = .error .missing ∧
    Folder.empty.write "new/".toList [] = .error .isFolder := ⟨rfl, rfl⟩

/-- What has been written to a file is what is read from there. -/
theorem open_write {folder : Folder} {input : List UInt8} {path place text : Text}
    {written : Written} (hpath : Path.target path = .ok (.file place))
    (h : folder.write path text = .ok written) :
    written.folder.open input path = .ok (.bytes (Text.toBytes text)) := by
  rw [write_eq hpath] at h
  obtain rfl := Except.ok.inj h
  rw [«open», hpath]
  simp [bind, Except.bind, pure, Except.pure]

end Folder

/-! ### Grammars in files -/

/-- Reads a document from what has been opened. A folder is opened but cannot be read, and no
    document begins with a zero byte. -/
def Document.fromOpened {α : Type} (reader : Document.Reader α)
    (opened : Except FileFault Opened) : Attempt α :=
  match opened with
  | .error fault => throw (.file fault)
  -- opening succeeds, and the first read fails
  | .ok .folder => throw (.document .unreadable)
  | .ok (.bytes bytes) => Document.read reader bytes
  | .ok .zeros => throw (.document .malformed)

namespace Grammar

/-- Reads a grammar from what has been opened at a path, and reports it. -/
def fromOpened (path : Text) (opened : Except FileFault Opened) : Attempt Grammar := do
  let grammar ← Document.fromOpened Document.grammar opened
  ExceptT.lift (Traced.report [.loaded path grammar.scheme.size])
  return grammar

/-- Reads the grammar at a path of a folder, with nothing on the console. -/
def load (folder : Folder) (path : Text) : Attempt Grammar := fromOpened path (folder.open [] path)

/-- The text of a file that holds a grammar. -/
def file (g : Grammar) : Text := Document.file (g.json .indented)

/-- Writes a grammar to a path of a folder. -/
def save (g : Grammar) (folder : Folder) (path : Text) : Except Error Written :=
  (folder.write path g.file).mapError .file

end Grammar

end D0L
