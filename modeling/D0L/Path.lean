import D0L.Error

namespace D0L

/-!
# Paths

A path is a text in which slashes divide names. It starts in a working folder, which holds no other
folders, or in the root; of what is outside of the working folder only landmarks are known.

* `Device` — things with a path that are no files.
* `Landmark`, `Path.landmark?` — what is known to be outside.
* `Path.walk` — following names from folder to folder.
* `Path.target` — what a path leads to; `Path.goal` is the same for writing, which takes a name with
  a slash behind it for that of a folder.

A folder is given by what stands before a name in the shortest path to a file in it: nothing for the
working folder, two dots and a slash for the folder that it is in, and names from the root for
others.
-/

/-- Things with a path that are no files. -/
inductive Device where
  /-- The null device, which is always empty and keeps nothing. -/
  | null
  /-- A device that gives zero bytes without end and keeps nothing. -/
  | zero
  /-- A device that gives zero bytes without end and has no space for anything. -/
  | full
  /-- The input from the console. -/
  | input
  /-- The output to the console. -/
  | output
  /-- The messages to the console, which are apart from its output. -/
  | messages
deriving DecidableEq

/-- What is known to be at a place outside of the working folder. -/
inductive Landmark where
  /-- A folder. -/
  | folder
  /-- Another name for a folder that is somewhere else. -/
  | link (folder : Text)
  /-- A device. -/
  | device (device : Device)
deriving DecidableEq

/-- What a path leads to. -/
inductive Target where
  /-- A folder. -/
  | folder
  /-- The file at a place, whether there is one or not. -/
  | file (place : Text)
  /-- A device. -/
  | device (device : Device)
  /-- Nothing, since the path goes on behind a place where no folder is. -/
  | behind (place : Text)
deriving DecidableEq

namespace Path

/-- The greatest number of bytes in a name. -/
def maxNameLength : Nat := 255

/-- The greatest number of bytes in a path. -/
def maxLength : Nat := 4095

/-! ### Landmarks -/

/-- The known folders in which files can be made. -/
def folders : List Text :=
  ["/bin", "/boot", "/etc", "/home", "/lib", "/lib64", "/media", "/mnt", "/opt", "/root", "/run",
    "/sbin", "/srv", "/tmp", "/usr", "/usr/bin", "/usr/lib", "/usr/local", "/usr/local/bin",
    "/usr/sbin", "/usr/share", "/var", "/var/cache", "/var/lib", "/var/log", "/var/tmp",
    "/dev/shm"].map String.toList

/-- The known folders in which no files can be made: all that is in them comes from the operating
    system. -/
def fixedFolders : List Text :=
  ["/dev", "/dev/pts", "/proc", "/proc/self", "/proc/self/fd", "/sys"].map String.toList

/-- Other names for folders. -/
def links : List (Text × Text) :=
  [("/dev/fd".toList, "/proc/self/fd/".toList), ("/proc/self/root".toList, ['/']),
    ("/proc/self/cwd".toList, [])]

/-- The devices by their places. -/
def devices : List (Text × Device) :=
  [("/dev/null".toList, .null), ("/dev/zero".toList, .zero), ("/dev/full".toList, .full),
    ("/dev/stdin".toList, .input), ("/dev/stdout".toList, .output),
    ("/dev/stderr".toList, .messages), ("/proc/self/fd/0".toList, .input),
    ("/proc/self/fd/1".toList, .output), ("/proc/self/fd/2".toList, .messages)]

/-- What is known to be at a place. -/
def landmark? (place : Text) : Option Landmark :=
  if place ∈ folders ∨ place ∈ fixedFolders then some .folder
  else match links.lookup place with
    | some folder => some (.link folder)
    | none => (devices.lookup place).map .device

/-- Whether no files can be made in a folder. -/
def isFixed (folder : Text) : Bool := folder.dropLast ∈ fixedFolders

/-! ### Following a path -/

/-- The names between the slashes of a path. -/
def names (path : Text) : List Text := path.splitOn '/'

/-- The folder that a path starts in: the root if a slash begins it. -/
def start (path : Text) : Text := if path.head? = some '/' then ['/'] else []

/-- The folder that a folder is in. The root is in itself. -/
def outer (folder : Text) : Text :=
  if folder = [] then "../".toList
  else if folder.head? = some '/' then
    '/' :: (folder.tail.dropLast.reverse.dropWhile (· ≠ '/')).reverse
  else ['/']

/-- Follows names as far as they lead to folders; the answer is the last folder, with the names that
    are left. Two dots lead out of a folder. -/
def walk (folder : Text) : List Text → Text × List Text
  | [] => (folder, [])
  | name :: rest =>
    if name = "..".toList then walk (outer folder) rest
    else match landmark? (folder ++ name) with
      | some .folder => walk (folder ++ name ++ ['/']) rest
      | some (.link inner) => walk inner rest
      -- what is at this name, if anything, is no folder that is known
      | _ => (folder, name :: rest)

/-- The names of a path that lead somewhere: empty names and single dots stay where they are. -/
def steps (path : Text) : List Text := (names path).filter fun name => name ≠ [] ∧ name ≠ ['.']

/-- The last folder that a path leads to, with the names that are left. -/
def follow (path : Text) : Text × List Text := walk (start path) (steps path)

/-- What a path leads to. A path that ends in an empty name or in a single dot leads to a folder or
    nowhere. The length of the path as it is written counts, whatever its names are. -/
def target (path : Text) : Except FileFault Target :=
  if maxLength < (Text.toBytes path).length then .error .nameTooLong
  else if path = [] then .error .missing
  else
    match follow path with
    | (_, []) => .ok .folder
    | (folder, name :: more) =>
      let isLast := more = [] ∧ (names path).getLast? = some name
      if maxNameLength < (Text.toBytes name).length then .error .nameTooLong
      else match landmark? (folder ++ name) with
        | some (.device device) => if isLast then .ok (.device device) else .error .notFolder
        | _ =>
          if ¬ isLast then .ok (.behind (folder ++ name))
          -- nothing but the landmarks is there, and nothing can be made
          else if isFixed folder then .error .missing
          else .ok (.file (folder ++ name))

/-! ### Writing to a path -/

/-- Whether a path asks for a folder: a slash stands behind its last name, and the names before that
    one lead to folders. -/
def asksForFolder (path : Text) : Bool :=
  match follow path with
  | (_, [name]) =>
    (Text.toBytes path).length ≤ maxLength ∧ (names path).getLast? ≠ some name ∧
      ((names path).filter (· ≠ [])).getLast? = some name
  | _ => false

/-- What a path leads to when something is going to be written there. A path that asks for a folder
    is taken at its word, whatever there is at its last name and however long that is. -/
def goal (path : Text) : Except FileFault Target :=
  if asksForFolder path then .ok .folder else target path

/-- What is written to a file or a device is written where the path leads. -/
theorem target_of_goal {path : Text} {t : Target} (h : goal path = .ok t) (ht : t ≠ .folder) :
    target path = .ok t := by
  unfold goal at h
  split at h
  · exact absurd (Except.ok.inj h).symm ht
  · exact h

/-- The path of a file ends in the name of the file, in a folder that is there. -/
theorem follow_of_file {path place : Text} (h : target path = .ok (.file place)) :
    ∃ folder name, follow path = (folder, [name]) ∧ (names path).getLast? = some name := by
  unfold target at h
  -- the only way to a file is the last one of all
  split at h
  · cases h
  split at h
  · cases h
  split at h
  · cases h
  · rename_i folder name more hfollow
    simp only at h
    split at h
    · cases h
    split at h
    · split at h <;> cases h
    · split at h
      · cases h
      · -- otherwise the path goes on behind the name, where no folder is
        rename_i hends
        obtain ⟨rfl, hlast⟩ := Decidable.not_not.1 hends
        exact ⟨folder, name, hfollow, hlast⟩

/-- The path of a file does not ask for a folder. -/
theorem goal_of_file {path place : Text} (h : target path = .ok (.file place)) :
    goal path = .ok (.file place) := by
  obtain ⟨folder, name, hfollow, hlast⟩ := follow_of_file h
  have hasks : asksForFolder path = false := by simp [asksForFolder, hfollow, hlast]
  rw [goal, hasks, h]
  rfl

end Path

end D0L
