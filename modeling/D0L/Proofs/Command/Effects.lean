import D0L.Command

namespace D0L

/-!
# What commands leave behind

A command looks at everything before it changes anything: a grammar is written only after it has
been resolved, and text is printed only after that.  So a command that fails leaves the files as
they were, and prints nothing unless it is a dialogue.

* `Folder.write_cases` — what writing to a path can change.
* `Task.work_expand`, `Task.work_stats`, `Task.work_save` — the work of a task whose grammar has
  been resolved; `Task.saved_cases` says which work has something to save.
* `Command.carryOut_of_nothing`, `Command.carryOut_of_written`, `Command.carryOut_of_fault` — what
  becomes of that work.
* `Command.run_of_failure`, `Command.run_of_success` — a command that fails, and one that succeeds.
* `Command.ofArguments?_cases` — which arguments ask for a dialogue.
* `Command.leaves_no_trace` — the same for the arguments of the command line.
-/

namespace Folder

/-- **What writing can change.**  If the path leads to a file, the text becomes its content; on a
    device nothing is kept. -/
theorem write_cases {folder : Folder} {path text : Text} {written : Written}
    (h : folder.write path text = .ok written) :
    (∃ place, Path.target path = .ok (.file place) ∧
      written.folder = folder.put place (Text.toBytes text)) ∨
    ∃ device, Path.target path = .ok (.device device) ∧ written.folder = folder := by
  unfold write at h
  cases hgoal : Path.goal path with
  | error fault =>
    rw [hgoal] at h
    cases h
  | ok goal =>
    rw [hgoal] at h
    cases goal with
    | folder => cases h
    | behind place => cases h
    | file place =>
      cases h
      exact .inl ⟨place, Path.target_of_goal hgoal nofun, rfl⟩
    | device device =>
      refine .inr ⟨device, Path.target_of_goal hgoal nofun, ?_⟩
      -- no device keeps anything, and the full one does not even take it
      cases device with
      | full => cases h
      | null | zero | input | output | messages =>
        cases h
        rfl

end Folder

/-! ### The work of a task -/

namespace Task

variable {color : Bool} {opener : Text → Except FileFault Opened} {source : Source} {g : Grammar}

/-- A task whose grammar cannot be had fails for that reason. -/
theorem work_of_error {t : Task} {failure : Failure} (hsource : t.source? = some source)
    (h : source.resolve opener = .error failure) : t.work color opener = .error failure := by
  cases t with
  | presets => cases hsource
  | expand | stats | save =>
    obtain rfl := Option.some.inj hsource
    rw [work, h]
    rfl

/-- A task that comes to something has its grammar. -/
theorem resolve_of_work {t : Task} {done : Work} (hsource : t.source? = some source)
    (h : t.work color opener = .ok done) : ∃ g, source.resolve opener = .ok g := by
  cases hresolve : source.resolve opener with
  | ok g => exact ⟨g, rfl⟩
  | error failure =>
    rw [work_of_error hsource hresolve] at h
    cases h

/-- To expand is to print the last generation. -/
theorem work_expand (h : source.resolve opener = .ok g) (count : Int) (limit : Option Nat) :
    (expand source count limit).work color opener =
      ((g.expandCount limit count).outcome.mapError .failed).map fun (n, result) =>
        { saved := none, output := resultLine n result } := by
  rw [work, h]
  show (g.expandCount limit count).outcome.mapError Failure.failed >>= _ = _
  cases (g.expandCount limit count).outcome <;> rfl

/-- To report is to print the report, in one of the two layouts. -/
theorem work_stats (h : source.resolve opener = .ok g) (count : Nat) (csv : Bool) :
    (stats source count csv).work color opener = .ok {
      saved := none
      output := if csv then Report.csv (g.report count) else g.overview color count } := by
  rw [work, h]
  rfl

/-- To save is to write the grammar and to say where. -/
theorem work_save (h : source.resolve opener = .ok g) (path : Text) :
    (save source path).work color opener = .ok {
      saved := some (path, g)
      output := "Saved L-system to ".toList ++ path.quoted ++ ['\n'] } := by
  rw [work, h]
  rfl

/-- **Only saving saves.**  What is saved is the grammar that has been resolved. -/
theorem saved_cases {t : Task} {done : Work} (h : t.work color opener = .ok done) :
    done.saved = none ∧ (∀ source path, t ≠ save source path) ∨
    ∃ source path g, t = save source path ∧ source.resolve opener = .ok g ∧
      done.saved = some (path, g) := by
  -- only one of the tasks has something to save, and it needs the grammar first
  cases t with
  | presets =>
    cases h
    exact .inl ⟨rfl, fun _ _ => nofun⟩
  | expand source count limit =>
    obtain ⟨g, hresolve⟩ := resolve_of_work rfl h
    refine .inl ⟨?_, fun _ _ => nofun⟩
    rw [work_expand hresolve] at h
    cases hexpand : (g.expandCount limit count).outcome with
    | error e =>
      rw [hexpand] at h
      cases h
    | ok p =>
      rw [hexpand] at h
      cases h
      rfl
  | stats source count csv =>
    obtain ⟨g, hresolve⟩ := resolve_of_work rfl h
    rw [work_stats hresolve] at h
    cases h
    exact .inl ⟨rfl, fun _ _ => nofun⟩
  | save source path =>
    obtain ⟨g, hresolve⟩ := resolve_of_work rfl h
    rw [work_save hresolve] at h
    cases h
    exact .inr ⟨source, path, g, rfl, hresolve, rfl⟩

end Task

namespace Command

variable {color : Bool} {folder : Folder} {input : List UInt8}

/-! ### Carrying out work -/

section CarryOut

variable {done : Work} {path : Text} {g : Grammar}

/-- If nothing is saved, the folder stays as it is. -/
theorem carryOut_of_nothing (h : done.saved = none) :
    carryOut folder done = { status := .success, output := done.output, folder } := by
  unfold carryOut
  rw [h]

/-- What has been written is in the folder, and the message is printed behind it. -/
theorem carryOut_of_written {written : Written} (h : done.saved = some (path, g))
    (hwrite : folder.write path g.file = .ok written) :
    carryOut folder done = {
      status := .success, output := written.printed ++ done.output, folder := written.folder } := by
  unfold carryOut Grammar.save
  rw [h]
  simp only [hwrite]
  rfl

/-- If the file cannot be written, nothing is printed and the folder stays as it is. -/
theorem carryOut_of_fault {fault : FileFault} (h : done.saved = some (path, g))
    (hwrite : folder.write path g.file = .error fault) :
    carryOut folder done = {
      status := .failure (.cannotWrite path (.file fault)), output := [], folder } := by
  unfold carryOut Grammar.save
  rw [h]
  simp only [hwrite]
  rfl

end CarryOut

/-- A task that comes to something is carried out. -/
theorem run_task_of_ok {t : Task} {done : Work} (h : t.work color (folder.open input) = .ok done) :
    (Command.task t).run color folder input = carryOut folder done := by
  unfold run
  simp only [h]

/-- A task that fails leaves nothing behind. -/
theorem run_task_of_error {t : Task} {failure : Failure}
    (h : t.work color (folder.open input) = .error failure) :
    (Command.task t).run color folder input =
      { status := .failure failure, output := [], folder } := by
  unfold run
  simp only [h]

/-- A dialogue leaves the files alone, however it ends. -/
theorem folder_run_interactive (limit : Option Nat) :
    ((interactive limit).run color folder input).folder = folder := by
  unfold run
  cases h : (Dialogue.ofInput limit input).outcome <;> simp only [h]

/-! ### Commands that fail, and commands that succeed -/

variable {command : Command}

/-- **A command that fails changes nothing.**  Only a dialogue has printed something by then. -/
theorem run_of_failure (h : (command.run color folder input).status ≠ .success) :
    (command.run color folder input).folder = folder ∧
      ((∀ limit, command ≠ interactive limit) → (command.run color folder input).output = []) := by
  cases command with
  | interactive limit =>
    exact ⟨folder_run_interactive limit, fun hcommand => absurd rfl (hcommand limit)⟩
  | task t =>
    cases hwork : t.work color (folder.open input) with
    | error failure =>
      rw [run_task_of_error hwork]
      exact ⟨rfl, fun _ => rfl⟩
    | ok done =>
      rw [run_task_of_ok hwork] at h ⊢
      -- all that can still fail is the writing
      cases hsaved : done.saved with
      | none => exact absurd (by rw [carryOut_of_nothing hsaved]) h
      | some entry =>
        obtain ⟨path, g⟩ := entry
        cases hwrite : folder.write path g.file with
        | ok written => exact absurd (by rw [carryOut_of_written hsaved hwrite]) h
        | error fault =>
          rw [carryOut_of_fault hsaved hwrite]
          exact ⟨rfl, fun _ => rfl⟩

/-- **A command that succeeds changes what it is to save, and nothing else.** -/
theorem run_of_success (h : (command.run color folder input).status = .success) :
    (∀ source path, command ≠ task (.save source path)) ∧
      (command.run color folder input).folder = folder ∨
    ∃ source path g written, command = task (.save source path) ∧
      source.resolve (folder.open input) = .ok g ∧ folder.write path g.file = .ok written ∧
      (command.run color folder input).folder = written.folder := by
  cases command with
  | interactive limit => exact .inl ⟨fun _ _ => nofun, folder_run_interactive limit⟩
  | task t =>
    cases hwork : t.work color (folder.open input) with
    | error failure =>
      rw [run_task_of_error hwork] at h
      cases h
    | ok done =>
      rw [run_task_of_ok hwork] at h ⊢
      obtain ⟨hsaved, htask⟩ | ⟨source, path, g, rfl, hresolve, hsaved⟩ := Task.saved_cases hwork
      · refine .inl ⟨fun source path heq => htask source path (Command.task.inj heq), ?_⟩
        rw [carryOut_of_nothing hsaved]
      · cases hwrite : folder.write path g.file with
        | error fault =>
          rw [carryOut_of_fault hsaved hwrite] at h
          cases h
        | ok written =>
          refine .inr ⟨source, path, g, written, rfl, hresolve, hwrite, ?_⟩
          rw [carryOut_of_written hsaved hwrite]

/-! ### From arguments -/

/-- The name that a command is asked for by. -/
def verb : Command → Verb
  | interactive _ => .interactive
  | task (.expand ..) => .expand
  | task (.stats ..) => .stats
  | task (.save ..) => .save
  | task .presets => .presets

/-- Options never change what is asked for by name. -/
theorem verb_of_ofSettings? {v : Verb} {settings : Settings}
    (h : ofSettings? v settings = some command) : command.verb = v := by
  -- whatever the options are, the name alone decides which command is built
  cases v with
  | interactive =>
    obtain ⟨limit, -, h⟩ := Option.bind_eq_some_iff.1 h
    cases h
    rfl
  | expand =>
    obtain ⟨source, -, h⟩ := Option.bind_eq_some_iff.1 h
    obtain ⟨count?, -, h⟩ := Option.bind_eq_some_iff.1 h
    obtain ⟨count, -, h⟩ := Option.bind_eq_some_iff.1 h
    obtain ⟨limit, -, h⟩ := Option.bind_eq_some_iff.1 h
    cases h
    rfl
  | stats =>
    obtain ⟨source, -, h⟩ := Option.bind_eq_some_iff.1 h
    obtain ⟨count?, -, h⟩ := Option.bind_eq_some_iff.1 h
    obtain ⟨count, -, h⟩ := Option.bind_eq_some_iff.1 h
    obtain ⟨csv, -, h⟩ := Option.bind_eq_some_iff.1 h
    cases h
    rfl
  | save =>
    obtain ⟨source, -, h⟩ := Option.bind_eq_some_iff.1 h
    obtain ⟨path?, -, h⟩ := Option.bind_eq_some_iff.1 h
    obtain ⟨path, -, h⟩ := Option.bind_eq_some_iff.1 h
    cases h
    rfl
  | presets =>
    cases h
    rfl

/-- **A command is asked for by its name,** or it is a dialogue and there is no name. -/
theorem ofArguments?_cases {arguments : List Text} (h : ofArguments? arguments = some command) :
    (arguments = [] ∨ arguments = ["--".toList]) ∧ command = interactive none ∨
      arguments.head? = some command.verb.name := by
  cases arguments with
  | nil =>
    cases h
    exact .inl ⟨.inl rfl, rfl⟩
  | cons name rest =>
    -- two dashes alone are as good as no arguments
    by_cases hending : name = ['-', '-'] ∧ rest = []
    · obtain ⟨rfl, rfl⟩ := hending
      cases h
      exact .inl ⟨.inr rfl, rfl⟩
    · rw [ofArguments?, if_neg hending] at h
      obtain ⟨v, hname, h⟩ := Option.bind_eq_some_iff.1 h
      obtain ⟨settings, -, h⟩ := Option.bind_eq_some_iff.1 h
      have hfound : v.name = name := by simpa using List.find?_some hname
      rw [List.head?_cons, verb_of_ofSettings? h, hfound]
      exact .inr rfl

/-- **Commands leave no traces.**  If a command fails, the files are as they were, and nothing has
    been printed unless the arguments ask for a dialogue.  If it succeeds, the files are as they
    were, too, unless it has saved a grammar to a file: then the content of that file is the text of
    the grammar that the arguments mean, whatever it was before, and no other file has changed.
    What is saved to a device is not kept. -/
theorem leaves_no_trace (color : Bool) (folder : Folder) (input : List UInt8)
    (arguments : List Text) :
    let after := runArguments color folder input arguments
    (after.status ≠ .success → after.folder = folder ∧
      (after.output ≠ [] → arguments = [] ∨ arguments = ["--".toList] ∨
        arguments.head? = some "interactive".toList)) ∧
    (after.status = .success →
      (arguments.head? = some "save".toList ∧ ∃ source path place g,
        ofArguments? arguments = some (task (.save source path)) ∧
        source.resolve (folder.open input) = .ok g ∧ Path.target path = .ok (.file place) ∧
        after.folder.content? place = some (Text.toBytes g.file) ∧
        ∀ other ≠ place, after.folder.content? other = folder.content? other) ∨
      after.folder = folder ∧ ∀ source path,
        ofArguments? arguments = some (task (.save source path)) →
        ∃ device, Path.target path = .ok (.device device)) := by
  intro after
  cases hcommand : ofArguments? arguments with
  | none =>
    have hafter : after = { status := .usage, output := [], folder } := by
      simp only [after, runArguments, hcommand]
    rw [hafter]
    exact ⟨fun _ => ⟨rfl, fun h => absurd rfl h⟩, fun h => nomatch h⟩
  | some command =>
    have hafter : after = command.run color folder input := by
      simp only [after, runArguments, hcommand]
    rw [hafter]
    have hname := ofArguments?_cases hcommand
    constructor
    · intro hstatus
      obtain ⟨hfolder, houtput⟩ := run_of_failure hstatus
      refine ⟨hfolder, fun hprinted => ?_⟩
      -- only a dialogue prints before it fails
      cases command with
      | task t => exact absurd (houtput fun _ => nofun) hprinted
      | interactive limit =>
        obtain ⟨hnone | hending, -⟩ | hhead := hname
        · exact .inl hnone
        · exact .inr (.inl hending)
        · exact .inr (.inr hhead)
    · intro hstatus
      obtain ⟨hsave, hfolder⟩ | ⟨source, path, g, written, rfl, hresolve, hwrite, hfolder⟩ :=
        run_of_success hstatus
      · refine .inr ⟨hfolder, fun source path h => ?_⟩
        exact absurd (Option.some.inj h) (hsave source path)
      · rw [hfolder]
        obtain ⟨place, htarget, hwritten⟩ | ⟨device, htarget, hwritten⟩ := Folder.write_cases hwrite
        · obtain ⟨-, hdialogue⟩ | hhead := hname
          · cases hdialogue
          · refine .inl ⟨hhead, source, path, place, g, rfl, hresolve, htarget, ?_, ?_⟩
            · rw [hwritten, Folder.content?_put, if_pos rfl]
            · intro other hother
              rw [hwritten, Folder.content?_put, if_neg hother]
        · refine .inr ⟨hwritten, fun source' path' h => ?_⟩
          cases h
          exact ⟨device, htarget⟩

/-- A folder with a file that is longer than what is going to be saved there, and another file. -/
def cluttered : Folder where
  files := [("old.json".toList, List.replicate 200 0x20), ("other.json".toList, [0x7B])]

/-- Arguments to save a start word to the longer file. -/
def overwriting : List Text :=
  ["save".toList, "-a".toList, "A".toList, "-o".toList, "old.json".toList]

/-- All of the old file is replaced, and the other one stays.  With an empty rule behind the other
    arguments both stay. -/
theorem leaves_no_trace_cluttered :
    (runArguments false cluttered [] overwriting).status = .success ∧
    (runArguments false cluttered [] overwriting).folder.content? "old.json".toList
      = some (Text.toBytes
        "\x7b\n  \"angle\": 0.0,\n  \"axiom\": \"A\",\n  \"rules\": \x7b\x7d\n\x7d\n".toList) ∧
    (runArguments false cluttered [] overwriting).folder.content? "other.json".toList
      = some [0x7B] ∧
    (runArguments false cluttered [] (overwriting ++ ["-r".toList, []])).status
      = .failure (.failed .emptyRule) ∧
    (runArguments false cluttered [] (overwriting ++ ["-r".toList, []])).folder = cluttered := by
  have hsaved : (runArguments false cluttered [] overwriting).status = .success := by
    decide +kernel
  have hfailed : (runArguments false cluttered [] (overwriting ++ ["-r".toList, []])).status
      = .failure (.failed .emptyRule) := by decide +kernel
  have hcommand : ofArguments? overwriting
      = some (task (.save ⟨none, none, some "A".toList, [], none⟩ "old.json".toList)) := by
    decide +kernel
  have hgrammar : Source.resolve (cluttered.open []) ⟨none, none, some "A".toList, [], none⟩
      = .ok { angle := .zero, start := "A".toList, scheme := .empty } := rfl
  have hplace : Path.target "old.json".toList = .ok (.file "old.json".toList) := rfl
  have htext : Grammar.file { angle := .zero, start := "A".toList, scheme := .empty }
      = "\x7b\n  \"angle\": 0.0,\n  \"axiom\": \"A\",\n  \"rules\": \x7b\x7d\n\x7d\n".toList := by
    decide +kernel
  have hkept := ((leaves_no_trace false cluttered [] (overwriting ++ ["-r".toList, []])).1
    (by rw [hfailed]; decide)).1
  -- the arguments tell the path, the path tells the place, and the grammar tells the text
  obtain ⟨-, source, path, place, g, hargs, hresolve, htarget, hcontent, hother⟩ | ⟨-, hdevice⟩ :=
    (leaves_no_trace false cluttered [] overwriting).2 hsaved
  · rw [hcommand] at hargs
    cases hargs
    obtain rfl := Except.ok.inj (hgrammar.symm.trans hresolve)
    obtain rfl := Target.file.inj (Except.ok.inj (hplace.symm.trans htarget))
    have hbytes := congrArg (some ∘ Text.toBytes) htext
    exact ⟨hsaved, hcontent.trans hbytes, hother "other.json".toList (by decide), hfailed, hkept⟩
  · obtain ⟨device, hnone⟩ := hdevice _ _ hcommand
    cases hnone

end Command

end D0L
