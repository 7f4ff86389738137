import D0L.Proofs.Command.Effects
import D0L.Proofs.Command.Options
import D0L.Proofs.EnteredRules
import D0L.Proofs.SavedGrammar

namespace D0L

/-!
# Sources that have been saved

A grammar that a command means can be saved to a file, and the file can be named from then on.
Expansions and reports come out the same, although the angle of the grammar need not: they do not
depend on it.

* `Aftermath.answer` — what is seen of a command: its status and its output.
* `Grammar.exists_reloaded` — what is loaded from a file that a grammar has been saved to.
* `Command.exists_sets_of_saving`, `Command.exists_written_of_save` — what has been asked for if a
  grammar has been saved, and what has been written.
* `Command.answer_expand`, `Command.answer_stats` — commands on two grammars that differ in their
  angles only.
* `Command.answer_of_sources` — the same for options, however the two grammars are meant.
* `Command.answers_from_saved` — the same for arguments, if one of the grammars is a saved one.
-/

open Argument

/-- What is seen of a command that does not look at the files. -/
def Aftermath.answer (a : Aftermath) : Status × Text := (a.status, a.output)

/-! ### Grammars in files -/

/-- The grammar in a file, with nothing on top. -/
def Source.ofFile (path : Text) : Source where
  grammar := some path
  preset := none
  start := none
  rules := []
  angle := none

/-- **A saved grammar is loaded again,** whatever is on the console.  Only its angle can be another
    one. -/
theorem Grammar.exists_reloaded {g : Grammar} (hangle : g.angle.isFinite = true) {folder : Folder}
    {path place : Text} {written : Written} (hpath : Path.target path = .ok (.file place))
    (hwrite : folder.write path g.file = .ok written) (input : List UInt8) :
    ∃ angle, (Source.ofFile path).resolve (written.folder.open input)
      = .ok (g.withAngle angle) := by
  obtain ⟨angle, hnumber⟩ := Json.Reader.exists_reads_number (ε := Event) hangle
  have hread : (Grammar.fromOpened path (written.folder.open input path)).outcome
      = .ok (g.withAngle angle) := by
    rw [outcome_fromOpened, Folder.open_write hpath hwrite]
    exact Document.outcome_read_file (Document.reads_grammar .indented g hnumber)
  refine ⟨angle, ?_⟩
  simp only [Source.resolve, Source.base, Source.ofFile, hread]
  rfl

namespace Command

variable {color : Bool} {folder folder' : Folder} {input later : List UInt8}

/-- The grammar that some arguments mean, if they ask for a task on one. -/
def grammar? (folder : Folder) (input : List UInt8) (arguments : List Text) : Option Grammar :=
  match ofArguments? arguments with
  | some (task t) => t.source?.bind fun source => (source.resolve (folder.open input)).toOption
  | _ => none

/-- Arguments to save a grammar to a path.  What stands in the middle says which grammar. -/
def saving (source : List Text) (path : Text) : List Text :=
  Verb.save.name :: (source ++ ["--output".toList, path])

/-! ### The grammar that has been saved -/

/-- The option for the file cannot be taken for the value of another one. -/
theorem isValue_output (flag : Flag) : isValue .save flag "--output".toList = false := rfl

/-- A command that saves a grammar and succeeds has resolved and written it. -/
theorem exists_written_of_save {meant : Source} {path : Text}
    (h : ((task (.save meant path)).run color folder input).status = .success) :
    ∃ g written, meant.resolve (folder.open input) = .ok g ∧
      folder.write path g.file = .ok written ∧
      ((task (.save meant path)).run color folder input).folder = written.folder := by
  obtain ⟨hsave, -⟩ | ⟨source, path', g, written, hcommand, hresolve, hwrite, hfolder⟩ :=
    run_of_success h
  · exact absurd rfl (hsave meant path)
  · cases hcommand
    exact ⟨g, written, hresolve, hwrite, hfolder⟩

/-- The options of a command that saves a grammar, if the path is the last of them. -/
theorem exists_of_ofSettings?_save {s : Settings} {path : Text} {command : Command}
    (h : ofSettings? .save (s ++ [(.output, path)]) = some command) :
    ∃ meant, Source.ofSettings? s = some meant ∧ s.values .output = [] ∧ path ≠ [] ∧
      command = task (.save meant path) := by
  -- the source, the path as an option that can be missing, and the path itself
  obtain ⟨meant, hmeant, h⟩ := Option.bind_eq_some_iff.1 h
  obtain ⟨path?, hparsed, h⟩ := Option.bind_eq_some_iff.1 h
  obtain ⟨written, rfl, h⟩ := Option.bind_eq_some_iff.1 h
  obtain ⟨value, hone, hparse⟩ := Settings.exists_of_parsed? hparsed
  obtain ⟨hbefore, hvalue⟩ := Settings.values_eq_nil_of_append rfl hone
  obtain rfl := Option.some.inj hvalue
  have hne : value ≠ [] := by
    intro hnil
    simp [Settings.path?, hnil] at hparse
  obtain rfl : value = written := by simpa [Settings.path?, hne] using hparse
  refine ⟨meant, ?_, hbefore, hne, (Option.some.inj h).symm⟩
  have houtput : Flag.output ∉ Verb.sourceFlags := by decide
  rw [← hmeant]
  exact (Source.ofSettings?_append
    (Settings.values_cons_of_not_source houtput value fun _ _ => rfl)).symm

/-- The arguments between the name of the command and the path say which grammar is to be saved, and
    nothing else. -/
theorem exists_sets_of_saving {source : List Text} {path : Text} {command : Command}
    (h : ofArguments? (saving source path) = some command) :
    ∃ s meant, Verb.Sets .save source s ∧ (∀ setting ∈ s, setting.1 ∈ Verb.sourceFlags) ∧
      Source.ofSettings? s = some meant ∧ isValue .save .output path = true ∧ path ≠ [] ∧
      command = task (.save meant path) := by
  rw [saving, ofArguments?_name] at h
  obtain ⟨settings, harguments, hsettings⟩ := Option.bind_eq_some_iff.1 h
  obtain ⟨s, t, hs, ht, rfl⟩ := Verb.exists_sets isValue_output harguments
  have hargument : classify .save "--output".toList = pending .output := rfl
  rw [Verb.ofArguments?_separate hargument] at ht
  split at ht
  · rename_i hvalue
    obtain rfl : [(Flag.output, path)] = t := Option.some.inj ht
    obtain ⟨meant, hmeant, hbefore, hne, hcommand⟩ := exists_of_ofSettings?_save hsettings
    refine ⟨s, meant, hs, ?_, hmeant, hvalue, hne, hcommand⟩
    -- the only option of this command that is for another purpose is not set before the path
    intro setting hsetting
    have hflag := hs.mem_flags setting hsetting
    have hother := Settings.values_eq_nil_iff.1 hbefore setting hsetting
    simpa [Verb.flags, hother] using hflag
  · cases ht

/-! ### Commands on two grammars -/

section TwoGrammars

variable {meant meant' : Source} {g : Grammar} {angle : Binary64}

/-- Tasks with the same work have the same answer, if nothing is to be saved. -/
theorem answer_run_of_work {t t' : Task}
    (h : t'.work color (folder'.open later) = t.work color (folder.open input))
    (hsaved : ∀ done, t.work color (folder.open input) = .ok done → done.saved = none) :
    ((task t').run color folder' later).answer = ((task t).run color folder input).answer := by
  cases hwork : t.work color (folder.open input) with
  | error failure =>
    rw [run_task_of_error hwork, run_task_of_error (h.trans hwork)]
    rfl
  | ok done =>
    rw [run_task_of_ok hwork, run_task_of_ok (h.trans hwork),
      carryOut_of_nothing (hsaved done hwork), carryOut_of_nothing (hsaved done hwork)]
    rfl

/-- Only saving saves. -/
theorem saved_eq_none {t : Task} (ht : ∀ source path, t ≠ .save source path) {done : Work}
    {opener : Text → Except FileFault Opened} (h : t.work color opener = .ok done) :
    done.saved = none := by
  obtain ⟨hnone, -⟩ | ⟨source, path, _, hsave, -⟩ := Task.saved_cases h
  · exact hnone
  · exact absurd hsave (ht source path)

/-- **Expanding does not need the angle.** -/
theorem answer_expand (hg : meant.resolve (folder.open input) = .ok g)
    (hg' : meant'.resolve (folder'.open later) = .ok (g.withAngle angle)) (count : Int)
    (limit : Option Nat) :
    ((task (.expand meant' count limit)).run color folder' later).answer
      = ((task (.expand meant count limit)).run color folder input).answer := by
  refine answer_run_of_work ?_ fun done hdone => saved_eq_none (by nofun) hdone
  -- only the start word and the scheme are expanded
  have hsame : (g.withAngle angle).expandCount limit count = g.expandCount limit count := by
    cases count <;> rfl
  rw [Task.work_expand hg, Task.work_expand hg', hsame]

/-- **Neither does a report.** -/
theorem answer_stats (hg : meant.resolve (folder.open input) = .ok g)
    (hg' : meant'.resolve (folder'.open later) = .ok (g.withAngle angle)) (count : Nat)
    (csv : Bool) :
    ((task (.stats meant' count csv)).run color folder' later).answer
      = ((task (.stats meant count csv)).run color folder input).answer := by
  refine answer_run_of_work ?_ fun done hdone => saved_eq_none (by nofun) hdone
  rw [Task.work_stats hg, Task.work_stats hg']
  rfl

/-- **Options for two grammars** that differ in their angles lead to the same answers if the other
    options are the same. -/
theorem answer_of_sources {v : Verb} (hv : v = .expand ∨ v = .stats) {s s' : Settings}
    (hs : Source.ofSettings? s = some meant) (hs' : Source.ofSettings? s' = some meant')
    (hothers : ∀ flag ∉ Verb.sourceFlags, s'.values flag = s.values flag)
    (hg : meant.resolve (folder.open input) = .ok g)
    (hg' : meant'.resolve (folder'.open later) = .ok (g.withAngle angle)) :
    (ofSettings? v s').map (fun command => (command.run color folder' later).answer)
      = (ofSettings? v s).map fun command => (command.run color folder input).answer := by
  -- all options but those about the source are the same, so they are read alike
  obtain rfl | rfl := hv
  · simp only [ofSettings?, hs, hs', Settings.parsed?_congr (hothers .iterations (by decide)),
      Settings.parsed?_congr (hothers .maxLength (by decide))]
    cases s.parsed? .iterations Numeral.signed? with
    | none => rfl
    | some count? =>
      cases count? with
      | none => rfl
      | some count =>
        cases s.parsed? .maxLength Numeral.word? with
        | none => rfl
        -- then both do the same task
        | some limit => exact congrArg some (answer_expand hg hg' count limit)
  · simp only [ofSettings?, hs, hs', Settings.parsed?_congr (hothers .iterations (by decide)),
      Settings.atMostOne_congr (hothers .csv (by decide))]
    cases s.parsed? .iterations Numeral.word? with
    | none => rfl
    | some count? =>
      cases count? with
      | none => rfl
      | some count =>
        cases s.atMostOne .csv with
        | none => rfl
        | some csv => exact congrArg some (answer_stats hg hg' count csv.isSome)

end TwoGrammars

/-! ### Arguments -/

/-- What is answered depends on the command that the arguments ask for. -/
theorem answer_runArguments (arguments : List Text) :
    (runArguments color folder input arguments).answer =
      ((ofArguments? arguments).map fun command => (command.run color folder input).answer).getD
        (.usage, []) := by
  unfold runArguments
  cases ofArguments? arguments <;> rfl

/-- Some options in front of others, for a command of this name. -/
theorem answer_of_sets {v : Verb} {front : List Text} {s : Settings} (hs : Verb.Sets v front s)
    (options : List Text) :
    (runArguments color folder input (v.name :: (front ++ options))).answer =
      ((Settings.ofArguments? v options).bind fun t =>
        (ofSettings? v (s ++ t)).map fun command => (command.run color folder input).answer).getD
          (.usage, []) := by
  rw [answer_runArguments, ofArguments?_name, hs.ofArguments?_append, Option.map_bind,
    Option.bind_map]
  rfl

/-- A path behind its option names a file, if the path could be given to be saved to. -/
theorem sets_naming {v : Verb} (hv : v = .expand ∨ v = .stats) {path : Text}
    (hvalue : isValue .save .output path = true) :
    Verb.Sets v ["--system".toList, path] [(.grammar, path)] := by
  obtain rfl | rfl := hv
  · exact .separate rfl hvalue .nil
  · exact .separate rfl hvalue .nil

/-- A path alone means the grammar in the file. -/
theorem ofSettings?_naming {path : Text} (h : path ≠ []) :
    Source.ofSettings? [(.grammar, path)] = some (Source.ofFile path) := by
  have hpath : Settings.path? path = some path := if_neg h
  simp [Source.ofSettings?, Settings.parsed?, Settings.atMostOne, Settings.values, hpath,
    Source.ofFile]

/-- Options that say nothing about which grammar is meant. -/
def KeepsSource (v : Verb) (options : List Text) : Prop :=
  ∀ t, Settings.ofArguments? v options = some t → ∀ flag ∈ Verb.sourceFlags, t.values flag = []

section KeepsSource

variable {v : Verb} {flag : Flag} {argument : Text} {rest : List Text}

/-- No arguments set nothing about the source. -/
theorem keepsSource_nil : KeepsSource v [] := by
  intro t ht flag _
  obtain rfl : [] = t := Option.some.inj ht
  rfl

/-- An option that is not about the source, with its value behind it, sets nothing about the source.
    -/
theorem keepsSource_separate (hargument : classify v argument = pending flag)
    (hflag : flag ∉ Verb.sourceFlags) (value : Text) (hrest : KeepsSource v rest) :
    KeepsSource v (argument :: value :: rest) := by
  intro t ht
  rw [Verb.ofArguments?_separate hargument] at ht
  split at ht
  · obtain ⟨more, hmore, rfl⟩ := Option.map_eq_some_iff.1 ht
    exact Settings.values_cons_of_not_source hflag value (hrest more hmore)
  · cases ht

/-- An option that is not about the source, with its value in it, sets nothing about the source. -/
theorem keepsSource_attached {value : Text} (hargument : classify v argument = complete flag value)
    (hflag : flag ∉ Verb.sourceFlags) (hrest : KeepsSource v rest) :
    KeepsSource v (argument :: rest) := by
  intro t ht
  rw [Verb.ofArguments?_attached hargument] at ht
  obtain ⟨more, hmore, rfl⟩ := Option.map_eq_some_iff.1 ht
  exact Settings.values_cons_of_not_source hflag value (hrest more hmore)

end KeepsSource

/-- **From a saved grammar come the same answers,** whatever the other options are. -/
theorem answer_from_saved {source : List Text} {path place : Text}
    (hpath : Path.target path = .ok (.file place))
    (hsaved : (runArguments color folder input (saving source path)).status = .success)
    (hangle : ∀ g, grammar? folder input (saving source path) = some g → g.angle.isFinite = true)
    (later : List UInt8) {v : Verb} (hv : v = .expand ∨ v = .stats) {options : List Text}
    (hoptions : KeepsSource v options) :
    (runArguments color (runArguments color folder input (saving source path)).folder later
        (v.name :: (["--system".toList, path] ++ options))).answer
      = (runArguments color folder input (v.name :: (source ++ options))).answer := by
  cases hcommand : ofArguments? (saving source path) with
  | none => simp [runArguments, hcommand] at hsaved
  | some command =>
    obtain ⟨s, meant, hs, hflags, hmeant, hvalue, hne, rfl⟩ := exists_sets_of_saving hcommand
    have hrun : runArguments color folder input (saving source path)
        = (task (.save meant path)).run color folder input := by
      simp only [runArguments, hcommand]
    rw [hrun] at hsaved ⊢
    obtain ⟨g, written, hresolve, hwrite, hfolder⟩ := exists_written_of_save hsaved
    have hgrammar : grammar? folder input (saving source path) = some g := by
      simp only [grammar?, hcommand, Task.source?, Option.bind_some, hresolve]
      rfl
    obtain ⟨angle, hreloaded⟩ := Grammar.exists_reloaded (hangle g hgrammar) hpath hwrite later
    rw [← hfolder] at hreloaded
    -- the arguments mean the same to the later command
    have hprefix : Verb.sourceFlags <+: v.flags := by
      obtain rfl | rfl := hv <;> exact List.prefix_append ..
    have hs' := hs.transfer (List.prefix_append ..) hprefix hflags
    rw [answer_of_sets (sets_naming hv hvalue), answer_of_sets hs']
    -- both commands read the same options behind those for the source
    congr 1
    refine Option.bind_congr fun t ht => ?_
    have hnone := hoptions t ht
    refine answer_of_sources hv ?_ ?_ ?_ hresolve hreloaded
    · rw [Source.ofSettings?_append hnone, hmeant]
    · rw [Source.ofSettings?_append hnone, ofSettings?_naming hne]
    · intro flag hflag
      have hfile : ∀ setting ∈ [(Flag.grammar, path)], setting.1 ∈ Verb.sourceFlags :=
        List.forall_mem_singleton.2 (List.mem_cons_self ..)
      rw [Settings.values_append, Settings.values_append,
        Settings.values_eq_nil_of_source hflags hflag, Settings.values_eq_nil_of_source hfile hflag]

/-- **Saved sources.**  If a grammar has been saved to a file and its angle is a finite number, then
    the file can take the place of what the grammar was made from.  Expansions and reports have the
    same status, the same failure and the same output, whether their other options are sound or not,
    and even if the grammar was made from that file. -/
theorem answers_from_saved {source : List Text} {path place : Text}
    (hpath : Path.target path = .ok (.file place))
    (hsaved : (runArguments color folder input (saving source path)).status = .success)
    (hangle : ∀ g, grammar? folder input (saving source path) = some g → g.angle.isFinite = true)
    (later : List UInt8) (count limit : Text) :
    let after := (runArguments color folder input (saving source path)).folder
    (∀ options ∈ [["-n".toList, count], ["-n".toList, count, "--max-length".toList, limit]],
      (runArguments color after later
          ("expand".toList :: (["--system".toList, path] ++ options))).answer
        = (runArguments color folder input ("expand".toList :: (source ++ options))).answer) ∧
    ∀ options ∈ [["-n".toList, count], ["-n".toList, count, "--csv".toList]],
      (runArguments color after later
          ("stats".toList :: (["--system".toList, path] ++ options))).answer
        = (runArguments color folder input ("stats".toList :: (source ++ options))).answer := by
  intro after
  -- the options that are allowed here are about the task, not about the source
  have hiterations : Flag.iterations ∉ Verb.sourceFlags := by decide
  have hmaxLength : Flag.maxLength ∉ Verb.sourceFlags := by decide
  have hcsv : Flag.csv ∉ Verb.sourceFlags := by decide
  constructor
  · intro options hmem
    refine answer_from_saved hpath hsaved hangle later (.inl rfl) ?_
    simp only [List.mem_cons, List.not_mem_nil, or_false] at hmem
    obtain rfl | rfl := hmem
    · exact keepsSource_separate rfl hiterations count keepsSource_nil
    · exact keepsSource_separate rfl hiterations count
        (keepsSource_separate rfl hmaxLength limit keepsSource_nil)
  · intro options hmem
    refine answer_from_saved hpath hsaved hangle later (.inr rfl) ?_
    simp only [List.mem_cons, List.not_mem_nil, or_false] at hmem
    obtain rfl | rfl := hmem
    · exact keepsSource_separate rfl hiterations count keepsSource_nil
    · exact keepsSource_separate rfl hiterations count
        (keepsSource_attached rfl hcsv keepsSource_nil)

/-- A folder with a grammar. -/
def stored : Folder where
  files := [("g.json".toList, Text.toBytes
    "\x7b\"angle\": 22.5, \"axiom\": \"F+F\", \"rules\": \x7b\"F\": \"FF\"\x7d\x7d".toList)]

/-- The grammar with another rule, to be saved in the same file. -/
def amending : List Text := ["--system".toList, "g.json".toList, "-r".toList, "FF-".toList]

/-- A preset with another rule and another angle comes back from a file. -/
theorem answers_from_amended :
    Path.target "g.json".toList = .ok (.file "g.json".toList) ∧
    (runArguments false stored [] (saving amending "g.json".toList)).status = .success ∧
    (grammar? stored [] (saving amending "g.json".toList)).map (fun g => g.angle.isFinite)
      = some true ∧
    (runArguments false (runArguments false stored [] (saving amending "g.json".toList)).folder []
        ["expand".toList, "--system".toList, "g.json".toList, "-n".toList, ['1']]).answer
      = (.success, "Resulting characters after 1 expansions: F-+F-\n".toList) := by
  have hpath : Path.target "g.json".toList = .ok (.file "g.json".toList) := rfl
  have hsaved : (runArguments false stored [] (saving amending "g.json".toList)).status
      = .success := by decide +kernel
  have hangle : (grammar? stored [] (saving amending "g.json".toList)).map
      (fun g => g.angle.isFinite) = some true := by decide +kernel
  refine ⟨hpath, hsaved, hangle, ?_⟩
  -- the grammar that is saved can be computed, and so can its angle
  have hfinite (g : Grammar) (hg : grammar? stored [] (saving amending "g.json".toList) = some g) :
      g.angle.isFinite = true := by
    rw [hg] at hangle
    exact Option.some.inj hangle
  have hsame := (answers_from_saved hpath hsaved hfinite [] ['1'] []).1 ["-n".toList, ['1']]
    (by simp)
  exact hsame.trans (by decide +kernel)

/-- Arguments to save a start word to the null device. -/
def discarding : List Text := saving ["-a".toList, ['A']] "/dev/null".toList

/-- The null device takes all that is saved to it, but no grammar can be loaded from there. -/
theorem null_device_forgets :
    (runArguments false .empty [] discarding).status = .success ∧
    (grammar? .empty [] discarding).map (fun g => g.angle.isFinite) = some true ∧
    (runArguments false (runArguments false .empty [] discarding).folder []
        ["expand".toList, "--system".toList, "/dev/null".toList, "-n".toList, ['0']]).answer
      = (.failure (.cannotLoad "/dev/null".toList (.document .cutShort)), []) ∧
    (runArguments false .empty []
        ["expand".toList, "-a".toList, ['A'], "-n".toList, ['0']]).answer
      = (.success, "Resulting characters after 0 expansions: A\n".toList) := by
  decide +kernel

end Command

end D0L
