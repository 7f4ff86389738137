import D0L.Command

namespace D0L

/-!
# Arguments that set options

The options of a command are read off its arguments from left to right.  This file says which
options some arguments set wherever they stand, so that arguments can be taken apart and put
together, and given to another command.

* `Verb.Sets` — some arguments set some options of a command, and leave none without its value.
* `Verb.Sets.ofArguments?_append`, `Verb.exists_sets` — arguments in front of others.
* `Verb.Sets.transfer` — the arguments that say which grammar is meant do so for every command.
* `Verb.sets_attached` — every option can be set by one argument that holds its value, too.
* `Settings.parsed?_congr`, `Source.ofSettings?_congr` — what options come to depends on the values
  of a few of them only.
* `Command.ofArguments?_name` — a command by its name and the options behind it.
-/

open Argument

/-! ### One argument -/

namespace Argument

/-- The option that an argument sets, or that waits for a value. -/
def flag? : Argument → Option Flag
  | complete flag _ | pending flag => some flag
  | _ => none

/-- A long name is about its own option or is refused. -/
theorem flag?_ofLong (flag : Flag) (rest : Text) :
    (ofLong flag rest).flag? = some flag ∨ (ofLong flag rest).flag? = none := by
  unfold ofLong
  cases rest <;> dsimp only <;> split <;> simp [flag?]

/-- A letter is about its own option. -/
theorem flag?_ofLetter (flag : Flag) (rest : Text) : (ofLetter flag rest).flag? = some flag := by
  unfold ofLetter
  split <;> rfl

end Argument

namespace Verb

variable {v v' : Verb} {flag : Flag} {argument : Text}

/-- A search among the options of two commands has the same result if it ends at an option that says
    which grammar is meant. -/
theorem find?_flags_eq {p : Flag → Bool} (hv : sourceFlags <+: v.flags)
    (hv' : sourceFlags <+: v'.flags) (hflag : flag ∈ sourceFlags)
    (h : v.flags.find? p = some flag) : v'.flags.find? p = some flag := by
  obtain ⟨more, hmore⟩ := hv
  obtain ⟨more', hmore'⟩ := hv'
  -- an option behind the common ones would not be found before `flag`
  have hfound : sourceFlags.find? p = some flag := by
    rw [← hmore, List.find?_append] at h
    cases hfirst : sourceFlags.find? p with
    | none =>
      rw [hfirst, Option.none_or] at h
      exact absurd (List.find?_some h) (List.find?_eq_none.1 hfirst flag hflag)
    | some first =>
      rw [hfirst, Option.some_or] at h
      exact h
  rw [← hmore', List.find?_append, hfound, Option.some_or]

/-- An argument for an option that says which grammar is meant is the same to all commands that have
    such options. -/
theorem classify_eq (hv : sourceFlags <+: v.flags) (hv' : sourceFlags <+: v'.flags)
    (hflag : flag ∈ sourceFlags) (h : (classify v argument).flag? = some flag) :
    classify v' argument = classify v argument := by
  unfold classify at h ⊢
  -- a long name, with a value in it or without one
  split at h
  · cases h
  · rename_i long hlong
    split at h
    · rename_i found hfind
      have hfound : found = flag := by
        rcases flag?_ofLong found (long.dropWhile (· ≠ '=')) with hsome | hnone
        · rw [hsome] at h
          exact Option.some.inj h
        · rw [hnone] at h
          cases h
      subst hfound
      simp only [find?_flags_eq hv hv' hflag hfind]
    · cases h
  · -- a letter
    rename_i letter rest hletter _
    split at h
    · rename_i found hfind
      rw [flag?_ofLetter] at h
      obtain rfl := Option.some.inj h
      simp only [find?_flags_eq hv hv' hflag hfind]
    · cases h
  · cases h

/-- Whether an argument can be the value of an option about the source depends on the option, not on
    the command. -/
theorem isValue_eq (hflag : flag ∈ sourceFlags) (value : Text) :
    isValue v' flag value = isValue v flag value := by
  have hnegative : flag.takesNegative v' = flag.takesNegative v := by
    cases flag with
    | iterations => exact absurd hflag (by decide)
    | _ => rfl
  unfold isValue
  rw [hnegative]

/-- A command understands only its own options. -/
theorem mem_flags_of_flag? (h : (classify v argument).flag? = some flag) : flag ∈ v.flags := by
  unfold classify at h
  -- an option is looked for among those of the command only
  split at h
  · cases h
  · rename_i long _
    split at h
    · rename_i found hfind
      rcases flag?_ofLong found (long.dropWhile (· ≠ '=')) with hsome | hnone
      · rw [hsome] at h
        obtain rfl := Option.some.inj h
        exact List.mem_of_find?_eq_some hfind
      · rw [hnone] at h
        cases h
    · cases h
  · split at h
    · rename_i found hfind
      rw [flag?_ofLetter] at h
      obtain rfl := Option.some.inj h
      exact List.mem_of_find?_eq_some hfind
    · cases h
  · cases h

/-! ### Several arguments -/

/-- An argument with a value in it sets its option. -/
theorem ofArguments?_attached {value : Text} (h : classify v argument = complete flag value)
    (rest : List Text) :
    Settings.ofArguments? v (argument :: rest)
      = (Settings.ofArguments? v rest).map ((flag, value) :: ·) := by
  rw [Settings.ofArguments?]
  simp only [h]

/-- An option without a value takes the next argument for it, if that can be a value. -/
theorem ofArguments?_separate (h : classify v argument = pending flag) (value : Text)
    (rest : List Text) :
    Settings.ofArguments? v (argument :: value :: rest) =
      if isValue v flag value then (Settings.ofArguments? v rest).map ((flag, value) :: ·)
      else none := by
  rw [Settings.ofArguments?]
  simp only [h]

/-- Some arguments set these options of a command, in order, and leave none without its value. -/
inductive Sets (v : Verb) : List Text → Settings → Prop
  /-- No arguments. -/
  | nil : Sets v [] []
  /-- An argument that holds the value, too. -/
  | attached {argument : Text} {rest : List Text} {flag : Flag} {value : Text} {s : Settings}
      (hargument : classify v argument = complete flag value) (hrest : Sets v rest s) :
      Sets v (argument :: rest) ((flag, value) :: s)
  /-- An argument with the value behind it. -/
  | separate {argument value : Text} {rest : List Text} {flag : Flag} {s : Settings}
      (hargument : classify v argument = pending flag) (hvalue : isValue v flag value = true)
      (hrest : Sets v rest s) : Sets v (argument :: value :: rest) ((flag, value) :: s)

namespace Sets

variable {arguments : List Text} {s : Settings}

/-- Whatever is set is an option of the command. -/
theorem mem_flags (h : Sets v arguments s) : ∀ setting ∈ s, setting.1 ∈ v.flags := by
  induction h with
  | nil => nofun
  | attached hargument _ ih | separate hargument _ _ ih =>
    exact List.forall_mem_cons.2 ⟨mem_flags_of_flag? (congrArg Argument.flag? hargument), ih⟩

/-- Options that are set in front of others come first. -/
theorem ofArguments?_append (h : Sets v arguments s) (rest : List Text) :
    Settings.ofArguments? v (arguments ++ rest)
      = (Settings.ofArguments? v rest).map (s ++ ·) := by
  induction h with
  | nil => exact (Option.map_id' (x := Settings.ofArguments? v rest)).symm
  | attached hargument _ ih =>
    rw [List.cons_append, ofArguments?_attached hargument, ih, Option.map_map]
    rfl
  | separate hargument hvalue _ ih =>
    rw [List.cons_append, List.cons_append, ofArguments?_separate hargument, if_pos hvalue, ih,
      Option.map_map]
    rfl

/-- **Arguments that set options are read so.** -/
theorem ofArguments?_eq (h : Sets v arguments s) : Settings.ofArguments? v arguments = some s := by
  have hnothing := h.ofArguments?_append []
  rwa [List.append_nil, Settings.ofArguments?, Option.map_some, List.append_nil] at hnothing

/-- **Saying which grammar is meant.**  Arguments that do nothing else do so for every command that
    has the options for it. -/
theorem transfer (hv : sourceFlags <+: v.flags) (hv' : sourceFlags <+: v'.flags)
    (h : Sets v arguments s) (hs : ∀ setting ∈ s, setting.1 ∈ sourceFlags) :
    Sets v' arguments s := by
  induction h with
  | nil => exact .nil
  | attached hargument _ ih =>
    obtain ⟨hflag, hrest⟩ := List.forall_mem_cons.1 hs
    refine .attached ?_ (ih hrest)
    rw [classify_eq hv hv' hflag (congrArg Argument.flag? hargument), hargument]
  | separate hargument hvalue _ ih =>
    obtain ⟨hflag, hrest⟩ := List.forall_mem_cons.1 hs
    refine .separate ?_ (by rw [isValue_eq hflag, hvalue]) (ih hrest)
    rw [classify_eq hv hv' hflag (congrArg Argument.flag? hargument), hargument]

end Sets

/-- **Arguments in front of others set options,** if the others begin with one that is no value. -/
theorem exists_sets {next : Text} (hnext : ∀ flag, isValue v flag next = false)
    {rest : List Text} : ∀ {front : List Text} {settings : Settings},
      Settings.ofArguments? v (front ++ next :: rest) = some settings →
      ∃ s t, Sets v front s ∧ Settings.ofArguments? v (next :: rest) = some t ∧ settings = s ++ t
  | [], settings, h => ⟨[], settings, .nil, h, rfl⟩
  | argument :: front, settings, h => by
    -- one argument is taken off, or two if the first one waits for its value
    rw [List.cons_append, Settings.ofArguments?] at h
    cases hargument : classify v argument with
    | unknown =>
      rw [hargument] at h
      cases h
    | ending =>
      -- nothing can stand behind two dashes, but there is `next` at least
      simp [hargument] at h
    | complete flag value =>
      simp only [hargument] at h
      obtain ⟨more, hmore, rfl⟩ := Option.map_eq_some_iff.1 h
      obtain ⟨s, t, hs, ht, rfl⟩ := exists_sets hnext hmore
      exact ⟨(flag, value) :: s, t, .attached hargument hs, ht, rfl⟩
    | pending flag =>
      simp only [hargument] at h
      cases front with
      | nil =>
        -- the value would be `next`
        simp [hnext] at h
      | cons value front =>
        rw [List.cons_append] at h
        dsimp only at h
        split at h
        · rename_i hvalue
          obtain ⟨more, hmore, rfl⟩ := Option.map_eq_some_iff.1 h
          obtain ⟨s, t, hs, ht, rfl⟩ := exists_sets hnext hmore
          exact ⟨(flag, value) :: s, t, .separate hargument hvalue hs, ht, rfl⟩
        · cases h

end Verb

/-! ### Arguments that hold their values -/

/-- An argument that sets an option, with the value behind an equals sign. -/
def Flag.setTo (flag : Flag) (value : Text) : Text := "--".toList ++ flag.name ++ '=' :: value

namespace Verb

variable {v : Verb} {flag : Flag}

/-- An option with a sign and its value behind it is complete. -/
theorem classify_setTo (hflag : flag ∈ v.flags) (hcsv : flag ≠ .csv) (value : Text) :
    classify v (flag.setTo value) = complete flag value := by
  -- the names of the options of a command are different, and there is no equals sign in them
  cases v <;> cases flag <;>
    first | rfl | exact absurd rfl hcsv | exact absurd hflag (by decide)

/-- Options can be set by arguments that hold their values, whatever these look like. -/
theorem sets_attached {s : Settings}
    (hs : ∀ setting ∈ s, setting.1 ∈ v.flags ∧ setting.1 ≠ .csv) :
    Sets v (s.map fun setting => setting.1.setTo setting.2) s := by
  induction s with
  | nil => exact .nil
  | cons setting s ih =>
    obtain ⟨⟨hflag, hcsv⟩, hrest⟩ := List.forall_mem_cons.1 hs
    exact .attached (classify_setTo hflag hcsv setting.2) (ih hrest)

end Verb

/-! ### What options come to -/

namespace Settings

variable {s t : Settings} {flag : Flag}

/-- Options that are set later have their values later. -/
theorem values_append (s t : Settings) (flag : Flag) :
    (s ++ t).values flag = s.values flag ++ t.values flag :=
  List.filterMap_append

/-- An option that is set several times in a row. -/
theorem values_map (set : Flag) (values : List Text) (flag : Flag) :
    Settings.values (values.map (set, ·)) flag = if set = flag then values else [] := by
  unfold Settings.values
  rw [List.filterMap_map]
  split
  · rename_i h
    have hall : (fun setting : Flag × Text => if setting.1 = flag then some setting.2 else none)
        ∘ (set, ·) = some := funext fun _ => if_pos h
    rw [hall, List.filterMap_some]
  · rename_i h
    exact List.filterMap_eq_nil_iff.2 fun _ _ => if_neg h

/-- An option without a value is not set. -/
theorem values_eq_nil_iff : s.values flag = [] ↔ ∀ setting ∈ s, setting.1 ≠ flag := by
  simp [values, List.filterMap_eq_nil_iff]

/-- Settings that do not have an option do not change its values. -/
theorem values_append_of_nil (h : t.values flag = []) :
    (s ++ t).values flag = s.values flag := by
  rw [values_append, h, List.append_nil]

/-- Whether an option is set twice depends on its values only. -/
theorem atMostOne_congr (h : s.values flag = t.values flag) :
    s.atMostOne flag = t.atMostOne flag := by
  unfold atMostOne
  rw [h]

/-- What is read from an option depends on its values only. -/
theorem parsed?_congr {α : Type} (h : s.values flag = t.values flag) (parse : Text → Option α) :
    s.parsed? flag parse = t.parsed? flag parse := by
  unfold parsed?
  rw [atMostOne_congr h]

/-- An option that is set at the end, and not set twice, is not set before. -/
theorem values_eq_nil_of_append {value : Text} {value? : Option Text} (ht : t.values flag = [value])
    (h : (s ++ t).atMostOne flag = some value?) : s.values flag = [] ∧ value? = some value := by
  rw [atMostOne, values_append, ht] at h
  cases hs : s.values flag with
  | nil =>
    rw [hs] at h
    exact ⟨rfl, (Option.some.inj h).symm⟩
  | cons first others =>
    rw [hs] at h
    cases others <;> cases h

/-- What an option that is set comes to. -/
theorem exists_of_parsed? {α : Type} {parse : Text → Option α} {a : α}
    (h : s.parsed? flag parse = some (some a)) :
    ∃ value, s.atMostOne flag = some (some value) ∧ parse value = some a := by
  obtain ⟨value?, hvalue, h⟩ := Option.bind_eq_some_iff.1 h
  cases value? with
  | none => cases h
  | some value =>
    obtain ⟨b, hparse, h⟩ := Option.bind_eq_some_iff.1 h
    cases h
    exact ⟨value, hvalue, hparse⟩

end Settings

/-- Only the options for it say which grammar is meant. -/
theorem Source.ofSettings?_congr {s t : Settings}
    (h : ∀ flag ∈ Verb.sourceFlags, s.values flag = t.values flag) :
    Source.ofSettings? s = Source.ofSettings? t := by
  unfold Source.ofSettings?
  rw [Settings.parsed?_congr (h .grammar (by decide)),
    Settings.atMostOne_congr (h .preset (by decide)),
    Settings.atMostOne_congr (h .start (by decide)),
    Settings.parsed?_congr (h .angle (by decide)), h .rule (by decide)]

/-- Options behind them that are for other purposes do not matter. -/
theorem Source.ofSettings?_append {s t : Settings}
    (h : ∀ flag ∈ Verb.sourceFlags, t.values flag = []) :
    Source.ofSettings? (s ++ t) = Source.ofSettings? s :=
  Source.ofSettings?_congr fun flag hflag => Settings.values_append_of_nil (h flag hflag)

/-- Options that only say which grammar is meant have no values for other purposes. -/
theorem Settings.values_eq_nil_of_source {s : Settings} {flag : Flag}
    (h : ∀ setting ∈ s, setting.1 ∈ Verb.sourceFlags) (hflag : flag ∉ Verb.sourceFlags) :
    s.values flag = [] := by
  refine Settings.values_eq_nil_iff.2 fun setting hsetting heq => ?_
  rw [← heq] at hflag
  exact hflag (h setting hsetting)

/-- An option for another purpose says nothing about which grammar is meant. -/
theorem Settings.values_cons_of_not_source {flag : Flag} (hflag : flag ∉ Verb.sourceFlags)
    (value : Text) {t : Settings} (ht : ∀ other ∈ Verb.sourceFlags, t.values other = []) :
    ∀ other ∈ Verb.sourceFlags, Settings.values ((flag, value) :: t) other = [] := by
  intro other hother
  have hne : flag ≠ other := by
    rintro rfl
    exact hflag hother
  exact Settings.values_eq_nil_iff.2
    (List.forall_mem_cons.2 ⟨hne, Settings.values_eq_nil_iff.1 (ht other hother)⟩)

/-- The name of a command stands in front of its options. -/
theorem Command.ofArguments?_name (v : Verb) (rest : List Text) :
    Command.ofArguments? (v.name :: rest)
      = (Settings.ofArguments? v rest).bind (Command.ofSettings? v) := by
  cases v <;> rfl

end D0L
