import D0L.Derivation

namespace D0L

/-!
# Definitions that come one after the other

Productions are defined in order, and a symbol can be defined more than once.  This file says what
comes of that without following the scheme from one definition to the next: which successor a symbol
has in the end, and what is reported on the way.

* `latest?` — the successor in the last production of a symbol; `Scheme.get?_collect` says that this
  one stays, so that all successors are those of productions (`Scheme.exists_of_get?_collect`).
* `Event.Record` — an event as it is reported: level, message and particulars.
* `reports` — what some productions are reported with; `Scheme.events_collect` says that this is all
  that is reported.
-/

/-- The successor that the last production of a symbol gives to it. -/
def latest? (ps : List Production) (s : Symbol) : Option Word :=
  (ps.reverse.find? fun p => p.symbol = s).map Production.successor

variable {ps earlier : List Production} {p : Production} {s : Symbol}

/-- The first production counts only if none behind it is about the symbol. -/
theorem latest?_cons (p : Production) (ps : List Production) (s : Symbol) :
    latest? (p :: ps) s = (latest? ps s).or (if s = p.symbol then some p.successor else none) := by
  rw [latest?, latest?, List.reverse_cons, List.find?_append, Option.map_or]
  by_cases h : s = p.symbol
  · simp [h]
  · simp [h, Ne.symm h]

/-- The last production counts before all others. -/
theorem latest?_concat (ps : List Production) (p : Production) (s : Symbol) :
    latest? (ps ++ [p]) s = if s = p.symbol then some p.successor else latest? ps s := by
  rw [latest?, List.reverse_concat, List.find?_cons]
  by_cases h : s = p.symbol
  · simp [h]
  · simp [h, Ne.symm h, latest?]

/-- A symbol has a last production if it has any. -/
theorem isSome_latest?_iff (ps : List Production) (s : Symbol) :
    (latest? ps s).isSome ↔ s ∈ ps.map Production.symbol := by
  induction ps with
  | nil => simp [latest?]
  | cons p ps ih =>
    rw [latest?_cons, Option.isSome_or, Bool.or_eq_true, ih, List.map_cons, List.mem_cons]
    by_cases h : s = p.symbol <;> simp [h]

/-- Only the productions of a symbol itself matter for its last one. -/
theorem latest?_eq_getLast?_filter (ps : List Production) (s : Symbol) :
    latest? ps s = (ps.filter fun p => p.symbol = s).getLast?.map Production.successor := by
  rw [latest?, ← List.head?_filter, List.filter_reverse, List.head?_reverse]

/-! ### Reports -/

/-- An event as it is reported: how much it matters, what happened, and the particulars. -/
abbrev Event.Record := Level × Text × List (Text × Text)

/-- The report of an event. -/
def Event.record (e : Event) : Event.Record := (e.level, e.message, e.details)

/-- What the definition of a production is reported with, behind the definitions of `earlier`
    ones. -/
def reportsOf (earlier : List Production) (p : Production) : List Event.Record :=
  (if p.symbol.isLetter then [] else
    [(.warn, "rule for a non-alphabetic symbol will never be applied".toList,
      [("symbol".toList, [p.symbol])])])
  ++ (.trace, "defining rule".toList,
      [("symbol".toList, [p.symbol]), ("replacement".toList, p.successor)])
  :: ((latest? earlier p.symbol).map fun previous =>
      (.warn, "rule redefined, keeping the later definition".toList,
        [("symbol".toList, [p.symbol]), ("previous".toList, previous)])).toList

/-- What the definitions of some productions are reported with, behind those of `earlier` ones. -/
def reports (earlier : List Production) : List Production → List Event.Record
  | [] => []
  | p :: ps => reportsOf earlier p ++ reports (earlier ++ [p]) ps

namespace Scheme

variable {scheme : Scheme}

/-! ### Successors -/

/-- A symbol keeps its successor, unless it is defined again. -/
theorem get?_extend (scheme : Scheme) (ps : List Production) (s : Symbol) :
    (scheme.extend ps).value.get? s = (latest? ps s).or (scheme.get? s) := by
  induction ps generalizing scheme with
  | nil => rfl
  | cons p ps ih =>
    rw [extend_cons, Traced.value_bind, ih, value_add, get?_set, latest?_cons, Option.or_assoc]
    by_cases h : s = p.symbol <;> simp [h]

/-- **The last definition stays.** -/
theorem get?_collect (ps : List Production) (s : Symbol) :
    (collect ps).value.get? s = latest? ps s := by
  rw [collect, get?_extend, get?_empty, Option.or_none]

/-- The successors of a scheme are those of the productions that it is collected from. -/
theorem exists_of_get?_collect {w : Word} (h : (collect ps).value.get? s = some w) :
    ∃ p ∈ ps, p.successor = w := by
  rw [get?_collect, latest?] at h
  obtain ⟨p, hp, rfl⟩ := Option.map_eq_some_iff.1 h
  exact ⟨p, List.mem_reverse.1 (List.mem_of_find?_eq_some hp), rfl⟩

/-- A symbol that stands in no definition comes up in no generation, unless it is there from the
    start. -/
theorem not_mem_derive_collect {c : Symbol} {start : Word} (hstart : c ∉ start)
    (hps : ∀ p ∈ ps, c ∉ p.successor) (n : Nat) : c ∉ (collect ps).value.derive n start := by
  have hscheme : ∀ t w, (collect ps).value.get? t = some w → ∀ d ∈ w, d ≠ c := by
    rintro t w hget d hd rfl
    obtain ⟨p, hp, rfl⟩ := exists_of_get?_collect hget
    exact hps p hp hd
  have hword : ∀ d ∈ start, d ≠ c := by
    rintro d hd rfl
    exact hstart hd
  exact fun hmem => forall_mem_derive hscheme n hword c hmem rfl

/-! ### Events -/

/-- Adding a production is reported with the successor that the productions before it left. -/
theorem events_add (h : scheme.get? p.symbol = latest? earlier p.symbol) :
    (scheme.add p).events.map Event.record = reportsOf earlier p := by
  have hevents : (scheme.add p).events
      = definitionEvents p.symbol p.successor (latest? earlier p.symbol) := by
    rw [← h]
    exact List.append_nil _
  rw [hevents, definitionEvents, reportsOf, List.map_append, List.map_cons]
  cases latest? earlier p.symbol <;> cases p.symbol.isLetter <;> rfl

/-- Definitions behind others, whose successors the scheme has. -/
theorem events_extend (h : ∀ s, scheme.get? s = latest? earlier s) (ps : List Production) :
    (scheme.extend ps).events.map Event.record = reports earlier ps := by
  -- `earlier` grows with the scheme, so that each report finds the latest successor there
  induction ps generalizing scheme earlier with
  | nil => rfl
  | cons p ps ih =>
    have hnext : ∀ s, (scheme.add p).value.get? s = latest? (earlier ++ [p]) s := fun s => by
      rw [value_add, get?_set, latest?_concat, h]
    rw [extend_cons, Traced.events_bind, List.map_append, events_add (h p.symbol), ih hnext]
    rfl

/-- **What is reported about productions.**  In their order, each one is reported if its symbol is a
    mark, then as a definition, and then as a redefinition if there is an earlier production of its
    symbol, with the successor in the last of these. -/
theorem events_collect (ps : List Production) :
    (collect ps).events.map Event.record = reports [] ps :=
  events_extend (fun _ => rfl) ps

end Scheme

end D0L
