import D0L.Document
import D0L.Proofs.CollectedRules
import D0L.Proofs.Definitions
import D0L.Proofs.Histories
import Mathlib

namespace D0L

/-!
# Schemes after any number of operations

A scheme can be built in many steps: single definitions, many at once, and new beginnings.  Whatever
has been done to it, it is the scheme of the productions that have been defined since the last new
beginning, and of these only the last one of each symbol counts.

* `Scheme.Operation`, `Scheme.perform` — what can be done to a scheme.
* `Scheme.definitions` — the productions since the last new beginning; `Scheme.built_eq_collect`
  says that these are what a scheme is built from.
* `Scheme.mem_productions_iff`, `Scheme.size_collect`, `Scheme.isGreatest_longest` — what can be
  seen of a scheme.
* `Scheme.keeps_last_definitions` — all together, and what does not depend on the order.
-/

namespace Scheme

variable {ps : List Production}

/-! ### Operations -/

/-- What can be done to a scheme. -/
inductive Operation where
  /-- To define the successor of a symbol. -/
  | define (s : Symbol) (successor : Word)
  /-- To add one production. -/
  | add (p : Production)
  /-- To add productions in order. -/
  | extend (ps : List Production)
  /-- To begin anew, with some productions. -/
  | collect (ps : List Production)

/-- Does an operation.  Where one successor is defined, the answer is the one before it. -/
def perform : Operation → Scheme → Traced (Option Word × Scheme)
  | .define symbol successor, scheme => scheme.define { symbol, successor }
  | .add p, scheme => scheme.define p
  | .extend ps, scheme => (none, ·) <$> scheme.extend ps
  | .collect ps, _ => (none, ·) <$> collect ps

/-- The answers to some operations on the empty scheme, one after the other. -/
def answers (ops : List Operation) : List (Traced (Option Word)) :=
  (Traced.history perform ops empty).1

/-- The scheme that some operations build from the empty one. -/
def built (ops : List Operation) : Scheme := (Traced.history perform ops empty).2

/-- The productions after an operation, given those before it. -/
def Operation.definitions (earlier : List Production) : Operation → List Production
  | .define symbol successor => earlier ++ [{ symbol, successor }]
  | .add p => earlier ++ [p]
  | .extend ps => earlier ++ ps
  | .collect ps => ps

/-- The productions that some operations define, from the last new beginning on. -/
def definitions (ops : List Operation) : List Production := ops.foldl Operation.definitions []

/-- Defining one more production is collecting it behind the others. -/
theorem set_collect (ps : List Production) (p : Production) :
    (collect ps).value.set p.symbol p.successor = (collect (ps ++ [p])).value := by
  rw [collect, collect, extend_append]
  rfl

/-- **One operation.**  A scheme of some productions becomes the scheme of those that the operation
    leaves. -/
theorem perform_collect (op : Operation) (ps : List Production) :
    (perform op (collect ps).value).value.2 = (collect (op.definitions ps)).value := by
  cases op with
  | define s w => exact set_collect ps ⟨s, w⟩
  | add p => exact set_collect ps p
  | extend qs =>
    rw [Operation.definitions, collect, collect, extend_append]
    rfl
  | collect qs => rfl

/-- **Any number of operations.** -/
theorem last_history_collect (ops : List Operation) (ps : List Production) :
    (Traced.history perform ops (collect ps).value).2 =
      (collect (ops.foldl Operation.definitions ps)).value := by
  induction ops generalizing ps with
  | nil => simp
  | cons op ops ih => simp [perform_collect, ih]

/-- A scheme is that of the productions since the last new beginning. -/
theorem built_eq_collect (ops : List Operation) : built ops = (collect (definitions ops)).value :=
  last_history_collect ops []

/-- An operation is answered by the scheme that those in front of it build. -/
theorem getElem?_answers (before : List Operation) (op : Operation) (after : List Operation) :
    (answers (before ++ op :: after))[before.length]? = some (perform op (built before)).answer :=
  Traced.getElem?_history before op after empty

/-! ### What can be seen of a scheme -/

/-- The productions of a scheme are the successors that it gives. -/
theorem mem_productions_iff (scheme : Scheme) (p : Production) :
    p ∈ scheme.productions ↔ scheme.get? p.symbol = some p.successor := by
  rw [get?, SymbolMap.get?_eq_some_iff, productions, List.mem_map]
  constructor
  · rintro ⟨e, he, rfl⟩
    exact he
  · intro h
    exact ⟨_, h, rfl⟩

/-- The productions are listed by their symbols. -/
theorem symbols_eq (scheme : Scheme) :
    scheme.productions.map Production.symbol = scheme.successors.entries.map Prod.fst := by
  rw [productions, List.map_map]
  rfl

/-- They are listed in ascending order of their symbols, so no symbol comes twice. -/
theorem pairwise_symbols (scheme : Scheme) :
    (scheme.productions.map Production.symbol).Pairwise (· < ·) := by
  rw [symbols_eq, List.pairwise_map]
  exact scheme.successors.ascending

/-- The productions are listed for the symbols that have been defined. -/
theorem mem_symbols_collect_iff (ps : List Production) (s : Symbol) :
    s ∈ (collect ps).value.productions.map Production.symbol ↔ s ∈ ps.map Production.symbol := by
  rw [← isSome_latest?_iff ps s, ← get?_collect, Option.isSome_iff_exists, List.mem_map]
  constructor
  · rintro ⟨p, hp, rfl⟩
    exact ⟨p.successor, (mem_productions_iff _ p).1 hp⟩
  · rintro ⟨w, hw⟩
    exact ⟨⟨s, w⟩, (mem_productions_iff _ _).2 hw, rfl⟩

/-- There are as many productions as there are symbols that have been defined. -/
theorem size_collect (ps : List Production) :
    (collect ps).value.size = (ps.map Production.symbol).dedup.length := by
  have hnodup : ((collect ps).value.productions.map Production.symbol).Nodup := by
    rw [symbols_eq]
    exact SymbolMap.nodup_symbols _
  have hperm : ((collect ps).value.productions.map Production.symbol).Perm
      (ps.map Production.symbol).dedup := by
    rw [List.perm_ext_iff_of_nodup hnodup (List.nodup_dedup _)]
    intro s
    rw [mem_symbols_collect_iff, List.mem_dedup]
  rw [← hperm.length_eq, symbols_eq, List.length_map]
  rfl

/-- The greatest of some numbers and of the one that is started with. -/
theorem isGreatest_foldl_max {α : Type} (f : α → Nat) (l : List α) (k : Nat) :
    IsGreatest ({k} ∪ {n | ∃ a ∈ l, f a = n}) (l.foldl (fun n a => max n (f a)) k) := by
  have hmax : (k :: l.map f).max? = some (l.foldl (fun n a => max n (f a)) k) := by
    rw [List.max?_cons', List.foldl_map]
  obtain ⟨hmem, hbound⟩ := List.max?_eq_some_iff.1 hmax
  constructor
  · simpa using hmem
  · intro n hn
    exact hbound n (by simpa using hn)

/-- The longest successor is the greatest of one and the lengths of all successors. -/
theorem isGreatest_longest (scheme : Scheme) :
    IsGreatest ({1} ∪ {n | ∃ s w, scheme.get? s = some w ∧ w.length = n}) scheme.longest := by
  have hset : {n | ∃ s w, scheme.get? s = some w ∧ w.length = n}
      = {n | ∃ e ∈ scheme.successors.entries, e.2.length = n} := by
    ext n
    simp [get?, SymbolMap.get?_eq_some_iff]
  rw [hset]
  exact isGreatest_foldl_max (fun e => e.2.length) scheme.successors.entries 1

/-! ### All together -/

/-- The order of the definitions matters only among those of one symbol. -/
theorem collect_eq_of_filter_eq {qs : List Production}
    (h : ∀ s, (ps.filter fun p => p.symbol = s) = qs.filter fun p => p.symbol = s) :
    (collect ps).value = (collect qs).value := by
  apply ext_get?
  intro s
  rw [get?_collect, get?_collect, latest?_eq_getLast?_filter, latest?_eq_getLast?_filter, h s]

/-- **The last definition wins.**  Whatever is done to an empty scheme, it gives to each symbol the
    successor in the last production of the symbol since the last new beginning.  Its productions
    are listed once each, with greater and greater symbols; their number is that of the different
    symbols that have been defined; and the greatest length is that of the longest successor, or one
    if all are shorter.  Each definition is answered with the successor that the symbol had just
    before.

    So extending a collected scheme is collecting more; schemes are equal if they give the same
    successors; and a scheme, with all that is shown or written of it, does not depend on the order
    in which different symbols have been defined. -/
theorem keeps_last_definitions :
    (∀ ops : List Operation,
      (∀ s, (built ops).get? s = latest? (definitions ops) s) ∧
      ((built ops).productions.map Production.symbol).Pairwise (· < ·) ∧
      (∀ p, p ∈ (built ops).productions ↔
        latest? (definitions ops) p.symbol = some p.successor) ∧
      (built ops).size = ((definitions ops).map Production.symbol).dedup.length ∧
      IsGreatest ({1} ∪ {n | ∃ s w, latest? (definitions ops) s = some w ∧ w.length = n})
        (built ops).longest) ∧
    (∀ (before after : List Operation) (s : Symbol) (w : Word),
      (answers (before ++ .define s w :: after))[before.length]?.map Traced.value
        = some ((built before).get? s) ∧
      (answers (before ++ .add ⟨s, w⟩ :: after))[before.length]?.map Traced.value
        = some ((built before).get? s)) ∧
    (∀ ps qs : List Production,
      (collect ps >>= fun scheme => scheme.extend qs) = collect (ps ++ qs)) ∧
    (∀ a b : Scheme, a = b ↔ ∀ s, a.get? s = b.get? s) ∧
    ∀ ops ops' : List Operation,
      (∀ s, ((definitions ops).filter fun p => p.symbol = s)
        = (definitions ops').filter fun p => p.symbol = s) →
      built ops = built ops' ∧ (built ops).display = (built ops').display ∧
        ∀ layout depth, (built ops).json layout depth = (built ops').json layout depth := by
  -- all parts come from the collected definitions and what they give for a symbol
  have hget (ops : List Operation) (s : Symbol) :
      (built ops).get? s = latest? (definitions ops) s := by
    rw [built_eq_collect, get?_collect]
  refine ⟨fun ops => ?_, fun before after s w => ?_, fun ps qs => ?_, fun a b => ?_,
    fun ops ops' h => ?_⟩
  · refine ⟨hget ops, pairwise_symbols _, fun p => ?_, ?_, ?_⟩
    · rw [mem_productions_iff, hget]
    · rw [built_eq_collect, size_collect]
    · simpa only [hget] using isGreatest_longest (built ops)
  · rw [getElem?_answers, getElem?_answers]
    exact ⟨rfl, rfl⟩
  · exact (extend_append empty ps qs).symm
  · exact ⟨fun h s => by rw [h], ext_get?⟩
  · have heq : built ops = built ops' := by
      rw [built_eq_collect, built_eq_collect, collect_eq_of_filter_eq h]
    rw [heq]
    exact ⟨rfl, rfl, fun layout depth => rfl⟩

/-- A scheme that is begun anew, with one symbol defined twice. -/
def anew : List Operation :=
  [.define 'X' ['Y'], .collect [⟨'A', "AB".toList⟩, ⟨'B', "A".toList⟩], .add ⟨'A', "BA".toList⟩]

/-- The same definitions for each symbol, in another order. -/
def shuffled : List Operation :=
  [.define 'B' "A".toList, .extend [⟨'A', "AB".toList⟩, ⟨'A', "BA".toList⟩]]

/-- Two histories with the same last definitions make the same scheme. -/
theorem keeps_last_definitions_shuffled :
    (∀ s, ((definitions anew).filter fun p => p.symbol = s)
      = (definitions shuffled).filter fun p => p.symbol = s) ∧
    built anew = built shuffled ∧ (built shuffled).display = "A -> BA\nB -> A".toList := by
  have hsame : ∀ s, ((definitions anew).filter fun p => p.symbol = s)
      = (definitions shuffled).filter fun p => p.symbol = s := by
    intro s
    by_cases ha : s = 'A'
    · subst ha
      decide
    · simp [definitions, anew, shuffled, Operation.definitions, List.filter_cons, Ne.symm ha]
  have heq := (keeps_last_definitions.2.2.2.2 anew shuffled hsame).1
  exact ⟨hsame, heq, by decide⟩

end Scheme

end D0L
