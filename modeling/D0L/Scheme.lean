import D0L.SymbolMap
import D0L.Traced

namespace D0L

/-!
# Productions and schemes

A production replaces one symbol by a word. On a console it is one line of text: the symbol with
its successor right behind it. A scheme gives successors to finitely many symbols. A symbol without
one is its own successor. A scheme may also give successors to marks, but marks are never replaced.

* `Production` — one production; `Production.ofLine` reads it from a line.
* `Scheme.define`, `Scheme.extend`, `Scheme.collect` — building a scheme; a later definition
  takes the place of an earlier one, and each definition is reported. A scheme is collected from
  its own productions (`Scheme.collect_productions`).
* `Scheme.image` — what a symbol turns into; by `Scheme.image_cases` that is the symbol itself, or
  the successor of a letter.
-/

/-! ### Productions -/

/-- The replacement of one symbol by a word. -/
structure Production where
  /-- The symbol that is replaced. -/
  symbol : Symbol
  /-- The word in its place. -/
  successor : Word
deriving DecidableEq

namespace Production

/-- Reads a line: the first character is the symbol and all the others are the successor. -/
def ofLine : Text → Except Error Production
  | [] => .error .emptyRule
  | symbol :: successor => .ok { symbol, successor }

/-- Reads lines up to the first that is no production. -/
def ofLines (lines : List Text) : Except Error (List Production) := lines.mapM ofLine

/-- The production as people read it. -/
def display (p : Production) : Text := p.symbol :: " -> ".toList ++ p.successor

end Production

/-! ### Schemes -/

/-- Successors of finitely many symbols. -/
structure Scheme where
  /-- The symbols with their successors. -/
  successors : SymbolMap Word
deriving DecidableEq

namespace Scheme

/-- The scheme without productions. -/
def empty : Scheme where
  successors := ∅

instance : EmptyCollection Scheme where
  emptyCollection := empty

instance : Inhabited Scheme where
  default := empty

/-- The successor that the scheme gives to a symbol. -/
def get? (scheme : Scheme) (s : Symbol) : Option Word := scheme.successors.get? s

/-- The number of productions. -/
def size (scheme : Scheme) : Nat := scheme.successors.size

/-- The productions, in ascending order of their symbols. -/
def productions (scheme : Scheme) : List Production :=
  scheme.successors.entries.map fun (symbol, successor) => { symbol, successor }

/-! ### Building -/

/-- The scheme with the successor of one symbol set. -/
def set (scheme : Scheme) (s : Symbol) (successor : Word) : Scheme where
  successors := scheme.successors.insert s successor

/-- What is worth reporting about a definition, given the successor before it. -/
def definitionEvents (s : Symbol) (successor : Word) (previous : Option Word) : List Event :=
  (if s.isLetter then [] else [.unreachable s])
    ++ .defined s successor :: (previous.map (Event.redefined s)).toList

/-- Defines the successor of a symbol; also gives the successor that it had before. -/
def define (scheme : Scheme) (p : Production) : Traced (Option Word × Scheme) where
  events := definitionEvents p.symbol p.successor (scheme.get? p.symbol)
  value := (scheme.get? p.symbol, scheme.set p.symbol p.successor)

/-- Adds one production. -/
def add (scheme : Scheme) (p : Production) : Traced Scheme := do
  let (_, scheme) ← scheme.define p
  return scheme

/-- Adds productions in order. -/
def extend (scheme : Scheme) (ps : List Production) : Traced Scheme := ps.foldlM add scheme

/-- The scheme of some productions. -/
def collect (ps : List Production) : Traced Scheme := empty.extend ps

/-! ### Replacing -/

/-- The successor of a symbol, which is the symbol itself if the scheme has none for it. -/
def successor (scheme : Scheme) (s : Symbol) : Word := (scheme.get? s).getD [s]

/-- What a symbol turns into: letters into their successors, marks into themselves. -/
def image (scheme : Scheme) (s : Symbol) : Word :=
  if s.isLetter then scheme.successor s else [s]

/-- A symbol stays as it is, or it is a letter and has a successor, which comes in its place. -/
theorem image_cases (scheme : Scheme) (s : Symbol) :
    scheme.image s = [s] ∨
      ∃ w, s.isLetter = true ∧ scheme.get? s = some w ∧ scheme.image s = w := by
  unfold image successor
  split
  · rename_i hletter
    cases hget : scheme.get? s with
    | none => exact .inl rfl
    | some w => exact .inr ⟨w, hletter, rfl, rfl⟩
  · exact .inl rfl

/-- Whether a symbol is a letter with a production. -/
def replaces (scheme : Scheme) (s : Symbol) : Bool := s.isLetter && (scheme.get? s).isSome

/-- The length of the longest successor, that of a symbol without production included. -/
def longest (scheme : Scheme) : Nat :=
  scheme.successors.entries.foldl (fun n (_, successor) => max n successor.length) 1

/-- The productions as people read them, one a line. -/
def display (scheme : Scheme) : Text :=
  (scheme.productions.map Production.display).intersperse ['\n'] |>.flatten

/-! ### What a definition does -/

/-- The successors after a definition. -/
@[simp] theorem get?_set (scheme : Scheme) (s t : Symbol) (successor : Word) :
    (scheme.set s successor).get? t = if t = s then some successor else scheme.get? t :=
  SymbolMap.get?_insert ..

@[simp] theorem get?_empty (s : Symbol) : (empty : Scheme).get? s = none := rfl

/-- Schemes that agree on every symbol are equal. -/
theorem ext_get? {a b : Scheme} (h : ∀ s, a.get? s = b.get? s) : a = b := by
  cases a
  cases b
  exact congrArg Scheme.mk (SymbolMap.ext_get? h)

/-! ### Building a scheme again -/

/-- Adding a production sets the successor of its symbol. -/
@[simp] theorem value_add (scheme : Scheme) (p : Production) :
    (scheme.add p).value = scheme.set p.symbol p.successor := rfl

/-- Productions are added one by one. -/
theorem extend_cons (scheme : Scheme) (p : Production) (ps : List Production) :
    scheme.extend (p :: ps) = scheme.add p >>= fun scheme => scheme.extend ps :=
  List.foldlM_cons

/-- Productions with greater and greater symbols go behind each other. -/
theorem entries_extend {scheme : Scheme} {entries : List (Symbol × Word)}
    (h : (scheme.successors.entries ++ entries).Pairwise fun a b => a.1 < b.1) :
    (scheme.extend (entries.map fun e => ⟨e.1, e.2⟩)).value.successors.entries
      = scheme.successors.entries ++ entries := by
  induction entries generalizing scheme with
  | nil => exact (List.append_nil _).symm
  | cons e entries ih =>
    have hplace : (scheme.set e.1 e.2).successors.entries = scheme.successors.entries ++ [e] :=
      SymbolMap.place_eq_append fun p hp =>
        (List.pairwise_append.1 h).2.2 p hp e List.mem_cons_self
    rw [List.map_cons, extend_cons, Traced.value_bind, value_add]
    rw [ih (by rw [hplace, List.append_assoc]; exact h), hplace, List.append_assoc]
    rfl

/-- A scheme is made up of its productions. -/
theorem collect_productions (scheme : Scheme) : (collect scheme.productions).value = scheme := by
  have hentries : (collect scheme.productions).value.successors.entries
      = scheme.successors.entries := by
    have hascending : ((empty : Scheme).successors.entries ++ scheme.successors.entries).Pairwise
        fun a b => a.1 < b.1 := scheme.successors.ascending
    exact entries_extend hascending
  cases scheme
  exact congrArg mk (SymbolMap.eq_of_entries_eq hentries)

end Scheme

end D0L
