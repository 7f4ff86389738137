import D0L.Scheme

namespace D0L

/-!
# Derivations

One generation follows from another by replacing all of its letters at once.

* `addUpTo` — the sum of two machine numbers, which have a greatest one; by `foldl_addUpTo` a list
  that is added up so has its true sum, stopped once.
* `Scheme.next`, `Scheme.derive` — the next generation, and the one after `n` steps; by
  `Scheme.derive_append`, what becomes of one part of a word does not depend on the others, and by
  `Scheme.forall_mem_derive`, no symbols are invented.
* `Cursor` — a walk along the generations in two rooms that change places, one for the generation
  and one for the next.  It reports each generation that it builds (`Cursor.events_iterate_step`).
* `Scheme.expand` — `n` steps of a walk; by `Scheme.expand_value` they lead to `Scheme.derive`.
* `Scheme.expandWithin` — the same under a limit on the length of every generation; the length is
  checked before a generation is built, and `Cursor.nextLength_eq` says that it is the right one.
-/

/-! ### Sums that stop at a greatest number -/

/-- The sum of two numbers, which stops at `top`. -/
def addUpTo (top m n : Nat) : Nat := min (m + n) top

/-- A sum with a number that has stopped before stops where the true sum does. -/
theorem addUpTo_min (top m n : Nat) : addUpTo top (min m top) n = min (m + n) top := by
  unfold addUpTo
  omega

/-- **One stop is enough.**  A list that is added up with a stop at every addition has its true
    sum, stopped at the end. -/
theorem foldl_addUpTo {α : Type} (top : Nat) (f : α → Nat) (l : List α) (k : Nat) :
    l.foldl (fun n a => addUpTo top n (f a)) (min k top) =
      min (l.foldl (fun n a => n + f a) k) top := by
  induction l generalizing k with
  | nil => rfl
  | cons a l ih => rw [List.foldl_cons, addUpTo_min, ih, List.foldl_cons]

/-- The length of a word as far as it can be counted in 64 bits. -/
def countedLength (w : Word) : Nat := min w.length Numeral.maxWord

/-! ### Generations -/

namespace Scheme

/-- The generation after a word. -/
def next (scheme : Scheme) (w : Word) : Word := w.flatMap scheme.image

/-- The generation `n` steps after a word. -/
def derive (scheme : Scheme) : Nat → Word → Word
  | 0, w => w
  | n + 1, w => scheme.derive n (scheme.next w)

@[simp] theorem next_nil (scheme : Scheme) : scheme.next [] = [] := rfl

/-- The next generation begins with what the first symbol turns into. -/
theorem next_cons (scheme : Scheme) (s : Symbol) (w : Word) :
    scheme.next (s :: w) = scheme.image s ++ scheme.next w :=
  List.flatMap_cons

/-- Parts of a word turn into their next generations independently. -/
@[simp] theorem next_append (scheme : Scheme) (u v : Word) :
    scheme.next (u ++ v) = scheme.next u ++ scheme.next v :=
  List.flatMap_append

@[simp] theorem derive_zero (scheme : Scheme) (w : Word) : scheme.derive 0 w = w := rfl

/-- The generation `n + 1` steps after a word is `n` steps after the next one. -/
@[simp] theorem derive_succ (scheme : Scheme) (n : Nat) (w : Word) :
    scheme.derive (n + 1) w = scheme.derive n (scheme.next w) := rfl

/-- Parts of a word are derived independently of each other. -/
@[simp] theorem derive_append (scheme : Scheme) (n : Nat) (u v : Word) :
    scheme.derive n (u ++ v) = scheme.derive n u ++ scheme.derive n v := by
  induction n generalizing u v with
  | zero => rfl
  | succ n ih => simp [ih]

/-- Generations add up. -/
theorem derive_add (scheme : Scheme) (m n : Nat) (w : Word) :
    scheme.derive (m + n) w = scheme.derive n (scheme.derive m w) := by
  induction m generalizing w with
  | zero => simp
  | succ m ih =>
    rw [Nat.add_right_comm]
    exact ih (scheme.next w)

/-- The last of `n + 1` generations follows from the one before it. -/
theorem derive_succ_eq_next (scheme : Scheme) (n : Nat) (w : Word) :
    scheme.derive (n + 1) w = scheme.next (scheme.derive n w) :=
  derive_add scheme n 1 w

/-- **Expanding invents no symbols.**  What holds for all symbols of a word and of all successors
    holds for all symbols of every generation. -/
theorem forall_mem_derive {scheme : Scheme} {p : Symbol → Prop}
    (hscheme : ∀ s w, scheme.get? s = some w → ∀ c ∈ w, p c) (n : Nat) {w : Word}
    (hw : ∀ c ∈ w, p c) : ∀ c ∈ scheme.derive n w, p c := by
  induction n generalizing w with
  | zero => exact hw
  | succ n ih =>
    -- it is enough to look at the next generation, symbol by symbol
    apply ih
    intro c hc
    obtain ⟨s, hs, hc⟩ := List.mem_flatMap.1 hc
    obtain hsame | ⟨v, -, hget, himage⟩ := scheme.image_cases s
    · rw [hsame] at hc
      obtain rfl := List.mem_singleton.1 hc
      exact hw c hs
    · rw [himage] at hc
      exact hscheme s v hget c hc

end Scheme

/-- A place on a walk along the generations. -/
structure Cursor where
  /-- The number of steps so far. -/
  generation : Nat
  /-- The generation itself. -/
  word : Word
  /-- The room for the next generation, which still holds what was last written there. -/
  spare : Word
deriving DecidableEq

namespace Cursor

variable (scheme : Scheme)

/-- The start of a walk. -/
def start (w : Word) : Cursor where
  generation := 0
  word := w
  spare := []

/-- One step of a walk.  The next generation is written into the spare room once that is cleared;
    then the two change places. -/
def step (c : Cursor) : Traced Cursor :=
  let cleared := c.spare.take 0
  let word := cleared ++ scheme.next c.word
  ⟨[.expanded (c.generation + 1) word.length],
    { generation := c.generation + 1, word, spare := c.word }⟩

/-- The counted length of the generation after a place, found without building it. -/
def nextLength (c : Cursor) : Nat :=
  c.word.foldl (fun n s => addUpTo Numeral.maxWord n (scheme.image s).length) 0

/-- Counting a generation before it is built gives the counted length of it. -/
theorem nextLength_eq (c : Cursor) :
    c.nextLength scheme = countedLength (scheme.next c.word) := by
  have h := foldl_addUpTo Numeral.maxWord (fun s => (scheme.image s).length) c.word 0
  rw [Nat.zero_min] at h
  rw [nextLength, h, countedLength, Scheme.next, List.length_flatMap, List.sum_eq_foldl_nat,
    List.foldl_map]

/-! ### Steps and runs

Whatever the spare room holds, none of it reaches the next generation. -/

/-- A step counts one generation. -/
@[simp] theorem generation_step (c : Cursor) :
    (c.step scheme).value.generation = c.generation + 1 := rfl

/-- A step leads to the next generation. -/
@[simp] theorem word_step (c : Cursor) : (c.step scheme).value.word = scheme.next c.word := by
  simp [step]

/-- A step reports the generation that it has built, with its length. -/
@[simp] theorem events_step (c : Cursor) :
    (c.step scheme).events = [.expanded (c.generation + 1) (scheme.next c.word).length] := by
  simp [step]

/-- Every step of a walk counts one generation. -/
@[simp] theorem generation_iterate_step (n : Nat) (c : Cursor) :
    (Traced.iterate (step scheme) n c).value.generation = c.generation + n := by
  induction n generalizing c with
  | zero => rfl
  | succ n ih =>
    rw [Traced.iterate_succ, Traced.value_bind, ih, generation_step]
    omega

/-- A walk of `n` steps leads `n` generations on, whatever was in its spare room. -/
@[simp] theorem word_iterate_step (n : Nat) (c : Cursor) :
    (Traced.iterate (step scheme) n c).value.word = scheme.derive n c.word := by
  induction n generalizing c with
  | zero => rfl
  | succ n ih => rw [Traced.iterate_succ, Traced.value_bind, ih, word_step, Scheme.derive_succ]

/-- A walk reports each generation that it builds, and nothing else. -/
theorem events_iterate_step (n : Nat) (c : Cursor) :
    (Traced.iterate (step scheme) n c).events =
      (List.range n).map fun i =>
        .expanded (c.generation + (i + 1)) (scheme.derive (i + 1) c.word).length := by
  induction n generalizing c with
  | zero => rfl
  | succ n ih =>
    rw [Traced.iterate_succ, Traced.events_bind, ih, events_step, List.range_succ_eq_map,
      List.map_cons, List.map_map, List.singleton_append]
    refine congrArg (List.cons _) (List.map_congr_left fun i _ => ?_)
    rw [generation_step, word_step, Function.comp_apply, Nat.succ_eq_add_one,
      Scheme.derive_succ scheme (i + 1), Nat.add_assoc, Nat.add_comm 1]

/-- One step of a walk, if it does not lead to a generation that is too long. -/
def stepWithin (limit : Nat) (c : Cursor) : Attempt Cursor := do
  let length := c.nextLength scheme
  if limit < length then throw (.overLimit (c.generation + 1) length limit)
  else ExceptT.lift (c.step scheme)

end Cursor

namespace Scheme

/-- Expands a word for `n` generations. -/
def expand (scheme : Scheme) (start : Word) (n : Nat) : Traced Word := do
  let c ← Traced.iterate (Cursor.step scheme) n (.start start)
  return c.word

/-- **Expansion is derivation.**  What a walk of `n` steps ends with is the generation `n` steps
    after the start word. -/
@[simp] theorem expand_value (scheme : Scheme) (start : Word) (n : Nat) :
    (scheme.expand start n).value = scheme.derive n start := by
  simp [expand, Cursor.start]

/-- The reports of the generations from the first one to the `n`-th. -/
def builtEvents (scheme : Scheme) (start : Word) (n : Nat) : List Event :=
  (List.range n).map fun i => .expanded (i + 1) (scheme.expand start (i + 1)).value.length

/-- An expansion reports each generation that it builds, and nothing else. -/
theorem expand_events (scheme : Scheme) (start : Word) (n : Nat) :
    (scheme.expand start n).events = scheme.builtEvents start n := by
  rw [expand, Traced.events_bind, Traced.events_pure, List.append_nil, Cursor.events_iterate_step]
  simp [builtEvents, Cursor.start]

/-- Expands a word for `n` generations, none of them longer than `limit`. -/
def expandWithin (scheme : Scheme) (limit : Nat) (start : Word) (n : Nat) : Attempt Word := do
  if limit < countedLength start then throw (.overLimit 0 (countedLength start) limit)
  else
    let c ← Attempt.iterate (Cursor.stepWithin scheme limit) n (.start start)
    return c.word

/-- Expands a word under a limit, if there is one. -/
def expandUnder (scheme : Scheme) (limit : Option Nat) (start : Word) (n : Nat) : Attempt Word :=
  match limit with
  | some limit => scheme.expandWithin limit start n
  | none => ExceptT.lift (scheme.expand start n)

end Scheme

end D0L
