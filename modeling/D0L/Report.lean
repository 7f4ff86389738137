import D0L.Census

namespace D0L

/-!
# Reports

A report has one row for each generation: its length, how many of its symbols are replaced in the
next one, and how many are kept.

* `Row` — one row.
* `Survey` — the rows of a report, made one at a time.
* `Survey.take`, `report` — the first rows of a report, and all of them.
-/

/-- One generation in a report. -/
structure Row where
  /-- The number of the generation. -/
  generation : Nat
  /-- The number of symbols. -/
  length : Nat
  /-- The number of letters with a production. -/
  replaced : Nat
  /-- The number of all other symbols. -/
  kept : Nat
deriving DecidableEq

/-- The row of a generation with a given census. -/
def Row.ofCensus (scheme : Scheme) (generation : Nat) (c : Census)
    (order : VisitOrder := .ascending) : Row where
  generation
  length := c.total order
  replaced := c.totalOf scheme.replaces order
  -- a difference of two sums, each of which may have stopped at the greatest count
  kept := c.total order - c.totalOf scheme.replaces order

/-- The rows of a report that are still to come. -/
structure Survey where
  /-- The number of the next generation. -/
  generation : Nat
  /-- The number of generations after the next one. -/
  remaining : Nat
  /-- The census of the next generation. -/
  census : Census

namespace Survey

/-- The survey of the generations from a word up to `n` steps after it. -/
def start (w : Word) (n : Nat) : Survey where
  generation := 0
  remaining := n
  census := .ofWord w

variable (scheme : Scheme)

/-- The next row. -/
def row (s : Survey) (order : VisitOrder := .ascending) : Row :=
  .ofCensus scheme s.generation s.census order

/-- The survey one generation later. -/
def advance (s : Survey) (order : VisitOrder := .ascending) : Survey where
  generation := s.generation + 1
  remaining := s.remaining - 1
  census := s.census.next scheme order

/-- The survey without its next row, if a row comes after it. -/
def rest? (s : Survey) (order : VisitOrder := .ascending) : Option Survey :=
  if s.remaining = 0 then none else some (s.advance scheme order)

/-- The first rows, at most `n` of them; `orders` has the order of the visits in each
    generation. -/
def take (n : Nat) (s : Survey) (orders : Nat → VisitOrder := fun _ => .ascending) : List Row :=
  match n with
  | 0 => []
  | n + 1 => s.row scheme (orders s.generation) ::
    match s.rest? scheme (orders s.generation) with
    | none => []
    | some rest => take n rest orders

variable {scheme}

/-- Behind the last generation there is nothing to take. -/
theorem take_of_last {s : Survey} (h : s.remaining = 0) (n : Nat) (orders : Nat → VisitOrder) :
    s.take scheme (n + 1) orders = [s.row scheme (orders s.generation)] := by
  simp [take, rest?, h]

/-- Before the last generation the other rows are those of the survey one generation later. -/
theorem take_of_more {s : Survey} (h : s.remaining ≠ 0) (n : Nat) (orders : Nat → VisitOrder) :
    s.take scheme (n + 1) orders =
      s.row scheme (orders s.generation) ::
        (s.advance scheme (orders s.generation)).take scheme n orders := by
  simp [take, rest?, h]

end Survey

/-- The report on the generations from a word up to `n` steps after it. -/
def report (scheme : Scheme) (w : Word) (n : Nat)
    (orders : Nat → VisitOrder := fun _ => .ascending) : List Row :=
  (Survey.start w n).take scheme (n + 1) orders

end D0L
