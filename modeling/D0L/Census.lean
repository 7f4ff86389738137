import D0L.Derivation

namespace D0L

/-!
# Censuses

How often each symbol occurs in a generation. The census of the next generation follows from the
census alone, so lengths can be told of generations that are far too long to build. Counts stop at
`maxCount`.

* `VisitOrder` — an order in which the entries of a census are visited.  Nothing depends on it.
* `Census.ofWord`, `Census.next` — the census of a word, and of the generation after.
* `Census.get`, `Census.total` — one count, and the sum of all.
* `Scheme.expandedLength` — the length of a generation, found by counting.
-/

/-- The greatest count, the greatest unsigned number of 128 bits. -/
def maxCount : Nat := power 2 128 - 1

/-- The sum of two counts, which stops at the greatest count. -/
def addCounts (m n : Nat) : Nat := addUpTo maxCount m n

/-- The sum of the counts of some entries, added up in the order of the entries. -/
def sumCounts (entries : List (Symbol × Nat)) : Nat :=
  entries.foldl (fun n (_, count) => addCounts n count) 0

/-- An order in which the entries of a census are visited.  Which one it is is left open; when no
    order is given, the entries are visited as they ascend. -/
structure VisitOrder where
  /-- The entries in the order of the visit. -/
  arrange : List (Symbol × Nat) → List (Symbol × Nat)
  /-- Each entry is visited once. -/
  perm : ∀ entries, (arrange entries).Perm entries

/-- The order of the symbols. -/
def VisitOrder.ascending : VisitOrder where
  arrange := id
  perm _ := .refl _

/-- How often each symbol occurs; symbols that do not occur have no entry. -/
structure Census where
  /-- The symbols that occur, with their counts. -/
  counts : SymbolMap Nat
deriving DecidableEq

namespace Census

/-- The census of the empty word. -/
def empty : Census where
  counts := ∅

/-- The count of a symbol. -/
def get (c : Census) (s : Symbol) : Nat := (c.counts.get? s).getD 0

/-- The census with `n` more occurrences of a symbol. -/
def add (c : Census) (s : Symbol) (n : Nat) : Census where
  counts := c.counts.insert s (addCounts (c.get s) n)

/-- The counts with some occurrences more. -/
@[simp] theorem get_add (c : Census) (s t : Symbol) (n : Nat) :
    (c.add s n).get t = if t = s then addCounts (c.get s) n else c.get t := by
  by_cases h : t = s <;> simp [get, add, h]

/-- The census with `n` more occurrences of each symbol in a word. -/
def addWord (c : Census) (n : Nat) (w : Word) : Census := w.foldl (fun c s => c.add s n) c

/-- The census of a word. -/
def ofWord (w : Word) : Census := empty.addWord 1 w

/-- The entries in the order of a visit. -/
def visited (c : Census) (order : VisitOrder := .ascending) : List (Symbol × Nat) :=
  order.arrange c.counts.entries

/-- The census of the next generation. -/
def next (scheme : Scheme) (c : Census) (order : VisitOrder := .ascending) : Census :=
  -- every occurrence of a symbol gives all symbols of its image
  (c.visited order).foldl (fun next (s, n) => next.addWord n (scheme.image s)) empty

/-- The census `n` generations later; `orders` has the order of each visit. -/
def after (scheme : Scheme) (n : Nat) (c : Census)
    (orders : Nat → VisitOrder := fun _ => .ascending) : Census :=
  match n with
  | 0 => c
  -- the orders are numbered by the generations that are still to come
  | n + 1 => after scheme n (c.next scheme (orders n)) orders

/-- The sum of the counts of the symbols that satisfy `p`. -/
def totalOf (p : Symbol → Bool) (c : Census) (order : VisitOrder := .ascending) : Nat :=
  sumCounts ((c.visited order).filter fun (s, _) => p s)

/-- The sum of all counts. -/
def total (c : Census) (order : VisitOrder := .ascending) : Nat := sumCounts (c.visited order)

end Census

/-- The length of the generation `n` steps after a word, found without building it; `orders` has
    the order of each visit. -/
def Scheme.expandedLength (scheme : Scheme) (start : Word) (n : Nat)
    (orders : Nat → VisitOrder := fun _ => .ascending) : Nat :=
  ((Census.ofWord start).after scheme n orders).total (orders n)

end D0L
