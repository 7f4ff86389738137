import D0L.Binary64.Decimal
import D0L.Report

namespace D0L

/-!
# Grammars

A grammar is a start word with a scheme, and an angle for whoever draws the generations.
-/

/-- A complete definition. -/
structure Grammar where
  /-- The turning angle in degrees; expansion does not use it. -/
  angle : Binary64
  /-- The word of generation zero. -/
  start : Word
  /-- The productions. -/
  scheme : Scheme
deriving DecidableEq

namespace Grammar

/-- The grammar with another angle. -/
def withAngle (g : Grammar) (angle : Binary64) : Grammar := { g with angle }

/-- Adds a production; also gives the successor that its symbol had before. -/
def define (g : Grammar) (p : Production) : Traced (Option Word × Grammar) := do
  let (previous, scheme) ← g.scheme.define p
  return (previous, { g with scheme })

/-- Adds productions in order. -/
def extend (g : Grammar) (ps : List Production) : Traced Grammar := do
  return { g with scheme := ← g.scheme.extend ps }

/-- The start of a walk along the generations. -/
def walk (g : Grammar) : Cursor := .start g.start

/-- The generation after `n` steps. -/
def expand (g : Grammar) (n : Nat) : Traced Word := g.scheme.expand g.start n

/-- The generation after `n` steps, under a limit if there is one. -/
def expandUnder (g : Grammar) (limit : Option Nat) (n : Nat) : Attempt Word :=
  g.scheme.expandUnder limit g.start n

/-- The length of the generation after `n` steps. -/
def expandedLength (g : Grammar) (n : Nat) : Nat := g.scheme.expandedLength g.start n

/-- The report on the generations up to `n`. -/
def report (g : Grammar) (n : Nat) : List Row := D0L.report g.scheme g.start n

/-- Whether two grammars are equal, their angles by value. -/
def same (g h : Grammar) : Bool :=
  g.angle.same h.angle && g.start = h.start && g.scheme = h.scheme

end Grammar

end D0L
