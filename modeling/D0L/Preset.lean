import D0L.Grammar

namespace D0L

/-!
# Presets

Grammars that are known by name.
-/

/-- A grammar known by name. -/
inductive Preset where
  /-- The growth of algae. -/
  | algae
  /-- The quadratic Koch curve. -/
  | kochCurve
  /-- A plant with branches. -/
  | fractalPlant
  /-- The dragon curve. -/
  | dragonCurve
  /-- The Sierpinski triangle. -/
  | sierpinskiTriangle
deriving DecidableEq

namespace Preset

/-- All presets, in the order in which they are listed. -/
def all : List Preset := [algae, kochCurve, fractalPlant, dragonCurve, sierpinskiTriangle]

/-- The name of a preset. -/
def name : Preset → Text
  | algae => "algae".toList
  | kochCurve => "koch-curve".toList
  | fractalPlant => "fractal-plant".toList
  | dragonCurve => "dragon-curve".toList
  | sierpinskiTriangle => "sierpinski-triangle".toList

/-- The preset of a name. -/
def ofName? (name : Text) : Option Preset := all.find? fun p => p.name = name

/-- The turning angle, a whole number of degrees. -/
def degrees : Preset → Nat
  | algae => 0
  | kochCurve => 90
  | fractalPlant => 25
  | dragonCurve => 90
  | sierpinskiTriangle => 120

/-- The word of generation zero. -/
def start : Preset → Word
  | algae => "A".toList
  | kochCurve => "F".toList
  | fractalPlant => "X".toList
  | dragonCurve => "F".toList
  | sierpinskiTriangle => "F-G-G".toList

/-- The productions, in the order in which they are defined. -/
def productions : Preset → List Production
  | algae => [⟨'A', "AB".toList⟩, ⟨'B', "A".toList⟩]
  | kochCurve => [⟨'F', "F+F-F-F+F".toList⟩]
  | fractalPlant => [⟨'X', "F+[[X]-X]-F[-FX]+X".toList⟩, ⟨'F', "FF".toList⟩]
  | dragonCurve => [⟨'F', "F+G".toList⟩, ⟨'G', "F-G".toList⟩]
  | sierpinskiTriangle => [⟨'F', "F-G+F+G-F".toList⟩, ⟨'G', "GG".toList⟩]

/-- The grammar itself. -/
def grammar (p : Preset) : Traced Grammar := do
  return { angle := .ofNat p.degrees, start := p.start, scheme := ← Scheme.collect p.productions }

end Preset

end D0L
