import D0L.Proofs.Json.Rereading
import D0L.Proofs.SavedGrammar

namespace D0L

/-!
# Angles that are saved and loaded

A grammar that is saved and loaded again has all it had before, but for its angle, which is rounded
anew when it is read.  If reading it takes no rounding before the last one, the angle is the old one
to the bit; otherwise it is a near one, and need not be the old one.

* `Grammar.saves_and_loads` — what is loaded is the grammar with the angle that is read.
* `Grammar.reloads_near_angle` — how far that angle is from the old one at most.
* `Grammar.reloads_another_angle` — an angle that does not come back.
-/

open Json Json.Reader

namespace Grammar

variable {path place : Text} {g : Grammar} {negative : Bool} {m : Magnitude}

/-- What is loaded after saving is the grammar with the angle that is read in its text. -/
theorem saves_and_loads (hpath : Path.target path = .ok (.file place)) (folder : Folder)
    (hangle : g.angle = .signed negative m) (hfinite : m.isFinite = true) {v : Number}
    (hvalue : (m.literal.spelling negative).value? = some v) :
    ∃ written, g.save folder path = .ok written ∧
      (load written.folder path).outcome = .ok (g.withAngle v.toBinary64) := by
  refine ⟨_, save_eq hpath g folder, ?_⟩
  have hread : Reads (Json.Reader.number : Document.Reader Binary64) (writeNumber g.angle) []
      v.toBinary64 := by
    rw [hangle, Magnitude.writeNumber_eq hfinite]
    exact reads_literal m.literal_wellFormed hvalue
  rw [outcome_load_of_write hpath (Folder.write_eq hpath folder g.file)]
  exact Document.outcome_read_file (Document.reads_grammar .indented g hread)

/-- Grammars that differ in their angles only are equal if the angles are. -/
theorem same_withAngle_iff {n : Magnitude} (hangle : g.angle = .signed negative m) :
    g.same (g.withAngle (.signed negative n)) = true ↔ n = m := by
  -- zeros are the same number whatever their signs, but here the signs agree
  have hzeros : m.rank = 0 ∧ n.rank = 0 → n = m := by
    rintro ⟨hm, hn⟩
    obtain ⟨rank, hle⟩ := m
    obtain ⟨rank', hle'⟩ := n
    simp only at hm hn
    simp only [hm, hn]
  simp only [same, withAngle, hangle, Binary64.same, Bool.and_eq_true, Bool.or_eq_true,
    decide_eq_true_eq, and_true, beq_self_eq_true, true_and]
  constructor
  · rintro (hboth | rfl)
    · exact hzeros hboth
    · rfl
  · rintro rfl
    exact .inr rfl

/-- **Saving and loading an angle.**  A grammar with a finite angle is loaded as it was, but for the
    magnitude of its angle: that is as many ranks from the old one as the digits of the angle take
    roundings at most.  So the grammar is the old one if they take none, and it equals the old one
    only if the angle is the same to the bit. -/
theorem reloads_near_angle (hpath : Path.target path = .ok (.file place)) (folder : Folder)
    (hangle : g.angle = .signed negative m) (hfinite : m.isFinite = true) :
    ∃ written n, g.save folder path = .ok written ∧
      (load written.folder path).outcome = .ok (g.withAngle (.signed negative n)) ∧
      n.isFinite = true ∧
      n.rank ≤ m.rank + m.literal.decimal.roundings ∧
      m.rank ≤ n.rank + m.literal.decimal.roundings ∧
      (m.literal.decimal.roundings = 0 → n = m) ∧
      (g.same (g.withAngle (.signed negative n)) = true ↔ n = m) := by
  obtain ⟨n, hvalue, hreread, hle, hge⟩ := Magnitude.exists_reread hfinite negative
  obtain ⟨written, hsave, hload⟩ := saves_and_loads hpath folder hangle hfinite hvalue
  refine ⟨written, n, hsave, hload, hreread, hle, hge, fun hnone => ?_, same_withAngle_iff hangle⟩
  -- without a rounding the two ranks bound each other
  rw [hnone, Nat.add_zero] at hle hge
  obtain ⟨rank, _⟩ := m
  obtain ⟨rank', _⟩ := n
  simp only at hle hge
  simp only [Nat.le_antisymm hle hge]

/-- A right angle is read as it is: its digits and the power of ten take no rounding. -/
theorem reloads_rightAngled :
    Path.target "system.json".toList = .ok (.file "system.json".toList) ∧
      (∃ m, rightAngled.angle = .signed false m ∧ m.isFinite = true) ∧
      ∃ written, rightAngled.save .empty "system.json".toList = .ok written ∧
        (load written.folder "system.json".toList).outcome = .ok rightAngled := by
  have hpath : Path.target "system.json".toList = .ok (.file "system.json".toList) := rfl
  have hfinite : (Magnitude.nearest 90 1).isFinite = true := by decide +kernel
  obtain ⟨written, n, hsave, hload, -, -, -, hsame, -⟩ :=
    reloads_near_angle hpath .empty (g := rightAngled) rfl hfinite
  obtain rfl := hsame (by decide +kernel)
  exact ⟨hpath, ⟨_, rfl, hfinite⟩, written, hsave, hload⟩

/-- A grammar whose angle is written as `93.33333333333333`, with more digits than are read without
    a rounding. -/
def finelyAngled : Grammar where
  angle := .signed false ⟨0x4057555555555555, by decide⟩
  start := "F".toList
  scheme := .empty

/-- **An angle that does not come back.**  The angle that is read is the one before the angle that
    was written, so the grammar that is loaded is not the one that was saved. -/
theorem reloads_another_angle :
    finelyAngled.angle.isFinite = true ∧
      writeNumber finelyAngled.angle = "93.33333333333333".toList ∧
      ∃ written loaded, finelyAngled.save .empty "system.json".toList = .ok written ∧
        (load written.folder "system.json".toList).outcome = .ok loaded ∧
        loaded.angle.bits + 1 = finelyAngled.angle.bits ∧ finelyAngled.same loaded = false := by
  have hpath : Path.target "system.json".toList = .ok (.file "system.json".toList) := rfl
  have hvalue : ((Magnitude.literal ⟨0x4057555555555555, by decide⟩).spelling false).value?
      = some (.float (.signed false ⟨0x4057555555555554, by decide⟩)) := by decide +kernel
  obtain ⟨written, hsave, hload⟩ :=
    saves_and_loads hpath .empty (g := finelyAngled) rfl (by decide) hvalue
  exact ⟨by decide, by decide +kernel, written, _, hsave, hload, by decide, by decide⟩

end Grammar

end D0L
