import D0L.Text.Blank
import D0L.Text.Numeral

namespace D0L

/-!
# Visible text

Text that has only visible characters of ASCII, such as a number, has no blanks, so trimming leaves
it as it is.

* `Text.IsVisible` — such a text; `Text.IsVisible.trim_eq` is about trimming it.
* `Numeral.isVisible_writeInt` — numbers are visible.
-/

/-! ### Characters -/

/-- Whether a character is a visible one of ASCII. -/
def isVisible (c : Char) : Bool := 0x20 < c.toNat && c.toNat < 0x7F

theorem isVisible_iff {c : Char} : isVisible c = true ↔ 0x20 < c.toNat ∧ c.toNat < 0x7F := by
  simp [isVisible]

/-- All blanks of ASCII lie below the visible characters, and the others above. -/
theorem isBlank_of_isVisible {c : Char} (h : isVisible c = true) : isBlank c = false := by
  rw [isVisible_iff] at h
  rw [isBlank, Bool.eq_false_iff, Ne, IntervalSet.contains_eq_true_iff]
  simp [blanks]
  omega

/-- Digits are visible. -/
theorem isVisible_of_isDigit {c : Char} (h : c.isDigit = true) : isVisible c = true := by
  have hbounds : 48 ≤ c.toNat ∧ c.toNat ≤ 57 := Char.isDigit_iff_toNat.1 h
  exact isVisible_iff.2 (by omega)

/-- A capital letter is as visible as the small one. -/
theorem isVisible_of_toLower {c : Char} (h : isVisible c.toLower = true) : isVisible c = true := by
  -- only capital letters change
  by_cases hupper : c.val ≥ 'A'.val ∧ c.val ≤ 'Z'.val
  · have hlow : 65 ≤ c.toNat := UInt32.le_iff_toNat_le.1 hupper.1
    have hhigh : c.toNat ≤ 90 := UInt32.le_iff_toNat_le.1 hupper.2
    exact isVisible_iff.2 (by omega)
  · have hsame : c.toLower = c := dif_neg hupper
    rwa [hsame] at h

/-! ### Text -/

namespace Text

/-- All characters are visible. -/
def IsVisible (t : Text) : Prop := ∀ c ∈ t, isVisible c = true

variable {s t : Text}

/-- A text is visible if its parts are. -/
theorem isVisible_append : IsVisible (s ++ t) ↔ IsVisible s ∧ IsVisible t :=
  List.forall_mem_append

/-- A text is visible if its first character and all the others are. -/
theorem isVisible_cons {c : Char} : IsVisible (c :: t) ↔ isVisible c = true ∧ IsVisible t :=
  List.forall_mem_cons

/-- **Visible text has no blanks to trim.** -/
theorem IsVisible.trim_eq (h : IsVisible t) : trim t = t :=
  trim_eq_self fun c hc => isBlank_of_isVisible (h c hc)

end Text

/-! ### Decimal numerals -/

namespace Numeral

/-- What can be read as digits is visible. -/
theorem isVisible_of_digits? {t : Text} {n : Nat} (h : digits? t = some n) : Text.IsVisible t := by
  unfold digits? at h
  split at h
  · rename_i hdigits
    exact fun c hc => isVisible_of_isDigit (List.all_eq_true.1 hdigits.2 c hc)
  · cases h

/-- A number is written with visible characters. -/
theorem isVisible_write (n : Nat) : Text.IsVisible (write n) :=
  isVisible_of_digits? (digits?_write n)

/-- A number with a sign is written with visible characters. -/
theorem isVisible_writeInt (n : Int) : Text.IsVisible (writeInt n) := by
  unfold writeInt
  split
  · exact Text.isVisible_cons.2 ⟨by decide, isVisible_write _⟩
  · exact isVisible_write _

end Numeral

end D0L
