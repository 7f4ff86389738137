import D0L.Text.Basic
import D0L.Text.IntervalSet

namespace D0L

/-!
# Blanks

The Unicode property White_Space, and text without the blanks around it.
-/

/-- The code points with the property White_Space. -/
def blanks : IntervalSet where
  intervals := [
    (0x9, 0xD), (0x20, 0x20), (0x85, 0x85), (0xA0, 0xA0), (0x1680, 0x1680), (0x2000, 0x200A),
    (0x2028, 0x2029), (0x202F, 0x202F), (0x205F, 0x205F), (0x3000, 0x3000)]

/-- Whether a character is a blank. -/
def isBlank (c : Char) : Bool := blanks.contains c.toNat

namespace Text

/-- The text without its last characters that satisfy `p`. -/
def dropEndWhile (p : Char → Bool) (t : Text) : Text := (t.reverse.dropWhile p).reverse

/-- The text without the blanks at either end. -/
def trim (t : Text) : Text := dropEndWhile isBlank (t.dropWhile isBlank)

/-- A text stays as it is if its last character does not satisfy `p`. -/
theorem dropEndWhile_eq_self {p : Char → Bool} {t : Text}
    (h : ∀ c, t.getLast? = some c → p c = false) : dropEndWhile p t = t := by
  unfold dropEndWhile
  rw [← List.head?_reverse] at h
  cases hreverse : t.reverse with
  | nil => exact (List.reverse_eq_nil_iff.1 hreverse).symm
  | cons c rest =>
    rw [hreverse] at h
    rw [List.dropWhile_cons_of_neg (by simp [h c rfl]), ← hreverse, List.reverse_reverse]

/-- Dropping last characters adds none. -/
theorem mem_of_mem_dropEndWhile {p : Char → Bool} {t : Text} {c : Char}
    (h : c ∈ dropEndWhile p t) : c ∈ t :=
  List.mem_reverse.1 ((List.dropWhile_sublist p).mem (List.mem_reverse.1 h))

/-- Last characters that satisfy `p` do not matter. -/
theorem dropEndWhile_append_of_all {p : Char → Bool} {s t : Text} (h : ∀ c ∈ s, p c = true) :
    dropEndWhile p (t ++ s) = dropEndWhile p t := by
  unfold dropEndWhile
  rw [List.reverse_append, List.dropWhile_append_of_pos fun c hc => h c (List.mem_reverse.1 hc)]

/-- A text without blanks stays as it is. -/
theorem trim_eq_self {t : Text} (h : ∀ c ∈ t, isBlank c = false) : trim t = t := by
  have hfront : t.dropWhile isBlank = t := by
    cases t with
    | nil => rfl
    | cons c t => exact List.dropWhile_cons_of_neg (by simp [h c (by simp)])
  unfold trim
  rw [hfront]
  exact dropEndWhile_eq_self fun c hc => h c (List.mem_of_getLast? hc)

/-- Blanks around a text do not matter. -/
theorem trim_append_of_all {s t u : Text} (hs : ∀ c ∈ s, isBlank c = true)
    (hu : ∀ c ∈ u, isBlank c = true) : trim (s ++ (t ++ u)) = trim t := by
  unfold trim
  rw [List.dropWhile_append_of_pos hs, List.dropWhile_append]
  split
  case isTrue hempty =>
    -- all of `t` is blank
    rw [List.isEmpty_iff.1 hempty]
    show dropEndWhile isBlank ([] ++ u.dropWhile isBlank) = dropEndWhile isBlank []
    exact dropEndWhile_append_of_all fun c hc => hu c ((List.dropWhile_sublist isBlank).mem hc)
  case isFalse => exact dropEndWhile_append_of_all hu

end Text

end D0L
