import D0L.Text.Quoted

namespace D0L.Text

/-!
# Quoted text is one line and can be read back

What stands between the quotes has no line feed, and no quote that could be taken for the closing
one.  Each character can be read back from the front, whether it stands for itself or is escaped;
so two texts are never quoted alike, not even if one of them looks like the escapes of the other.

* `Text.unescape?` — reads the first character back; `Text.unescape?_escaped` says that it does.
* `Text.quoted_append_inj` — a quoted text can be told from whatever stands behind it.
* `Text.lineFeed_not_mem_quoted` — it is a part of one line.
-/

/-! ### Hexadecimal digits -/

/-- The value of a hexadecimal digit. -/
def hexDigit (c : Char) : Nat :=
  if c.isDigit then c.toNat - '0'.toNat else c.toNat - 'a'.toNat + 10

/-- The number that hexadecimal digits stand for. -/
def ofHex (digits : Text) : Nat := digits.foldl (fun n c => 16 * n + hexDigit c) 0

/-- A hexadecimal digit is read as what it stands for. -/
theorem hexDigit_digitChar : ∀ d < 16, hexDigit (Nat.digitChar d) = d := by decide

/-- The digits of a number stand for it. -/
theorem ofHex_toDigits (n : Nat) : ofHex (Nat.toDigits 16 n) = n := by
  induction n using Nat.strongRecOn with
  | ind n ih =>
    by_cases hn : n < 16
    · rw [Nat.toDigits_of_lt_base hn]
      show 16 * 0 + hexDigit (Nat.digitChar n) = n
      rw [hexDigit_digitChar n hn, Nat.mul_zero, Nat.zero_add]
    · -- the last digit is split off
      have hrest := ih (n / 16) (by omega)
      unfold ofHex at hrest ⊢
      rw [Nat.toDigits_of_base_le (by decide) (Nat.not_lt.1 hn), List.foldl_append, hrest]
      show 16 * (n / 16) + hexDigit (Nat.digitChar (n % 16)) = n
      rw [hexDigit_digitChar _ (Nat.mod_lt n (by decide))]
      exact Nat.div_add_mod n 16

/-- What is in a hexadecimal number is a digit. -/
theorem exists_digitChar_of_mem_toDigits {n : Nat} {c : Char} (h : c ∈ Nat.toDigits 16 n) :
    ∃ d, c = Nat.digitChar d := by
  induction n using Nat.strongRecOn with
  | ind n ih =>
    by_cases hn : n < 16
    · rw [Nat.toDigits_of_lt_base hn, List.mem_singleton] at h
      exact ⟨n, h⟩
    · rw [Nat.toDigits_of_base_le (by decide) (Nat.not_lt.1 hn)] at h
      rcases List.mem_append.1 h with h | h
      · exact ih (n / 16) (by omega) h
      · exact ⟨n % 16, List.mem_singleton.1 h⟩

/-! ### One character -/

/-- The character that the escape behind a backslash stands for, and what comes after it. -/
def escape? : Text → Option (Char × Text)
  | '0' :: rest => some ('\x00', rest)
  | 't' :: rest => some ('\t', rest)
  | 'n' :: rest => some ('\n', rest)
  | 'r' :: rest => some ('\r', rest)
  | '"' :: rest => some ('"', rest)
  | '\\' :: rest => some ('\\', rest)
  | 'u' :: '{' :: rest =>
    some (.ofNat (ofHex (rest.takeWhile (· ≠ '}'))), (rest.dropWhile (· ≠ '}')).drop 1)
  | _ => none

/-- The first character between quotes, and what comes after it; there is none at the closing
    quote. -/
def unescape? : Text → Option (Char × Text)
  | [] => none
  | c :: rest =>
    if c = '"' then none else if c = '\\' then escape? rest else some (c, rest)

/-- An escape that gives a character by its number. -/
theorem escape?_number (c : Char) (rest : Text) :
    escape? ('u' :: '{' :: (Nat.toDigits 16 c.toNat ++ '}' :: rest)) = some (c, rest) := by
  have hdigits : ∀ d ∈ Nat.toDigits 16 c.toNat, decide (d ≠ '}') = true := by
    intro d hd
    obtain ⟨k, rfl⟩ := exists_digitChar_of_mem_toDigits hd
    exact decide_eq_true (Nat.digitChar_ne '}' (by decide))
  rw [escape?, List.takeWhile_append_of_pos hdigits, List.dropWhile_append_of_pos hdigits,
    List.takeWhile_cons_of_neg (by decide), List.dropWhile_cons_of_neg (by decide),
    List.append_nil, ofHex_toDigits, Char.ofNat_toNat, List.drop_one, List.tail_cons]

/-- **One character is read back,** whatever stands behind it. -/
theorem unescape?_escaped (c : Char) (rest : Text) :
    unescape? (escaped c ++ rest) = some (c, rest) := by
  unfold escaped
  split
  case h_7 hquote hbackslash =>
    split
    · -- a character that does not show
      rw [List.append_assoc, List.append_assoc]
      exact escape?_number c rest
    · -- a character that stands for itself
      show unescape? (c :: rest) = some (c, rest)
      rw [unescape?, if_neg hquote, if_neg hbackslash]
  all_goals rfl

/-- No escape has a line feed, and a line feed is escaped. -/
theorem lineFeed_not_mem_escaped (c : Char) : '\n' ∉ escaped c := by
  unfold escaped
  split
  case h_7 hfeed _ _ _ =>
    split
    · intro hmem
      have hdigit : '\n' ∈ Nat.toDigits 16 c.toNat := by simpa using hmem
      obtain ⟨k, hk⟩ := exists_digitChar_of_mem_toDigits hdigit
      exact Nat.digitChar_ne '\n' (by decide) hk.symm
    · rw [List.mem_singleton]
      exact fun h => hfeed h.symm
  all_goals decide

/-! ### Quoted text -/

/-- Texts that are equal once they are escaped, up to a closing quote, are equal, and so is what
    stands behind them. -/
theorem flatMap_escaped_append_inj {s t x y : Text}
    (h : s.flatMap escaped ++ '"' :: x = t.flatMap escaped ++ '"' :: y) : s = t ∧ x = y := by
  -- the first characters are read back on both sides
  induction s generalizing t with
  | nil =>
    cases t with
    | nil => exact ⟨rfl, List.tail_eq_of_cons_eq h⟩
    | cons d t =>
      have hfirst := congrArg unescape? h
      rw [List.flatMap_cons, List.append_assoc, unescape?_escaped] at hfirst
      cases hfirst
  | cons c s ih =>
    cases t with
    | nil =>
      have hfirst := congrArg unescape? h
      rw [List.flatMap_cons, List.append_assoc, unescape?_escaped] at hfirst
      cases hfirst
    | cons d t =>
      have hfirst := congrArg unescape? h
      rw [List.flatMap_cons, List.flatMap_cons, List.append_assoc, List.append_assoc,
        unescape?_escaped, unescape?_escaped, Option.some.injEq, Prod.mk.injEq] at hfirst
      obtain ⟨rfl, hrest⟩ := hfirst
      obtain ⟨rfl, rfl⟩ := ih hrest
      exact ⟨rfl, rfl⟩

/-- **A quoted text tells where it ends and what it quotes,** whatever stands behind it. -/
theorem quoted_append_inj {s t x y : Text} (h : quoted s ++ x = quoted t ++ y) :
    s = t ∧ x = y := by
  apply flatMap_escaped_append_inj
  simpa [quoted] using h

/-- An escape, and a text that looks like it. -/
example : quoted ['\x01'] = "\"\\u\x7b1\x7d\"".toList ∧
    quoted "\\u\x7b1\x7d".toList = "\"\\\\u\x7b1\x7d\"".toList := by
  decide

/-- **A quoted text is a part of one line.** -/
theorem lineFeed_not_mem_quoted (t : Text) : '\n' ∉ quoted t := by
  have hbody : '\n' ∉ t.flatMap escaped := by
    intro hmem
    obtain ⟨c, -, hc⟩ := List.mem_flatMap.1 hmem
    exact lineFeed_not_mem_escaped c hc
  simp [quoted, hbody]

end D0L.Text
