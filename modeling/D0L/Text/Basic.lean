namespace D0L

/-!
# Text

Text is a list of Unicode scalar values, and what a file or a console holds is a list of bytes.

* `Text.toBytes` — the UTF-8 bytes of a text.
* `Text.ofBytes?` — the text that some bytes stand for; `Text.ofBytes?_eq_some_iff` says that it
  inverts `Text.toBytes` and refuses all else.
* `Text.toBytes_of_ascii` — ASCII characters are bytes, and the bytes of other characters lie above
  them; so an ASCII character can be found in the bytes (`Text.toUInt8_mem_toBytes_iff`), and be
  read behind any bytes (`Text.ofBytes?_concat_of_ascii`).
-/

/-- A sequence of characters. -/
abbrev Text := List Char

namespace Text

/-- The UTF-8 bytes of a text. -/
def toBytes (t : Text) : List UInt8 := t.flatMap String.utf8EncodeChar

/-- The text that the bytes encode, if they are well-formed UTF-8. -/
def ofBytes? (bytes : List UInt8) : Option Text :=
  bytes.toByteArray.utf8Decode?.map Array.toList

/-! ### Encoding and decoding -/

@[simp] theorem toBytes_nil : toBytes [] = [] := rfl

@[simp] theorem toBytes_cons (c : Char) (t : Text) :
    toBytes (c :: t) = String.utf8EncodeChar c ++ toBytes t := rfl

/-- The bytes of a text are those of its parts, one behind the other. -/
@[simp] theorem toBytes_append (s t : Text) : toBytes (s ++ t) = toBytes s ++ toBytes t := by
  simp [toBytes]

/-- The library encodes text in the same way. -/
theorem toByteArray_toBytes (t : Text) : (toBytes t).toByteArray = t.utf8Encode := rfl

/-- What has been encoded is decoded again. -/
@[simp] theorem ofBytes?_toBytes (t : Text) : ofBytes? (toBytes t) = some t := by
  simp [ofBytes?, toByteArray_toBytes, List.utf8Decode?_utf8Encode]

/-- Decoding accepts exactly the bytes that encoding writes. -/
theorem ofBytes?_eq_some_iff {bytes : List UInt8} {t : Text} :
    ofBytes? bytes = some t ↔ bytes = toBytes t := by
  constructor
  · intro h
    obtain ⟨a, ha, rfl⟩ := Option.map_eq_some_iff.1 h
    have hs : bytes.toByteArray.utf8Decode?.isSome = true := by rw [ha]; rfl
    have he := ByteArray.utf8Encode_get_utf8Decode? (h := hs)
    simp only [ha, Option.get_some] at he
    have hb := congrArg (fun b => b.data.toList) he
    simpa [List.utf8Encode, toBytes] using hb.symm
  · rintro rfl
    exact ofBytes?_toBytes t

/-! ### Bytes of ASCII characters and of others -/

/-- A character of ASCII is one byte. -/
theorem utf8EncodeChar_of_ascii {c : Char} (h : c.toNat < 0x80) :
    String.utf8EncodeChar c = [c.toUInt8] := by
  have hsize : c.utf8Size = 1 :=
    Char.utf8Size_eq_one_iff.2 (UInt32.le_iff_toNat_le.2 (Nat.le_of_lt_succ h))
  rw [String.utf8EncodeChar_eq_singleton hsize, Char.toUInt8_val]

/-- The bytes of an ASCII text are its characters. -/
theorem toBytes_of_ascii {t : Text} (h : ∀ c ∈ t, c.toNat < 0x80) :
    toBytes t = t.map Char.toUInt8 := by
  induction t with
  | nil => rfl
  | cons c t ih =>
    rw [toBytes_cons, utf8EncodeChar_of_ascii (h c (by simp)),
      ih fun d hd => h d (List.mem_cons_of_mem _ hd)]
    rfl

/-- No byte of another character is an ASCII character. -/
theorem le_of_mem_utf8EncodeChar {c : Char} (h : 0x80 ≤ c.toNat) {b : UInt8}
    (hb : b ∈ String.utf8EncodeChar c) : 0x80 ≤ b := by
  have hne : ¬ c.val.toNat ≤ 127 := Nat.not_le.2 h
  rw [String.utf8EncodeChar] at hb
  simp only [if_neg hne] at hb
  rw [UInt8.le_iff_toNat_le]
  show 128 ≤ b.toNat
  split at hb
  · simp only [List.mem_cons, List.not_mem_nil, or_false] at hb
    rcases hb with rfl | rfl <;> rw [UInt8.toNat_ofNat'] <;> omega
  · split at hb
    · simp only [List.mem_cons, List.not_mem_nil, or_false] at hb
      rcases hb with rfl | rfl | rfl <;> rw [UInt8.toNat_ofNat'] <;> omega
    · simp only [List.mem_cons, List.not_mem_nil, or_false] at hb
      rcases hb with rfl | rfl | rfl | rfl <;> rw [UInt8.toNat_ofNat'] <;> omega

/-- The bytes of two ASCII characters differ as the characters do. -/
theorem toUInt8_ne_of_ascii {c d : Char} (hc : c.toNat < 0x80) (hd : d.toNat < 0x80) (h : c ≠ d) :
    c.toUInt8 ≠ d.toUInt8 := by
  intro heq
  have hnat : c.toNat % 256 = d.toNat % 256 := congrArg UInt8.toNat heq
  rw [Nat.mod_eq_of_lt (by omega), Nat.mod_eq_of_lt (by omega)] at hnat
  exact h (Char.toNat_inj.1 hnat)

/-- The byte of an ASCII character belongs to no other character. -/
theorem toUInt8_mem_utf8EncodeChar_iff {c d : Char} (hc : c.toNat < 0x80) :
    c.toUInt8 ∈ String.utf8EncodeChar d ↔ c = d := by
  by_cases hd : d.toNat < 0x80
  · rw [utf8EncodeChar_of_ascii hd, List.mem_singleton]
    constructor
    · intro heq
      by_cases hcd : c = d
      · exact hcd
      · exact absurd heq (toUInt8_ne_of_ascii hc hd hcd)
    · rintro rfl
      rfl
  · -- the bytes of `d` are too great to be one
    refine iff_of_false (fun hmem => ?_) fun hcd => hd (hcd ▸ hc)
    have hle := UInt8.le_iff_toNat_le.1 (le_of_mem_utf8EncodeChar (Nat.not_lt.1 hd) hmem)
    have hbyte : c.toUInt8.toNat = c.toNat % 256 := rfl
    have hbound : (0x80 : UInt8).toNat = 128 := rfl
    omega

/-- An ASCII character stands in a text if its byte stands among the bytes, and not otherwise. -/
theorem toUInt8_mem_toBytes_iff {c : Char} (hc : c.toNat < 0x80) {t : Text} :
    c.toUInt8 ∈ toBytes t ↔ c ∈ t := by
  simp [toBytes, toUInt8_mem_utf8EncodeChar_iff hc]

/-- Bytes with an ASCII character behind them stand for a text if they do so without it, and for no
    text if they do not. -/
theorem ofBytes?_concat_of_ascii {c : Char} (hc : c.toNat < 0x80) (bytes : List UInt8) :
    ofBytes? (bytes ++ [c.toUInt8]) = (ofBytes? bytes).map (· ++ [c]) := by
  have hchar : toBytes [c] = [c.toUInt8] := by
    rw [toBytes_cons, toBytes_nil, List.append_nil, utf8EncodeChar_of_ascii hc]
  cases hbytes : ofBytes? bytes with
  | some t =>
    rw [Option.map_some, ofBytes?_eq_some_iff, toBytes_append, hchar,
      ← ofBytes?_eq_some_iff.1 hbytes]
  | none =>
    rw [Option.map_none, Option.eq_none_iff_forall_ne_some]
    intro t ht
    have heq : bytes ++ [c.toUInt8] = toBytes t := ofBytes?_eq_some_iff.1 ht
    -- bytes that are no text do not become one by another character
    rcases List.eq_nil_or_concat t with rfl | ⟨front, d, rfl⟩
    · simp at heq
    · -- the last byte is that of `c`, so the last character is `c`
      rw [List.concat_eq_append, toBytes_append] at heq
      have hlast : c.toUInt8 ∈ toBytes [d] := by
        have hne : toBytes [d] ≠ [] := by simp [toBytes, String.utf8EncodeChar_ne_nil]
        have hget := congrArg List.getLast? heq
        rw [List.getLast?_concat, List.getLast?_append, List.getLast?_eq_some_getLast hne,
          Option.some_or] at hget
        exact Option.some.inj hget ▸ List.getLast_mem hne
      obtain rfl : c = d := List.mem_singleton.1 ((toUInt8_mem_toBytes_iff hc).1 hlast)
      rw [hchar] at heq
      have hfront : bytes = toBytes front := List.append_cancel_right heq
      rw [hfront, ofBytes?_toBytes] at hbytes
      cases hbytes

end Text

end D0L
