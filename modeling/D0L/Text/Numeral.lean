import D0L.Text.Basic

namespace D0L

/-!
# Decimal numerals

* `power` — the powers of a base: of ten for decimals, of two for what machine numbers hold.
* `Numeral.write` — the digits of a number, without leading zeros.
* `Numeral.digits?` — the value of a non-empty run of digits; `Numeral.digits?_write` says that it
  reads what `write` writes.
* `Numeral.word?`, `Numeral.signed?` — numbers as a person types them, with an optional sign, if
  they fit 64 bits; `Numeral.word?_write` and `Numeral.signed?_writeInt` say that they read what is
  written.
-/

/-- The power of a base. -/
def power (base n : Nat) : Nat := Nat.pow base n

/-- The next power has one factor more. -/
theorem power_succ (base n : Nat) : power base (n + 1) = power base n * base := rfl

/-- Exponents add up where powers are multiplied. -/
theorem power_add (base m n : Nat) : power base (m + n) = power base m * power base n :=
  Nat.pow_add base m n

/-- A power of ten is one of five times one of two. -/
theorem power_ten (n : Nat) : power 10 n = power 5 n * power 2 n := Nat.mul_pow 5 2 n

/-- The powers of a positive base are positive. -/
theorem power_pos {base : Nat} (hbase : 0 < base) (n : Nat) : 0 < power base n :=
  Nat.pow_pos hbase

/-- Powers grow with their exponents. -/
theorem power_le_power {base m n : Nat} (hbase : 0 < base) (h : m ≤ n) :
    power base m ≤ power base n :=
  Nat.pow_le_pow_right hbase h

namespace Numeral

/-- The greatest unsigned number of 64 bits. -/
def maxWord : Nat := power 2 64 - 1

/-- The decimal digits of `n`. -/
def write (n : Nat) : Text := Nat.toDigits 10 n

/-- The decimal digits of `n`, after a minus sign if it is negative. -/
def writeInt (n : Int) : Text :=
  if n < 0 then '-' :: write n.natAbs else write n.natAbs

/-- The value of a non-empty run of digits. -/
def digits? (t : Text) : Option Nat :=
  if t ≠ [] ∧ t.all Char.isDigit then some (Nat.ofDigitChars 10 t 0) else none

/-- The value of digits after an optional plus sign, if it fits 64 bits. -/
def word? (t : Text) : Option Nat :=
  let digits := match t with
    | '+' :: rest => rest
    | _ => t
  (digits? digits).filter (· ≤ maxWord)

/-- The value of digits after an optional sign, if it fits 64 bits with the sign. -/
def signed? (t : Text) : Option Int :=
  match t with
  | '-' :: rest => ((digits? rest).filter (· ≤ power 2 63)).map fun n => -(n : Int)
  | '+' :: rest => ((digits? rest).filter (· < power 2 63)).map Int.ofNat
  | _ => ((digits? t).filter (· < power 2 63)).map Int.ofNat

/-! ### Writing and reading -/

/-- A number is written with digits only. -/
theorem isDigit_of_mem_write {n : Nat} {c : Char} (h : c ∈ write n) : c.isDigit = true :=
  Nat.isDigit_of_mem_toDigits (by decide) (by decide) h

/-- No other character is in a number that is written. -/
theorem not_mem_write {c : Char} (h : c.isDigit = false) (n : Nat) : c ∉ write n := fun hmem =>
  Bool.noConfusion (h.symm.trans (isDigit_of_mem_write hmem))

/-- Every number has a digit. -/
theorem write_ne_nil (n : Nat) : write n ≠ [] := by
  unfold write
  rcases Nat.lt_or_ge n 10 with h | h
  · rw [Nat.toDigits_of_lt_base h]
    simp
  · rw [Nat.toDigits_of_base_le (by decide) h]
    simp

/-- What has been written is read again. -/
@[simp] theorem digits?_write (n : Nat) : digits? (write n) = some n := by
  have hall : (write n).all Char.isDigit = true :=
    List.all_eq_true.2 fun _ h => isDigit_of_mem_write h
  rw [digits?, if_pos ⟨write_ne_nil n, hall⟩, write,
    Nat.ofDigitChars_toDigits (by decide) (by decide)]

/-- A number that fits is read without a sign. -/
theorem word?_write {n : Nat} (h : n ≤ maxWord) : word? (write n) = some n := by
  unfold word?
  split
  · rename_i rest hwrite
    have hsign : '+' ∈ write n := hwrite ▸ List.mem_cons_self ..
    exact absurd (isDigit_of_mem_write hsign) (by decide)
  · simp [h]

/-- A number that fits with its sign is read with it. -/
theorem signed?_writeInt {n : Int} (hlow : -(power 2 63 : Int) ≤ n) (hhigh : n < power 2 63) :
    signed? (writeInt n) = some n := by
  unfold writeInt
  split
  · have hfits : n.natAbs ≤ power 2 63 := by omega
    rw [signed?, digits?_write, Option.filter_some_pos (by simpa using hfits)]
    exact congrArg some (show -(n.natAbs : Int) = n by omega)
  · have hfits : n.natAbs < power 2 63 := by omega
    -- a number that is not negative is written without any sign
    unfold signed?
    split
    · rename_i rest hwrite
      have hsign : '-' ∈ write n.natAbs := hwrite ▸ List.mem_cons_self ..
      exact absurd (isDigit_of_mem_write hsign) (by decide)
    · rename_i rest hwrite
      have hsign : '+' ∈ write n.natAbs := hwrite ▸ List.mem_cons_self ..
      exact absurd (isDigit_of_mem_write hsign) (by decide)
    · rw [digits?_write, Option.filter_some_pos (by simpa using hfits), Option.map_some]
      exact congrArg some (Int.natAbs_of_nonneg (by omega))

/-- A positive number does not start with a zero. -/
theorem head?_write_ne_zero {n : Nat} (h : 0 < n) : (write n).head? ≠ some '0' := by
  induction n using Nat.strongRecOn with
  | ind n ih =>
    unfold write at ih ⊢
    by_cases hn : n < 10
    · -- one digit, which is the number
      rw [Nat.toDigits_of_lt_base hn, List.head?_cons]
      intro hzero
      have hdigit : n.digitChar.toNat = '0'.toNat := congrArg Char.toNat (Option.some.inj hzero)
      rw [Nat.toNat_digitChar_of_lt_ten hn] at hdigit
      have hcode : '0'.toNat = 48 := rfl
      omega
    · -- the first digit is that of a tenth of the number
      have htens : 0 < n / 10 := by omega
      obtain ⟨c, rest, hdigits⟩ := List.exists_cons_of_ne_nil (write_ne_nil (n / 10))
      have hhead := ih (n / 10) (by omega) htens
      rw [show Nat.toDigits 10 (n / 10) = c :: rest from hdigits] at hhead
      rw [Nat.toDigits_of_base_le (by decide) (Nat.not_lt.1 hn),
        show Nat.toDigits 10 (n / 10) = c :: rest from hdigits]
      exact hhead

end Numeral

end D0L
