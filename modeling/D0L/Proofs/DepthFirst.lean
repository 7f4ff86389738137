import D0L.Derivation

namespace D0L

/-!
# Derivations symbol by symbol

An expansion builds one whole generation after the other.  The same word can be found without any
generation in between, by following each symbol of the start word down to the last generation
before the next one is looked at.

* `Scheme.yield n s` — what has become of the symbol `s` after `n` generations, depth first.
* `Scheme.derive_eq_flatMap_yield` — the `n`-th generation is put together from the yields of the
  symbols of the start word, in order.
-/

namespace Scheme

/-- What has become of a symbol after `n` generations.  In the first of them it is replaced if it
    is a letter with a successor; each symbol in its place is followed through the others. -/
def yield (scheme : Scheme) : Nat → Symbol → Word
  | 0, s => [s]
  | n + 1, s =>
    ((if s.isLetter then scheme.get? s else none).getD [s]).flatMap (yield scheme n)

/-- The image of a symbol is its successor if it is a letter that has one, else the symbol. -/
theorem image_eq_getD (scheme : Scheme) (s : Symbol) :
    scheme.image s = (if s.isLetter then scheme.get? s else none).getD [s] := by
  unfold image successor
  split
  · rfl
  · rfl

/-- One symbol is followed through the first generation and then through the others. -/
theorem yield_succ (scheme : Scheme) (n : Nat) (s : Symbol) :
    scheme.yield (n + 1) s = (scheme.image s).flatMap (scheme.yield n) := by
  rw [yield, image_eq_getD]

/-- **Generations and symbols change places.**  Going through the generations one by one, each from
    its first symbol to its last, gives the same word as going through the symbols of the start
    word one by one, each from the first generation to the last. -/
theorem derive_eq_flatMap_yield (scheme : Scheme) (n : Nat) (w : Word) :
    scheme.derive n w = w.flatMap (scheme.yield n) := by
  -- the first generation is split off, so that the others start from an arbitrary word
  induction n generalizing w with
  | zero => exact (List.flatMap_singleton' w).symm
  | succ n ih =>
    have hsucc : scheme.yield (n + 1) = fun s => (scheme.image s).flatMap (scheme.yield n) := by
      ext1 s
      exact scheme.yield_succ n s
    calc scheme.derive (n + 1) w
        = (w.flatMap scheme.image).flatMap (scheme.yield n) := ih (scheme.next w)
      _ = w.flatMap fun s => (scheme.image s).flatMap (scheme.yield n) := List.flatMap_assoc
      _ = w.flatMap (scheme.yield (n + 1)) := by rw [hsucc]

/-- **Breadth first is depth first.**  An expansion gives the yields of the symbols of the start
    word in order.  So parts of a word expand independently, and expanding an expansion further is
    expanding at once. -/
theorem expand_depth_first (scheme : Scheme) :
    (∀ start n, (scheme.expand start n).value = start.flatMap (scheme.yield n)) ∧
    (∀ u v n, (scheme.expand (u ++ v) n).value =
      (scheme.expand u n).value ++ (scheme.expand v n).value) ∧
    ∀ u m n, (scheme.expand (scheme.expand u m).value n).value =
      (scheme.expand u (m + n)).value := by
  have hyield (start : Word) (n : Nat) :
      (scheme.expand start n).value = start.flatMap (scheme.yield n) := by
    rw [expand_value, derive_eq_flatMap_yield]
  refine ⟨hyield, ?_, ?_⟩
  · intro u v n
    rw [hyield, hyield, hyield, List.flatMap_append]
  · intro u m n
    simp only [expand_value]
    exact (derive_add scheme m n u).symm

end Scheme

end D0L
