import D0L.Census
import Mathlib

namespace D0L

/-!
# Censuses follow derivations

A census is carried from one generation to the next without the generation itself, and counts stop
at `maxCount` in every addition on the way.  This file proves that nothing is lost by that except
what a single stop at the end would lose too.

* `Census.Tallies c f` — the invariant: `c` holds `f s` occurrences of each symbol `s`, as far as
  counts go, and has entries for the symbols that occur only.
* `Census.Tallies.totalOf_eq` — what the counts add up to.
* `Census.Tallies.next`, `Census.Tallies.after` — a step, and any number of them, carry the
  invariant from a word to the word derived from it, whatever the order of the visits.
* `Census.after_ofWord` — so the census of a later generation is found without that generation.
* `Census.counts_every_symbol` — the counts of the generations, symbol by symbol.
* `Scheme.expandedLength_eq_min_length` — the length found by counting is the length of the
  generation, as far as counts go.
-/

namespace Census

variable {c d : Census} {f g : Symbol → Nat} {w : Word}

/-- The census holds `f s` occurrences of each symbol `s`, as far as counts go; it has no entry for
    a symbol that does not occur. -/
def Tallies (c : Census) (f : Symbol → Nat) : Prop :=
  ∀ s, c.counts.get? s = if f s = 0 then none else some (min (f s) maxCount)

/-- A symbol can be counted at all. -/
theorem one_le_maxCount : 1 ≤ maxCount := by decide

/-- A tally holds what there is, up to the greatest count. -/
theorem Tallies.get (h : c.Tallies f) (s : Symbol) : c.get s = min (f s) maxCount := by
  unfold Census.get
  rw [h s]
  split
  · rename_i hs
    simp [hs]
  · rfl

/-- What a census holds can be told from its counts, since no entry is zero. -/
theorem Tallies.eq_iff (hc : c.Tallies f) (hd : d.Tallies g) :
    c = d ↔ ∀ s, c.get s = d.get s := by
  constructor
  · rintro rfl s
    rfl
  · intro h
    have hcounts : c.counts = d.counts := SymbolMap.ext_get? fun s => by
      -- a capped count is zero only where the count is
      have hs := h s
      rw [hc.get, hd.get] at hs
      have hone := one_le_maxCount
      have hzero : f s = 0 ↔ g s = 0 := by omega
      rw [hc s, hd s, hs]
      simp [hzero]
    cases c
    cases d
    exact congrArg Census.mk hcounts

/-- A census is determined by what it holds. -/
theorem Tallies.unique (hc : c.Tallies f) (hd : d.Tallies f) : c = d :=
  (hc.eq_iff hd).2 fun s => by rw [hc.get, hd.get]

/-- Only the numbers that are counted matter, not how they are given. -/
theorem Tallies.congr (h : c.Tallies f) (hfg : ∀ s, f s = g s) : c.Tallies g := by
  intro s
  rw [h s, hfg s]

/-! ### Building a census -/

theorem tallies_empty : empty.Tallies fun _ => 0 := fun _ => rfl

/-- Adding `k` occurrences of a symbol, where `k` itself may have been stopped before. -/
theorem Tallies.add (h : c.Tallies f) {k : Nat} (hk : 0 < k) (s : Symbol) :
    (c.add s (min k maxCount)).Tallies fun t => f t + if t = s then k else 0 := by
  intro t
  show (c.counts.insert s (addCounts (c.get s) (min k maxCount))).get? t =
    if f t + (if t = s then k else 0) = 0 then none
    else some (min (f t + if t = s then k else 0) maxCount)
  rw [SymbolMap.get?_insert, h.get]
  by_cases hts : t = s
  · subst hts
    have hsum : addCounts (min (f t) maxCount) (min k maxCount) = min (f t + k) maxCount := by
      unfold addCounts addUpTo
      omega
    rw [if_pos rfl, if_pos rfl, hsum, if_neg (by omega)]
  · rw [if_neg hts, if_neg hts, Nat.add_zero, h t]

/-- Adding `k` occurrences of each symbol in a word. -/
theorem Tallies.addWord (h : c.Tallies f) {k : Nat} (hk : 0 < k) (w : Word) :
    (c.addWord (min k maxCount) w).Tallies fun t => f t + k * w.count t := by
  induction w generalizing c f with
  | nil => exact h
  | cons s w ih =>
    -- `s` is added first, so the rest of the word starts from a census that holds more
    apply (ih (h.add hk s)).congr
    intro t
    rw [List.count_cons]
    by_cases hts : t = s
    · subst hts
      rw [if_pos rfl, if_pos (beq_self_eq_true t), Nat.mul_add, Nat.mul_one]
      omega
    · rw [if_neg hts, if_neg (by simpa using Ne.symm hts), Nat.add_zero, Nat.add_zero]

/-- The census of a word holds its symbols as often as they occur. -/
theorem tallies_ofWord (w : Word) : (ofWord w).Tallies w.count := by
  have h := tallies_empty.addWord Nat.one_pos w
  rw [Nat.min_eq_left one_le_maxCount] at h
  apply h.congr
  intro s
  rw [Nat.zero_add, Nat.one_mul]

/-! ### Visiting a census -/

/-- The entries of the census of a word are those of the symbols that occur in it. -/
theorem Tallies.mem_entries_iff (h : c.Tallies w.count) (s : Symbol) (k : Nat) :
    (s, k) ∈ c.counts.entries ↔ s ∈ w ∧ k = min (w.count s) maxCount := by
  rw [← SymbolMap.get?_eq_some_iff, h s]
  by_cases hs : w.count s = 0
  · have hnot : s ∉ w := List.count_eq_zero.1 hs
    simp [hs, hnot]
  · have hmem : s ∈ w := List.count_pos_iff.1 (Nat.pos_of_ne_zero hs)
    simp [hs, hmem, eq_comm]

/-- **What a visit meets.**  The entries of the census of a word are the symbols that occur in it,
    each once and with its count. -/
theorem Tallies.visited_perm (h : c.Tallies w.count) (order : VisitOrder) :
    (c.visited order).Perm (w.dedup.map fun s => (s, min (w.count s) maxCount)) := by
  have hnodup : c.counts.entries.Nodup := c.counts.nodup_symbols.of_map
  -- nothing stands twice on either side, so it is enough to have the same entries
  refine (order.perm _).trans ((List.perm_ext_iff_of_nodup hnodup ?_).2 ?_)
  · exact w.nodup_dedup.map fun s t hst => (Prod.mk.inj hst).1
  · rintro ⟨s, n⟩
    rw [h.mem_entries_iff, List.mem_map]
    simp [eq_comm]

/-! ### Adding up -/

/-- Adding up counts, with a stop at every addition, gives their true sum stopped once. -/
theorem sumCounts_eq (entries : List (Symbol × Nat)) :
    sumCounts entries = min (entries.map Prod.snd).sum maxCount := by
  have h := foldl_addUpTo maxCount Prod.snd entries 0
  rw [Nat.zero_min] at h
  rw [List.sum_eq_foldl, List.foldl_map]
  exact h

/-- Counts that have stopped before they are added up give the same stopped sum. -/
theorem min_sum_min {α : Type} (top : Nat) (f : α → Nat) (l : List α) :
    min (l.map fun a => min (f a) top).sum top = min (l.map f).sum top := by
  induction l with
  | nil => rfl
  | cons a l ih =>
    simp only [List.map_cons, List.sum_cons]
    omega

/-- Adding up over the symbols of a word, each as often as it occurs, is adding up along the
    word. -/
theorem sum_dedup_count (w : Word) (g : Symbol → Nat) :
    (w.dedup.map fun s => w.count s * g s).sum = (w.map g).sum := by
  have hsame : w.dedup.toFinset = w.toFinset := by
    ext s
    simp
  rw [← List.sum_toFinset _ w.nodup_dedup, hsame, Finset.sum_list_map_count]
  rfl

/-- The counts of the symbols that satisfy `p` add up to the number of places that do. -/
theorem Tallies.totalOf_eq (h : c.Tallies w.count) (p : Symbol → Bool) (order : VisitOrder) :
    c.totalOf p order = min (w.countP p) maxCount := by
  -- a true sum does not depend on the order, so the order goes before the stops do
  have hperm := ((h.visited_perm order).filter fun e => p e.1).map Prod.snd
  have hsum : (((c.visited order).filter fun e => p e.1).map Prod.snd).sum =
      ((w.dedup.filter p).map fun s => min (w.count s) maxCount).sum := by
    rw [hperm.sum_eq, List.filter_map, List.map_map]
    rfl
  show sumCounts ((c.visited order).filter fun e => p e.1) = _
  rw [sumCounts_eq, hsum, min_sum_min, List.sum_map_count_dedup_filter_eq_countP]

/-- All counts add up to the length of the word. -/
theorem Tallies.total_eq (h : c.Tallies w.count) (order : VisitOrder) :
    c.total order = min w.length maxCount := by
  have htotal : c.total order = c.totalOf (fun _ => true) order := by
    simp [total, totalOf]
  rw [htotal, h.totalOf_eq, List.countP_true]

/-! ### From one generation to the next -/

/-- Adding the image of each visited symbol, as often as the symbol occurs. -/
theorem Tallies.foldl_addWord (h : c.Tallies f) (image : Symbol → Word) (k : Symbol → Nat)
    (entries : List (Symbol × Nat))
    (hentries : ∀ e ∈ entries, 0 < k e.1 ∧ e.2 = min (k e.1) maxCount) :
    (entries.foldl (fun next (s, n) => next.addWord n (image s)) c).Tallies fun t =>
      f t + (entries.map fun e => k e.1 * (image e.1).count t).sum := by
  -- what the census holds grows along the visit
  induction entries generalizing c f with
  | nil => exact h
  | cons e entries ih =>
    obtain ⟨hpos, hcount⟩ := hentries e (by simp)
    have hfirst : (c.addWord e.2 (image e.1)).Tallies fun t =>
        f t + k e.1 * (image e.1).count t := by
      rw [hcount]
      exact h.addWord hpos (image e.1)
    apply (ih hfirst fun e' he' => hentries e' (by simp [he'])).congr
    intro t
    rw [List.map_cons, List.sum_cons, Nat.add_assoc]

/-- **One generation.**  The census after the census of a word is that of the next generation,
    whatever the order of the visit. -/
theorem Tallies.next (h : c.Tallies w.count) (scheme : Scheme) (order : VisitOrder) :
    (c.next scheme order).Tallies (scheme.next w).count := by
  have hperm := h.visited_perm order
  have hentries : ∀ e ∈ c.visited order, 0 < w.count e.1 ∧ e.2 = min (w.count e.1) maxCount := by
    intro e he
    obtain ⟨s, hs, rfl⟩ := List.mem_map.1 (hperm.mem_iff.1 he)
    exact ⟨List.count_pos_iff.2 (List.mem_dedup.1 hs), rfl⟩
  apply (tallies_empty.foldl_addWord scheme.image w.count (c.visited order) hentries).congr
  intro t
  calc 0 + ((c.visited order).map fun e => w.count e.1 * (scheme.image e.1).count t).sum
      = (w.dedup.map fun s => w.count s * (scheme.image s).count t).sum := by
        rw [Nat.zero_add, (hperm.map _).sum_eq, List.map_map]
        rfl
    _ = (w.map fun s => (scheme.image s).count t).sum := sum_dedup_count w _
    _ = (scheme.next w).count t := List.count_flatMap.symm

/-- **Any number of generations.** -/
theorem Tallies.after (h : c.Tallies w.count) (scheme : Scheme) (n : Nat)
    (orders : Nat → VisitOrder) :
    (c.after scheme n orders).Tallies (scheme.derive n w).count := by
  induction n generalizing c w with
  | zero => exact h
  | succ n ih => exact ih (h.next scheme (orders n))

/-- Taking the census and deriving change places. -/
theorem after_ofWord (scheme : Scheme) (n : Nat) (w : Word) (orders : Nat → VisitOrder) :
    (ofWord w).after scheme n orders = ofWord (scheme.derive n w) :=
  ((tallies_ofWord w).after scheme n orders).unique (tallies_ofWord _)

/-- The counts of a later generation add up to its length, whatever the order of the addition. -/
theorem total_after_ofWord (scheme : Scheme) (n : Nat) (w : Word) (orders : Nat → VisitOrder)
    (order : VisitOrder) :
    ((ofWord w).after scheme n orders).total order = min (scheme.derive n w).length maxCount :=
  ((tallies_ofWord w).after scheme n orders).total_eq order

/-! ### The counts of a generation -/

/-- **A census follows every symbol.**  A census that is carried along for `n` generations has each
    symbol as often as the `n`-th generation has it, as far as counts go.  It has one entry for each
    symbol that occurs there, none for any other, and none that is zero; so two such censuses are
    equal if they agree on the count of every symbol.  The orders of the visits do not show. -/
theorem counts_every_symbol (scheme : Scheme) (start : Word) (n : Nat)
    (orders : Nat → VisitOrder) :
    (∀ s, ((ofWord start).after scheme n orders).get s =
      min ((scheme.expand start n).value.count s) maxCount) ∧
    (∀ s k, (s, k) ∈ ((ofWord start).after scheme n orders).counts.entries ↔
      s ∈ (scheme.expand start n).value ∧ 1 ≤ k ∧
        k = min ((scheme.expand start n).value.count s) maxCount) ∧
    (((ofWord start).after scheme n orders).counts.entries.map Prod.fst).Nodup ∧
    (∀ scheme' start' n' orders',
      (ofWord start).after scheme n orders = (ofWord start').after scheme' n' orders' ↔
        ∀ s, ((ofWord start).after scheme n orders).get s =
          ((ofWord start').after scheme' n' orders').get s) ∧
    ∀ orders', (ofWord start).after scheme n orders = (ofWord start).after scheme n orders' := by
  have htallies := (tallies_ofWord start).after scheme n orders
  simp only [Scheme.expand_value]
  refine ⟨htallies.get, fun s k => ?_, SymbolMap.nodup_symbols _,
    fun scheme' start' n' orders' => ?_, fun orders' => ?_⟩
  · -- a symbol of the word is counted at least once, and the cap is at least one
    rw [htallies.mem_entries_iff]
    refine and_congr_right fun hs => ⟨fun hk => ⟨?_, hk⟩, And.right⟩
    have hcount := List.count_pos_iff.2 hs
    have hone := one_le_maxCount
    omega
  · exact htallies.eq_iff ((tallies_ofWord start').after scheme' n' orders')
  · exact htallies.unique ((tallies_ofWord start).after scheme n orders')

end Census

/-! ### The length of a generation -/

/-- **Counting finds the length.**  The length found without building the generation is its true
    length, stopped once: neither the stops in between nor the orders of the visits show, not even
    where symbols whose counts have stopped are erased later. -/
theorem Scheme.expandedLength_eq_min_length (scheme : Scheme) (start : Word) (n : Nat)
    (orders : Nat → VisitOrder) :
    scheme.expandedLength start n orders =
      min (scheme.expand start n).value.length maxCount := by
  have htallies := Census.tallies_ofWord (scheme.derive n start)
  rw [Scheme.expandedLength, Census.after_ofWord, htallies.total_eq, Scheme.expand_value]

end D0L
