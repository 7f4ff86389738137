import D0L.Symbol

namespace D0L

/-!
# Maps from symbols

A `SymbolMap α` holds a value for finitely many symbols, in ascending order of the symbols. The
order is part of the type, so two maps are equal exactly when they agree on every symbol
(`SymbolMap.ext_get?`), whatever the order in which they were built.

* `SymbolMap.get?` — the view: the value at a symbol.
* `SymbolMap.insert` — sets the value at a symbol; `SymbolMap.get?_insert` says what it does.
-/

variable {α : Type}

/-- Finitely many symbols with a value each, in ascending order. -/
structure SymbolMap (α : Type) where
  /-- The symbols with their values. -/
  entries : List (Symbol × α)
  /-- The symbols ascend. -/
  ascending : entries.Pairwise fun a b => a.1 < b.1

namespace SymbolMap

/-- The map without symbols. -/
def empty : SymbolMap α where
  entries := []
  ascending := .nil

instance : EmptyCollection (SymbolMap α) where
  emptyCollection := empty

instance : Inhabited (SymbolMap α) where
  default := empty

/-- The value at `s` in a list of entries. -/
def find? (s : Symbol) : List (Symbol × α) → Option α
  | [] => none
  | (t, a) :: rest => if s = t then some a else find? s rest

/-- The value at a symbol. -/
def get? (m : SymbolMap α) (s : Symbol) : Option α := find? s m.entries

/-- Puts an entry in its place among ascending entries, instead of one with the same symbol. -/
def place (s : Symbol) (a : α) : List (Symbol × α) → List (Symbol × α)
  | [] => [(s, a)]
  | (t, b) :: rest =>
      if s < t then (s, a) :: (t, b) :: rest
      else if s = t then (s, a) :: rest
      else (t, b) :: place s a rest

/-- What is in a list after placing an entry has been placed or was there before. -/
theorem mem_place {s : Symbol} {a : α} {p : Symbol × α} {l : List (Symbol × α)}
    (h : p ∈ place s a l) : p = (s, a) ∨ p ∈ l := by
  induction l with
  | nil => simpa [place] using h
  | cons q rest ih =>
    obtain ⟨t, b⟩ := q
    simp only [place] at h
    -- the entry comes in front of the first greater symbol, in place of an equal one, or farther on
    split at h
    · simpa using h
    · split at h
      · rcases List.mem_cons.1 h with h | h
        · exact .inl h
        · exact .inr (List.mem_cons_of_mem _ h)
      · rcases List.mem_cons.1 h with h | h
        · exact .inr (by simp [h])
        · rcases ih h with h | h
          · exact .inl h
          · exact .inr (List.mem_cons_of_mem _ h)

/-- An entry is placed where the order of the symbols wants it. -/
theorem pairwise_place {s : Symbol} {a : α} {l : List (Symbol × α)}
    (h : l.Pairwise fun a b => a.1 < b.1) :
    (place s a l).Pairwise fun a b => a.1 < b.1 := by
  induction l with
  | nil => simp [place]
  | cons q rest ih =>
    obtain ⟨t, b⟩ := q
    obtain ⟨hq, hrest⟩ := List.pairwise_cons.1 h
    simp only [place]
    split
    · rename_i hst
      refine List.pairwise_cons.2 ⟨fun p hp => ?_, h⟩
      rcases List.mem_cons.1 hp with rfl | hp
      · exact hst
      · exact Char.lt_trans hst (hq p hp)
    · split
      · rename_i hst
        subst hst
        exact List.pairwise_cons.2 ⟨hq, hrest⟩
      · rename_i hlt hne
        refine List.pairwise_cons.2 ⟨fun p hp => ?_, ih hrest⟩
        -- farther on there is the new entry besides those of before
        rcases mem_place hp with rfl | hp
        · exact Std.lt_of_le_of_ne (Char.not_lt.1 hlt) (Ne.symm hne)
        · exact hq p hp

/-- An entry with a greater symbol than all others goes behind them. -/
theorem place_eq_append {s : Symbol} {a : α} {l : List (Symbol × α)} (h : ∀ p ∈ l, p.1 < s) :
    place s a l = l ++ [(s, a)] := by
  induction l with
  | nil => rfl
  | cons q rest ih =>
    obtain ⟨t, b⟩ := q
    have hts : t < s := h (t, b) (by simp)
    have hnot : ¬ s < t := fun hst => Char.lt_irrefl t (Char.lt_trans hts hst)
    have hne : s ≠ t := fun heq => Char.lt_irrefl t (heq ▸ hts)
    rw [place, if_neg hnot, if_neg hne,
      ih fun p hp => h p (List.mem_cons_of_mem _ hp), List.cons_append]

/-- Sets the value at a symbol. -/
def insert (m : SymbolMap α) (s : Symbol) (a : α) : SymbolMap α where
  entries := place s a m.entries
  ascending := pairwise_place m.ascending

/-- The number of symbols with a value. -/
def size (m : SymbolMap α) : Nat := m.entries.length

/-! ### What a map holds -/

@[simp] theorem get?_empty (s : Symbol) : (empty : SymbolMap α).get? s = none := rfl

/-- What is found after placing an entry. -/
theorem find?_place (s t : Symbol) (a : α) (l : List (Symbol × α)) :
    find? t (place s a l) = if t = s then some a else find? t l := by
  induction l with
  | nil => simp [place, find?]
  | cons q rest ih =>
    obtain ⟨u, b⟩ := q
    simp only [place]
    split
    · simp [find?]
    · split
      · rename_i hsu
        subst hsu
        by_cases hts : t = s <;> simp [find?, hts]
      · rename_i hne
        -- an entry with another symbol is passed by, unless it is the one that is looked for
        by_cases htu : t = u
        · subst htu
          simp [find?, Ne.symm hne]
        · simp [find?, htu, ih]

/-- Insertion sets the value of one symbol and leaves those of all others. -/
@[simp] theorem get?_insert (m : SymbolMap α) (s t : Symbol) (a : α) :
    (m.insert s a).get? t = if t = s then some a else m.get? t :=
  find?_place s t a m.entries

/-- In ascending order there is one entry for a symbol, so the first one found is the only one. -/
theorem find?_eq_some_iff {s : Symbol} {a : α} {l : List (Symbol × α)}
    (h : l.Pairwise fun a b => a.1 < b.1) : find? s l = some a ↔ (s, a) ∈ l := by
  induction l with
  | nil => simp [find?]
  | cons q rest ih =>
    obtain ⟨t, b⟩ := q
    obtain ⟨hq, hrest⟩ := List.pairwise_cons.1 h
    simp only [find?]
    split
    · rename_i hst
      subst hst
      constructor
      · rintro ⟨⟩
        simp
      · intro hmem
        -- behind the first entry there are only greater symbols
        rcases List.mem_cons.1 hmem with heq | hmem
        · cases heq
          rfl
        · exact absurd (hq _ hmem) (Char.lt_irrefl _)
    · rename_i hst
      rw [ih hrest]
      simp [hst]

/-- A value belongs to a symbol if and only if the two are an entry. -/
theorem get?_eq_some_iff {m : SymbolMap α} {s : Symbol} {a : α} :
    m.get? s = some a ↔ (s, a) ∈ m.entries :=
  find?_eq_some_iff m.ascending

/-- A map is made up of its entries. -/
theorem eq_of_entries_eq {m n : SymbolMap α} (h : m.entries = n.entries) : m = n := by
  cases m
  cases n
  simp_all

/-- Lists in ascending order are equal if they have the same entries. -/
theorem eq_of_mem_iff {l k : List (Symbol × α)} (hl : l.Pairwise fun a b => a.1 < b.1)
    (hk : k.Pairwise fun a b => a.1 < b.1) (h : ∀ p, p ∈ l ↔ p ∈ k) : l = k := by
  induction l generalizing k with
  | nil =>
    cases k with
    | nil => rfl
    | cons q rest => exact absurd ((h q).2 (by simp)) (by simp)
  | cons p l ih =>
    cases k with
    | nil => exact absurd ((h p).1 (by simp)) (by simp)
    | cons q k =>
      obtain ⟨hp, hl'⟩ := List.pairwise_cons.1 hl
      obtain ⟨hq, hk'⟩ := List.pairwise_cons.1 hk
      -- the first entries are equal, since neither can come behind the other
      have hpq : p = q := by
        rcases List.mem_cons.1 ((h p).1 (by simp)) with h₁ | h₁
        · exact h₁
        · rcases List.mem_cons.1 ((h q).2 (by simp)) with h₂ | h₂
          · exact h₂.symm
          · exact absurd (Char.lt_trans (hp _ h₂) (hq _ h₁)) (Char.lt_irrefl _)
      subst hpq
      refine congrArg (p :: ·) (ih hl' hk' fun r => ?_)
      -- without them the lists still have the same entries
      have hr := h r
      simp only [List.mem_cons] at hr
      constructor
      · intro hmem
        rcases hr.1 (.inr hmem) with rfl | h₁
        · exact absurd (hp _ hmem) (Char.lt_irrefl _)
        · exact h₁
      · intro hmem
        rcases hr.2 (.inr hmem) with rfl | h₁
        · exact absurd (hq _ hmem) (Char.lt_irrefl _)
        · exact h₁

/-- No symbol has two values. -/
theorem nodup_symbols (m : SymbolMap α) : (m.entries.map Prod.fst).Nodup := by
  rw [List.Nodup, List.pairwise_map]
  apply m.ascending.imp
  intro a b hlt hab
  rw [hab] at hlt
  exact Char.lt_irrefl _ hlt

/-- Maps that agree on every symbol are equal. -/
theorem ext_get? {m n : SymbolMap α} (h : ∀ s, m.get? s = n.get? s) : m = n := by
  refine eq_of_entries_eq (eq_of_mem_iff m.ascending n.ascending fun p => ?_)
  rw [← get?_eq_some_iff (m := m), ← get?_eq_some_iff (m := n), h]

instance [DecidableEq α] : DecidableEq (SymbolMap α) := fun m n =>
  if h : m.entries = n.entries then .isTrue (eq_of_entries_eq h)
  else .isFalse fun hmn => h (congrArg entries hmn)

end SymbolMap

end D0L
