import D0L.Proofs.Json.Reads

namespace D0L.Json.Reader

/-!
# Readers that emit nothing

Only what a reader is told to emit is emitted.  The readers of tokens and of single values are told
nothing of the kind, whatever they find.

* `Quiet` — a reader emits nothing, and what it reads has a property.
* `Quiet.bind` — one reader after the other.
* `quiet_wanting`, `quiet_nextKey` — values and keys.
-/

variable {ε α β : Type} {r : Reader ε α} {f : α → Reader ε β} {Q : α → Prop} {R : β → Prop}

/-- A reader emits nothing, and what it reads has a property. -/
def Quiet (r : Reader ε α) (Q : α → Prop) : Prop :=
  ∀ input, (r.run input).emitted = [] ∧
    ∀ a rest, (r.run input).outcome = .ok (a, rest) → Q a

/-- A value that is there already is not reported. -/
theorem quiet_pure {a : α} (h : Q a) : Quiet (pure a : Reader ε α) Q := by
  intro input
  refine ⟨rfl, fun b rest hb => ?_⟩
  obtain ⟨rfl, rfl⟩ := Prod.mk.inj (Except.ok.inj hb)
  exact h

/-- A failure reports nothing and gives no value. -/
theorem quiet_fail (fault : Fault) : Quiet (fail fault : Reader ε α) Q :=
  fun _ => ⟨rfl, fun _ _ h => nomatch h⟩

/-- A scan reports nothing, whatever it finds. -/
theorem quiet_scan (g : List UInt8 → Except Fault (α × List UInt8)) :
    Quiet (scan g : Reader ε α) fun _ => True :=
  fun _ => ⟨rfl, fun _ _ _ => trivial⟩

theorem quiet_peek : Quiet (peek : Reader ε (Option UInt8)) fun _ => True :=
  fun _ => ⟨rfl, fun _ _ _ => trivial⟩

theorem quiet_advance : Quiet (advance : Reader ε Unit) fun _ => True :=
  fun _ => ⟨rfl, fun _ _ _ => trivial⟩

/-- Two quiet readers in a row are quiet, if the second one is for every value that the first one
    can give. -/
theorem Quiet.bind (hr : Quiet r Q) (hf : ∀ a, Q a → Quiet (f a) R) : Quiet (r >>= f) R := by
  intro input
  obtain ⟨hsilent, hQ⟩ := hr input
  cases hrun : r.run input with
  | mk items outcome =>
    rw [hrun] at hsilent hQ
    obtain rfl : items = [] := hsilent
    cases outcome with
    | error fault =>
      rw [run_bind_of_error hrun]
      exact ⟨rfl, fun _ _ h => nomatch h⟩
    | ok found =>
      obtain ⟨a, rest⟩ := found
      rw [run_bind_of_silent hrun]
      exact hf a (hQ a rest rfl) rest

/-! ### Tokens and values -/

theorem quiet_expect (b : UInt8) : Quiet (expect b : Reader ε Unit) fun _ => True := by
  refine quiet_peek.bind fun next _ => ?_
  cases next with
  | none => exact quiet_fail _
  | some c =>
    show Quiet (if c = b then advance else fail .malformed) _
    split
    · exact quiet_advance
    · exact quiet_fail _

theorem quiet_literal (name : Text) : Quiet (literal name : Reader ε Unit) fun _ => True :=
  quiet_advance.bind fun _ _ => quiet_scan _

/-- Whatever a value begins with, reading it reports nothing. -/
theorem quiet_found (b : UInt8) : Quiet (found b : Reader ε Found) fun _ => True := by
  rw [found]
  repeat' split
  · exact (quiet_literal _).bind fun _ _ => quiet_pure trivial
  · exact (quiet_literal _).bind fun _ _ => quiet_pure trivial
  · exact (quiet_literal _).bind fun _ _ => quiet_pure trivial
  · exact quiet_advance.bind fun _ _ => (quiet_scan _).bind fun _ _ => quiet_pure trivial
  · exact (quiet_scan _).bind fun _ _ => quiet_pure trivial
  · exact quiet_advance.bind fun _ _ => (quiet_scan _).bind fun _ _ => quiet_pure trivial
  · exact quiet_pure trivial
  · exact quiet_pure trivial
  · exact quiet_fail _

/-- A value of the wanted kind is read quietly, and so is a misfit. -/
theorem quiet_wanting (wanted : Wanted) (take : Found → Option α) :
    Quiet (wanting wanted take : Reader ε α) fun _ => True := by
  refine quiet_peek.bind fun next _ => ?_
  cases next with
  | none => exact quiet_fail _
  | some b =>
    refine (quiet_found b).bind fun kind _ => ?_
    cases take kind with
    | none => exact quiet_fail _
    | some a => exact quiet_pure trivial

/-- A key is checked quietly. -/
theorem quiet_only (key : Text) : Quiet (only key : Reader ε Char) fun _ => True := by
  unfold only
  split
  · exact quiet_pure trivial
  · exact quiet_fail _

/-- A key is looked for at once, or behind a comma. -/
theorem quiet_behindComma {f : Option UInt8 → Reader ε β} (hf : ∀ next, Quiet (f next) R)
    (first : Bool) (b : UInt8) :
    Quiet (if first then pure (some b) >>= f
      else if b = ','.toUInt8 then advance >>= fun _ => peek >>= f
      else fail .malformed >>= f : Reader ε β) R := by
  split
  · exact (quiet_pure (Q := fun _ => True) trivial).bind fun next _ => hf next
  · split
    · exact quiet_advance.bind fun _ _ => quiet_peek.bind fun next _ => hf next
    · exact (quiet_fail (Q := fun _ => True) _).bind fun next _ => hf next

/-- The search for the next key is quiet. -/
theorem quiet_nextKey (first : Bool) :
    Quiet (nextKey first : Reader ε (Option Text)) fun _ => True := by
  refine quiet_peek.bind fun next _ => ?_
  -- every branch takes bytes or fails, and no branch emits
  cases next with
  | none => exact quiet_fail _
  | some b =>
    show Quiet (if b = Bracket.object.closing then _ else _) _
    split
    · exact quiet_advance.bind fun _ _ => quiet_pure trivial
    · refine quiet_behindComma (fun next => ?_) first b
      cases next with
      | none => exact quiet_fail _
      | some c =>
        show Quiet (if c = '"'.toUInt8 then _ else _) _
        split
        · exact quiet_advance.bind fun _ _ => (quiet_scan _).bind fun _ _ => quiet_pure trivial
        · exact quiet_fail _

end D0L.Json.Reader
