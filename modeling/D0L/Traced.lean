import D0L.Event

namespace D0L

/-!
# Traced values

* `Traced α` — a value with the events on the way to it, in order.
* `Attempt α` — a traced value or an error; the events before an error stay.
* `Traced.iterate`, `Attempt.iterate` — a traced step, taken a number of times. The events are
  collected on the way, and `Traced.iterate_succ`, `Attempt.iterate_succ` say that this is the
  same as taking the step and then the others.
-/

variable {α β : Type}

/-- A value with the events on the way to it. -/
structure Traced (α : Type) where
  /-- The events, in order. -/
  events : List Event
  /-- The value. -/
  value : α

namespace Traced

instance : Monad Traced where
  pure a := ⟨[], a⟩
  bind t f := ⟨t.events ++ (f t.value).events, (f t.value).value⟩

/-- Reports events. -/
def report (events : List Event) : Traced Unit := ⟨events, ()⟩

@[simp] theorem events_pure (a : α) : (pure a : Traced α).events = [] := rfl

@[simp] theorem value_pure (a : α) : (pure a : Traced α).value = a := rfl

/-- The events of two computations in a row come one behind the other. -/
@[simp] theorem events_bind (t : Traced α) (f : α → Traced β) :
    (t >>= f).events = t.events ++ (f t.value).events := rfl

/-- The second computation goes on with the value of the first. -/
@[simp] theorem value_bind (t : Traced α) (f : α → Traced β) :
    (t >>= f).value = (f t.value).value := rfl

@[simp] theorem events_map (f : α → β) (t : Traced α) : (f <$> t).events = t.events :=
  List.append_nil _

@[simp] theorem value_map (f : α → β) (t : Traced α) : (f <$> t).value = f t.value := rfl

/-- Traced values with equal parts are equal. -/
theorem eq_of_parts {s t : Traced α} (he : s.events = t.events) (hv : s.value = t.value) :
    s = t := by
  cases s
  cases t
  simp_all

instance : LawfulMonad Traced := LawfulMonad.mk' _
  (fun _ => eq_of_parts (by simp) rfl)
  (fun _ _ => rfl)
  (fun _ _ _ => eq_of_parts (by simp) rfl)

/-- Takes a traced step `n` times. The events so far are in `seen`, the last one first. -/
def iterateFrom (step : α → Traced α) (seen : List Event) : Nat → α → Traced α
  | 0, a => ⟨seen.reverse, a⟩
  | n + 1, a =>
    let next := step a
    iterateFrom step (next.events.reverse ++ seen) n next.value

/-- Takes a traced step `n` times. -/
def iterate (step : α → Traced α) (n : Nat) (a : α) : Traced α := iterateFrom step [] n a

/-- The events of the steps come behind those that have been seen before, whose list is kept in
    reverse. -/
theorem iterateFrom_eq (step : α → Traced α) (seen : List Event) (n : Nat) (a : α) :
    iterateFrom step seen n a =
      ⟨seen.reverse ++ (iterate step n a).events, (iterate step n a).value⟩ := by
  induction n generalizing seen a with
  | zero => simp [iterateFrom, iterate]
  | succ n ih =>
    have hseen := ih ((step a).events.reverse ++ seen) (step a).value
    have hnil := ih ((step a).events.reverse ++ []) (step a).value
    simp only [iterate, iterateFrom] at hseen hnil ⊢
    rw [hseen, hnil]
    simp

theorem iterate_zero (step : α → Traced α) (a : α) : iterate step 0 a = pure a := rfl

/-- Taking a step `n + 1` times is taking it once and then `n` times. -/
theorem iterate_succ (step : α → Traced α) (n : Nat) (a : α) :
    iterate step (n + 1) a = step a >>= iterate step n := by
  refine (iterateFrom_eq step _ n _).trans (eq_of_parts ?_ ?_) <;> simp

end Traced

/-- A traced value or an error. -/
abbrev Attempt (α : Type) := ExceptT Error Traced α

namespace Attempt

/-- The events of an attempt. -/
def events (a : Attempt α) : List Event := (ExceptT.run a).events

/-- The value of an attempt, or the error. -/
def outcome (a : Attempt α) : Except Error α := (ExceptT.run a).value

@[simp] theorem events_pure (a : α) : events (pure a) = [] := rfl

@[simp] theorem outcome_pure (a : α) : outcome (pure a) = .ok a := rfl

@[simp] theorem events_throw (e : Error) : events (throw e : Attempt α) = [] := rfl

/-- A failure has no value, only its error. -/
@[simp] theorem outcome_throw (e : Error) : outcome (throw e : Attempt α) = .error e := rfl

/-- A computation that cannot fail keeps its events. -/
@[simp] theorem events_lift (t : Traced α) : events (ExceptT.lift t) = t.events :=
  Traced.events_map ..

@[simp] theorem outcome_lift (t : Traced α) : outcome (ExceptT.lift t) = .ok t.value := rfl

/-- What follows a traced value adds its events to those on the way to the value. -/
@[simp] theorem events_lift_bind (t : Traced α) (f : α → Attempt β) :
    events (ExceptT.lift t >>= f) = t.events ++ events (f t.value) := by
  show (Except.ok <$> t).events ++ _ = _
  rw [Traced.events_map]
  rfl

/-- Behind a computation that cannot fail the outcome is that of the rest. -/
@[simp] theorem outcome_lift_bind (t : Traced α) (f : α → Attempt β) :
    outcome (ExceptT.lift t >>= f) = outcome (f t.value) := rfl

/-- Nothing follows an error. -/
@[simp] theorem throw_bind (e : Error) (f : α → Attempt β) :
    (throw e : Attempt α) >>= f = throw e := rfl

/-- What follows an attempt adds its events, unless the attempt has failed. -/
theorem events_bind (a : Attempt α) (f : α → Attempt β) :
    events (a >>= f) = a.events ++ match a.outcome with
      | .ok x => events (f x)
      | .error _ => [] := by
  show (ExceptT.run a >>= ExceptT.bindCont f).events = _
  rw [Traced.events_bind, events, outcome]
  cases (ExceptT.run a).value with
  | ok x => rfl
  | error e => rfl

/-- What follows an attempt follows its value, if it has one. -/
theorem outcome_bind (a : Attempt α) (f : α → Attempt β) :
    outcome (a >>= f) = match a.outcome with
      | .ok x => outcome (f x)
      | .error e => .error e := by
  show (ExceptT.run a >>= ExceptT.bindCont f).value = _
  rw [Traced.value_bind, outcome]
  cases (ExceptT.run a).value with
  | ok x => rfl
  | error e => rfl

/-- Attempts with equal parts are equal. -/
theorem eq_of_parts {a b : Attempt α} (he : a.events = b.events) (ho : a.outcome = b.outcome) :
    a = b :=
  Traced.eq_of_parts he ho

/-- What follows a traced value follows that one value only. -/
theorem lift_bind_eq (t : Traced α) (f : α → Attempt β) :
    ExceptT.lift t >>= f = ExceptT.lift t >>= fun _ => f t.value := by
  apply eq_of_parts
  · rw [events_lift_bind, events_lift_bind]
  · rw [outcome_lift_bind, outcome_lift_bind]

/-- Takes a step that can fail `n` times. The events so far are in `seen`, the last one first. -/
def iterateFrom (step : α → Attempt α) (seen : List Event) : Nat → α → Attempt α
  | 0, a => ExceptT.mk ⟨seen.reverse, .ok a⟩
  | n + 1, a =>
    let next := ExceptT.run (step a)
    match next.value with
    | .error e => ExceptT.mk ⟨seen.reverse ++ next.events, .error e⟩
    | .ok b => iterateFrom step (next.events.reverse ++ seen) n b

/-- Takes a step that can fail `n` times, as long as it does not fail. -/
def iterate (step : α → Attempt α) (n : Nat) (a : α) : Attempt α := iterateFrom step [] n a

/-- The events of the steps come behind those that have been seen before, up to the first failure.
    -/
theorem iterateFrom_eq (step : α → Attempt α) (seen : List Event) (n : Nat) (a : α) :
    iterateFrom step seen n a =
      ExceptT.mk ⟨seen.reverse ++ (iterate step n a).events, (iterate step n a).outcome⟩ := by
  induction n generalizing seen a with
  | zero => simp [iterateFrom, iterate, events, outcome, ExceptT.run, ExceptT.mk]
  | succ n ih =>
    simp only [iterate, iterateFrom]
    cases hv : (ExceptT.run (step a)).value with
    | error e => simp [events, outcome, ExceptT.run, ExceptT.mk]
    | ok b =>
      have hseen := ih ((ExceptT.run (step a)).events.reverse ++ seen) b
      have hnil := ih ((ExceptT.run (step a)).events.reverse ++ []) b
      simp only [iterate] at hseen hnil
      simp only [hseen, hnil]
      simp [events, outcome, ExceptT.run, ExceptT.mk]

theorem iterate_zero (step : α → Attempt α) (a : α) : iterate step 0 a = pure a := rfl

/-- Taking a step `n + 1` times is taking it once and, if it succeeds, `n` times. -/
theorem iterate_succ (step : α → Attempt α) (n : Nat) (a : α) :
    iterate step (n + 1) a = step a >>= iterate step n := by
  simp only [iterate, iterateFrom]
  refine Traced.eq_of_parts ?_ ?_ <;>
    cases hv : (ExceptT.run (step a)).value with
    | error e => simp_all [bind, ExceptT.bind, ExceptT.bindCont, ExceptT.mk, ExceptT.run]
    | ok b =>
      have h := iterateFrom_eq step ((ExceptT.run (step a)).events.reverse ++ []) n b
      simp_all [bind, ExceptT.bind, ExceptT.bindCont, ExceptT.mk, ExceptT.run, iterate, events,
        outcome]

end Attempt

end D0L
