import D0L.Traced

namespace D0L

/-!
# Histories

Something with a state is called a number of times.  Each call has an answer, with events on the way
to it, and may leave another state for the calls behind it.

* `Traced.history` — the answers to some calls, and the state that they leave.
* `Traced.history_append` — a history goes on where the one before it ends.
* `Traced.getElem?_history` — the answer to a call is that of the state which the calls in front of
  it leave.
-/

namespace Traced

variable {κ σ α : Type} {perform : κ → σ → Traced (α × σ)}

/-- The answer to a call, without the state. -/
def answer (t : Traced (α × σ)) : Traced α := ⟨t.events, t.value.1⟩

/-- The answers to some calls, one after the other, and the state in the end. -/
def history (perform : κ → σ → Traced (α × σ)) : List κ → σ → List (Traced α) × σ
  | [], s => ([], s)
  | call :: calls, s =>
    let later := history perform calls (perform call s).value.2
    ((perform call s).answer :: later.1, later.2)

@[simp] theorem history_nil (s : σ) : history perform [] s = ([], s) := rfl

@[simp] theorem history_cons (call : κ) (calls : List κ) (s : σ) :
    history perform (call :: calls) s =
      ((perform call s).answer :: (history perform calls (perform call s).value.2).1,
        (history perform calls (perform call s).value.2).2) := rfl

/-- The calls behind others go on from the state that those leave. -/
theorem history_append (calls more : List κ) (s : σ) :
    history perform (calls ++ more) s =
      ((history perform calls s).1 ++ (history perform more (history perform calls s).2).1,
        (history perform more (history perform calls s).2).2) := by
  induction calls generalizing s with
  | nil => simp
  | cons call calls ih => simp [ih]

/-- Every call has one answer. -/
@[simp] theorem length_history (calls : List κ) (s : σ) :
    (history perform calls s).1.length = calls.length := by
  induction calls generalizing s with
  | nil => simp
  | cons call calls ih => simp [ih]

/-- **One answer in a history.**  It does not depend on the calls behind it, and on those in front
    of it only by the state that they leave. -/
theorem getElem?_history (before : List κ) (call : κ) (after : List κ) (s : σ) :
    (history perform (before ++ call :: after) s).1[before.length]? =
      some (perform call (history perform before s).2).answer := by
  simp [history_append]

end Traced

end D0L
