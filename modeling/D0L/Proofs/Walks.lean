import D0L.Grammar
import D0L.Proofs.Definitions
import D0L.Proofs.Histories

namespace D0L

/-!
# Walks along the generations

A walk can be asked at every place which generation this is, which word, and how long it is, and can
be told to go on.  The room for the next generation is used again and again, and holds an older
generation most of the time; this file proves that nothing of it is ever seen.

* `Cursor.Call`, `Cursor.perform` — what can be asked of a walk, and how it is answered.
* `Cursor.history_eq_iterate` — of some calls, only the steps matter for the place that they lead to
  and for what is reported.
* `Scheme.answerAt` — what a call has to be answered, said by expansions.
* `Cursor.follows_expansion` — every call is answered so, wherever the walk is taken up and whatever
  the spare room holds there.
-/

namespace Cursor

/-! ### Calls -/

/-- What can be asked of a walk. -/
inductive Call where
  /-- To go on to the next generation. -/
  | step
  /-- The word of the generation. -/
  | word
  /-- The number of the generation. -/
  | generation
  /-- The length of the generation. -/
  | length
deriving DecidableEq

/-- What a walk answers. -/
inductive Answer where
  /-- A generation. -/
  | word (w : Word)
  /-- A number. -/
  | number (n : Nat)
deriving DecidableEq

/-- Answers a call.  A step is answered with the generation that it leads to. -/
def perform (scheme : Scheme) (call : Call) (c : Cursor) : Traced (Answer × Cursor) :=
  match call with
  | .step => do
    let c ← c.step scheme
    return (.word c.word, c)
  | .word => return (.word c.word, c)
  | .generation => return (.number c.generation, c)
  | .length => return (.number c.word.length, c)

variable (scheme : Scheme) (calls : List Call) (c : Cursor)

/-- Some calls lead as far as the steps among them, and are reported as these are. -/
theorem history_eq_iterate :
    ⟨(Traced.history (perform scheme) calls c).1.flatMap Traced.events,
      (Traced.history (perform scheme) calls c).2⟩ =
      Traced.iterate (step scheme) (calls.count .step) c := by
  induction calls generalizing c with
  | nil => rfl
  | cons call calls ih =>
    -- only a step changes the cursor; the other calls look at it
    cases call with
    | step =>
      have hrest := ih (c.step scheme).value
      rw [List.count_cons_self, Traced.iterate_succ]
      apply Traced.eq_of_parts
      · simp [perform, Traced.answer, ← hrest]
      · simp [perform, ← hrest]
    | word => exact ih c
    | generation => exact ih c
    | length => exact ih c

/-- Calls lead as far as the steps among them do. -/
theorem last_history :
    (Traced.history (perform scheme) calls c).2 =
      (Traced.iterate (step scheme) (calls.count .step) c).value :=
  congrArg Traced.value (history_eq_iterate scheme calls c)

/-- Nothing but the steps is reported. -/
theorem events_history :
    (Traced.history (perform scheme) calls c).1.flatMap Traced.events =
      (Traced.iterate (step scheme) (calls.count .step) c).events :=
  congrArg Traced.events (history_eq_iterate scheme calls c)

end Cursor

/-! ### Answers -/

/-- What a call has to be answered in the `k`-th generation after a word, and what has to be
    reported with it: a step leads to the next generation and is reported, and no other call is. -/
def Scheme.answerAt (scheme : Scheme) (start : Word) (k : Nat) : Cursor.Call → Traced Cursor.Answer
  | .step =>
    ⟨[.expanded (k + 1) (scheme.expand start (k + 1)).value.length],
      .word (scheme.expand start (k + 1)).value⟩
  | .word => ⟨[], .word (scheme.expand start k).value⟩
  | .generation => ⟨[], .number k⟩
  | .length => ⟨[], .number (scheme.expand start k).value.length⟩

namespace Cursor

variable {scheme : Scheme} {start : Word} {k : Nat} {c : Cursor}

/-- A place where the `k`-th generation after a word is shown.  Nothing is said of the spare
    room. -/
structure StandsAt (scheme : Scheme) (start : Word) (k : Nat) (c : Cursor) : Prop where
  /-- The number of the generation is right. -/
  generation_eq : c.generation = k
  /-- The word is the one that the scheme derives. -/
  word_eq : c.word = scheme.derive k start

/-- Some calls lead as many generations further on as there are steps among them. -/
theorem StandsAt.history (h : StandsAt scheme start k c) (calls : List Call) :
    StandsAt scheme start (k + calls.count .step)
      (Traced.history (perform scheme) calls c).2 := by
  rw [last_history]
  constructor
  · rw [generation_iterate_step, h.generation_eq]
  · rw [word_iterate_step, h.word_eq, Scheme.derive_add]

/-- What is reported on some calls are the generations that the steps among them lead to. -/
theorem StandsAt.events_history (h : StandsAt scheme start k c) (calls : List Call) :
    (Traced.history (perform scheme) calls c).1.flatMap Traced.events =
      (List.range (calls.count .step)).map fun i =>
        .expanded (k + (i + 1)) (scheme.derive (k + (i + 1)) start).length := by
  rw [Cursor.events_history, events_iterate_step, h.generation_eq, h.word_eq]
  apply List.map_congr_left
  intro i _
  rw [← Scheme.derive_add]

/-- Every call is answered as it has to be. -/
theorem StandsAt.answer_perform (h : StandsAt scheme start k c) (call : Call) :
    (c.perform scheme call).answer = scheme.answerAt start k call := by
  obtain ⟨hgeneration, hword⟩ := h
  cases call with
  | step =>
    -- the next word is built in the spare room, and is the one that the scheme derives
    have hnext : scheme.next c.word = scheme.derive (k + 1) start := by
      rw [hword, Scheme.derive_succ_eq_next]
    simp only [perform, Traced.answer, Scheme.answerAt, Scheme.expand_value, Traced.events_bind,
      Traced.value_bind, Traced.events_pure, Traced.value_pure, events_step, word_step, hnext,
      hgeneration, List.append_nil]
  | word => simp [perform, Traced.answer, Scheme.answerAt, hword]
  | generation => simp [perform, Traced.answer, Scheme.answerAt, hgeneration]
  | length => simp [perform, Traced.answer, Scheme.answerAt, hword]

/-- **A walk shows the expansions.**  Wherever a walk is taken up, and whatever its spare room holds
    there, some calls lead to the generation that is as many steps further on; its number and its
    word are right, and the word is the one that the scheme derives without any room.  Every call
    is answered by the generation that the steps before it have led to, and a step by the next one,
    which it reports.  A walk that has just been started is one of these, also the one of a grammar;
    and an expansion reports its steps and nothing else. -/
theorem follows_expansion (scheme : Scheme) (start : Word) :
    (∀ (m : Nat) (spare : Word) (calls : List Call),
      let walked := Traced.history (perform scheme) calls ⟨m, (scheme.expand start m).value, spare⟩
      let k := m + calls.count .step
      walked.2.generation = k ∧ walked.2.word = (scheme.expand start k).value ∧
      walked.2.word = scheme.derive k start ∧
      walked.1.flatMap Traced.events = (List.range (calls.count .step)).map fun i =>
        .expanded (m + (i + 1)) (scheme.expand start (m + (i + 1))).value.length) ∧
    (∀ (m : Nat) (spare : Word) (before : List Call) (call : Call) (after : List Call),
      (Traced.history (perform scheme) (before ++ call :: after)
        ⟨m, (scheme.expand start m).value, spare⟩).1[before.length]? =
      some (scheme.answerAt start (m + before.count .step) call)) ∧
    Cursor.start start = ⟨0, (scheme.expand start 0).value, []⟩ ∧
    (∀ g : Grammar, g.walk = ⟨0, (g.expand 0).value, []⟩) ∧
    (∀ n, (scheme.expand start n).events = (List.range n).map fun i =>
      .expanded (i + 1) (scheme.expand start (i + 1)).value.length) ∧
    ∀ k length, (Event.expanded k length).record = (.debug, "expanded generation".toList,
      [("generation".toList, Numeral.write k), ("length".toList, Numeral.write length)]) := by
  -- the spare buffer says nothing about the place
  have hplace (m : Nat) (spare : Word) :
      StandsAt scheme start m ⟨m, (scheme.expand start m).value, spare⟩ :=
    ⟨rfl, scheme.expand_value start m⟩
  refine ⟨?_, ?_, rfl, fun g => rfl, scheme.expand_events start, fun k length => rfl⟩
  · intro m spare calls
    have hlast := (hplace m spare).history calls
    refine ⟨hlast.generation_eq, ?_, hlast.word_eq, ?_⟩
    · rw [hlast.word_eq, Scheme.expand_value]
    · rw [(hplace m spare).events_history calls]
      simp only [Scheme.expand_value]
  · intro m spare before call after
    rw [Traced.getElem?_history, ((hplace m spare).history before).answer_perform]

end Cursor

end D0L
