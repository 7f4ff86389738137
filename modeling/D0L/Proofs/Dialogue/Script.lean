import D0L.Proofs.Dialogue.Turns

namespace D0L

/-!
# Well-formed dialogues

A dialogue succeeds if each of its questions is answered sooner or later, the number of generations
is not negative and no generation is too long.  This file describes such dialogues without running
one, and proves that no others succeed.

* `Answer` — an answer to one question, with the lines before it that are none.
* `Dialogue.Script` — the answers to all questions; `Dialogue.Script.lines` is what has to be typed,
  `Dialogue.Script.outcome` and `Dialogue.Script.output` are what comes of it.
* `Dialogue.Says` — a dialogue that writes something and then does what another one does.
* `Dialogue.says_of_answer`, `Dialogue.exists_answer` — one question: what an answer leads to, and
  that there is one in every dialogue that succeeds.
* `Dialogue.says_of_rules`, `Dialogue.exists_rules` — the same for the rules, however many.
* `Dialogue.succeeds_iff_script` — the dialogues that succeed are those with a script.
-/

/-- An answer to a question, with the lines before it that are none.  What an answer means is found
    by `read`. -/
structure Answer {α : Type} (read : Text → Option α) where
  /-- The lines before the answer. -/
  rejected : List Text
  /-- The answer. -/
  line : Text
  /-- What it means. -/
  value : α
  /-- None of the lines before is an answer. -/
  read_rejected : ∀ l ∈ rejected, read l = none
  /-- The answer means this. -/
  read_line : read line = some value

namespace Answer

variable {α : Type} {read : Text → Option α}

/-- All that is typed. -/
def lines (a : Answer read) : List Text := a.rejected ++ [a.line]

/-- What is written meanwhile: the question, and for each line that is no answer the reason for that
    and the question again. -/
def said (a : Answer read) (question : Text) (reason : Text → Error) : Text :=
  a.rejected.flatMap (fun line => question ++ Dialogue.rejection (reason line)) ++ question

/-- The answer with one more line before it that is none. -/
def precededBy (a : Answer read) (text : Text) (h : read text = none) : Answer read where
  rejected := text :: a.rejected
  line := a.line
  value := a.value
  read_rejected l hl := by
    rcases List.mem_cons.1 hl with rfl | hl
    · exact h
    · exact a.read_rejected l hl
  read_line := a.read_line

/-- A rejected line stands in front of the answer. -/
theorem lines_precededBy (a : Answer read) (text : Text) (h : read text = none) :
    (a.precededBy text h).lines = text :: a.lines := rfl

end Answer

/-- The angle in a line, with blanks around it or without. -/
def angleOf? (line : Text) : Option Binary64 := Binary64.ofText? (Text.trim line)

/-- The number of rules in a line, with blanks around it or without. -/
def ruleCountOf? (line : Text) : Option Nat := Numeral.word? (Text.trim line)

/-- The rule in a line. -/
def ruleOf? (line : Text) : Option Production := (Production.ofLine line).toOption

/-- The number of generations in a line, with blanks around it or without. -/
def expansionsOf? (line : Text) : Option Int := Numeral.signed? (Text.trim line)

/-- Only an empty line holds no rule. -/
theorem ruleOf?_eq_none_iff {line : Text} : ruleOf? line = none ↔ line = [] := by
  cases line with
  | nil => exact ⟨fun _ => rfl, fun _ => rfl⟩
  | cons symbol successor =>
    have hrule : ruleOf? (symbol :: successor) = some { symbol, successor } := rfl
    simp [hrule]

/-! ### Questions -/

/-- In a phase, `read` finds what an answer means and `react` is what it does; all other lines are
    rejected for a reason. -/
structure Phase.Asks {α : Type} (phase : Phase) (read : Text → Option α) (reason : Text → Error)
    (react : α → Reply) : Prop where
  /-- What an answer does. -/
  accepts : ∀ {line value}, read line = some value → (phase.hear line).value = react value
  /-- What all other lines do. -/
  rejects : ∀ {line}, read line = none → (phase.hear line).value = .rejected (reason line)

namespace Phase

/-- The first question is for an angle, and any other text is rejected. -/
theorem asks_angle : Asks .angle angleOf? (.notANumber .angle) fun x => .next (.start x) where
  accepts h := by
    unfold angleOf? at h
    simp [hear, h]
  rejects h := by
    unfold angleOf? at h
    simp [hear, h]

/-- Behind the start word the question is for the number of rules. -/
theorem asks_ruleCount (x : Binary64) (w : Word) :
    Asks (.ruleCount x w) ruleCountOf? (.notANumber .ruleCount)
      fun count => .next (.nextRule x w 1 .empty count) where
  accepts h := by
    unfold ruleCountOf? at h
    simp [hear, h]
  rejects h := by
    unfold ruleCountOf? at h
    simp [hear, h]

/-- A rule is any line that is not empty. -/
theorem asks_rule (x : Binary64) (w : Word) (index left : Nat) (scheme : Scheme) :
    Asks (.rule x w index left scheme) ruleOf? (fun _ => .emptyRule)
      fun p => .next (.nextRule x w (index + 1) (scheme.add p).value left) where
  accepts {line p} h := by
    cases line with
    | nil => cases h
    | cons symbol successor =>
      obtain rfl : { symbol, successor } = p := Option.some.inj h
      rfl
  rejects h := by
    rw [ruleOf?_eq_none_iff.1 h]
    rfl

/-- The last question ends the dialogue. -/
theorem asks_expansions (grammar : Grammar) :
    Asks (.expansions grammar) expansionsOf? (.notANumber .expansions) (.finished grammar) where
  accepts h := by
    unfold expansionsOf? at h
    simp [hear, h]
  rejects h := by
    unfold expansionsOf? at h
    simp [hear, h]

end Phase

namespace Dialogue

/-- The answers of a dialogue. -/
structure Script where
  /-- The angle. -/
  angle : Answer angleOf?
  /-- The start word, which may be any line. -/
  start : Text
  /-- The number of rules. -/
  ruleCount : Answer ruleCountOf?
  /-- The rules. -/
  rules : List (Answer ruleOf?)
  /-- The number of generations. -/
  expansions : Answer expansionsOf?
  /-- There are as many rules as announced. -/
  length_rules : rules.length = ruleCount.value
  /-- The number of generations is not negative. -/
  expansions_nonneg : 0 ≤ expansions.value

namespace Script

/-- All that is typed. -/
def lines (s : Script) : List Text :=
  s.angle.lines ++ s.start :: (s.ruleCount.lines ++
    (s.rules.flatMap Answer.lines ++ s.expansions.lines))

/-- The grammar that is described. -/
def grammar (s : Script) : Grammar where
  angle := s.angle.value
  start := s.start
  scheme := (Scheme.collect (s.rules.map Answer.value)).value

/-- The number of generations. -/
def count (s : Script) : Nat := s.expansions.value.toNat

/-- Whether no generation is longer than the limit, if there is one. -/
def Fits (s : Script) (limit : Option Nat) : Prop :=
  ∀ most, limit = some most →
    ∃ w, (s.grammar.scheme.expandWithin most s.grammar.start s.count).outcome = .ok w

/-- What comes of it. -/
def outcome (s : Script) : Outcome where
  grammar := s.grammar
  count := s.count
  result := (s.grammar.expand s.count).value

/-- What is written while the rules are given, the first of which has number `index`. -/
def saidRules (index : Nat) (rules : List (Answer ruleOf?)) : Text :=
  (rules.zipIdx index).flatMap fun (rule, i) =>
    rule.said ("Enter Rule ".toList ++ Numeral.write i ++ ": ".toList) fun _ => .emptyRule

/-- Rules are asked for one by one, with their numbers. -/
theorem saidRules_cons (index : Nat) (a : Answer ruleOf?) (rules : List (Answer ruleOf?)) :
    saidRules index (a :: rules) =
      a.said ("Enter Rule ".toList ++ Numeral.write index ++ ": ".toList) (fun _ => .emptyRule) ++
        saidRules (index + 1) rules := by
  unfold saidRules
  rw [List.zipIdx_cons, List.flatMap_cons]

/-- All that is written. -/
def output (s : Script) : Text :=
  s.angle.said "Enter angle: ".toList (.notANumber .angle) ++
    ("Enter starting pattern: ".toList ++
      (s.ruleCount.said "Enter the number of rules: ".toList (.notANumber .ruleCount) ++
        (saidRules 1 s.rules ++
          (s.expansions.said "Enter the number of expansions: ".toList (.notANumber .expansions) ++
            resultLine s.outcome.count s.outcome.result))))

end Script

/-! ### What has been typed so far -/

/-- The bytes of some lines stand for these texts. -/
def Spells (lines : List (List UInt8)) (texts : List Text) : Prop :=
  lines.map lineText? = texts.map some

theorem Spells.eq_nil {ls : List (List UInt8)} (h : Spells ls []) : ls = [] :=
  List.map_eq_nil_iff.1 h

/-- Lines that are typed one behind the other spell the texts one behind the other. -/
theorem Spells.append {ls ls' : List (List UInt8)} {ts ts' : List Text} (h : Spells ls ts)
    (h' : Spells ls' ts') : Spells (ls ++ ls') (ts ++ ts') := by
  unfold Spells at *
  rw [List.map_append, List.map_append, h, h']

/-- One line more spells one text more. -/
theorem Spells.cons {ls : List (List UInt8)} {ts : List Text} {line : List UInt8} {text : Text}
    (h : Spells ls ts) (hline : lineText? line = some text) : Spells (line :: ls) (text :: ts) := by
  unfold Spells at *
  rw [List.map_cons, List.map_cons, hline, h]

/-- Lines can be parted where the texts that they spell can. -/
theorem Spells.of_append {ls : List (List UInt8)} {ts ts' : List Text}
    (h : Spells ls (ts ++ ts')) :
    ∃ front rest, ls = front ++ rest ∧ Spells front ts ∧ Spells rest ts' := by
  unfold Spells at *
  rw [List.map_append] at h
  exact List.map_eq_append_iff.1 h

/-- The first of some lines spells the first text. -/
theorem Spells.of_cons {ls : List (List UInt8)} {t : Text} {ts : List Text}
    (h : Spells ls (t :: ts)) :
    ∃ line rest, ls = line :: rest ∧ lineText? line = some t ∧ Spells rest ts :=
  List.map_eq_cons_iff.1 h

/-- Lines begin with some texts if the first of them stand for these. -/
theorem exists_spells_of_isPrefix {ls : List (List UInt8)} {ts : List Text} :
    ts.map some <+: ls.map lineText? ↔ ∃ front rest, ls = front ++ rest ∧ Spells front ts := by
  constructor
  · rintro ⟨more, h⟩
    obtain ⟨front, rest, hls, hfront, -⟩ := List.map_eq_append_iff.1 h.symm
    exact ⟨front, rest, hls, hfront⟩
  · rintro ⟨front, rest, rfl, h⟩
    rw [List.map_append, h]
    exact List.prefix_append ..

/-! ### What has been written so far -/

/-- The dialogue `d` writes a text, and does what `d'` does from there on. -/
def Says (d : Dialogue) (text : Text) (d' : Dialogue) : Prop :=
  d.output = text ++ d'.output ∧ d.outcome = d'.outcome

/-- **Parts of a dialogue are put together:** what is printed comes one behind the other. -/
theorem Says.trans {d d' d'' : Dialogue} {t t' : Text} (h : Says d t d') (h' : Says d' t' d'') :
    Says d (t ++ t') d'' :=
  ⟨by rw [h.1, h'.1, List.append_assoc], h.2.trans h'.2⟩

variable {α : Type} {read : Text → Option α} {reason : Text → Error} {react : α → Reply}
  (limit : Option Nat) {phase next : Phase} {grammar : Grammar} {count : Int}
  {line : List UInt8} {text : Text}

/-- A line that is rejected. -/
theorem says_of_rejected (hline : lineText? line = some text) {e : Error}
    (h : (phase.hear text).value = .rejected e) (rest : List (List UInt8)) :
    Says (run limit phase (line :: rest)) (phase.prompt ++ rejection e) (run limit phase rest) := by
  unfold Says
  rw [run]
  simp [hline, h]

/-- A line that is an answer but the last one. -/
theorem says_of_next (hline : lineText? line = some text)
    (h : (phase.hear text).value = .next next) (rest : List (List UInt8)) :
    Says (run limit phase (line :: rest)) phase.prompt (run limit next rest) := by
  unfold Says
  rw [run]
  simp [hline, h]

/-- The last answer. -/
theorem says_of_finished (hline : lineText? line = some text)
    (h : (phase.hear text).value = .finished grammar count) (rest : List (List UInt8)) :
    Says (run limit phase (line :: rest)) phase.prompt (conclude limit grammar count) := by
  unfold Says
  rw [run]
  simp [hline, h]

/-- A dialogue that succeeds does not end before a line that is text. -/
theorem exists_text_of_ok {limit : Option Nat} {ls : List (List UInt8)} {o : Outcome}
    (h : (run limit phase ls).outcome = .ok o) :
    ∃ line rest text, ls = line :: rest ∧ lineText? line = some text := by
  cases ls with
  | nil => cases h
  | cons line rest =>
    cases htext : lineText? line with
    | none =>
      rw [run, htext] at h
      cases h
    | some text => exact ⟨line, rest, text, rfl, htext⟩

/-! ### One question -/

/-- Lines that are no answers are rejected one after the other. -/
theorem says_of_all_rejected (hasks : phase.Asks read reason react) {texts : List Text}
    (htexts : ∀ l ∈ texts, read l = none) {front : List (List UInt8)} (hfront : Spells front texts)
    (rest : List (List UInt8)) :
    Says (run limit phase (front ++ rest))
      (texts.flatMap fun line => phase.prompt ++ rejection (reason line))
      (run limit phase rest) := by
  induction texts generalizing front with
  | nil =>
    obtain rfl := hfront.eq_nil
    exact ⟨rfl, rfl⟩
  | cons text texts ih =>
    obtain ⟨line, front, rfl, hline, hfront⟩ := hfront.of_cons
    have hfirst := says_of_rejected limit hline (hasks.rejects (htexts text (by simp)))
      (front ++ rest)
    exact hfirst.trans (ih (fun l hl => htexts l (by simp [hl])) hfront)

/-- **An answer leads on.**  In the end it leads to what its last line leads to. -/
theorem says_of_answer (hasks : phase.Asks read reason react) (a : Answer read)
    {front : List (List UInt8)} (hfront : Spells front a.lines) (rest : List (List UInt8)) :
    (∀ next, react a.value = .next next →
      Says (run limit phase (front ++ rest)) (a.said phase.prompt reason) (run limit next rest)) ∧
    ∀ grammar count, react a.value = .finished grammar count →
      Says (run limit phase (front ++ rest)) (a.said phase.prompt reason)
        (conclude limit grammar count) := by
  -- first the lines that are rejected, then the one that is accepted
  obtain ⟨before, last, rfl, hbefore, hlast⟩ := hfront.of_append
  obtain ⟨line, nothing, rfl, hline, hnothing⟩ := hlast.of_cons
  obtain rfl := hnothing.eq_nil
  have hrejected := says_of_all_rejected limit hasks a.read_rejected hbefore
    (line :: rest)
  have hheard := hasks.accepts a.read_line
  rw [List.append_assoc]
  constructor
  · intro next hnext
    exact hrejected.trans (says_of_next limit hline (hheard.trans hnext) rest)
  · intro grammar count hfinished
    exact hrejected.trans (says_of_finished limit hline (hheard.trans hfinished) rest)

/-- **Every question is answered** in a dialogue that succeeds. -/
theorem exists_answer {limit : Option Nat} (hasks : phase.Asks read reason react)
    {ls : List (List UInt8)} {o : Outcome} (h : (run limit phase ls).outcome = .ok o) :
    ∃ a : Answer read, ∃ front rest, ls = front ++ rest ∧ Spells front a.lines := by
  induction ls with
  | nil => cases h
  | cons line rest ih =>
    obtain ⟨line, rest, text, hls, hline⟩ := exists_text_of_ok h
    cases hls
    cases hread : read text with
    | some value =>
      -- the first line is the answer
      refine ⟨⟨[], text, value, by simp, hread⟩, [line], rest, rfl, ?_⟩
      exact Spells.cons rfl hline
    | none =>
      -- the first line is rejected, and the answer comes later
      have hrejected := says_of_rejected limit hline (hasks.rejects hread) rest
      obtain ⟨a, front, rest, rfl, hfront⟩ := ih (hrejected.2.symm.trans h)
      refine ⟨a.precededBy text hread, line :: front, rest, rfl, ?_⟩
      rw [Answer.lines_precededBy]
      exact hfront.cons hline

/-! ### The rules -/

/-- **Rules lead to the grammar,** however many there are. -/
theorem says_of_rules (x : Binary64) (w : Word) (index : Nat) (scheme : Scheme)
    {rules : List (Answer ruleOf?)} {front : List (List UInt8)}
    (hfront : Spells front (rules.flatMap Answer.lines)) (rest : List (List UInt8)) :
    Says (run limit (.nextRule x w index scheme rules.length) (front ++ rest))
      (Script.saidRules index rules)
      (run limit (.expansions
        { angle := x, start := w, scheme := (scheme.extend (rules.map Answer.value)).value })
        rest) := by
  -- the first rule is added to the scheme, which the others then start from
  induction rules generalizing index scheme front with
  | nil =>
    rw [List.flatMap_nil] at hfront
    obtain rfl := hfront.eq_nil
    simp [Says, Script.saidRules, Phase.nextRule, Scheme.extend]
  | cons a rules ih =>
    rw [List.flatMap_cons] at hfront
    obtain ⟨first, others, rfl, hfirst, hothers⟩ := hfront.of_append
    have hone := (says_of_answer limit
      (Phase.asks_rule x w index rules.length scheme) a hfirst (others ++ rest)).1 _ rfl
    have hmany := ih (index + 1) (scheme.add a.value).value hothers
    have hscheme : (scheme.extend ((a :: rules).map Answer.value)).value =
        ((scheme.add a.value).value.extend (rules.map Answer.value)).value := rfl
    rw [List.append_assoc, Script.saidRules_cons, hscheme]
    exact hone.trans hmany

/-- **All rules are given** in a dialogue that succeeds. -/
theorem exists_rules {limit : Option Nat} {x : Binary64} {w : Word} {index n : Nat}
    {scheme : Scheme} {ls : List (List UInt8)} {o : Outcome}
    (h : (run limit (.nextRule x w index scheme n) ls).outcome = .ok o) :
    ∃ rules : List (Answer ruleOf?), rules.length = n ∧
      ∃ front rest, ls = front ++ rest ∧ Spells front (rules.flatMap Answer.lines) := by
  -- the first rule is found, and the others in the lines behind it
  induction n generalizing index scheme ls with
  | zero => exact ⟨[], rfl, [], ls, rfl, rfl⟩
  | succ n ih =>
    have hasks := Phase.asks_rule x w index n scheme
    obtain ⟨a, first, ls, rfl, hfirst⟩ := exists_answer hasks h
    have hone := (says_of_answer limit hasks a hfirst ls).1 _ rfl
    obtain ⟨rules, hlength, others, rest, rfl, hothers⟩ := ih (hone.2.symm.trans h)
    refine ⟨a :: rules, congrArg (· + 1) hlength, first ++ others, rest, ?_, ?_⟩
    · rw [List.append_assoc]
    · rw [List.flatMap_cons]
      exact hfirst.append hothers

/-! ### Whole dialogues -/

/-- An expansion under a limit succeeds if the number of generations is not negative and the limit
    is kept. -/
theorem expandCount_ok_iff {g : Grammar} {limit : Option Nat} {count : Int} :
    (∃ p, (g.expandCount limit count).outcome = .ok p) ↔
      0 ≤ count ∧ ∀ most, limit = some most →
        ∃ w, (g.scheme.expandWithin most g.start count.toNat).outcome = .ok w := by
  cases count with
  | negSucc k =>
    constructor
    · rintro ⟨p, h⟩
      cases h
    · rintro ⟨h, -⟩
      exact absurd h (by omega)
  | ofNat n =>
    have hpos : (0 : Int) ≤ Int.ofNat n := Int.natCast_nonneg n
    cases limit with
    | none => exact ⟨fun _ => ⟨hpos, fun _ h => by cases h⟩, fun _ => ⟨_, rfl⟩⟩
    | some limit =>
      -- what is left is the expansion under a limit
      rw [Grammar.outcome_expandCount_limited]
      cases h : (g.scheme.expandWithin limit g.start n).outcome with
      | ok w =>
        refine ⟨fun _ => ⟨hpos, ?_⟩, fun _ => ⟨_, rfl⟩⟩
        rintro most ⟨⟩
        exact ⟨w, h⟩
      | error e =>
        constructor
        · rintro ⟨p, hp⟩
          cases hp
        · rintro ⟨-, hfits⟩
          obtain ⟨w, hw⟩ := hfits limit rfl
          exact absurd (h.symm.trans hw) (by simp)

/-- A script that keeps the limit ends with its outcome. -/
theorem conclude_of_fits {limit : Option Nat} {s : Script} (h : s.Fits limit) :
    (conclude limit s.grammar s.expansions.value).output =
        resultLine s.outcome.count s.outcome.result ∧
      (conclude limit s.grammar s.expansions.value).outcome = .ok s.outcome := by
  obtain ⟨p, hp⟩ := expandCount_ok_iff.2 ⟨s.expansions_nonneg, h⟩
  obtain ⟨n, hn, hok⟩ | ⟨-, herror⟩ | ⟨-, _, _, _, -, herror⟩ :=
    s.grammar.outcome_expandCount limit s.expansions.value
  · have hcount : s.count = n := by
      rw [Script.count, hn, Int.toNat_natCast]
    rw [← hcount] at hok
    exact conclude_of_ok hok
  · exact absurd (hp.symm.trans herror) (by simp)
  · exact absurd (hp.symm.trans herror) (by simp)

/-- A dialogue that begins with a script writes what the script says. -/
theorem says_of_script {limit : Option Nat} {s : Script} (h : s.Fits limit)
    {front : List (List UInt8)} (hfront : Spells front s.lines) (rest : List (List UInt8)) :
    (run limit .angle (front ++ rest)).output = s.output ∧
      (run limit .angle (front ++ rest)).outcome = .ok s.outcome := by
  -- one part of the input for each kind of question
  obtain ⟨angle, others, rfl, hangle, hothers⟩ := hfront.of_append
  obtain ⟨start, others, rfl, hstart, hothers⟩ := hothers.of_cons
  obtain ⟨ruleCount, others, rfl, hruleCount, hothers⟩ := hothers.of_append
  obtain ⟨rules, expansions, rfl, hrules, hexpansions⟩ := hothers.of_append
  have saysAngle := (says_of_answer limit Phase.asks_angle s.angle hangle
    (start :: (ruleCount ++ (rules ++ (expansions ++ rest))))).1 _ rfl
  have saysStart : Says (run limit (.start s.angle.value)
      (start :: (ruleCount ++ (rules ++ (expansions ++ rest))))) "Enter starting pattern: ".toList
      (run limit (.ruleCount s.angle.value s.start)
        (ruleCount ++ (rules ++ (expansions ++ rest)))) :=
    says_of_next limit hstart rfl _
  have saysRuleCount := (says_of_answer limit
    (Phase.asks_ruleCount s.angle.value s.start) s.ruleCount hruleCount
    (rules ++ (expansions ++ rest))).1 _ rfl
  have saysRules := says_of_rules limit s.angle.value s.start 1 .empty hrules
    (expansions ++ rest)
  rw [s.length_rules] at saysRules
  have saysExpansions := (says_of_answer limit (Phase.asks_expansions s.grammar)
    s.expansions hexpansions rest).2 _ _ rfl
  have hspoken := saysAngle.trans (saysStart.trans (saysRuleCount.trans
    (saysRules.trans saysExpansions)))
  obtain ⟨houtput, houtcome⟩ := conclude_of_fits h
  simp only [List.append_assoc, List.cons_append]
  refine ⟨hspoken.1.trans ?_, hspoken.2.trans houtcome⟩
  rw [houtput, Script.output]
  simp only [List.append_assoc]
  rfl

/-- The answers in a dialogue that succeeds make a script. -/
theorem exists_script {limit : Option Nat} {ls : List (List UInt8)} {o : Outcome}
    (h : (run limit .angle ls).outcome = .ok o) :
    ∃ s : Script, s.Fits limit ∧ ∃ front rest, ls = front ++ rest ∧ Spells front s.lines := by
  -- each part is found in what the parts before it have left
  obtain ⟨a, angle, ls, rfl, hangle⟩ := exists_answer Phase.asks_angle h
  replace h := ((says_of_answer limit Phase.asks_angle a hangle ls).1 _ rfl).2.symm.trans h
  obtain ⟨start, ls, w, rfl, hstart⟩ := exists_text_of_ok h
  replace h := (says_of_next limit hstart rfl ls).2.symm.trans h
  have hasks := Phase.asks_ruleCount a.value w
  obtain ⟨c, ruleCount, ls, rfl, hruleCount⟩ := exists_answer hasks h
  replace h := ((says_of_answer limit hasks c hruleCount ls).1 _ rfl).2.symm.trans h
  obtain ⟨rs, hlength, rules, ls, rfl, hrules⟩ := exists_rules h
  rw [← hlength] at h
  replace h := (says_of_rules limit a.value w 1 .empty hrules ls).2.symm.trans h
  obtain ⟨e, expansions, rest, rfl, hexpansions⟩ := exists_answer (Phase.asks_expansions _) h
  replace h :=
    ((says_of_answer limit (Phase.asks_expansions _) e hexpansions rest).2 _ _ rfl).2.symm.trans h
  -- all questions are answered, so only the expansion could still fail
  have hcount : ∃ p, (Grammar.expandCount
      { angle := a.value, start := w, scheme := (Scheme.collect (rs.map Answer.value)).value }
      limit e.value).outcome = .ok p := by
    cases hp : (Grammar.expandCount
      { angle := a.value, start := w, scheme := (Scheme.collect (rs.map Answer.value)).value }
      limit e.value).outcome with
    | ok p => exact ⟨p, rfl⟩
    | error err => exact absurd ((conclude_of_error hp).2.symm.trans h) (by simp)
  obtain ⟨hnonneg, hfits⟩ := expandCount_ok_iff.1 hcount
  refine ⟨⟨a, w, c, rs, e, hlength, hnonneg⟩, hfits,
    angle ++ start :: (ruleCount ++ (rules ++ expansions)), rest, ?_, ?_⟩
  · simp only [List.append_assoc, List.cons_append]
  · exact hangle.append (Spells.cons (hruleCount.append (hrules.append hexpansions)) hstart)

/-- **The dialogues that succeed are those with a script,** whose answers come first in the input
    and keep the limit.  The script tells what comes of the dialogue, and what is written. -/
theorem succeeds_iff_script (limit : Option Nat) (input : List UInt8) (outcome : Outcome)
    (output : Text) :
    (ofInput limit input).outcome = .ok outcome ∧ (ofInput limit input).output = output ↔
      ∃ s : Script, s.lines.map some <+: (pieces input).map lineText? ∧ s.Fits limit ∧
        outcome = s.outcome ∧ output = s.output := by
  rw [ofInput, ← lines_eq_pieces]
  simp only [exists_spells_of_isPrefix]
  constructor
  · rintro ⟨houtcome, houtput⟩
    obtain ⟨s, hfits, front, rest, hlines, hfront⟩ := exists_script houtcome
    -- the script determines both, and the dialogue has been played by it
    have hs := says_of_script hfits hfront rest
    rw [hlines] at houtcome houtput
    refine ⟨s, ⟨front, rest, hlines, hfront⟩, hfits, ?_, ?_⟩
    · exact Except.ok.inj (houtcome.symm.trans hs.2)
    · exact houtput.symm.trans hs.1
  · rintro ⟨s, ⟨front, rest, hlines, hfront⟩, hfits, rfl, rfl⟩
    have hs := says_of_script hfits hfront rest
    rw [hlines]
    exact ⟨hs.2, hs.1⟩

end Dialogue

end D0L
