import D0L.Proofs.Dialogue.Script
import D0L.Proofs.Json.Strings
import D0L.Proofs.VisibleText

namespace D0L

/-!
# Typed lines

Lines that a person types come to a dialogue as bytes.  This file says which bytes stand for which
lines, and that numbers come through as they are.

* `Binary64.isVisible_of_ofText?` — numbers are visible, however they are typed.
* `Dialogue.typed`, `Dialogue.spells_typed` — the bytes of some lines, and what they stand for.
* `Dialogue.says_of_plain` — a dialogue in which no line is rejected.
-/

/-! ### Numbers are visible -/

namespace Binary64

/-- A number is visible with its sign if it is without. -/
theorem isVisible_of_splitSign {t : Text} (h : Text.IsVisible (splitSign t).2) :
    Text.IsVisible t := by
  unfold splitSign at h
  split at h
  · exact Text.isVisible_cons.2 ⟨by decide, h⟩
  · exact Text.isVisible_cons.2 ⟨by decide, h⟩
  · exact h

/-- What can be read as an exponent is visible. -/
theorem isVisible_of_exponent? {t : Text} {e : Int} (h : exponent? t = some e) :
    Text.IsVisible t := by
  cases t with
  | nil => exact List.forall_mem_nil _
  | cons c rest =>
    rw [exponent?] at h
    split at h
    · rename_i hmark
      cases hdigits : Numeral.digits? (splitSign rest).2 with
      | none => simp [hdigits] at h
      | some n =>
        refine Text.isVisible_cons.2
          ⟨?_, isVisible_of_splitSign (Numeral.isVisible_of_digits? hdigits)⟩
        obtain rfl | rfl := hmark <;> decide
    · cases h

/-- Digits at the front of a text are visible. -/
theorem isVisible_takeWhile (t : Text) : Text.IsVisible (t.takeWhile Char.isDigit) :=
  fun c hc => isVisible_of_isDigit (List.all_eq_true.1 List.all_takeWhile c hc)

/-- The parts of a decimal are digits, a point and an exponent. -/
theorem isVisible_of_decimal? {t : Text} {d : Decimal} (h : decimal? t = some d) :
    Text.IsVisible t := by
  rw [← List.takeWhile_append_dropWhile (p := Char.isDigit) (l := t), Text.isVisible_append]
  refine ⟨isVisible_takeWhile t, ?_⟩
  unfold decimal? at h
  dsimp only at h
  -- what is behind the digits begins with a point, or it is the exponent
  split at h
  · rename_i rest hpoint
    rw [hpoint, Text.isVisible_cons,
      ← List.takeWhile_append_dropWhile (p := Char.isDigit) (l := rest), Text.isVisible_append]
    split at h
    · cases h
    · obtain ⟨e, hexponent, -⟩ := Option.map_eq_some_iff.1 h
      exact ⟨by decide, isVisible_takeWhile rest, isVisible_of_exponent? hexponent⟩
  · split at h
    · cases h
    · obtain ⟨e, hexponent, -⟩ := Option.map_eq_some_iff.1 h
      exact isVisible_of_exponent? hexponent

/-- The names of numbers that are no decimals are visible, in capital and small letters. -/
theorem isVisible_of_name {t name : Text} (hname : name.all isVisible = true)
    (h : t.map Char.toLower = name) : Text.IsVisible t := by
  intro c hc
  have hlower : c.toLower ∈ name := h ▸ List.mem_map_of_mem hc
  exact isVisible_of_toLower (List.all_eq_true.1 hname _ hlower)

/-- **Texts of numbers are visible.** -/
theorem isVisible_of_ofText? {t : Text} {x : Binary64} (h : ofText? t = some x) :
    Text.IsVisible t := by
  apply isVisible_of_splitSign
  unfold ofText? at h
  dsimp only at h
  -- behind the sign stands a name, or else a decimal
  split at h
  · rename_i hname
    obtain hname | hname := hname
    · exact isVisible_of_name (by decide) hname
    · exact isVisible_of_name (by decide) hname
  · split at h
    · rename_i hname
      exact isVisible_of_name (by decide) hname
    · obtain ⟨d, hdecimal, -⟩ := Option.map_eq_some_iff.1 h
      exact isVisible_of_decimal? hdecimal

end Binary64

/-! ### Lines as bytes -/

namespace Dialogue

/-- A text that can be typed as one line. -/
structure IsLine (t : Text) : Prop where
  /-- It does not end before its end. -/
  noFeed : '\n' ∉ t
  /-- It does not end in what would get lost. -/
  noReturn : t.getLast? ≠ some '\r'

instance (t : Text) : Decidable (IsLine t) :=
  decidable_of_iff ('\n' ∉ t ∧ t.getLast? ≠ some '\r')
    ⟨fun h => ⟨h.1, h.2⟩, fun h => ⟨h.noFeed, h.noReturn⟩⟩

/-- The bytes of some lines, each with a line feed at its end. -/
def typed (texts : List Text) : List UInt8 :=
  texts.flatMap fun text => Text.toBytes (text ++ ['\n'])

/-- A visible text is a line. -/
theorem isLine_of_isVisible {t : Text} (h : Text.IsVisible t) : IsLine t where
  noFeed hmem := absurd (h _ hmem) (by decide)
  noReturn hlast := absurd (h _ (List.mem_of_getLast? hlast)) (by decide)

variable {t : Text} {texts : List Text}

/-- A text that does not end in a return is what is typed for it. -/
theorem lineText?_toBytes (h : t.getLast? ≠ some '\r') : lineText? (Text.toBytes t) = some t := by
  rw [lineText?, Text.ofBytes?_toBytes, Option.map_some, Text.dropEndWhile_eq_self]
  intro c hc
  rw [hc] at h
  simpa using h

/-- **Lines come through as they are.** -/
theorem spells_typed (h : ∀ text ∈ texts, IsLine text) : Spells (lines (typed texts)) texts := by
  induction texts with
  | nil => rfl
  | cons text texts ih =>
    obtain ⟨hline, hrest⟩ := List.forall_mem_cons.1 h
    have hlines : lines (typed (text :: texts)) = Text.toBytes text :: lines (typed texts) := by
      show linesFrom [] (Text.toBytes (text ++ ['\n']) ++ typed texts) = _
      have hfeed := (not_congr lineFeed_mem_toBytes_iff).2 hline.noFeed
      rw [Text.toBytes_append, List.append_assoc]
      exact linesFrom_append_lineFeed hfeed [] (typed texts)
    rw [hlines]
    exact (ih hrest).cons (lineText?_toBytes hline.noReturn)

end Dialogue

/-! ### Rules that are given at once -/

namespace Production

/-- The line that a production is read from. -/
def line (p : Production) : Text := p.symbol :: p.successor

/-- The answer that is such a line, with no lines before it. -/
def answer (p : Production) : Answer ruleOf? where
  rejected := []
  line := p.line
  value := p
  read_rejected := List.forall_mem_nil _
  read_line := rfl

/-- An answer that is accepted at once is only asked for. -/
theorem said_answer (p : Production) (question : Text) (reason : Text → Error) :
    p.answer.said question reason = question := rfl

/-- Lines that are not empty are those of productions. -/
theorem exists_lines {rules : List Text} (h : ∀ rule ∈ rules, rule ≠ []) :
    ∃ ps : List Production, rules = ps.map line := by
  induction rules with
  | nil => exact ⟨[], rfl⟩
  | cons rule rules ih =>
    obtain ⟨hrule, hrest⟩ := List.forall_mem_cons.1 h
    obtain ⟨symbol, successor, rfl⟩ := List.exists_cons_of_ne_nil hrule
    obtain ⟨ps, rfl⟩ := ih hrest
    exact ⟨⟨symbol, successor⟩ :: ps, rfl⟩

/-- Productions are read back from their lines. -/
theorem ofLines_map_line (ps : List Production) : ofLines (ps.map line) = .ok ps := by
  induction ps with
  | nil => rfl
  | cons p ps ih =>
    rw [ofLines, List.map_cons, List.mapM_cons]
    rw [ofLines] at ih
    rw [ih]
    rfl

end Production

namespace Dialogue

/-- The questions for some rules, the first of which has number `index`. -/
def askedRules (index count : Nat) : Text :=
  (List.range' index count).flatMap fun i => "Enter Rule ".toList ++ Numeral.write i ++ ": ".toList

/-- All questions of a dialogue on a number of rules, if none is asked again. -/
def asked (ruleCount : Nat) : Text :=
  "Enter angle: ".toList ++ ("Enter starting pattern: ".toList ++
    ("Enter the number of rules: ".toList ++ (askedRules 1 ruleCount ++
      "Enter the number of expansions: ".toList)))

/-- Rules that are accepted at once are only asked for. -/
theorem saidRules_answer (index : Nat) (ps : List Production) :
    Script.saidRules index (ps.map Production.answer) = askedRules index ps.length := by
  induction ps generalizing index with
  | nil => rfl
  | cons p ps ih =>
    rw [List.map_cons, Script.saidRules_cons, ih, Production.said_answer, askedRules, askedRules,
      List.length_cons, List.range'_succ, List.flatMap_cons]

/-- Rules that are given at once. -/
theorem says_of_plain_rules (limit : Option Nat) (x : Binary64) (start : Word)
    {ps : List Production} {front : List (List UInt8)}
    (hfront : Spells front (ps.map Production.line)) (rest : List (List UInt8)) :
    Says (run limit (.nextRule x start 1 .empty ps.length) (front ++ rest))
      (askedRules 1 ps.length)
      (run limit (.expansions { angle := x, start, scheme := (Scheme.collect ps).value })
        rest) := by
  have hlines : (ps.map Production.answer).flatMap Answer.lines = ps.map Production.line := by
    rw [List.flatMap_map]
    exact List.map_eq_flatMap.symm
  have hvalues : (ps.map Production.answer).map Answer.value = ps := by
    rw [List.map_map]
    exact List.map_id ps
  have hsays := says_of_rules limit x start 1 .empty (hlines ▸ hfront) rest
  rwa [saidRules_answer, List.length_map, hvalues] at hsays

variable {angle start count : Text} {x : Binary64} {ps : List Production} {n : Int}

/-- **A dialogue without rejected lines** asks its questions once, and comes to its conclusion. -/
theorem says_of_plain {ls : List (List UInt8)} {ruleCount : Text}
    (hspells : Spells ls (angle :: start :: ruleCount :: (ps.map Production.line ++ [count])))
    (hangle : angleOf? angle = some x) (hruleCount : ruleCountOf? ruleCount = some ps.length)
    (hcount : expansionsOf? count = some n) (limit : Option Nat) :
    Says (run limit .angle ls) (asked ps.length)
      (conclude limit { angle := x, start, scheme := (Scheme.collect ps).value } n) := by
  -- one line for each question, except for the rules
  obtain ⟨first, ls, rfl, hfirst, hspells⟩ := hspells.of_cons
  obtain ⟨second, ls, rfl, hsecond, hspells⟩ := hspells.of_cons
  obtain ⟨third, ls, rfl, hthird, hspells⟩ := hspells.of_cons
  obtain ⟨rules, ls, rfl, hrules, hspells⟩ := hspells.of_append
  obtain ⟨last, ls, rfl, hlast, hspells⟩ := hspells.of_cons
  have saysAngle := says_of_next limit hfirst (Phase.asks_angle.accepts hangle)
    (second :: third :: (rules ++ last :: ls))
  have hstart : ((Phase.start x).hear start).value = .next (.ruleCount x start) := rfl
  have saysStart := says_of_next limit hsecond hstart (third :: (rules ++ last :: ls))
  have saysRuleCount := says_of_next limit hthird
    ((Phase.asks_ruleCount x start).accepts hruleCount) (rules ++ last :: ls)
  have saysRules := says_of_plain_rules limit x start hrules (last :: ls)
  have asksCount := Phase.asks_expansions
    { angle := x, start, scheme := (Scheme.collect ps).value }
  have saysCount := says_of_finished limit hlast (asksCount.accepts hcount) ls
  exact saysAngle.trans (saysStart.trans (saysRuleCount.trans (saysRules.trans saysCount)))

end Dialogue

end D0L
