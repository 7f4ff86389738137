import D0L.Proofs.Json.Reads

namespace D0L.Json

/-!
# Objects are read as they are spelled

Between the tokens of an object there can be any blanks, and a key can come more than once.  This
file says in which ways a list of members can be spelled, and follows the reader through each of
these spellings, member by member.

* `SpellsMembers`, `SpellsObject` — the spellings of members, given those of their values.
* `Reader.run_nextKey_spelled`, `Reader.run_closing_spelled` — keys and the bracket behind them.
* `Reader.TakesMembers` — the states on the way through some members, however these are spelled.
* `Reader.run_membersFrom_spelled` — the members at the front of an object, whatever follows them,
  by induction on them.
* `Reader.run_members_spelled` — a whole object.
* `Reader.run_members_of_key`, `Reader.run_members_of_fault` — an object with a fault in one of its
  members.
-/

/-! ### Spellings -/

/-- What stands in front of a key: blanks, with a comma among them unless the key is the first. -/
inductive Leads : Bool → List UInt8 → Prop
  | first {blanks : List UInt8} (h : Blank blanks) : Leads true blanks
  | next {before after : List UInt8} (hbefore : Blank before) (hafter : Blank after) :
      Leads false (before ++ ','.toUInt8 :: after)

variable {ν : Type} {Spells : ν → List UInt8 → Prop} {first : Bool} {ms ns : List (Text × ν)}
  {lead before after bytes : List UInt8} {key : Text} {v : ν}

/-- The ways to spell members behind each other; the first of them may be the first of an object. -/
inductive SpellsMembers (Spells : ν → List UInt8 → Prop) :
    Bool → List (Text × ν) → List UInt8 → Prop
  | nil {first : Bool} : SpellsMembers Spells first [] []
  | cons {first : Bool} {lead spelled before after value more : List UInt8} {key : Text} {v : ν}
      {ms : List (Text × ν)} (hlead : Leads first lead) (hkey : SpellsString key spelled)
      (hbefore : Blank before) (hafter : Blank after) (hvalue : Spells v value)
      (hmore : SpellsMembers Spells false ms more) :
      SpellsMembers Spells first ((key, v) :: ms)
        (lead ++ (spelled ++ (before ++ ':'.toUInt8 :: (after ++ (value ++ more)))))

/-- The ways to spell an object. -/
def SpellsObject (Spells : ν → List UInt8 → Prop) (ms : List (Text × ν)) (bytes : List UInt8) :
    Prop :=
  ∃ body blanks, SpellsMembers Spells true ms body ∧ Blank blanks ∧
    bytes = '{'.toUInt8 :: (body ++ (blanks ++ ['}'.toUInt8]))

/-- Members are spelled in two parts, if they are given in two. -/
theorem SpellsMembers.exists_of_append (h : SpellsMembers Spells first (ms ++ ns) bytes) :
    ∃ front back, SpellsMembers Spells first ms front ∧
      SpellsMembers Spells (first && ms.isEmpty) ns back ∧ bytes = front ++ back := by
  induction ms generalizing first bytes with
  | nil => exact ⟨[], bytes, .nil, by simpa using h, rfl⟩
  | cons m ms ih =>
    cases h with
    | cons hlead hkey hbefore hafter hvalue hmore =>
      obtain ⟨front, back, hfront, hback, rfl⟩ := ih hmore
      refine ⟨_, back, .cons hlead hkey hbefore hafter hvalue hfront, ?_, by simp⟩
      simpa using hback

/-- Members are spelled up to the key of one of them, and on from there. -/
theorem SpellsMembers.exists_of_middle
    (h : SpellsMembers Spells true (ms ++ (key, v) :: ns) bytes) :
    ∃ front lead spelled back, SpellsMembers Spells true ms front ∧ Leads ms.isEmpty lead ∧
      SpellsString key spelled ∧ bytes = front ++ (lead ++ (spelled ++ back)) := by
  obtain ⟨front, back, hfront, hback, rfl⟩ := h.exists_of_append
  rw [Bool.true_and] at hback
  cases hback with
  | cons hlead hkey => exact ⟨front, _, _, _, hfront, hlead, hkey, rfl⟩

/-- Each member takes up some bytes. -/
theorem SpellsMembers.length_le (h : SpellsMembers Spells first ms bytes) :
    ms.length ≤ bytes.length := by
  induction h with
  | nil => exact Nat.le_refl 0
  | cons _ _ _ _ _ _ ih =>
    simp only [List.length_cons, List.length_append] at ih ⊢
    omega

namespace Reader

variable {ε α σ : Type} {rest : List UInt8} {fuel : Nat}

/-- What stands in front of a key is no part of a number, and neither is the key. -/
theorem ends_lead (hlead : Leads first lead) (hkey : SpellsString key bytes) (rest : List UInt8) :
    Ends (lead ++ (bytes ++ rest)) := by
  cases hlead with
  | first h =>
    obtain ⟨inner, _, rfl⟩ := hkey
    exact ends_blank_append h (ends_cons (by decide) _)
  | next hbefore =>
    rw [List.append_assoc]
    exact ends_blank_append hbefore (ends_cons (by decide) _)

/-- What stands behind a member is no part of a number. -/
theorem ends_spelled (h : SpellsMembers Spells first ms bytes) (hends : Ends rest) :
    Ends (bytes ++ rest) := by
  cases h with
  | nil => exact hends
  | cons hlead hkey =>
    rw [List.append_assoc, List.append_assoc]
    exact ends_lead hlead hkey _

/-! ### Tokens -/

/-- A key is read in every spelling, as the first of an object or behind a comma. -/
theorem run_nextKey_spelled (hlead : Leads first lead) (hkey : SpellsString key bytes)
    (rest : List UInt8) :
    (nextKey first : Reader ε (Option Text)).run (lead ++ (bytes ++ rest))
      = ⟨[], .ok (some key, rest)⟩ := by
  cases hlead with
  | first h => rw [(skipsBlanks_nextKey true).run_append h, run_nextKey_first hkey]
  | next hbefore hafter =>
    rw [List.append_assoc, (skipsBlanks_nextKey false).run_append hbefore]
    exact run_nextKey_comma hafter hkey rest

/-- Blanks may stand in front of the bracket that closes an object. -/
theorem run_closing_spelled (h : Blank bytes) (first : Bool) (rest : List UInt8) :
    (nextKey first : Reader ε (Option Text)).run (bytes ++ '}'.toUInt8 :: rest)
      = ⟨[], .ok (none, rest)⟩ := by
  rw [(skipsBlanks_nextKey first).run_append h]
  exact run_nextKey_closing first rest

/-! ### One member -/

section Member

variable {member : σ → Text → Reader ε σ} {s : σ} {items : List ε} {input behind : List UInt8}

/-- A fault in a member is a fault of the object. -/
theorem run_membersFrom_of_error {fault : Fault}
    (hkey : (nextKey first : Reader ε (Option Text)).run input = ⟨[], .ok (some key, behind)⟩)
    (hmember : (member s key).run behind = ⟨items, .error fault⟩) :
    (membersFrom member (fuel + 1) first s).run input = ⟨items, .error fault⟩ := by
  show (nextKey first >>= _ : Reader ε σ).run input = _
  rw [run_bind_of_silent hkey]
  exact run_bind_of_error hmember _

/-- The end of the object. -/
theorem run_membersFrom_of_closing
    (hkey : (nextKey first : Reader ε (Option Text)).run input = ⟨[], .ok (none, rest)⟩) :
    (membersFrom member (fuel + 1) first s).run input = ⟨[], .ok (s, rest)⟩ :=
  run_bind_of_silent hkey _

end Member

/-! ### All members -/

variable {member : σ → Text → Reader ε σ} {s t : σ} {items : List ε}

/-- A reader takes a member off its input from behind the key on, however the value is spelled: it
    emits `items`, and leads to the state `t`. -/
def TakesMember (r : Reader ε σ) (Spells : List UInt8 → Prop) (items : List ε) (t : σ) : Prop :=
  ∀ ⦃before after value : List UInt8⦄, Blank before → Blank after → Spells value →
    ∀ rest, Ends rest →
      r.run (before ++ ':'.toUInt8 :: (after ++ (value ++ rest))) = ⟨items, .ok (t, rest)⟩

/-- A member that is taken off in some spellings is taken off in one, as it is written. -/
theorem TakesMember.reads {r : Reader ε σ} {Spells : List UInt8 → Prop}
    (h : TakesMember r Spells items t) {text : Text} (htext : Spells (Text.toBytes text))
    (layout : Layout) : Reads r (layout.colon ++ text) items t := by
  intro rest hrest
  obtain ⟨blanks, hblanks, hcolon⟩ := toBytes_colon layout
  rw [Text.toBytes_append, hcolon, List.append_assoc, List.cons_append]
  exact h blank_nil hblanks htext rest hrest

/-- Reading members one after the other, however they are spelled, takes the state from `s` to `t`
    and emits `items`. -/
inductive TakesMembers (member : σ → Text → Reader ε σ) (Spells : ν → List UInt8 → Prop) :
    σ → List (Text × ν) → List ε → σ → Prop
  | nil (s : σ) : TakesMembers member Spells s [] [] s
  | cons {s t u : σ} {key : Text} {v : ν} {ms : List (Text × ν)} {items more : List ε}
      (head : TakesMember (member s key) (Spells v) items t)
      (tail : TakesMembers member Spells t ms more u) :
      TakesMembers member Spells s ((key, v) :: ms) (items ++ more) u

/-- One member more. -/
theorem TakesMembers.concat {u : σ} {more : List ε} (h : TakesMembers member Spells s ms items t)
    (hlast : TakesMember (member t key) (Spells v) more u) :
    TakesMembers member Spells s (ms ++ [(key, v)]) (items ++ more) u := by
  induction h with
  | nil s =>
    have halone := TakesMembers.cons hlast (.nil u)
    rwa [List.append_nil] at halone
  | cons head _ ih =>
    rw [List.append_assoc]
    exact .cons head (ih hlast)

/-- The members at the front of an object take the state on, and what follows them is read from
    there, whatever it is. -/
theorem run_membersFrom_spelled (h : TakesMembers member Spells s ms items t)
    (hspelled : SpellsMembers Spells first ms bytes) (hends : Ends rest) :
    (membersFrom member (fuel + ms.length) first s).run (bytes ++ rest)
      = ⟨items ++ ((membersFrom member fuel (first && ms.isEmpty) t).run rest).emitted,
          ((membersFrom member fuel (first && ms.isEmpty) t).run rest).outcome⟩ := by
  -- each member takes one step of the fuel, and the states run along with the members
  induction h generalizing first bytes with
  | nil s =>
    cases hspelled
    simp
  | @cons s t u key v ms items more head tail ih =>
    cases hspelled with
    | @cons _ lead spelled before after value behind _ _ _ hlead hkey hbefore hafter hvalue hmore =>
      have hmember := head hbefore hafter hvalue (behind ++ rest) (ends_spelled hmore hends)
      simp only [List.append_assoc, List.cons_append, List.isEmpty_cons, Bool.and_false]
      show (nextKey first >>= _ : Reader ε σ).run _ = _
      rw [run_bind_of_silent (run_nextKey_spelled hlead hkey _)]
      show (member s key >>= _ : Reader ε σ).run _ = _
      rw [run_bind_of_ok hmember, Nat.add_eq, ih hmore, Bool.false_and]

/-- Behind the bracket that opens an object, there is input enough for all members that are there
    and for one more. -/
theorem exists_run_members_spelled (h : TakesMembers member Spells s ms items t)
    (hspelled : SpellsMembers Spells true ms bytes) (hends : Ends rest) :
    ∃ fuel, (members member s).run (bytes ++ rest)
      = ⟨items ++ ((membersFrom member (fuel + 1) ms.isEmpty t).run rest).emitted,
          ((membersFrom member (fuel + 1) ms.isEmpty t).run rest).outcome⟩ := by
  -- the reader has one step for each byte, and no member is without one
  have hlength := hspelled.length_le
  have hfuel : (bytes ++ rest).length + 1 = (bytes ++ rest).length - ms.length + 1 + ms.length := by
    rw [List.length_append]
    omega
  refine ⟨(bytes ++ rest).length - ms.length, ?_⟩
  show (membersFrom member ((bytes ++ rest).length + 1) true s).run _ = _
  rw [hfuel, run_membersFrom_spelled h hspelled hends, Bool.true_and]

/-- **An object is read as it is spelled.**  Its members lead from the first state to the last, and
    the reader stops behind the closing bracket. -/
theorem run_members_spelled (h : TakesMembers member Spells s ms items t)
    (hspelled : SpellsMembers Spells true ms bytes) (hblank : Blank after) (rest : List UInt8) :
    (members member s).run (bytes ++ (after ++ '}'.toUInt8 :: rest)) = ⟨items, .ok (t, rest)⟩ := by
  have hends : Ends (after ++ '}'.toUInt8 :: rest) :=
    ends_blank_append hblank (ends_cons (by decide) rest)
  obtain ⟨fuel, hrun⟩ := exists_run_members_spelled h hspelled hends
  rw [hrun, run_membersFrom_of_closing (run_closing_spelled hblank _ rest), List.append_nil]

/-- A key whose member has a fault, whatever stands behind it, ends the reading behind what the
    members in front of it have emitted. -/
theorem run_members_of_key {spelled : List UInt8} {fault : Fault}
    (h : TakesMembers member Spells s ms items t) (hspelled : SpellsMembers Spells true ms bytes)
    (hlead : Leads ms.isEmpty lead) (hkey : SpellsString key spelled)
    (hfault : ∀ input, (member t key).run input = ⟨[], .error fault⟩) (rest : List UInt8) :
    (members member s).run (bytes ++ (lead ++ (spelled ++ rest))) = ⟨items, .error fault⟩ := by
  obtain ⟨fuel, hrun⟩ := exists_run_members_spelled h hspelled (ends_lead hlead hkey rest)
  rw [hrun, run_membersFrom_of_error (run_nextKey_spelled hlead hkey rest) (hfault rest),
    List.append_nil]

/-- **A fault in a member ends an object,** behind the members in front of it, and nothing that
    follows it is read. -/
theorem run_members_of_fault {fault : Fault} (h : TakesMembers member Spells s ms items t)
    (hspelled : SpellsMembers Spells true (ms ++ (key, v) :: ns) bytes)
    (hfault : ∀ input, (member t key).run input = ⟨[], .error fault⟩) (rest : List UInt8) :
    (members member s).run (bytes ++ rest) = ⟨items, .error fault⟩ := by
  obtain ⟨front, lead, spelled, back, hfront, hlead, hkey, rfl⟩ := hspelled.exists_of_middle
  rw [List.append_assoc, List.append_assoc, List.append_assoc]
  exact run_members_of_key h hfront hlead hkey hfault _

end Reader

end D0L.Json
