import D0L.Proofs.Json.Spellings

namespace D0L.Json.Reader

/-!
# Objects are read as they are written

What is written for an object, in either layout and at any depth, is one of its spellings.  So a
reader that takes the members off, however they are spelled, takes off what is written for them.

* `writeBody`, `writeTail` — the text of an object behind its bracket, and behind its first member.
* `spellsObject_write` — the text of an object spells its members, by induction on them.
* `run_members_of_error` — a fault in the first member.
* `reads_structured` — what is made of the members of an object.
-/

variable {ε α β σ ν : Type} {member : σ → Text → Reader ε σ} {layout : Layout} {s t : σ}
  {items : List ε}

/-! ### The text of an object -/

/-- The text of an object behind its first member. -/
def writeTail (layout : Layout) (depth : Nat) (entries : List (Text × Text)) : Text :=
  entries.flatMap (fun m => ',' :: layout.lineBreak (depth + 1) ++ writeMember layout m.1 m.2)
    ++ (layout.lineBreak depth ++ ['}'])

/-- The text of an object behind its opening bracket. -/
def writeBody (layout : Layout) (depth : Nat) : List (Text × Text) → Text
  | [] => ['}']
  | (key, value) :: rest =>
    layout.lineBreak (depth + 1) ++ (writeMember layout key value ++ writeTail layout depth rest)

/-- An object is a bracket and what comes behind it. -/
theorem writeObject_eq (layout : Layout) (depth : Nat) (entries : List (Text × Text)) :
    writeObject layout depth entries = '{' :: writeBody layout depth entries := by
  cases entries with
  | nil => rfl
  | cons m rest =>
    obtain ⟨key, value⟩ := m
    simp [writeObject, writeBody, writeTail]

/-- A member is its key, a colon and its value. -/
theorem toBytes_writeMember (key value : Text) (rest : List UInt8) :
    Text.toBytes (writeMember layout key value) ++ rest
      = Text.toBytes (writeString key) ++ (Text.toBytes (layout.colon ++ value) ++ rest) := by
  simp [writeMember]

/-- Every member but the first has a comma and a line break in front of it. -/
theorem toBytes_writeTail_cons (layout : Layout) (depth : Nat) (key value : Text)
    (entries : List (Text × Text)) (rest : List UInt8) :
    Text.toBytes (writeTail layout depth ((key, value) :: entries)) ++ rest
      = ','.toUInt8 :: (Text.toBytes (layout.lineBreak (depth + 1))
        ++ (Text.toBytes (writeMember layout key value)
          ++ (Text.toBytes (writeTail layout depth entries) ++ rest))) := by
  have hcomma : String.utf8EncodeChar ',' = [','.toUInt8] := rfl
  simp [writeTail, hcomma]

/-- What stands behind a member is no part of a number. -/
theorem ends_writeTail (layout : Layout) (depth : Nat) (entries : List (Text × Text))
    (rest : List UInt8) : Ends (Text.toBytes (writeTail layout depth entries) ++ rest) := by
  cases entries with
  | nil =>
    cases layout with
    | compact => exact ends_cons (by decide) _
    | indented => exact ends_cons (by decide) _
  | cons m entries => exact ends_cons (by decide) _

/-! ### The spelling of an object -/

section Spelled

variable {Spells : ν → List UInt8 → Prop} {json : ν → Text}

/-- The members behind the first one, up to the blanks before the closing bracket. -/
theorem exists_spells_writeTail (hjson : ∀ v, Spells v (Text.toBytes (json v))) (layout : Layout)
    (depth : Nat) (ms : List (Text × ν)) :
    ∃ body, SpellsMembers Spells false ms body ∧
      Text.toBytes (writeTail layout depth (ms.map fun m => (m.1, json m.2)))
        = body ++ (Text.toBytes (layout.lineBreak depth) ++ ['}'.toUInt8]) := by
  induction ms with
  | nil =>
    refine ⟨[], .nil, ?_⟩
    rw [writeTail, List.map_nil, List.flatMap_nil, List.nil_append, Text.toBytes_append]
    rfl
  | cons m ms ih =>
    obtain ⟨key, v⟩ := m
    obtain ⟨body, hbody, htail⟩ := ih
    obtain ⟨blanks, hblanks, hcolon⟩ := toBytes_colon layout
    -- the comma and the line break are the blanks in front of the key
    have hlead := Leads.next blank_nil (blank_lineBreak layout (depth + 1))
    refine ⟨_, .cons hlead (spellsString_write key) blank_nil hblanks (hjson v) hbody, ?_⟩
    have hbytes := toBytes_writeTail_cons layout depth key (json v)
      (ms.map fun m => (m.1, json m.2)) []
    rw [List.append_nil, List.append_nil, toBytes_writeMember, Text.toBytes_append, hcolon,
      htail] at hbytes
    rw [List.map_cons, hbytes]
    simp only [List.nil_append, List.append_assoc, List.cons_append]

/-- **What is written for an object spells it**, if what is written for each value does. -/
theorem spellsObject_write (hjson : ∀ v, Spells v (Text.toBytes (json v))) (layout : Layout)
    (depth : Nat) (ms : List (Text × ν)) :
    SpellsObject Spells ms
      (Text.toBytes (writeObject layout depth (ms.map fun m => (m.1, json m.2)))) := by
  rw [writeObject_eq]
  cases ms with
  -- no members: the brackets stand side by side, without a line break
  | nil => exact ⟨[], [], .nil, blank_nil, rfl⟩
  | cons m ms =>
    obtain ⟨key, v⟩ := m
    obtain ⟨body, hbody, htail⟩ := exists_spells_writeTail hjson layout depth ms
    obtain ⟨blanks, hblanks, hcolon⟩ := toBytes_colon layout
    have hlead := Leads.first (blank_lineBreak layout (depth + 1))
    refine ⟨_, _, .cons hlead (spellsString_write key) blank_nil hblanks (hjson v) hbody,
      blank_lineBreak layout depth, ?_⟩
    show '{'.toUInt8 :: Text.toBytes (layout.lineBreak (depth + 1)
      ++ (writeMember layout key (json v)
        ++ writeTail layout depth (ms.map fun m => (m.1, json m.2)))) = _
    rw [Text.toBytes_append, Text.toBytes_append, toBytes_writeMember, Text.toBytes_append, hcolon,
      htail]
    simp only [List.nil_append, List.append_assoc, List.cons_append]

end Spelled

/-- The one spelling of a value that has been written already. -/
def IsWritten (text : Text) (bytes : List UInt8) : Prop := bytes = Text.toBytes text

/-- What is read from one text is taken in that one spelling. -/
theorem Reads.takes {r : Reader ε α} {text : Text} {a : α} {items : List ε}
    (h : Reads r text items a) : Takes r (IsWritten text) items a := by
  intro bytes hbytes
  rw [hbytes]
  exact h

/-- An object that is written spells its members as they are written. -/
theorem spellsObject_isWritten (layout : Layout) (depth : Nat) (entries : List (Text × Text)) :
    SpellsObject IsWritten entries (Text.toBytes (writeObject layout depth entries)) := by
  have hvalue : ∀ text, IsWritten text (Text.toBytes (id text)) := fun _ => rfl
  have hwritten := spellsObject_write hvalue layout depth entries
  rwa [show (fun m : Text × Text => (m.1, id m.2)) = id from rfl, List.map_id] at hwritten

/-! ### The first member -/

variable {rest : List UInt8}

/-- The key of the first member, with the blanks before it. -/
theorem run_nextKey_writeBody (layout : Layout) (depth : Nat) (key value : Text)
    (entries : List (Text × Text)) (rest : List UInt8) :
    (nextKey true : Reader ε (Option Text)).run
        (Text.toBytes (writeBody layout depth ((key, value) :: entries)) ++ rest)
      = ⟨[], .ok (some key, Text.toBytes (layout.colon ++ value)
          ++ (Text.toBytes (writeTail layout depth entries) ++ rest))⟩ := by
  have hbytes : Text.toBytes (writeBody layout depth ((key, value) :: entries)) ++ rest
      = Text.toBytes (layout.lineBreak (depth + 1)) ++ (Text.toBytes (writeString key)
        ++ (Text.toBytes (layout.colon ++ value)
          ++ (Text.toBytes (writeTail layout depth entries) ++ rest))) := by
    rw [writeBody, Text.toBytes_append, Text.toBytes_append, List.append_assoc, List.append_assoc,
      toBytes_writeMember]
  rw [hbytes, (skipsBlanks_nextKey true).run_append (blank_lineBreak layout (depth + 1))]
  exact run_nextKey_first (spellsString_write key) _

/-- A fault in the value of the first member is a fault of the object. -/
theorem run_members_of_error {fault : Fault} (layout : Layout) (depth : Nat) (key value : Text)
    (entries : List (Text × Text)) (rest : List UInt8)
    (h : (member s key).run (Text.toBytes (layout.colon ++ value)
      ++ (Text.toBytes (writeTail layout depth entries) ++ rest)) = ⟨items, .error fault⟩) :
    (members member s).run
        (Text.toBytes (writeBody layout depth ((key, value) :: entries)) ++ rest)
      = ⟨items, .error fault⟩ :=
  run_membersFrom_of_error (run_nextKey_writeBody layout depth key value entries rest) h

/-! ### Readers of objects -/

/-- What follows a look at an object finds it whole. -/
theorem run_wanting_object_bind {wanted : Wanted} {take : Found → Option α} {a : α}
    (h : take .object = some a) (f : α → Reader ε β) (rest : List UInt8) :
    (wanting wanted take >>= f).run ('{'.toUInt8 :: rest) = (f a).run ('{'.toUInt8 :: rest) := by
  have hopening : (found '{'.toUInt8 : Reader ε Found).run ('{'.toUInt8 :: rest)
      = ⟨[], .ok (.object, '{'.toUInt8 :: rest)⟩ := rfl
  exact run_bind_of_silent (run_wanting_of_take (by decide) hopening h) f

/-- A structure that is written as an object is read as one. -/
theorem run_structured_object (wanted : Wanted) (object array : Reader ε α) (rest : List UInt8) :
    (structured wanted object array).run ('{'.toUInt8 :: rest) = object.run rest := by
  rw [structured, run_bind_of_silent (run_peek (by decide) rest)]
  exact run_bind_of_silent (run_advance _ rest) _

/-- A structure is read if its members are and its value can be made of them. -/
theorem reads_structured {Spells : ν → List UInt8 → Prop} {ms : List (Text × ν)} {wanted : Wanted}
    {finish : σ → Reader ε α} {array : Reader ε α} {a : α} {text : Text}
    (h : TakesMembers member Spells s ms items t)
    (hspelled : SpellsObject Spells ms (Text.toBytes text)) (hfinish : finish t = pure a) :
    Reads (structured wanted (members member s >>= finish) array) text items a := by
  intro rest _
  obtain ⟨body, blanks, hmembers, hblanks, htext⟩ := hspelled
  rw [htext]
  simp only [List.cons_append, List.append_assoc, List.nil_append]
  rw [run_structured_object, run_bind_of_ok (run_members_spelled h hmembers hblanks rest), hfinish,
    run_pure, List.append_nil]

end D0L.Json.Reader
