import Conformance.Proofs.Json.Reading

namespace Conformance.Json

variable {v : Value} {levels : Nat}

section Lists

variable {gap last : List Char}

-- Items that are each written behind a gap.
theorem spellsItems_flatMap {text : Value → List Char} {items : List Value} (hgap : Blanks gap)
    (hlast : Blanks last) (h : ∀ v ∈ items, Spells v (text v)) :
    SpellsItems false items
      (items.flatMap (fun v => ',' :: (gap ++ text v)) ++ (last ++ [']'])) := by
  induction items with
  | nil => exact .close hlast
  | cons v more ih =>
      have hnext := SpellsItems.next blanks_nil hgap (h v List.mem_cons_self)
        (ih fun w hw => h w (List.mem_cons_of_mem _ hw))
      simpa [List.flatMap_cons] using hnext

theorem spellsItems_cons {text : Value → List Char} {more : List Value} (hgap : Blanks gap)
    (hlast : Blanks last) (h : ∀ w ∈ v :: more, Spells w (text w)) :
    SpellsItems true (v :: more)
      (gap ++ text v ++ (more.flatMap (fun w => ',' :: (gap ++ text w)) ++ (last ++ [']']))) := by
  rw [List.append_assoc]
  exact .first hgap (h v List.mem_cons_self)
    (spellsItems_flatMap hgap hlast fun w hw => h w (List.mem_cons_of_mem _ hw))

-- A member whose value is written behind some blanks.
theorem spellsMember (name : String) {before own : List Char} (hbefore : Blanks before)
    (h : Spells v own) : ∃ chars, stringChars name ++ ':' :: (before ++ own) = '"' :: chars ∧
      SpellsMember (name, v) chars := by
  refine ⟨_, ?_, .mk (spellsChars_flatMap_escapeChar name.toList) blanks_nil hbefore h⟩
  simp [stringChars]

theorem spellsMembers_flatMap {text : String × Value → List Char} {members : List (String × Value)}
    (hgap : Blanks gap) (hlast : Blanks last)
    (h : ∀ member ∈ members, ∃ own, text member = '"' :: own ∧ SpellsMember member own) :
    SpellsMembers false members
      (members.flatMap (fun member => ',' :: (gap ++ text member)) ++ (last ++ ['\x7d'])) := by
  induction members with
  | nil => exact .close hlast
  | cons member more ih =>
      obtain ⟨own, htext, hown⟩ := h member List.mem_cons_self
      have hnext := SpellsMembers.next blanks_nil hgap hown
        (ih fun other hm => h other (List.mem_cons_of_mem _ hm))
      simpa [List.flatMap_cons, htext] using hnext

theorem spellsMembers_cons {text : String × Value → List Char} {member : String × Value}
    {more : List (String × Value)} (hgap : Blanks gap) (hlast : Blanks last)
    (h : ∀ m ∈ member :: more, ∃ own, text m = '"' :: own ∧ SpellsMember m own) :
    SpellsMembers true (member :: more)
      (gap ++ text member ++
        (more.flatMap (fun m => ',' :: (gap ++ text m)) ++ (last ++ ['\x7d']))) := by
  obtain ⟨own, htext, hown⟩ := h member List.mem_cons_self
  rw [htext, List.append_assoc]
  exact .first hgap hown
    (spellsMembers_flatMap hgap hlast fun m hm => h m (List.mem_cons_of_mem _ hm))

end Lists

section Compact

theorem compactItems_cons (v : Value) (more : List Value) :
    compactItems (v :: more) = v.compactChars ++ more.flatMap fun w => ',' :: w.compactChars := by
  induction more generalizing v with
  | nil => simp [compactItems]
  | cons w more ih => simp [compactItems, ih w]

theorem compactMembers_cons (member : String × Value) (more : List (String × Value)) :
    compactMembers (member :: more) =
      stringChars member.1 ++ ':' :: member.2.compactChars ++
        more.flatMap fun m => ',' :: (stringChars m.1 ++ ':' :: m.2.compactChars) := by
  induction more generalizing member with
  | nil => simp [compactMembers]
  | cons m more ih => simp [compactMembers, ih m]

-- The compact form is one of the texts of a value.
theorem spells_compactChars (h : v.IsExact levels) : Spells v v.compactChars := by
  induction h with
  | null => exact .null
  | bool b => cases b <;> constructor
  | @number _ n hexact =>
      cases n with
      | int i => exact .int i
      | float x => exact hexact.elim
  | string s => exact .string (spellsChars_flatMap_escapeChar s.toList)
  | @array items _ _ ih =>
      rw [Value.compactChars]
      refine .array ?_
      cases items with
      | nil => exact .close blanks_nil
      | cons v more =>
          rw [compactItems_cons, List.append_assoc]
          exact spellsItems_cons blanks_nil blanks_nil ih
  | @object members _ _ ih =>
      rw [Value.compactChars]
      refine .object ?_
      cases members with
      | nil => exact .close blanks_nil
      | cons member more =>
          rw [compactMembers_cons, List.append_assoc]
          exact spellsMembers_cons blanks_nil blanks_nil fun m hm =>
            spellsMember m.1 blanks_nil (ih m hm)

end Compact

section Pretty

theorem blanks_freshLine (level : Nat) : Blanks (freshLine level) := by
  intro c hc
  rcases List.mem_cons.mp hc with rfl | hc
  · rfl
  · rw [List.eq_of_mem_replicate hc]
    rfl

theorem prettyItems_cons (level : Nat) (v : Value) (more : List Value) :
    prettyItems level (v :: more) = freshLine level ++ v.prettyChars level ++
      more.flatMap fun w => ',' :: (freshLine level ++ w.prettyChars level) := by
  induction more generalizing v with
  | nil => simp [prettyItems]
  | cons w more ih => simp [prettyItems, ih w]

theorem prettyMembers_cons (level : Nat) (member : String × Value)
    (more : List (String × Value)) :
    prettyMembers level (member :: more) =
      freshLine level ++ (stringChars member.1 ++ ':' :: ([' '] ++ member.2.prettyChars level)) ++
        more.flatMap fun m =>
          ',' :: (freshLine level ++
            (stringChars m.1 ++ ':' :: ([' '] ++ m.2.prettyChars level))) := by
  induction more generalizing member with
  | nil => simp [prettyMembers]
  | cons m more ih => simp [prettyMembers, ih m]

-- A member of an object stands in its text.
theorem infix_prettyChars_object {members : List Member} {m : Member} (h : m ∈ members)
    (level : Nat) : stringChars m.1 ++ ':' :: ([' '] ++ m.2.prettyChars (level + 1)) <:+:
      (Value.object members).prettyChars level := by
  obtain ⟨first, more, rfl⟩ := List.exists_cons_of_ne_nil (List.ne_nil_of_mem h)
  have hmembers : stringChars m.1 ++ ':' :: ([' '] ++ m.2.prettyChars (level + 1)) <:+:
      prettyMembers (level + 1) (first :: more) := by
    rw [prettyMembers_cons, List.flatMap_def]
    rcases List.mem_cons.mp h with rfl | h
    · exact List.infix_append _ _ _
    · have hline := List.infix_of_mem_flatten (List.mem_map_of_mem (f := fun m : Member =>
        ',' :: (freshLine (level + 1) ++
          (stringChars m.1 ++ ':' :: ([' '] ++ m.2.prettyChars (level + 1))))) h)
      exact (List.suffix_append (',' :: freshLine (level + 1)) _).isInfix.trans
        (hline.trans (List.suffix_append _ _).isInfix)
  have hobject : ['\x7b'] ++ prettyMembers (level + 1) (first :: more) ++
      (freshLine level ++ ['\x7d']) = (Value.object (first :: more)).prettyChars level :=
    (List.append_assoc _ _ _).symm
  exact hmembers.trans ⟨_, _, hobject⟩

-- So is the form with one item or member a line, at each level.
theorem spells_prettyChars (h : v.IsExact levels) (level : Nat) :
    Spells v (v.prettyChars level) := by
  have hspace : Blanks [' '] := by simp [Blanks, isBlank]
  induction h generalizing level with
  | null => exact .null
  | bool b => cases b <;> constructor
  | @number _ n hexact =>
      cases n with
      | int i => exact .int i
      | float x => exact hexact.elim
  | string s => exact .string (spellsChars_flatMap_escapeChar s.toList)
  | @array items _ _ ih =>
      cases items with
      | nil => exact .array (.close blanks_nil)
      | cons v more =>
          rw [Value.prettyChars, prettyItems_cons, List.append_assoc, List.append_assoc]
          · exact .array (spellsItems_cons (blanks_freshLine _) (blanks_freshLine _)
              fun w hw => ih w hw (level + 1))
          · exact List.cons_ne_nil _ _
  | @object members _ _ ih =>
      cases members with
      | nil => exact .object (.close blanks_nil)
      | cons member more =>
          rw [Value.prettyChars, prettyMembers_cons, List.append_assoc, List.append_assoc]
          · exact .object (spellsMembers_cons (blanks_freshLine _) (blanks_freshLine _)
              fun m hm => spellsMember m.1 hspace (ih m hm (level + 1)))
          · exact List.cons_ne_nil _ _

theorem spelledBy_pretty (h : v.IsExact levels) : v.SpelledBy v.pretty :=
  ⟨[], v.prettyChars 0, [], by simp [Value.pretty], blanks_nil, spells_prettyChars h 0, blanks_nil⟩

end Pretty

theorem itemValues_documentItems {items : List Value}
    (h : ∀ v ∈ items, (Document.ofValue v).value levels = .ok v) :
    itemValues levels (documentItems items) = .ok items := by
  induction items with
  | nil => rfl
  | cons v more ih =>
      rw [documentItems, itemValues, h v List.mem_cons_self,
        ih fun w hw => h w (List.mem_cons_of_mem _ hw)]
      rfl

theorem memberValues_documentMembers {members : List (String × Value)}
    (h : ∀ member ∈ members, (Document.ofValue member.2).value levels = .ok member.2) :
    memberValues levels (documentMembers members) = .ok members := by
  induction members with
  | nil => rfl
  | cons member more ih =>
      obtain ⟨name, v⟩ := member
      rw [documentMembers, memberValues, h _ List.mem_cons_self,
        ih fun w hw => h w (List.mem_cons_of_mem _ hw)]
      rfl

theorem value_ofValue (h : v.IsExact levels) : (Document.ofValue v).value levels = .ok v := by
  induction h with
  | array _ ih =>
      rw [Document.ofValue, Document.value, itemValues_documentItems ih]
      rfl
  | object _ ih =>
      rw [Document.ofValue, Document.value, memberValues_documentMembers ih]
      rfl
  | null | bool b | number h | string s => rfl

theorem spelledBy_compact (h : v.IsExact levels) : v.SpelledBy v.compact :=
  ⟨[], v.compactChars, [], by simp [Value.compact], blanks_nil, spells_compactChars h, blanks_nil⟩

-- The compact text of a value is read as that value, with its members by name.
theorem ofText_compact (h : v.IsExact maxLevels) : Value.ofText v.compact = .ok v.normal := by
  simp only [Value.ofText, ofText_of_spelledBy (spelledBy_compact h) h, value_ofValue h]
  rfl

theorem mem_compactItems {c : Char} {items : List Value} (h : c ∈ compactItems items) :
    c = ',' ∨ ∃ v ∈ items, c ∈ v.compactChars := by
  cases items with
  | nil => cases h
  | cons v more =>
      rw [compactItems_cons, List.mem_append, List.mem_flatMap] at h
      rcases h with h | ⟨w, hw, h⟩
      · exact .inr ⟨v, List.mem_cons_self, h⟩
      · rcases List.mem_cons.mp h with rfl | h
        · exact .inl rfl
        · exact .inr ⟨w, List.mem_cons_of_mem _ hw, h⟩

theorem mem_compactMembers {c : Char} {members : List (String × Value)}
    (h : c ∈ compactMembers members) :
    c = ',' ∨ c = ':' ∨
      ∃ member ∈ members, c ∈ stringChars member.1 ∨ c ∈ member.2.compactChars := by
  have hmember : ∀ member ∈ members, c ∈ stringChars member.1 ++ ':' :: member.2.compactChars →
      c = ':' ∨ ∃ member ∈ members, c ∈ stringChars member.1 ∨ c ∈ member.2.compactChars := by
    intro member hm h
    rw [List.mem_append, List.mem_cons] at h
    rcases h with h | rfl | h
    · exact .inr ⟨member, hm, .inl h⟩
    · exact .inl rfl
    · exact .inr ⟨member, hm, .inr h⟩
  cases members with
  | nil => cases h
  | cons member more =>
      rw [compactMembers_cons, List.mem_append, List.mem_flatMap] at h
      rcases h with h | ⟨other, hm, h⟩
      · exact .inr (hmember member List.mem_cons_self h)
      · rcases List.mem_cons.mp h with rfl | h
        · exact .inl rfl
        · exact .inr (hmember other (List.mem_cons_of_mem _ hm) h)

-- The compact text of a value stays on its line, whatever its strings hold.
theorem printable_of_mem_compactChars (h : v.IsExact levels) :
    ∀ c ∈ v.compactChars, 0x20 ≤ c.toNat := by
  induction h with
  | null => simp [Value.compactChars]
  | bool b => cases b <;> simp [Value.compactChars]
  | string s => exact fun c hc => printable_of_mem_stringChars hc
  | number h => exact fun c hc => printable_of_mem_text h hc
  | @array items _ _ ih =>
      intro c hc
      simp only [Value.compactChars, List.mem_cons, List.mem_append, List.not_mem_nil,
        or_false] at hc
      rcases hc with rfl | hc | rfl
      · decide
      · rcases mem_compactItems hc with rfl | ⟨v, hv, hc⟩
        · decide
        · exact ih v hv c hc
      · decide
  | @object members _ _ ih =>
      intro c hc
      simp only [Value.compactChars, List.mem_cons, List.mem_append, List.not_mem_nil,
        or_false] at hc
      rcases hc with rfl | hc | rfl
      · decide
      · rcases mem_compactMembers hc with rfl | rfl | ⟨member, hm, hc | hc⟩
        · decide
        · decide
        · exact printable_of_mem_stringChars hc
        · exact ih member hm c hc
      · decide

end Conformance.Json
