import Conformance.Proofs.Json.Scalar

namespace Conformance.Json

-- Values that are read as they were written: their numbers are exact, and their
-- containers nest no deeper than a number of levels.
inductive Value.IsExact : Nat → Value → Prop where
  | null : IsExact levels .null
  | bool (b : Bool) : IsExact levels (.bool b)
  | number (h : n.IsExact) : IsExact levels (.number n)
  | string (s : String) : IsExact levels (.string s)
  | array (h : ∀ v ∈ items, IsExact levels v) : IsExact (levels + 1) (.array items)
  | object (h : ∀ member ∈ members, IsExact levels member.2) :
      IsExact (levels + 1) (.object members)

theorem Value.IsExact.succ (h : IsExact levels v) : IsExact (levels + 1) v := by
  induction h with
  | null => exact .null
  | bool b => exact .bool b
  | number h => exact .number h
  | string s => exact .string s
  | array _ ih => exact .array ih
  | object _ ih => exact .object ih

variable {v : Value} {own rest cs : List Char} {fuel levels : Nat}

section Blanks

variable {before between : List Char}

theorem skipBlanks_append (h : Blanks before) (cs : List Char) :
    skipBlanks (before ++ cs) = skipBlanks cs :=
  List.dropWhile_append_of_pos h

theorem skipBlanks_cons {c : Char} (h : isBlank c = false) : skipBlanks (c :: cs) = c :: cs := by
  rw [skipBlanks, List.dropWhile_cons, h]
  rfl

theorem readDocument_append (h : Blanks before) (cs : List Char) :
    readDocument fuel levels (before ++ cs) = readDocument fuel levels cs := by
  cases fuel with
  | zero => rfl
  | succ fuel => rw [readDocument, readDocument, skipBlanks_append h]

theorem nextItem_closed (h : Blanks before) (first : Bool) :
    nextItem first (before ++ ']' :: rest) = .closed rest := by
  rw [nextItem, skipBlanks_append h]
  rfl

theorem nextItem_first {c : Char} (h : Blanks before) (hblank : isBlank c = false)
    (hclose : c ≠ ']') : nextItem true (before ++ c :: rest) = .entry (c :: rest) := by
  rw [nextItem, skipBlanks_append h, skipBlanks_cons hblank]
  simp only [if_neg hclose, if_true]

theorem nextItem_next {c : Char} (hbetween : Blanks between) (h : Blanks before)
    (hblank : isBlank c = false) (hclose : c ≠ ']') :
    nextItem false (between ++ ',' :: (before ++ c :: rest)) = .entry (c :: rest) := by
  have hcomma : ∀ cs, skipBlanks (',' :: cs) = ',' :: cs := fun _ => rfl
  have hne : (',' : Char) ≠ ']' := by decide
  rw [nextItem, skipBlanks_append hbetween, hcomma]
  simp only [skipBlanks_append h, skipBlanks_cons hblank, if_neg hclose, if_neg hne, if_true,
    Bool.false_eq_true, if_false]

theorem nextMember_closed (h : Blanks before) (first : Bool) :
    nextMember first (before ++ '\x7d' :: rest) = .closed rest := by
  rw [nextMember, skipBlanks_append h]
  rfl

theorem nextMember_first (h : Blanks before) :
    nextMember true (before ++ '"' :: rest) = .entry rest := by
  rw [nextMember, skipBlanks_append h]
  rfl

theorem nextMember_next (hbetween : Blanks between) (h : Blanks before) :
    nextMember false (between ++ ',' :: (before ++ '"' :: rest)) = .entry rest := by
  have hcomma : ∀ cs, skipBlanks (',' :: cs) = ',' :: cs := fun _ => rfl
  have hquote : ∀ cs, skipBlanks ('"' :: cs) = '"' :: cs := fun _ => rfl
  have hne : (',' : Char) ≠ '\x7d' := by decide
  rw [nextMember, skipBlanks_append hbetween, hcomma]
  simp only [skipBlanks_append h, hquote, if_neg hne, if_true, Bool.false_eq_true, if_false]

end Blanks

-- The text of a value begins with what can begin one.
theorem exists_spells_eq (h : Spells v own) :
    ∃ c more, own = c :: more ∧ isBlank c = false ∧ c ≠ ']' := by
  cases h with
  | null => exact ⟨'n', _, rfl, rfl, by decide⟩
  | true => exact ⟨'t', _, rfl, rfl, by decide⟩
  | false => exact ⟨'f', _, rfl, rfl, by decide⟩
  | string h => exact ⟨'"', _, rfl, rfl, by decide⟩
  | array h => exact ⟨'[', _, rfl, rfl, by decide⟩
  | object h => exact ⟨'\x7b', _, rfl, rfl, by decide⟩
  | int i =>
      cases i with
      | negSucc n => exact ⟨'-', _, toList_text_negSucc n, rfl, by decide⟩
      | ofNat n =>
          obtain ⟨c, more, hdigits, hc, hblank⟩ := exists_toDigits_eq n
          exact ⟨c, more, (toList_text_ofNat n).trans hdigits, hblank, ne_of_isDigit hc rfl⟩

theorem delimited_of_spellsItems {more : List Value} (h : SpellsItems false more cs) :
    Delimited (cs ++ rest) := by
  cases h with
  | close hbefore =>
      rw [List.append_assoc]
      exact delimited_append hbefore (by simp [Delimited])
  | next hbetween =>
      rw [List.append_assoc]
      exact delimited_append hbetween (by simp [Delimited])

theorem delimited_of_spellsMembers {more : List (String × Value)}
    (h : SpellsMembers false more cs) : Delimited (cs ++ rest) := by
  cases h with
  | close hbefore =>
      rw [List.append_assoc]
      exact delimited_append hbefore (by simp [Delimited])
  | next hbetween =>
      rw [List.append_assoc]
      exact delimited_append hbetween (by simp [Delimited])

-- Each text of a value is read as that value, with fuel for all of the text.
def Readable (levels : Nat) (v : Value) : Prop :=
  ∀ own, Spells v own → ∀ fuel rest, 2 * (own ++ rest).length ≤ fuel → Delimited rest →
    readDocument fuel levels (own ++ rest) = (Document.ofValue v, some rest)

-- The next item of a list, and what is written behind it.
theorem exists_item_of_spellsItems {first : Bool} {more : List Value}
    (h : SpellsItems first (v :: more) cs) :
    ∃ own tail, Spells v own ∧ SpellsItems false more tail ∧
      own.length + tail.length ≤ cs.length ∧
      ∀ rest, nextItem first (cs ++ rest) = .entry (own ++ (tail ++ rest)) := by
  cases h with
  | first hbefore hown htail =>
      obtain ⟨c, chars, rfl, hblank, hclose⟩ := exists_spells_eq hown
      refine ⟨_, _, hown, htail, by simp only [List.length_append]; omega, fun rest => ?_⟩
      simp only [List.append_assoc]
      exact nextItem_first hbefore hblank hclose
  | next hbetween hbefore hown htail =>
      obtain ⟨c, chars, rfl, hblank, hclose⟩ := exists_spells_eq hown
      refine ⟨_, _, hown, htail, by simp only [List.length_append, List.length_cons]; omega,
        fun rest => ?_⟩
      simp only [List.append_assoc, List.cons_append]
      exact nextItem_next hbetween hbefore hblank hclose

theorem readItems_of_spellsItems {items : List Value} (hread : ∀ v ∈ items, Readable levels v)
    {first : Bool} (h : SpellsItems first items cs) (done : List Document)
    (hfuel : 2 * (cs ++ rest).length < fuel) :
    readItems fuel levels first done (cs ++ rest) =
      ⟨done.reverse ++ documentItems items, none, some rest⟩ := by
  induction items generalizing first cs done fuel with
  | nil =>
      obtain ⟨fuel, rfl⟩ := Nat.exists_eq_succ_of_ne_zero (Nat.ne_zero_of_lt hfuel)
      cases h with
      | close hbefore => simp [readItems, nextItem_closed hbefore, documentItems]
  | cons v more ih =>
      obtain ⟨fuel, rfl⟩ := Nat.exists_eq_succ_of_ne_zero (Nat.ne_zero_of_lt hfuel)
      obtain ⟨own, tail, hown, htail, hlength, hnext⟩ := exists_item_of_spellsItems h
      obtain ⟨c, chars, hc, -⟩ := exists_spells_eq hown
      have hpos : 0 < own.length := by simp [hc]
      rw [List.length_append] at hfuel
      have hv := hread v List.mem_cons_self own hown fuel (tail ++ rest)
        (by simp only [List.length_append]; omega) (delimited_of_spellsItems htail)
      rw [readItems]
      simp only [hnext, hv]
      rw [ih (fun w hw => hread w (List.mem_cons_of_mem _ hw)) htail _
        (by rw [List.length_append]; omega)]
      simp [documentItems]

theorem readable_array {items : List Value} (hread : ∀ v ∈ items, Readable levels v) :
    Readable (levels + 1) (.array items) := by
  rintro _ h fuel rest hfuel -
  cases h with
  | array h =>
      simp only [List.cons_append, List.length_cons] at hfuel
      obtain ⟨fuel, rfl⟩ := Nat.exists_eq_succ_of_ne_zero (n := fuel) (by omega)
      have hopen : ∀ cs, readDocument (fuel + 1) (levels + 1) ('[' :: cs) =
          (.list (readItems fuel levels true [] cs).items (readItems fuel levels true [] cs).stop,
            (readItems fuel levels true [] cs).rest) := fun _ => rfl
      rw [List.cons_append, hopen, readItems_of_spellsItems hread h [] (by omega)]
      rfl

-- The next member of an object, from behind the quotation mark that opens its name.
theorem exists_member_of_spellsMembers {first : Bool} {member : String × Value}
    {more : List (String × Value)} (h : SpellsMembers first (member :: more) cs) :
    ∃ own tail, SpellsMember member own ∧ SpellsMembers false more tail ∧
      own.length + tail.length < cs.length ∧
      ∀ rest, nextMember first (cs ++ rest) = .entry (own ++ (tail ++ rest)) := by
  cases h with
  | first hbefore hown htail =>
      refine ⟨_, _, hown, htail, by simp only [List.length_append, List.length_cons]; omega,
        fun rest => ?_⟩
      simp only [List.append_assoc, List.cons_append]
      exact nextMember_first hbefore
  | next hbetween hbefore hown htail =>
      refine ⟨_, _, hown, htail, by simp only [List.length_append, List.length_cons]; omega,
        fun rest => ?_⟩
      simp only [List.append_assoc, List.cons_append]
      exact nextMember_next hbetween hbefore

theorem readName_of_spellsMember {name : String} (h : SpellsMember (name, v) own)
    (hfuel : own.length < fuel) :
    ∃ before value, Blanks before ∧ Spells v value ∧
      before.length + value.length < own.length ∧
      ∀ rest, readName fuel (own ++ rest) = .ok (.ok name, before ++ (value ++ rest)) := by
  cases h with
  | mk hname hbetween hbefore hvalue =>
      simp only [List.length_append, List.length_cons] at hfuel
      refine ⟨_, _, hbefore, hvalue,
        by simp only [List.length_append, List.length_cons]; omega, fun rest => ?_⟩
      have hcolon : ∀ cs, skipBlanks (':' :: cs) = ':' :: cs := fun _ => rfl
      simp only [List.append_assoc, List.cons_append]
      rw [readName, readString_of_spellsChars hname _ (by omega)]
      simp only [skipBlanks_append hbetween, hcolon, if_true]

theorem readMembers_of_spellsMembers {members : List (String × Value)}
    (hread : ∀ member ∈ members, Readable levels member.2) {first : Bool}
    (h : SpellsMembers first members cs) (done : List (Except Fault String × Document))
    (hfuel : 2 * (cs ++ rest).length < fuel) :
    readMembers fuel levels first done (cs ++ rest) =
      ⟨done.reverse ++ documentMembers members, none, some rest⟩ := by
  induction members generalizing first cs done fuel with
  | nil =>
      obtain ⟨fuel, rfl⟩ := Nat.exists_eq_succ_of_ne_zero (Nat.ne_zero_of_lt hfuel)
      cases h with
      | close hbefore => simp [readMembers, nextMember_closed hbefore, documentMembers]
  | cons member more ih =>
      obtain ⟨name, v⟩ := member
      obtain ⟨fuel, rfl⟩ := Nat.exists_eq_succ_of_ne_zero (Nat.ne_zero_of_lt hfuel)
      obtain ⟨own, tail, hown, htail, hlength, hnext⟩ := exists_member_of_spellsMembers h
      rw [List.length_append] at hfuel
      obtain ⟨before, value, hbefore, hvalue, hshort, hname⟩ :=
        readName_of_spellsMember hown (show own.length < fuel by omega)
      have hv := hread _ List.mem_cons_self value hvalue fuel (tail ++ rest)
        (by simp only [List.length_append]; omega) (delimited_of_spellsMembers htail)
      rw [readMembers]
      simp only [hnext, hname, readDocument_append hbefore, hv]
      rw [ih (fun w hw => hread w (List.mem_cons_of_mem _ hw)) htail _
        (by rw [List.length_append]; omega)]
      simp [documentMembers]

theorem readable_object {members : List (String × Value)}
    (hread : ∀ member ∈ members, Readable levels member.2) :
    Readable (levels + 1) (.object members) := by
  rintro _ h fuel rest hfuel -
  cases h with
  | object h =>
      simp only [List.cons_append, List.length_cons] at hfuel
      obtain ⟨fuel, rfl⟩ := Nat.exists_eq_succ_of_ne_zero (n := fuel) (by omega)
      have hopen : ∀ cs, readDocument (fuel + 1) (levels + 1) ('\x7b' :: cs) =
          (.record (readMembers fuel levels true [] cs).members
            (readMembers fuel levels true [] cs).stop,
            (readMembers fuel levels true [] cs).rest) := fun _ => rfl
      rw [List.cons_append, hopen, readMembers_of_spellsMembers hread h [] (by omega)]
      rfl

-- No text of a value is empty, so there is always fuel to begin with.
theorem readable_of_succ (h : ∀ own, Spells v own → ∀ fuel rest,
      2 * (own ++ rest).length ≤ fuel + 1 → Delimited rest →
        readDocument (fuel + 1) levels (own ++ rest) = (Document.ofValue v, some rest)) :
    Readable levels v := by
  intro own hown fuel rest hfuel hrest
  obtain ⟨c, chars, hc, -⟩ := exists_spells_eq hown
  obtain ⟨fuel, rfl⟩ := Nat.exists_eq_succ_of_ne_zero (n := fuel)
    (by simp only [hc, List.length_append, List.length_cons] at hfuel; omega)
  exact h own hown fuel rest hfuel hrest

theorem readable_of_isExact (h : v.IsExact levels) : Readable levels v := by
  induction h with
  | array _ hread => exact readable_array hread
  | object _ hread => exact readable_object hread
  | null =>
      refine readable_of_succ fun own hown fuel rest _ _ => ?_
      cases hown
      rfl
  | bool b =>
      refine readable_of_succ fun own hown fuel rest _ _ => ?_
      cases hown <;> rfl
  | number hexact =>
      refine readable_of_succ fun own hown fuel rest _ hrest => ?_
      cases hown
      exact readDocument_number hexact hrest
  | string s =>
      refine readable_of_succ fun own hown fuel rest hfuel _ => ?_
      cases hown with
      | string h =>
          simp only [List.cons_append, List.append_assoc, List.nil_append, List.length_cons,
            List.length_append] at hfuel ⊢
          exact readDocument_string h (by omega)

-- Each text of a value, however it is spelled, is read as that value.
theorem ofText_of_spelledBy {text : String} (h : v.SpelledBy text) (hexact : v.IsExact maxLevels) :
    Document.ofText text = (Document.ofValue v, false) := by
  obtain ⟨before, own, after, htext, hbefore, hown, hafter⟩ := h
  have hdelimited : Delimited after := by
    have hend : Delimited (after ++ []) := delimited_append hafter (by simp [Delimited])
    rwa [List.append_nil] at hend
  have hskip : skipBlanks after = [] := by
    have hend := skipBlanks_append hafter []
    rwa [List.append_nil] at hend
  have hread := readable_of_isExact hexact own hown (2 * text.toList.length + 2) after
    (by rw [htext]; simp only [List.length_append]; omega) hdelimited
  rw [← readDocument_append hbefore, ← htext] at hread
  simp only [Document.ofText, hread, hskip]
  rfl

end Conformance.Json
