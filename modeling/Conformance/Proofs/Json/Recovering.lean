import Conformance.Proofs.Json.Decoding

namespace Conformance.Json

variable {α β : Type} {levels : Nat} {v : Value} {a : α}

-- The value can be written without loss, and it is read as one thing in every order of its
-- members.
structure Decoder.Recovers (decoder : Decoder α) (levels : Nat) (v : Value) (a : α) : Prop where
  isExact : v.IsExact levels
  reads : decoder.Reads (Reordered v) a

theorem decodeText_of_reads {decoder : Decoder α} {forms : Value → Prop} {text : String}
    (h : decoder.Reads forms a) (hv : forms v) (hexact : v.IsExact maxLevels)
    (hspelled : v.SpelledBy text) : decodeText decoder text = .ok a := by
  have hholds : (Origin.text maxLevels).Holds v := by
    rintro levels ⟨⟩
    exact hexact
  rw [decodeText, ofText_of_spelledBy hspelled hexact]
  simp only [h _ v hv hholds]
  rfl

theorem Decoder.Recovers.decodeText_eq_ok {decoder : Decoder α} {v' : Value} {text : String}
    (h : decoder.Recovers maxLevels v a) (hv : Reordered v v') (hspelled : v'.SpelledBy text) :
    decodeText decoder text = .ok a :=
  decodeText_of_reads h.reads hv (hv.isExact h.isExact) hspelled

theorem Decoder.Recovers.decodeText_pretty {decoder : Decoder α}
    (h : decoder.Recovers maxLevels v a) : decodeText decoder v.pretty = .ok a :=
  h.decodeText_eq_ok (reordered_refl h.isExact) (spelledBy_pretty h.isExact)

-- The numbers that a field of 32 bits holds.
def IsInt32 (i : Int) : Prop :=
  -2147483648 ≤ i ∧ i ≤ 2147483647

instance (i : Int) : Decidable (IsInt32 i) :=
  inferInstanceAs (Decidable (-2147483648 ≤ i ∧ i ≤ 2147483647))

namespace Decoder

theorem recovers_stringNamed (expected s : String) :
    (stringNamed expected).Recovers levels (.string s) s :=
  ⟨.string s, reads_stringNamed expected s⟩

theorem recovers_bool (b : Bool) : bool.Recovers levels (.bool b) b :=
  ⟨.bool b, reads_bool b⟩

theorem recovers_int32 {i : Int} (h : IsInt32 i) : int32.Recovers levels (.int i) i where
  isExact := .number ⟨Int.le_trans (by decide) h.1, Int.lt_of_le_of_lt h.2 (by decide)⟩
  reads := reads_integer _ h

theorem recovers_natBelow {limit n : Nat} (expected : String) (hlimit : limit ≤ wordLimit)
    (h : n < limit) : (natBelow limit expected).Recovers levels (.nat n) n where
  isExact := .number ⟨by omega, Int.ofNat_lt.mpr (Nat.lt_of_lt_of_le h hlimit)⟩
  reads := reads_natBelow expected h

-- One of the names that a variant knows.
theorem recovers_variant {known : List (String × α)} {name : String}
    (h : known.find? (fun entry => entry.1 = name) = some (name, a)) :
    (variant known).Recovers levels (.string name) a :=
  ⟨.string name, reads_variant h⟩

variable {decoder : Decoder α}

theorem Recovers.map (h : decoder.Recovers levels v a) (f : α → β) :
    (decoder.map f).Recovers levels v (f a) :=
  ⟨h.isExact, h.reads.map f⟩

theorem recovers_option_none (decoder : Decoder α) :
    (option decoder).Recovers levels .null none :=
  ⟨.null, reads_option_none decoder⟩

theorem Recovers.option (h : decoder.Recovers levels v a) (hv : v ≠ .null) :
    (Decoder.option decoder).Recovers levels v (some a) := by
  refine ⟨h.isExact, h.reads.option fun hnull => ?_⟩
  cases hnull
  exact hv rfl

theorem recovers_list {f : α → Value} {as : List α}
    (h : ∀ a ∈ as, decoder.Recovers levels (f a) a) :
    (list decoder).Recovers (levels + 1) (.array (as.map f)) as where
  isExact := .array (List.forall_mem_map.mpr fun a ha => (h a ha).isExact)
  reads := reads_list fun a ha => (h a ha).reads

theorem recovers_strings (texts : List String) :
    (list string).Recovers (levels + 1) (.array (texts.map .string)) texts :=
  recovers_list fun text _ => recovers_stringNamed _ text

end Decoder

namespace Layout

variable {layout : Layout α} {members : List (String × Value)} {us : List (α → α)}

-- The member holds what its field puts into the record.
def Restores (layout : Layout α) (levels : Nat) (member : String × Value) (u : α → α) : Prop :=
  ∃ field, layout.field? member.1 = some field ∧ field.read.Recovers levels member.2 u

theorem isExact_of_restores (h : List.Forall₂ (layout.Restores levels) members us) :
    ∀ member ∈ members, member.2.IsExact levels := by
  intro member hm
  obtain ⟨_, -, _, -, hread⟩ := exists_of_mem_forall₂ h.flip hm
  exact hread.isExact

theorem carries_of_restores (h : List.Forall₂ (layout.Restores levels) members us) :
    List.Forall₂ (layout.Carries fun member => Reordered member.2) members us :=
  h.imp fun _ _ ⟨field, hfield, hread⟩ => ⟨field, hfield, hread.reads⟩

theorem recovers (expected : String) (h : List.Forall₂ (layout.Restores levels) members us)
    (hnodup : (members.map Prod.fst).Nodup)
    (hmissing : layout.missing? (members.map Prod.fst) = none)
    (hcommute : Commuting us)
    (hfill : us.foldl (fun r u => u r) layout.blank = a) :
    (layout.decodeAs expected).Recovers (levels + 1) (.object members) a where
  isExact := .object (isExact_of_restores h)
  reads := reads_reordered expected (carries_of_restores h) hnodup hmissing hcommute hfill

end Layout

namespace Decoder

variable {typeName tag name : String} {known : List (String × CaseForm α)}

theorem recovers_tagged_bare
    (hknown : known.find? (fun entry => entry.1 = name) = some (name, .bare a)) :
    (tagged typeName tag known).Recovers (levels + 1) (.object [(tag, .string name)]) a where
  isExact := .object (List.forall_mem_singleton.mpr (.string name))
  reads := reads_tagged_bare hknown

theorem recovers_tagged_fields {layout : Layout α} {members : List (String × Value)}
    (hknown : known.find? (fun entry => entry.1 = name) = some (name, .fields layout))
    (htag : tag ∉ members.map Prod.fst)
    (h : (layout.decodeAs ("struct variant " ++ typeName ++ "::" ++ layout.name)).Recovers
      (levels + 1) (.object members) a) :
    (tagged typeName tag known).Recovers (levels + 1)
      (.object ((tag, .string name) :: members)) a where
  isExact := by
    cases h.isExact with
    | object hmembers => exact .object (List.forall_mem_cons.mpr ⟨.string name, hmembers⟩)
  reads := reads_tagged_fields hknown htag h.reads

-- A case with one field.
theorem recovers_tagged_field {layout : Layout α} {field : String} {u : α → α}
    (hknown : known.find? (fun entry => entry.1 = name) = some (name, .fields layout))
    (htag : tag ≠ field) (h : layout.Restores levels (field, v) u)
    (hmissing : layout.missing? [field] = none) (hfill : u layout.blank = a) :
    (tagged typeName tag known).Recovers (levels + 1)
      (.object [(tag, .string name), (field, v)]) a :=
  recovers_tagged_fields hknown (by simpa using htag)
    (Layout.recovers _ (.cons h .nil) (by simp) hmissing (List.pairwise_singleton _ _) hfill)

end Decoder

end Conformance.Json
