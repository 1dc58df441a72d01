import Conformance.Json.Decode
import Mathlib.Tactic.SplitIfs

namespace Conformance.Json

namespace Decoder

variable {o : Origin} {d : Document}

theorem map_eq_ok {f : α → β} {inner : Decoder α} {b : β} (h : Decoder.map f inner o d = .ok b) :
    ∃ a, inner o d = .ok a ∧ f a = b := by
  unfold Decoder.map at h
  cases ha : inner o d with
  | error e => simp [ha, Except.map] at h
  | ok a =>
      simp only [ha, Except.map, Except.ok.injEq] at h
      exact ⟨a, rfl, h⟩

-- Nothing is read from a null, and something from all else that can be read.
theorem option_isSome_iff {inner : Decoder α} {a : Option α}
    (h : Decoder.option inner o d = .ok a) : a.isSome = true ↔ d ≠ .null := by
  by_cases hd : d = .null
  · subst hd
    cases h
    simp
  · have hinner : Decoder.option inner o d = (inner o d).map some := by
      cases d <;> first | exact absurd rfl hd | rfl
    rw [hinner] at h
    cases hx : inner o d with
    | error e => simp [hx, Except.map] at h
    | ok x =>
        simp only [hx, Except.map, Except.ok.injEq] at h
        simp [← h, hd]

end Decoder

theorem ofValue_eq_null_iff (v : Value) : Document.ofValue v = .null ↔ v = .null := by
  cases v <;> simp [Document.ofValue]

theorem eq_string_of_decode {v : Value} {s : String}
    (h : Decoder.string .parsed (Document.ofValue v) = .ok s) : v = .string s := by
  cases v with
  | string t => exact congrArg Value.string (Except.ok.inj h)
  | _ => cases h

theorem documentMembers_eq_map (members : List (String × Value)) :
    documentMembers members =
      members.map fun member => (.ok member.1, Document.ofValue member.2) := by
  induction members with
  | nil => rfl
  | cons head rest ih => rw [documentMembers, ih, List.map_cons]

namespace Field

variable {put : β → α → α} {get : α → γ} {name : String} {inner : Decoder β}

-- The field changes nothing of what `get` shows of a record.
def Keeps (field : Field α) (get : α → γ) : Prop :=
  ∀ o d update, field.read o d = .ok update → ∀ a, get (update a) = get a

theorem keeps_required (h : ∀ v a, get (put v a) = get a) :
    (Field.required name inner put).Keeps get := by
  intro o d update hread a
  obtain ⟨v, _, rfl⟩ := Decoder.map_eq_ok hread
  exact h v a

theorem keeps_absent {put : Option β → α → α} (h : ∀ v a, get (put v a) = get a) :
    (Field.absent name inner put).Keeps get := by
  intro o d update hread a
  obtain ⟨v, _, rfl⟩ := Decoder.map_eq_ok hread
  exact h v a

end Field

namespace Layout

variable {layout : Layout α} {o : Origin} {a b : α} {seen : List String} {name : String}

-- Members that all have a name.
def named (members : List (String × Document)) : List (Except Fault String × Document) :=
  members.map fun member => (.ok member.1, member.2)

theorem mem_of_field? {field : Field α} (h : layout.field? name = some field) :
    field ∈ layout.fields ∧ field.name = name :=
  ⟨List.mem_of_find?_eq_some h, by simpa using List.find?_some h⟩

theorem missing?_eq_none_iff {names : List String} : layout.missing? names = none ↔
    ∀ field ∈ layout.fields, field.optional = false → field.name ∈ names := by
  simp only [missing?, Option.map_eq_none_iff, List.find?_eq_none, Bool.and_eq_true,
    Bool.not_eq_true', List.contains_eq_mem, decide_eq_false_iff_not, not_and, Classical.not_not]

-- How a member is read: passed over, or put into the record by its field.
theorem readMembers_cons {d : Document} {members : List (String × Document)}
    (h : layout.readMembers o (named ((name, d) :: members)) none seen a = .ok b) :
    (layout.field? name = none ∧ layout.readMembers o (named members) none seen a = .ok b) ∨
    (∃ field update, layout.field? name = some field ∧ name ∉ seen ∧
      field.read o d = .ok update ∧
      layout.readMembers o (named members) none (name :: seen) (update a) = .ok b) := by
  simp only [named, List.map_cons, readMembers] at h
  split at h
  · rename_i hfield
    split at h
    · cases h
    · exact .inl ⟨hfield, h⟩
  · rename_i field hfield
    split at h
    · cases h
    · rename_i hseen
      split at h
      · cases h
      · rename_i update hread
        exact .inr ⟨field, update, hfield, by simpa using hseen, hread, h⟩

-- The name of a field is read at most once.
theorem name_notMem_of_readMembers {field : Field α} (hfield : layout.field? name = some field)
    {members : List (String × Document)} (hseen : name ∈ seen)
    (h : layout.readMembers o (named members) none seen a = .ok b) :
    name ∉ members.map Prod.fst := by
  induction members generalizing seen a with
  | nil => simp
  | cons member rest ih =>
      obtain ⟨other, d⟩ := member
      rcases readMembers_cons h with ⟨hother, hrest⟩ | ⟨_, _, _, hfresh, _, hrest⟩
      · have hne : name ≠ other := by
          rintro rfl
          simp [hfield] at hother
        simpa [hne] using ih hseen hrest
      · have hne : name ≠ other := by
          rintro rfl
          exact hfresh hseen
        simpa [hne] using ih (List.mem_cons_of_mem _ hseen) hrest

section Get

variable {get : α → β} (hkeep : ∀ field ∈ layout.fields, field.name ≠ name → field.Keeps get)
include hkeep

theorem readMembers_get_of_notMem {members : List (String × Document)}
    (hn : name ∉ members.map Prod.fst)
    (h : layout.readMembers o (named members) none seen a = .ok b) : get b = get a := by
  induction members generalizing seen a with
  | nil =>
      simp only [named, List.map_nil, readMembers] at h
      split at h
      · cases h
      · cases h
        rfl
  | cons member rest ih =>
      obtain ⟨other, d⟩ := member
      simp only [List.map_cons, List.mem_cons, not_or] at hn
      rcases readMembers_cons h with ⟨_, hrest⟩ | ⟨field, update, hfield, _, hread, hrest⟩
      · exact ih hn.2 hrest
      · obtain ⟨hmem, hname⟩ := mem_of_field? hfield
        rw [ih hn.2 hrest]
        exact hkeep field hmem (hname ▸ Ne.symm hn.1) o d update hread a

-- What a record shows behind a member is what the field of that member put in.
theorem readMembers_get_of_mem {field : Field α} (hfield : layout.field? name = some field)
    {d : Document} {members : List (String × Document)} (hm : (name, d) ∈ members)
    (h : layout.readMembers o (named members) none seen a = .ok b) :
    ∃ update before, field.read o d = .ok update ∧ get b = get (update before) := by
  induction members generalizing seen a with
  | nil => cases hm
  | cons member rest ih =>
      obtain ⟨other, e⟩ := member
      rcases readMembers_cons h with ⟨hother, hrest⟩ | ⟨found, update, hother, _, hread, hrest⟩
      · rcases List.mem_cons.mp hm with heq | hm
        · cases heq
          simp [hfield] at hother
        · exact ih hm hrest
      · rcases List.mem_cons.mp hm with heq | hm
        · cases heq
          cases hfield.symm.trans hother
          have hn := name_notMem_of_readMembers hfield List.mem_cons_self hrest
          exact ⟨update, a, hread, readMembers_get_of_notMem hkeep hn hrest⟩
        · exact ih hm hrest

end Get

-- Members that are all known are read into the record one by one. What it holds
-- depends only on which of them were read.
theorem readMembers_eq_filled {filled : List String → α} {members : List (String × Document)}
    (hread : ∀ member ∈ members, ∃ field update, layout.field? member.1 = some field ∧
      field.read o member.2 = .ok update ∧
      ∀ seen, update (filled seen) = filled (member.1 :: seen))
    (hnodup : (members.map Prod.fst).Nodup) (hfresh : ∀ name ∈ members.map Prod.fst, name ∉ seen)
    (hrequired : ∀ field ∈ layout.fields, field.optional = false →
      field.name ∈ (members.map Prod.fst).reverse ++ seen) :
    layout.readMembers o (named members) none seen (filled seen) =
      .ok (filled ((members.map Prod.fst).reverse ++ seen)) := by
  induction members generalizing seen with
  | nil =>
      have hmissing : layout.missing? seen = none :=
        missing?_eq_none_iff.mpr fun field hm hoptional => by
          simpa using hrequired field hm hoptional
      simp only [named, List.map_nil, readMembers, hmissing, List.reverse_nil, List.nil_append]
  | cons member rest ih =>
      obtain ⟨name, d⟩ := member
      obtain ⟨field, update, hfield, hupdate, hfill⟩ := hread _ List.mem_cons_self
      rw [List.map_cons, List.nodup_cons] at hnodup
      have hunseen : seen.contains name = false := by
        simpa using hfresh name List.mem_cons_self
      have hlist : (List.map Prod.fst ((name, d) :: rest)).reverse ++ seen =
          (rest.map Prod.fst).reverse ++ name :: seen := by
        simp
      rw [hlist] at hrequired ⊢
      rw [← ih (fun m hm => hread m (List.mem_cons_of_mem _ hm)) hnodup.2 _ hrequired]
      · simp only [named, List.map_cons, readMembers, hfield, hunseen, hupdate, hfill,
          Bool.false_eq_true, if_false]
      · intro other hm hseen
        rcases List.mem_cons.mp hseen with rfl | hseen
        · exact hnodup.1 hm
        · exact hfresh other (List.mem_cons_of_mem _ hm) hseen

end Layout

theorem mem_of_member? {name : String} {v : Value} {members : List (String × Value)}
    (h : (Value.object members).member? name = some v) : (name, v) ∈ members := by
  obtain ⟨⟨other, w⟩, hfind, rfl⟩ := Option.map_eq_some_iff.mp h
  have hname : other = name := by simpa using List.find?_some hfind
  exact hname ▸ List.mem_of_find?_eq_some hfind

-- An object that was read before is decoded member by member.
theorem decodeValue_object {layout : Layout α} {members : List (String × Value)} {a : α}
    (hnormal : (Value.object members).normal = .object members)
    (h : decodeValue layout.decode (.object members) = .ok a) :
    layout.readMembers .parsed
      (Layout.named (members.map fun member => (member.1, Document.ofValue member.2))) none []
      layout.blank = .ok a := by
  simp only [decodeValue, hnormal, Document.ofValue, documentMembers_eq_map] at h
  rw [Layout.named, List.map_map]
  exact h

section Decoded

variable {layout : Layout α} {members : List (String × Value)} {name : String} {v : Value} {a : α}
  {inner : Decoder β} (hnormal : (Value.object members).normal = .object members)
  (hm : (Value.object members).member? name = some v)
  (h : decodeValue layout.decode (.object members) = .ok a)
include hnormal hm h

private theorem exists_update_of_member {get : α → γ} {field : Field α}
    (hkeep : ∀ field ∈ layout.fields, field.name ≠ name → field.Keeps get)
    (hfield : layout.field? name = some field) :
    ∃ update before, field.read .parsed (Document.ofValue v) = .ok update ∧
      get a = get (update before) := by
  apply Layout.readMembers_get_of_mem hkeep hfield _ (decodeValue_object hnormal h)
  exact List.mem_map.mpr ⟨(name, v), mem_of_member? hm, rfl⟩

theorem decodeValue_required (get : α → β) (put : β → α → α)
    (hkeep : ∀ field ∈ layout.fields, field.name ≠ name → field.Keeps get)
    (hfield : layout.field? name = some (.required name inner put))
    (hput : ∀ x a, get (put x a) = x) :
    inner .parsed (Document.ofValue v) = .ok (get a) := by
  obtain ⟨update, before, hread, hget⟩ := exists_update_of_member hnormal hm h hkeep hfield
  obtain ⟨x, hx, rfl⟩ := Decoder.map_eq_ok hread
  rw [hget, hput, hx]

theorem decodeValue_absent (get : α → Option β) (put : Option β → α → α)
    (hkeep : ∀ field ∈ layout.fields, field.name ≠ name → field.Keeps get)
    (hfield : layout.field? name = some (.absent name inner put))
    (hput : ∀ x a, get (put x a) = x) : (get a).isSome = true ↔ v ≠ .null := by
  obtain ⟨update, before, hread, hget⟩ := exists_update_of_member hnormal hm h hkeep hfield
  obtain ⟨x, hx, rfl⟩ := Decoder.map_eq_ok hread
  rw [hget, hput, Decoder.option_isSome_iff hx, Ne, ofValue_eq_null_iff]

end Decoded

end Conformance.Json
