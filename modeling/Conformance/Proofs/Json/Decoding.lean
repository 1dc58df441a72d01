import Conformance.Proofs.Json.Record
import Conformance.Proofs.Json.Reordering
import Mathlib.Data.List.Perm.Basic

namespace Conformance.Json

variable {α β : Type} {o : Origin} {v : Value}

-- Where a value may stand: in a text it nests only as deep as is allowed there.
def Origin.Holds (o : Origin) (v : Value) : Prop :=
  ∀ levels, o = .text levels → v.IsExact levels

-- Whatever of some values is read, it stands for the same.
def Decoder.Reads (decoder : Decoder α) (forms : Value → Prop) (a : α) : Prop :=
  ∀ o v, forms v → o.Holds v → decoder o (Document.ofValue v) = .ok a

section Holds

theorem Origin.Holds.item {items : List Value} (h : o.Holds (.array items)) (hv : v ∈ items) :
    o.enter.Holds v := by
  intro levels hlevels
  cases o with
  | text outer =>
      cases h outer rfl with
      | array hitems =>
          cases hlevels
          exact hitems v hv
  | parsed => cases hlevels
  | buffered => cases hlevels

theorem Origin.Holds.member {members : List (String × Value)} (h : o.Holds (.object members))
    {member : String × Value} (hm : member ∈ members) : o.enter.Holds member.2 := by
  intro levels hlevels
  cases o with
  | text outer =>
      cases h outer rfl with
      | object hmembers =>
          cases hlevels
          exact hmembers member hm
  | parsed => cases hlevels
  | buffered => cases hlevels

theorem Origin.holds_buffered (v : Value) : Origin.buffered.Holds v :=
  nofun

theorem Decoder.setAside_ofValue (h : o.Holds v) :
    Decoder.setAside o (Document.ofValue v) = .ok (Document.ofValue v) := by
  cases o with
  | text levels =>
      unfold setAside
      simp only [value_ofValue (h levels rfl)]
  | parsed => rfl
  | buffered => rfl

mutual

theorem skipFault_ofValue : (v : Value) → (Document.ofValue v).skipFault = none
  | .null | .bool _ | .number _ | .string _ => rfl
  | .array items => by
      rw [Document.ofValue, Document.skipFault, skipItems_documentItems items]
      rfl
  | .object members => by
      rw [Document.ofValue, Document.skipFault, skipMembers_documentMembers members]
      rfl

theorem skipItems_documentItems : (items : List Value) → skipItems (documentItems items) = none
  | [] => rfl
  | v :: rest => by
      rw [documentItems, skipItems, skipFault_ofValue v, skipItems_documentItems rest]
      rfl

theorem skipMembers_documentMembers : (members : List (String × Value)) →
    skipMembers (documentMembers members) = none
  | [] => rfl
  | (name, v) :: rest => by
      rw [documentMembers, skipMembers, skipFault_ofValue v, skipMembers_documentMembers rest]
      rfl

end

end Holds

namespace Decoder

variable {forms : Value → Prop}

theorem Reads.map {decoder : Decoder α} {a : α} (h : decoder.Reads forms a) (f : α → β) :
    (decoder.map f).Reads forms (f a) := by
  intro o v hv ho
  rw [Decoder.map, h o v hv ho]
  rfl

theorem reads_stringNamed (expected s : String) :
    (stringNamed expected).Reads (Reordered (.string s)) s := by
  rintro o _ ⟨⟩ -
  rfl

theorem reads_bool (b : Bool) : bool.Reads (Reordered (.bool b)) b := by
  rintro o _ ⟨⟩ -
  rfl

theorem reads_integer {low high i : Int} (expected : String) (h : low ≤ i ∧ i ≤ high) :
    (integer low high expected).Reads (Reordered (.int i)) i := by
  rintro o _ ⟨⟩ -
  exact if_pos h

theorem reads_natBelow {limit n : Nat} (expected : String) (h : n < limit) :
    (natBelow limit expected).Reads (Reordered (.nat n)) n := by
  have hrange : (0 : Int) ≤ n ∧ (n : Int) ≤ (limit : Int) - 1 := by omega
  intro o v hv ho
  rw [natBelow, reads_integer expected hrange o v hv ho]
  rfl

-- One of the names that a variant knows.
theorem reads_variant {known : List (String × α)} {name : String} {a : α}
    (h : known.find? (fun entry => entry.1 = name) = some (name, a)) :
    (variant known).Reads (Reordered (.string name)) a := by
  have hnamed : variantNamed known name = .ok a := by
    unfold variantNamed
    rw [h]
  rintro o _ ⟨⟩ -
  cases o <;> exact hnamed

theorem reads_option_none (inner : Decoder α) :
    (option inner).Reads (Reordered .null) none := by
  rintro o _ ⟨⟩ -
  rfl

theorem Reads.option {inner : Decoder α} {a : α} (h : inner.Reads forms a)
    (hnull : ¬forms .null) : (Decoder.option inner).Reads forms (some a) := by
  intro o v hv ho
  have hoption : Decoder.option inner o (Document.ofValue v) =
      (inner o (Document.ofValue v)).map some := by
    cases v with
    | null => exact absurd hv hnull
    | _ => rfl
  rw [hoption, h o v hv ho]
  rfl

theorem all_documentItems {inner : Decoder α} {items : List Value} {as : List α}
    (h : List.Forall₂ (fun a v => inner o (Document.ofValue v) = .ok a) as items) :
    all inner o (documentItems items) = .ok as := by
  induction h with
  | nil => rfl
  | cons hfirst _ ih =>
      rw [documentItems, all, hfirst, ih]
      rfl

theorem reads_list {inner : Decoder α} {f : α → Value} {as : List α}
    (h : ∀ a ∈ as, inner.Reads (Reordered (f a)) a) :
    (list inner).Reads (Reordered (.array (as.map f))) as := by
  intro o v hv ho
  cases hv with
  | @array _ items hitems =>
      rw [List.forall₂_map_left_iff] at hitems
      have hall : List.Forall₂ (fun a v => inner o.enter (Document.ofValue v) = .ok a) as
          items := by
        refine List.forall₂_iff_zip.mpr ⟨hitems.length_eq, fun {a v} hzip => ?_⟩
        obtain ⟨ha, hv⟩ := List.of_mem_zip hzip
        exact h a ha o.enter v (List.forall₂_zip hitems hzip) (ho.item hv)
      rw [Document.ofValue, list, all_documentItems hall]
      rfl

end Decoder

namespace Layout

variable {layout : Layout α} {members own extra : List (String × Value)} {us : List (α → α)}
  {seen : List String} {a : α}

-- A member is put into the record by its field, or passed over without one.
def Takes (layout : Layout α) (o : Origin) (member : String × Value) (u : α → α) : Prop :=
  (layout.field? member.1 = none ∧ u = id) ∨
    ∃ field, layout.field? member.1 = some field ∧
      field.read o (Document.ofValue member.2) = .ok u

theorem name_mem_of_field?_eq_none {name : String} (h : layout.field? name = none)
    {field : Field α} (hm : field ∈ layout.fields) : field.name ≠ name := by
  simpa using List.find?_eq_none.mp h field hm

-- Members are put into the record one after the other.
theorem readMembers_eq_foldl (h : List.Forall₂ (layout.Takes o) members us)
    (hdistinct : (members.map Prod.fst).Pairwise fun name other =>
      name = other → layout.field? name = none)
    (hfresh : ∀ name ∈ members.map Prod.fst, name ∈ seen → layout.field? name = none)
    (hrequired : ∀ field ∈ layout.fields, field.optional = false →
      field.name ∈ seen ∨ field.name ∈ members.map Prod.fst) :
    layout.readMembers o (documentMembers members) none seen a =
      .ok (us.foldl (fun r u => u r) a) := by
  induction h generalizing seen a with
  | nil =>
      have hmissing : layout.missing? seen = none :=
        missing?_eq_none_iff.mpr fun field hm hoptional =>
          (hrequired field hm hoptional).resolve_right List.not_mem_nil
      simp only [documentMembers, readMembers, hmissing, List.foldl_nil]
  | @cons member u more us hfirst _ ih =>
      obtain ⟨name, v⟩ := member
      rw [List.map_cons, List.pairwise_cons] at hdistinct
      rcases hfirst with ⟨hnone, rfl⟩ | ⟨field, hfield, hread⟩
      · rw [documentMembers, readMembers]
        simp only [hnone, skipFault_ofValue, List.foldl_cons, id_eq]
        refine ih hdistinct.2 (fun other hm => hfresh other (List.mem_cons_of_mem _ hm)) ?_
        intro field hm hoptional
        refine (hrequired field hm hoptional).imp_right fun hname => ?_
        exact (List.mem_cons.mp hname).resolve_left (name_mem_of_field?_eq_none hnone hm)
      · have hunseen : seen.contains name = false := by
          rw [List.contains_eq_mem, decide_eq_false_iff_not]
          intro hseen
          have hnone := hfresh name List.mem_cons_self hseen
          rw [hnone] at hfield
          cases hfield
        rw [documentMembers, readMembers]
        simp only [hfield, hunseen, hread, Bool.false_eq_true, if_false, List.foldl_cons]
        refine ih hdistinct.2 ?_ ?_
        · intro other hm hseen
          rcases List.mem_cons.mp hseen with rfl | hseen
          · exact hdistinct.1 other hm rfl
          · exact hfresh other (List.mem_cons_of_mem _ hm) hseen
        · intro field hm hoptional
          rcases hrequired field hm hoptional with hseen | hname
          · exact .inl (List.mem_cons_of_mem _ hseen)
          · rcases List.mem_cons.mp hname with rfl | hname
            · exact .inl List.mem_cons_self
            · exact .inr hname

theorem foldl_map_id (l : List β) (a : α) :
    (l.map fun _ => (id : α → α)).foldl (fun r u => u r) a = a := by
  induction l with
  | nil => rfl
  | cons _ more ih => exact ih

-- Updates no two of which interfere.
def Commuting (us : List (α → α)) : Prop :=
  us.Pairwise fun u u' => ∀ a, u (u' a) = u' (u a)

theorem Commuting.perm {us us' : List (α → α)} (h : Commuting us) (hperm : us.Perm us') :
    Commuting us' :=
  (hperm.pairwise_iff fun hcommute a => (hcommute a).symm).mp h

theorem Commuting.foldl_eq_of_perm {us us' : List (α → α)} (h : Commuting us)
    (hperm : us.Perm us') (a : α) :
    us.foldl (fun r u => u r) a = us'.foldl (fun r u => u r) a := by
  refine hperm.foldl_eq' (fun u hu u' hu' r => ?_) a
  have hall := List.Pairwise.forall_of_forall_of_flip (fun u _ a => rfl) h
    (h.imp fun hcommute a => (hcommute a).symm) hu hu'
  exact (hall r).symm

-- The order of the members does not matter, nor does what the record has no field for.
theorem decodeAs_eq_foldl (expected : String) (htakes : List.Forall₂ (layout.Takes o.enter) own us)
    (hextra : ∀ member ∈ extra, layout.field? member.1 = none)
    (horder : members.Perm (own ++ extra)) (hnodup : (own.map Prod.fst).Nodup)
    (hmissing : layout.missing? (own.map Prod.fst) = none)
    (hcommute : Commuting us) :
    layout.decodeAs expected o (Document.ofValue (.object members)) =
      .ok (us.foldl (fun r u => u r) layout.blank) := by
  have hboth : List.Forall₂ (layout.Takes o.enter) (own ++ extra)
      (us ++ extra.map fun _ => id) := by
    refine List.rel_append htakes ?_
    rw [List.forall₂_map_right_iff, List.forall₂_same]
    exact fun member hm => .inl ⟨hextra member hm, rfl⟩
  obtain ⟨us', hall, hus⟩ := List.perm_comp_forall₂ horder hboth
  have hnames : (members.map Prod.fst).Perm (own.map Prod.fst ++ extra.map Prod.fst) := by
    rw [← List.map_append]
    exact horder.map _
  have hunknown : ∀ name ∈ extra.map Prod.fst, layout.field? name = none := by
    intro name hname
    obtain ⟨member, hm, rfl⟩ := List.mem_map.mp hname
    exact hextra member hm
  have hdistinct : (own.map Prod.fst ++ extra.map Prod.fst).Pairwise fun name other =>
      name = other → layout.field? name = none := by
    rw [List.pairwise_append]
    refine ⟨hnodup.imp fun hne heq => absurd heq hne, ?_, ?_⟩
    · exact List.pairwise_of_forall_mem_list fun name hname _ _ _ => hunknown name hname
    · rintro name - other hother rfl
      exact hunknown name hother
  have hcommute' : Commuting (us ++ extra.map fun _ => id) := by
    rw [Commuting, List.pairwise_append]
    refine ⟨hcommute, ?_, ?_⟩
    · refine List.pairwise_of_forall_mem_list fun u hu u' _ => ?_
      obtain ⟨_, -, rfl⟩ := List.mem_map.mp hu
      exact fun _ => rfl
    · rintro u - u' hu'
      obtain ⟨_, -, rfl⟩ := List.mem_map.mp hu'
      exact fun _ => rfl
  rw [Document.ofValue, decodeAs, readMembers_eq_foldl hall]
  · rw [← hcommute'.foldl_eq_of_perm hus.symm, List.foldl_append, foldl_map_id]
  · refine (hnames.pairwise_iff fun {name other} h heq => ?_).mpr hdistinct
    exact heq ▸ h heq.symm
  · exact fun _ _ h => absurd h List.not_mem_nil
  · intro field hm hoptional
    refine .inr (hnames.symm.subset ?_)
    exact List.mem_append_left _ (missing?_eq_none_iff.mp hmissing field hm hoptional)

-- The field of a member reads all that may stand for the member's value.
def Carries (layout : Layout α) (forms : String × Value → Value → Prop)
    (member : String × Value) (u : α → α) : Prop :=
  ∃ field, layout.field? member.1 = some field ∧ field.read.Reads (forms member) u

theorem takes_of_aligned {forms : String × Value → Value → Prop}
    (haligned : Aligned forms members own)
    (hcarries : List.Forall₂ (layout.Carries forms) members us)
    (hheld : ∀ member ∈ own, o.Holds member.2) : List.Forall₂ (layout.Takes o) own us := by
  induction haligned generalizing us with
  | nil =>
      cases hcarries
      exact .nil
  | cons hfirst _ ih =>
      cases hcarries with
      | cons hcarried hrest =>
          obtain ⟨field, hfield, hread⟩ := hcarried
          refine .cons (.inr ⟨field, hfirst.1 ▸ hfield, ?_⟩)
            (ih hrest fun member hm => hheld member (List.mem_cons_of_mem _ hm))
          exact hread o _ hfirst.2 (hheld _ List.mem_cons_self)

theorem reads_reordered (expected : String)
    (hcarries : List.Forall₂ (layout.Carries fun member => Reordered member.2) members us)
    (hnodup : (members.map Prod.fst).Nodup)
    (hmissing : layout.missing? (members.map Prod.fst) = none)
    (hcommute : Commuting us)
    (hfill : us.foldl (fun r u => u r) layout.blank = a) :
    (layout.decodeAs expected).Reads (Reordered (.object members)) a := by
  intro o v hv ho
  obtain ⟨own, members', rfl, haligned, horder⟩ := reordered_object_iff.mp hv
  have hnames := map_fst_of_aligned haligned
  have htakes := takes_of_aligned haligned hcarries
    fun member hm => ho.member (horder.subset hm)
  have horder' : members'.Perm (own ++ []) := by
    rw [List.append_nil]
    exact horder.symm
  rw [decodeAs_eq_foldl expected htakes (fun _ h => absurd h List.not_mem_nil) horder'
    (hnames ▸ hnodup) (hnames ▸ hmissing) hcommute, hfill]

end Layout

namespace Decoder

theorem taggedMembers_some {tag : String} {known : List (String × CaseForm α)}
    {entry : String × CaseForm α} {members : List (String × Value)}
    {kept : List (Except Fault String × Document)} (hheld : ∀ member ∈ members, o.Holds member.2)
    (htag : tag ∉ members.map Prod.fst) :
    taggedMembers tag known o (documentMembers members) none (some entry) kept =
      .ok (entry, kept.reverse ++ documentMembers members) := by
  induction members generalizing kept with
  | nil => simp [documentMembers, taggedMembers]
  | cons member more ih =>
      obtain ⟨name, v⟩ := member
      rw [List.map_cons, List.mem_cons, not_or] at htag
      rw [documentMembers, taggedMembers]
      simp only [if_neg (Ne.symm htag.1), setAside_ofValue (hheld _ List.mem_cons_self)]
      rw [ih (fun m hm => hheld m (List.mem_cons_of_mem _ hm)) htag.2]
      simp

theorem taggedMembers_none {tag name : String} {known : List (String × CaseForm α)}
    {form : CaseForm α} {before after : List (String × Value)}
    {kept : List (Except Fault String × Document)}
    (hknown : known.find? (fun entry => entry.1 = name) = some (name, form))
    (hheld : ∀ member ∈ before ++ after, o.Holds member.2)
    (htag : tag ∉ (before ++ after).map Prod.fst) :
    taggedMembers tag known o (documentMembers (before ++ (tag, .string name) :: after)) none
        none kept =
      .ok ((name, form), kept.reverse ++ documentMembers (before ++ after)) := by
  induction before generalizing kept with
  | nil =>
      have hnamed : variantNamed (known.map fun entry => (entry.1, entry)) name =
          .ok (name, form) := by
        have hfind : (known.map fun entry => (entry.1, entry)).find?
            (fun entry => entry.1 = name) = some (name, (name, form)) :=
          (List.find?_map ..).trans (congrArg (Option.map _) hknown)
        unfold variantNamed
        rw [hfind]
      have hname : ∀ s, stringNamed "variant identifier" o (Document.ofValue (.string s)) = .ok s :=
        fun _ => rfl
      rw [List.nil_append] at hheld htag ⊢
      rw [documentMembers, taggedMembers]
      simp only [if_true, Option.isSome_none, Bool.false_eq_true, if_false, hname, hnamed]
      exact taggedMembers_some hheld htag
  | cons member more ih =>
      obtain ⟨other, v⟩ := member
      rw [List.cons_append, List.map_cons, List.mem_cons, not_or] at htag
      rw [List.cons_append, documentMembers, taggedMembers]
      simp only [if_neg (Ne.symm htag.1), setAside_ofValue (hheld _ List.mem_cons_self)]
      rw [ih (fun m hm => hheld m (List.mem_cons_of_mem _ hm)) htag.2]
      simp [documentMembers]

-- The tag may stand anywhere among the members of a tagged value.
theorem reads_tagged {typeName tag name : String} {known : List (String × CaseForm α)}
    {form : CaseForm α} {members : List (String × Value)} {a : α}
    (hknown : known.find? (fun entry => entry.1 = name) = some (name, form))
    (htag : tag ∉ members.map Prod.fst)
    (hform : ∀ v, Reordered (.object members) v →
      caseOf typeName form (Document.ofValue v) = .ok a) :
    (tagged typeName tag known).Reads (Reordered (.object ((tag, .string name) :: members))) a := by
  intro o v hv ho
  obtain ⟨own, members', rfl, haligned, horder⟩ := reordered_object_iff.mp hv
  cases haligned with
  | @cons _ first _ own hfirst haligned =>
      obtain ⟨tag', value⟩ := first
      obtain ⟨rfl, hvalue⟩ := hfirst
      cases hvalue
      obtain ⟨before, after, rfl⟩ := List.append_of_mem (horder.subset List.mem_cons_self)
      have hrest : own.Perm (before ++ after) :=
        List.Perm.cons_inv (horder.trans List.perm_middle)
      have hheld : ∀ member ∈ before ++ after, o.enter.Holds member.2 := by
        intro member hm
        refine ho.member ?_
        rcases List.mem_append.mp hm with hm | hm
        · exact List.mem_append_left _ hm
        · exact List.mem_append_right _ (List.mem_cons_of_mem _ hm)
      have hnotag : tag' ∉ (before ++ after).map Prod.fst := by
        rw [← (hrest.map Prod.fst).mem_iff, map_fst_of_aligned haligned]
        exact htag
      have hcase := hform (.object (before ++ after))
        (reordered_object_iff.mpr ⟨own, _, rfl, haligned, hrest⟩)
      rw [Document.ofValue, tagged]
      simp only [taggedMembers_none hknown hheld hnotag]
      exact hcase

theorem reads_tagged_bare {typeName tag name : String} {known : List (String × CaseForm α)}
    {a : α} (hknown : known.find? (fun entry => entry.1 = name) = some (name, .bare a)) :
    (tagged typeName tag known).Reads (Reordered (.object [(tag, .string name)])) a := by
  refine reads_tagged hknown (by simp) fun v hv => ?_
  obtain ⟨own, members', rfl, -, -⟩ := reordered_object_iff.mp hv
  rfl

theorem reads_tagged_fields {typeName tag name : String} {known : List (String × CaseForm α)}
    {layout : Layout α} {members : List (String × Value)} {a : α}
    (hknown : known.find? (fun entry => entry.1 = name) = some (name, .fields layout))
    (htag : tag ∉ members.map Prod.fst)
    (h : (layout.decodeAs ("struct variant " ++ typeName ++ "::" ++ layout.name)).Reads
      (Reordered (.object members)) a) :
    (tagged typeName tag known).Reads (Reordered (.object ((tag, .string name) :: members))) a :=
  reads_tagged hknown htag fun v hv => h .buffered v hv (Origin.holds_buffered v)

end Decoder

end Conformance.Json
