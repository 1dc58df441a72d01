import Conformance.Proofs.Json.Recovering

namespace Conformance.Json

variable {α β : Type} {levels : Nat} {a : α}

-- A value without parts that is no number.
inductive Value.IsPlain : Value → Prop where
  | null : IsPlain .null
  | bool (b : Bool) : IsPlain (.bool b)
  | string (s : String) : IsPlain (.string s)

-- An object edited by hand: only members that are the same in the default may be left out,
-- each other one is in one of its forms, members without a field are added, and the order is
-- any.
inductive Edited (layout : Layout α) (forms : String × Value → Value → Prop) :
    Value → Value → Value → Prop where
  | mk {defaults members own extra members' : List (String × Value)}
      (keep : String × Value → Bool)
      (hdropped : ∀ member ∈ members, keep member = false → member ∈ defaults)
      (haligned : Aligned forms (members.filter keep) own)
      (hextra : ∀ member ∈ extra, layout.field? member.1 = none ∧ member.2.IsPlain)
      (horder : (own ++ extra).Perm members') :
      Edited layout forms (.object defaults) (.object members) (.object members')

theorem Value.IsPlain.isExact {v : Value} (h : v.IsPlain) : v.IsExact levels := by
  cases h with
  | null => exact .null
  | bool b => exact .bool b
  | string s => exact .string s

theorem Edited.isExact {layout : Layout α} {forms : String × Value → Value → Prop}
    {default v v' : Value} (h : Edited layout forms default v v')
    (hforms : ∀ member w, forms member w → member.2.IsExact levels → w.IsExact levels)
    (hexact : v.IsExact (levels + 1)) : v'.IsExact (levels + 1) := by
  cases h with
  | mk keep hdropped haligned hextra horder =>
      cases hexact with
      | object hold =>
          refine .object fun member hm => ?_
          rcases List.mem_append.mp (horder.symm.subset hm) with hown | hm
          · obtain ⟨member', hm', -, hform⟩ := exists_of_mem_forall₂ haligned hown
            exact hforms member' member.2 hform (hold member' (List.mem_of_mem_filter hm'))
          · exact (hextra member hm).2.isExact

namespace Layout

variable {layout : Layout α} {members defaults : List (String × Value)} {us : List (α → α)}

-- What a member holds does not depend on how it is read.
theorem Restores.unique {levels' : Nat} {member : String × Value} {u u' : α → α}
    (h : layout.Restores levels member u) (h' : layout.Restores levels' member u') : u = u' := by
  obtain ⟨field, hfield, hread⟩ := h
  obtain ⟨field', hfield', hread'⟩ := h'
  cases hfield.symm.trans hfield'
  have hsame := reordered_refl hread.isExact
  exact Except.ok.inj
    ((hread.reads .parsed _ hsame nofun).symm.trans (hread'.reads .parsed _ hsame nofun))

theorem Restores.carries {member : String × Value} {u : α → α}
    (h : layout.Restores levels member u) :
    layout.Carries (fun member => Reordered member.2) member u := by
  obtain ⟨field, hfield, hread⟩ := h
  exact ⟨field, hfield, hread.reads⟩

-- A member of a type with a decoder of its own is carried in all forms that this one reads.
theorem Restores.carries_of_reads {forms : Value → Prop} {name : String} {v : Value} {b : β}
    {inner : Decoder β} {put : β → α → α} {member : String × Value} {u : α → α}
    (h : layout.Restores levels member u)
    (hfield : layout.field? name = some (.defaulted name inner put))
    (hinner : inner.Recovers levels v b) (hforms : inner.Reads forms b) :
    layout.Carries (fun member w => member = (name, v) ∧ forms w) member u := by
  by_cases hmember : member = (name, v)
  · subst hmember
    have hput : layout.Restores levels (name, v) (put b) := ⟨_, hfield, hinner.map put⟩
    rw [h.unique hput]
    exact ⟨_, hfield, fun o w hw ho => hforms.map put o w hw.2 ho⟩
  · obtain ⟨field, hfield', -⟩ := h
    exact ⟨field, hfield', fun o w hw _ => absurd hw.1 hmember⟩

theorem Carries.or {forms forms' : String × Value → Value → Prop} {member : String × Value}
    {u : α → α} (h : layout.Carries forms member u) (h' : layout.Carries forms' member u) :
    layout.Carries (fun member w => forms member w ∨ forms' member w) member u := by
  obtain ⟨field, hfield, hread⟩ := h
  obtain ⟨field', hfield', hread'⟩ := h'
  cases hfield.symm.trans hfield'
  refine ⟨field, hfield, ?_⟩
  rintro o w (hw | hw) ho
  · exact hread o w hw ho
  · exact hread' o w hw ho

-- An object with a member for each field of a record, each of which the record has already.
inductive Fills (layout : Layout α) (levels : Nat) : Value → α → Prop where
  | mk {members : List (String × Value)} {us : List (α → α)} {a : α}
      (hrestores : List.Forall₂ (layout.Restores levels) members us)
      (hnodup : (members.map Prod.fst).Nodup)
      (hmissing : layout.missing? (members.map Prod.fst) = none)
      (hcommute : Commuting us) (hholds : ∀ u ∈ us, u a = a)
      (hfill : us.foldl (fun r u => u r) layout.blank = a) :
      Fills layout levels (.object members) a

theorem Fills.recovers {v : Value} (expected : String) (h : layout.Fills levels v a) :
    (layout.decodeAs expected).Recovers (levels + 1) v a := by
  cases h with
  | mk hrestores hnodup hmissing hcommute _ hfill =>
      exact Layout.recovers expected hrestores hnodup hmissing hcommute hfill

theorem foldl_eq_self (h : ∀ u ∈ us, u a = a) : us.foldl (fun r u => u r) a = a := by
  induction us with
  | nil => rfl
  | cons u more ih =>
      rw [List.forall_mem_cons] at h
      rw [List.foldl_cons, h.1, ih h.2]

-- What is as in the default adds nothing to it.
theorem Fills.foldl_of_subset {dropped : List (String × Value)}
    (h : layout.Fills levels (.object defaults) a)
    (hdropped : ∀ member ∈ dropped, member ∈ defaults)
    (hrestores : List.Forall₂ (layout.Restores levels) dropped us) :
    us.foldl (fun r u => u r) a = a := by
  obtain ⟨hdefaults, -, -, -, hholds, -⟩ := h
  refine foldl_eq_self fun u hu => ?_
  obtain ⟨member, hm, hread⟩ := exists_of_mem_forall₂ hrestores hu
  obtain ⟨v, hv, hread'⟩ := exists_of_mem_forall₂ hdefaults.flip (hdropped member hm)
  rw [hread.unique hread']
  exact hholds v hv

theorem missing?_eq_none_of_optional (h : ∀ field ∈ layout.fields, field.optional = true)
    (names : List String) : layout.missing? names = none := by
  refine missing?_eq_none_iff.mpr fun field hm hneeded => ?_
  rw [h field hm] at hneeded
  cases hneeded

-- Nothing is missed where all fields have a default.
theorem Fills.reads_edited {forms : String × Value → Value → Prop} {v default : Value}
    (expected : String) (h : layout.Fills levels v a)
    (hdefault : layout.Fills levels default layout.blank)
    (hoptional : ∀ field ∈ layout.fields, field.optional = true)
    (hforms : ∀ member u, layout.Restores levels member u → layout.Carries forms member u) :
    (layout.decodeAs expected).Reads (Edited layout forms default v) a := by
  rintro o _ ⟨keep, hdropped, haligned, hextra, horder⟩ ho
  rename_i members own extra members'
  obtain ⟨hrestores, hnodup, -, hcommute, -, hfill⟩ := h
  have hmembers : (members.filter (fun member => !keep member) ++ members.filter keep).Perm
      members :=
    List.perm_append_comm.trans (List.filter_append_perm keep members)
  obtain ⟨us, hall, hperm⟩ := List.perm_comp_forall₂ hmembers hrestores
  obtain ⟨first, last, hfirst, hlast, rfl⟩ := exists_append_of_forall₂ hall
  have hblank : first.foldl (fun r u => u r) layout.blank = layout.blank := by
    refine hdefault.foldl_of_subset (fun member hm => ?_) hfirst
    obtain ⟨hm, hkeep⟩ := List.mem_filter.mp hm
    exact hdropped member hm (by simpa using hkeep)
  have htakes := takes_of_aligned haligned (hlast.imp hforms) fun member hm =>
    ho.member (horder.subset (List.mem_append_left _ hm))
  have hnames : (own.map Prod.fst).Nodup := by
    rw [map_fst_of_aligned haligned]
    exact hnodup.sublist (List.filter_sublist.map _)
  have hlastCommute : Commuting last :=
    (hcommute.perm hperm.symm).sublist (List.sublist_append_right first last)
  rw [decodeAs_eq_foldl expected htakes (fun member hm => (hextra member hm).1) horder.symm hnames
    (missing?_eq_none_of_optional hoptional _) hlastCommute]
  rw [← hfill, hcommute.foldl_eq_of_perm hperm.symm, List.foldl_append, hblank]

end Layout

end Conformance.Json
