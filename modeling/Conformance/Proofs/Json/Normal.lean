import Conformance.Json.Document
import Mathlib.Tactic.SplitIfs

namespace Conformance.Json

-- Members by name, no name twice.
def Ordered (members : List (String × α)) : Prop :=
  members.Pairwise fun a b => a.1 < b.1

theorem mem_put {name : String} {value : α} {member : String × α} {members : List (String × α)}
    (h : member ∈ put name value members) : member = (name, value) ∨ member ∈ members := by
  induction members with
  | nil => simpa [put] using h
  | cons head rest ih =>
      obtain ⟨other, v⟩ := head
      simp only [put] at h
      split_ifs at h with he hlt
      · rcases List.mem_cons.mp h with h | h
        · exact .inl h
        · exact .inr (List.mem_cons_of_mem _ h)
      · rcases List.mem_cons.mp h with h | h
        · exact .inl h
        · exact .inr h
      · rcases List.mem_cons.mp h with h | h
        · exact .inr (h ▸ List.mem_cons_self)
        · exact (ih h).imp_right (List.mem_cons_of_mem _)

theorem put_ordered (name : String) (value : α) {members : List (String × α)}
    (h : Ordered members) : Ordered (put name value members) := by
  induction members with
  | nil => exact List.pairwise_singleton _ _
  | cons head rest ih =>
      obtain ⟨other, v⟩ := head
      obtain ⟨hhead, hrest⟩ := List.pairwise_cons.mp h
      simp only [put]
      split_ifs with he hlt
      · subst he
        exact List.pairwise_cons.mpr ⟨hhead, hrest⟩
      · refine List.pairwise_cons.mpr ⟨?_, h⟩
        intro member hm
        rcases List.mem_cons.mp hm with rfl | hm
        · exact hlt
        · exact String.lt_trans hlt (hhead member hm)
      · refine List.pairwise_cons.mpr ⟨?_, ih hrest⟩
        intro member hm
        rcases mem_put hm with rfl | hm
        · exact Decidable.byContradiction fun h =>
            he (String.le_antisymm (String.not_lt.mp h) (String.not_lt.mp hlt))
        · exact hhead member hm

theorem sorted_ordered (members : List (String × α)) : Ordered (sorted members) := by
  have hfold : ∀ acc : List (String × α), Ordered acc →
      Ordered (members.foldl (fun acc member => put member.1 member.2 acc) acc) := by
    induction members with
    | nil => exact fun acc h => h
    | cons head rest ih => exact fun acc h => ih _ (put_ordered _ _ h)
  exact hfold [] List.Pairwise.nil

-- A name behind all others goes to the end.
theorem put_eq_append {name : String} {value : α} {members : List (String × α)}
    (h : ∀ member ∈ members, member.1 < name) :
    put name value members = members ++ [(name, value)] := by
  induction members with
  | nil => rfl
  | cons head rest ih =>
      obtain ⟨other, v⟩ := head
      have hother : other < name := h (other, v) List.mem_cons_self
      have hne : name ≠ other := by
        rintro rfl
        exact String.lt_irrefl _ hother
      simp only [put, if_neg hne, if_neg (String.lt_asymm hother), List.cons_append]
      rw [ih fun member hm => h member (List.mem_cons_of_mem _ hm)]

theorem sorted_eq_self {members : List (String × α)} (h : Ordered members) :
    sorted members = members := by
  have hfold : ∀ acc : List (String × α), Ordered (acc ++ members) →
      members.foldl (fun acc member => put member.1 member.2 acc) acc = acc ++ members := by
    clear h
    induction members with
    | nil => simp
    | cons head rest ih =>
        intro acc hacc
        have hbefore : ∀ member ∈ acc, member.1 < head.1 := by
          intro member hm
          exact (List.pairwise_append.mp hacc).2.2 member hm head List.mem_cons_self
        rw [List.foldl_cons, put_eq_append hbefore, ih]
        · simp
        · simpa using hacc
  exact hfold [] h

theorem find?_put (name other : String) (value : α) (members : List (String × α)) :
    (put name value members).find? (fun member => member.1 = other) =
      if name = other then some (name, value)
      else members.find? fun member => member.1 = other := by
  induction members with
  | nil => by_cases h : name = other <;> simp [put, h]
  | cons head rest ih =>
      obtain ⟨first, v⟩ := head
      simp only [put]
      by_cases hname : name = other
      · subst hname
        rw [if_pos rfl] at ih ⊢
        split_ifs with hfirst hlt
        · simp
        · simp
        · simp [Ne.symm hfirst, ih]
      · split_ifs with hfirst hlt
        · simp [← hfirst, hname]
        · simp [hname]
        · simp [List.find?_cons, ih, hname]

-- A name that stands once keeps its value.
theorem find?_sorted {members : List (String × α)} (h : (members.map Prod.fst).Nodup)
    (name : String) : (sorted members).find? (fun member => member.1 = name) =
      members.find? fun member => member.1 = name := by
  have hfold : ∀ acc : List (String × α),
      (members.foldl (fun acc member => put member.1 member.2 acc) acc).find?
          (fun member => member.1 = name) =
        (members.find? fun member => member.1 = name).or
          (acc.find? fun member => member.1 = name) := by
    induction members with
    | nil => exact fun acc => rfl
    | cons head rest ih =>
        intro acc
        rw [List.map_cons, List.nodup_cons] at h
        rw [List.foldl_cons, ih h.2, find?_put, List.find?_cons]
        by_cases hname : head.1 = name
        · have hnone : rest.find? (fun member => member.1 = name) = none := by
            rw [List.find?_eq_none]
            intro member hm heq
            apply h.1
            rw [hname, ← of_decide_eq_true heq]
            exact List.mem_map_of_mem hm
          simp only [hname, hnone, if_true, decide_true, Option.none_or, Option.some_or]
          rw [← hname]
        · simp [hname]
  rw [sorted, hfold, List.find?_nil, Option.or_none]

theorem put_perm {name : String} {members : List (String × α)} (value : α)
    (h : name ∉ members.map Prod.fst) :
    (put name value members).Perm ((name, value) :: members) := by
  induction members with
  | nil => exact .refl _
  | cons head rest ih =>
      obtain ⟨other, v⟩ := head
      rw [List.map_cons, List.mem_cons, not_or] at h
      simp only [put, if_neg h.1]
      split_ifs with hlt
      · exact .refl _
      · exact ((ih h.2).cons _).trans (.swap _ _ _)

-- Members with a name each are put in order and kept as they are.
theorem sorted_perm {members : List (String × α)} (h : (members.map Prod.fst).Nodup) :
    (sorted members).Perm members := by
  have hfold : ∀ acc : List (String × α), ((acc ++ members).map Prod.fst).Nodup →
      (members.foldl (fun acc member => put member.1 member.2 acc) acc).Perm
        (acc ++ members) := by
    clear h
    induction members with
    | nil => simp
    | cons head rest ih =>
        intro acc hacc
        have hmoved : (head :: acc ++ rest).Perm (acc ++ head :: rest) :=
          List.perm_middle.symm
        have hfresh : head.1 ∉ acc.map Prod.fst := by
          rw [← (hmoved.map Prod.fst).nodup_iff, List.cons_append, List.map_cons,
            List.nodup_cons, List.map_append, List.mem_append, not_or] at hacc
          exact hacc.1.1
        have hput := (put_perm head.2 hfresh).append_right rest
        have hboth := hput.trans hmoved
        rw [← (hboth.map Prod.fst).nodup_iff] at hacc
        exact (ih _ hacc).trans hboth
  exact hfold [] h

theorem put_map (f : α → β) (name : String) (value : α) (members : List (String × α)) :
    put name (f value) (members.map fun member => (member.1, f member.2)) =
      (put name value members).map fun member => (member.1, f member.2) := by
  induction members with
  | nil => rfl
  | cons head rest ih =>
      simp only [List.map_cons, put, ih]
      split_ifs <;> rfl

theorem sorted_map (f : α → β) (members : List (String × α)) :
    sorted (members.map fun member => (member.1, f member.2)) =
      (sorted members).map fun member => (member.1, f member.2) := by
  have hfold : ∀ acc : List (String × α),
      (members.map fun member => (member.1, f member.2)).foldl
          (fun acc member => put member.1 member.2 acc)
          (acc.map fun member => (member.1, f member.2)) =
        (members.foldl (fun acc member => put member.1 member.2 acc) acc).map
          fun member => (member.1, f member.2) := by
    induction members with
    | nil => exact fun acc => rfl
    | cons head rest ih =>
        intro acc
        simp only [List.map_cons, List.foldl_cons, put_map]
        exact ih _
  exact hfold []

theorem normalMembers_eq_map (members : List (String × Value)) :
    normalMembers members = members.map fun member => (member.1, member.2.normal) := by
  induction members with
  | nil => rfl
  | cons head rest ih => rw [normalMembers, ih, List.map_cons]

mutual

theorem normal_normal : (v : Value) → v.normal.normal = v.normal
  | .null | .bool _ | .number _ | .string _ => rfl
  | .array items => by
      simp only [Value.normal]
      rw [normalItems_normalItems items]
  | .object members => by
      have hmap : normalMembers (sorted (normalMembers members)) =
          sorted (normalMembers (normalMembers members)) := by
        rw [normalMembers_eq_map, normalMembers_eq_map (normalMembers members), sorted_map]
      simp only [Value.normal]
      rw [hmap, normalMembers_normalMembers members, sorted_eq_self (sorted_ordered _)]

theorem normalItems_normalItems : (items : List Value) →
    normalItems (normalItems items) = normalItems items
  | [] => rfl
  | v :: rest => by
      simp only [normalItems]
      rw [normal_normal v, normalItems_normalItems rest]

theorem normalMembers_normalMembers : (members : List (String × Value)) →
    normalMembers (normalMembers members) = normalMembers members
  | [] => rfl
  | (name, v) :: rest => by
      simp only [normalMembers]
      rw [normal_normal v, normalMembers_normalMembers rest]

end

-- What is read from a text has its members by name.
theorem normal_of_ofText {s : String} {v : Value} (h : Value.ofText s = .ok v) : v.normal = v := by
  simp only [Value.ofText, bind, Except.bind] at h
  split at h
  · cases h
  · split at h
    · cases h
    · cases h
      exact normal_normal _

end Conformance.Json
