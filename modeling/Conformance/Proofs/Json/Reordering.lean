import Conformance.Proofs.Json.RoundTrip
import Mathlib.Data.List.Forall2

namespace Conformance.Json

theorem exists_of_mem_forall₂ {α β : Type} {R : α → β → Prop} {as : List α} {bs : List β}
    (h : List.Forall₂ R as bs) {b : β} (hb : b ∈ bs) : ∃ a ∈ as, R a b := by
  induction h with
  | nil => cases hb
  | cons hfirst _ ih =>
      rcases List.mem_cons.mp hb with rfl | hb
      · exact ⟨_, List.mem_cons_self, hfirst⟩
      · obtain ⟨a, ha, hab⟩ := ih hb
        exact ⟨a, List.mem_cons_of_mem _ ha, hab⟩

theorem exists_append_of_forall₂ {α β : Type} {R : α → β → Prop} {first last : List α}
    {bs : List β} (h : List.Forall₂ R (first ++ last) bs) :
    ∃ bs₁ bs₂, List.Forall₂ R first bs₁ ∧ List.Forall₂ R last bs₂ ∧ bs = bs₁ ++ bs₂ :=
  ⟨_, _, (List.forall₂_take_append bs first last h.flip).flip,
    (List.forall₂_drop_append bs first last h.flip).flip, (List.take_append_drop _ bs).symm⟩

-- The same value with the members of its objects in other orders.
inductive Reordered : Value → Value → Prop where
  | null : Reordered .null .null
  | bool (b : Bool) : Reordered (.bool b) (.bool b)
  | number (n : Number) : Reordered (.number n) (.number n)
  | string (s : String) : Reordered (.string s) (.string s)
  | array {items items' : List Value} (h : List.Forall₂ Reordered items items') :
      Reordered (.array items) (.array items')
  | object {members own members' : List (String × Value)}
      (hnames : members.map Prod.fst = own.map Prod.fst)
      (hvalues : List.Forall₂ Reordered (members.map Prod.snd) (own.map Prod.snd))
      (horder : own.Perm members') : Reordered (.object members) (.object members')

-- Members of the same names, each with one of the values that may stand for it.
def Aligned (forms : String × Value → Value → Prop) :
    List (String × Value) → List (String × Value) → Prop :=
  List.Forall₂ fun member own => own.1 = member.1 ∧ forms member own.2

theorem map_fst_of_aligned {forms : String × Value → Value → Prop}
    {members own : List (String × Value)} (h : Aligned forms members own) :
    own.map Prod.fst = members.map Prod.fst := by
  induction h with
  | nil => rfl
  | cons hfirst _ ih => rw [List.map_cons, List.map_cons, hfirst.1, ih]

theorem aligned_iff {R : Value → Value → Prop} {members own : List (String × Value)} :
    Aligned (fun member => R member.2) members own ↔
      members.map Prod.fst = own.map Prod.fst ∧
        List.Forall₂ R (members.map Prod.snd) (own.map Prod.snd) := by
  induction members generalizing own with
  | nil => cases own <;> simp [Aligned]
  | cons member more ih =>
      cases own with
      | nil => simp [Aligned]
      | cons first own =>
          have hmore : Aligned (fun member => R member.2) (member :: more) (first :: own) ↔
              (first.1 = member.1 ∧ R member.2 first.2) ∧
                Aligned (fun member => R member.2) more own :=
            List.forall₂_cons
          rw [hmore, ih, eq_comm]
          simp only [List.map_cons, List.forall₂_cons, List.cons.injEq]
          exact and_and_and_comm

theorem reordered_object_iff {members : List (String × Value)} {v : Value} :
    Reordered (.object members) v ↔
      ∃ own members', v = .object members' ∧
        Aligned (fun member => Reordered member.2) members own ∧ own.Perm members' := by
  constructor
  · intro h
    cases h with
    | object hnames hvalues horder =>
        exact ⟨_, _, rfl, aligned_iff.mpr ⟨hnames, hvalues⟩, horder⟩
  · rintro ⟨own, members', rfl, haligned, horder⟩
    obtain ⟨hnames, hvalues⟩ := aligned_iff.mp haligned
    exact .object hnames hvalues horder

-- Nothing that could be lost depends on the order of members.
theorem Reordered.isExact {v v' : Value} {levels : Nat} (h : Reordered v v')
    (hexact : v.IsExact levels) : v'.IsExact levels := by
  induction hexact generalizing v' with
  | null =>
      cases h
      exact .null
  | bool b =>
      cases h
      exact .bool b
  | number hn =>
      cases h
      exact .number hn
  | string s =>
      cases h
      exact .string s
  | array _ ih =>
      cases h with
      | array hitems =>
          refine .array fun w hw => ?_
          obtain ⟨v, hv, hvw⟩ := exists_of_mem_forall₂ hitems hw
          exact ih v hv hvw
  | object _ ih =>
      obtain ⟨own, members', rfl, haligned, horder⟩ := reordered_object_iff.mp h
      refine .object fun member hm => ?_
      obtain ⟨member', hm', -, hvalue⟩ := exists_of_mem_forall₂ haligned (horder.symm.subset hm)
      exact ih member' hm' hvalue

theorem reordered_refl {v : Value} {levels : Nat} (hexact : v.IsExact levels) : Reordered v v := by
  induction hexact with
  | null => exact .null
  | bool b => exact .bool b
  | number _ => exact .number _
  | string s => exact .string s
  | array _ ih => exact .array (List.forall₂_same.mpr ih)
  | object _ ih =>
      exact reordered_object_iff.mpr
        ⟨_, _, rfl, List.forall₂_same.mpr fun member hm => ⟨rfl, ih member hm⟩, .refl _⟩

mutual

-- The value with the members of all its objects from the last to the first.
def Value.mirrored : Value → Value
  | .array items => .array (mirroredItems items)
  | .object members => .object (mirroredMembers members).reverse
  | v => v

def mirroredItems : List Value → List Value
  | [] => []
  | v :: rest => v.mirrored :: mirroredItems rest

def mirroredMembers : List (String × Value) → List (String × Value)
  | [] => []
  | (name, v) :: rest => (name, v.mirrored) :: mirroredMembers rest

end

mutual

theorem reordered_mirrored : (v : Value) → Reordered v v.mirrored
  | .null => .null
  | .bool b => .bool b
  | .number n => .number n
  | .string s => .string s
  | .array items => .array (reordered_mirroredItems items)
  | .object members =>
      reordered_object_iff.mpr
        ⟨_, _, rfl, aligned_mirroredMembers members, (List.reverse_perm _).symm⟩

theorem reordered_mirroredItems : (items : List Value) →
    List.Forall₂ Reordered items (mirroredItems items)
  | [] => .nil
  | v :: rest => .cons (reordered_mirrored v) (reordered_mirroredItems rest)

theorem aligned_mirroredMembers : (members : List (String × Value)) →
    Aligned (fun member => Reordered member.2) members (mirroredMembers members)
  | [] => .nil
  | (_, v) :: rest => .cons ⟨rfl, reordered_mirrored v⟩ (aligned_mirroredMembers rest)

end

end Conformance.Json
