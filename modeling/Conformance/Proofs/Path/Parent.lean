import Conformance.Proofs.Path.Names

namespace Conformance

-- The same names, without some of the single dots among them.
inductive Undots : List String → List String → Prop
  | nil : Undots [] []
  | keep (name : String) {xs ys : List String} (h : Undots xs ys) :
      Undots (name :: xs) (name :: ys)
  | drop {xs ys : List String} (h : Undots xs ys) : Undots ("." :: xs) ys

namespace Undots

theorem append_left (zs : List String) {xs ys : List String} (h : Undots xs ys) :
    Undots (zs ++ xs) (zs ++ ys) := by
  induction zs with
  | nil => exact h
  | cons z zs ih => exact .keep z ih

theorem filter (xs : List String) : Undots xs (xs.filter (· ≠ ".")) := by
  induction xs with
  | nil => exact .nil
  | cons x xs ih =>
      by_cases hx : x = "."
      · subst hx
        exact .drop ih
      · rw [List.filter_cons_of_pos (by simpa using hx)]
        exact .keep x ih

end Undots

namespace Path

section Components

variable {p : Path}

-- The parts of a path that are more than a slash at its beginning.
def innerParts (p : Path) : List Component :=
  (splitSlashes p.toList).filterMap componentOf

theorem components_eq (p : Path) :
    components p = if isAbsolute p then .root :: innerParts p
      else if (splitSlashes p.toList).head? = some ['.'] then .here :: innerParts p
      else innerParts p :=
  rfl

theorem map_text_innerParts (p : Path) :
    (innerParts p).map Component.text = (Tree.names p).filter (· ≠ ".") := by
  unfold innerParts Tree.names
  induction splitSlashes p.toList with
  | nil => rfl
  | cons piece rest ih =>
      have hdot : String.ofList piece = "." ↔ piece = ['.'] := by
        rw [← String.toList_inj, String.toList_ofList]
        rfl
      rw [List.filterMap_cons, componentOf]
      by_cases hempty : piece = []
      · simpa [hempty] using ih
      · by_cases hone : piece = ['.']
        · simpa [hone] using ih
        · rw [if_neg (by simp [hempty, hone]), List.filter_cons_of_pos (by simpa using hempty),
            List.map_cons, List.filter_cons_of_pos (by simpa [hdot] using hone), ← ih]
          split_ifs with htwo
          · rw [htwo]
            rfl
          · rfl

theorem isPiece_of_mem_innerParts {part : Component} (h : part ∈ innerParts p) :
    IsPiece part.text := by
  have htext : part.text ∈ Tree.names p :=
    (List.mem_filter.mp (map_text_innerParts p ▸ List.mem_map_of_mem h)).1
  obtain ⟨piece, hpiece, hname⟩ := List.mem_map.mp htext
  obtain ⟨hmem, hne⟩ := List.mem_filter.mp hpiece
  rw [← hname]
  refine ⟨?_, ?_⟩
  · rw [Ne, ← String.toList_inj, String.toList_ofList]
    simpa using hne
  · rw [String.toList_ofList]
    exact notMem_of_mem_splitSlashes hmem

end Components

section Parts

variable {parts : List Component}

theorem names_foldl_join (base : Path) (h : ∀ part ∈ parts, IsPiece part.text) :
    Tree.names (parts.foldl (fun p part => join p part.text) base) =
      Tree.names base ++ parts.map Component.text := by
  induction parts generalizing base with
  | nil => simp
  | cons part rest ih =>
      have hpart := h part List.mem_cons_self
      rw [List.foldl_cons, ih _ fun part' hp => h part' (List.mem_cons_of_mem part hp),
        Tree.names_join base (isAbsolute_of_isPiece hpart), Tree.names_of_isPiece hpart,
        List.map_cons, List.append_assoc, List.singleton_append]

theorem isAbsolute_foldl_join (base : Path) (h : ∀ part ∈ parts, IsPiece part.text) :
    isAbsolute (parts.foldl (fun p part => join p part.text) base) = isAbsolute base := by
  induction parts generalizing base with
  | nil => rfl
  | cons part rest ih =>
      rw [List.foldl_cons, ih _ fun part' hp => h part' (List.mem_cons_of_mem part hp),
        isAbsolute_join base (isAbsolute_of_isPiece (h part List.mem_cons_self))]

end Parts

-- What stands before the inner parts of a path, if anything does, tells whether it is
-- absolute, and is a dot at most.
theorem exists_lead (p : Path) :
    ∃ lead, components p = lead ++ innerParts p ∧ lead.length ≤ 1 ∧
      isAbsolute (ofComponents lead) = isAbsolute p ∧
      Undots (Tree.names p)
        (Tree.names (ofComponents lead) ++ (innerParts p).map Component.text) := by
  rw [map_text_innerParts, components_eq]
  split_ifs with habsolute hdot
  · refine ⟨[.root], rfl, Nat.le_refl 1, ?_, ?_⟩
    · rw [habsolute]
      decide
    · exact Undots.filter _
  · refine ⟨[.here], rfl, Nat.le_refl 1, ?_, ?_⟩
    · rw [Bool.eq_false_iff.mpr habsolute]
      decide
    · -- the dot at the beginning of the path is the one that is kept
      obtain ⟨more, hmore⟩ := List.head?_eq_some_iff.mp hdot
      have hnames : Tree.names p =
          "." :: (more.filter fun piece => piece ≠ []).map String.ofList := by
        rw [Tree.names, hmore]
        rfl
      rw [hnames]
      exact .keep "." (Undots.filter _)
  · refine ⟨[], rfl, Nat.zero_le 1, ?_, Undots.filter _⟩
    rw [Bool.eq_false_iff.mpr habsolute]
    decide

theorem exists_last_of_parent? {p parent : Path} (h : parent? p = some parent) :
    ∃ init last, components p = init ++ [last] ∧ parent = ofComponents init := by
  unfold parent? at h
  split at h
  · cases h
  · cases h
  · rename_i last rest _ hreverse
    refine ⟨rest.reverse, last, ?_, (Option.some.inj h).symm⟩
    rw [← List.reverse_reverse (components p), hreverse, List.reverse_cons]

-- A path has the names of its parent and one more, but for single dots.
theorem exists_undots_of_parent? {p parent : Path} (h : parent? p = some parent)
    (hne : parent ≠ "") :
    isAbsolute parent = isAbsolute p ∧
      ∃ last, Undots (Tree.names p) (Tree.names parent ++ [last]) := by
  obtain ⟨init, last, hcomponents, rfl⟩ := exists_last_of_parent? h
  obtain ⟨lead, hlead, hlength, habsolute, hundots⟩ := exists_lead p
  rw [hcomponents] at hlead
  rcases List.eq_nil_or_concat (innerParts p) with hnone | ⟨inner, last', hinner⟩
  · -- a single part has the empty path for its parent
    rw [hnone, List.append_nil] at hlead
    rw [← hlead, List.length_append, List.length_singleton] at hlength
    obtain rfl : init = [] := List.length_eq_zero_iff.mp (by omega)
    exact absurd rfl hne
  · rw [hinner, List.concat_eq_append, ← List.append_assoc] at hlead
    obtain ⟨rfl, -⟩ := List.append_inj' hlead rfl
    have hpieces : ∀ part ∈ inner, IsPiece part.text := by
      intro part hpart
      refine isPiece_of_mem_innerParts (p := p) ?_
      rw [hinner, List.concat_eq_append]
      exact List.mem_append_left _ hpart
    rw [ofComponents, List.foldl_append]
    rw [hinner, List.concat_eq_append, List.map_append, ← List.append_assoc] at hundots
    refine ⟨(isAbsolute_foldl_join _ hpieces).trans habsolute, last'.text, ?_⟩
    rw [names_foldl_join _ hpieces]
    exact hundots

end Path

end Conformance
