import Conformance.Files.Tree
import Mathlib.Tactic.SplitIfs

namespace Conformance

namespace Path

-- A text that is one piece of a path.
def IsPiece (name : String) : Prop :=
  name ≠ "" ∧ '/' ∉ name.toList

-- A piece that leads one level down.
def IsOrdinary (name : String) : Prop :=
  IsPiece name ∧ name ≠ "." ∧ name ≠ ".."

instance (name : String) : Decidable (IsPiece name) :=
  inferInstanceAs (Decidable (_ ∧ _))

instance (name : String) : Decidable (IsOrdinary name) :=
  inferInstanceAs (Decidable (_ ∧ _))

theorem splitSlashes_ne_nil (cs : List Char) : splitSlashes cs ≠ [] := by
  cases cs with
  | nil => simp [splitSlashes]
  | cons c rest =>
      simp only [splitSlashes]
      split_ifs
      · simp
      · split <;> simp

theorem splitSlashes_append_slash (xs ys : List Char) :
    splitSlashes (xs ++ '/' :: ys) = splitSlashes xs ++ splitSlashes ys := by
  induction xs with
  | nil => simp [splitSlashes]
  | cons c rest ih =>
      simp only [List.cons_append, splitSlashes, ih]
      split_ifs with hc
      · rfl
      · cases h : splitSlashes rest with
        | nil => exact absurd h (splitSlashes_ne_nil rest)
        | cons piece more => rfl

theorem splitSlashes_of_notMem {cs : List Char} (h : '/' ∉ cs) : splitSlashes cs = [cs] := by
  induction cs with
  | nil => rfl
  | cons c rest ih =>
      simp only [List.mem_cons, not_or] at h
      simp [splitSlashes, ih h.2, Ne.symm h.1]

theorem notMem_of_mem_splitSlashes {cs piece : List Char} (h : piece ∈ splitSlashes cs) :
    '/' ∉ piece := by
  induction cs generalizing piece with
  | nil =>
      simp only [splitSlashes, List.mem_singleton] at h
      simp [h]
  | cons c rest ih =>
      simp only [splitSlashes] at h
      split_ifs at h with hc
      · rcases List.mem_cons.mp h with rfl | h
        · simp
        · exact ih h
      · cases hs : splitSlashes rest with
        | nil => exact absurd hs (splitSlashes_ne_nil rest)
        | cons first more =>
            rw [hs] at h
            rcases List.mem_cons.mp h with rfl | h
            · have hfirst : '/' ∉ first := ih (hs ▸ List.mem_cons_self)
              simp [hfirst, Ne.symm hc]
            · exact ih (hs ▸ List.mem_cons_of_mem _ h)

theorem componentOf_eq_none_iff {piece : List Char} :
    componentOf piece = none ↔ piece = [] ∨ piece = ['.'] := by
  unfold componentOf
  split_ifs with hskipped hup
  · exact iff_of_true rfl hskipped
  · exact iff_of_false nofun hskipped
  · exact iff_of_false nofun hskipped

theorem componentOf_eq_normal_iff {piece : List Char} {name : String} :
    componentOf piece = some (.normal name) ↔
      String.ofList piece = name ∧ piece ≠ [] ∧ piece ≠ ['.'] ∧ piece ≠ ['.', '.'] := by
  unfold componentOf
  split_ifs with hskipped hup
  · exact iff_of_false nofun fun h => hskipped.elim h.2.1 h.2.2.1
  · exact iff_of_false nofun fun h => h.2.2.2 hup
  · simp [not_or.mp hskipped, hup]

-- A piece that is a name leads one level down.
theorem isOrdinary_of_componentOf {piece : List Char} {name : String} (hslash : '/' ∉ piece)
    (h : componentOf piece = some (.normal name)) : IsOrdinary name := by
  obtain ⟨rfl, hnil, hone, htwo⟩ := componentOf_eq_normal_iff.mp h
  simp only [IsOrdinary, IsPiece, ← String.toList_inj, String.toList_ofList, ne_eq]
  exact ⟨⟨hnil, hslash⟩, hone, htwo⟩

theorem componentOf_of_isOrdinary {name : String} (h : IsOrdinary name) :
    componentOf name.toList = some (.normal name) := by
  refine componentOf_eq_normal_iff.mpr ⟨String.ofList_toList, ?_, ?_, ?_⟩
  · exact fun hnil => h.1.1 (String.toList_inj.mp hnil)
  · exact fun hone => h.2.1 (String.toList_inj.mp hone)
  · exact fun htwo => h.2.2 (String.toList_inj.mp htwo)

-- Behind the base, a relative path is what it is by itself.
theorem join_relative (base : Path) {p : Path} (hp : isAbsolute p = false) :
    join base p = if base = "" ∨ endsWithSlash base then base ++ p else base ++ "/" ++ p := by
  simp [join, hp]

theorem isAbsolute_append {base : Path} (hbase : base ≠ "") (p : Path) :
    isAbsolute (base ++ p) = isAbsolute base := by
  cases h : base.toList with
  | nil => exact absurd (String.toList_inj.mp h) hbase
  | cons c rest => simp [isAbsolute, h]

theorem isAbsolute_join (base : Path) {p : Path} (hp : isAbsolute p = false) :
    isAbsolute (join base p) = isAbsolute base := by
  rw [join_relative base hp]
  by_cases hbase : base = ""
  · subst hbase
    simpa [isAbsolute] using hp
  · split_ifs
    · exact isAbsolute_append hbase p
    · rw [String.append_assoc]
      exact isAbsolute_append hbase _

theorem isAbsolute_of_isPiece {name : String} (h : IsPiece name) : isAbsolute name = false := by
  cases hs : name.toList with
  | nil => simp [isAbsolute, hs]
  | cons c rest =>
      have hc : c ≠ '/' := by
        rintro rfl
        exact h.2 (hs ▸ List.mem_cons_self)
      simp [isAbsolute, hs, hc]

theorem isAbsolute_intercalate {names : List String} (h : ∀ name ∈ names, IsPiece name) :
    isAbsolute ("/".intercalate names) = false := by
  cases names with
  | nil => rfl
  | cons first rest =>
      have hfirst : IsPiece first := h first List.mem_cons_self
      by_cases hr : rest = []
      · subst hr
        rw [String.intercalate_singleton]
        exact isAbsolute_of_isPiece hfirst
      · rw [String.intercalate_cons_of_ne_nil hr, String.append_assoc, isAbsolute_append hfirst.1]
        exact isAbsolute_of_isPiece hfirst

theorem endsWithSlash_append (base : Path) {p : Path} (hp : p ≠ "") :
    endsWithSlash (base ++ p) = endsWithSlash p := by
  simp [endsWithSlash, List.getLast?_append, hp]

theorem endsWithSlash_of_isPiece {name : String} (h : IsPiece name) :
    endsWithSlash name = false := by
  refine decide_eq_false fun hlast => h.2 ?_
  exact List.mem_of_getLast? hlast

theorem intercalate_ne_empty {names : List String} (hne : names ≠ [])
    (h : ∀ name ∈ names, IsPiece name) : "/".intercalate names ≠ "" := by
  cases names with
  | nil => exact absurd rfl hne
  | cons first rest =>
      have hfirst := (h first List.mem_cons_self).1
      by_cases hr : rest = []
      · rwa [hr, String.intercalate_singleton]
      · rw [String.intercalate_cons_of_ne_nil hr]
        simp [hfirst]

theorem endsWithSlash_intercalate {names : List String} (hne : names ≠ [])
    (h : ∀ name ∈ names, IsPiece name) : endsWithSlash ("/".intercalate names) = false := by
  induction names with
  | nil => exact absurd rfl hne
  | cons first rest ih =>
      have hrest : ∀ name ∈ rest, IsPiece name := fun name hn => h name (List.mem_cons_of_mem _ hn)
      by_cases hr : rest = []
      · rw [hr, String.intercalate_singleton]
        exact endsWithSlash_of_isPiece (h first List.mem_cons_self)
      · rw [String.intercalate_cons_of_ne_nil hr,
          endsWithSlash_append _ (intercalate_ne_empty hr hrest)]
        exact ih hr hrest

-- A path that ends in pieces ends without a slash, whatever it starts from.
theorem endsWithSlash_join (base : Path) {names : List String} (hne : names ≠ [])
    (h : ∀ name ∈ names, IsPiece name) :
    endsWithSlash (join base ("/".intercalate names)) = false := by
  rw [join_relative base (isAbsolute_intercalate h)]
  split_ifs
  · rw [endsWithSlash_append _ (intercalate_ne_empty hne h)]
    exact endsWithSlash_intercalate hne h
  · rw [endsWithSlash_append _ (intercalate_ne_empty hne h)]
    exact endsWithSlash_intercalate hne h

-- Pieces may be joined one after the other or all at once.
theorem join_join (base : Path) {first : String} {rest : List String} (hne : rest ≠ [])
    (hfirst : IsPiece first) (hrest : ∀ name ∈ rest, IsPiece name) :
    join (join base first) ("/".intercalate rest) =
      join base ("/".intercalate (first :: rest)) := by
  have hall : ∀ name ∈ first :: rest, IsPiece name := by
    simpa using And.intro hfirst hrest
  have hend := endsWithSlash_join base (List.cons_ne_nil first [])
    fun name hn => hall name (List.mem_cons.mpr (.inl (List.mem_singleton.mp hn)))
  rw [String.intercalate_singleton] at hend
  have hfull : join base first ≠ "" := by
    rw [join_relative base (isAbsolute_of_isPiece hfirst)]
    split_ifs <;> simp [hfirst.1]
  rw [join_relative (join base first) (isAbsolute_intercalate hrest),
    if_neg (by simp [hend, hfull]), join_relative base (isAbsolute_of_isPiece hfirst),
    join_relative base (isAbsolute_intercalate hall), String.intercalate_cons_of_ne_nil hne]
  split_ifs <;> simp [String.append_assoc]

theorem foldl_join_normal {acc : Path} (hacc : acc ≠ "") (hslash : endsWithSlash acc = false)
    {names : List String} (h : ∀ name ∈ names, IsPiece name) :
    names.foldl join acc = "/".intercalate (acc :: names) := by
  induction names generalizing acc with
  | nil => rw [List.foldl_nil, String.intercalate_singleton]
  | cons first rest ih =>
      have hfirst := h first List.mem_cons_self
      have hjoin : join acc first = acc ++ "/" ++ first := by
        rw [join_relative acc (isAbsolute_of_isPiece hfirst), if_neg (by simp [hacc, hslash])]
      have hend : endsWithSlash (acc ++ "/" ++ first) = false := by
        rw [endsWithSlash_append _ hfirst.1, endsWithSlash_of_isPiece hfirst]
      rw [List.foldl_cons, hjoin,
        ih (by simp [hacc]) hend fun name hn => h name (List.mem_cons_of_mem _ hn),
        String.intercalate_cons_of_ne_nil (List.cons_ne_nil first rest)]
      by_cases hr : rest = []
      · rw [hr, String.intercalate_singleton, String.intercalate_singleton]
      · rw [String.intercalate_cons_of_ne_nil hr, String.intercalate_cons_of_ne_nil hr]
        simp [String.append_assoc]

-- The path made of pieces is their texts with a slash between each two.
theorem ofComponents_normal {names : List String} (h : ∀ name ∈ names, IsPiece name) :
    ofComponents (names.map Component.normal) = "/".intercalate names := by
  cases names with
  | nil => rfl
  | cons first rest =>
      have hfirst := h first List.mem_cons_self
      have hjoin : join "" first = first := by
        rw [join_relative "" (isAbsolute_of_isPiece hfirst), if_pos (.inl rfl), String.empty_append]
      rw [ofComponents, List.foldl_map, List.foldl_cons]
      change (rest.foldl join (join "" first)) = _
      rw [hjoin]
      exact foldl_join_normal hfirst.1 (endsWithSlash_of_isPiece hfirst)
        fun name hn => h name (List.mem_cons_of_mem _ hn)

end Path

namespace Tree

open Conformance.Path

theorem names_append_slash (base p : Path) : names (base ++ "/" ++ p) = names base ++ names p := by
  have hsplit : (base ++ "/" ++ p).toList = base.toList ++ '/' :: p.toList := by simp
  simp only [names, hsplit, splitSlashes_append_slash, List.filter_append, List.map_append]

theorem names_empty : names "" = [] := by
  simp [names, splitSlashes]

theorem names_of_isPiece {name : String} (h : IsPiece name) : names name = [name] := by
  have hne : name.toList ≠ [] := fun hs => h.1 (String.toList_inj.mp hs)
  simp [names, splitSlashes_of_notMem h.2, hne]

theorem names_join (base : Path) {p : Path} (hp : isAbsolute p = false) :
    names (join base p) = names base ++ names p := by
  rw [join_relative base hp]
  split_ifs with hbase
  · rcases hbase with rfl | hslash
    · rw [names_empty, String.empty_append, List.nil_append]
    · -- the slash at the end of the base is the one between the two
      obtain ⟨before, hbefore⟩ := List.getLast?_eq_some_iff.mp (of_decide_eq_true hslash)
      have hbase : base = String.ofList before ++ "/" ++ "" := by
        rw [← String.toList_inj, hbefore]
        simp
      have hjoined : base ++ p = String.ofList before ++ "/" ++ p := by
        rw [← String.toList_inj, String.toList_append, hbefore]
        simp
      rw [hjoined, names_append_slash, hbase, names_append_slash, names_empty, List.append_nil]
  · exact names_append_slash base p

theorem names_intercalate {parts : List String} (h : ∀ name ∈ parts, IsPiece name) :
    names ("/".intercalate parts) = parts := by
  induction parts with
  | nil => exact names_empty
  | cons first rest ih =>
      have hfirst := names_of_isPiece (h first List.mem_cons_self)
      by_cases hr : rest = []
      · rw [hr, String.intercalate_singleton, hfirst]
      · rw [String.intercalate_cons_of_ne_nil hr, names_append_slash, hfirst,
          ih fun name hn => h name (List.mem_cons_of_mem _ hn), List.singleton_append]

end Tree

end Conformance
