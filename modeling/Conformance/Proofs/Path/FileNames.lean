import Conformance.Proofs.Path.Parent
import Mathlib.Data.List.TakeWhile

namespace Conformance

namespace Path

-- The parts of some characters of a path.
def partsOf (cs : List Char) : List Component :=
  (splitSlashes cs).filterMap componentOf

theorem partsOf_append_slash (xs ys : List Char) :
    partsOf (xs ++ '/' :: ys) = partsOf xs ++ partsOf ys := by
  rw [partsOf, splitSlashes_append_slash, List.filterMap_append]
  rfl

theorem partsOf_of_notMem {cs : List Char} (h : '/' ∉ cs) :
    partsOf cs = (componentOf cs).toList := by
  rw [partsOf, splitSlashes_of_notMem h]
  cases hpart : componentOf cs with
  | none => exact List.filterMap_cons_none hpart
  | some part => exact List.filterMap_cons_some hpart

-- Slashes and single dots at the end of a path are not among its parts.
theorem partsOf_dropEndMarks (back : List Char) :
    partsOf (dropEndMarks back).reverse = partsOf back.reverse := by
  fun_induction dropEndMarks back with
  | case1 rest ih =>
      rw [List.reverse_cons, partsOf_append_slash, ih]
      exact (List.append_nil _).symm
  | case2 rest ih =>
      have hback : ('.' :: '/' :: rest).reverse = rest.reverse ++ '/' :: ['.'] := by simp
      rw [hback, partsOf_append_slash, ih]
      exact (List.append_nil _).symm
  | case3 cs => rfl

theorem dropEndMarks_ne (back more : List Char) :
    dropEndMarks back ≠ '/' :: more ∧ dropEndMarks back ≠ '.' :: '/' :: more := by
  fun_induction dropEndMarks back with
  | case1 rest ih => exact ih
  | case2 rest ih => exact ih
  | case3 cs hslash hdot => exact ⟨hslash more, hdot more⟩

-- What stands behind the last slash of a path, those at its end not counted.
def lastPiece (p : Path) : List Char :=
  ((dropEndMarks p.toList.reverse).takeWhile (· ≠ '/')).reverse

theorem fileName?_eq (p : Path) :
    fileName? p = if lastPiece p = [] ∨ lastPiece p = ['.'] ∨ lastPiece p = ['.', '.'] then none
      else some (String.ofList (lastPiece p)) := by
  rw [fileName?, splitLast, ← lastPiece]
  split_ifs <;> rfl

theorem slash_notMem_lastPiece (p : Path) : '/' ∉ lastPiece p := by
  intro hmem
  simpa using List.mem_takeWhile_imp (List.mem_reverse.mp hmem)

-- Before the last piece there is a slash, or nothing.
theorem dropEndMarks_cases (p : Path) :
    (dropEndMarks p.toList.reverse).reverse = lastPiece p ∨
      ∃ more, dropEndMarks p.toList.reverse = (lastPiece p).reverse ++ '/' :: more := by
  have hbody := List.takeWhile_append_dropWhile (p := (· ≠ '/'))
    (l := dropEndMarks p.toList.reverse)
  cases hrest : (dropEndMarks p.toList.reverse).dropWhile (· ≠ '/') with
  | nil =>
      rw [hrest, List.append_nil] at hbody
      exact .inl (by rw [lastPiece, hbody])
  | cons c more =>
      have hne : (dropEndMarks p.toList.reverse).dropWhile (· ≠ '/') ≠ [] := by
        rw [hrest]
        exact List.cons_ne_nil c more
      have hc := List.head_dropWhile_not (· ≠ '/') hne
      simp only [hrest, List.head_cons, decide_eq_false_iff_not, not_not] at hc
      rw [hrest, hc] at hbody
      exact .inr ⟨more, by rw [lastPiece, List.reverse_reverse, hbody]⟩

-- A slash or a single dot in the last place is an end mark, so what follows a slash there is
-- a part.
theorem componentOf_lastPiece_ne_none {p : Path} {more : List Char}
    (h : dropEndMarks p.toList.reverse = (lastPiece p).reverse ++ '/' :: more) :
    componentOf (lastPiece p) ≠ none := by
  have hends := dropEndMarks_ne p.toList.reverse more
  rw [h] at hends
  rw [Ne, componentOf_eq_none_iff]
  rintro (hnil | hdot)
  · exact hends.1 (by rw [hnil]; rfl)
  · exact hends.2 (by rw [hdot]; rfl)

theorem getLast?_innerParts (p : Path) : (innerParts p).getLast? = componentOf (lastPiece p) := by
  have hparts : innerParts p = partsOf (dropEndMarks p.toList.reverse).reverse := by
    rw [partsOf_dropEndMarks, List.reverse_reverse]
    rfl
  have hlast : partsOf (lastPiece p) = (componentOf (lastPiece p)).toList :=
    partsOf_of_notMem (slash_notMem_lastPiece p)
  rw [hparts]
  rcases dropEndMarks_cases p with honly | ⟨more, hmore⟩
  · rw [honly, hlast]
    cases componentOf (lastPiece p) <;> rfl
  · obtain ⟨part, hpart⟩ := Option.ne_none_iff_exists'.mp (componentOf_lastPiece_ne_none hmore)
    rw [hmore, List.reverse_append, List.reverse_reverse, List.reverse_cons, List.append_assoc,
      List.singleton_append, partsOf_append_slash, hlast, hpart]
    exact List.getLast?_concat

theorem getLast?_components_eq_normal_iff {p : Path} {name : String} :
    (components p).getLast? = some (.normal name) ↔
      (innerParts p).getLast? = some (.normal name) := by
  have hlead : ∀ lead : Component, lead ≠ .normal name →
      ((lead :: innerParts p).getLast? = some (.normal name) ↔
        (innerParts p).getLast? = some (.normal name)) := by
    intro lead hne
    rw [List.getLast?_cons]
    cases (innerParts p).getLast? with
    | none => simpa using hne
    | some part => rfl
  rw [components_eq]
  split_ifs
  · exact hlead .root nofun
  · exact hlead .here nofun
  · rfl

-- The file name of a path is its last part, where that is a name.
theorem fileName?_eq_some_iff {p : Path} {name : String} :
    fileName? p = some name ↔ (components p).getLast? = some (.normal name) := by
  rw [getLast?_components_eq_normal_iff, getLast?_innerParts, componentOf_eq_normal_iff,
    fileName?_eq]
  split_ifs with hnone
  · refine iff_of_false nofun fun h => ?_
    rcases hnone with hnil | hone | htwo
    · exact h.2.1 hnil
    · exact h.2.2.1 hone
    · exact h.2.2.2 htwo
  · rw [Option.some.injEq]
    exact (and_iff_left (by simpa only [not_or] using hnone)).symm

theorem isOrdinary_of_getLast?_components {p : Path} {name : String}
    (h : (components p).getLast? = some (.normal name)) : IsOrdinary name := by
  rw [getLast?_components_eq_normal_iff, getLast?_innerParts] at h
  exact isOrdinary_of_componentOf (slash_notMem_lastPiece p) h

-- A name is a path of one part.
theorem components_of_isOrdinary {name : String} (h : IsOrdinary name) :
    components name = [.normal name] := by
  have hpart : innerParts name = [.normal name] := by
    rw [innerParts, ← partsOf, partsOf_of_notMem h.1.2, componentOf_of_isOrdinary h]
    rfl
  have hhead : (splitSlashes name.toList).head? ≠ some ['.'] := by
    rw [splitSlashes_of_notMem h.1.2]
    intro hdot
    exact h.2.1 (String.toList_inj.mp (Option.some.inj hdot))
  rw [components_eq, isAbsolute_of_isPiece h.1, if_neg Bool.false_ne_true, if_neg hhead, hpart]

end Path

end Conformance
