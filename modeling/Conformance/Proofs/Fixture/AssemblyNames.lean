import Conformance.Fixture
import Conformance.Proofs.Path.FileNames

namespace Conformance

theorem Text.dropEnding?_eq_some_iff {s ending stem : String} :
    dropEnding? s ending = some stem ↔ s = stem ++ ending := by
  unfold dropEnding?
  dsimp only
  split_ifs with hends
  · obtain ⟨before, hbefore⟩ := List.isSuffixOf_iff_suffix.mp hends
    have htake : s.toList.take (s.toList.length - ending.toList.length) = before := by
      rw [← hbefore, List.length_append, Nat.add_sub_cancel_right, List.take_left]
    rw [htake, Option.some.injEq, ← String.toList_inj, ← String.toList_inj, String.toList_ofList,
      String.toList_append, ← hbefore, List.append_left_inj]
  · refine iff_of_false nofun ?_
    rintro rfl
    refine hends (List.isSuffixOf_iff_suffix.mpr ?_)
    rw [String.toList_append]
    exact List.suffix_append stem.toList ending.toList

namespace Fixture

open Conformance.Path

-- A stem with a suffix behind it. A dot at the beginning of a name starts no suffix.
def IsStem (extension name stem : String) : Prop :=
  stem ≠ "" ∧ name = stem ++ "." ++ extension

instance (extension name stem : String) : Decidable (IsStem extension name stem) :=
  inferInstanceAs (Decidable (_ ∧ _))

section Stems

variable {extension name name' stem stem' : String}

theorem append_suffix_inj :
    stem ++ "." ++ extension = stem' ++ "." ++ extension ↔ stem = stem' := by
  simp only [← String.toList_inj, String.toList_append, List.append_left_inj]

theorem IsStem.unique (h : IsStem extension name stem) (h' : IsStem extension name stem') :
    stem = stem' :=
  append_suffix_inj.mp (h.2.symm.trans h'.2)

theorem append_suffix_ne : stem ++ "." ++ extension ≠ stem := by
  intro h
  have hlength := congrArg String.length h
  simp only [String.length_append] at hlength
  have hdot : ".".length = 1 := rfl
  omega

theorem isOrdinary_append_suffix (hstem : IsPiece stem) (hne : extension ≠ "")
    (hslash : '/' ∉ extension.toList) : IsOrdinary (stem ++ "." ++ extension) := by
  have hlength : 3 ≤ (stem ++ "." ++ extension).length := by
    have hfull : ∀ s : String, s ≠ "" → 1 ≤ s.length := fun s hs =>
      Nat.one_le_iff_ne_zero.mpr fun hzero => hs (String.length_eq_zero_iff.mp hzero)
    have hdot : ".".length = 1 := rfl
    have hbefore := hfull stem hstem.1
    have hbehind := hfull extension hne
    simp only [String.length_append]
    omega
  refine ⟨⟨?_, ?_⟩, ?_, ?_⟩
  · rintro hempty
    simp [hempty] at hlength
  · simp only [String.toList_append, List.mem_append, not_or]
    exact ⟨⟨hstem.2, by decide⟩, hslash⟩
  · intro hone
    rw [hone] at hlength
    exact absurd hlength (by decide)
  · intro htwo
    rw [htwo] at hlength
    exact absurd hlength (by decide)

end Stems

section AssemblyNames

variable {f : Fixture} {base source assembly : String}

theorem assemblyName_of_isStem (hbase : fileName? f.source = some base) (hsource : source ≠ "")
    {stem : String} (h : IsStem source base stem) :
    f.assemblyName source assembly = stem ++ "." ++ assembly := by
  have hdrop : Text.dropEnding? base ("." ++ source) = some stem := by
    rw [Text.dropEnding?_eq_some_iff, ← String.append_assoc]
    exact h.2
  simp only [assemblyName, hbase, Option.getD_some, hdrop]
  rw [if_pos ⟨hsource, h.1⟩]

theorem assemblyName_of_not_isStem (hbase : fileName? f.source = some base)
    (h : ∀ stem, ¬IsStem source base stem) :
    f.assemblyName source assembly = base ++ "." ++ assembly := by
  simp only [assemblyName, hbase, Option.getD_some]
  cases hdrop : Text.dropEnding? base ("." ++ source) with
  | none => rfl
  | some stem =>
      rw [Text.dropEnding?_eq_some_iff, ← String.append_assoc] at hdrop
      dsimp only
      rw [if_neg fun hboth => h stem ⟨hboth.2, hdrop⟩]

-- The stem that an assembly file keeps of the name of its source.
def KeepsStem (source base stem : String) : Prop :=
  IsStem source base stem ∨ stem = base ∧ ∀ other, ¬IsStem source base other

theorem exists_keepsStem (source base : String) : ∃ stem, KeepsStem source base stem := by
  by_cases h : ∃ stem, IsStem source base stem
  · obtain ⟨stem, hstem⟩ := h
    exact ⟨stem, .inl hstem⟩
  · exact ⟨base, .inr ⟨rfl, not_exists.mp h⟩⟩

theorem assemblyName_of_keepsStem (hbase : fileName? f.source = some base) (hsource : source ≠ "")
    {stem : String} (h : KeepsStem source base stem) :
    f.assemblyName source assembly = stem ++ "." ++ assembly := by
  rcases h with hstem | ⟨rfl, hnone⟩
  · exact assemblyName_of_isStem hbase hsource hstem
  · exact assemblyName_of_not_isStem hbase hnone

theorem assemblyName_eq_iff (hbase : fileName? f.source = some base) (hsource : source ≠ "")
    (stem : String) :
    f.assemblyName source assembly = stem ++ "." ++ assembly ↔ KeepsStem source base stem := by
  refine ⟨fun h => ?_, assemblyName_of_keepsStem hbase hsource⟩
  obtain ⟨kept, hkept⟩ := exists_keepsStem source base
  rw [assemblyName_of_keepsStem hbase hsource hkept, append_suffix_inj] at h
  rwa [← h]

theorem KeepsStem.isPiece {stem : String} (h : KeepsStem source base stem)
    (hbase : IsOrdinary base) : IsPiece stem := by
  rcases h with ⟨hne, rfl⟩ | ⟨rfl, -⟩
  · refine ⟨hne, fun hslash => hbase.1.2 ?_⟩
    simp only [String.toList_append, List.mem_append]
    exact .inl (.inl hslash)
  · exact hbase.1

-- Two names lose what tells them apart only when one is the other with the suffix behind it.
theorem keepsStem_common_iff {other : String} (hne : base ≠ other) :
    (∃ stem, KeepsStem source base stem ∧ KeepsStem source other stem) ↔
      (IsStem source base other ∧ ∀ stem, ¬IsStem source other stem) ∨
        (IsStem source other base ∧ ∀ stem, ¬IsStem source base stem) := by
  constructor
  · rintro ⟨stem, hstem | ⟨rfl, hnone⟩, hstem' | ⟨heq, hnone'⟩⟩
    · exact absurd (hstem.2.trans hstem'.2.symm) hne
    · subst heq
      exact .inl ⟨hstem, hnone'⟩
    · exact .inr ⟨hstem', hnone⟩
    · exact absurd heq hne
  · rintro (⟨hstem, hnone⟩ | ⟨hstem, hnone⟩)
    · exact ⟨other, .inl hstem, .inr ⟨rfl, hnone⟩⟩
    · exact ⟨base, .inr ⟨rfl, hnone⟩, .inl hstem⟩

-- Where a source gave up its suffix, exchanging the two suffixes leads back to its name.
theorem assemblyName_back_iff {stem : String} (hkept : KeepsStem source base stem)
    (hbase : IsOrdinary base) (hassembly : assembly ≠ "")
    (hslash : '/' ∉ assembly.toList) (hback : f.source = stem ++ "." ++ assembly) :
    f.assemblyName assembly source = base ↔ ∃ stem, IsStem source base stem := by
  have hpiece := hkept.isPiece hbase
  have hname : fileName? f.source = some (stem ++ "." ++ assembly) := by
    rw [hback, fileName?_eq_some_iff,
      components_of_isOrdinary (isOrdinary_append_suffix hpiece hassembly hslash)]
    rfl
  rw [assemblyName_of_isStem hname hassembly ⟨hpiece.1, rfl⟩]
  rcases hkept with hstem | ⟨rfl, hnone⟩
  · exact iff_of_true hstem.2.symm ⟨stem, hstem⟩
  · exact iff_of_false append_suffix_ne (not_exists.mpr hnone)

-- An assembly file has the name of its source with the suffix replaced, or with one more suffix
-- where there is none to replace. Names that come together, and names that come back when the
-- suffixes are exchanged, are told by their stems.
theorem assemblyName_replaces_suffix
    (hbase : (components f.source).getLast? = some (.normal base)) (hsource : source ≠ "")
    (hassembly : assembly ≠ "") (hslash : '/' ∉ assembly.toList) :
    IsOrdinary (f.assemblyName source assembly) ∧
    (∀ stem, f.assemblyName source assembly = stem ++ "." ++ assembly ↔
      IsStem source base stem ∨ stem = base ∧ ∀ other, ¬IsStem source base other) ∧
    (∀ (g : Fixture) (other : String),
      (components g.source).getLast? = some (.normal other) → base ≠ other →
        (f.assemblyName source assembly = g.assemblyName source assembly ↔
          (IsStem source base other ∧ ∀ stem, ¬IsStem source other stem) ∨
            (IsStem source other base ∧ ∀ stem, ¬IsStem source base stem))) ∧
    ∀ g : Fixture, g.source = f.assemblyName source assembly →
      (g.assemblyName assembly source = base ↔ ∃ stem, IsStem source base stem) := by
  have hname := fileName?_eq_some_iff.mpr hbase
  have hordinary := isOrdinary_of_getLast?_components hbase
  obtain ⟨stem, hkept⟩ := exists_keepsStem source base
  have heq : f.assemblyName source assembly = stem ++ "." ++ assembly :=
    assemblyName_of_keepsStem hname hsource hkept
  refine ⟨?_, assemblyName_eq_iff hname hsource, ?_, ?_⟩
  · rw [heq]
    exact isOrdinary_append_suffix (hkept.isPiece hordinary) hassembly hslash
  · intro g other hother hne
    have hname' := fileName?_eq_some_iff.mpr hother
    rw [← keepsStem_common_iff hne]
    constructor
    · intro hsame
      rw [heq, eq_comm, assemblyName_eq_iff hname' hsource] at hsame
      exact ⟨stem, hkept, hsame⟩
    · rintro ⟨common, hcommon, hcommon'⟩
      rw [assemblyName_of_keepsStem hname hsource hcommon,
        assemblyName_of_keepsStem hname' hsource hcommon']
  · intro g hg
    exact assemblyName_back_iff hkept hordinary hassembly hslash (hg.trans heq)

end AssemblyNames

-- A source whose stem has the suffix once more, one that is named by this stem, and the assembly
-- file of the first taken for a source.
def twiceSuffixed : Fixture :=
  ⟨"twice", .valid, "valid/./a.b.wacc.wacc/.//", none⟩

def onceSuffixed : Fixture :=
  ⟨"once", .valid, "a.b.wacc", none⟩

def assembled : Fixture :=
  ⟨"assembled", .valid, "a.b.wacc.s", none⟩

example : onceSuffixed.assemblyName "wacc" "s" = "a.b.s" := by decide +kernel

theorem assemblyName_replaces_suffix_twiceSuffixed :
    (components twiceSuffixed.source).getLast? = some (.normal "a.b.wacc.wacc") ∧
      twiceSuffixed.assemblyName "wacc" "s" = "a.b.wacc" ++ "." ++ "s" ∧
      IsOrdinary (twiceSuffixed.assemblyName "wacc" "s") ∧
      twiceSuffixed.assemblyName "wacc" "s" ≠ onceSuffixed.assemblyName "wacc" "s" ∧
      assembled.assemblyName "s" "wacc" = "a.b.wacc.wacc" := by
  have hbase : (components twiceSuffixed.source).getLast? = some (.normal "a.b.wacc.wacc") := by
    decide +kernel
  obtain ⟨hordinary, hstem, hcommon, hback⟩ :=
    assemblyName_replaces_suffix hbase (by decide : "wacc" ≠ "") (by decide : "s" ≠ "") (by decide)
  have htwice : IsStem "wacc" "a.b.wacc.wacc" "a.b.wacc" := by decide
  have honce : IsStem "wacc" "a.b.wacc" "a.b" := by decide
  have hname := (hstem "a.b.wacc").mpr (.inl htwice)
  refine ⟨hbase, hname, hordinary, ?_, (hback assembled hname.symm).mpr ⟨_, htwice⟩⟩
  have hother : (components onceSuffixed.source).getLast? = some (.normal "a.b.wacc") := by
    decide +kernel
  rw [Ne, hcommon onceSuffixed "a.b.wacc" hother (by decide)]
  rintro (⟨-, hnone⟩ | ⟨hlonger, -⟩)
  · exact hnone "a.b" honce
  · exact absurd hlonger (by decide)

end Fixture

end Conformance
