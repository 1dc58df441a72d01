import Conformance.Proofs.Fixture.Protocol
import Conformance.Proofs.Path.Names

namespace Conformance

namespace Path

-- A path that means the same from every directory, or a bare name for a search.
def IsSettled (p : Path) : Prop :=
  isAbsolute p = true ∨ '/' ∉ p.toList

instance (p : Path) : Decidable p.IsSettled :=
  inferInstanceAs (Decidable (_ ∨ _))

-- A relative path with a slash that has one part only: all behind the first slash are
-- further slashes and single dots.
def IsLoose (p : Path) : Prop :=
  isAbsolute p = false ∧ '/' ∈ p.toList ∧
    ∀ piece ∈ (splitSlashes p.toList).tail, piece = [] ∨ piece = ['.']

instance (p : Path) : Decidable p.IsLoose :=
  inferInstanceAs (Decidable (_ ∧ _ ∧ _))

theorem IsLoose.not_isSettled {p : Path} (h : p.IsLoose) : ¬p.IsSettled := by
  rintro (habsolute | hbare)
  · rw [h.1] at habsolute
    cases habsolute
  · exact hbare h.2.1

-- The first piece of a relative path is not empty.
theorem exists_splitSlashes_eq {p : Path} (hp : isAbsolute p = false) (hne : p ≠ "") :
    ∃ first more, splitSlashes p.toList = first :: more ∧ first ≠ [] := by
  cases hs : p.toList with
  | nil => exact absurd (String.toList_inj.mp hs) hne
  | cons c rest =>
      have hc : c ≠ '/' := by
        rintro rfl
        simp [isAbsolute, hs] at hp
      rw [splitSlashes, if_neg hc]
      split
      · exact ⟨_, _, rfl, List.cons_ne_nil c []⟩
      · rename_i piece more _
        exact ⟨_, _, rfl, List.cons_ne_nil c piece⟩

-- The first piece of a relative path is always a part, a single dot included.
theorem length_components {p : Path} {first : List Char} {more : List (List Char)}
    (hp : isAbsolute p = false) (hsplit : splitSlashes p.toList = first :: more)
    (hfirst : first ≠ []) :
    (components p).length = (more.filterMap componentOf).length + 1 := by
  unfold components
  simp only [hp, hsplit, Bool.false_eq_true, if_false, List.head?_cons, Option.some.injEq]
  by_cases hdot : first = ['.']
  · have hnone : componentOf first = none := componentOf_eq_none_iff.mpr (.inr hdot)
    rw [if_pos hdot, List.filterMap_cons_none hnone, List.length_cons]
  · have hsome : componentOf first ≠ none := by
      rw [Ne, componentOf_eq_none_iff]
      rintro (hnil | hdot')
      · exact hfirst hnil
      · exact hdot hdot'
    obtain ⟨part, hpart⟩ := Option.ne_none_iff_exists'.mp hsome
    rw [if_neg hdot, List.filterMap_cons_some hpart, List.length_cons]

-- A relative path with a slash has one part just when it is loose.
theorem one_lt_length_components_iff {p : Path} (hp : isAbsolute p = false)
    (hslash : '/' ∈ p.toList) : 1 < (components p).length ↔ ¬p.IsLoose := by
  have hne : p ≠ "" := by
    rintro rfl
    cases hslash
  obtain ⟨first, more, hsplit, hfirst⟩ := exists_splitSlashes_eq hp hne
  have hloose : p.IsLoose ↔ more.filterMap componentOf = [] := by
    simp only [IsLoose, hp, hslash, hsplit, List.tail_cons, true_and,
      List.filterMap_eq_nil_iff, componentOf_eq_none_iff]
  rw [length_components hp hsplit hfirst, hloose, ← List.length_eq_zero_iff]
  omega

theorem length_components_of_notMem {p : Path} (hslash : '/' ∉ p.toList) :
    (components p).length ≤ 1 := by
  by_cases hne : p = ""
  · subst hne
    decide
  · have hp : isAbsolute p = false := by
      refine decide_eq_false fun hhead => hslash ?_
      exact List.mem_of_head? hhead
    have hcs : p.toList ≠ [] := fun hs => hne (String.toList_inj.mp hs)
    exact Nat.le_of_eq (length_components hp (splitSlashes_of_notMem hslash) hcs)

theorem isAbsolute_join_of_isAbsolute {base : Path} (hbase : isAbsolute base = true) (p : Path) :
    isAbsolute (join base p) = true := by
  cases hp : isAbsolute p with
  | false => rw [isAbsolute_join base hp, hbase]
  | true =>
      rw [join, if_pos hp]
      exact hp

theorem isAbsolute_foldl_join_of_isAbsolute {base : Path} (hbase : isAbsolute base = true)
    (parts : List Component) :
    isAbsolute (parts.foldl (fun q part => join q part.text) base) = true := by
  induction parts generalizing base with
  | nil => exact hbase
  | cons part rest ih => exact ih (isAbsolute_join_of_isAbsolute hbase part.text)

theorem isAbsolute_ofComponents (parts : List Component) :
    isAbsolute (ofComponents (.root :: parts)) = true := by
  have hroot : isAbsolute (join "" "/") = true := by decide
  exact isAbsolute_foldl_join_of_isAbsolute hroot parts

-- The form from the root of a path that starts there.
theorem isAbsolute_getD_absolute? (cwd : Path) {p : Path} (hp : isAbsolute p = true) :
    isAbsolute ((absolute? cwd p).getD p) = true := by
  have hparts : ∃ rest, components p = .root :: rest := by
    rw [components, if_pos hp]
    exact ⟨_, rfl⟩
  obtain ⟨rest, hrest⟩ := hparts
  have hne : p ≠ "" := by
    rintro rfl
    cases hp
  have hwhole : ∀ whole, isAbsolute whole = true →
      isAbsolute (if endsWithSlash p then join whole "" else whole) = true := by
    intro whole h
    split_ifs
    · exact isAbsolute_join_of_isAbsolute h ""
    · exact h
  rw [absolute?, if_neg hne, Option.getD_some]
  refine hwhole _ ?_
  split
  · rw [hrest]
    exact isAbsolute_ofComponents rest
  · have hdouble : isAbsolute "//" = true := by decide
    exact isAbsolute_foldl_join_of_isAbsolute hdouble _
  · rw [hrest]
    exact isAbsolute_ofComponents rest
  · rename_i hnot
    cases hs : p.toList with
    | nil => simp [isAbsolute, hs] at hp
    | cons c more =>
        obtain rfl : c = '/' := by simpa [isAbsolute, hs] using hp
        exact absurd hs (hnot more)

end Path

-- What is run in the stages.
def Toolchain.programs (t : Toolchain) : List Path :=
  [t.compiler, t.assembler, t.emulator]

namespace Config

open Conformance.Path

variable {base : Path}

def paths (c : Config) : List Path :=
  c.toolchain.programs ++ [c.toolchain.sysroot, c.fixtureRoot] ++ c.workDir.toList

theorem isSettled_anchored_iff (hbase : isAbsolute base = true) (p : Path) :
    (anchored base p).IsSettled ↔ ¬p.IsLoose := by
  unfold anchored isRelative
  cases hp : isAbsolute p with
  | true =>
      have hloose : ¬p.IsLoose := fun h => h.not_isSettled (.inl hp)
      simpa [hp] using iff_of_true (.inl hp) hloose
  | false =>
      by_cases hslash : '/' ∈ p.toList
      · simp only [Bool.not_false, true_and, one_lt_length_components_iff hp hslash]
        split_ifs with hloose
        · exact iff_of_false hloose.not_isSettled (not_not_intro hloose)
        · exact iff_of_true (.inl (isAbsolute_join_of_isAbsolute hbase p)) hloose
      · have hone := length_components_of_notMem hslash
        rw [if_neg fun h => absurd h.2 (by omega)]
        exact iff_of_true (.inr hslash) fun h => hslash h.2.1

theorem isAbsolute_rooted (hbase : isAbsolute base = true) (p : Path) :
    isAbsolute (rooted base p) = true := by
  unfold rooted isRelative
  cases hp : isAbsolute p with
  | true => exact hp
  | false => exact isAbsolute_join_of_isAbsolute hbase p

theorem isSettled_paths_resolve_iff (hbase : isAbsolute base = true) (c : Config) :
    (∀ p ∈ (c.resolve base).paths, p.IsSettled) ↔
      (∀ tool ∈ c.toolchain.programs, ¬tool.IsLoose) ∧ c.toolchain.sysroot.IsSettled := by
  have hdirs : ∀ p ∈ ((c.workDir.map (rooted base)).toList), p.IsSettled := by
    intro p hp
    obtain ⟨dir, -, rfl⟩ := Option.map_eq_some_iff.mp (Option.mem_toList.mp hp)
    exact .inl (isAbsolute_rooted hbase dir)
  simp only [paths, resolve, Toolchain.programs, List.forall_mem_append, List.forall_mem_cons,
    isSettled_anchored_iff hbase]
  constructor
  · rintro ⟨⟨⟨hcompiler, hassembler, hemulator, -⟩, hsysroot, -⟩, -⟩
    exact ⟨⟨hcompiler, hassembler, hemulator, nofun⟩, hsysroot⟩
  · rintro ⟨⟨hcompiler, hassembler, hemulator, -⟩, hsysroot⟩
    have hroot : (rooted base c.fixtureRoot).IsSettled := .inl (isAbsolute_rooted hbase _)
    exact ⟨⟨⟨hcompiler, hassembler, hemulator, nofun⟩, hsysroot, hroot, nofun⟩, hdirs⟩

end Config

namespace Fixture

variable {σ : Type} (f : Fixture) (host : Host) (config : Config)

-- The paths that a stage is given, but for what is in its own directory.
def lookups : Stage → List Path
  | .compile => [config.toolchain.compiler,
      (Path.absolute? host.cwdPath (f.sourcePath config.fixtureRoot)).getD
        (f.sourcePath config.fixtureRoot)]
  | .assemble => [config.toolchain.assembler]
  | .emulate => [config.toolchain.emulator, config.toolchain.sysroot]

theorem program_prepare (s : Stage) (dir : Path) (i : Invocation) :
    (s.prepare config dir i).program = i.program ∧ (s.prepare config dir i).args = i.args := by
  unfold Stage.prepare
  split_ifs
  · exact ⟨rfl, rfl⟩
  · exact ⟨rfl, rfl⟩

theorem mem_command_of_mem_lookups (dir : Path) (s : Stage) : ∀ p ∈ f.lookups host config s,
    p ∈ (f.command host config dir s).program :: (f.command host config dir s).args := by
  unfold command
  rw [(program_prepare config s dir _).1, (program_prepare config s dir _).2]
  cases s with
  | compile =>
      refine List.forall_mem_cons.mpr ⟨List.mem_cons_self, List.forall_mem_singleton.mpr ?_⟩
      refine List.mem_cons_of_mem _ (List.mem_append_left _ ?_)
      exact List.mem_append_right _ List.mem_cons_self
  | assemble => exact List.forall_mem_singleton.mpr List.mem_cons_self
  | emulate =>
      refine List.forall_mem_cons.mpr ⟨List.mem_cons_self, List.forall_mem_singleton.mpr ?_⟩
      exact List.mem_cons_of_mem _ (List.mem_cons_of_mem _ List.mem_cons_self)

-- With a root that is absolute, the source is named by an absolute path.
theorem isSettled_of_mem_lookups (hroot : Path.isAbsolute config.fixtureRoot = true)
    (h : ∀ p ∈ config.paths, p.IsSettled) (s : Stage) :
    ∀ p ∈ f.lookups host config s, p.IsSettled := by
  simp only [Config.paths, Toolchain.programs, List.forall_mem_append, List.forall_mem_cons] at h
  obtain ⟨⟨⟨hcompiler, hassembler, hemulator, -⟩, hsysroot, -⟩, -⟩ := h
  cases s with
  | compile =>
      refine List.forall_mem_cons.mpr ⟨hcompiler, List.forall_mem_singleton.mpr (.inl ?_)⟩
      exact Path.isAbsolute_getD_absolute? host.cwdPath
        (Path.isAbsolute_join_of_isAbsolute hroot f.source)
  | assemble => exact List.forall_mem_singleton.mpr hassembler
  | emulate => exact List.forall_mem_cons.mpr ⟨hemulator, List.forall_mem_singleton.mpr hsysroot⟩

-- Every call of a run is the command of a stage, made in a scratch directory.
theorem exists_calls_run (invoker : Invoker σ) (w : World σ) :
    ∃ calls, f.run host config (noting invoker) (w.noted []) =
        ((f.run host config invoker w).1, (f.run host config invoker w).2.noted calls) ∧
      ∀ call ∈ calls, ∃ s dir, call.invocation = f.command host config dir s := by
  have hfiles : (w.noted []).files = w.files := rfl
  unfold Fixture.run
  rw [hfiles]
  rcases Scratch.create host config f w.files with ⟨_ | scratch, files⟩
  · exact ⟨[], rfl, fun _ h => absurd h List.not_mem_nil⟩
  · obtain ⟨calls, hdrive, hprotocol⟩ :=
      f.exists_calls_drive host config invoker scratch.path { w with files := files }
    have hworld : { w.noted [] with files := files } = World.noted { w with files := files } [] :=
      rfl
    refine ⟨calls, ?_, fun call hcall => ?_⟩
    · dsimp only
      rw [hworld, hdrive]
      rfl
    · have hinvocation := List.mem_map_of_mem (f := Call.invocation) hcall
      rw [hprotocol.invoked] at hinvocation
      obtain ⟨s, -, hs⟩ := List.mem_map.mp hinvocation
      exact ⟨s, scratch.path, hs.symm⟩

end Fixture

-- Once a configuration is fixed to a directory, all its paths mean the same everywhere or are
-- bare names, unless a tool is a single name with a slash behind it or the sysroot is a relative
-- path with a slash. Then no call of a run, which is made in a scratch directory, is given a path
-- that could lead elsewhere from there.
theorem resolve_settled_iff (c : Config) (base : Path) (hbase : Path.isAbsolute base = true) :
    ((∀ p ∈ (c.resolve base).paths, p.IsSettled) ↔
      (∀ tool ∈ c.toolchain.programs, ¬tool.IsLoose) ∧ c.toolchain.sysroot.IsSettled) ∧
    ∀ {σ : Type} (f : Fixture) (host : Host) (invoker : Invoker σ) (w : World σ),
      ∃ calls, f.run host (c.resolve base) (noting invoker) (w.noted []) =
          ((f.run host (c.resolve base) invoker w).1,
            (f.run host (c.resolve base) invoker w).2.noted calls) ∧
        ∀ call ∈ calls, ∃ s dir, call.invocation = f.command host (c.resolve base) dir s ∧
          call.invocation.currentDir = some dir ∧
          ∀ p ∈ f.lookups host (c.resolve base) s,
            p ∈ call.invocation.program :: call.invocation.args ∧
              ((∀ q ∈ (c.resolve base).paths, q.IsSettled) → p.IsSettled) := by
  refine ⟨c.isSettled_paths_resolve_iff hbase, fun f host invoker w => ?_⟩
  have hroot : Path.isAbsolute (c.resolve base).fixtureRoot = true :=
    Config.isAbsolute_rooted hbase c.fixtureRoot
  obtain ⟨calls, hrun, hcommands⟩ := f.exists_calls_run host (c.resolve base) invoker w
  refine ⟨calls, hrun, fun call hcall => ?_⟩
  obtain ⟨s, dir, hcommand⟩ := hcommands call hcall
  rw [hcommand]
  refine ⟨s, dir, rfl, Fixture.currentDir_command s, fun p hp => ⟨?_, fun hsettled => ?_⟩⟩
  · exact f.mem_command_of_mem_lookups host _ dir s p hp
  · exact f.isSettled_of_mem_lookups host _ hroot hsettled s p hp

-- Paths as they are usually given: tools here and in the search path, all else relative.
def nearbyTools : Config :=
  { toolchain := { compiler := "./compile", assembler := "../bin/as", emulator := "qemu-arm" }
    workDir := some "out" }

theorem resolve_settled_nearbyTools : Path.isAbsolute "/suite" = true ∧
    (∀ tool ∈ nearbyTools.toolchain.programs, ¬tool.IsLoose) ∧
    nearbyTools.toolchain.sysroot.IsSettled ∧
    ∀ p ∈ (nearbyTools.resolve "/suite").paths, p.IsSettled := by
  have hbase : Path.isAbsolute "/suite" = true := by decide
  have htools : ∀ tool ∈ nearbyTools.toolchain.programs, ¬tool.IsLoose := by decide
  have hsysroot : nearbyTools.toolchain.sysroot.IsSettled := by decide
  exact ⟨hbase, htools, hsysroot,
    (resolve_settled_iff nearbyTools "/suite" hbase).1.mpr ⟨htools, hsysroot⟩⟩

-- A sysroot beside the suite, and a compiler that a slash follows. Nothing is wrong with the
-- two configurations, and both paths stay relative.
def nearbySysroot : Config :=
  { toolchain := { sysroot := "lib/arm" } }

def slashedCompiler : Config :=
  { toolchain := { compiler := "compile/" } }

theorem relative_paths_stay :
    nearbySysroot.flaw? = none ∧ slashedCompiler.flaw? = none ∧
    (nearbySysroot.resolve "/suite").toolchain.sysroot = "lib/arm" ∧
    (slashedCompiler.resolve "/suite").toolchain.compiler = "compile/" ∧
    ¬(∀ (c : Config) (base : Path), Path.isAbsolute base = true →
      ∀ p ∈ (c.resolve base).paths, p.IsSettled) := by
  refine ⟨by decide, by decide, by decide, by decide, fun hall => ?_⟩
  have hpaths := hall nearbySysroot "/suite" (by decide)
  exact absurd hpaths (by decide)

end Conformance
