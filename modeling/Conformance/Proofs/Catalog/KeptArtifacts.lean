import Conformance.Proofs.Catalog.Running
import Conformance.Proofs.Fixture.Footing

namespace Conformance

open Conformance.Tree (Grows)

namespace Setting

variable {σ : Type} {setting : Setting σ} {work : Place}

-- A fixture's kept directory, as it is behind its run, is found in a later world
-- under the same path and with all that was in it.
def Retains (setting : Setting σ) (f : Fixture) (before later : World σ) : Prop :=
  ∀ p place,
    (f.run setting.host setting.config setting.invoker before).1.artifactDir = some p →
    (f.run setting.host setting.config setting.invoker before).2.files.entry setting.host.cwd p =
      .ok place →
    later.files.entry setting.host.cwd p = .ok place ∧
    ∀ q node, place <+: q →
      (f.run setting.host setting.config setting.invoker before).2.files.node? q = some node →
      later.files.node? q = some node

-- The footing of some fixtures once the work directory is made.
def Grounded (setting : Setting σ) (work : Place) (t : Tree) (fixtures : List Fixture) : Prop :=
  ∀ f ∈ fixtures, Footing setting.host setting.config work
    (Scratch.prepared setting.host setting.config t) f

-- A fixture that may be run with nothing of the others at risk.
structure Ready (setting : Setting σ) (work : Place) (t : Tree) (f : Fixture) : Prop where
  placed : f.Placed
  footing : Footing setting.host setting.config work
    (Scratch.prepared setting.host setting.config t) f

variable (hstays : StaysIn setting.host setting.invoker)
  (hkeep : setting.config.keepArtifacts = true)

include hstays hkeep

theorem grows_run_of_ready {w : World σ} {f : Fixture} (h : setting.Ready work w.files f) :
    Grows (f.Under work) w.files
      (f.run setting.host setting.config setting.invoker w).2.files :=
  (Scratch.grows_prepared _ _ _ _).trans
    (Fixture.grows_run hstays hkeep h.placed h.footing)

-- A run of one fixture leaves the ground of another one apart from it.
theorem ready_run {w : World σ} {f g : Fixture} (hf : setting.Ready work w.files f)
    (hg : setting.Ready work w.files g)
    (hapart : Tree.Apart (f.keptPlace work) (g.keptPlace work)) :
    setting.Ready work (f.run setting.host setting.config setting.invoker w).2.files g := by
  have hgrows := (Fixture.grows_run hstays hkeep hf.placed hf.footing).trans
    (Scratch.grows_prepared setting.host setting.config _ (f.Under work))
  exact ⟨hg.placed, hg.footing.of_grows_apart hf.placed hg.placed hapart hgrows⟩

-- Some fixtures one after the other change only their own directories.
theorem grows_after {w : World σ} {order : List Fixture}
    (hready : ∀ f ∈ order, setting.Ready work w.files f)
    (hapart : order.Pairwise fun f g => Tree.Apart (f.keptPlace work) (g.keptPlace work)) :
    Grows (fun q => ∃ f ∈ order, f.Under work q) w.files (setting.after w order).files := by
  induction order generalizing w with
  | nil => exact .refl _ _
  | cons f rest ih =>
      rw [List.pairwise_cons] at hapart
      have hf := hready f List.mem_cons_self
      have hgrows := grows_run_of_ready hstays hkeep hf
      have hrest : ∀ g ∈ rest, setting.Ready work
          (f.run setting.host setting.config setting.invoker w).2.files g :=
        fun g hg => ready_run hstays hkeep hf (hready g (List.mem_cons_of_mem _ hg))
          (hapart.1 g hg)
      refine (hgrows.mono fun q hq => ⟨f, List.mem_cons_self, hq⟩).trans
        ((ih hrest hapart.2).mono ?_)
      rintro q ⟨g, hg, hq⟩
      exact ⟨g, List.mem_cons_of_mem _ hg, hq⟩

theorem ready_after {w : World σ} {order rest : List Fixture}
    (hready : ∀ f ∈ order ++ rest, setting.Ready work w.files f)
    (hapart : (order ++ rest).Pairwise fun f g =>
      Tree.Apart (f.keptPlace work) (g.keptPlace work)) :
    ∀ g ∈ rest, setting.Ready work (setting.after w order).files g := by
  induction order generalizing w with
  | nil => exact hready
  | cons f order ih =>
      rw [List.cons_append, List.pairwise_cons] at hapart
      refine ih (fun g hg => ?_) hapart.2
      exact ready_run hstays hkeep (hready f List.mem_cons_self)
        (hready g (List.mem_cons_of_mem _ hg)) (hapart.1 g hg)

-- Behind any fixtures that are apart from it, a fixture's artifacts are where they
-- were reported to be.
theorem retains_after {w : World σ} {before later : List Fixture} {g : Fixture}
    (hready : ∀ f ∈ before ++ g :: later, setting.Ready work w.files f)
    (hapart : (before ++ g :: later).Pairwise fun f g =>
      Tree.Apart (f.keptPlace work) (g.keptPlace work)) :
    setting.Retains g (setting.after w before) (setting.after w (before ++ g :: later)) := by
  have hg := ready_after hstays hkeep hready hapart g List.mem_cons_self
  have hlater : ∀ f ∈ later, setting.Ready work (setting.after w (before ++ [g])).files f := by
    refine ready_after hstays hkeep ?_ ?_
    · simpa using hready
    · simpa using hapart
  have hsplit : setting.after w (before ++ g :: later) =
      setting.after (setting.after w (before ++ [g])) later := by
    rw [← after_append, List.append_assoc, List.singleton_append]
  have hran : setting.after w (before ++ [g]) =
      (g.run setting.host setting.config setting.invoker (setting.after w before)).2 := by
    rw [after_append]
    rfl
  have hpairs := (List.pairwise_append.mp hapart).2.1
  rw [List.pairwise_cons] at hpairs
  have hgrows := grows_after hstays hkeep hlater hpairs.2
  rw [← hsplit, hran] at hgrows
  have hfooting := hg.footing.of_grows_self hg.placed
    (Fixture.grows_run hstays hkeep hg.placed hg.footing)
  intro p place hp hplace
  obtain rfl := Fixture.artifactDir_run hkeep hp
  have hway := hfooting.entry_eq hg.placed.named hplace
  refine ⟨?_, fun q node hq hnode => hgrows.node?_eq_some ?_ hnode⟩
  · rw [Fixture.keptPath_eq_way hg.placed.named] at hplace ⊢
    refine Tree.entry_join_of_grows g.way_ne_nil (Fixture.isOrdinary_of_mem_way hg.placed)
      hfooting.steady hfooting.free hgrows ?_ ?_ hplace
    · rintro q ⟨f, hf, hq⟩
      exact Fixture.below_of_under (hlater f hf).placed hq
    · rintro n hn ⟨f, hf, hunder⟩
      exact Fixture.not_under_way_of_apart hg.placed (hpairs.1 f hf).symm n hunder
  · rintro ⟨f, hf, hunder⟩
    exact (hpairs.1 f hf).excludes (hway ▸ hq) hunder

end Setting

namespace Catalog

variable {catalog : Catalog} (hvalid : catalog.flaw? = none)

include hvalid

theorem apart_of_clear {f g : Fixture} (hf : catalog.Lists f) (hg : catalog.Lists g) (hne : f ≠ g)
    (hkf : ¬f.Unkeepable) (hkg : ¬g.Unkeepable)
    (hclear : f.category = g.category → f.name ≠ g.name → f.Clear g) (work : Place) :
    Tree.Apart (f.keptPlace work) (g.keptPlace work) := by
  have hfname := Fixture.name_ne_empty (isBlankText_of_lists hvalid hf)
  have hgname := Fixture.name_ne_empty (isBlankText_of_lists hvalid hg)
  by_cases hcategory : f.category = g.category
  · rw [Fixture.apart_keptPlace_iff_clear work hfname hgname hcategory]
    exact hclear hcategory fun hname => hne (eq_of_name_eq hvalid hf hg hcategory hname)
  · exact Fixture.apart_keptPlace_of_category_ne work ⟨hfname, hkf⟩ ⟨hgname, hkg⟩ hcategory

-- Fixtures with directories of their own, of which none is in another one.
def Tidy (order : List Fixture) : Prop :=
  (∀ f ∈ order, ¬f.Unkeepable) ∧
    ∀ f ∈ order, ∀ g ∈ order, f.category = g.category → f.name ≠ g.name → f.Clear g

theorem Tidy.pairwise_apart {order : List Fixture} (htidy : Tidy order) (hnodup : order.Nodup)
    (hlists : ∀ f ∈ order, catalog.Lists f) (work : Place) :
    order.Pairwise fun f g => Tree.Apart (f.keptPlace work) (g.keptPlace work) :=
  hnodup.imp_of_mem fun hf hg hne =>
    apart_of_clear hvalid (hlists _ hf) (hlists _ hg) hne (htidy.1 _ hf) (htidy.1 _ hg)
      (htidy.2 _ hf _ hg) work

theorem node?_create_of_clear {host : Host} {config : Config} {f g : Fixture} {work : Place}
    {t : Tree} (hf : catalog.Lists f) (hg : catalog.Lists g) (hcategory : f.category = g.category)
    (hclear : f.Clear g) (hkeep : config.keepArtifacts = true)
    (hfooting : Footing host config work (Scratch.prepared host config t) f)
    {q : Place} (hq : g.keptPlace work <+: q) {node : Node} (hnode : t.node? q = some node) :
    (Scratch.create host config f t).2.node? q = some node := by
  have hfname := Fixture.name_ne_empty (isBlankText_of_lists hvalid hf)
  have hgname := Fixture.name_ne_empty (isBlankText_of_lists hvalid hg)
  have hapart := (Fixture.apart_keptPlace_iff_clear work hfname hgname hcategory).mpr hclear
  refine ((Scratch.grows_prepared host config t _).trans
    (hfooting.grows_create hfname hkeep)).node?_eq_some ?_ hnode
  exact hapart.symm.excludes hq

theorem retains_of_tidy {σ : Type} {setting : Setting σ} {work : Place} {w : World σ}
    {before later : List Fixture} {g : Fixture} (hkeep : setting.config.keepArtifacts = true)
    (hstays : StaysIn setting.host setting.invoker) (hnodup : (before ++ g :: later).Nodup)
    (hlists : ∀ f ∈ before ++ g :: later, catalog.Lists f) (htidy : Tidy (before ++ g :: later))
    (hground : setting.Grounded work w.files (before ++ g :: later)) :
    setting.Retains g (setting.after w before) (setting.after w (before ++ g :: later)) := by
  refine Setting.retains_after hstays hkeep (fun f hf => ?_)
    (htidy.pairwise_apart hvalid hnodup hlists work)
  exact ⟨⟨Fixture.name_ne_empty (isBlankText_of_lists hvalid (hlists f hf)), htidy.1 f hf⟩,
    hground f hf⟩

omit hvalid

-- Two fixtures of a category keep out of each other's kept directories just when
-- their names lead apart, which a catalog does not ask of them. Then making one
-- directory leaves the other one as it is; and when all fixtures of a run, in any
-- order, keep out of each other's directories, each one's artifacts are there at the
-- end, provided that the tools stay in the directories they are called in.
theorem kept_directories_apart_iff_clear {σ : Type} (catalog : Catalog) (setting : Setting σ)
    (hvalid : catalog.flaw? = none) :
    (∀ f, catalog.Lists f → ∀ t work, Footing setting.host setting.config work t f →
      ∀ place,
      t.entry setting.host.cwd (Scratch.keptPath setting.host setting.config f) = .ok place →
      place = f.keptPlace work) ∧
    (∀ f g, catalog.Lists f → catalog.Lists g → f.category = g.category → f.name ≠ g.name →
      ∀ work, Tree.Apart (f.keptPlace work) (g.keptPlace work) ↔ f.Clear g) ∧
    (setting.config.keepArtifacts = true →
      ∀ f g, catalog.Lists f → catalog.Lists g → f.category = g.category → f.Clear g →
      ∀ t work, setting.Grounded work t [f] →
      ∀ q, g.keptPlace work <+: q → ∀ node, t.node? q = some node →
      (Scratch.create setting.host setting.config f t).2.node? q = some node) ∧
    (setting.config.keepArtifacts = true → StaysIn setting.host setting.invoker →
      ∀ order, order.Nodup → (∀ f ∈ order, catalog.Lists f) → Tidy order →
      ∀ w work, setting.Grounded work w.files order →
      ∀ before g later, order = before ++ g :: later →
      setting.Retains g (setting.after w before) (setting.after w order)) ∧
    (setting.config.keepArtifacts = true → StaysIn setting.host setting.invoker →
      ∀ chosen, Tidy (catalog.selected chosen) →
      ∀ s work, setting.Grounded work s.world.files (catalog.selected chosen) →
      ∃ done, done <+: catalog.selected chosen ∧
        (∀ r, (catalog.run setting chosen s).1 = .ok r → done = catalog.selected chosen) ∧
        ∀ before g later, done = before ++ g :: later →
        setting.Retains g (setting.after s.world before)
          (catalog.run setting chosen s).2.world) := by
  have hname : ∀ {f}, catalog.Lists f → f.name ≠ "" := fun hf =>
    Fixture.name_ne_empty (isBlankText_of_lists hvalid hf)
  refine ⟨?_, ?_, ?_, ?_, ?_⟩
  · intro f hf t work hfooting place hplace
    exact hfooting.entry_eq (hname hf) hplace
  · intro f g hf hg hcategory _ work
    exact Fixture.apart_keptPlace_iff_clear work (hname hf) (hname hg) hcategory
  · intro hkeep f g hf hg hcategory hclear t work hground q hq node hnode
    exact node?_create_of_clear hvalid hf hg hcategory hclear hkeep
      (hground f List.mem_cons_self) hq hnode
  · rintro hkeep hstays _ hnodup hlists htidy w work hground before g later rfl
    exact retains_of_tidy hvalid hkeep hstays hnodup hlists htidy hground
  · intro hkeep hstays chosen htidy s work hground
    obtain ⟨done, hdone, hworld, hall⟩ := catalog.run_world setting chosen s
    refine ⟨done, hdone, hall, ?_⟩
    rintro before g later rfl
    have hmem : ∀ f ∈ before ++ g :: later, f ∈ catalog.selected chosen :=
      fun f hf => hdone.subset hf
    rw [hworld]
    refine retains_of_tidy hvalid hkeep hstays
      ((nodup_selected hvalid chosen).sublist hdone.sublist)
      (fun f hf => lists_of_mem_selected (hmem f hf)) ⟨?_, ?_⟩ fun f hf => hground f (hmem f hf)
    · exact fun f hf => htidy.1 f (hmem f hf)
    · exact fun f hf g hg => htidy.2 f (hmem f hf) g (hmem g hg)

-- Tools that leave one file where they are called.
def leaving : Invoker Unit := fun i w =>
  (.ok { status := .exited 0, elapsedMs := 0 },
    match i.currentDir.map (w.files.entry []) with
    | some (.ok here) => { w with files := w.files.set (here ++ ["out"]) (.file [111] false) }
    | _ => w)

theorem staysIn_leaving : StaysIn .plain leaving := by
  intro i w dir q hdir hq
  unfold leaving
  rw [hdir, Option.map_some]
  cases he : w.files.entry [] dir with
  | error e => rfl
  | ok here =>
      change (w.files.set (here ++ ["out"]) _).node? q = _
      rw [Tree.node?_set _ _ _ (by simp), if_neg]
      rintro rfl
      exact hq here he (List.prefix_append here ["out"])

def keptUnderWork : Setting Unit where
  host := .plain
  config := .keeping
  invoker := leaving

def emptyWork : Tree :=
  ⟨[(["work"], .directory)]⟩

theorem grounded_emptyWork {fixtures : List Fixture}
    (h : ∀ f ∈ fixtures, ∃ name, f.way = [f.category.name, name]) :
    keptUnderWork.Grounded ["work"] emptyWork fixtures := by
  have hsteady : emptyWork.Steady [] "/work" ["work"] := by
    have hplace : Tree.origin [] "/work" ++ Tree.names "/work" = ["work"] := by decide +kernel
    rw [← hplace]
    exact Tree.steady_of_passes (by decide +kernel) (by decide +kernel) (by decide +kernel)
  have hprepared : Scratch.prepared keptUnderWork.host keptUnderWork.config emptyWork =
      emptyWork := by
    decide +kernel
  intro f hf
  obtain ⟨name, hway⟩ := h f hf
  rw [hprepared]
  refine ⟨hsteady, fun n hn hne target hlink => ?_⟩
  rw [hway] at hn hlink
  -- the category is the only name before the last one, and is not made yet
  obtain rfl : n = 1 := by
    simp only [List.length_cons, List.length_nil] at hn
    omega
  have hnone : emptyWork.node? (Tree.descend ["work"] [f.category.name]) = none := by
    cases f.category <;> decide +kernel
  rw [List.take_succ_cons, List.take_zero, hnone] at hlink
  cases hlink

-- Of two fixtures that are apart, the first one's file is there behind both.
theorem first_output_stays_behind_second :
    Catalog.flaw? ⟨"1", [⟨.valid, "valid", [.bare "a", .bare "b"]⟩]⟩ = none ∧
      (keptUnderWork.after ⟨emptyWork, ()⟩
        [⟨"a", .valid, "valid/a", none⟩, ⟨"b", .valid, "valid/b", none⟩]).files.node?
          ["work", "valid", "a", "out"] = some (.file [111] false) := by
  have hvalid : Catalog.flaw? ⟨"1", [⟨.valid, "valid", [.bare "a", .bare "b"]⟩]⟩ = none := by
    decide +kernel
  refine ⟨hvalid, ?_⟩
  have hfixtures : ∀ f ∈ [⟨"a", .valid, "valid/a", none⟩, ⟨"b", .valid, "valid/b", none⟩],
      Catalog.Lists ⟨"1", [⟨.valid, "valid", [.bare "a", .bare "b"]⟩]⟩ f ∧
        ∃ name, f.way = [f.category.name, name] := by
    intro f hf
    simp only [List.mem_cons, List.not_mem_nil, or_false] at hf
    rcases hf with rfl | rfl
    · exact ⟨⟨_, List.mem_cons_self, .bare "a", by simp, by decide +kernel⟩, "a",
        by decide +kernel⟩
    · exact ⟨⟨_, List.mem_cons_self, .bare "b", by simp, by decide +kernel⟩, "b",
        by decide +kernel⟩
  have hretains := (kept_directories_apart_iff_clear _ keptUnderWork hvalid).2.2.2.1 rfl
    staysIn_leaving _ (by decide +kernel) (fun f hf => (hfixtures f hf).1)
    (by unfold Tidy; decide +kernel) ⟨emptyWork, ()⟩ ["work"]
    (grounded_emptyWork fun f hf => (hfixtures f hf).2) [] _ _ rfl
  have hfound := hretains "/work/valid/a" ["work", "valid", "a"] (by decide +kernel)
    (by decide +kernel)
  exact hfound.2 _ _ ⟨["out"], rfl⟩ (by decide +kernel)

-- A catalog may list one directory under two names, and a directory in another one.
-- Then one fixture loses what the other one left.
theorem outputs_go_under_shared_directory :
    Catalog.flaw? ⟨"1", [⟨.valid, "valid", [.bare "a", .bare "./a", .bare "a/b"]⟩]⟩ = none ∧
      Scratch.create .plain .keeping ⟨"./a", .valid, "valid/./a", none⟩
        ⟨[(["work"], .directory), (["work", "valid"], .directory),
          (["work", "valid", "a"], .directory),
          (["work", "valid", "a", "out"], .file [111] false)]⟩ =
        (.ok (.kept "/work/valid/a"), ⟨[(["work"], .directory), (["work", "valid"], .directory),
          (["work", "valid", "a"], .directory)]⟩) ∧
      Scratch.create .plain .keeping ⟨"a", .valid, "valid/a", none⟩
        ⟨[(["work"], .directory), (["work", "valid"], .directory),
          (["work", "valid", "a"], .directory),
          (["work", "valid", "a", "b"], .directory),
          (["work", "valid", "a", "b", "out"], .file [111] false)]⟩ =
        (.ok (.kept "/work/valid/a"), ⟨[(["work"], .directory), (["work", "valid"], .directory),
          (["work", "valid", "a"], .directory)]⟩) := by
  decide +kernel

end Catalog

end Conformance
