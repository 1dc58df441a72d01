import Conformance.Proofs.Fixture.Creation
import Conformance.Proofs.Fixture.KeptPlace
import Conformance.Proofs.Fixture.Stages

namespace Conformance

open Conformance.Tree (Grows Below)

-- Tools that change nothing outside the directory they are called in.
def StaysIn {σ : Type} (host : Host) (invoker : Invoker σ) : Prop :=
  ∀ i w dir q, i.currentDir = some dir →
    (∀ here, w.files.entry host.cwd dir = .ok here → ¬here <+: q) →
    (invoker i w).2.files.node? q = w.files.node? q

-- What the directory of a fixture stands on: the work directory leads to one place,
-- and no link is on the way from there to the kept directory.
structure Footing (host : Host) (config : Config) (work : Place) (t : Tree) (f : Fixture) :
    Prop where
  steady : t.Steady host.cwd (Scratch.parent host config) work
  free : t.LinkFree work f.way

namespace Fixture

variable {host : Host} {config : Config} {work : Place} {t t' : Tree} {f g : Fixture}

-- What is at the kept directory of a fixture or below it.
def Under (work : Place) (f : Fixture) (q : Place) : Prop :=
  f.keptPlace work <+: q

theorem below_of_under (hf : f.Placed) {q : Place}
    (h : f.Under work q) : Below work q := by
  rw [Under, keptPlace_eq work hf] at h
  refine ⟨(List.prefix_append work f.way).trans h, ?_⟩
  rintro rfl
  have hlen := h.length_le
  have hpos := List.length_pos_of_ne_nil f.way_ne_nil
  rw [List.length_append] at hlen
  omega

theorem not_under_own_way (hf : f.Placed) {n : Nat}
    (hn : n < f.way.length) : ¬f.Under work (work ++ f.way.take n) := by
  intro h
  rw [Under, keptPlace_eq work hf] at h
  have hlen := h.length_le
  simp only [List.length_append, List.length_take] at hlen
  omega

theorem not_under_way_of_apart (hg : g.Placed)
    (h : Tree.Apart (f.keptPlace work) (g.keptPlace work)) (n : Nat) :
    ¬f.Under work (work ++ g.way.take n) := by
  intro hunder
  have htake : work ++ g.way.take n <+: g.keptPlace work := by
    rw [keptPlace_eq work hg]
    exact (List.prefix_append_right_inj work).mpr (List.take_prefix n g.way)
  exact h.1 (List.IsPrefix.trans hunder htake)

theorem keptPath_eq_way (hname : f.name ≠ "") :
    Scratch.keptPath host config f =
      Path.join (Scratch.parent host config) ("/".intercalate f.way) := by
  rw [Scratch.keptPath_eq host config hname, Scratch.categoryPath,
    Path.join_join _ f.keptNames_ne_nil f.category.isOrdinary_name.1
      (isPiece_of_mem_keptNames hname)]
  rfl

end Fixture

namespace Footing

open Fixture

variable {host : Host} {config : Config} {work : Place} {t t' : Tree} {f g : Fixture}

-- The kept directory stands where the names on the way to it lead.
theorem entry_eq (h : Footing host config work t f) (hname : f.name ≠ "") {place : Place}
    (he : t.entry host.cwd (Scratch.keptPath host config f) = .ok place) :
    place = f.keptPlace work := by
  rw [keptPath_eq_way hname] at he
  exact Tree.entry_join_linkFree t f.way_ne_nil (isPiece_of_mem_way hname)
    h.steady.resolve_eq h.free he

theorem grows_create (h : Footing host config work (Scratch.prepared host config t) f)
    (hname : f.name ≠ "") (hkeep : config.keepArtifacts = true) :
    Grows (f.Under work) (Scratch.prepared host config t) (Scratch.create host config f t).2 :=
  Scratch.grows_create_at host config f t hkeep f.way_ne_nil (isPiece_of_mem_way hname)
    (keptPath_eq_way hname) h.steady.resolve_eq h.free

-- A fixture with a directory of its own leaves its own way as it is.
theorem of_grows_self (h : Footing host config work t f) (hf : f.Placed)
    (hgrows : Grows (f.Under work) t t') :
    Footing host config work t' f := by
  refine ⟨h.steady.of_grows hgrows fun _ => below_of_under hf,
    h.free.of_grows hgrows fun n hn _ => ?_⟩
  rw [Tree.descend_take_ordinary work (isOrdinary_of_mem_way hf)]
  exact not_under_own_way hf hn

theorem of_grows_apart (h : Footing host config work t g) (hf : f.Placed) (hg : g.Placed)
    (hapart : Tree.Apart (f.keptPlace work) (g.keptPlace work))
    (hgrows : Grows (f.Under work) t t') : Footing host config work t' g := by
  refine ⟨h.steady.of_grows hgrows fun _ => below_of_under hf,
    h.free.of_grows hgrows fun n _ _ => ?_⟩
  rw [Tree.descend_take_ordinary work (isOrdinary_of_mem_way hg)]
  exact not_under_way_of_apart hg hapart n

end Footing

namespace Fixture

variable {σ : Type} {host : Host} {config : Config} {invoker : Invoker σ} {work : Place}
  {f : Fixture} {w : World σ}

-- One stage changes only the directory of its fixture.
theorem grows_stage (hstays : StaysIn host invoker) (hname : f.name ≠ "")
    (h : Footing host config work w.files f) (s : Stage) (i : Invocation) :
    Grows (f.Under work) w.files
      (s.run host config invoker (Scratch.keptPath host config f) i w).2.files := by
  intro q hq
  refine .inl (hstays _ w _ q (currentDir_prepare s config _ i) fun here hhere hprefix => hq ?_)
  rw [h.entry_eq hname hhere] at hprefix
  exact hprefix

theorem grows_drive (hstays : StaysIn host invoker) (hf : f.Placed)
    (h : Footing host config work w.files f) :
    Grows (f.Under work) w.files
      (f.drive host config invoker (Scratch.keptPath host config f) w).2.files := by
  have hcompiled := grows_stage hstays hf.named h .compile (f.compileCommand host config)
  have hassembled := hcompiled.trans (grows_stage hstays hf.named (h.of_grows_self hf hcompiled)
    .assemble (f.assembleCommand config))
  have hemulated := hassembled.trans (grows_stage hstays hf.named (h.of_grows_self hf hassembled)
    .emulate (emulateCommand config))
  have hcourse := f.drive_course host config invoker (Scratch.keptPath host config f) w
  generalize f.drive host config invoker (Scratch.keptPath host config f) w = seen at hcourse ⊢
  cases hcourse with
  | halted => exact hcompiled
  | rejected => exact hcompiled
  | accepted => exact hcompiled
  | executed => exact hemulated

theorem create_eq_kept (hkeep : config.keepArtifacts = true) {t t' : Tree} {scratch : Scratch}
    (h : Scratch.create host config f t = (.ok scratch, t')) :
    scratch = .kept (Scratch.keptPath host config f) := by
  have hmade : ∀ t₀, Scratch.openKept.made host (Scratch.keptPath host config f) t₀ =
      (.ok scratch, t') → scratch = .kept (Scratch.keptPath host config f) := by
    intro t₀ h₀
    unfold Scratch.openKept.made at h₀
    split at h₀
    · cases h₀
    · cases h₀
      rfl
  unfold Scratch.create at h
  split at h
  · cases h
  · rw [if_pos hkeep] at h
    unfold Scratch.openKept at h
    split at h
    · split_ifs at h
      · exact hmade _ h
      · cases h
    · exact hmade _ h

-- A whole run of a fixture changes only its own directory, from where it stood when
-- the work directory was made.
theorem grows_run (hstays : StaysIn host invoker) (hkeep : config.keepArtifacts = true)
    (hf : f.Placed) (h : Footing host config work (Scratch.prepared host config w.files) f) :
    Grows (f.Under work) (Scratch.prepared host config w.files)
      (f.run host config invoker w).2.files := by
  have hcreated := h.grows_create hf.named hkeep
  unfold run
  split
  · rename_i hcreate
    rw [hcreate] at hcreated
    exact hcreated
  · rename_i scratch files hcreate
    rw [hcreate] at hcreated
    obtain rfl := create_eq_kept hkeep hcreate
    exact hcreated.trans (grows_drive hstays hf (h.of_grows_self hf hcreated))

theorem artifactDir_run (hkeep : config.keepArtifacts = true) {p : Path}
    (h : (f.run host config invoker w).1.artifactDir = some p) :
    p = Scratch.keptPath host config f := by
  unfold run at h
  split at h
  · cases h
  · rename_i hcreate
    obtain rfl := create_eq_kept hkeep hcreate
    exact (Option.some.inj h).symm

end Fixture

end Conformance
