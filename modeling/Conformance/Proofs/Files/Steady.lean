import Conformance.Proofs.Files.Walk

namespace Conformance

namespace Tree

-- The directories that a walk down some names goes through.
structure Passes (t : Tree) (base : Place) (names : List String) : Prop where
  directories : ∀ n < names.length, t.node? (base ++ names.take n) = some .directory
  short : ∀ name ∈ names, name.utf8ByteSize ≤ maxNameBytes

instance (t : Tree) (base : Place) (names : List String) : Decidable (t.Passes base names) :=
  decidable_of_iff
    ((∀ n < names.length, t.node? (base ++ names.take n) = some .directory) ∧
      ∀ name ∈ names, name.utf8ByteSize ≤ maxNameBytes)
    ⟨fun h => ⟨h.1, h.2⟩, fun h => ⟨h.directories, h.short⟩⟩

theorem Passes.cons_iff {t : Tree} {base : Place} {name : String} {rest : List String} :
    t.Passes base (name :: rest) ↔
      t.node? base = some .directory ∧ name.utf8ByteSize ≤ maxNameBytes ∧
        t.Passes (base ++ [name]) rest := by
  constructor
  · rintro ⟨hdir, hshort⟩
    refine ⟨?_, hshort name List.mem_cons_self, ?_, ?_⟩
    · simpa using hdir 0 (Nat.succ_pos rest.length)
    · intro n hn
      simpa using hdir (n + 1) (by simpa using hn)
    · exact fun name' hn => hshort name' (List.mem_cons_of_mem _ hn)
  · rintro ⟨hbase, hname, hdir, hshort⟩
    refine ⟨?_, ?_⟩
    · intro n hn
      cases n with
      | zero => simpa using hbase
      | succ n => simpa using hdir n (by simpa using hn)
    · intro name' hn
      rcases List.mem_cons.mp hn with rfl | hn
      · exact hname
      · exact hshort name' hn

theorem Passes.of_grows {gone : Place → Prop} {t t' : Tree} {base : Place} {names : List String}
    (h : t.Passes base names) (hgrows : Grows gone t t')
    (hgone : ∀ n < names.length, ¬gone (base ++ names.take n)) : t'.Passes base names :=
  ⟨fun n hn => hgrows.node?_eq_some (hgone n hn) (h.directories n hn), h.short⟩

theorem LinkFree.of_grows {gone : Place → Prop} {t t' : Tree} {base : Place} {names : List String}
    (h : t.LinkFree base names) (hgrows : Grows gone t t')
    (hgone : ∀ n < names.length, n ≠ 0 → ¬gone (descend base (names.take n))) :
    t'.LinkFree base names :=
  fun n hn hne target hlink => h n hn hne target (hgrows.node?_eq_link (hgone n hn hne) hlink)

variable (t : Tree)

theorem step_of_short {here : Place} {name : String} (hname : Path.IsOrdinary name)
    (h : name.utf8ByteSize ≤ maxNameBytes) : step here name = .ok (here ++ [name]) := by
  rw [step, if_neg hname.2.1, if_neg hname.2.2, if_neg (by omega)]

-- From directory to directory a walk goes straight down. At its end a link is in
-- the way only of a walk that follows it.
theorem strides_of_passes {follow : Bool} {base : Place} {names : List String}
    (hnames : ∀ name ∈ names, Path.IsOrdinary name) (h : t.Passes base names)
    (hend : follow = true → ∀ target, t.node? (base ++ names) ≠ some (.link target)) :
    t.Strides follow base names (base ++ names, none) := by
  induction names generalizing base with
  | nil =>
      rw [List.append_nil]
      exact .done base
  | cons name rest ih =>
      obtain ⟨hbase, hshort, hrest⟩ := Passes.cons_iff.mp h
      have hstep : step base name = .ok (base ++ [name]) :=
        step_of_short (hnames name List.mem_cons_self) hshort
      have hsplit : base ++ name :: rest = base ++ [name] ++ rest := by simp
      have hmore := fun name hn => hnames name (List.mem_cons_of_mem _ hn)
      by_cases hlink : ∃ target, t.node? (base ++ [name]) = some (.link target)
      · obtain ⟨target, htarget⟩ := hlink
        cases rest with
        | nil =>
            cases follow with
            | false => exact .last hbase hstep htarget rfl
            | true => exact absurd htarget (hend rfl target)
        | cons name' more =>
            rw [(Passes.cons_iff.mp hrest).1] at htarget
            cases htarget
      · rw [hsplit] at hend ⊢
        exact .pass hbase hstep (not_exists.mp hlink) (ih hmore hrest hend)

theorem passes_nil (base : Place) : t.Passes base [] :=
  ⟨fun n hn => absurd hn (Nat.not_lt_zero n), fun _ hn => absurd hn List.not_mem_nil⟩

theorem short_of_step {here next : Place} {name : String} (hname : Path.IsOrdinary name)
    (h : step here name = .ok next) :
    name.utf8ByteSize ≤ maxNameBytes ∧ next = here ++ [name] := by
  rw [step, if_neg hname.2.1, if_neg hname.2.2] at h
  split_ifs at h with hshort
  exact ⟨Nat.not_lt.mp hshort, (Except.ok.inj h).symm⟩

theorem passes_of_strides {base q : Place} {names : List String}
    (hnames : ∀ name ∈ names, Path.IsOrdinary name)
    (h : t.Strides false base names (q, none)) : t.Passes base names := by
  generalize hfound : (q, none) = found at h
  induction h with
  | done here => exact passes_nil t here
  | last hdir hstep hlink =>
      obtain ⟨hshort, -⟩ := short_of_step (hnames _ List.mem_cons_self) hstep
      exact Passes.cons_iff.mpr ⟨hdir, hshort, passes_nil t _⟩
  | link hdir hstep hlink hgoes => cases hfound
  | pass hdir hstep hlink more ih =>
      obtain ⟨hshort, rfl⟩ := short_of_step (hnames _ List.mem_cons_self) hstep
      exact Passes.cons_iff.mpr
        ⟨hdir, hshort, ih (fun name hn => hnames name (List.mem_cons_of_mem _ hn)) hfound⟩

theorem passes_of_walk {links : Nat} {base q : Place} {names : List String}
    (hnames : ∀ name ∈ names, Path.IsOrdinary name) (hfree : t.LinkFree base names)
    (h : t.walk false links base names = .ok q) : t.Passes base names :=
  passes_of_strides t hnames (strides_of_walk t hfree h)

-- What stands below a place.
def Below (base q : Place) : Prop :=
  base <+: q ∧ q ≠ base

theorem Below.of_prefix {base place q : Place} (h : Below base place) (hq : place <+: q) :
    Below base q := by
  refine ⟨h.1.trans hq, ?_⟩
  rintro rfl
  exact h.2 (hq.eq_of_length (Nat.le_antisymm hq.length_le h.1.length_le))

-- A path leads to a place whatever comes and goes below that place.
def Steady (cwd : Place) (p : Path) (base : Place) : Prop :=
  ∀ t', Grows (Below base) t t' → t'.resolve cwd p = .ok base

variable {t} {t' : Tree} {gone : Place → Prop} {cwd base : Place}

theorem Steady.resolve_eq {p : Path} (h : t.Steady cwd p base) : t.resolve cwd p = .ok base :=
  h t (.refl _ t)

theorem Steady.of_grows {p : Path} (h : t.Steady cwd p base) (hgrows : Grows gone t t')
    (hgone : ∀ q, gone q → Below base q) : t'.Steady cwd p base :=
  fun _ hmore => h _ ((hgrows.mono hgone).trans hmore)

-- A path straight down to a directory is steady.
theorem steady_of_passes {p : Path} (hnames : ∀ name ∈ names p, Path.IsOrdinary name)
    (hpasses : t.Passes (origin cwd p) (names p))
    (hend : t.node? (origin cwd p ++ names p) = some .directory) :
    t.Steady cwd p (origin cwd p ++ names p) := by
  intro t' hgrows
  have hkeep : ∀ q, q <+: origin cwd p ++ names p → ∀ node, t.node? q = some node →
      t'.node? q = some node := by
    intro q hq node hnode
    refine hgrows.node?_eq_some ?_ hnode
    rintro ⟨hbelow, hne⟩
    exact hne (hq.eq_of_length (Nat.le_antisymm hq.length_le hbelow.length_le))
  have hpasses' : t'.Passes (origin cwd p) (names p) := by
    refine ⟨fun n hn => hkeep _ ?_ _ (hpasses.directories n hn), hpasses.short⟩
    exact List.prefix_append_right_inj _ |>.mpr (List.take_prefix n _)
  have hend' := hkeep _ (List.prefix_refl _) _ hend
  have hstrides : t'.Strides true (origin cwd p) (names p) (origin cwd p ++ names p, none) := by
    refine strides_of_passes t' hnames hpasses' fun _ target hlink => ?_
    rw [hend'] at hlink
    cases hlink
  exact (Walks.done hstrides).walk_eq_ok

-- The way to a place below a steady one stays open as long as the directories on
-- it stay.
theorem entry_join_of_grows {dir : Path} {names : List String} (hne : names ≠ [])
    (hnames : ∀ name ∈ names, Path.IsOrdinary name) (hsteady : t.Steady cwd dir base)
    (hfree : t.LinkFree base names) (hgrows : Grows gone t t')
    (hgone : ∀ q, gone q → Below base q) (hway : ∀ n < names.length, ¬gone (base ++ names.take n))
    {place : Place} (h : t.entry cwd (Path.join dir ("/".intercalate names)) = .ok place) :
    t'.entry cwd (Path.join dir ("/".intercalate names)) = .ok place := by
  have hpieces : ∀ name ∈ names, Path.IsPiece name := fun name hn => (hnames name hn).1
  obtain ⟨left, hentry⟩ := t.entry_join cwd dir hne hpieces
  obtain ⟨left', hentry'⟩ := t'.entry_join cwd dir hne hpieces
  have hplace := entry_join_linkFree t hne hpieces hsteady.resolve_eq hfree h
  rw [descend_ordinary base hnames] at hplace
  rw [hentry, hsteady.resolve_eq] at h
  rw [hentry', (hsteady.of_grows hgrows hgone).resolve_eq]
  cases hc : checkText (Path.join dir ("/".intercalate names)) with
  | error e =>
      rw [hc] at h
      cases h
  | ok _ =>
      rw [hc] at h
      have hpasses := passes_of_walk t hnames hfree h
      have hstrides : t'.Strides false base names (base ++ names, none) :=
        strides_of_passes t' hnames (hpasses.of_grows hgrows hway) nofun
      rw [hplace]
      exact (Walks.done hstrides).walk_eq_ok

end Tree

end Conformance
