import Conformance.Proofs.Files.Steady

namespace Conformance

-- What stands at a place, but for the data of a file.
def Node.kind : Node → Node
  | .file _ executable => .file [] executable
  | node => node

namespace Tree

-- The root is a directory.
theorem ne_nil_of_node? {t : Tree} {place : Place} {executable : Bool}
    (h : t.node? place = none ∨ ∃ old, t.node? place = some (.file old executable)) :
    place ≠ [] := by
  rintro rfl
  rcases h with hnone | ⟨old, hfile⟩
  · cases hnone
  · cases hfile

-- Each place keeps its kind, and no link comes up.
def Keeps (t t' : Tree) : Prop :=
  ∀ q, (t'.node? q).map Node.kind = (t.node? q).map Node.kind ∨
    t.node? q = none ∧ ∀ target, t'.node? q ≠ some (.link target)

namespace Keeps

variable {t t' t'' : Tree} {q : Place}

theorem refl (t : Tree) : Keeps t t :=
  fun _ => .inl rfl

theorem node?_eq_directory (h : Keeps t t') (hq : t.node? q = some .directory) :
    t'.node? q = some .directory := by
  rcases h q with hkind | ⟨hnone, -⟩
  · rw [hq] at hkind
    obtain ⟨node, hnode, hdir⟩ := Option.map_eq_some_iff.mp hkind
    rw [hnode]
    cases node <;> cases hdir
    rfl
  · rw [hnone] at hq
    cases hq

theorem node?_eq_file (h : Keeps t t') {data : Text.Bytes} {executable : Bool}
    (hq : t.node? q = some (.file data executable)) :
    ∃ data', t'.node? q = some (.file data' executable) := by
  rcases h q with hkind | ⟨hnone, -⟩
  · rw [hq] at hkind
    obtain ⟨node, hnode, hfile⟩ := Option.map_eq_some_iff.mp hkind
    rw [hnode]
    cases node with
    | file data' executable' =>
        cases hfile
        exact ⟨data', rfl⟩
    | _ => cases hfile
  · rw [hnone] at hq
    cases hq

theorem node?_eq_link_iff (h : Keeps t t') {target : Path} :
    t'.node? q = some (.link target) ↔ t.node? q = some (.link target) := by
  have hlink : ∀ node : Option Node,
      node.map Node.kind = some (.link target) ↔ node = some (.link target) := by
    rintro (_ | node)
    · simp
    · cases node <;> simp [Node.kind]
  rcases h q with hkind | ⟨hnone, hnew⟩
  · rw [← hlink, hkind, hlink]
  · rw [hnone]
    exact iff_of_false (hnew target) nofun

theorem trans (h : Keeps t t') (h' : Keeps t' t'') : Keeps t t'' := by
  intro q
  rcases h q with hkind | ⟨hnone, hnew⟩
  · rcases h' q with hkind' | ⟨hnone', hnew'⟩
    · exact .inl (hkind'.trans hkind)
    · rw [hnone'] at hkind
      exact .inr ⟨Option.map_eq_none_iff.mp hkind.symm, hnew'⟩
  · exact .inr ⟨hnone, fun target => mt h'.node?_eq_link_iff.mp (hnew target)⟩

theorem of_grows (h : Grows (fun _ => False) t t') : Keeps t t' := by
  intro q
  rcases h q id with heq | ⟨hnone, hdir⟩
  · exact .inl (congrArg (Option.map Node.kind) heq)
  · refine .inr ⟨hnone, fun target => ?_⟩
    rw [hdir]
    exact nofun

-- A file may be made where there was none, and its data may be any.
theorem set_file {place : Place} {executable : Bool} (data : Text.Bytes)
    (h : t.node? place = none ∨ ∃ old, t.node? place = some (.file old executable)) :
    Keeps t (t.set place (.file data executable)) := by
  intro q
  rw [node?_set t place q (ne_nil_of_node? h)]
  split_ifs with hq
  · subst hq
    rcases h with hnone | ⟨old, hfile⟩
    · exact .inr ⟨hnone, nofun⟩
    · rw [hfile]
      exact .inl rfl
  · exact .inl rfl

-- A walk that came to an end comes to the same one.
theorem strides (h : Keeps t t') {follow : Bool} {here : Place} {steps : List String}
    {found : Place × Option (Path × List String)} (hs : t.Strides follow here steps found) :
    t'.Strides follow here steps found := by
  induction hs with
  | done here => exact .done here
  | last hdir hstep hlink hstays =>
      exact .last (h.node?_eq_directory hdir) hstep (h.node?_eq_link_iff.mpr hlink) hstays
  | link hdir hstep hlink hgoes =>
      exact .link (h.node?_eq_directory hdir) hstep (h.node?_eq_link_iff.mpr hlink) hgoes
  | pass hdir hstep hlink more ih =>
      exact .pass (h.node?_eq_directory hdir) hstep
        (fun target => mt h.node?_eq_link_iff.mp (hlink target)) ih

theorem walks (h : Keeps t t') {follow : Bool} {links : Nat} {here : Place}
    {steps : List String} (hw : t.Walks follow links here steps q) :
    t'.Walks follow links here steps q := by
  induction hw with
  | done hs => exact .done (h.strides hs)
  | link hs more ih => exact .link (h.strides hs) ih

theorem locate_eq (h : Keeps t t') {cwd : Place} {p : Path} (hp : t.locate cwd p = .ok q) :
    t'.locate cwd p = .ok q := by
  rw [locate_eq_ok_iff] at hp ⊢
  exact ⟨hp.1, (h.walks (.of_walk hp.2)).walk_eq_ok⟩

end Keeps

section SameFile

-- The place of the file that a path leads to.
def fileOf? (t : Tree) (cwd : Place) (p : Path) : Option Place :=
  match t.locate cwd p with
  | .error _ => none
  | .ok place =>
      match t.node? place with
      | some (.file _ _) => some place
      | _ => none

-- Two paths that lead to one file.
def SameFile (t : Tree) (cwd : Place) (p q : Path) : Prop :=
  (t.fileOf? cwd p).isSome ∧ t.fileOf? cwd p = t.fileOf? cwd q

instance (t : Tree) (cwd : Place) (p q : Path) : Decidable (t.SameFile cwd p q) :=
  inferInstanceAs (Decidable (_ ∧ _))

variable {t t' : Tree} {cwd place : Place} {p q : Path}

theorem fileOf?_eq_some_iff : t.fileOf? cwd p = some place ↔
    t.locate cwd p = .ok place ∧
      ∃ data executable, t.node? place = some (.file data executable) := by
  unfold fileOf?
  constructor
  · intro h
    split at h
    · cases h
    · rename_i found hfound
      split at h
      · rename_i data executable hfile
        cases h
        exact ⟨hfound, data, executable, hfile⟩
      · cases h
  · rintro ⟨hplace, data, executable, hfile⟩
    rw [hplace]
    dsimp only
    rw [hfile]

theorem sameFile_iff : t.SameFile cwd p q ↔
    ∃ place, t.fileOf? cwd p = some place ∧ t.fileOf? cwd q = some place := by
  rw [SameFile, Option.isSome_iff_exists]
  constructor
  · rintro ⟨⟨place, hplace⟩, heq⟩
    exact ⟨place, hplace, heq ▸ hplace⟩
  · rintro ⟨place, hp, hq⟩
    exact ⟨⟨place, hp⟩, hp.trans hq.symm⟩

theorem Keeps.fileOf?_eq (h : Keeps t t') (hp : t.fileOf? cwd p = some place) :
    t'.fileOf? cwd p = some place := by
  obtain ⟨hplace, data, executable, hfile⟩ := fileOf?_eq_some_iff.mp hp
  obtain ⟨data', hfile'⟩ := h.node?_eq_file hfile
  exact fileOf?_eq_some_iff.mpr ⟨h.locate_eq hplace, data', executable, hfile'⟩

theorem Keeps.sameFile (h : Keeps t t') (hsame : t.SameFile cwd p q) : t'.SameFile cwd p q := by
  obtain ⟨place, hp, hq⟩ := sameFile_iff.mp hsame
  exact sameFile_iff.mpr ⟨place, h.fileOf?_eq hp, h.fileOf?_eq hq⟩

end SameFile

-- At the end of a path there is a file with some data, or a device that took it.
def Holds (t : Tree) (cwd : Place) (p : Path) (data : Text.Bytes) : Prop :=
  ∃ place, t.locate cwd p = .ok place ∧
    ((∃ executable, t.node? place = some (.file data executable)) ∨
      ∃ kind, t.node? place = some (.device kind))

theorem overwritten_zero (old data : Text.Bytes) :
    overwritten old 0 data = data ++ old.drop data.length := by
  rw [overwritten, List.take_zero, Nat.zero_sub, List.replicate_zero, List.nil_append,
    List.nil_append, Nat.zero_add]

-- Data was written under a path, and nowhere else.
structure Wrote (cwd : Place) (p : Path) (place : Place) (data : Text.Bytes) (t t' : Tree) :
    Prop where
  keeps : Keeps t t'
  located : t'.locate cwd p = .ok place
  stands : (∃ executable, t'.node? place = some (.file data executable)) ∨
    ∃ kind, t'.node? place = some (.device kind)
  others : Grows (fun q => t'.fileOf? cwd p = some q) t t'

namespace Wrote

variable {t t' t'' : Tree} {cwd place : Place} {p q : Path} {data old more : Text.Bytes}

theorem holds (h : Wrote cwd p place data t t') : t'.Holds cwd p data :=
  ⟨place, h.located, h.stands⟩

-- Directories may be made before.
theorem of_grows (hgrows : Grows (fun _ => False) t t') (h : Wrote cwd p place data t' t'') :
    Wrote cwd p place data t t'' :=
  ⟨(Keeps.of_grows hgrows).trans h.keeps, h.located, h.stands,
    (hgrows.mono fun _ hq => hq.elim).trans h.others⟩

theorem set_file {executable : Bool} (hplace : t.locate cwd p = .ok place)
    (h : t.node? place = none ∨ ∃ old, t.node? place = some (.file old executable)) :
    Wrote cwd p place data t (t.set place (.file data executable)) := by
  have hne := ne_nil_of_node? h
  have hkeeps := Keeps.set_file data h
  have hfile : (t.set place (.file data executable)).node? place =
      some (.file data executable) := by
    rw [node?_set t place place hne, if_pos rfl]
  refine ⟨hkeeps, hkeeps.locate_eq hplace, .inl ⟨executable, hfile⟩, fun q hq => .inl ?_⟩
  rw [node?_set t place q hne, if_neg]
  rintro rfl
  exact hq (fileOf?_eq_some_iff.mpr ⟨hkeeps.locate_eq hplace, data, executable, hfile⟩)

theorem device {kind : Device} (hplace : t.locate cwd p = .ok place)
    (h : t.node? place = some (.device kind)) : Wrote cwd p place data t t :=
  ⟨.refl t, hplace, .inr ⟨kind, h⟩, .refl _ t⟩

theorem trans (h : Wrote cwd p place old t t') (h' : Wrote cwd p place data t' t'') :
    Wrote cwd p place data t t'' :=
  ⟨h.keeps.trans h'.keeps, h'.located, h'.stands,
    (h.others.mono fun _ hq => h'.keeps.fileOf?_eq hq).trans h'.others⟩

-- What is empty gets data from its start.
theorem writeAt (h : Wrote cwd p place [] t t') (data : Text.Bytes) :
    Wrote cwd p place data t (t'.writeAt place 0 data) := by
  refine h.trans ?_
  unfold Tree.writeAt
  rcases h.stands with ⟨executable, hfile⟩ | ⟨kind, hdevice⟩
  · rw [hfile]
    simp only [overwritten_zero, List.drop_nil, List.append_nil]
    exact set_file h.located (.inr ⟨[], hfile⟩)
  · rw [hdevice]
    exact device h.located hdevice

-- What another path leads to stays, unless it is the file that was written.
theorem node?_eq {source : Place} {node : Node} (h : Wrote cwd p place data t t')
    (hl : t.locate cwd q = .ok source) (hn : t.node? source = some node)
    (hapart : ¬t'.SameFile cwd q p) : t'.node? source = some node := by
  by_cases hgone : t'.fileOf? cwd p = some source
  · obtain ⟨-, hfile⟩ := fileOf?_eq_some_iff.mp hgone
    have hq := fileOf?_eq_some_iff.mpr ⟨h.keeps.locate_eq hl, hfile⟩
    exact absurd (sameFile_iff.mpr ⟨source, hq, hgone⟩) hapart
  · exact h.others.node?_eq_some hgone hn

-- What can be read under another path is read the same.
theorem readBytes_eq (h : Wrote cwd p place data t t') (hread : t.readBytes cwd q = .ok old)
    (hapart : ¬t'.SameFile cwd q p) : t'.readBytes cwd q = .ok old := by
  unfold readBytes at hread ⊢
  cases hl : t.locate cwd q with
  | error e =>
      rw [hl] at hread
      cases hread
  | ok source =>
      rw [hl] at hread
      rw [h.keeps.locate_eq hl]
      simp only [bind, Except.bind] at hread ⊢
      cases hn : t.node? source with
      | none =>
          rw [hn] at hread
          cases hread
      | some node =>
          rw [hn] at hread
          rw [h.node?_eq hl hn hapart]
          exact hread

-- What is held under another path is held still.
theorem holds_of_apart (h : Wrote cwd p place data t t') (hold : t.Holds cwd q old)
    (hapart : ¬t'.SameFile cwd q p) : t'.Holds cwd q old := by
  obtain ⟨source, hl, hstands⟩ := hold
  refine ⟨source, h.keeps.locate_eq hl, ?_⟩
  rcases hstands with ⟨executable, hfile⟩ | ⟨kind, hdevice⟩
  · exact .inl ⟨executable, h.node?_eq hl hfile hapart⟩
  · exact .inr ⟨kind, h.node?_eq hl hdevice hapart⟩

end Wrote

-- What is written is written under some paths, and what all others lead to stays.
structure WritesOnly (cwd : Place) (paths : List Path) (t t' : Tree) : Prop where
  keeps : Keeps t t'
  others : ∀ q data, t.readBytes cwd q = .ok data → (∀ p ∈ paths, ¬t'.SameFile cwd q p) →
    t'.readBytes cwd q = .ok data

namespace WritesOnly

variable {t t' t'' : Tree} {cwd : Place} {paths more : List Path}

theorem refl (cwd : Place) (t : Tree) : WritesOnly cwd [] t t :=
  ⟨.refl t, fun _ _ hread _ => hread⟩

theorem trans (h : WritesOnly cwd paths t t') (h' : WritesOnly cwd more t' t'') :
    WritesOnly cwd (paths ++ more) t t'' := by
  refine ⟨h.keeps.trans h'.keeps, fun q data hread hapart => ?_⟩
  refine h'.others q data (h.others q data hread fun p hp => ?_) fun p hp => ?_
  · exact mt h'.keeps.sameFile (hapart p (List.mem_append_left more hp))
  · exact hapart p (List.mem_append_right paths hp)

end WritesOnly

theorem Wrote.writesOnly {t t' : Tree} {cwd place : Place} {p : Path} {data : Text.Bytes}
    (h : Wrote cwd p place data t t') : WritesOnly cwd [p] t t' :=
  ⟨h.keeps, fun _ _ hread hapart => h.readBytes_eq hread (hapart p List.mem_cons_self)⟩

theorem readBytes_eq_of_node? {t : Tree} {cwd place : Place} {p : Path} {data : Text.Bytes}
    {executable : Bool} (hplace : t.locate cwd p = .ok place)
    (hfile : t.node? place = some (.file data executable)) (hslash : Path.endsWithSlash p = false) :
    t.readBytes cwd p = .ok data := by
  rw [readBytes, hplace]
  simp only [bind, Except.bind, hfile, hslash]
  rfl

-- What holds data and is a file can be read.
theorem Holds.readBytes_eq {t : Tree} {cwd : Place} {p : Path} {data : Text.Bytes}
    (h : t.Holds cwd p data) (hfile : (t.fileOf? cwd p).isSome = true)
    (hslash : Path.endsWithSlash p = false) : t.readBytes cwd p = .ok data := by
  obtain ⟨place, hplace, hstands⟩ := h
  obtain ⟨source, hsource⟩ := Option.isSome_iff_exists.mp hfile
  obtain ⟨hsource, old, executable, hold⟩ := fileOf?_eq_some_iff.mp hsource
  obtain rfl : source = place := by
    rw [hplace] at hsource
    exact (Except.ok.inj hsource).symm
  rcases hstands with ⟨executable', hnew⟩ | ⟨kind, hdevice⟩
  · exact readBytes_eq_of_node? hplace hnew hslash
  · rw [hdevice] at hold
    cases hold

-- What is written into a file from its start comes before all else.
theorem exists_of_node?_writeAt {t : Tree} {place : Place} {data new : Text.Bytes}
    {executable : Bool} (h : (t.writeAt place 0 data).node? place = some (.file new executable)) :
    ∃ rest, new = data ++ rest := by
  unfold writeAt at h
  split at h
  · rename_i old executable' hold
    rw [node?_set t place place (ne_nil_of_node? (.inr ⟨old, hold⟩)), if_pos rfl] at h
    cases h
    exact ⟨old.drop data.length, overwritten_zero old data⟩
  · rename_i hnot
    exact absurd h (hnot new executable)

theorem wrote_openForWriting {t t' : Tree} {cwd place : Place} {p : Path}
    (h : t.openForWriting cwd p = .ok (place, t')) : Wrote cwd p place [] t t' := by
  unfold openForWriting at h
  cases hl : t.locate cwd p with
  | error e =>
      rw [hl] at h
      cases h
  | ok found =>
      rw [hl] at h
      simp only [bind, Except.bind] at h
      split at h
      · cases h
      · rename_i data executable hfile
        split_ifs at h
        cases h
        exact .set_file hl (.inr ⟨data, hfile⟩)
      · rename_i kind hdevice
        cases h
        exact .device hl hdevice
      · cases h
      · rename_i hnone
        split_ifs at h
        cases h
        exact .set_file hl (.inl hnone)

end Tree

end Conformance
