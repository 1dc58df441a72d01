import Conformance.Proofs.Files.Walk
import Conformance.Proofs.Files.Writing
import Conformance.Proofs.Path.Parent

namespace Conformance

namespace Tree

variable {t t' : Tree} {cwd here place q : Place} {p : Path} {links : Nat}

section Dots

-- Where a walk stops at a link, it stops there without the dots as well, and has fewer of
-- them before it.
inductive SameStop : Place × Option (Path × List String) →
    Place × Option (Path × List String) → Prop
  | done (place : Place) : SameStop (place, none) (place, none)
  | link (place : Place) (target : Path) {xs ys : List String} (h : Undots xs ys) :
      SameStop (place, some (target, xs)) (place, some (target, ys))

-- Single dots only ask that there be a directory.
theorem strides_undots {xs ys : List String} (h : Undots xs ys)
    {found : Place × Option (Path × List String)} (hs : t.Strides true here xs found) :
    ∃ found', t.Strides true here ys found' ∧ SameStop found found' := by
  induction h generalizing here with
  | nil =>
      cases hs
      exact ⟨_, .done here, .done here⟩
  | @keep name xs ys h ih =>
      cases hs with
      | last hdir hstep hlink hstays => cases hstays
      | link hdir hstep hlink hgoes =>
          exact ⟨_, .link hdir hstep hlink fun _ => rfl, .link here _ h⟩
      | pass hdir hstep hlink more =>
          obtain ⟨found', hs', hsame⟩ := ih more
          exact ⟨found', .pass hdir hstep hlink hs', hsame⟩
  | @drop xs ys h ih =>
      cases hs with
      | last hdir hstep hlink hstays => cases hstays
      | link hdir hstep hlink hgoes =>
          cases hstep
          rw [hdir] at hlink
          cases hlink
      | pass hdir hstep hlink more =>
          cases hstep
          exact ih more

theorem walks_undots {xs ys : List String} (h : Undots xs ys)
    (hw : t.Walks true links here xs q) : t.Walks true links here ys q := by
  induction hw generalizing ys with
  | done hs =>
      obtain ⟨found', hs', hsame⟩ := strides_undots h hs
      cases hsame
      exact .done hs'
  | link hs more ih =>
      obtain ⟨found', hs', hsame⟩ := strides_undots h hs
      cases hsame with
      | link _ target hrest => exact .link hs' (ih (hrest.append_left _))

end Dots

section Last

-- Names that are gone through without a link under the last one being followed may stop
-- at this link, and are gone through alike otherwise.
theorem strides_unfollowed {steps : List String} {found : Place × Option (Path × List String)}
    (hs : t.Strides true here steps found) :
    t.Strides false here steps found ∨
      ∃ next target, t.Strides false here steps (next, none) ∧
        t.node? next = some (.link target) := by
  induction hs with
  | done here => exact .inl (.done here)
  | last hdir hstep hlink hstays => cases hstays
  | @link here next name target rest hdir hstep hlink hgoes =>
      by_cases hrest : rest = []
      · subst hrest
        exact .inr ⟨next, target, .last hdir hstep hlink rfl, hlink⟩
      · exact .inl (.link hdir hstep hlink fun hnone => absurd hnone hrest)
  | pass hdir hstep hlink more ih =>
      rcases ih with hsame | ⟨next, target, hs', htarget⟩
      · exact .inl (.pass hdir hstep hlink hsame)
      · exact .inr ⟨next, target, .pass hdir hstep hlink hs', htarget⟩

theorem exists_walks_unfollowed {steps : List String} (hw : t.Walks true links here steps q)
    (hq : t.node? q ≠ none) :
    ∃ place, t.Walks false links here steps place ∧ t.node? place ≠ none := by
  induction hw with
  | done hs =>
      rcases strides_unfollowed hs with hsame | ⟨next, target, hs', hlink⟩
      · exact ⟨_, .done hsame, hq⟩
      · exact ⟨next, .done hs', by simp [hlink]⟩
  | link hs more ih =>
      rcases strides_unfollowed hs with hsame | ⟨next, target, hs', hlink⟩
      · obtain ⟨place, hplace, hsome⟩ := ih hq
        exact ⟨place, .link hsame hplace, hsome⟩
      · exact ⟨next, .done hs', by simp [hlink]⟩

-- The last step of a walk is made in a directory.
theorem directory_of_walk_append {steps : List String} {last : String}
    (hw : t.Walks true links here (steps ++ [last]) q) :
    ∃ place, t.walk true links here steps = .ok place ∧ t.node? place = some .directory := by
  obtain ⟨left, hsplit⟩ := walk_append t true links here steps (List.cons_ne_nil last [])
  have hlast := hw.walk_eq_ok
  rw [hsplit] at hlast
  cases hplace : t.walk true links here steps with
  | error e =>
      rw [hplace] at hlast
      cases hlast
  | ok place =>
      rw [hplace] at hlast
      refine ⟨place, rfl, ?_⟩
      cases Walks.of_walk hlast with
      | done hs => exact hs.directory
      | link hs more => exact hs.directory

end Last

section Parents

-- What leads to a place leads through its parent, which is a directory.
theorem exists_parent_of_locate (h : t.locate cwd p = .ok q) {parent : Path}
    (hparent : Path.parent? p = some parent) (hne : parent ≠ "") :
    ∃ place, t.resolve cwd parent = .ok place ∧ t.node? place = some .directory := by
  have hw : t.Walks true maxLinks (origin cwd p) (names p) q :=
    .of_walk (locate_eq_ok_iff.mp h).2
  obtain ⟨habsolute, last, hundots⟩ := Path.exists_undots_of_parent? hparent hne
  have horigin : origin cwd parent = origin cwd p := by
    rw [origin, origin, habsolute]
  rw [resolve, horigin]
  exact directory_of_walk_append (walks_undots hundots hw)

theorem checkText_ne_notFound (hne : p ≠ "") : checkText p ≠ .error .notFound := by
  unfold checkText
  split_ifs <;> nofun

-- A directory that is there is not made again. A text that is no path fails otherwise than
-- one that leads to nothing.
theorem ensureDirectory_of_resolve (hplace : t.resolve cwd p = .ok place)
    (hdir : t.node? place = some .directory) (hne : p ≠ "") :
    t.ensureDirectory cwd p = .ok t ∨ ∃ e ≠ .notFound, t.ensureDirectory cwd p = .error e := by
  cases hc : checkText p with
  | error e =>
      refine .inr ⟨e, fun he => checkText_ne_notFound hne (he ▸ hc), ?_⟩
      simp [ensureDirectory, makeDirectory, entry, leadsToDirectory, locate, hc, bind, Except.bind]
  | ok _ =>
      left
      obtain ⟨q, hq, hsome⟩ : ∃ q, t.entry cwd p = .ok q ∧ t.node? q ≠ none := by
        rw [entry, hc]
        cases Path.endsWithSlash p with
        | true => exact ⟨place, hplace, by simp [hdir]⟩
        | false =>
            obtain ⟨q, hq, hsome⟩ := exists_walks_unfollowed (.of_walk hplace) (by simp [hdir])
            exact ⟨q, hq.walk_eq_ok, hsome⟩
      have hexists : t.makeDirectory cwd p = .error .alreadyExists := by
        rw [makeDirectory, hq]
        simp only [bind, Except.bind]
        split
        · rename_i hnone
          exact absurd hnone hsome
        · rfl
      have hleads : t.leadsToDirectory cwd p = true := by
        rw [leadsToDirectory, locate_eq_ok_iff.mpr ⟨hc, hplace⟩]
        exact decide_eq_true hdir
      rw [ensureDirectory, hexists]
      exact if_pos hleads

-- Where a path leads somewhere, the directory it is in need not be made.
theorem makeParent_of_locate (h : t.locate cwd p = .ok q) : (t.makeParent cwd p).2 = t := by
  unfold makeParent makeDirectories Path.ancestors
  by_cases hempty : (Path.parent? p).getD "" = ""
  · rw [hempty, makeChain, if_pos rfl]
  · obtain ⟨parent, hparent⟩ : ∃ parent, Path.parent? p = some parent := by
      cases hp : Path.parent? p with
      | none => exact absurd (by rw [hp]; rfl) hempty
      | some parent => exact ⟨parent, rfl⟩
    rw [hparent, Option.getD_some] at hempty ⊢
    obtain ⟨place, hplace, hdir⟩ := exists_parent_of_locate h hparent hempty
    rw [makeChain, if_neg hempty]
    rcases ensureDirectory_of_resolve hplace hdir hempty with hensure | ⟨e, hother, hensure⟩
    · rw [hensure]
    · rw [hensure]
      cases e with
      | notFound => exact absurd rfl hother
      | _ => rfl

end Parents

section Empty

-- Data that is there already makes no difference.
theorem node?_set_self {executable : Bool} {data : Text.Bytes}
    (h : t.node? place = some (.file data executable)) (q : Place) :
    (t.set place (.file data executable)).node? q = t.node? q := by
  rw [node?_set t place q (ne_nil_of_node? (.inr ⟨data, h⟩))]
  split_ifs with hq
  · rw [hq, h]
  · rfl

-- A file that is empty, or a device, is left as it is when it is opened.
theorem node?_openForWriting_of_holds (hholds : t.Holds cwd p [])
    (h : t.openForWriting cwd p = .ok (place, t')) (q : Place) : t'.node? q = t.node? q := by
  obtain ⟨found, hfound, ⟨executable, hfile⟩ | ⟨kind, hdevice⟩⟩ := hholds
  · rw [openForWriting, hfound] at h
    simp only [bind, Except.bind, hfile] at h
    split_ifs at h
    cases h
    exact node?_set_self hfile q
  · rw [openForWriting, hfound] at h
    simp only [bind, Except.bind, hdevice] at h
    cases h
    rfl

-- What one tree holds is held by any with the same nodes.
theorem Holds.of_node?_eq {data : Text.Bytes} (h : t.Holds cwd p data)
    (heq : ∀ q, t'.node? q = t.node? q) : t'.Holds cwd p data := by
  obtain ⟨place, hplace, hstands⟩ := h
  have hkeeps : Keeps t t' := fun q => .inl (congrArg _ (heq q))
  exact ⟨place, hkeeps.locate_eq hplace, by rwa [heq]⟩

end Empty

end Tree

end Conformance
