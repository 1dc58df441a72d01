import Conformance.Proofs.Files.Arrival
import Conformance.Proofs.Files.Growth
import Conformance.Proofs.Path.Names

namespace Conformance

namespace Tree

variable (t : Tree)

section Append

-- A walk breaks into two at any of its names. The first part follows a link at
-- its end, for the whole walk goes on behind it.
theorem stride_append (follow : Bool) (here : Place) (xs : List String) {ys : List String}
    (hys : ys ≠ []) :
    t.stride follow here (xs ++ ys) =
      match t.stride true here xs with
      | .error e => .error e
      | .ok (place, none) => t.stride follow place ys
      | .ok (place, some (target, rest)) => .ok (place, some (target, rest ++ ys)) := by
  induction xs generalizing here with
  | nil => simp [stride]
  | cons name rest ih =>
      rw [List.cons_append, stride, stride]
      cases t.checkDirectory here with
      | error e => rfl
      | ok _ =>
          simp only [bind, Except.bind]
          cases step here name with
          | error e => rfl
          | ok next =>
              dsimp only
              split
              · simp [hys]
              · exact ih next

theorem walk_append (follow : Bool) (links : Nat) (here : Place) (xs : List String)
    {ys : List String} (hys : ys ≠ []) :
    ∃ left, t.walk follow links here (xs ++ ys) = (do
      let place ← t.walk true links here xs
      t.walk follow left place ys) := by
  induction links generalizing here xs with
  | zero =>
      refine ⟨0, ?_⟩
      rw [walk_eq, stride_append t follow here xs hys, walk_eq t true]
      cases t.stride true here xs with
      | error e => rfl
      | ok found =>
          obtain ⟨place, _ | ⟨target, rest⟩⟩ := found
          · exact (walk_eq t follow 0 place ys).symm
          · rfl
  | succ links ih =>
      rw [walk_eq, stride_append t follow here xs hys, walk_eq t true]
      cases t.stride true here xs with
      | error e => exact ⟨0, rfl⟩
      | ok found =>
          obtain ⟨place, _ | ⟨target, rest⟩⟩ := found
          · exact ⟨links + 1, (walk_eq t follow (links + 1) place ys).symm⟩
          · dsimp only
            rw [← List.append_assoc]
            exact ih (origin place target) (Tree.names target ++ rest)

end Append

section LinkFree

-- Where some names lead when no link is among them.
def descend (base : Place) (names : List String) : Place :=
  names.foldl (fun here name =>
    if name = "." then here else if name = ".." then here.dropLast else here ++ [name]) base

theorem descend_cons (base : Place) (name : String) (rest : List String) :
    descend base (name :: rest) = descend (descend base [name]) rest :=
  rfl

theorem descend_ordinary (base : Place) {names : List String}
    (h : ∀ name ∈ names, Path.IsOrdinary name) : descend base names = base ++ names := by
  induction names generalizing base with
  | nil => simp [descend]
  | cons name rest ih =>
      have hname := h name List.mem_cons_self
      have hfirst : descend base [name] = base ++ [name] := by
        simp [descend, hname.2.1, hname.2.2]
      rw [descend_cons, hfirst, ih _ fun name' hn => h name' (List.mem_cons_of_mem _ hn),
        List.append_assoc, List.singleton_append]

theorem descend_take_ordinary (base : Place) {names : List String}
    (h : ∀ name ∈ names, Path.IsOrdinary name) (n : Nat) :
    descend base (names.take n) = base ++ names.take n :=
  descend_ordinary base fun name hn => h name (List.mem_of_mem_take hn)

-- On the way along some names, no link stands before the last one.
def LinkFree (base : Place) (names : List String) : Prop :=
  ∀ n < names.length, n ≠ 0 → ∀ target,
    t.node? (descend base (names.take n)) ≠ some (.link target)

-- On the way along a single name nothing stands in between.
theorem linkFree_singleton (base : Place) (name : String) : t.LinkFree base [name] := by
  intro n hn hne
  exact absurd (Nat.lt_one_iff.mp hn) hne

theorem LinkFree.tail {base : Place} {name : String} {rest : List String}
    (h : t.LinkFree base (name :: rest)) : t.LinkFree (descend base [name]) rest := by
  intro n hn hne target
  exact h (n + 1) (by simpa using hn) (by omega) target

theorem step_eq_descend {here next : Place} {name : String} (h : step here name = .ok next) :
    next = descend here [name] := by
  unfold step at h
  simp only [descend, List.foldl_cons, List.foldl_nil]
  split_ifs at h ⊢ <;> exact (Except.ok.inj h).symm

-- Without links a walk goes where its names say.
theorem strides_linkFree {base : Place} {names : List String} (hfree : t.LinkFree base names)
    {found : Place × Option (Path × List String)} (h : t.Strides false base names found) :
    found = (descend base names, none) := by
  induction h with
  | done here => rfl
  | last hdir hstep => rw [step_eq_descend hstep]
  | @link here next name target rest hdir hstep hlink hgoes =>
      -- only the last name may be that of a link
      have hrest : rest ≠ [] := fun hr => Bool.false_ne_true (hgoes hr)
      have hlen : 1 < (name :: rest).length := by
        simpa using List.length_pos_of_ne_nil hrest
      exact absurd (step_eq_descend hstep ▸ hlink) (hfree 1 hlen (by omega) target)
  | pass hdir hstep hlink more ih =>
      have hnext := step_eq_descend hstep
      rw [descend_cons, ← hnext]
      exact ih (hnext ▸ hfree.tail)

theorem strides_of_walk {links : Nat} {base q : Place} {names : List String}
    (hfree : t.LinkFree base names) (h : t.walk false links base names = .ok q) :
    t.Strides false base names (q, none) := by
  cases Walks.of_walk h with
  | done hs => exact hs
  | link hs more => cases strides_linkFree t hfree hs

theorem walk_linkFree {links : Nat} {base q : Place} {names : List String}
    (hfree : t.LinkFree base names) (h : t.walk false links base names = .ok q) :
    q = descend base names :=
  congrArg Prod.fst (strides_linkFree t hfree (strides_of_walk t hfree h))

end LinkFree

section Join

-- The place that a path leads to, whatever its text is.
def resolve (cwd : Place) (p : Path) : Except IoError Place :=
  t.walk true maxLinks (origin cwd p) (names p)

theorem locate_eq_ok_iff {t : Tree} {cwd q : Place} {p : Path} :
    t.locate cwd p = .ok q ↔ checkText p = .ok () ∧ t.resolve cwd p = .ok q := by
  unfold locate resolve
  cases checkText p with
  | error e => exact iff_of_false nofun fun h => nomatch h.1
  | ok _ => exact ⟨fun h => ⟨rfl, h⟩, fun h => h.2⟩

-- Behind a path, the names that are joined to it are looked up from where the
-- path leads, and a link under the last name is not followed.
theorem entry_join (cwd : Place) (dir : Path) {names : List String} (hne : names ≠ [])
    (hnames : ∀ name ∈ names, Path.IsPiece name) :
    ∃ left, t.entry cwd (Path.join dir ("/".intercalate names)) = (do
      checkText (Path.join dir ("/".intercalate names))
      let base ← t.resolve cwd dir
      t.walk false left base names) := by
  have hrelative := Path.isAbsolute_intercalate hnames
  have horigin : origin cwd (Path.join dir ("/".intercalate names)) = origin cwd dir := by
    rw [origin, origin, Path.isAbsolute_join dir hrelative]
  obtain ⟨left, hleft⟩ :=
    walk_append t false maxLinks (origin cwd dir) (Tree.names dir) hne
  refine ⟨left, ?_⟩
  rw [entry, Path.endsWithSlash_join dir hne hnames, horigin, names_join dir hrelative,
    names_intercalate hnames, hleft]
  rfl

theorem exists_resolve_of_entry_join {cwd q : Place} {dir : Path} {names : List String}
    (hne : names ≠ []) (hnames : ∀ name ∈ names, Path.IsPiece name)
    (h : t.entry cwd (Path.join dir ("/".intercalate names)) = .ok q) :
    ∃ base, t.resolve cwd dir = .ok base := by
  obtain ⟨left, hentry⟩ := t.entry_join cwd dir hne hnames
  rw [hentry] at h
  cases hc : checkText (Path.join dir ("/".intercalate names)) with
  | error e =>
      rw [hc] at h
      cases h
  | ok _ =>
      cases hr : t.resolve cwd dir with
      | error e =>
          rw [hc, hr] at h
          cases h
      | ok base => exact ⟨base, rfl⟩

theorem entry_join_linkFree {cwd base q : Place} {dir : Path} {names : List String}
    (hne : names ≠ []) (hnames : ∀ name ∈ names, Path.IsPiece name)
    (hdir : t.resolve cwd dir = .ok base) (hfree : t.LinkFree base names)
    (h : t.entry cwd (Path.join dir ("/".intercalate names)) = .ok q) : q = descend base names := by
  obtain ⟨left, hentry⟩ := t.entry_join cwd dir hne hnames
  rw [hentry] at h
  cases hc : checkText (Path.join dir ("/".intercalate names)) with
  | error e =>
      rw [hc] at h
      cases h
  | ok _ =>
      rw [hc, hdir] at h
      exact walk_linkFree t hfree h

end Join

end Tree

end Conformance
