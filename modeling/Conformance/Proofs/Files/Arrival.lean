import Conformance.Files.Tree
import Mathlib.Tactic.Conv
import Mathlib.Tactic.SplitIfs

namespace Conformance

namespace Tree

section Strides

variable {t : Tree} {follow : Bool} {here place : Place} {name : String} {names : List String}
  {found : Place × Option (Path × List String)}

theorem checkDirectory_eq_ok_iff : t.checkDirectory place = .ok () ↔
    t.node? place = some .directory := by
  unfold checkDirectory
  split <;> simp_all

-- How some names are gone through without an error, up to a link if there is one to be
-- followed.
inductive Strides (t : Tree) (follow : Bool) :
    Place → List String → Place × Option (Path × List String) → Prop
  | done (here : Place) : Strides t follow here [] (here, none)
  | last {here next : Place} {name : String} {target : Path}
      (hdir : t.node? here = some .directory) (hstep : step here name = .ok next)
      (hlink : t.node? next = some (.link target)) (hstays : follow = false) :
      Strides t follow here [name] (next, none)
  | link {here next : Place} {name : String} {target : Path} {rest : List String}
      (hdir : t.node? here = some .directory) (hstep : step here name = .ok next)
      (hlink : t.node? next = some (.link target)) (hgoes : rest = [] → follow = true) :
      Strides t follow here (name :: rest) (here, some (target, rest))
  | pass {here next : Place} {name : String} {rest : List String}
      {found : Place × Option (Path × List String)}
      (hdir : t.node? here = some .directory) (hstep : step here name = .ok next)
      (hlink : ∀ target, t.node? next ≠ some (.link target))
      (more : Strides t follow next rest found) : Strides t follow here (name :: rest) found

-- Each name is looked up in a directory.
theorem Strides.directory (h : t.Strides follow here (name :: names) found) :
    t.node? here = some .directory := by
  cases h <;> assumption

theorem Strides.of_stride (h : t.stride follow here names = .ok found) :
    t.Strides follow here names found := by
  induction names generalizing here with
  | nil =>
      cases h
      exact .done here
  | cons name rest ih =>
      rw [stride] at h
      cases hd : t.checkDirectory here with
      | error e =>
          rw [hd] at h
          cases h
      | ok _ =>
          have hdir := checkDirectory_eq_ok_iff.mp hd
          cases hstep : step here name with
          | error e =>
              rw [hd, hstep] at h
              cases h
          | ok next =>
              rw [hd, hstep] at h
              simp only [bind, Except.bind] at h
              split at h
              · rename_i target hlink
                split_ifs at h with hstays
                · cases h
                  obtain ⟨rfl, rfl⟩ : rest = [] ∧ follow = false := by simpa using hstays
                  exact .last hdir hstep hlink rfl
                · cases h
                  exact .link hdir hstep hlink (by simpa using hstays)
              · rename_i hlink
                exact .pass hdir hstep hlink (ih h)

theorem Strides.stride_eq_ok (h : t.Strides follow here names found) :
    t.stride follow here names = .ok found := by
  induction h with
  | done here => rfl
  | last hdir hstep hlink hstays =>
      rw [stride, checkDirectory_eq_ok_iff.mpr hdir]
      simp [bind, Except.bind, hstep, hlink, hstays]
  | link hdir hstep hlink hgoes =>
      rw [stride, checkDirectory_eq_ok_iff.mpr hdir]
      simpa [bind, Except.bind, hstep, hlink] using hgoes
  | pass hdir hstep hlink more ih =>
      rw [stride, checkDirectory_eq_ok_iff.mpr hdir]
      simp only [bind, Except.bind, hstep]
      exact ih

end Strides

section Walks

variable {t : Tree} {follow : Bool} {links : Nat} {here place : Place} {steps : List String}

theorem walk_eq (t : Tree) (follow : Bool) (links : Nat) (here : Place) (xs : List String) :
    t.walk follow links here xs =
      match t.stride follow here xs with
      | .error e => .error e
      | .ok (place, none) => .ok place
      | .ok (place, some (target, rest)) =>
          match links with
          | 0 => .error .tooManyLinks
          | links + 1 => t.walk follow links (origin place target) (Tree.names target ++ rest) := by
  conv_lhs => unfold walk
  cases t.stride follow here xs with
  | error e => rfl
  | ok found =>
      obtain ⟨place, _ | ⟨target, rest⟩⟩ := found
      · rfl
      · cases links <;> rfl

-- How a walk comes to a place, with fewer links left behind each that it follows.
inductive Walks (t : Tree) (follow : Bool) : Nat → Place → List String → Place → Prop
  | done {links : Nat} {here place : Place} {steps : List String}
      (h : t.Strides follow here steps (place, none)) : Walks t follow links here steps place
  | link {links : Nat} {here stop place : Place} {steps rest : List String} {target : Path}
      (h : t.Strides follow here steps (stop, some (target, rest)))
      (more : Walks t follow links (origin stop target) (Tree.names target ++ rest) place) :
      Walks t follow (links + 1) here steps place

theorem Walks.of_walk (h : t.walk follow links here steps = .ok place) :
    t.Walks follow links here steps place := by
  induction links generalizing here steps with
  | zero =>
      rw [walk_eq] at h
      split at h
      · cases h
      · rename_i hstride
        cases h
        exact .done (.of_stride hstride)
      · cases h
  | succ links ih =>
      rw [walk_eq] at h
      split at h
      · cases h
      · rename_i hstride
        cases h
        exact .done (.of_stride hstride)
      · rename_i hstride
        exact .link (.of_stride hstride) (ih h)

theorem Walks.walk_eq_ok (h : t.Walks follow links here steps place) :
    t.walk follow links here steps = .ok place := by
  induction h with
  | done h => rw [walk_eq, h.stride_eq_ok]
  | link h more ih =>
      rw [walk_eq, h.stride_eq_ok]
      exact ih

end Walks

end Tree

end Conformance
