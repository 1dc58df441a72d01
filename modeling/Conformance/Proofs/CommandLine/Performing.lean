import Conformance.CommandLine.Perform
import Conformance.Proofs.Console
import Conformance.Proofs.Files.Writing

namespace Conformance.CommandLine

section Steps

variable {σ α β : Type}

theorem run_bind (x : Performing σ α) (f : α → Performing σ β) (s : Terminal σ) :
    (x >>= f).run s = match x.run s with
      | (.ok a, s') => (f a).run s'
      | (.error e, s') => (.error e, s') := by
  have hbind : (x >>= f).run s = ExceptT.bindCont f (x.run s).1 (x.run s).2 := rfl
  rw [hbind]
  obtain ⟨_ | a, s'⟩ := x.run s <;> rfl

theorem run_bind_of_ok {x : Performing σ α} {f : α → Performing σ β} {s s' : Terminal σ} {a : α}
    (h : x.run s = (.ok a, s')) : (x >>= f).run s = (f a).run s' := by
  rw [run_bind, h]

theorem run_bind_of_error {x : Performing σ α} {f : α → Performing σ β} {s s' : Terminal σ}
    {e : Failure} (h : x.run s = (.error e, s')) : (x >>= f).run s = (.error e, s') := by
  rw [run_bind, h]

theorem bind_eq_ok {x : Performing σ α} {f : α → Performing σ β} {s s' : Terminal σ} {b : β}
    (h : (x >>= f).run s = (.ok b, s')) :
    ∃ a s₁, x.run s = (.ok a, s₁) ∧ (f a).run s₁ = (.ok b, s') := by
  rw [run_bind] at h
  split at h
  · rename_i a s₁ hx
    exact ⟨a, s₁, hx, h⟩
  · cases h

-- A sequence fails where its first step does, or behind it.
theorem bind_eq_error {x : Performing σ α} {f : α → Performing σ β} {s s' : Terminal σ}
    {e : Failure} (h : (x >>= f).run s = (.error e, s')) :
    x.run s = (.error e, s') ∨ ∃ a s₁, x.run s = (.ok a, s₁) ∧ (f a).run s₁ = (.error e, s') := by
  rw [run_bind] at h
  split at h
  · rename_i a s₁ hx
    exact .inr ⟨a, s₁, hx, h⟩
  · rename_i e' s₁ hx
    cases h
    exact .inl hx

theorem run_change (act : Tree → Except IoError α × Tree) (s : Terminal σ) :
    (change act).run s = ((act s.world.files).1.mapError .io,
      { s with world := { s.world with files := (act s.world.files).2 } }) :=
  rfl

theorem run_tellLine (texts : List String) (s : Terminal σ) :
    (tellLine texts).run s = ((s.err.putAll (texts.map .text)).1.mapError (.unheard "stderr"),
      { s with err := (s.err.putAll (texts.map .text)).2 }) :=
  rfl

end Steps

section Keeping

variable {σ α β γ ε : Type} {part : Terminal σ → γ}

-- A step that leaves some part of what there is as it was, whether or not it fails.
def Keeps (part : Terminal σ → γ) (x : Performing σ α) : Prop :=
  ∀ s, part (x.run s).2 = part s

theorem Keeps.bind {x : Performing σ α} {f : α → Performing σ β} (hx : Keeps part x)
    (hf : ∀ a, Keeps part (f a)) : Keeps part (x >>= f) := by
  intro s
  have hfirst := hx s
  rw [run_bind]
  split
  · rename_i a s₁ hrun
    rw [hrun] at hfirst
    rw [hf, ← hfirst]
  · rename_i e s₁ hrun
    rwa [hrun] at hfirst

theorem keeps_pure (a : α) : Keeps part (pure a : Performing σ α) :=
  fun _ => rfl

theorem keeps_throw (e : Failure) : Keeps part (throw e : Performing σ α) :=
  fun _ => rfl

theorem keeps_orFail (wrap : ε → Failure) (r : Except ε α) :
    Keeps part (orFail wrap r : Performing σ α) := by
  intro s
  cases r <;> rfl

theorem keeps_consult (wrap : IoError → Failure) (ask : Tree → Except IoError α) :
    Keeps part (consult wrap ask : Performing σ α) :=
  fun s => keeps_orFail wrap (ask s.world.files) s

theorem keeps_tellLine (texts : List String) :
    Keeps Terminal.world (tellLine texts : Performing σ Unit) :=
  fun _ => rfl

end Keeping

section Failing

variable {σ α β ε : Type} {P Q : Failure → Prop}

-- A step that fails in some ways only.
def FailsOnly (P : Failure → Prop) (x : Performing σ α) : Prop :=
  ∀ s e s', x.run s = (.error e, s') → P e

-- Failures of the checks that come before anything is done.
def Failure.IsCheck : Failure → Prop
  | .unreadable _ | .config _ | .catalog _ | .reportIsTwin _ => True
  | _ => False

-- Something could not be read or written or said.
def Failure.IsLoss : Failure → Prop
  | .io _ | .unheard _ _ => True
  | _ => False

def Failure.IsRun : Failure → Prop
  | .run _ => True
  | _ => False

theorem FailsOnly.mono {x : Performing σ α} (hx : FailsOnly P x) (h : ∀ e, P e → Q e) :
    FailsOnly Q x :=
  fun s e s' hrun => h e (hx s e s' hrun)

theorem FailsOnly.bind {x : Performing σ α} {f : α → Performing σ β} (hx : FailsOnly P x)
    (hf : ∀ a, FailsOnly P (f a)) : FailsOnly P (x >>= f) := by
  intro s e s' h
  rcases bind_eq_error h with hfailed | ⟨a, s₁, -, hrest⟩
  · exact hx s e s' hfailed
  · exact hf a s₁ e s' hrest

theorem failsOnly_pure (a : α) : FailsOnly P (pure a : Performing σ α) :=
  fun _ _ _ => nofun

theorem failsOnly_tellLine (texts : List String) :
    FailsOnly Failure.IsLoss (tellLine texts : Performing σ Unit) := by
  intro s e s' h
  rw [run_tellLine] at h
  cases hput : (s.err.putAll (texts.map .text)).1 <;> rw [hput] at h <;> cases h
  trivial

theorem failsOnly_orFail {wrap : ε → Failure} {r : Except ε α}
    (hwrap : ∀ e, r = .error e → P (wrap e)) : FailsOnly P (orFail wrap r : Performing σ α) := by
  intro s e s' h
  cases r with
  | ok a => cases h
  | error cause =>
      cases h
      exact hwrap cause rfl

theorem failsOnly_consult {wrap : IoError → Failure} (hwrap : ∀ e, P (wrap e))
    (ask : Tree → Except IoError α) : FailsOnly P (consult wrap ask : Performing σ α) :=
  fun s => failsOnly_orFail (fun e _ => hwrap e) s

theorem failsOnly_change (act : Tree → Except IoError α × Tree) :
    FailsOnly Failure.IsLoss (change act : Performing σ α) := by
  intro s e s' h
  rw [run_change] at h
  cases hact : (act s.world.files).1 <;> rw [hact] at h <;> cases h
  trivial

theorem failsOnly_openFile (host : Host) (path : Path) :
    FailsOnly Failure.IsLoss (openFile host path : Performing σ Place) :=
  (failsOnly_change _).bind fun _ => failsOnly_change _

theorem failsOnly_writeFile (host : Host) (path : Path) (text : String) :
    FailsOnly Failure.IsLoss (writeFile host path text : Performing σ Unit) :=
  (failsOnly_openFile host path).bind fun _ => failsOnly_change _

theorem failsOnly_withArtifact (host : Host) (index : Log.ArtifactIndex) (path : Path)
    (kind : String) :
    FailsOnly Failure.IsLoss (withArtifact host index path kind : Performing σ Log.ArtifactIndex) :=
  failsOnly_consult (fun _ => trivial) _

end Failing

section Files

variable {σ : Type} {s s' : Terminal σ} {host : Host} {path : Path}

theorem orFail_eq_ok {α ε : Type} {wrap : ε → Failure} {r : Except ε α} {a : α}
    (h : (orFail wrap r : Performing σ α).run s = (.ok a, s')) : r = .ok a ∧ s' = s := by
  cases r with
  | error e => cases h
  | ok a' =>
      cases h
      exact ⟨rfl, rfl⟩

theorem tellLine_eq_ok_iff {texts : List String} {u : Unit} :
    (tellLine texts).run s = (.ok u, s') ↔
      Console.Took (texts.map .text) s.err s'.err ∧ s' = { s with err := s'.err } := by
  rw [run_tellLine, ← Console.putAll_eq_ok_iff]
  rcases s.err.putAll (texts.map .text) with ⟨_ | _, c⟩
  · exact ⟨nofun, fun h => nomatch h.1⟩
  · constructor
    · rintro ⟨⟩
      exact ⟨rfl, rfl⟩
    · rintro ⟨hput, hs⟩
      cases hput
      rw [hs]
      rfl

theorem consult_eq_ok {α : Type} {wrap : IoError → Failure} {ask : Tree → Except IoError α} {a : α}
    (h : (consult wrap ask).run s = (.ok a, s')) : ask s.world.files = .ok a ∧ s' = s :=
  orFail_eq_ok h

theorem change_eq_ok {α : Type} {act : Tree → Except IoError α × Tree} {a : α}
    (h : (change act).run s = (.ok a, s')) :
    (act s.world.files).1 = .ok a ∧ (act s.world.files).2 = s'.world.files := by
  rw [run_change] at h
  obtain ⟨hresult, hstate⟩ := Prod.ext_iff.mp h
  refine ⟨?_, congrArg (fun s => s.world.files) hstate⟩
  cases hact : (act s.world.files).1 with
  | error e =>
      rw [hact] at hresult
      cases hresult
  | ok a' =>
      rw [hact] at hresult
      exact congrArg Except.ok (Except.ok.inj hresult)

theorem tools_of_change {α : Type} {act : Tree → Except IoError α × Tree} {a : α}
    (h : (change act).run s = (.ok a, s')) : s'.world.tools = s.world.tools := by
  rw [run_change] at h
  exact (congrArg (fun x => x.2.world.tools) h).symm

theorem wholly_eq_ok_iff {α : Type} {act : Tree → Except IoError (α × Tree)} {t t' : Tree}
    {a : α} : wholly act t = (.ok a, t') ↔ act t = .ok (a, t') := by
  unfold wholly
  cases act t with
  | error e => simp
  | ok done => simp [Prod.ext_iff]

-- A file is opened for writing with the directory it is in, and neither fails.
def Opens (host : Host) (path : Path) (place : Place) (t t' : Tree) : Prop :=
  (t.makeParent host.cwd path).1 = .ok () ∧
    (t.makeParent host.cwd path).2.openForWriting host.cwd path = .ok (place, t')

theorem Opens.wrote {place : Place} {t t' : Tree} (h : Opens host path place t t') :
    Tree.Wrote host.cwd path place [] t t' :=
  (Tree.wrote_openForWriting h.2).of_grows (Tree.grows_makeDirectories t host.cwd _ _)

theorem openFile_eq_ok {place : Place} (h : (openFile host path).run s = (.ok place, s')) :
    Opens host path place s.world.files s'.world.files := by
  obtain ⟨_, s₁, hparent, hopen⟩ := bind_eq_ok h
  obtain ⟨hmade, hfiles⟩ := change_eq_ok hparent
  refine ⟨hmade, ?_⟩
  rw [hfiles]
  exact wholly_eq_ok_iff.mp (Prod.ext (change_eq_ok hopen).1 (change_eq_ok hopen).2)

theorem fill_eq_ok {place : Place} {data : Text.Bytes} {t : Tree}
    (h : (host.fill place data t).1 = .ok ()) :
    data = [] ∧ (host.fill place data t).2 = t ∨
      (host.fill place data t).2 = t.writeAt place 0 data := by
  unfold Host.fill at h ⊢
  split at h
  · split at h
    · rename_i hdata
      rw [if_pos hdata]
      exact .inl ⟨hdata, rfl⟩
    · cases h
  · exact .inr rfl

theorem wrote_fill {place : Place} {data : Text.Bytes} {t t' : Tree}
    (hopen : Tree.Wrote host.cwd path place [] t t') (h : (host.fill place data t').1 = .ok ()) :
    Tree.Wrote host.cwd path place data t (host.fill place data t').2 := by
  rcases fill_eq_ok h with ⟨rfl, hsame⟩ | hwritten
  · rw [hsame]
    exact hopen
  · rw [hwritten]
    exact hopen.writeAt data

theorem writeFile_eq_ok {text : String} (h : (writeFile host path text).run s = (.ok (), s')) :
    ∃ place, Tree.Wrote host.cwd path place (Text.bytesOf text) s.world.files s'.world.files := by
  obtain ⟨place, s₁, hopen, hfill⟩ := bind_eq_ok h
  obtain ⟨hok, hfiles⟩ := change_eq_ok hfill
  rw [← hfiles]
  exact ⟨place, wrote_fill (openFile_eq_ok hopen).wrote hok⟩

end Files

end Conformance.CommandLine
