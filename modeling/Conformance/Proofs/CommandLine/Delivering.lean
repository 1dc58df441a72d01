import Conformance.Proofs.CommandLine.Performing

namespace Conformance.CommandLine

section Files

variable {host : Host} {path : Path} {text : String} {texts more : List (Path × String)}
  {t t' t'' : Tree}

-- A text goes into a file as a whole.
def Delivers (host : Host) (path : Path) (text : String) (t t' : Tree) : Prop :=
  ∃ place opened, Opens host path place t opened ∧
    host.fill place (Text.bytesOf text) opened = (.ok (), t')

-- Some texts go into their files, one after the other.
def DeliversAll (host : Host) : List (Path × String) → Tree → Tree → Prop
  | [], t, t' => t' = t
  | (path, text) :: rest, t, t' =>
      ∃ between, Delivers host path text t between ∧ DeliversAll host rest between t'

theorem Delivers.wrote (h : Delivers host path text t t') :
    ∃ place, Tree.Wrote host.cwd path place (Text.bytesOf text) t t' := by
  obtain ⟨place, opened, hopens, hfill⟩ := h
  have hwrote := wrote_fill (t := t) hopens.wrote (congrArg Prod.fst hfill)
  rw [hfill] at hwrote
  exact ⟨place, hwrote⟩

namespace DeliversAll

theorem append_iff : DeliversAll host (texts ++ more) t t'' ↔
    ∃ t', DeliversAll host texts t t' ∧ DeliversAll host more t' t'' := by
  induction texts generalizing t with
  | nil => simp [DeliversAll]
  | cons first rest ih =>
      simp only [List.cons_append, DeliversAll, ih]
      constructor
      · rintro ⟨between, hfirst, t', hrest, hmore⟩
        exact ⟨t', ⟨between, hfirst, hrest⟩, hmore⟩
      · rintro ⟨t', ⟨between, hfirst, hrest⟩, hmore⟩
        exact ⟨between, hfirst, t', hrest, hmore⟩

theorem keeps (h : DeliversAll host texts t t') : Tree.Keeps t t' := by
  induction texts generalizing t with
  | nil =>
      cases h
      exact .refl _
  | cons first rest ih =>
      obtain ⟨between, hfirst, hrest⟩ := h
      obtain ⟨_, hwrote⟩ := hfirst.wrote
      exact hwrote.keeps.trans (ih hrest)

-- What is held under another path is held still.
theorem holds_of_apart {other : Path} {data : Text.Bytes} (h : DeliversAll host texts t t')
    (hold : t.Holds host.cwd other data)
    (hapart : ∀ x ∈ texts, ¬t'.SameFile host.cwd other x.1) : t'.Holds host.cwd other data := by
  induction texts generalizing t with
  | nil =>
      cases h
      exact hold
  | cons first rest ih =>
      obtain ⟨between, hfirst, hrest⟩ := h
      obtain ⟨_, hwrote⟩ := hfirst.wrote
      refine ih hrest (hwrote.holds_of_apart hold ?_) fun x hx =>
        hapart x (List.mem_cons_of_mem first hx)
      exact mt hrest.keeps.sameFile (hapart first List.mem_cons_self)

-- Each text is held in the end, when no later one went into its file.
theorem holds (h : DeliversAll host texts t t')
    (hapart : texts.Pairwise fun x y => ¬t'.SameFile host.cwd x.1 y.1) :
    ∀ x ∈ texts, t'.Holds host.cwd x.1 (Text.bytesOf x.2) := by
  induction texts generalizing t with
  | nil => nofun
  | cons first rest ih =>
      obtain ⟨between, hfirst, hrest⟩ := h
      obtain ⟨hlater, hapart⟩ := List.pairwise_cons.mp hapart
      obtain ⟨_, hwrote⟩ := hfirst.wrote
      intro x hx
      rcases List.mem_cons.mp hx with rfl | hx
      · exact hrest.holds_of_apart hwrote.holds hlater
      · exact ih hrest hapart x hx

end DeliversAll

end Files

section Meaning

variable {σ α β ε : Type} {R : World σ → α → World σ → Prop}

-- What a step can come to without a failure, and the world that it leaves then. It says nothing,
-- and it does not depend on what was said before.
def Means (x : Performing σ α) (R : World σ → α → World σ → Prop) : Prop :=
  ∀ s a s', x.run s = (.ok a, s') ↔ R s.world a s'.world ∧ s'.out = s.out ∧ s'.err = s.err

theorem Means.congr {x : Performing σ α} {Q : World σ → α → World σ → Prop} (hx : Means x R)
    (h : ∀ w a w', R w a w' ↔ Q w a w') : Means x Q :=
  fun s a s' => (hx s a s').trans (and_congr_left fun _ => h s.world a s'.world)

theorem Means.bind {x : Performing σ α} {f : α → Performing σ β}
    {Q : α → World σ → β → World σ → Prop} (hx : Means x R) (hf : ∀ a, Means (f a) (Q a)) :
    Means (x >>= f) fun w b w' => ∃ a w₁, R w a w₁ ∧ Q a w₁ b w' := by
  intro s b s'
  constructor
  · intro hrun
    obtain ⟨a, s₁, hfirst, hrest⟩ := bind_eq_ok hrun
    obtain ⟨hR, hout, herr⟩ := (hx s a s₁).mp hfirst
    obtain ⟨hQ, hout', herr'⟩ := (hf a s₁ b s').mp hrest
    exact ⟨⟨a, s₁.world, hR, hQ⟩, hout'.trans hout, herr'.trans herr⟩
  · rintro ⟨⟨a, w₁, hR, hQ⟩, hout, herr⟩
    have hfirst := (hx s a { s with world := w₁ }).mpr ⟨hR, rfl, rfl⟩
    exact (run_bind_of_ok hfirst).trans ((hf a _ b s').mpr ⟨hQ, hout, herr⟩)

theorem means_pure (a : α) : Means (pure a : Performing σ α) fun w b w' => b = a ∧ w' = w := by
  intro s b s'
  constructor
  · rintro ⟨⟩
    exact ⟨⟨rfl, rfl⟩, rfl, rfl⟩
  · obtain ⟨world, out, err⟩ := s'
    rintro ⟨⟨rfl, hworld⟩, hout, herr⟩
    cases hworld
    cases hout
    cases herr
    rfl

theorem means_throw (e : Failure) : Means (throw e : Performing σ α) fun _ _ _ => False :=
  fun _ _ _ => iff_of_false nofun fun h => h.1

theorem means_orFail (wrap : ε → Failure) (r : Except ε α) :
    Means (orFail wrap r : Performing σ α) fun w a w' => r = .ok a ∧ w' = w := by
  cases r with
  | error e => exact (means_throw _).congr fun _ _ _ => by simp
  | ok found => exact (means_pure found).congr fun _ _ _ => by simp [eq_comm]

theorem means_consult (wrap : IoError → Failure) (ask : Tree → Except IoError α) :
    Means (consult wrap ask : Performing σ α) fun w a w' => ask w.files = .ok a ∧ w' = w :=
  fun s => means_orFail wrap (ask s.world.files) s

theorem means_change (act : Tree → Except IoError α × Tree) :
    Means (change act : Performing σ α) fun w a w' =>
      act w.files = (.ok a, w'.files) ∧ w'.tools = w.tools := by
  intro s a s'
  constructor
  · intro hrun
    refine ⟨⟨Prod.ext (change_eq_ok hrun).1 (change_eq_ok hrun).2, tools_of_change hrun⟩, ?_⟩
    rw [run_change] at hrun
    exact ⟨congrArg (fun x => x.2.out) hrun.symm, congrArg (fun x => x.2.err) hrun.symm⟩
  · obtain ⟨⟨files, tools⟩, out, err⟩ := s'
    rintro ⟨⟨hact, htools⟩, hout, herr⟩
    cases htools
    cases hout
    cases herr
    rw [run_change, hact]
    rfl

theorem means_openFile (host : Host) (path : Path) :
    Means (openFile host path : Performing σ Place) fun w place w' =>
      Opens host path place w.files w'.files ∧ w'.tools = w.tools := by
  refine ((means_change _).bind fun _ => means_change _).congr fun w place w' => ?_
  simp only [wholly_eq_ok_iff]
  constructor
  · rintro ⟨_, w₁, ⟨hmade, htools⟩, hopened, htools'⟩
    refine ⟨⟨congrArg Prod.fst hmade, ?_⟩, htools'.trans htools⟩
    rw [hmade]
    exact hopened
  · rintro ⟨⟨hmade, hopened⟩, htools⟩
    exact ⟨(), ⟨_, w.tools⟩, ⟨Prod.ext hmade rfl, rfl⟩, hopened, htools⟩

theorem means_writeFile (host : Host) (path : Path) (text : String) :
    Means (writeFile host path text : Performing σ Unit) fun w _ w' =>
      Delivers host path text w.files w'.files ∧ w'.tools = w.tools := by
  refine ((means_openFile host path).bind fun _ => means_change _).congr fun w _ w' => ?_
  constructor
  · rintro ⟨place, w₁, ⟨hopens, htools⟩, hfill, htools'⟩
    exact ⟨⟨place, w₁.files, hopens, hfill⟩, htools'.trans htools⟩
  · rintro ⟨⟨place, opened, hopens, hfill⟩, htools⟩
    exact ⟨place, ⟨opened, w.tools⟩, ⟨hopens, rfl⟩, hfill, htools⟩

end Meaning

-- What is said on the two streams of a terminal.
structure Said where
  out : List Output := []
  err : List Output := []

namespace Said

-- One thing is said behind the other.
def andThen (first more : Said) : Said :=
  ⟨first.out ++ more.out, first.err ++ more.err⟩

-- All of it gets out.
structure Told {σ : Type} (said : Said) (s s' : Terminal σ) : Prop where
  out : Console.Took said.out s.out s'.out
  err : Console.Took said.err s.err s'.err

theorem told_nothing_iff {σ : Type} {s s' : Terminal σ} :
    Told {} s s' ↔ s'.out = s.out ∧ s'.err = s.err := by
  rw [← Console.took_nil_iff, ← Console.took_nil_iff]
  exact ⟨fun h => ⟨h.out, h.err⟩, fun h => ⟨h.1, h.2⟩⟩

theorem Told.andThen {σ : Type} {first more : Said} {s s₁ s' : Terminal σ} (h : first.Told s s₁)
    (h' : more.Told s₁ s') : (first.andThen more).Told s s' :=
  ⟨Console.took_append_iff.mpr ⟨_, h.out, h'.out⟩, Console.took_append_iff.mpr ⟨_, h.err, h'.err⟩⟩

-- In between there is any world.
theorem Told.split {σ : Type} {first more : Said} {s s' : Terminal σ}
    (h : (first.andThen more).Told s s') (w : World σ) :
    ∃ s₁, s₁.world = w ∧ first.Told s s₁ ∧ more.Told s₁ s' := by
  obtain ⟨out, hout, hout'⟩ := Console.took_append_iff.mp h.out
  obtain ⟨err, herr, herr'⟩ := Console.took_append_iff.mp h.err
  exact ⟨⟨w, out, err⟩, rfl, ⟨hout, herr⟩, hout', herr'⟩

end Said

section Saying

variable {σ α β : Type} {R : World σ → α → World σ → Prop}
  {S S' : World σ → α → Said → World σ → Prop}

-- What a step can come to without a failure that says something on its way, all of which gets
-- out then.
def Speaks (x : Performing σ α) (S : World σ → α → Said → World σ → Prop) : Prop :=
  ∀ s a s', x.run s = (.ok a, s') ↔ ∃ said, S s.world a said s'.world ∧ said.Told s s'

theorem Speaks.congr {x : Performing σ α} (hx : Speaks x S)
    (h : ∀ w a said w', S w a said w' ↔ S' w a said w') : Speaks x S' :=
  fun s a s' => (hx s a s').trans (exists_congr fun said => and_congr_left fun _ =>
    h s.world a said s'.world)

theorem Means.speaks {x : Performing σ α} (hx : Means x R) :
    Speaks x fun w a said w' => R w a w' ∧ said = {} := by
  intro s a s'
  rw [hx, ← Said.told_nothing_iff]
  constructor
  · rintro ⟨hR, htold⟩
    exact ⟨{}, ⟨hR, rfl⟩, htold⟩
  · rintro ⟨_, ⟨hR, rfl⟩, htold⟩
    exact ⟨hR, htold⟩

theorem Speaks.bind {x : Performing σ α} {f : α → Performing σ β}
    {Q : α → World σ → β → Said → World σ → Prop} (hx : Speaks x S) (hf : ∀ a, Speaks (f a) (Q a)) :
    Speaks (x >>= f) fun w b said w' => ∃ a w₁ first more, S w a first w₁ ∧ Q a w₁ b more w' ∧
      said = first.andThen more := by
  intro s b s'
  constructor
  · intro hrun
    obtain ⟨a, s₁, hfirst, hrest⟩ := bind_eq_ok hrun
    obtain ⟨first, hS, htold⟩ := (hx s a s₁).mp hfirst
    obtain ⟨more, hQ, htold'⟩ := (hf a s₁ b s').mp hrest
    exact ⟨_, ⟨a, s₁.world, first, more, hS, hQ, rfl⟩, htold.andThen htold'⟩
  · rintro ⟨_, ⟨a, w₁, first, more, hS, hQ, rfl⟩, htold⟩
    obtain ⟨s₁, rfl, hfirst, hmore⟩ := htold.split w₁
    have hrun := (hx s a s₁).mpr ⟨first, hS, hfirst⟩
    exact (run_bind_of_ok hrun).trans ((hf a s₁ b s').mpr ⟨more, hQ, hmore⟩)

-- A step that says nothing before one that says something.
theorem Means.bind_speaks {x : Performing σ α} {f : α → Performing σ β}
    {Q : α → World σ → β → Said → World σ → Prop} (hx : Means x R) (hf : ∀ a, Speaks (f a) (Q a)) :
    Speaks (x >>= f) fun w b said w' => ∃ a w₁, R w a w₁ ∧ Q a w₁ b said w' := by
  refine (hx.speaks.bind hf).congr fun w b said w' => ?_
  constructor
  · rintro ⟨a, w₁, _, more, ⟨hR, rfl⟩, hQ, rfl⟩
    exact ⟨a, w₁, hR, hQ⟩
  · rintro ⟨a, w₁, hR, hQ⟩
    exact ⟨a, w₁, {}, said, ⟨hR, rfl⟩, hQ, rfl⟩

-- A step that says nothing behind one that says something.
theorem Speaks.bind_means {x : Performing σ α} {f : α → Performing σ β}
    {Q : α → World σ → β → World σ → Prop} (hx : Speaks x S) (hf : ∀ a, Means (f a) (Q a)) :
    Speaks (x >>= f) fun w b said w' => ∃ a w₁, S w a said w₁ ∧ Q a w₁ b w' := by
  refine (hx.bind fun a => (hf a).speaks).congr fun w b said w' => ?_
  have hsame (first : Said) : first.andThen {} = first := by simp [Said.andThen]
  constructor
  · rintro ⟨a, w₁, first, _, hS, ⟨hQ, rfl⟩, rfl⟩
    exact ⟨a, w₁, by rwa [hsame], hQ⟩
  · rintro ⟨a, w₁, hS, hQ⟩
    exact ⟨a, w₁, said, {}, hS, ⟨hQ, rfl⟩, (hsame said).symm⟩

theorem speaks_tellLine (texts : List String) : Speaks (tellLine texts : Performing σ Unit)
    fun w _ said w' => w' = w ∧ said = { err := texts.map .text } := by
  intro s a s'
  rw [tellLine_eq_ok_iff]
  obtain ⟨world, out, err⟩ := s'
  constructor
  · rintro ⟨htook, hs⟩
    cases hs
    exact ⟨_, ⟨rfl, rfl⟩, Console.took_nil_iff.mpr rfl, htook⟩
  · rintro ⟨_, ⟨hworld, rfl⟩, htold⟩
    cases hworld
    cases Console.took_nil_iff.mp htold.out
    exact ⟨htold.err, rfl⟩

end Saying

end Conformance.CommandLine
