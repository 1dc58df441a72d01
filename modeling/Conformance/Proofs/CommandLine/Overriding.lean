import Conformance.Proofs.CommandLine.Indexing

namespace Conformance.CommandLine

open Json

namespace RunArguments

-- Configurations that differ only where the arguments bring a value of their own.
structure Masks (a : RunArguments) (c c' : Config) : Prop where
  fixtureRoot : a.fixtureRoot = none → c.fixtureRoot = c'.fixtureRoot
  compiler : a.compiler = none → c.toolchain.compiler = c'.toolchain.compiler
  assembler : a.assembler = none → c.toolchain.assembler = c'.toolchain.assembler
  emulator : a.emulator = none → c.toolchain.emulator = c'.toolchain.emulator
  sysroot : a.sysroot = none → c.toolchain.sysroot = c'.toolchain.sysroot
  emulateTimeoutMs : a.timeoutSecs = none → c.emulateTimeoutMs = c'.emulateTimeoutMs
  workDir : a.workDir = none → c.workDir = c'.workDir
  rest : c' = { c with
    fixtureRoot := c'.fixtureRoot
    toolchain := { c.toolchain with
      compiler := c'.toolchain.compiler
      assembler := c'.toolchain.assembler
      emulator := c'.toolchain.emulator
      sysroot := c'.toolchain.sysroot }
    emulateTimeoutMs := c'.emulateTimeoutMs
    workDir := c'.workDir }

-- What a configuration that was decoded is refused for. It is checked as it stands in its
-- file, and once more with the arguments in their places.
def refusal (a : RunArguments) (c : Config) : Option ConfigFlaw :=
  c.flaw?.or (a.override c).flaw?

theorem getD_eq_getD {α : Type} {given : Option α} {x y : α} (h : given = none → x = y) :
    given.getD x = given.getD y := by
  cases given with
  | none => exact h rfl
  | some _ => rfl

theorem Masks.override_eq {a : RunArguments} {c c' : Config} (h : a.Masks c c') :
    a.override c = a.override c' := by
  have hdir : (a.workDir <|> c.workDir) = (a.workDir <|> c'.workDir) := by
    cases hgiven : a.workDir with
    | none => exact h.workDir hgiven
    | some _ => rfl
  have htimeout : (a.override c).emulateTimeoutMs = (a.override c').emulateTimeoutMs := by
    unfold override
    cases hgiven : a.timeoutSecs with
    | none => exact h.emulateTimeoutMs hgiven
    | some _ => rfl
  have hroot := getD_eq_getD h.fixtureRoot
  have hcompiler := getD_eq_getD h.compiler
  have hassembler := getD_eq_getD h.assembler
  have hemulator := getD_eq_getD h.emulator
  have hsysroot := getD_eq_getD h.sysroot
  -- the fields that no argument sets are the same in both
  obtain ⟨_, ⟨_, _, _, _, _, _, _, _, _, _⟩, _, _, _, _, _, _, _, _, _, _⟩ := c
  obtain ⟨_, ⟨_, _, _, _, _, _, _, _, _, _⟩, _, _, _, _, _, _, _, _, _, _⟩ := c'
  have hrest := h.rest
  simp only [Config.mk.injEq, Toolchain.mk.injEq, true_and] at hrest
  obtain ⟨⟨rfl, rfl, rfl, rfl, rfl, rfl⟩, rfl, rfl, rfl, rfl, rfl, rfl, rfl, rfl⟩ := hrest
  simp only [override] at htimeout
  simp only [override, hroot, hcompiler, hassembler, hemulator, hsysroot, htimeout, hdir]

end RunArguments

section Configured

variable {σ : Type} (station : Station σ) (a : RunArguments)

-- A run from where its configuration is settled.
def proceed (c : Config) : Performing σ Unit := do
  let host := station.host
  let report ← reportPaths a.report
  let catalog ← loadCatalog host a.catalog
  let runId := a.runId.getD station.defaultRunId
  tellLine ["Running WACC fixtures from ", c.fixtureRoot, " with ", c.toolchain.compiler, "\n"]
  let log ← a.log.mapM (openFile host)
  let done ← runSelected station c catalog a runId log
  let index ← indexLog host { runId := runId, generated := host.clock 0 } a.log
  let index ← writeReport host done index report
  writeIndex host index a.artifactIndex
  conclude a done

theorem run_eq_proceed : run station a = effectiveConfig station.host a >>= proceed station a :=
  rfl

-- The file of the configuration is not looked at again.
theorem proceed_config (config : Option Path) :
    proceed station { a with config } = proceed station a :=
  rfl

def Failure.IsConfig : Failure → Prop
  | .config _ => True
  | _ => False

theorem Failure.IsLoss.not_isConfig {e : Failure} (h : e.IsLoss) : ¬e.IsConfig := by
  cases e with
  | config _ => exact False.elim h
  | _ => exact id

theorem Failure.IsRun.not_isConfig {e : Failure} (h : e.IsRun) : ¬e.IsConfig := by
  cases e with
  | run _ => exact id
  | _ => exact False.elim h

theorem failsOnly_reportPaths_not_isConfig (path : Option Path) :
    FailsOnly (¬Failure.IsConfig ·) (reportPaths path : Performing σ (Option (Path × Path))) := by
  unfold reportPaths
  split
  · exact failsOnly_pure _
  · split
    · exact failsOnly_pure _
    · intro s e s' h
      cases h
      exact id

theorem failsOnly_loadCatalog_not_isConfig (host : Host) (path : Option Path) :
    FailsOnly (¬Failure.IsConfig ·) (loadCatalog host path : Performing σ Catalog) := by
  unfold loadCatalog
  split
  · exact failsOnly_pure _
  · exact (failsOnly_consult (fun _ => id) _).bind fun text => failsOnly_orFail fun _ _ => id

-- Nothing is refused for a configuration that is settled.
theorem failsOnly_proceed (c : Config) :
    FailsOnly (¬Failure.IsConfig ·) (proceed station a c) := by
  have hloss : ∀ e : Failure, e.IsLoss → ¬e.IsConfig := fun _ h => h.not_isConfig
  refine (failsOnly_reportPaths_not_isConfig _).bind fun report => ?_
  refine (failsOnly_loadCatalog_not_isConfig _ _).bind fun catalog => ?_
  refine ((failsOnly_tellLine _).mono hloss).bind fun _ => ?_
  refine ((failsOnly_openLog _ _).mono hloss).bind fun log => ?_
  refine ((failsOnly_runSelected station _ _ a _ _).mono fun _ h => h.not_isConfig).bind
    fun done => ?_
  refine ((failsOnly_indexLog _ _ _).mono hloss).bind fun index => ?_
  refine ((failsOnly_writeReport _ _ _ _).mono hloss).bind fun index => ?_
  refine ((failsOnly_writeIndex _ _ _).mono hloss).bind fun _ => ?_
  exact failsOnly_conclude a done hloss fun _ => id

end Configured

section Overridden

variable {σ : Type} {station : Station σ} {a : RunArguments} {s : Terminal σ} {path : Path}
  {text : String} {c : Config}

theorem run_effectiveConfig
    (hread : s.world.files.readText station.host.cwd path = .ok text)
    (hdecode : decodeText Config.layout.decode text = .ok c) :
    (effectiveConfig station.host { a with config := some path }).run s =
      match a.refusal c with
      | some flaw => (.error (.config (.flaw flaw)), s)
      | none => (((station.host.currentDirectory s.world.files).mapError .io).map
          (a.override c).resolve, s) := by
  have hload : (loadConfig station.host (some path)).run s =
      ((orFail .config c.checked : Performing σ Config).run s) := by
    have hconsult : (consult .unreadable fun t => t.readText station.host.cwd path :
        Performing σ String).run s = (.ok text, s) := by
      change (orFail .unreadable (s.world.files.readText station.host.cwd path) :
        Performing σ String).run s = _
      rw [hread]
      rfl
    rw [loadConfig, run_bind_of_ok hconsult, Config.ofJson, hdecode]
  unfold effectiveConfig RunArguments.refusal
  cases hown : c.flaw? with
  | some flaw =>
      rw [Config.checked, hown] at hload
      exact run_bind_of_error hload
  | none =>
      rw [Config.checked, hown] at hload
      rw [run_bind_of_ok hload]
      change (orFail .config (a.override c).checked >>= _ : Performing σ Config).run s = _
      unfold Config.checked
      cases (a.override c).flaw? with
      | some flaw => rfl
      | none =>
          change (orFail .io (station.host.currentDirectory s.world.files) >>= _ :
            Performing σ Config).run s = _
          cases station.host.currentDirectory s.world.files <;> rfl

-- A run is refused for its configuration as that stands in the file or under the arguments,
-- and goes on with the latter otherwise.
theorem run_of_refusal
    (hread : s.world.files.readText station.host.cwd path = .ok text)
    (hdecode : decodeText Config.layout.decode text = .ok c) :
    (run station { a with config := some path }).run s =
      match a.refusal c with
      | some flaw => (.error (.config (.flaw flaw)), s)
      | none => (orFail .io (station.host.currentDirectory s.world.files) >>= fun here =>
          proceed station a ((a.override c).resolve here)).run s := by
  have heffective := run_effectiveConfig (a := a) hread hdecode
  rw [run_eq_proceed, proceed_config]
  cases hrefusal : a.refusal c with
  | some flaw =>
      rw [hrefusal] at heffective
      exact run_bind_of_error heffective
  | none =>
      rw [hrefusal] at heffective
      rw [run_bind, heffective, run_bind]
      cases station.host.currentDirectory s.world.files <;> rfl

theorem refused_iff
    (hread : s.world.files.readText station.host.cwd path = .ok text)
    (hdecode : decodeText Config.layout.decode text = .ok c) (flaw : ConfigFlaw) :
    (∃ s', (run station { a with config := some path }).run s =
      (.error (.config (.flaw flaw)), s')) ↔ a.refusal c = some flaw := by
  rw [run_of_refusal hread hdecode]
  constructor
  · rintro ⟨s', h⟩
    cases hrefusal : a.refusal c with
    | some other =>
        rw [hrefusal] at h
        cases h
        rfl
    | none =>
        rw [hrefusal] at h
        have hfails : FailsOnly (¬Failure.IsConfig ·)
            (orFail .io (station.host.currentDirectory s.world.files) >>= fun here =>
              proceed station a ((a.override c).resolve here)) :=
          (failsOnly_orFail fun _ _ => id).bind fun here => failsOnly_proceed station a _
        exact absurd trivial (hfails s _ s' h)
  · intro hrefusal
    rw [hrefusal]
    exact ⟨s, rfl⟩

end Overridden

-- Two files that say the same but for what the arguments say: the configurations under the
-- arguments are one, and so the two runs are the same unless just one file is refused, or each
-- for another flaw. A file is refused also for a value that is not used.
theorem run_eq_run_iff {σ : Type} (station : Station σ) (a : RunArguments) (s : Terminal σ)
    (path path' : Path) (text text' : String) (c c' : Config)
    (hread : s.world.files.readText station.host.cwd path = .ok text)
    (hdecode : decodeText Config.layout.decode text = .ok c)
    (hread' : s.world.files.readText station.host.cwd path' = .ok text')
    (hdecode' : decodeText Config.layout.decode text' = .ok c') (hmasks : a.Masks c c') :
    a.override c = a.override c' ∧
    ((run station { a with config := some path }).run s =
        (run station { a with config := some path' }).run s ↔ a.refusal c = a.refusal c') ∧
    (∀ flaw, (∃ s', (run station { a with config := some path }).run s =
      (.error (.config (.flaw flaw)), s')) ↔ a.refusal c = some flaw) ∧
    (a.refusal c = none → (effectiveConfig station.host { a with config := some path }).run s =
      (((station.host.currentDirectory s.world.files).mapError .io).map
        (a.override c).resolve, s)) := by
  have hoverride := hmasks.override_eq
  refine ⟨hoverride, ⟨fun heq => ?_, fun heq => ?_⟩, refused_iff hread hdecode, fun hnone => ?_⟩
  · -- a flaw that one run is refused for is one that the other is refused for
    refine Option.ext fun flaw => ?_
    rw [← refused_iff hread hdecode, ← refused_iff hread' hdecode', heq]
  · rw [run_of_refusal hread hdecode, run_of_refusal hread' hdecode', heq, hoverride]
  · have heffective := run_effectiveConfig (a := a) hread hdecode
    rwa [hnone] at heffective

-- A configuration that says how long to wait for a program, and nothing else.
def timeoutText (millis : String) : String :=
  "\x7b\"emulate_timeout_ms\":" ++ millis ++ "\x7d"

-- Three of them, beside a catalog.
def threeConfigs : Terminal Unit :=
  { world := ⟨((catalogOnly.set ["slow.json"] (.file (Text.bytesOf (timeoutText "9000")) false)).set
      ["fast.json"] (.file (Text.bytesOf (timeoutText "7000")) false)).set
      ["never.json"] (.file (Text.bytesOf (timeoutText "0")) false), ()⟩ }

def fiveSeconds : RunArguments :=
  { catalog := some "k.json", timeoutSecs := some 5 }

theorem masks_fiveSeconds (m n : Nat) :
    fiveSeconds.Masks { emulateTimeoutMs := m } { emulateTimeoutMs := n } :=
  ⟨fun _ => rfl, fun _ => rfl, fun _ => rfl, fun _ => rfl, fun _ => rfl, nofun, fun _ => rfl, rfl⟩

-- How the files read, and what they say.
def Tells (s : Terminal Unit) (path : Path) (c : Config) : Prop :=
  ∃ text, s.world.files.readText [] path = .ok text ∧
    decodeText Config.layout.decode text = .ok c

theorem tells_threeConfigs :
    Tells threeConfigs "slow.json" { emulateTimeoutMs := 9000 } ∧
    Tells threeConfigs "fast.json" { emulateTimeoutMs := 7000 } ∧
    Tells threeConfigs "never.json" { emulateTimeoutMs := 0 } := by
  refine ⟨⟨timeoutText "9000", ?_, ?_⟩, ⟨timeoutText "7000", ?_, ?_⟩,
    ⟨timeoutText "0", ?_, ?_⟩⟩
  all_goals exact Log.eq_ok_of_toOption (by decide +kernel)

theorem run_eq_run_fiveSeconds :
    fiveSeconds.Masks { emulateTimeoutMs := 9000 } { emulateTimeoutMs := 7000 } ∧
    Tells threeConfigs "slow.json" { emulateTimeoutMs := 9000 } ∧
    Tells threeConfigs "fast.json" { emulateTimeoutMs := 7000 } ∧
    (run succeeding { fiveSeconds with config := some "slow.json" }).run threeConfigs =
      (run succeeding { fiveSeconds with config := some "fast.json" }).run threeConfigs ∧
    ¬∃ flaw s', (run succeeding { fiveSeconds with config := some "slow.json" }).run threeConfigs =
      (.error (.config (.flaw flaw)), s') := by
  obtain ⟨hslow, hfast, -⟩ := tells_threeConfigs
  obtain ⟨text, hread, hdecode⟩ := hslow
  obtain ⟨text', hread', hdecode'⟩ := hfast
  have hmasks := masks_fiveSeconds 9000 7000
  obtain ⟨-, hsame, hrefused, -⟩ := run_eq_run_iff succeeding fiveSeconds threeConfigs
    "slow.json" "fast.json" text text' _ _ hread hdecode hread' hdecode' hmasks
  refine ⟨hmasks, ⟨text, hread, hdecode⟩, ⟨text', hread', hdecode'⟩, hsame.mpr (by decide), ?_⟩
  rintro ⟨flaw, hflaw⟩
  have hnone : fiveSeconds.refusal { emulateTimeoutMs := 9000 } = none := by decide
  rw [(hrefused flaw).mp hflaw] at hnone
  cases hnone

-- The arguments say how long to wait, and one of two files is refused for what it says of that.
theorem masked_flaw_refused :
    fiveSeconds.Masks { emulateTimeoutMs := 0 } { emulateTimeoutMs := 7000 } ∧
    (fiveSeconds.override { emulateTimeoutMs := 0 }).flaw? = none ∧
    Tells threeConfigs "never.json" { emulateTimeoutMs := 0 } ∧
    Tells threeConfigs "fast.json" { emulateTimeoutMs := 7000 } ∧
    (run succeeding { fiveSeconds with config := some "never.json" }).run threeConfigs =
      (.error (.config (.flaw (.zeroTimeout "emulate_timeout_ms"))), threeConfigs) ∧
    reachesEnd ((run succeeding { fiveSeconds with config := some "fast.json" }).run
      threeConfigs).1 = true := by
  obtain ⟨-, hfast, hnever⟩ := tells_threeConfigs
  refine ⟨masks_fiveSeconds 0 7000, by decide, hnever, hfast, ?_, by decide +kernel⟩
  obtain ⟨text, hread, hdecode⟩ := hnever
  rw [run_of_refusal hread hdecode]
  rfl

end Conformance.CommandLine
