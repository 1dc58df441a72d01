import Conformance.Config.Json
import Conformance.Proofs.Json.Editing

namespace Conformance

open Json

variable {levels : Nat}

theorem recovers_optional {decoder : Decoder α} {f : α → Value} {x : Option α}
    (h : ∀ a ∈ x, decoder.Recovers levels (f a) a) (hnull : ∀ a, f a ≠ .null) :
    (Decoder.option decoder).Recovers levels (optional f x) x := by
  cases x with
  | none => exact Decoder.recovers_option_none decoder
  | some a => exact (h a rfl).option (hnull a)

namespace CompileCodes

-- Codes that fit the fields that hold them.
structure Fits (codes : CompileCodes) : Prop where
  accepted : IsInt32 codes.accepted
  syntaxRejected : IsInt32 codes.syntaxRejected
  semanticRejected : IsInt32 codes.semanticRejected

theorem fits_default : Fits {} :=
  ⟨by decide, by decide, by decide⟩

theorem fills_toValue {codes : CompileCodes} (h : codes.Fits) :
    layout.Fills levels codes.toValue codes :=
  .mk
    (.cons ⟨_, rfl, (Decoder.recovers_int32 h.accepted).map _⟩ <|
      .cons ⟨_, rfl, (Decoder.recovers_int32 h.syntaxRejected).map _⟩ <|
      .cons ⟨_, rfl, (Decoder.recovers_int32 h.semanticRejected).map _⟩ .nil)
    (by simp) rfl (by simp [Layout.Commuting]) (by simp) rfl

-- The codes edited in what carries nothing.
def Edits (codes : CompileCodes) : Value → Prop :=
  Edited layout (fun member => Reordered member.2) (toValue {}) codes.toValue

theorem reads_edits {codes : CompileCodes} (h : codes.Fits) :
    layout.decode.Reads codes.Edits codes :=
  (fills_toValue h : layout.Fills 0 _ _).reads_edited _ (fills_toValue fits_default)
    (by simp [layout, Field.defaulted])
    fun _ _ => Layout.Restores.carries

end CompileCodes

namespace Toolchain

theorem fills_toValue (t : Toolchain) : layout.Fills (levels + 1) t.toValue t :=
  .mk
    (.cons ⟨_, rfl, (Decoder.recovers_stringNamed _ t.compiler).map _⟩ <|
      .cons ⟨_, rfl, (Decoder.recovers_strings t.compilerArgs).map _⟩ <|
      .cons ⟨_, rfl, (Decoder.recovers_stringNamed _ t.checkOnlyFlag).map _⟩ <|
      .cons ⟨_, rfl, (Decoder.recovers_stringNamed _ t.assembler).map _⟩ <|
      .cons ⟨_, rfl, (Decoder.recovers_strings t.assemblerFlags).map _⟩ <|
      .cons ⟨_, rfl, (Decoder.recovers_stringNamed _ t.emulator).map _⟩ <|
      .cons ⟨_, rfl, (Decoder.recovers_stringNamed _ t.sysroot).map _⟩ <|
      .cons ⟨_, rfl, (Decoder.recovers_stringNamed _ t.binaryName).map _⟩ <|
      .cons ⟨_, rfl, (Decoder.recovers_stringNamed _ t.sourceExtension).map _⟩ <|
      .cons ⟨_, rfl, (Decoder.recovers_stringNamed _ t.assemblyExtension).map _⟩ .nil)
    (by simp) rfl (by simp [Layout.Commuting]) (by simp) rfl

def Edits (t : Toolchain) : Value → Prop :=
  Edited layout (fun member => Reordered member.2) (toValue {}) t.toValue

theorem reads_edits (t : Toolchain) : layout.decode.Reads t.Edits t :=
  (fills_toValue t : layout.Fills 1 _ _).reads_edited _ (fills_toValue {})
    (by simp [layout, Field.defaulted])
    fun _ _ => Layout.Restores.carries

end Toolchain

namespace Config

structure Fits (c : Config) : Prop where
  codes : c.codes.Fits
  emulateTimeoutMs : c.emulateTimeoutMs < wordLimit
  compileTimeoutMs : ∀ n ∈ c.compileTimeoutMs, n < wordLimit
  defaultExitCode : IsInt32 c.defaultExitCode
  diagnosticLimitBytes : c.diagnosticLimitBytes < wordLimit
  captureLimitBytes : c.captureLimitBytes < wordLimit

theorem fits_default : Fits {} :=
  ⟨CompileCodes.fits_default, by decide, nofun, by decide, by decide, by decide⟩

variable {c : Config}

theorem fills_toValue (h : c.Fits) : layout.Fills (levels + 2) c.toValue c := by
  have htimeout : (Decoder.option .nat64).Recovers (levels + 2)
      (optional .nat c.compileTimeoutMs) c.compileTimeoutMs :=
    recovers_optional (fun n hn => Decoder.recovers_natBelow _ (Nat.le_refl _)
      (h.compileTimeoutMs n hn)) fun _ => Value.noConfusion
  have hdir : (Decoder.option .path).Recovers (levels + 2) (optional .string c.workDir) c.workDir :=
    recovers_optional (fun dir _ => Decoder.recovers_stringNamed _ dir) fun _ => Value.noConfusion
  exact .mk
    (.cons ⟨_, rfl, (Decoder.recovers_stringNamed _ c.fixtureRoot).map _⟩ <|
      .cons ⟨_, rfl, ((Toolchain.fills_toValue c.toolchain).recovers _).map _⟩ <|
      .cons ⟨_, rfl, ((CompileCodes.fills_toValue h.codes).recovers _).map _⟩ <|
      .cons ⟨_, rfl, (Decoder.recovers_natBelow _ (Nat.le_refl _) h.emulateTimeoutMs).map _⟩ <|
      .cons ⟨_, rfl, htimeout.map _⟩ <|
      .cons ⟨_, rfl, (Decoder.recovers_int32 h.defaultExitCode).map _⟩ <|
      .cons ⟨_, rfl, (Decoder.recovers_bool c.frontEndOnly).map _⟩ <|
      .cons ⟨_, rfl, (Decoder.recovers_bool c.keepArtifacts).map _⟩ <|
      .cons ⟨_, rfl, hdir.map _⟩ <|
      .cons ⟨_, rfl, (Decoder.recovers_bool c.captureDiagnostics).map _⟩ <|
      .cons ⟨_, rfl,
        (Decoder.recovers_natBelow _ (Nat.le_refl _) h.diagnosticLimitBytes).map _⟩ <|
      .cons ⟨_, rfl, (Decoder.recovers_natBelow _ (Nat.le_refl _) h.captureLimitBytes).map _⟩ .nil)
    (by simp) rfl (by simp [Layout.Commuting]) (by simp) rfl

-- What may stand for a member: the two that are records may be edited themselves.
def MemberForm (c : Config) (member : String × Value) (v : Value) : Prop :=
  Reordered member.2 v ∨ (member = ("toolchain", c.toolchain.toValue) ∧ c.toolchain.Edits v) ∨
    (member = ("codes", c.codes.toValue) ∧ c.codes.Edits v)

def Edits (c : Config) : Value → Prop :=
  Edited layout c.MemberForm (toValue {}) c.toValue

theorem carries_memberForm (h : c.Fits) {member : String × Value} {u : Config → Config}
    (hrestores : layout.Restores 2 member u) : layout.Carries c.MemberForm member u := by
  have htools : layout.Carries (fun member v =>
      member = ("toolchain", c.toolchain.toValue) ∧ c.toolchain.Edits v) member u :=
    hrestores.carries_of_reads rfl ((Toolchain.fills_toValue c.toolchain).recovers _ :
      Toolchain.layout.decode.Recovers 2 _ _) (Toolchain.reads_edits c.toolchain)
  have hcodes : layout.Carries (fun member v =>
      member = ("codes", c.codes.toValue) ∧ c.codes.Edits v) member u :=
    hrestores.carries_of_reads rfl ((CompileCodes.fills_toValue h.codes).recovers _ :
      CompileCodes.layout.decode.Recovers 2 _ _) (CompileCodes.reads_edits h.codes)
  exact hrestores.carries.or (htools.or hcodes)

theorem reads_edits (h : c.Fits) : layout.decode.Reads c.Edits c :=
  (fills_toValue h : layout.Fills 2 _ _).reads_edited _ (fills_toValue fits_default)
    (by simp [layout, Field.defaulted]) fun _ _ => carries_memberForm h

theorem isExact_of_edits (h : c.Fits) {v : Value} (hedit : c.Edits v) :
    v.IsExact (levels + 3) := by
  refine Edited.isExact hedit ?_ ((fills_toValue h).recovers "").isExact
  rintro member w (hsame | ⟨rfl, hedit⟩ | ⟨rfl, hedit⟩) hexact
  · exact hsame.isExact hexact
  · exact Edited.isExact hedit (fun _ _ => Reordered.isExact) hexact
  · exact Edited.isExact hedit (fun _ _ => Reordered.isExact) hexact

theorem ofJson_of_decodeText {text : String} (h : decodeText layout.decode text = .ok c)
    (hvalid : c.flaw? = none) : ofJson text = .ok c := by
  rw [ofJson, h]
  simp only [checked, hvalid]

-- What is written of a valid configuration is read again as it is, also when it was edited
-- in what carries nothing.
theorem ofJson_of_edits (h : c.Fits) (hvalid : c.flaw? = none) : ofJson c.toJson = .ok c ∧
    ∀ v text, c.Edits v → v.SpelledBy text → ofJson text = .ok c := by
  have hrecovers : layout.decode.Recovers (124 + 3) c.toValue c := (fills_toValue h).recovers _
  refine ⟨ofJson_of_decodeText hrecovers.decodeText_pretty hvalid, ?_⟩
  intro v text hedit htext
  have hexact : v.IsExact (124 + 3) := isExact_of_edits h hedit
  exact ofJson_of_decodeText (decodeText_of_reads (reads_edits h) hedit hexact htext) hvalid

-- A time limit and one code that are not the default's, and a text that says nothing else of
-- the configuration.
def strict : Config :=
  { compileTimeoutMs := some 5, codes := { accepted := 7 } }

def strictValue : Value :=
  .object [
    ("note", .string "é"),
    ("compile_timeout_ms", .nat 5),
    ("codes", .object [("hint", .null), ("accepted", .int 7)])]

def strictText : String :=
  "\x7b\"note\":\"é\",\"compile_timeout_ms\":5," ++
  "\"codes\":\x7b\"hint\":null,\"accepted\":7\x7d\x7d"

theorem fits_strict : strict.Fits :=
  ⟨⟨by decide, by decide, by decide⟩, by decide, by decide, by decide, by decide, by decide⟩

theorem edits_strict : strict.Edits strictValue := by
  have hcodes : strict.codes.Edits (.object [("hint", .null), ("accepted", .int 7)]) := by
    have haligned : Aligned (fun member => Reordered member.2)
        [("accepted", .int 7)] [("accepted", .int 7)] :=
      .cons ⟨rfl, .number _⟩ .nil
    have hextra : ∀ member ∈ [("hint", Value.null)],
        CompileCodes.layout.field? member.1 = none ∧ member.2.IsPlain :=
      List.forall_mem_singleton.mpr ⟨rfl, .null⟩
    refine .mk (fun member => member.1 == "accepted") ?_ haligned hextra (List.reverse_perm _).symm
    simp [strict]
  have haligned : Aligned strict.MemberForm
      [("codes", strict.codes.toValue), ("compile_timeout_ms", .nat 5)]
      [("codes", .object [("hint", .null), ("accepted", .int 7)]),
        ("compile_timeout_ms", .nat 5)] :=
    .cons ⟨rfl, .inr (.inr ⟨rfl, hcodes⟩)⟩ (.cons ⟨rfl, .inl (.number _)⟩ .nil)
  have hextra : ∀ member ∈ [("note", Value.string "é")],
      layout.field? member.1 = none ∧ member.2.IsPlain :=
    List.forall_mem_singleton.mpr ⟨rfl, .string _⟩
  refine .mk (fun member => member.1 == "codes" || member.1 == "compile_timeout_ms") ?_ haligned
    hextra (List.reverse_perm _).symm
  simp [strict]

theorem spelledBy_strictText : strictValue.SpelledBy strictText := by
  have hexact : strictValue.IsExact 3 := isExact_of_edits fits_strict edits_strict
  have htext : strictValue.compact = strictText := by decide +kernel
  exact htext ▸ spelledBy_compact hexact

theorem ofJson_of_edits_strict : strict.Fits ∧ strict.flaw? = none ∧ strict.Edits strictValue ∧
    strictValue.SpelledBy strictText ∧ ofJson strict.toJson = .ok strict ∧
    ofJson strictText = .ok strict := by
  have hvalid : strict.flaw? = none := by decide
  obtain ⟨hown, hedited⟩ := ofJson_of_edits fits_strict hvalid
  exact ⟨fits_strict, hvalid, edits_strict, spelledBy_strictText, hown,
    hedited strictValue strictText edits_strict spelledBy_strictText⟩

end Config

end Conformance
