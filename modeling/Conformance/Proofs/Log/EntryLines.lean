import Conformance.Log.Book
import Conformance.Proofs.Json.Recovering
import Conformance.Proofs.Log.VerdictLines
import Conformance.Proofs.Text.Lines

namespace Conformance.Log

open Json

namespace Entry

-- An entry without what a line could lose: its numbers fit their types, and its details
-- are exact and have their members by name.
structure Fits (e : Entry) : Prop where
  exitCode : ∀ code ∈ e.exitCode, -2147483648 ≤ code ∧ code ≤ 2147483647
  durationMs : ∀ n ∈ e.durationMs, n < wordLimit
  details : ∀ v ∈ e.details, v.IsExact (maxLevels - 1) ∧ v.normal = v ∧ v ≠ .null

-- Such an entry that has what its event asks for.
structure IsSound (e : Entry) : Prop extends e.Fits where
  verdict : e.event = "fixture_verdict" →
    e.fixture.isSome = true ∧ e.category.isSome = true ∧ e.outcome.isSome = true

-- A sound entry with a name of the right form.
structure IsExact (e : Entry) : Prop extends e.IsSound where
  traceId : Text.contains e.traceId "::" = true

theorem IsExact.fits {e : Entry} (h : e.IsExact) : e.Fits :=
  h.toIsSound.toFits

def members (e : Entry) : List (String × Value) :=
  [("timestamp", .string e.timestamp),
    ("trace_id", .string e.traceId),
    ("level", .string e.level.name),
    ("event", .string e.event)] ++
  present "run_id" .string e.runId ++
  present "category" Category.toValue e.category ++
  present "fixture" .string e.fixture ++
  present "stage" Stage.toValue e.stage ++
  present "outcome" (fun m => .string m.name) e.outcome ++
  present "exit_code" .int e.exitCode ++
  present "duration_ms" .nat e.durationMs ++
  present "artifact_refs" strings e.artifactRefs ++
  present "details" id e.details

theorem toValue_eq (e : Entry) : e.toValue = .object e.members :=
  rfl

theorem forall_mem_present {α : Type} {name : String} {f : α → Value} {x : Option α}
    {P : String × Value → Prop} :
    (∀ member ∈ present name f x, P member) ↔ ∀ a ∈ x, P (name, f a) := by
  cases x <;> simp [present]

theorem find?_present {α : Type} (name other : String) (f : α → Value) (x : Option α) :
    (present name f x).find? (fun member => member.1 = other) =
      if name = other then x.map fun a => (name, f a) else none := by
  cases x <;> by_cases h : name = other <;> simp [present, h]

variable {e : Entry}

-- What holds of a member for each field holds of all members.
theorem forall_mem_members {P : String × Value → Prop}
    (timestamp : P ("timestamp", .string e.timestamp))
    (traceId : P ("trace_id", .string e.traceId))
    (level : P ("level", .string e.level.name))
    (event : P ("event", .string e.event))
    (runId : ∀ a ∈ e.runId, P ("run_id", .string a))
    (category : ∀ a ∈ e.category, P ("category", a.toValue))
    (fixture : ∀ a ∈ e.fixture, P ("fixture", .string a))
    (stage : ∀ a ∈ e.stage, P ("stage", a.toValue))
    (outcome : ∀ a ∈ e.outcome, P ("outcome", .string a.name))
    (exitCode : ∀ a ∈ e.exitCode, P ("exit_code", .int a))
    (durationMs : ∀ a ∈ e.durationMs, P ("duration_ms", .nat a))
    (artifactRefs : ∀ a ∈ e.artifactRefs, P ("artifact_refs", strings a))
    (details : ∀ a ∈ e.details, P ("details", a)) : ∀ member ∈ e.members, P member := by
  simp only [members, List.forall_mem_append, List.forall_mem_cons, forall_mem_present]
  exact ⟨⟨⟨⟨⟨⟨⟨⟨⟨⟨timestamp, traceId, level, event, by simp⟩, runId⟩, category⟩, fixture⟩, stage⟩,
    outcome⟩, exitCode⟩, durationMs⟩, artifactRefs⟩, details⟩

theorem nodup_members (e : Entry) : (e.members.map Prod.fst).Nodup := by
  have hpresent : ∀ {α : Type} (name : String) (f : α → Value) (x : Option α),
      ((present name f x).map Prod.fst).Sublist [name] := by
    intro α name f x
    cases x <;> simp [present]
  have hall : (layout.fields.map Field.name).Nodup := by decide
  refine List.Nodup.sublist ?_ hall
  simp only [members, List.map_append]
  exact ((((((((List.Sublist.refl _).append (hpresent _ _ _)).append (hpresent _ _ _)).append
    (hpresent _ _ _)).append (hpresent _ _ _)).append (hpresent _ _ _)).append
    (hpresent _ _ _)).append (hpresent _ _ _)).append (hpresent _ _ _) |>.append (hpresent _ _ _)

theorem toValue_isExact (h : e.Fits) : e.toValue.IsExact maxLevels := by
  rw [toValue_eq]
  refine .object (forall_mem_members (.string _) (.string _) (.string _) (.string _)
    (fun _ _ => .string _) (fun _ _ => .string _) (fun _ _ => .string _) (fun _ _ => .string _)
    (fun _ _ => .string _) (fun code hcode => .number ?_) (fun n hn => .number ?_)
    (fun texts _ => .array fun v hv => ?_) fun v hv => (h.details v hv).1)
  · obtain ⟨hlow, hhigh⟩ := h.exitCode code hcode
    exact ⟨Int.le_trans (by decide) hlow, Int.lt_of_le_of_lt hhigh (by decide)⟩
  · exact ⟨by omega, Int.ofNat_lt.mpr (h.durationMs n hn)⟩
  · obtain ⟨text, -, rfl⟩ := List.mem_map.mp hv
    exact .string text

theorem normalItems_strings (texts : List String) :
    normalItems (texts.map .string) = texts.map .string := by
  induction texts with
  | nil => rfl
  | cons text rest ih => rw [List.map_cons, normalItems, ih]; rfl

theorem normal_toValue (h : e.Fits) : e.toValue.normal = .object (sorted e.members) := by
  have hmembers : ∀ member ∈ e.members, (member.1, member.2.normal) = member :=
    forall_mem_members rfl rfl rfl rfl (fun _ _ => rfl) (fun _ _ => rfl) (fun _ _ => rfl)
      (fun _ _ => rfl) (fun _ _ => rfl) (fun _ _ => rfl) (fun _ _ => rfl)
      (fun texts _ => congrArg (fun items => ("artifact_refs", Value.array items))
        (normalItems_strings texts))
      fun v hv => congrArg (Prod.mk "details") (h.details v hv).2.1
  rw [toValue_eq, Value.normal, normalMembers_eq_map, List.map_congr_left hmembers, List.map_id']

-- An entry of which only some fields were read.
def filled (e : Entry) (seen : List String) : Entry where
  timestamp := if "timestamp" ∈ seen then e.timestamp else ""
  traceId := if "trace_id" ∈ seen then e.traceId else ""
  level := if "level" ∈ seen then e.level else .trace
  event := if "event" ∈ seen then e.event else ""
  runId := if "run_id" ∈ seen then e.runId else none
  category := if "category" ∈ seen then e.category else none
  fixture := if "fixture" ∈ seen then e.fixture else none
  stage := if "stage" ∈ seen then e.stage else none
  outcome := if "outcome" ∈ seen then e.outcome else none
  exitCode := if "exit_code" ∈ seen then e.exitCode else none
  durationMs := if "duration_ms" ∈ seen then e.durationMs else none
  artifactRefs := if "artifact_refs" ∈ seen then e.artifactRefs else none
  details := if "details" ∈ seen then e.details else none

theorem filled_nil (e : Entry) : e.filled [] = layout.blank := by
  simp [filled, layout]

theorem filled_eq_self {seen : List String} (h : ∀ member ∈ e.members, member.1 ∈ seen) :
    e.filled seen = e := by
  have hpresent : ∀ {α : Type} (name : String) (f : α → Value) (x : Option α),
      (∀ member ∈ present name f x, member.1 ∈ seen) → (if name ∈ seen then x else none) = x := by
    intro α name f x hx
    cases x with
    | none => exact ite_self none
    | some a => exact if_pos (hx _ List.mem_cons_self)
  simp only [members, List.forall_mem_append, List.forall_mem_cons] at h
  obtain ⟨⟨⟨⟨⟨⟨⟨⟨⟨⟨htime, htrace, hlevel, hevent, -⟩, hrun⟩, hcategory⟩, hfixture⟩, hstage⟩,
    houtcome⟩, hcode⟩, hduration⟩, hrefs⟩, hdetails⟩ := h
  simp only [filled, if_pos htime, if_pos htrace, if_pos hlevel, if_pos hevent,
    hpresent _ _ _ hrun, hpresent _ _ _ hcategory, hpresent _ _ _ hfixture, hpresent _ _ _ hstage,
    hpresent _ _ _ houtcome, hpresent _ _ _ hcode, hpresent _ _ _ hduration,
    hpresent _ _ _ hrefs, hpresent _ _ _ hdetails]

variable {o : Origin}

theorem read_any {v : Value} (hexact : v.IsExact maxLevels) (hnormal : v.normal = v)
    (ho : o.Holds v) : Decoder.any o (Document.ofValue v) = .ok v := by
  unfold Decoder.any
  cases o with
  | text levels => simp only [value_ofValue (ho levels rfl), hnormal]
  | parsed => simp only [value_ofValue hexact]
  | buffered => simp only [value_ofValue hexact]

theorem read_absent {α β : Type} {name : String} {inner : Decoder β} {put : Option β → α → α}
    {v : Value} {x : β} (hnull : v ≠ .null) (hx : inner o (Document.ofValue v) = .ok x) :
    (Field.absent name inner put).read o (Document.ofValue v) = .ok (put (some x)) := by
  have hoption : Decoder.option inner o (Document.ofValue v) =
      (inner o (Document.ofValue v)).map some := by
    cases v with
    | null => exact absurd rfl hnull
    | _ => rfl
  simp only [Field.absent, Decoder.map, hoption, hx]
  rfl

-- Each member is read by its field, into the place of its field.
theorem read_members (h : e.Fits) : ∀ member ∈ e.members, o.Holds member.2 →
    ∃ field update, layout.field? member.1 = some field ∧
      field.read o (Document.ofValue member.2) = .ok update ∧
      ∀ seen, update (e.filled seen) = e.filled (member.1 :: seen) := by
  refine forall_mem_members ?_ ?_ ?_ ?_ ?_ ?_ ?_ ?_ ?_ ?_ ?_ ?_ ?_
  · exact fun _ => ⟨_, _, rfl, rfl, fun seen => by simp [filled]⟩
  · exact fun _ => ⟨_, _, rfl, rfl, fun seen => by simp [filled]⟩
  · refine fun _ =>
      ⟨_, fun x => { x with level := e.level }, rfl, ?_, fun seen => by simp [filled]⟩
    cases o <;> cases e.level <;> rfl
  · exact fun _ => ⟨_, _, rfl, rfl, fun seen => by simp [filled]⟩
  · intro runId hrun _
    exact ⟨_, _, rfl, read_absent nofun rfl, fun seen => by
      simp [filled, Option.mem_def.mp hrun]⟩
  · intro category hcategory _
    refine ⟨_, _, rfl, read_absent (x := category) nofun ?_, fun seen => by
      simp [filled, Option.mem_def.mp hcategory]⟩
    cases o <;> cases category <;> rfl
  · intro fixture hfixture _
    exact ⟨_, _, rfl, read_absent nofun rfl, fun seen => by
      simp [filled, Option.mem_def.mp hfixture]⟩
  · intro stage hstage _
    refine ⟨_, _, rfl, read_absent (x := stage) nofun ?_, fun seen => by
      simp [filled, Option.mem_def.mp hstage]⟩
    cases o <;> cases stage <;> rfl
  · intro outcome houtcome _
    refine ⟨_, _, rfl, read_absent (x := outcome) nofun ?_, fun seen => by
      simp [filled, Option.mem_def.mp houtcome]⟩
    cases o <;> cases outcome <;> rfl
  · intro code hcode ho
    have hread := Decoder.reads_integer "i32" (h.exitCode code hcode) o _ (.number _) ho
    exact ⟨_, _, rfl, read_absent nofun hread, fun seen => by
      simp [filled, Option.mem_def.mp hcode]⟩
  · intro n hn ho
    have hread := Decoder.reads_natBelow "u64" (h.durationMs n hn) o _ (.number _) ho
    exact ⟨_, _, rfl, read_absent nofun hread, fun seen => by
      simp [filled, Option.mem_def.mp hn]⟩
  · intro texts htexts ho
    have hrecovers : (Decoder.list .string).Recovers maxLevels (strings texts) texts :=
      Decoder.recovers_strings texts
    have hread := hrecovers.reads o _ (reordered_refl hrecovers.isExact) ho
    exact ⟨_, _, rfl, read_absent nofun hread, fun seen => by
      simp [filled, Option.mem_def.mp htexts]⟩
  · intro v hv ho
    obtain ⟨hexact, hnormal, hnull⟩ := h.details v hv
    exact ⟨_, _, rfl, read_absent hnull (read_any hexact.succ hnormal ho), fun seen => by
      simp [filled, Option.mem_def.mp hv]⟩

-- The entry is read from its members in whatever order they stand.
theorem reads_members (h : e.Fits) :
    decoder.Reads (fun v => ∃ own, own.Perm e.members ∧ v = .object own) e := by
  rintro o v ⟨own, hperm, rfl⟩ ho
  have hnamed : documentMembers own =
      Layout.named (own.map fun member => (member.1, Document.ofValue member.2)) := by
    rw [documentMembers_eq_map, Layout.named, List.map_map]
    rfl
  have hnames : (own.map fun member => (member.1, Document.ofValue member.2)).map Prod.fst =
      own.map Prod.fst := by
    rw [List.map_map]
    rfl
  have hall : ∀ member ∈ e.members, member.1 ∈ (own.map Prod.fst).reverse ++ [] := by
    intro member hm
    rw [List.append_nil, List.mem_reverse]
    exact List.mem_map_of_mem (hperm.mem_iff.mpr hm)
  have hdecode : decoder o (Document.ofValue (.object own)) =
      layout.readMembers o.enter (documentMembers own) none [] layout.blank := rfl
  rw [hdecode, hnamed, ← filled_nil e, Layout.readMembers_eq_filled, hnames, filled_eq_self hall]
  · intro member hm
    obtain ⟨written, hwritten, rfl⟩ := List.mem_map.mp hm
    exact read_members h written (hperm.mem_iff.mp hwritten) (ho.member hwritten)
  · rw [hnames, (hperm.map Prod.fst).nodup_iff]
    exact e.nodup_members
  · exact fun _ _ => List.not_mem_nil
  · intro field hm hoptional
    rw [hnames]
    have hrequired : ∃ member ∈ e.members, member.1 = field.name := by
      simp only [layout, List.mem_cons, List.not_mem_nil, or_false] at hm
      rcases hm with rfl | rfl | rfl | rfl | rfl | rfl | rfl | rfl | rfl | rfl | rfl | rfl | rfl
      · exact ⟨_, .head _, rfl⟩
      · exact ⟨_, .tail _ (.head _), rfl⟩
      · exact ⟨_, .tail _ (.tail _ (.head _)), rfl⟩
      · exact ⟨_, .tail _ (.tail _ (.tail _ (.head _))), rfl⟩
      all_goals cases hoptional
    obtain ⟨member, hmember, hname⟩ := hrequired
    exact hname ▸ hall member hmember

theorem decode_normal_toValue (h : e.Fits) :
    decodeValue decoder e.toValue.normal = .ok e := by
  rw [decodeValue, normal_normal, normal_toValue h]
  refine reads_members h .parsed _ ⟨_, sorted_perm e.nodup_members, rfl⟩ fun _ htext => ?_
  cases htext

-- Nothing of an entry is lost on its line.
theorem decodeText_line (h : e.Fits) : decodeText decoder e.line = .ok e := by
  have hexact := toValue_isExact h
  exact decodeText_of_reads (reads_members h) ⟨_, .refl _, toValue_eq e⟩ hexact
    (spelledBy_compact hexact)

theorem member?_normal_toValue (h : e.Fits) (name : String) :
    e.toValue.normal.member? name =
      (e.members.find? fun member => member.1 = name).map Prod.snd := by
  rw [normal_toValue h, Value.member?, find?_sorted e.nodup_members]

-- A member that is a name is one of those that are allowed.
theorem wrongName_eq_nil {line : Nat} {obj : Value} {field : String} {allowed : List String}
    (h : ∀ s, obj.member? field = some (.string s) → s ∈ allowed) :
    wrongName line obj field allowed = [] := by
  unfold wrongName
  split
  · rename_i s hs
    obtain ⟨v, hv, htext⟩ := Option.bind_eq_some_iff.mp hs
    cases v with
    | string t =>
        cases htext
        exact if_pos (h _ hv)
    | _ => cases htext
  · rfl

theorem wrongName_names_eq_nil {α : Type} {line : Nat} {obj : Value} {field : String}
    {known : List α} {name : α → String} {x : Option α} (hknown : ∀ a, a ∈ known)
    (hx : obj.member? field = x.map fun a => .string (name a)) :
    wrongName line obj field (known.map name) = [] := by
  refine wrongName_eq_nil fun s hs => ?_
  rw [hx] at hs
  obtain ⟨a, -, ha⟩ := Option.map_eq_some_iff.mp hs
  cases ha
  exact List.mem_map_of_mem (hknown a)

theorem verdictFields_eq_nil {line : Nat} {obj : Value}
    (h : isVerdict obj = true →
      ∀ name ∈ ["fixture", "category", "outcome"], (obj.member? name).isSome = true) :
    verdictFields line obj = [] := by
  unfold verdictFields
  split
  · rename_i hverdict
    rw [missingFields_eq_nil_iff]
    exact h hverdict
  · rfl

theorem formViolations_eq_nil (h : e.IsExact) (line : Nat) :
    formViolations line e.toValue.normal = [] := by
  have hmember := member?_normal_toValue h.fits
  simp only [members, List.find?_append, find?_present] at hmember
  have htime : e.toValue.normal.member? "timestamp" = some (.string e.timestamp) := by
    rw [hmember]
    rfl
  have htrace : e.toValue.normal.member? "trace_id" = some (.string e.traceId) := by
    rw [hmember]
    rfl
  have hlevel : e.toValue.normal.member? "level" = some (.string e.level.name) := by
    rw [hmember]
    rfl
  have hevent : e.toValue.normal.member? "event" = some (.string e.event) := by
    rw [hmember]
    rfl
  have hcategory : e.toValue.normal.member? "category" = e.category.map Category.toValue := by
    rw [hmember]
    cases e.category <;> simp
  have hfixture : e.toValue.normal.member? "fixture" = e.fixture.map .string := by
    rw [hmember]
    cases e.fixture <;> simp
  have hstage : e.toValue.normal.member? "stage" = e.stage.map Stage.toValue := by
    rw [hmember]
    cases e.stage <;> simp
  have houtcome : e.toValue.normal.member? "outcome" = e.outcome.map fun m => .string m.name := by
    rw [hmember]
    cases e.outcome <;> simp
  have hverdict : verdictFields line e.toValue.normal = [] := by
    refine verdictFields_eq_nil fun hname => ?_
    rw [isVerdict, hevent] at hname
    have hname' : e.event = "fixture_verdict" := by simpa [Value.text?] using hname
    obtain ⟨hf, hc, ho⟩ := h.verdict hname'
    simp [hfixture, hcategory, houtcome, hf, hc, ho]
  have hform : traceForm line e.toValue.normal = [] := by
    simp [traceForm, htrace, Value.text?, h.traceId]
  have hrequired : missingFields line "required field missing" e.toValue.normal
      ["timestamp", "trace_id", "level", "event"] = [] := by
    rw [missingFields_eq_nil_iff]
    simp [htime, htrace, hlevel, hevent]
  have hlevels : wrongName line e.toValue.normal "level" (Level.all.map Level.name) = [] :=
    wrongName_names_eq_nil (x := some e.level) (by rintro ⟨⟩ <;> decide) hlevel
  have hmarks : wrongName line e.toValue.normal "outcome" (Mark.all.map Mark.name) = [] :=
    wrongName_names_eq_nil (by rintro ⟨⟩ <;> decide) houtcome
  have hcategories :
      wrongName line e.toValue.normal "category" (Category.all.map Category.name) = [] :=
    wrongName_names_eq_nil (by rintro ⟨⟩ <;> decide) hcategory
  have hstages : wrongName line e.toValue.normal "stage" (Stage.all.map Stage.name) = [] :=
    wrongName_names_eq_nil (by rintro ⟨⟩ <;> decide) hstage
  rw [formViolations, hrequired, hverdict, hform, hlevels, hmarks, hcategories, hstages]
  rfl

-- The line of an entry is accepted, and nothing of the entry is lost on it.
theorem checkLine_line (h : e.IsExact) (line : Nat) : checkLine e.line line = .ok e := by
  have hread : Value.ofText e.line = .ok (.object (sorted e.members)) := by
    rw [← normal_toValue h.fits]
    exact ofText_compact (toValue_isExact h.fits)
  have hform := formViolations_eq_nil h line
  have hdecode := decode_normal_toValue h.fits
  rw [normal_toValue h.fits] at hform hdecode
  rw [checkLine, hread]
  simp only [hform, hdecode]

-- The line of an entry is one line, and no blank is at its ends.
theorem toList_line (e : Entry) : e.line.toList = e.toValue.compactChars :=
  String.toList_ofList

theorem isLine_line (h : e.Fits) : Text.IsLine e.line.toList := by
  have hprintable := printable_of_mem_compactChars (toValue_isExact h)
  rw [toList_line]
  refine ⟨fun hfeed => absurd (hprintable _ hfeed) (by decide), fun hreturn => ?_⟩
  exact absurd (hprintable _ (List.mem_of_getLast? hreturn)) (by decide)

theorem trim_line (e : Entry) : Text.trim e.line = e.line := by
  have hchars : e.line.toList = '\x7b' :: (compactMembers e.members ++ ['\x7d']) := by
    rw [toList_line, toValue_eq, Value.compactChars]
  apply Text.trim_eq_self
  · rw [hchars]
    rintro c ⟨⟩
    rfl
  · rw [hchars]
    intro c hc
    rw [← List.cons_append, List.getLast?_concat] at hc
    cases hc
    rfl

theorem line_ne_empty (e : Entry) : e.line ≠ "" := by
  rw [Ne, ← String.toList_inj, toList_line]
  exact List.cons_ne_nil _ _

end Entry

-- The text of some entries is valid, and has a line for each of them.
theorem checkLines_map_line {entries : List Entry} (h : ∀ e ∈ entries, e.IsExact) (number : Nat) :
    checkLines number (entries.map Entry.line) = (entries.length, []) := by
  induction entries generalizing number with
  | nil => rfl
  | cons e rest ih =>
      have hrest := ih (fun other hm => h other (List.mem_cons_of_mem _ hm)) (number + 1)
      rw [List.map_cons, checkLines, hrest]
      simp only [Entry.trim_line, Entry.checkLine_line (h e List.mem_cons_self),
        if_neg e.line_ne_empty, List.length_cons]

theorem lines_join_lineText {entries : List Entry} (h : ∀ e ∈ entries, e.Fits) :
    Text.lines (String.join (entries.map Emitter.lineText)) = entries.map Entry.line := by
  have htexts : entries.map Emitter.lineText = (entries.map Entry.line).map (· ++ "\n") := by
    rw [List.map_map]
    rfl
  rw [htexts, Text.lines_join]
  intro line hm
  obtain ⟨e, he, rfl⟩ := List.mem_map.mp hm
  exact Entry.isLine_line (h e he)

theorem checkText_join_lineText {entries : List Entry} (h : ∀ e ∈ entries, e.IsExact) :
    checkText (String.join (entries.map Emitter.lineText)) = (entries.length, []) := by
  rw [checkText, lines_join_lineText fun e he => (h e he).fits, checkLines_map_line h]

end Conformance.Log
