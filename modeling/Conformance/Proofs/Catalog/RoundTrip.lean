import Conformance.Catalog.Json
import Conformance.Proofs.Catalog.Course
import Conformance.Proofs.Json.Recovering
import Conformance.Proofs.Log.VerdictLines

namespace Conformance

open Json

variable {levels : Nat}

theorem Category.recovers (c : Category) : decoder.Recovers levels c.toValue c :=
  Decoder.recovers_variant (by cases c <;> rfl)

namespace Entry

-- What is left out of an entry is what it is without.
theorem recovers_particulars (name : String) {code : Option Int} (disabled : Bool)
    (h : ∀ i ∈ code, IsInt32 i) :
    layout.decode.Recovers (levels + 1) (toValue (.detailed name code disabled))
      (name, code, disabled) := by
  have hname : List.Forall₂ (layout.Restores levels) [("name", .string name)] _ :=
    .cons ⟨_, rfl, (Decoder.recovers_stringNamed _ name).map _⟩ .nil
  have hdisabled : List.Forall₂ (layout.Restores levels) [("disabled", .bool true)] _ :=
    .cons ⟨_, rfl, (Decoder.recovers_bool true).map _⟩ .nil
  cases code with
  | none =>
      cases disabled with
      | false =>
          exact Layout.recovers _ hname (by simp) rfl
            (by simp [Layout.Commuting]) rfl
      | true =>
          exact Layout.recovers _ (List.rel_append hname hdisabled) (by simp) rfl
            (by simp [Layout.Commuting]) rfl
  | some i =>
      have hcode : List.Forall₂ (layout.Restores levels) [("code", .int i)] _ :=
        .cons ⟨_, rfl, ((Decoder.recovers_int32 (h i rfl)).option Value.noConfusion).map _⟩ .nil
      cases disabled with
      | false =>
          exact Layout.recovers _ (List.rel_append hname hcode) (by simp) rfl
            (by simp [Layout.Commuting]) rfl
      | true =>
          exact Layout.recovers _ (List.rel_append (List.rel_append hname hcode) hdisabled)
            (by simp) rfl (by simp [Layout.Commuting]) rfl

-- The two forms of an entry are not confused.
theorem recovers {e : Entry} (h : ∀ i ∈ e.code, IsInt32 i) :
    decoder.Recovers (levels + 1) e.toValue e := by
  cases e with
  | bare name =>
      refine ⟨.string name, ?_⟩
      intro o v hv ho
      cases hv
      rw [decoder, Decoder.setAside_ofValue ho]
      rfl
  | detailed name code disabled =>
      have hparticulars : layout.decode.Recovers (levels + 1) _ _ :=
        recovers_particulars name disabled h
      refine ⟨hparticulars.isExact, ?_⟩
      intro o v hv ho
      have hread := hparticulars.reads .buffered v hv (Origin.holds_buffered v)
      obtain ⟨own, members, rfl, -, -⟩ := reordered_object_iff.mp hv
      rw [Document.ofValue] at hread
      rw [decoder, Decoder.setAside_ofValue ho, Document.ofValue]
      simp only [hread]
      rfl

end Entry

theorem Suite.recovers {suite : Suite}
    (h : ∀ entry ∈ suite.entries, ∀ i ∈ entry.code, IsInt32 i) :
    layout.decode.Recovers (levels + 3) suite.toValue suite :=
  Layout.recovers _
    (.cons ⟨_, rfl, (Category.recovers suite.category).map _⟩ <|
      .cons ⟨_, rfl, (Decoder.recovers_stringNamed _ suite.directory).map _⟩ <|
      .cons ⟨_, rfl,
        (Decoder.recovers_list fun entry hentry => Entry.recovers (h entry hentry)).map _⟩ .nil)
    (by simp) rfl (by simp [Layout.Commuting]) rfl

namespace Catalog

theorem recovers {catalog : Catalog}
    (h : ∀ suite ∈ catalog.suites, ∀ entry ∈ suite.entries, ∀ i ∈ entry.code, IsInt32 i) :
    layout.decode.Recovers (levels + 5) catalog.toValue catalog :=
  Layout.recovers _
    (.cons ⟨_, rfl, (Decoder.recovers_stringNamed _ catalog.version).map _⟩ <|
      .cons ⟨_, rfl,
        (Decoder.recovers_list fun suite hsuite => Suite.recovers (h suite hsuite)).map _⟩ .nil)
    (by simp) rfl (by simp [Layout.Commuting]) rfl

variable {catalog : Catalog} {text : String}

theorem ofJson_eq_ok_iff : ofJson text = .ok catalog ↔
    decodeText layout.decode text = .ok catalog ∧ catalog.flaw? = none := by
  constructor
  · intro h
    unfold ofJson at h
    split at h
    · cases h
    · rename_i c htext
      split at h
      · cases h
      · rename_i hflaw
        cases h
        exact ⟨htext, hflaw⟩
  · rintro ⟨htext, hflaw⟩
    rw [ofJson, htext]
    simp only [hflaw]

theorem recovers_of_flaw?_eq_none (h : catalog.flaw? = none) :
    layout.decode.Recovers maxLevels catalog.toValue catalog := by
  have hcodes : ∀ suite ∈ catalog.suites, ∀ entry ∈ suite.entries, ∀ i ∈ entry.code,
      IsInt32 i := by
    intro suite hsuite entry hentry i hi
    obtain ⟨-, hlow, hhigh⟩ := (flaw?_eq_none_iff.mp h).codes suite hsuite entry hentry i hi
    exact ⟨by omega, by omega⟩
  exact (recovers hcodes : layout.decode.Recovers (122 + 5) _ _)

-- What is written of an accepted catalog is accepted, whatever the text was that it came
-- from, and it is the same catalog.
theorem ofJson_toJson (h : ofJson text = .ok catalog) :
    ∃ again, ofJson catalog.toJson = .ok again ∧ again = catalog ∧
      again.toJson = catalog.toJson := by
  obtain ⟨-, hflaw⟩ := ofJson_eq_ok_iff.mp h
  have hagain := ofJson_eq_ok_iff.mpr ⟨(recovers_of_flaw?_eq_none hflaw).decodeText_pretty, hflaw⟩
  exact ⟨catalog, hagain, rfl, rfl⟩

-- A catalog in a form of its own: escapes, a null and a mark that could be left out, a member
-- that no entry has, and the suites in another order than that of a run.
def looseText : String :=
  "\x7b \"suites\":[\x7b\"entries\":[\"a\\u0001\\ud83d\\ude00\"],\"path_prefix\":\"\"," ++
  "\"category\":\"syntax-invalid\"\x7d,\x7b\"category\":\"valid\",\"path_prefix\":\"é/\"," ++
  "\"entries\":[\x7b\"disabled\":false,\"name\":\"b\",\"code\":null\x7d," ++
  "\x7b\"note\":[1e3],\"code\":-255,\"name\":\"c\",\"disabled\":true\x7d]\x7d]," ++
  "\"version\":\"\"\x7d\n"

def looseCatalog : Catalog :=
  ⟨"", [⟨.syntaxInvalid, "", [.bare "a\x01😀"]⟩,
    ⟨.valid, "é/", [.detailed "b" none false, .detailed "c" (some (-255)) true]⟩]⟩

theorem ofJson_toJson_looseText : ofJson looseText = .ok looseCatalog ∧
    ∃ again, ofJson looseCatalog.toJson = .ok again ∧ again = looseCatalog ∧
      again.toJson = looseCatalog.toJson := by
  have hread : ofJson looseText = .ok looseCatalog := Log.eq_ok_of_toOption (by decide +kernel)
  exact ⟨hread, ofJson_toJson hread⟩

end Catalog

end Conformance
