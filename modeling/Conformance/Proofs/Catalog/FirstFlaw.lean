import Conformance.Catalog.Validity
import Mathlib.Data.List.Nodup
import Mathlib.Data.Prod.Lex
import Mathlib.Tactic.SplitIfs

namespace Conformance

section FindsFirst

variable {α β ι φ : Type*}

-- Of all that is found at some places, an optional result tells what is at the first one.
def FindsFirst [LE ι] (found : ι → φ → Prop) : Option φ → Prop
  | none => ∀ i a, ¬found i a
  | some a => ∃ i, found i a ∧ ∀ j b, found j b → i ≤ j

theorem FindsFirst.eq_none_iff [LE ι] {found : ι → φ → Prop} {o : Option φ}
    (h : FindsFirst found o) : o = none ↔ ∀ i a, ¬found i a := by
  cases o with
  | none => exact iff_of_true rfl h
  | some a =>
      obtain ⟨i, hi, -⟩ := h
      exact iff_of_false (Option.some_ne_none a) fun hnone => hnone i a hi

-- Where no two things are found at one place.
theorem FindsFirst.eq_some_iff [PartialOrder ι] {found : ι → φ → Prop} {o : Option φ}
    (hunique : ∀ i a b, found i a → found i b → a = b) (h : FindsFirst found o) (a : φ) :
    o = some a ↔ ∃ i, found i a ∧ ∀ j b, found j b → i ≤ j := by
  constructor
  · rintro rfl
    exact h
  · rintro ⟨i, hi, hleast⟩
    cases o with
    | none => exact absurd hi (h i a)
    | some b =>
        obtain ⟨j, hj, hleast'⟩ := h
        obtain rfl := le_antisymm (hleast j b hj) (hleast' i a hi)
        rw [hunique i a b hi hj]

-- One search behind another one, which is numbered zero.
theorem FindsFirst.or [Preorder ι] {found : ℕ ×ₗ ι → φ → Prop} {first : ι → φ → Prop}
    {later : ℕ ×ₗ ι → φ → Prop} {o o' : Option φ}
    (hzero : ∀ i a, found (toLex (0, i)) a ↔ first i a)
    (hsucc : ∀ n i a, found (toLex (n + 1, i)) a ↔ later (toLex (n, i)) a)
    (ho : FindsFirst first o) (ho' : FindsFirst later o') : FindsFirst found (o.or o') := by
  cases o with
  | some a =>
      obtain ⟨i, hi, hleast⟩ := ho
      refine ⟨toLex (0, i), (hzero i a).mpr hi, ?_⟩
      rintro ⟨n, j⟩ b hb
      cases n with
      | zero => exact Prod.Lex.toLex_le_toLex.mpr (.inr ⟨rfl, hleast j b ((hzero j b).mp hb)⟩)
      | succ n => exact Prod.Lex.toLex_le_toLex.mpr (.inl n.succ_pos)
  | none =>
      cases o' with
      | some a =>
          obtain ⟨⟨n, i⟩, hi, hleast⟩ := ho'
          refine ⟨toLex (n + 1, i), (hsucc n i a).mpr hi, ?_⟩
          rintro ⟨m, j⟩ b hb
          cases m with
          | zero => exact absurd ((hzero j b).mp hb) (ho j b)
          | succ m =>
              have hle := Prod.Lex.toLex_le_toLex.mp (hleast _ b ((hsucc m j b).mp hb))
              exact Prod.Lex.toLex_le_toLex.mpr
                (hle.imp Nat.succ_lt_succ fun h => ⟨congrArg Nat.succ h.1, h.2⟩)
      | none =>
          rintro ⟨n, i⟩ a ha
          cases n with
          | zero => exact ho i a ((hzero i a).mp ha)
          | succ n => exact ho' (toLex (n, i)) a ((hsucc n i a).mp ha)

-- What is wrong with an item of a list, where it matters which keys come before it.
inductive Among (key : α → β) (wrong : List β → α → ι → φ → Prop) (seen : List β)
    (items : List α) : ℕ ×ₗ ι → φ → Prop
  | item {n : ℕ} {item : α} {i : ι} {flaw : φ} (hitem : items[n]? = some item)
      (hwrong : wrong ((items.take n).map key ++ seen) item i flaw) :
      Among key wrong seen items (toLex (n, i)) flaw

theorem among_iff {key : α → β} {wrong : List β → α → ι → φ → Prop} {seen : List β}
    {items : List α} {n : ℕ} {i : ι} {flaw : φ} :
    Among key wrong seen items (toLex (n, i)) flaw ↔
      ∃ item, items[n]? = some item ∧ wrong ((items.take n).map key ++ seen) item i flaw :=
  ⟨fun | .item hitem hwrong => ⟨_, hitem, hwrong⟩, fun ⟨_, hitem, hwrong⟩ => .item hitem hwrong⟩

-- A loop that looks at each item in turn, and remembers the keys of those it has passed.
theorem findsFirst_among [Preorder ι] {key : α → β} {wrong : List β → α → ι → φ → Prop}
    {check : List β → α → Option φ} {loop : List β → List α → Option φ}
    (hwrong : ∀ {seen seen'}, (∀ k, k ∈ seen ↔ k ∈ seen') → ∀ item i flaw,
      wrong seen item i flaw ↔ wrong seen' item i flaw)
    (hcheck : ∀ seen item, FindsFirst (wrong seen item) (check seen item))
    (hnil : ∀ seen, loop seen [] = none)
    (hcons : ∀ seen item rest,
      loop seen (item :: rest) = (check seen item).or (loop (key item :: seen) rest))
    (seen : List β) (items : List α) :
    FindsFirst (Among key wrong seen items) (loop seen items) := by
  induction items generalizing seen with
  | nil =>
      rw [hnil]
      rintro _ _ ⟨hitem, -⟩
      cases hitem
  | cons item rest ih =>
      rw [hcons]
      refine .or (fun i flaw => ?_) (fun n i flaw => ?_) (hcheck seen item) (ih (key item :: seen))
      · simp [among_iff]
      · rw [among_iff, among_iff]
        simp only [List.getElem?_cons_succ, List.take_succ_cons, List.map_cons]
        refine exists_congr fun other => and_congr_right fun _ => hwrong (fun k => ?_) other i flaw
        simp only [List.cons_append, List.mem_cons, List.mem_append]
        exact or_left_comm

-- No key stands twice in a list exactly if none is wrong for standing before its item.
theorem nodup_map_iff {key : α → β} {items : List α} :
    (items.map key).Nodup ↔
      ∀ n item, items[n]? = some item → key item ∉ (items.take n).map key := by
  induction items with
  | nil => simp
  | cons first rest ih =>
      rw [List.map_cons, List.nodup_cons, ih]
      constructor
      · rintro ⟨hfirst, hrest⟩ (_ | n) item hitem
        · exact List.not_mem_nil
        · rw [List.take_succ_cons, List.map_cons, List.mem_cons, not_or]
          refine ⟨fun heq => hfirst ?_, hrest n item hitem⟩
          exact heq ▸ List.mem_map_of_mem (List.mem_of_getElem? hitem)
      · intro h
        refine ⟨fun hmem => ?_, fun n item hitem hmem => ?_⟩
        · obtain ⟨item, hitem, heq⟩ := List.mem_map.mp hmem
          obtain ⟨n, hn⟩ := List.mem_iff_getElem?.mp hitem
          refine h (n + 1) item hn ?_
          rw [List.take_succ_cons, List.map_cons, heq]
          exact List.mem_cons_self
        · refine h (n + 1) item hitem ?_
          rw [List.take_succ_cons, List.map_cons]
          exact List.mem_cons_of_mem _ hmem

-- Only the first item with a key is found, and it is the only one where keys are distinct.
theorem filter_eq_toList_find? [DecidableEq β] {key : α → β} {items : List α}
    (h : (items.map key).Nodup) (k : β) :
    items.filter (fun item => key item = k) = (items.find? fun item => key item = k).toList := by
  induction items with
  | nil => rfl
  | cons first rest ih =>
      rw [List.map_cons, List.nodup_cons] at h
      by_cases hfirst : key first = k
      · have hrest : rest.filter (fun item => key item = k) = [] := by
          refine List.filter_eq_nil_iff.mpr fun item hitem hkey => h.1 ?_
          rw [hfirst, ← of_decide_eq_true hkey]
          exact List.mem_map_of_mem hitem
        simp [hfirst, hrest]
      · simp [hfirst, ih h.2]

end FindsFirst

-- The rules that an entry breaks behind entries with the given names, by their numbers.
inductive Entry.Breaks (category : Category) (earlier : List String) (entry : Entry) :
    ℕ → CatalogFlaw → Prop
  | blank (h : ∀ c ∈ entry.name.toList, Text.isBlank c = true) :
      Breaks category earlier entry 0 (.blankName category)
  | repeated (h : entry.name ∈ earlier) :
      Breaks category earlier entry 1 (.repeatedFixture category entry.name)
  | unexpected {code : Int} (hcode : entry.code = some code) (h : category ≠ .valid) :
      Breaks category earlier entry 2 (.unexpectedCode category entry.name)
  | range {code : Int} (hcode : entry.code = some code) (h : ¬(-255 ≤ code ∧ code ≤ 255)) :
      Breaks category earlier entry 3 (.codeRange entry.name code)

-- A suite comes before its entries, which count from one.
inductive Suite.Breaks (earlier : List Category) (suite : Suite) : ℕ ×ₗ ℕ → CatalogFlaw → Prop
  | repeated (h : suite.category ∈ earlier) :
      Breaks earlier suite (toLex (0, 0)) (.repeatedCategory suite.category)
  | entry {n rule : ℕ} {flaw : CatalogFlaw}
      (h : Among Entry.name (Entry.Breaks suite.category) [] suite.entries (toLex (n, rule)) flaw) :
      Breaks earlier suite (toLex (n + 1, rule)) flaw

-- A catalog breaks a rule at a suite, an entry and a rule, by their numbers in this order.
def Catalog.Breaks (catalog : Catalog) : ℕ ×ₗ ℕ ×ₗ ℕ → CatalogFlaw → Prop :=
  Among Suite.category Suite.Breaks [] catalog.suites

theorem Entry.Breaks.congr {category : Category} {seen seen' : List String}
    (h : ∀ name, name ∈ seen ↔ name ∈ seen') {entry : Entry} {rule : ℕ} {flaw : CatalogFlaw}
    (hbreaks : entry.Breaks category seen rule flaw) : entry.Breaks category seen' rule flaw := by
  cases hbreaks with
  | blank hblank => exact .blank hblank
  | repeated hmem => exact .repeated ((h _).mp hmem)
  | unexpected hcode hcategory => exact .unexpected hcode hcategory
  | range hcode hrange => exact .range hcode hrange

theorem Suite.Breaks.congr {seen seen' : List Category} (h : ∀ c, c ∈ seen ↔ c ∈ seen')
    {suite : Suite} {place : ℕ ×ₗ ℕ} {flaw : CatalogFlaw}
    (hbreaks : suite.Breaks seen place flaw) : suite.Breaks seen' place flaw := by
  cases hbreaks with
  | repeated hmem => exact .repeated ((h _).mp hmem)
  | entry hentry => exact .entry hentry

theorem Text.isBlankText_iff (s : String) :
    isBlankText s = true ↔ ∀ c ∈ s.toList, isBlank c = true :=
  List.all_eq_true

theorem Category.executes_iff (c : Category) : c.executes = true ↔ c = .valid :=
  decide_eq_true_iff

theorem Entry.findsFirst_flaw? (category : Category) (seen : List String) (entry : Entry) :
    FindsFirst (entry.Breaks category seen) (entry.flaw? category seen) := by
  unfold flaw?
  by_cases hblank : Text.isBlankText entry.name = true
  · rw [if_pos hblank]
    exact ⟨0, .blank ((Text.isBlankText_iff _).mp hblank), fun _ _ _ => Nat.zero_le _⟩
  rw [if_neg hblank]
  rw [Text.isBlankText_iff] at hblank
  by_cases hseen : entry.name ∈ seen
  · rw [if_pos hseen]
    refine ⟨1, .repeated hseen, ?_⟩
    rintro _ _ (h | h | h | h)
    · exact absurd h hblank
    all_goals decide
  rw [if_neg hseen]
  cases hcode : entry.code with
  | none =>
      rintro _ _ (h | h | ⟨hcode', -⟩ | ⟨hcode', -⟩)
      · exact hblank h
      · exact hseen h
      all_goals exact Option.some_ne_none _ (hcode'.symm.trans hcode)
  | some code =>
      simp only [Bool.not_eq_true', ← Bool.not_eq_true, Category.executes_iff]
      by_cases hcategory : category = .valid
      · by_cases hrange : -255 ≤ code ∧ code ≤ 255
        · rw [if_neg (not_not_intro hcategory), if_pos hrange]
          rintro _ _ (h | h | ⟨-, h⟩ | ⟨hcode', h⟩)
          · exact hblank h
          · exact hseen h
          · exact h hcategory
          · exact h (Option.some.inj (hcode.symm.trans hcode') ▸ hrange)
        · rw [if_neg (not_not_intro hcategory), if_neg hrange]
          refine ⟨3, .range hcode hrange, ?_⟩
          rintro _ _ (h | h | ⟨-, h⟩ | -)
          · exact absurd h hblank
          · exact absurd h hseen
          · exact absurd hcategory h
          · exact le_refl 3
      · rw [if_pos hcategory]
        refine ⟨2, .unexpected hcode hcategory, ?_⟩
        rintro _ _ (h | h | - | -)
        · exact absurd h hblank
        · exact absurd h hseen
        all_goals decide

theorem findsFirst_firstEntryFlaw? (category : Category) (seen : List String)
    (entries : List Entry) :
    FindsFirst (Among Entry.name (Entry.Breaks category) seen entries)
      (firstEntryFlaw? category seen entries) := by
  refine findsFirst_among (fun h _ _ _ => ⟨.congr h, .congr fun name => (h name).symm⟩)
    (Entry.findsFirst_flaw? category) (fun _ => rfl) (fun seen entry rest => ?_) seen entries
  rw [firstEntryFlaw?]
  cases entry.flaw? category seen <;> rfl

-- What is found at one suite, before the suites behind it are looked at.
def Suite.flaw? (seen : List Category) (suite : Suite) : Option CatalogFlaw :=
  (if suite.category ∈ seen then some (.repeatedCategory suite.category) else none).or
    (firstEntryFlaw? suite.category [] suite.entries)

theorem Suite.findsFirst_flaw? (seen : List Category) (suite : Suite) :
    FindsFirst (suite.Breaks seen) (suite.flaw? seen) := by
  have hcategory : FindsFirst (fun rule flaw => suite.Breaks seen (toLex (0, rule)) flaw)
      (if suite.category ∈ seen then some (.repeatedCategory suite.category) else none) := by
    split_ifs with hseen
    · exact ⟨0, .repeated hseen, fun _ _ _ => Nat.zero_le _⟩
    · rintro _ _ ⟨h⟩
      exact hseen h
  exact .or (fun _ _ => .rfl) (fun n rule flaw => ⟨fun | .entry h => h, .entry⟩) hcategory
    (findsFirst_firstEntryFlaw? suite.category [] suite.entries)

theorem findsFirst_firstSuiteFlaw? (seen : List Category) (suites : List Suite) :
    FindsFirst (Among Suite.category Suite.Breaks seen suites) (firstSuiteFlaw? seen suites) := by
  refine findsFirst_among (fun h _ _ _ => ⟨.congr h, .congr fun c => (h c).symm⟩)
    Suite.findsFirst_flaw? (fun _ => rfl) (fun seen suite rest => ?_) seen suites
  rw [firstSuiteFlaw?, Suite.flaw?]
  split_ifs
  · rfl
  · cases firstEntryFlaw? suite.category [] suite.entries <;> rfl

theorem Entry.Breaks.unique {category : Category} {seen : List String} {entry : Entry} {rule : ℕ}
    {flaw flaw' : CatalogFlaw} (h : entry.Breaks category seen rule flaw)
    (h' : entry.Breaks category seen rule flaw') : flaw = flaw' := by
  cases h with
  | blank | repeated | unexpected =>
      cases h'
      rfl
  | range hcode =>
      cases h' with
      | range hcode' => rw [Option.some.inj (hcode.symm.trans hcode')]

namespace Catalog

theorem Breaks.unique {catalog : Catalog} {place : ℕ ×ₗ ℕ ×ₗ ℕ} {flaw flaw' : CatalogFlaw}
    (h : catalog.Breaks place flaw) (h' : catalog.Breaks place flaw') : flaw = flaw' := by
  obtain ⟨hsuite, h⟩ := h
  obtain ⟨suite, hsuite', h'⟩ := among_iff.mp h'
  obtain rfl := Option.some.inj (hsuite.symm.trans hsuite')
  cases h with
  | repeated =>
      cases h'
      rfl
  | entry hentry =>
      obtain - | hentry' := h'
      obtain ⟨entry, hitem, hbreaks⟩ := among_iff.mp hentry
      obtain ⟨entry', hitem', hbreaks'⟩ := among_iff.mp hentry'
      obtain rfl := Option.some.inj (hitem.symm.trans hitem')
      exact hbreaks.unique hbreaks'

-- What is asked of a catalog.
structure WellFormed (catalog : Catalog) : Prop where
  categories : (catalog.suites.map Suite.category).Nodup
  named : ∀ suite ∈ catalog.suites, ∀ entry ∈ suite.entries,
    ∃ c ∈ entry.name.toList, Text.isBlank c = false
  names : ∀ suite ∈ catalog.suites, (suite.entries.map Entry.name).Nodup
  codes : ∀ suite ∈ catalog.suites, ∀ entry ∈ suite.entries, ∀ code ∈ entry.code,
    suite.category = .valid ∧ -255 ≤ code ∧ code ≤ 255

theorem wellFormed_iff {catalog : Catalog} :
    catalog.WellFormed ↔ ∀ place flaw, ¬catalog.Breaks place flaw := by
  constructor
  · rintro ⟨hcategories, hnamed, hnames, hcodes⟩ _ _ ⟨hsuite, hbreaks⟩
    have hmem := List.mem_of_getElem? hsuite
    rw [List.append_nil] at hbreaks
    cases hbreaks with
    | repeated h => exact nodup_map_iff.mp hcategories _ _ hsuite h
    | entry hentry =>
        obtain ⟨entry, hitem, hbreaks⟩ := among_iff.mp hentry
        rw [List.append_nil] at hbreaks
        have hlisted := List.mem_of_getElem? hitem
        cases hbreaks with
        | blank h =>
            obtain ⟨c, hc, hblank⟩ := hnamed _ hmem entry hlisted
            exact Bool.false_ne_true (hblank.symm.trans (h c hc))
        | repeated h => exact nodup_map_iff.mp (hnames _ hmem) _ entry hitem h
        | unexpected hcode h => exact h (hcodes _ hmem entry hlisted _ hcode).1
        | range hcode h => exact h (hcodes _ hmem entry hlisted _ hcode).2
  · intro h
    -- a rule that an entry breaks is a rule that the catalog breaks
    have hentries : ∀ suite ∈ catalog.suites, ∀ {n rule flaw} {entry : Entry},
        suite.entries[n]? = some entry → ¬entry.Breaks suite.category
          ((suite.entries.take n).map Entry.name) rule flaw := by
      intro suite hsuite n rule flaw entry hentry hbreaks
      obtain ⟨m, hm⟩ := List.mem_iff_getElem?.mp hsuite
      exact h _ flaw (.item hm (.entry (.item hentry (by rwa [List.append_nil]))))
    refine ⟨?_, fun suite hsuite entry hentry => ?_, fun suite hsuite => ?_,
      fun suite hsuite entry hentry code hcode => ?_⟩
    · refine nodup_map_iff.mpr fun n suite hsuite hmem => ?_
      exact h _ _ (.item hsuite (.repeated (by rwa [List.append_nil])))
    · obtain ⟨n, hn⟩ := List.mem_iff_getElem?.mp hentry
      by_contra hblank
      push Not at hblank
      exact hentries suite hsuite hn (.blank fun c hc => by simpa using hblank c hc)
    · exact nodup_map_iff.mpr fun n entry hn hmem => hentries suite hsuite hn (.repeated hmem)
    · obtain ⟨n, hn⟩ := List.mem_iff_getElem?.mp hentry
      constructor
      · by_contra hcategory
        exact hentries suite hsuite hn (.unexpected hcode hcategory)
      · by_contra hrange
        exact hentries suite hsuite hn (.range hcode hrange)

theorem findsFirst_flaw? (catalog : Catalog) : FindsFirst catalog.Breaks catalog.flaw? :=
  findsFirst_firstSuiteFlaw? [] catalog.suites

theorem flaw?_eq_none_iff {catalog : Catalog} : catalog.flaw? = none ↔ catalog.WellFormed :=
  catalog.findsFirst_flaw?.eq_none_iff.trans wellFormed_iff.symm

namespace WellFormed

variable {catalog : Catalog} (h : catalog.WellFormed)

include h

theorem nodup_names {suite : Suite} (hsuite : suite ∈ catalog.suites) :
    (suite.fixtures.map Fixture.name).Nodup := by
  rw [Suite.fixtures, List.map_map]
  exact (h.names suite hsuite).sublist (List.filter_sublist.map _)

theorem nodup_names_fixtures (category : Category) :
    ((catalog.fixtures category).map Fixture.name).Nodup := by
  unfold fixtures
  cases hfind : catalog.suite? category with
  | none => exact List.nodup_nil
  | some suite => exact h.nodup_names (List.mem_of_find?_eq_some hfind)

end WellFormed

-- A catalog is accepted exactly if it is well formed, and rejected for what it breaks first. In
-- an accepted one no category has a second suite, nor has a fixture the name of another.
theorem accepted_iff_wellFormed (catalog : Catalog) :
    (catalog.flaw? = none ↔ catalog.WellFormed) ∧
    (∀ flaw, catalog.flaw? = some flaw ↔ ∃ place, catalog.Breaks place flaw ∧
      ∀ place' flaw', catalog.Breaks place' flaw' → place ≤ place') ∧
    (catalog.flaw? = none → ∀ category,
      (catalog.suites.filter fun suite => suite.category = category) =
          (catalog.suite? category).toList ∧
        ((catalog.fixtures category).map Fixture.name).Nodup) := by
  refine ⟨flaw?_eq_none_iff, ?_, fun h category => ?_⟩
  · exact catalog.findsFirst_flaw?.eq_some_iff fun _ _ _ => Breaks.unique
  · have hformed := flaw?_eq_none_iff.mp h
    exact ⟨filter_eq_toList_find? hformed.categories category,
      hformed.nodup_names_fixtures category⟩

-- A name that stands twice is told before its code and before the suite that follows.
example : flaw? ⟨"1", [⟨.semanticInvalid, "", [.bare "a", .detailed "a" (some 300) true]⟩,
    ⟨.semanticInvalid, "", []⟩]⟩ = some (.repeatedFixture .semanticInvalid "a") := by
  decide +kernel

-- The same name in two suites, and a disabled entry between two others.
def orderly : Catalog :=
  ⟨"1", [⟨.valid, "valid", [.bare "a", .detailed "b" (some (-1)) true, .detailed "c" none false]⟩,
    ⟨.semanticInvalid, "semantic", [.bare "a"]⟩]⟩

theorem accepted_iff_wellFormed_orderly :
    orderly.flaw? = none ∧ orderly.WellFormed ∧
      (orderly.suites.filter fun suite => suite.category = .valid) =
        (orderly.suite? .valid).toList ∧
      ((orderly.fixtures .valid).map Fixture.name).Nodup := by
  have hflaw : orderly.flaw? = none := by decide +kernel
  obtain ⟨hiff, -, hdistinct⟩ := accepted_iff_wellFormed orderly
  exact ⟨hflaw, hiff.mp hflaw, hdistinct hflaw .valid⟩

end Catalog

end Conformance
