import Conformance.Json.Printer
import Conformance.Proofs.Json.Spelling
import Mathlib.Tactic.SplitIfs

namespace Conformance.Json

-- What may stand behind a value: the end, a blank, or what its container goes on with.
def Delimited (rest : List Char) : Prop :=
  ∀ c ∈ rest.head?, c = ',' ∨ c = ']' ∨ c = '\x7d' ∨ isBlank c = true

theorem delimited_append {before rest : List Char} (hbefore : Blanks before)
    (hrest : Delimited rest) : Delimited (before ++ rest) := by
  cases before with
  | nil => exact hrest
  | cons c more =>
      rintro _ ⟨⟩
      exact .inr (.inr (.inr (hbefore c List.mem_cons_self)))

theorem eq_of_isBlank {c : Char} (h : isBlank c = true) :
    c = ' ' ∨ c = '\n' ∨ c = '\t' ∨ c = '\r' := by
  simpa [isBlank, or_assoc] using h

section Strings

theorem escapeChar_of_plain {c : Char} (hquote : c ≠ '"') (hslash : c ≠ '\\')
    (hlow : ¬c.toNat < 0x20) : escapeChar c = [c] := by
  have hne : ∀ d : Char, d.toNat < 0x20 → c ≠ d := by
    rintro d hd rfl
    exact hlow hd
  simp only [escapeChar, if_neg hquote, if_neg hslash, if_neg hlow, if_neg (hne '\x08' (by decide)),
    if_neg (hne '\x0c' (by decide)), if_neg (hne '\n' (by decide)), if_neg (hne '\r' (by decide)),
    if_neg (hne '\t' (by decide))]

-- A control is written with two digits, and read as the number they write.
theorem unit?_of_control : ∀ n : Fin 32,
    unit? '0' '0' (Text.lowerHexDigit (n / 16)) (Text.lowerHexDigit (n % 16)) = some n.val := by
  decide

theorem not_isTrailingUnit_of_isLeadingUnit {n : Nat} (h : isLeadingUnit n = true) :
    isTrailingUnit n = false := by
  simp only [isLeadingUnit, Bool.and_eq_true, decide_eq_true_eq] at h
  simp only [isTrailingUnit, Bool.and_eq_false_iff, decide_eq_false_iff_not]
  omega

-- What is written for a character is a spelling of it.
theorem spellsChar_escapeChar (c : Char) : SpellsChar c (escapeChar c) := by
  by_cases hquote : c = '"'
  · exact hquote ▸ .short rfl
  by_cases hslash : c = '\\'
  · exact hslash ▸ .short rfl
  by_cases hlow : c.toNat < 0x20
  · unfold escapeChar
    split_ifs with hb hf hn hr ht
    · exact hb ▸ .short rfl
    · exact hf ▸ .short rfl
    · exact hn ▸ .short rfl
    · exact hr ▸ .short rfl
    · exact ht ▸ .short rfl
    · have hunit := unit?_of_control ⟨c.toNat, hlow⟩
      have hspells := SpellsChar.unit hunit
        (by simp only [isLeadingUnit, Bool.and_eq_false_iff, decide_eq_false_iff_not]; omega)
        (by simp only [isTrailingUnit, Bool.and_eq_false_iff, decide_eq_false_iff_not]; omega)
      rwa [Char.ofNat_toNat] at hspells
  · rw [escapeChar_of_plain hquote hslash hlow]
    exact .plain hquote hslash hlow

theorem spellsChars_flatMap_escapeChar (cs : List Char) :
    SpellsChars cs (cs.flatMap escapeChar) := by
  induction cs with
  | nil => exact .nil
  | cons c more ih => exact .cons (spellsChar_escapeChar c) ih

-- Each spelling of a character is read as that character.
theorem exists_stringPiece_eq {c : Char} {piece : List Char} (h : SpellsChar c piece) :
    ∃ e more, piece = e :: more ∧ e ≠ '"' ∧
      ∀ rest, stringPiece e (more ++ rest) = .ok (c, rest) := by
  cases h with
  | plain hquote hslash hlow =>
      refine ⟨c, [], rfl, hquote, fun rest => ?_⟩
      simp only [stringPiece, if_neg hslash, if_neg hlow, List.nil_append]
  | short h =>
      refine ⟨'\\', _, rfl, by decide, fun rest => ?_⟩
      unfold shortEscape? at h
      split_ifs at h with h₁ h₂ h₃ h₄ h₅ h₆ h₇ h₈ <;> subst_vars <;> cases h <;> rfl
  | unit h hlead htrail =>
      refine ⟨'\\', _, rfl, by decide, fun rest => ?_⟩
      simp only [List.cons_append, List.nil_append, stringPiece, h, hlead, htrail, if_true,
        Bool.false_eq_true, if_false]
  | pair h hlead h' htrail =>
      refine ⟨'\\', _, rfl, by decide, fun rest => ?_⟩
      have hsecond : isTrailingUnit _ = false := not_isTrailingUnit_of_isLeadingUnit hlead
      simp only [List.cons_append, List.nil_append, stringPiece, h, hlead, hsecond, h', htrail,
        if_true, Bool.false_eq_true, if_false]

-- Nothing that is written for a character breaks a line.
theorem printable_of_mem_escapeChar {c d : Char} (h : d ∈ escapeChar c) : 0x20 ≤ d.toNat := by
  have hdigits : ∀ n : Fin 32, 0x20 ≤ (Text.lowerHexDigit (n / 16)).toNat ∧
      0x20 ≤ (Text.lowerHexDigit (n % 16)).toNat := by
    decide
  have hshort : ∀ x : Char, 0x20 ≤ x.toNat → d ∈ ['\\', x] → 0x20 ≤ d.toNat := by
    intro x hx hd
    simp only [List.mem_cons, List.not_mem_nil, or_false] at hd
    obtain rfl | rfl := hd
    · decide
    · exact hx
  unfold escapeChar at h
  split_ifs at h with _ _ _ _ _ _ _ hlow
  · exact hshort _ (by decide) h
  · exact hshort _ (by decide) h
  · exact hshort _ (by decide) h
  · exact hshort _ (by decide) h
  · exact hshort _ (by decide) h
  · exact hshort _ (by decide) h
  · exact hshort _ (by decide) h
  · simp only [List.mem_cons, List.not_mem_nil, or_false] at h
    rcases h with rfl | rfl | rfl | rfl | rfl | rfl
    · decide
    · decide
    · decide
    · decide
    · exact (hdigits ⟨c.toNat, hlow⟩).1
    · exact (hdigits ⟨c.toNat, hlow⟩).2
  · rw [List.mem_singleton.mp h]
    exact Nat.le_of_not_lt hlow

theorem printable_of_mem_stringChars {s : String} {c : Char} (h : c ∈ stringChars s) :
    0x20 ≤ c.toNat := by
  simp only [stringChars, List.mem_cons, List.mem_append, List.mem_flatMap, List.not_mem_nil,
    or_false] at h
  rcases h with rfl | ⟨d, -, h⟩ | rfl
  · decide
  · exact printable_of_mem_escapeChar h
  · decide

theorem stringBody_of_spellsChars {cs text : List Char} (h : SpellsChars cs text)
    (done rest : List Char) {fuel : Nat} (hfuel : text.length < fuel) :
    stringBody fuel done (text ++ '"' :: rest) =
      .ok (String.ofList (done.reverse ++ cs), rest) := by
  induction h generalizing fuel done with
  | nil =>
      obtain ⟨fuel, rfl⟩ := Nat.exists_eq_succ_of_ne_zero (Nat.ne_zero_of_lt hfuel)
      simp [stringBody]
  | @cons c piece more text hpiece _ ih =>
      obtain ⟨fuel, rfl⟩ := Nat.exists_eq_succ_of_ne_zero (Nat.ne_zero_of_lt hfuel)
      obtain ⟨e, tail, rfl, hquote, hread⟩ := exists_stringPiece_eq hpiece
      have hshort : text.length < fuel := by
        simp only [List.length_append, List.length_cons] at hfuel
        omega
      have hmore := ih (c :: done) hshort
      rw [List.append_assoc, List.cons_append, stringBody, if_neg hquote, hread]
      simpa using hmore

-- Each spelling of a string is read as that string.
theorem readString_of_spellsChars {s : String} {text : List Char} (h : SpellsChars s.toList text)
    (rest : List Char) {fuel : Nat} (hfuel : text.length < fuel) :
    readString fuel (text ++ '"' :: rest) = .ok (.ok s, rest) := by
  rw [readString, stringBody_of_spellsChars h [] rest hfuel]
  simp

end Strings

section Numerals

theorem isDigit_of_mem_toDigits {c : Char} {n : Nat} (h : c ∈ Nat.toDigits 10 n) :
    isDigit c = true :=
  Nat.isDigit_of_mem_toDigits (by decide) (by decide) h

theorem ne_of_isDigit {c d : Char} (hc : isDigit c = true) (hd : isDigit d = false) : c ≠ d := by
  rintro rfl
  rw [hd] at hc
  cases hc

-- The digits of a number begin with what is neither blank nor of a container.
theorem exists_toDigits_eq (n : Nat) : ∃ c more, Nat.toDigits 10 n = c :: more ∧
    isDigit c = true ∧ isBlank c = false := by
  obtain ⟨c, more, hdigits⟩ := List.exists_cons_of_ne_nil (@Nat.toDigits_ne_nil n 10)
  have hc : isDigit c = true := isDigit_of_mem_toDigits (hdigits ▸ List.mem_cons_self)
  refine ⟨c, more, hdigits, hc, ?_⟩
  simp [isBlank, ne_of_isDigit hc (d := ' ') rfl, ne_of_isDigit hc (d := '\n') rfl,
    ne_of_isDigit hc (d := '\t') rfl, ne_of_isDigit hc (d := '\r') rfl]

theorem head?_toDigits_ne_zero {n : Nat} (h : 0 < n) : (Nat.toDigits 10 n).head? ≠ some '0' := by
  induction n using Nat.strongRecOn with
  | ind n ih =>
      rw [Nat.toDigits_eq_if (by decide)]
      split_ifs with hn
      · simpa using Nat.ne_of_gt h
      · intro hzero
        apply ih (n / 10) (by omega) (by omega)
        obtain ⟨c, more, hdigits⟩ := List.exists_cons_of_ne_nil (@Nat.toDigits_ne_nil (n / 10) 10)
        rw [hdigits] at hzero ⊢
        exact hzero

theorem takeWhile_isDigit_of_delimited {rest : List Char} (h : Delimited rest) :
    rest.takeWhile isDigit = [] ∧ rest.dropWhile isDigit = rest := by
  cases rest with
  | nil => exact ⟨rfl, rfl⟩
  | cons c more =>
      have hdigit : isDigit c = false := by
        rcases h c rfl with rfl | rfl | rfl | hblank
        · rfl
        · rfl
        · rfl
        · rcases eq_of_isBlank hblank with rfl | rfl | rfl | rfl <;> rfl
      exact ⟨by rw [List.takeWhile_cons, hdigit]; rfl, by rw [List.dropWhile_cons, hdigit]; rfl⟩

theorem readFraction_of_delimited (negative : Bool) (whole : List Nat) {rest : List Char}
    (h : Delimited rest) :
    readFraction negative whole rest = .ok (⟨negative, whole, none, none⟩, rest) := by
  cases rest with
  | nil => rfl
  | cons c more =>
      rcases h c rfl with rfl | rfl | rfl | hblank
      · rfl
      · rfl
      · rfl
      · rcases eq_of_isBlank hblank with rfl | rfl | rfl | rfl <;> rfl

theorem readDigits_toDigits (negative : Bool) (n : Nat) {rest : List Char} (h : Delimited rest) :
    readDigits negative (Nat.toDigits 10 n ++ rest) =
      .ok (⟨negative, digitValues (Nat.toDigits 10 n), none, none⟩, rest) := by
  obtain ⟨htake, hdrop⟩ := takeWhile_isDigit_of_delimited h
  have hall : ∀ c ∈ Nat.toDigits 10 n, isDigit c = true := fun c hc => isDigit_of_mem_toDigits hc
  simp only [readDigits, List.takeWhile_append_of_pos hall, List.dropWhile_append_of_pos hall,
    htake, hdrop, List.append_nil]
  rcases Nat.eq_zero_or_pos n with rfl | hn
  · rw [Nat.toDigits_zero]
    exact readFraction_of_delimited negative [0] h
  · have hhead := head?_toDigits_ne_zero hn
    split
    · rename_i hnil
      exact absurd hnil Nat.toDigits_ne_nil
    · rename_i hzero
      simp [hzero] at hhead
    · rename_i hzero
      simp [hzero] at hhead
    · exact readFraction_of_delimited negative _ h

theorem le_ofDigitChars (cs : List Char) (m : Nat) : m ≤ Nat.ofDigitChars 10 cs m := by
  induction cs generalizing m with
  | nil => simp
  | cons c more ih =>
      rw [Nat.ofDigitChars_cons]
      exact Nat.le_trans (by omega) (ih _)

theorem takeDigits_of_lt {limit : Nat} {cs : List Char} {m : Nat}
    (h : Nat.ofDigitChars 10 cs m < limit) :
    takeDigits limit m (digitValues cs) = (Nat.ofDigitChars 10 cs m, []) := by
  induction cs generalizing m with
  | nil => simp [digitValues, takeDigits]
  | cons c more ih =>
      rw [Nat.ofDigitChars_cons, Nat.mul_comm] at h ⊢
      have hstep : m * 10 + (c.toNat - 48) < limit :=
        Nat.lt_of_le_of_lt (le_ofDigitChars more _) h
      rw [digitValues, List.map_cons, takeDigits, if_pos hstep]
      exact ih h

-- Whole numbers that 64 bits hold are written and read without loss.
def Number.IsExact : Number → Prop
  | .int i => -9223372036854775808 ≤ i ∧ i < wordLimit
  | .float _ => False

theorem number_toDigits {n : Nat} (h : n < wordLimit) :
    (⟨false, digitValues (Nat.toDigits 10 n), none, none⟩ : Literal).number = .ok (.int n) := by
  have htake : takeDigits wordLimit 0 (digitValues (Nat.toDigits 10 n)) = (n, []) := by
    rw [takeDigits_of_lt] <;> rw [Nat.ofDigitChars_ten_toDigits]
    exact h
  simp [Literal.number, htake]

theorem number_toDigits_negative {n : Nat} (hn : n ≠ 0) (h : n ≤ 9223372036854775808) :
    (⟨true, digitValues (Nat.toDigits 10 n), none, none⟩ : Literal).number = .ok (.int (-n)) := by
  have hlimit : n < wordLimit := Nat.lt_of_le_of_lt h (by decide)
  have htake : takeDigits wordLimit 0 (digitValues (Nat.toDigits 10 n)) = (n, []) := by
    rw [takeDigits_of_lt] <;> rw [Nat.ofDigitChars_ten_toDigits]
    exact hlimit
  simp [Literal.number, htake, hn, h]

end Numerals

section Scalars

variable {rest : List Char} {fuel levels : Nat}

theorem readDocument_scalar {c : Char} (hblank : isBlank c = false) (hlist : c ≠ '[')
    (hrecord : c ≠ '\x7b') :
    readDocument (fuel + 1) levels (c :: rest) = readScalar fuel c rest := by
  have hskip : skipBlanks (c :: rest) = c :: rest := by
    rw [skipBlanks, List.dropWhile_cons, hblank]
    rfl
  rw [readDocument, hskip]
  simp only [if_neg hlist, if_neg hrecord]

theorem readScalar_of_isDigit {c : Char} (h : isDigit c = true) :
    readScalar fuel c rest = Reading.ofNumber (readDigits false (c :: rest)) := by
  have hne : ∀ d, isDigit d = false → c ≠ d := fun d hd => ne_of_isDigit h hd
  simp only [readScalar, h, if_true, if_neg (hne 'n' rfl), if_neg (hne 't' rfl),
    if_neg (hne 'f' rfl), if_neg (hne '"' rfl), if_neg (hne '-' rfl)]

theorem toList_text_ofNat (n : Nat) : (Number.int (.ofNat n)).text.toList = Nat.toDigits 10 n :=
  Nat.toList_repr

theorem toList_text_negSucc (n : Nat) :
    (Number.int (.negSucc n)).text.toList = '-' :: Nat.toDigits 10 (n + 1) := by
  have hrepr : (Number.int (.negSucc n)).text = "-" ++ Nat.repr (n + 1) := rfl
  rw [hrepr, String.toList_append, Nat.toList_repr]
  rfl

theorem printable_of_mem_toDigits {c : Char} {n : Nat} (h : c ∈ Nat.toDigits 10 n) :
    0x20 ≤ c.toNat := by
  have hdigit := isDigit_of_mem_toDigits h
  simp only [isDigit, Bool.and_eq_true, decide_eq_true_eq] at hdigit
  exact Nat.le_trans (by decide) (UInt32.le_iff_toNat_le.mp hdigit.1)

theorem printable_of_mem_text {n : Number} (hexact : n.IsExact) {c : Char}
    (h : c ∈ n.text.toList) : 0x20 ≤ c.toNat := by
  cases n with
  | float x => exact hexact.elim
  | int i =>
      cases i with
      | ofNat n =>
          rw [toList_text_ofNat] at h
          exact printable_of_mem_toDigits h
      | negSucc n =>
          rw [toList_text_negSucc] at h
          rcases List.mem_cons.mp h with rfl | h
          · decide
          · exact printable_of_mem_toDigits h

-- The text written for a number is read as that number.
theorem readDocument_number {n : Number} (hexact : n.IsExact) (hrest : Delimited rest) :
    readDocument (fuel + 1) levels (n.text.toList ++ rest) = (.number (.ok n), some rest) := by
  cases n with
  | float x => exact hexact.elim
  | int i =>
      obtain ⟨hlow, hhigh⟩ := hexact
      cases i with
      | ofNat n =>
          have hread := readDigits_toDigits false n hrest
          rw [toList_text_ofNat]
          obtain ⟨c, more, hdigits, hc, hblank⟩ := exists_toDigits_eq n
          rw [hdigits, List.cons_append] at hread
          rw [hdigits, List.cons_append, readDocument_scalar hblank (ne_of_isDigit hc rfl)
            (ne_of_isDigit hc rfl), readScalar_of_isDigit hc, hread, Reading.ofNumber, ← hdigits,
            number_toDigits (Int.ofNat_lt.mp hhigh)]
          rfl
      | negSucc n =>
          have hread := readDigits_toDigits true (n + 1) hrest
          have hbound : n + 1 ≤ 9223372036854775808 := by omega
          rw [toList_text_negSucc, List.cons_append,
            readDocument_scalar (by decide) (by decide) (by decide)]
          have hsign : readScalar fuel '-' (Nat.toDigits 10 (n + 1) ++ rest) =
              Reading.ofNumber (readDigits true (Nat.toDigits 10 (n + 1) ++ rest)) := rfl
          rw [hsign, hread, Reading.ofNumber, number_toDigits_negative (by omega) hbound]
          rfl

theorem readDocument_string {s : String} {text : List Char} (h : SpellsChars s.toList text)
    (hfuel : text.length < fuel) :
    readDocument (fuel + 1) levels ('"' :: (text ++ '"' :: rest)) =
      (.string (.ok s), some rest) := by
  have hscalar : ∀ cs, readScalar fuel '"' cs = Reading.ofString (readString fuel cs) :=
    fun _ => rfl
  rw [readDocument_scalar (by decide) (by decide) (by decide), hscalar,
    readString_of_spellsChars h rest hfuel]
  rfl

end Scalars

end Conformance.Json
