import Conformance.Json.Document

namespace Conformance.Json

def Blanks (cs : List Char) : Prop :=
  ∀ c ∈ cs, isBlank c = true

theorem blanks_nil : Blanks [] :=
  fun _ h => absurd h List.not_mem_nil

-- A character of a string as itself or as an escape. What lies beyond the basic plane may
-- be escaped by a pair of units.
inductive SpellsChar : Char → List Char → Prop where
  | plain (hquote : c ≠ '"') (hslash : c ≠ '\\') (hlow : ¬c.toNat < 0x20) : SpellsChar c [c]
  | short (h : shortEscape? e = some c) : SpellsChar c ['\\', e]
  | unit (h : unit? a b c d = some n) (hlead : isLeadingUnit n = false)
      (htrail : isTrailingUnit n = false) : SpellsChar (Char.ofNat n) ['\\', 'u', a, b, c, d]
  | pair (h : unit? a b c d = some lead) (hlead : isLeadingUnit lead = true)
      (h' : unit? e f g i = some trail) (htrail : isTrailingUnit trail = true) :
      SpellsChar (pairedUnits lead trail)
        ['\\', 'u', a, b, c, d, '\\', 'u', e, f, g, i]

inductive SpellsChars : List Char → List Char → Prop where
  | nil : SpellsChars [] []
  | cons (h : SpellsChar c piece) (hrest : SpellsChars more cs) :
      SpellsChars (c :: more) (piece ++ cs)

mutual

-- The texts of a value. Inside of it, blanks may stand between any two of its parts.
inductive Spells : Value → List Char → Prop where
  | null : Spells .null ['n', 'u', 'l', 'l']
  | true : Spells (.bool true) ['t', 'r', 'u', 'e']
  | false : Spells (.bool false) ['f', 'a', 'l', 's', 'e']
  | int (i : Int) : Spells (.number (.int i)) (Number.int i).text.toList
  | string (h : SpellsChars s.toList cs) : Spells (.string s) ('"' :: (cs ++ ['"']))
  | array (h : SpellsItems true items cs) : Spells (.array items) ('[' :: cs)
  | object (h : SpellsMembers true members cs) : Spells (.object members) ('\x7b' :: cs)

-- The items of a list up to its end, from the first one on or from behind one.
inductive SpellsItems : Bool → List Value → List Char → Prop where
  | close (hbefore : Blanks before) : SpellsItems first [] (before ++ [']'])
  | first (hbefore : Blanks before) (h : Spells v own) (hrest : SpellsItems false more cs) :
      SpellsItems true (v :: more) (before ++ (own ++ cs))
  | next (hbetween : Blanks between) (hbefore : Blanks before) (h : Spells v own)
      (hrest : SpellsItems false more cs) :
      SpellsItems false (v :: more) (between ++ ',' :: (before ++ (own ++ cs)))

inductive SpellsMembers : Bool → List (String × Value) → List Char → Prop where
  | close (hbefore : Blanks before) : SpellsMembers first [] (before ++ ['\x7d'])
  | first (hbefore : Blanks before) (h : SpellsMember member own)
      (hrest : SpellsMembers false more cs) :
      SpellsMembers true (member :: more) (before ++ '"' :: (own ++ cs))
  | next (hbetween : Blanks between) (hbefore : Blanks before) (h : SpellsMember member own)
      (hrest : SpellsMembers false more cs) :
      SpellsMembers false (member :: more) (between ++ ',' :: (before ++ '"' :: (own ++ cs)))

-- A member behind the quotation mark that opens its name.
inductive SpellsMember : String × Value → List Char → Prop where
  | mk (hname : SpellsChars name.toList cs) (hbetween : Blanks between) (hbefore : Blanks before)
      (h : Spells v own) :
      SpellsMember (name, v) (cs ++ '"' :: (between ++ ':' :: (before ++ own)))

end

-- A whole text, with nothing but blanks around the value.
def Value.SpelledBy (v : Value) (text : String) : Prop :=
  ∃ before own after, text.toList = before ++ (own ++ after) ∧ Blanks before ∧ Spells v own ∧
    Blanks after

end Conformance.Json
