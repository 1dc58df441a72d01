namespace Conformance.Text

abbrev Bytes := List UInt8

-- The UTF-8 form of a text.
def bytesOf (s : String) : Bytes :=
  s.toList.flatMap String.utf8EncodeChar

namespace Utf8

-- The ranges in which the bytes after a leading byte must lie.
def followers (lead : UInt8) : Option (List (UInt8 × UInt8)) :=
  let n := lead.toNat
  if n < 0x80 then some []
  else if n < 0xC2 then none
  else if n < 0xE0 then some [(0x80, 0xBF)]
  else if n = 0xE0 then some [(0xA0, 0xBF), (0x80, 0xBF)]
  else if n = 0xED then some [(0x80, 0x9F), (0x80, 0xBF)]
  else if n < 0xF0 then some [(0x80, 0xBF), (0x80, 0xBF)]
  else if n = 0xF0 then some [(0x90, 0xBF), (0x80, 0xBF), (0x80, 0xBF)]
  else if n < 0xF4 then some [(0x80, 0xBF), (0x80, 0xBF), (0x80, 0xBF)]
  else if n = 0xF4 then some [(0x80, 0x8F), (0x80, 0xBF), (0x80, 0xBF)]
  else none

-- The longest run of bytes that lie in the given ranges, one by one.
def matching : List (UInt8 × UInt8) → Bytes → Bytes
  | (low, high) :: ranges, b :: rest =>
      if low ≤ b ∧ b ≤ high then b :: matching ranges rest else []
  | _, _ => []

-- The number written by a leading byte and all its followers.
def codePoint (lead : UInt8) (tail : Bytes) : Nat :=
  let first := match tail.length with
    | 0 => lead.toNat
    | 1 => lead.toNat % 0x20
    | 2 => lead.toNat % 0x10
    | _ => lead.toNat % 0x08
  tail.foldl (fun n b => n * 0x40 + b.toNat % 0x40) first

-- The first piece of a byte string: a character, or nothing for a longest
-- beginning of a character that is cut short or for a byte that begins none.
def firstPiece (lead : UInt8) (rest : Bytes) : Option Char × Nat :=
  match followers lead with
  | none => (none, 0)
  | some ranges =>
      let tail := matching ranges rest
      if tail.length = ranges.length then (some (Char.ofNat (codePoint lead tail)), tail.length)
      else (none, tail.length)

def pieces : Bytes → List (Option Char)
  | [] => []
  | lead :: rest =>
      let piece := firstPiece lead rest
      piece.1 :: pieces (rest.drop piece.2)
termination_by bytes => bytes.length
decreasing_by simp only [List.length_drop, List.length_cons]; omega

def replacement : Char := '\uFFFD'

end Utf8

-- Every character, with one U+FFFD for each longest piece that is none.
def lossy (bytes : Bytes) : String :=
  String.ofList ((Utf8.pieces bytes).map fun piece => piece.getD Utf8.replacement)

-- The text with this UTF-8 form, if there is one.
def ofBytes? (bytes : Bytes) : Option String :=
  ((Utf8.pieces bytes).mapM id).map String.ofList

end Conformance.Text
