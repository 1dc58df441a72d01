namespace Conformance.Text

-- Each piece but the last had a line feed after it.
def splitFeeds : List Char → List (List Char)
  | [] => [[]]
  | c :: rest =>
      if c = '\n' then [] :: splitFeeds rest
      else match splitFeeds rest with
        | [] => [[c]]
        | piece :: more => (c :: piece) :: more

-- One carriage return at the end of a line belongs to the line end.
def dropReturn (line : List Char) : List Char :=
  match line.reverse with
  | '\r' :: rest => rest.reverse
  | _ => line

-- The lines of a text. A line feed ends a line, so no line follows the last
-- one, and only a line that was ended gives up its carriage return.
def linesOf : List (List Char) → List (List Char)
  | [] => []
  | [last] => if last.isEmpty then [] else [last]
  | piece :: rest => dropReturn piece :: linesOf rest

def lines (s : String) : List String :=
  (linesOf (splitFeeds s.toList)).map String.ofList

-- The lines of a text with the line feeds behind them.
def linesWithEnds (s : String) : List String :=
  let pieces := splitFeeds s.toList
  let ended := pieces.dropLast.map fun line => String.ofList (line ++ ['\n'])
  match pieces.getLast? with
  | some (c :: rest) => ended ++ [String.ofList (c :: rest)]
  | _ => ended

-- Left padding with zeros up to a width; wider numbers keep all digits.
def zeroPadded (width n : Nat) : String :=
  let digits := toString n
  String.ofList (List.replicate (width - digits.length) '0') ++ digits

def lowerHexDigit (n : Nat) : Char :=
  if n < 10 then Char.ofNat (48 + n) else Char.ofNat (87 + n)

-- Two lower case digits for each byte.
def hexOfByte (b : UInt8) : List Char :=
  [lowerHexDigit (b.toNat / 16), lowerHexDigit (b.toNat % 16)]

def hexOfBytes (bytes : List UInt8) : String :=
  String.ofList (bytes.flatMap hexOfByte)

def hexValue? (c : Char) : Option Nat :=
  let n := c.toNat
  if 48 ≤ n ∧ n ≤ 57 then some (n - 48)
  else if 97 ≤ n ∧ n ≤ 102 then some (n - 87)
  else if 65 ≤ n ∧ n ≤ 70 then some (n - 55)
  else none

def lowerAscii (c : Char) : Char :=
  if 'A' ≤ c ∧ c ≤ 'Z' then Char.ofNat (c.toNat + 32) else c

-- Case is folded for the 26 letters of ASCII only.
def lowerAsciiText (s : String) : String :=
  String.ofList (s.toList.map lowerAscii)

-- Whether a list occurs in another one as a block.
def hasBlock [DecidableEq α] (block : List α) : List α → Bool
  | [] => block.isEmpty
  | a :: rest => block.isPrefixOf (a :: rest) || hasBlock block rest

def contains (s part : String) : Bool :=
  hasBlock part.toList s.toList

-- The text before a final block, when it ends with that block.
def dropEnding? (s ending : String) : Option String :=
  let cs := s.toList
  let es := ending.toList
  if es.isSuffixOf cs then some (String.ofList (cs.take (cs.length - es.length))) else none

-- The characters with the Unicode property White_Space, 25 in all.
def isBlank (c : Char) : Bool :=
  let n := c.toNat
  (0x9 ≤ n && n ≤ 0xD) || n == 0x20 || n == 0x85 || n == 0xA0 || n == 0x1680 ||
    (0x2000 ≤ n && n ≤ 0x200A) || n == 0x2028 || n == 0x2029 || n == 0x202F || n == 0x205F ||
    n == 0x3000

def trimLeft (cs : List Char) : List Char :=
  cs.dropWhile isBlank

def trimRight (cs : List Char) : List Char :=
  (trimLeft cs.reverse).reverse

def trimChars (cs : List Char) : List Char :=
  trimRight (trimLeft cs)

-- Blank characters are removed at both ends and kept inside.
def trim (s : String) : String :=
  String.ofList (trimChars s.toList)

-- A text is blank when it holds nothing but blank characters.
def isBlankText (s : String) : Bool :=
  s.toList.all isBlank

end Conformance.Text
