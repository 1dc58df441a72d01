import Conformance.Json.Literal
import Conformance.Text.Lines

namespace Conformance.Json

-- What stands at a place, as a diagnostic names it.
inductive Found where
  | null
  | bool (b : Bool)
  | number (n : Number)
  | string (s : String)
  | sequence
  | map

-- A place where the text stops being a document. The fault to report depends
-- on what the place is read for: a value that is wanted, a value that is
-- passed over, or a variant; among members, the place is behind the one that
-- the variant has.
structure Stop where
  asRead : Fault
  asSkipped : Fault
  asVariant : Fault
  -- of the member that breaks off behind its name
  name : Option String := none

def Stop.same (f : Fault) : Stop :=
  ⟨f, f, f, none⟩

-- A text as a tree. Nothing follows a place where the text stops being a
-- document, so such a place is the last one in its tree. Strings and numbers
-- may be well written and yet have no value. Of a container that stands too
-- deep to be read, only where it stops is known.
inductive Document where
  | null
  | bool (b : Bool)
  | number (n : Except Fault Number)
  | string (s : Except Fault String)
  | list (items : List Document) (stop : Option Stop)
  | record (members : List (Except Fault String × Document)) (stop : Option Stop)
  | deep (isList : Bool) (stop : Option Stop)
  | broken (stop : Stop)

def isBlank (c : Char) : Bool :=
  c = ' ' || c = '\n' || c = '\t' || c = '\r'

def skipBlanks (cs : List Char) : List Char :=
  cs.dropWhile isBlank

def byteCount (cs : List Char) : Nat :=
  cs.foldl (fun n c => n + c.utf8Size) 0

-- Four digits in base sixteen.
def unit? (a b c d : Char) : Option Nat := do
  let a ← Text.hexValue? a
  let b ← Text.hexValue? b
  let c ← Text.hexValue? c
  let d ← Text.hexValue? d
  pure (((a * 16 + b) * 16 + c) * 16 + d)

-- The fault of an escape that lacks its four digits.
def unitFault (cs : List Char) : Fault :=
  if byteCount cs < 4 then .endInString else .badEscape

def shortEscape? (c : Char) : Option Char :=
  if c = '"' then some '"'
  else if c = '\\' then some '\\'
  else if c = '/' then some '/'
  else if c = 'b' then some '\x08'
  else if c = 'f' then some '\x0c'
  else if c = 'n' then some '\n'
  else if c = 'r' then some '\r'
  else if c = 't' then some '\t'
  else none

def isLeadingUnit (n : Nat) : Bool :=
  0xD800 ≤ n && n ≤ 0xDBFF

def isTrailingUnit (n : Nat) : Bool :=
  0xDC00 ≤ n && n ≤ 0xDFFF

def pairedUnits (lead trail : Nat) : Char :=
  Char.ofNat ((lead - 0xD800) * 0x400 + (trail - 0xDC00) + 0x10000)

-- One character or escape of a string, with the text behind it. A character
-- beyond the basic plane is written by a pair of escapes.
def stringPiece (c : Char) (rest : List Char) : Except Fault (Char × List Char) :=
  if c = '\\' then
    match rest with
    | [] => .error .endInString
    | 'u' :: a :: b :: c :: d :: more =>
        match unit? a b c d with
        | none => .error (unitFault (a :: b :: c :: d :: more))
        | some lead =>
            if isTrailingUnit lead then .error .loneSurrogate
            else if isLeadingUnit lead then
              match more with
              | [] => .error .endInString
              | ['\\'] => .error .endInString
              | '\\' :: 'u' :: e :: f :: g :: h :: last =>
                  match unit? e f g h with
                  | none => .error (unitFault (e :: f :: g :: h :: last))
                  | some trail =>
                      if isTrailingUnit trail then .ok (pairedUnits lead trail, last)
                      else .error .loneSurrogate
              | '\\' :: 'u' :: short => .error (unitFault short)
              | _ => .error .unpairedSurrogate
            else .ok (Char.ofNat lead, more)
    | 'u' :: short => .error (unitFault short)
    | e :: more =>
        match shortEscape? e with
        | some x => .ok (x, more)
        | none => .error .badEscape
  else if c.toNat < 0x20 then .error .control
  else .ok (c, rest)

-- The string behind an opening quotation mark, read up to the closing one.
def stringBody : Nat → List Char → List Char → Except Fault (String × List Char)
  | 0, _, _ => .error .endInString
  | _ + 1, _, [] => .error .endInString
  | fuel + 1, done, c :: rest =>
      if c = '"' then .ok (String.ofList done.reverse, rest)
      else match stringPiece c rest with
        | .error f => .error f
        | .ok (x, more) => stringBody fuel (x :: done) more

-- The end of a string whose content does not matter: escapes need their
-- digits, but surrogates need no partner.
def stringEnd : Nat → List Char → Except Fault (List Char)
  | 0, _ => .error .endInString
  | _ + 1, [] => .error .endInString
  | fuel + 1, c :: rest =>
      if c = '"' then .ok rest
      else if c = '\\' then
        match rest with
        | [] => .error .endInString
        | 'u' :: a :: b :: c :: d :: more =>
            match unit? a b c d with
            | none => .error (unitFault (a :: b :: c :: d :: more))
            | some _ => stringEnd fuel more
        | 'u' :: short => .error (unitFault short)
        | e :: more => if (shortEscape? e).isSome then stringEnd fuel more else .error .badEscape
      else if c.toNat < 0x20 then .error .control
      else stringEnd fuel rest

-- A string's value and the text behind it, or the place where it breaks. The
-- fuel must exceed the length of the text.
def readString (fuel : Nat) (cs : List Char) : Except Stop (Except Fault String × List Char) :=
  match stringBody fuel [] cs with
  | .ok (s, rest) => .ok (.ok s, rest)
  | .error f =>
      match stringEnd fuel cs with
      | .ok rest => .ok (.error f, rest)
      | .error g => .error ⟨f, g, f, none⟩

def isDigit (c : Char) : Bool :=
  '0' ≤ c && c ≤ '9'

def digitValues (cs : List Char) : List Nat :=
  cs.map fun c => c.toNat - 48

-- A number that breaks off, or goes on with what no number has.
def numberStop (rest : List Char) : Stop :=
  ⟨if rest.isEmpty then .endInValue else .badNumber, .badNumber, .expectedValue, none⟩

def readPower (negative : Bool) (whole : List Nat) (fraction : Option (List Nat)) :
    List Char → Except Stop (Literal × List Char)
  | [] => .ok (⟨negative, whole, fraction, none⟩, [])
  | c :: rest =>
      if c = 'e' ∨ c = 'E' then
        let (down, body) := match rest with
          | '+' :: more => (false, more)
          | '-' :: more => (true, more)
          | _ => (false, rest)
        let digits := body.takeWhile isDigit
        if digits.isEmpty then .error (numberStop body)
        else
          let power := some (down, digitValues digits)
          .ok (⟨negative, whole, fraction, power⟩, body.dropWhile isDigit)
      else .ok (⟨negative, whole, fraction, none⟩, c :: rest)

def readFraction (negative : Bool) (whole : List Nat) :
    List Char → Except Stop (Literal × List Char)
  | '.' :: rest =>
      let digits := rest.takeWhile isDigit
      if digits.isEmpty then .error (numberStop rest)
      else readPower negative whole (some (digitValues digits)) (rest.dropWhile isDigit)
  | rest => readPower negative whole none rest

-- The digits of a number behind its sign. A leading zero stands alone.
def readDigits (negative : Bool) (cs : List Char) : Except Stop (Literal × List Char) :=
  let digits := cs.takeWhile isDigit
  match digits with
  | [] => .error (numberStop cs)
  | ['0'] => readFraction negative [0] (cs.dropWhile isDigit)
  | '0' :: _ => .error ⟨.badNumber, .badNumber, .expectedValue, none⟩
  | _ => readFraction negative (digitValues digits) (cs.dropWhile isDigit)

-- The text behind a word of which the first character is known.
def readWord : List Char → List Char → Except Stop (List Char)
  | [], rest => .ok rest
  | _ :: _, [] => .error ⟨.endInValue, .endInValue, .expectedValue, none⟩
  | w :: word, c :: rest =>
      if w = c then readWord word rest
      else .error ⟨.expectedWord, .expectedWord, .expectedValue, none⟩

-- A document with the text behind it, which is missing where the text stops
-- being a document.
abbrev Reading := Document × Option (List Char)

def Reading.ofWord (d : Document) : Except Stop (List Char) → Reading
  | .ok rest => (d, some rest)
  | .error stop => (.broken stop, none)

def Reading.ofNumber : Except Stop (Literal × List Char) → Reading
  | .ok (l, rest) => (.number l.number, some rest)
  | .error stop => (.broken stop, none)

def Reading.ofString : Except Stop (Except Fault String × List Char) → Reading
  | .ok (s, rest) => (.string s, some rest)
  | .error stop => (.broken stop, none)

-- How a diagnostic names the document at a place, when it has a value there.
def Document.found : Document → Except Fault Found
  | .null => .ok .null
  | .bool b => .ok (.bool b)
  | .number n => n.map .number
  | .string s => s.map .string
  | .list _ _ => .ok .sequence
  | .record _ _ => .ok .map
  | .deep isList _ => .ok (if isList then .sequence else .map)
  | .broken stop => .error stop.asRead

-- What comes next in a container: its end, or an item or member, of which the
-- text begins here.
inductive Next where
  | closed (rest : List Char)
  | entry (cs : List Char)
  | stopped (stop : Stop)

-- Behind an opening bracket, or behind an item.
def nextItem (first : Bool) (cs : List Char) : Next :=
  match skipBlanks cs with
  | [] => .stopped (Stop.same .endInList)
  | c :: rest =>
      if c = ']' then .closed rest
      else if first then .entry (c :: rest)
      else if c = ',' then
        match skipBlanks rest with
        | [] => .stopped (Stop.same .endInValue)
        | d :: more =>
            if d = ']' then .stopped ⟨.finalComma, .expectedValue, .finalComma, none⟩
            else .entry (d :: more)
      else .stopped (Stop.same .expectedListComma)

-- Behind an opening brace, or behind a member. The text of a member begins
-- behind the quotation mark of its name.
def nextMember (first : Bool) (cs : List Char) : Next :=
  match skipBlanks cs with
  | [] => .stopped (Stop.same .endInObject)
  | c :: rest =>
      if c = '\x7d' then .closed rest
      else if first then
        if c = '"' then .entry rest else .stopped (Stop.same .keyNotString)
      else if c = ',' then
        match skipBlanks rest with
        | [] => .stopped ⟨.endInValue, .endInObject, .expectedValue, none⟩
        | d :: more =>
            if d = '"' then .entry more
            else if d = '\x7d' then .stopped ⟨.finalComma, .keyNotString, .expectedValue, none⟩
            else .stopped ⟨.keyNotString, .keyNotString, .expectedValue, none⟩
      else .stopped ⟨.expectedObjectComma, .expectedObjectComma, .expectedValue, none⟩

-- The name of a member and the text of its value.
def readName (fuel : Nat) (cs : List Char) : Except Stop (Except Fault String × List Char) :=
  match readString fuel cs with
  | .error stop => .error { stop with asVariant := .expectedValue }
  | .ok (name, rest) =>
      let noColon (f : Fault) : Except Stop (Except Fault String × List Char) :=
        match name with
        | .ok s => .error ⟨f, f, .expectedValue, some s⟩
        | .error g => .error ⟨g, f, .expectedValue, none⟩
      match skipBlanks rest with
      | [] => noColon .endInObject
      | c :: more => if c = ':' then .ok (name, more) else noColon .expectedColon

-- A document that is no container.
def readScalar (fuel : Nat) (c : Char) (rest : List Char) : Reading :=
  if c = 'n' then Reading.ofWord .null (readWord ['u', 'l', 'l'] rest)
  else if c = 't' then Reading.ofWord (.bool true) (readWord ['r', 'u', 'e'] rest)
  else if c = 'f' then Reading.ofWord (.bool false) (readWord ['a', 'l', 's', 'e'] rest)
  else if c = '"' then Reading.ofString (readString fuel rest)
  else if c = '-' then Reading.ofNumber (readDigits true rest)
  else if isDigit c then Reading.ofNumber (readDigits false (c :: rest))
  else (.broken (Stop.same .expectedValue), none)

-- The kinds of the containers around a place, innermost first: whether each
-- is a list.
abbrev Around := List Bool

-- The text behind a container that is passed over. In it, the next thing is an
-- entry, or what follows one; a value is reached from an entry.
def skim : Nat → Around → Bool → List Char → Except Stop (List Char)
  | 0, _, _, _ => .error (Stop.same .endInValue)
  | _ + 1, [], _, cs => .ok cs
  | fuel + 1, isList :: around, first, cs =>
      match (if isList then nextItem first cs else nextMember first cs) with
      | .stopped stop => .error stop
      | .closed rest => skim fuel around false rest
      | .entry cs =>
          match (if isList then .ok cs else (readName fuel cs).map Prod.snd) with
          | .error stop => .error stop
          | .ok cs =>
              match skipBlanks cs with
              | [] => .error (Stop.same .endInValue)
              | c :: rest =>
                  if c = '[' then skim fuel (true :: isList :: around) true rest
                  else if c = '\x7b' then skim fuel (false :: isList :: around) true rest
                  else match readScalar fuel c rest with
                    | (.broken stop, _) => .error stop
                    | (_, none) => .error (Stop.same .endInValue)
                    | (_, some rest) => skim fuel (isList :: around) false rest

def Reading.ofSkim (isList : Bool) : Except Stop (List Char) → Reading
  | .ok rest => (.deep isList none, some rest)
  | .error stop => (.deep isList (some stop), none)

structure ItemsReading where
  items : List Document
  stop : Option Stop
  rest : Option (List Char)

structure MembersReading where
  members : List (Except Fault String × Document)
  stop : Option Stop
  rest : Option (List Char)

mutual

-- A document at the beginning of a text, with containers as deep as the given
-- number of levels. Fuel above the length of the text never runs out: every
-- call passes at least one character by, or opens a container that did.
def readDocument : Nat → Nat → List Char → Reading
  | 0, _, _ => (.broken (Stop.same .endInValue), none)
  | fuel + 1, levels, cs =>
      match skipBlanks cs with
      | [] => (.broken (Stop.same .endInValue), none)
      | c :: rest =>
          if c = '[' then
            match levels with
            | 0 => Reading.ofSkim true (skim fuel [true] true rest)
            | levels + 1 =>
                let r := readItems fuel levels true [] rest
                (.list r.items r.stop, r.rest)
          else if c = '\x7b' then
            match levels with
            | 0 => Reading.ofSkim false (skim fuel [false] true rest)
            | levels + 1 =>
                let r := readMembers fuel levels true [] rest
                (.record r.members r.stop, r.rest)
          else readScalar fuel c rest

-- The items of a list from behind those that are done, latest first.
def readItems : Nat → Nat → Bool → List Document → List Char → ItemsReading
  | 0, _, _, done, _ => ⟨done.reverse, some (Stop.same .endInList), none⟩
  | fuel + 1, levels, first, done, cs =>
      match nextItem first cs with
      | .stopped stop => ⟨done.reverse, some stop, none⟩
      | .closed rest => ⟨done.reverse, none, some rest⟩
      | .entry cs =>
          match readDocument fuel levels cs with
          | (d, none) => ⟨(d :: done).reverse, none, none⟩
          | (d, some rest) => readItems fuel levels false (d :: done) rest

-- The members of an object from behind those that are done, latest first.
def readMembers : Nat → Nat → Bool → List (Except Fault String × Document) → List Char →
    MembersReading
  | 0, _, _, done, _ => ⟨done.reverse, some (Stop.same .endInObject), none⟩
  | fuel + 1, levels, first, done, cs =>
      match nextMember first cs with
      | .stopped stop => ⟨done.reverse, some stop, none⟩
      | .closed rest => ⟨done.reverse, none, some rest⟩
      | .entry cs =>
          match readName fuel cs with
          | .error stop => ⟨done.reverse, some stop, none⟩
          | .ok (name, cs) =>
              match readDocument fuel levels cs with
              | (d, none) => ⟨((name, d) :: done).reverse, none, none⟩
              | (d, some rest) => readMembers fuel levels false ((name, d) :: done) rest

end

-- Containers nest at most this deep.
def maxLevels : Nat := 127

-- A whole text: its document, and whether more than blanks follow it.
def Document.ofText (s : String) : Document × Bool :=
  let cs := s.toList
  match readDocument (2 * cs.length + 2) maxLevels cs with
  | (d, none) => (d, false)
  | (d, some rest) => (d, !(skipBlanks rest).isEmpty)

mutual

-- The fault met when the document is passed over.
def Document.skipFault : Document → Option Fault
  | .list items stop => (skipItems items).or (stop.map Stop.asSkipped)
  | .record members stop => (skipMembers members).or (stop.map Stop.asSkipped)
  | .deep _ stop => stop.map Stop.asSkipped
  | .broken stop => some stop.asSkipped
  | _ => none

def skipItems : List Document → Option Fault
  | [] => none
  | d :: rest => d.skipFault.or (skipItems rest)

def skipMembers : List (Except Fault String × Document) → Option Fault
  | [] => none
  | (_, d) :: rest => d.skipFault.or (skipMembers rest)

end

mutual

-- The value of a document, members in order. Containers may nest as deep as
-- the given number of levels.
def Document.value (levels : Nat) : Document → Except Fault Value
  | .null => .ok .null
  | .bool b => .ok (.bool b)
  | .number n => n.map .number
  | .string s => s.map .string
  | .list items stop =>
      match levels with
      | 0 => .error .tooDeep
      | levels + 1 => do
          let vs ← itemValues levels items
          match stop with
          | some stop => .error stop.asRead
          | none => .ok (.array vs)
  | .record members stop =>
      match levels with
      | 0 => .error .tooDeep
      | levels + 1 => do
          let ms ← memberValues levels members
          match stop with
          | some stop => .error stop.asRead
          | none => .ok (.object ms)
  | .deep _ _ => .error .tooDeep
  | .broken stop => .error stop.asRead

def itemValues (levels : Nat) : List Document → Except Fault (List Value)
  | [] => .ok []
  | d :: rest => do
      let v ← d.value levels
      let vs ← itemValues levels rest
      .ok (v :: vs)

def memberValues (levels : Nat) :
    List (Except Fault String × Document) → Except Fault (List (String × Value))
  | [] => .ok []
  | (name, d) :: rest => do
      let name ← name
      let v ← d.value levels
      let ms ← memberValues levels rest
      .ok ((name, v) :: ms)

end

mutual

def Document.ofValue : Value → Document
  | .null => .null
  | .bool b => .bool b
  | .number n => .number (.ok n)
  | .string s => .string (.ok s)
  | .array items => .list (documentItems items) none
  | .object members => .record (documentMembers members) none

def documentItems : List Value → List Document
  | [] => []
  | v :: rest => Document.ofValue v :: documentItems rest

def documentMembers : List (String × Value) → List (Except Fault String × Document)
  | [] => []
  | (name, v) :: rest => (.ok name, Document.ofValue v) :: documentMembers rest

end

-- The value of a text, objects by name.
def Value.ofText (s : String) : Except Fault Value := do
  let (d, more) := Document.ofText s
  let v ← d.value maxLevels
  if more then .error .trailing else .ok v.normal

end Conformance.Json
