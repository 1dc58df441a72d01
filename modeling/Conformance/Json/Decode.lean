import Conformance.Json.Document
import Conformance.Text.Property

namespace Conformance.Json

def Found.message : Found → String
  | .null => "null"
  | .bool b => "boolean `" ++ toString b ++ "`"
  | .number (.int i) => "integer `" ++ toString i ++ "`"
  | .number (.float x) => "floating point `" ++ Decimal.shortestText x ++ "`"
  | .string s => "string " ++ Text.quoted s
  | .sequence => "sequence"
  | .map => "map"

-- Why a document is not the form of a value of the wanted type.
inductive DecodeError where
  | fault (f : Fault)
  | wrongType (found : Found) (expected : String)
  | wrongValue (found : Found) (expected : String)
  | wrongLength (length : Nat) (expected : String)
  | unknownVariant (name : String) (known : List String)
  | missingField (name : String)
  | duplicateField (name : String)
  | noAlternative (name : String)

-- Names between backticks; two are joined by a word, more are listed.
def alternatives (names : List String) : String :=
  let ticked := names.map fun name => "`" ++ name ++ "`"
  match ticked with
  | [] => "there are no variants"
  | [one] => "expected " ++ one
  | [one, two] => "expected " ++ one ++ " or " ++ two
  | many => "expected one of " ++ String.intercalate ", " many

def DecodeError.message : DecodeError → String
  | .fault f => f.message
  | .wrongType found expected => "invalid type: " ++ found.message ++ ", expected " ++ expected
  | .wrongValue found expected => "invalid value: " ++ found.message ++ ", expected " ++ expected
  | .wrongLength n expected => "invalid length " ++ toString n ++ ", expected " ++ expected
  | .unknownVariant name known => "unknown variant `" ++ name ++ "`, " ++ alternatives known
  | .missingField name => "missing field `" ++ name ++ "`"
  | .duplicateField name => "duplicate field `" ++ name ++ "`"
  | .noAlternative name => "data did not match any variant of untagged enum " ++ name

-- Where a document comes from: a text, in which containers may nest some
-- levels deeper; a value read before; or a value set aside while the rest of
-- its container was read.
inductive Origin where
  | text (levels : Nat)
  | parsed
  | buffered

def Origin.enter : Origin → Origin
  | .text levels => .text (levels - 1)
  | o => o

abbrev Decoder (α : Type) := Origin → Document → Except DecodeError α

namespace Decoder

def fail (d : Document) (expected : String) : Except DecodeError α :=
  match d.found with
  | .error f => .error (.fault f)
  | .ok found => .error (.wrongType found expected)

def stringNamed (expected : String) : Decoder String := fun _ d =>
  match d with
  | .string (.ok s) => .ok s
  | d => fail d expected

def string : Decoder String := stringNamed "a string"

def path : Decoder String := stringNamed "path string"

def bool : Decoder Bool := fun _ d =>
  match d with
  | .bool b => .ok b
  | d => fail d "a boolean"

-- Whole numbers from a least to a greatest one.
def integer (low high : Int) (expected : String) : Decoder Int := fun _ d =>
  match d with
  | .number (.ok (.int i)) =>
      if low ≤ i ∧ i ≤ high then .ok i else .error (.wrongValue (.number (.int i)) expected)
  | d => fail d expected

def int32 : Decoder Int := integer (-2147483648) 2147483647 "i32"

def natBelow (limit : Nat) (expected : String) : Decoder Nat := fun o d =>
  (integer 0 ((limit : Int) - 1) expected o d).map Int.toNat

def nat8 : Decoder Nat := natBelow 256 "u8"

def nat32 : Decoder Nat := natBelow 4294967296 "u32"

def nat64 : Decoder Nat := natBelow wordLimit "u64"

def size : Decoder Nat := natBelow wordLimit "usize"

def option (inner : Decoder α) : Decoder (Option α) := fun o d =>
  match d with
  | .null => .ok none
  | d => (inner o d).map some

def map (f : α → β) (inner : Decoder α) : Decoder β := fun o d =>
  (inner o d).map f

def checkStop (stop : Option Stop) : Except DecodeError Unit :=
  match stop with
  | some stop => .error (.fault stop.asRead)
  | none => .ok ()

def all (inner : Decoder α) (o : Origin) : List Document → Except DecodeError (List α)
  | [] => .ok []
  | d :: rest => do
      let a ← inner o d
      let as ← all inner o rest
      .ok (a :: as)

def list (inner : Decoder α) : Decoder (List α) := fun o d =>
  match d with
  | .list items stop => do
      let as ← all inner o.enter items
      checkStop stop
      .ok as
  | d => fail d "a sequence"

-- The value as it is, its objects by name.
def any : Decoder Value := fun o d =>
  let levels := match o with
    | .text levels => levels
    | _ => maxLevels
  match o, d.value levels with
  | _, .error f => .error (.fault f)
  | .text _, .ok v => .ok v.normal
  | _, .ok v => .ok v

-- A document set aside: it is read as a value first, in the order it stands.
def setAside (o : Origin) (d : Document) : Except DecodeError Document :=
  match o with
  | .text levels =>
      match d.value levels with
      | .error f => .error (.fault f)
      | .ok v => .ok (Document.ofValue v)
  | _ => .ok d

end Decoder

-- A field of a record: how its value enters the record, and whether the record
-- can do without it, in its form with names and in its form without.
structure Field (α : Type) where
  name : String
  read : Decoder (α → α)
  optional : Bool
  optionalInList : Bool

namespace Field

def required (name : String) (inner : Decoder β) (put : β → α → α) : Field α :=
  ⟨name, inner.map put, false, false⟩

-- A field that may be absent from the form with names only.
def absent (name : String) (inner : Decoder β) (put : Option β → α → α) : Field α :=
  ⟨name, (Decoder.option inner).map put, true, false⟩

def defaulted (name : String) (inner : Decoder β) (put : β → α → α) : Field α :=
  ⟨name, inner.map put, true, true⟩

end Field

-- A record: a name for diagnostics, the fields in order, and the value that
-- the fields fill.
structure Layout (α : Type) where
  name : String
  fields : List (Field α)
  blank : α

namespace Layout

def field? (layout : Layout α) (name : String) : Option (Field α) :=
  layout.fields.find? fun f => f.name = name

def arity (n : Nat) : String :=
  toString n ++ (if n = 1 then " element" else " elements")

-- The fault of a break among members. The name of a member counts even when
-- the text breaks right behind it.
def stopError (seen : List String) (known : String → Bool) (stop : Stop) : DecodeError :=
  match stop.name with
  | some name =>
      if known name && seen.contains name then .duplicateField name else .fault stop.asRead
  | none => .fault stop.asRead

def missing? (layout : Layout α) (seen : List String) : Option String :=
  (layout.fields.find? fun f => !f.optional && !seen.contains f.name).map Field.name

def readMembers (layout : Layout α) (o : Origin) :
    List (Except Fault String × Document) → Option Stop → List String → α →
      Except DecodeError α
  | [], some stop, seen, _ =>
      .error (stopError seen (fun name => (layout.field? name).isSome) stop)
  | [], none, seen, a =>
      match layout.missing? seen with
      | some name => .error (.missingField name)
      | none => .ok a
  | (.error f, _) :: _, _, _, _ => .error (.fault f)
  | (.ok name, d) :: rest, stop, seen, a =>
      match layout.field? name with
      | none =>
          match d.skipFault with
          | some f => .error (.fault f)
          | none => layout.readMembers o rest stop seen a
      | some field =>
          if seen.contains name then .error (.duplicateField name)
          else match field.read o d with
            | .error e => .error e
            | .ok update => layout.readMembers o rest stop (name :: seen) (update a)

-- What is wrong when items follow those that the fields take.
def surplus (o : Origin) (taken : Nat) (rest : List Document) (stop : Option Stop) :
    Except DecodeError Unit :=
  match o, rest, stop with
  | .text _, [], none => .ok ()
  | .text _, [], some stop =>
      match stop.asRead with
      | .endInList => .error (.fault .endInList)
      | .finalComma => .error (.fault .finalComma)
      | _ => .error (.fault .trailing)
  | .text _, _ :: _, _ => .error (.fault .trailing)
  | _, [], _ => .ok ()
  | .parsed, rest, _ => .error (.wrongLength (taken + rest.length) "fewer elements in array")
  | .buffered, rest, _ =>
      .error (.wrongLength (taken + rest.length) (arity taken ++ " in sequence"))

def readItems (layout : Layout α) (expected : String) (o : Origin) (stop : Option Stop) :
    List (Field α) → List Document → Nat → α → Except DecodeError α
  | [], rest, taken, a => (surplus o taken rest stop).map fun _ => a
  | field :: fields, [], taken, a =>
      match stop with
      | some stop => .error (.fault stop.asRead)
      | none =>
          if field.optionalInList then layout.readItems expected o none fields [] taken a
          else .error (.wrongLength taken (expected ++ " with " ++ arity layout.fields.length))
  | field :: fields, d :: rest, taken, a =>
      match field.read o d with
      | .error e => .error e
      | .ok update => layout.readItems expected o stop fields rest (taken + 1) (update a)

-- A record is an object, or a list of its fields in order.
def decodeAs (layout : Layout α) (expected : String) : Decoder α := fun o d =>
  match d with
  | .record members stop => layout.readMembers o.enter members stop [] layout.blank
  | .list items stop => layout.readItems expected o.enter stop layout.fields items 0 layout.blank
  | d => Decoder.fail d expected

def decode (layout : Layout α) : Decoder α :=
  layout.decodeAs ("struct " ++ layout.name)

end Layout

namespace Decoder

def variantNamed (known : List (String × α)) (name : String) : Except DecodeError α :=
  match known.find? fun entry => entry.1 = name with
  | some entry => .ok entry.2
  | none => .error (.unknownVariant name (known.map Prod.fst))

def unit (allowEmpty : Bool) (d : Document) : Except DecodeError Unit :=
  match d, allowEmpty with
  | .null, _ => .ok ()
  | .record [] none, true => .ok ()
  | d, _ => fail d "unit"

-- A variant in its long form, where a name stands for nothing. Whatever may
-- follow the one member, only the end of the object does.
def variantFromRecord (known : List (String × α))
    (members : List (Except Fault String × Document)) (stop : Option Stop) :
    Except DecodeError α :=
  match members, stop with
  | [], none => .error (.fault .expectedValue)
  | [], some stop => do
      match stop.name with
      | some name => discard (variantNamed known name)
      | none => pure ()
      .error (.fault stop.asRead)
  | (.error f, _) :: _, _ => .error (.fault f)
  | (.ok name, d) :: rest, stop => do
      let a ← variantNamed known name
      unit false d
      match rest, stop with
      | [], none => .ok a
      | [], some stop => .error (.fault stop.asVariant)
      | _ :: _, _ => .error (.fault .expectedValue)

-- One of several names.
def variant (known : List (String × α)) : Decoder α := fun o d =>
  match o, d with
  | _, .string (.ok s) => variantNamed known s
  | .text _, .string (.error f) => .error (.fault f)
  | .text _, .record members stop => variantFromRecord known members stop
  | .text _, .broken stop => .error (.fault stop.asVariant)
  | .text _, _ => .error (.fault .expectedValue)
  | o, .record [(.ok name, payload)] _ => do
      let a ← variantNamed known name
      unit (match o with | .buffered => true | _ => false) payload
      .ok a
  | _, .record _ _ => .error (.wrongValue .map "map with a single key")
  | _, d => fail d "string or map"

-- The form of a case of a tagged type: no fields, or a record of fields.
inductive CaseForm (α : Type) where
  | bare (a : α)
  | fields (layout : Layout α)

def bareCase (a : α) : Document → Except DecodeError α
  | .list items _ =>
      if items.isEmpty then .ok a
      else .error (.wrongLength items.length (Layout.arity 0 ++ " in sequence"))
  | .record _ _ => .ok a
  | d => fail d "unit"

def caseOf (typeName : String) : CaseForm α → Document → Except DecodeError α
  | .bare a, d => bareCase a d
  | .fields layout, d =>
      layout.decodeAs ("struct variant " ++ typeName ++ "::" ++ layout.name) .buffered d

-- The members of a tagged value: the case its tag names, and all others set
-- aside.
def taggedMembers (tag : String) (known : List (String × CaseForm α)) (o : Origin) :
    List (Except Fault String × Document) → Option Stop →
      Option (String × CaseForm α) → List (Except Fault String × Document) →
      Except DecodeError ((String × CaseForm α) × List (Except Fault String × Document))
  | [], some stop, case, _ =>
      .error (Layout.stopError (if case.isSome then [tag] else []) (· = tag) stop)
  | [], none, none, _ => .error (.missingField tag)
  | [], none, some case, kept => .ok (case, kept.reverse)
  | (.error f, _) :: _, _, _, _ => .error (.fault f)
  | (.ok name, d) :: rest, stop, case, kept =>
      if name = tag then
        if case.isSome then .error (.duplicateField tag)
        else match stringNamed "variant identifier" o d with
          | .error e => .error e
          | .ok s =>
              match variantNamed (known.map fun entry => (entry.1, entry)) s with
              | .error e => .error e
              | .ok entry => taggedMembers tag known o rest stop (some entry) kept
      else match setAside o d with
        | .error e => .error e
        | .ok d => taggedMembers tag known o rest stop case ((.ok name, d) :: kept)

-- A value of one of several cases, told apart by a tag among its members, or
-- by the first item of a list.
def tagged (typeName tag : String) (known : List (String × CaseForm α)) : Decoder α := fun o d =>
  match d with
  | .record members stop => do
      let (entry, kept) ← taggedMembers tag known o.enter members stop none []
      caseOf typeName entry.2 (.record kept none)
  | .list [] none => .error (.missingField tag)
  | .list [] (some stop) => .error (.fault stop.asRead)
  | .list (first :: rest) stop => do
      let name ← stringNamed "variant identifier" o.enter first
      let form ← variantNamed known name
      let kept ← rest.mapM (setAside o.enter)
      checkStop stop
      caseOf typeName form (.list kept none)
  | d => fail d ("internally tagged enum " ++ typeName)

end Decoder

-- A whole text as a value of a type. The first problem in the order of the
-- text is the one reported.
def decodeText (decoder : Decoder α) (s : String) : Except DecodeError α := do
  let (d, more) := Document.ofText s
  let a ← decoder (.text maxLevels) d
  if more then .error (.fault .trailing) else .ok a

-- A value read before as a value of a type. Members are visited by name.
def decodeValue (decoder : Decoder α) (v : Value) : Except DecodeError α :=
  decoder .parsed (Document.ofValue v.normal)

-- Whether a text was at fault, and how.
inductive FaultClass where
  | malformed
  | incomplete
  | mismatch
deriving DecidableEq, Repr

def DecodeError.kind : DecodeError → FaultClass
  | .fault f => if f.isIncomplete then .incomplete else .malformed
  | _ => .mismatch

end Conformance.Json
