import Conformance.Digest.Sha256
import Conformance.Tool.Lines

-- Digests of files, and the check of such digests.
namespace Conformance.Tool

open Machine (Act)
open Text (Bytes)

namespace Checksum

-- A name without line feeds, for which a backslash stands in front of the
-- line.
def escaped (p : Path) : String × String :=
  let risky := p.toList.any fun c => c = '\n' || c = '\\' || c = '\r'
  let shown := String.ofList (p.toList.flatMap fun c =>
    if c = '\n' then ['\\', 'n'] else if c = '\r' then ['\\', 'r']
    else if c = '\\' then ['\\', '\\'] else [c])
  if risky then ("\\", shown) else ("", p)

def isDigest (cs : List Char) : Bool :=
  cs.length = 64 && cs.all fun c => c.isDigit || 'a' ≤ c.toLower && c.toLower ≤ 'f'

-- The digest and the file that a line names.
def entry? (line : Bytes) : Option (String × Path) :=
  let cs := (Text.lossy line).toList.dropWhile fun c => c = ' ' || c = '\t'
  let cs := if cs.head? = some '\\' then cs.drop 1 else cs
  let front := "SHA256 (".toList
  if front.isPrefixOf cs then
    let back := cs.reverse
    let digest := (back.take 64).reverse
    let middle := back.drop 64
    if isDigest digest && [' ', '=', ' ', ')'].isPrefixOf middle then
      some (String.ofList digest, String.ofList ((middle.drop 4).reverse.drop front.length))
    else none
  else
    let digest := cs.take 64
    match cs.drop 64 with
    | ' ' :: kind :: name =>
        if isDigest digest && (kind = ' ' || kind = '*') && !name.isEmpty then
          some (String.ofList digest, String.ofList name)
        else none
    | _ => none

-- What was found while lines were checked.
structure Tally where
  good : Nat := 0
  bad : Nat := 0
  unread : Nat := 0
  malformed : Nat := 0

def tell (given : Given) (text : String) : Task Unit :=
  if given.has 'S' then pure () else Task.say (text ++ "\n")

def checkedLine (given : Given) (list : Path) (t : Tally) (number : Nat) (line : Bytes) :
    Task Tally := do
  match entry? line with
  | none => do
      if given.has 'w' then
        Task.warn (list ++ ": " ++ toString number ++
          ": improperly formatted SHA256 checksum line")
      pure { t with malformed := t.malformed + 1 }
  | some (digest, p) => do
      match ← Task.input p with
      | .error e =>
          if e = .notFound && given.has 'I' then pure t
          else do
            Task.warn (p ++ ": " ++ e.reason)
            tell given (p ++ ": FAILED open or read")
            pure { t with unread := t.unread + 1 }
      | .ok data =>
          if (Sha256.fileDigest data).1 = digest.toLower then do
            if !given.has 'Q' then tell given (p ++ ": OK")
            pure { t with good := t.good + 1 }
          else do
            tell given (p ++ ": FAILED")
            pure { t with bad := t.bad + 1 }

def counted (n : Nat) (one many : String) : String :=
  toString n ++ " " ++ if n = 1 then one else many

-- Whether all that a list names is as it says.
def checked (given : Given) (list : Path) : Task Bool := do
  match ← Task.input list with
  | .error .isADirectory => do
      Task.warn (list ++ ": read error")
      pure false
  | .error e => do
      Task.warn (list ++ ": " ++ e.reason)
      pure false
  | .ok data => do
      let shown := if list = "-" then "'standard input'" else list
      let lines := (splitLines data).1.filter fun line => !line.isEmpty && line.head? ≠ some 35
      let t ← lines.zipIdx.foldlM (fun t entry =>
        checkedLine given shown t (entry.2 + 1) entry.1) ({} : Tally)
      let note (n : Nat) (one many : String) : Task Unit :=
        if n = 0 || given.has 'S' then pure () else Task.warn ("WARNING: " ++ counted n one many)
      if t.good + t.bad + t.unread = 0 && t.malformed = lines.length then do
        Task.warn (shown ++ ": no properly formatted checksum lines found")
        pure false
      else do
        note t.malformed "line is improperly formatted" "lines are improperly formatted"
        note t.unread "listed file could not be read" "listed files could not be read"
        note t.bad "computed checksum did NOT match" "computed checksums did NOT match"
        if given.has 'I' && t.good + t.bad = 0 then
          Task.warn (shown ++ ": no file was verified")
        pure (t.bad + t.unread = 0 && !(given.has 'I' && t.good + t.bad = 0) &&
          !(given.has 'R' && t.malformed > 0))

-- The digest of one file before its name.
def one (given : Given) (p : Path) : Task Bool := do
  match ← Task.input p with
  | .ok data => do
      let digest := (Sha256.fileDigest data).1
      let (mark, shown) := if given.has 'z' then ("", p) else escaped p
      let ending := if given.has 'z' then "\x00" else "\n"
      if given.has 'T' then Task.say (mark ++ "SHA256 (" ++ shown ++ ") = " ++ digest ++ ending)
      else
        let isBinary := given.last? ['b', 't'] = some 'b'
        Task.say (mark ++ digest ++ (if isBinary then " *" else "  ") ++ shown ++ ending)
      pure true
  | .error e => do
      Task.warn (p ++ ": " ++ e.reason)
      pure false

-- What is wrong with options that do not belong together.
def fault? (given : Given) : Option String :=
  let isCheck := given.has 'c'
  let onlyForChecks := [('I', "ignore-missing"), ('S', "status"), ('w', "warn"), ('Q', "quiet"),
    ('R', "strict")]
  if given.has 'T' && given.has 't' then some "--tag does not support --text mode"
  else if given.has 'z' && isCheck then
    some "the --zero option is not supported when verifying checksums"
  else if given.has 'T' && isCheck then
    some "the --tag option is meaningless when verifying checksums"
  else if isCheck && (given.has 'b' || given.has 't') then
    some "the --binary and --text options are meaningless when verifying checksums"
  else if isCheck then none
  else (onlyForChecks.find? fun o => given.has o.1).map fun o =>
    "the --" ++ o.2 ++ " option is meaningful only when verifying checksums"

end Checksum

def sha256sum : Task Nat := do
  let given ← Task.arguments {
    flags := ['b', 't', 'c', 'w', 'z']
    long := [("binary", 'b'), ("check", 'c'), ("ignore-missing", 'I'), ("quiet", 'Q'),
      ("status", 'S'), ("strict", 'R'), ("tag", 'T'), ("text", 't'), ("warn", 'w'), ("zero", 'z')] }
  if let some fault := Checksum.fault? given then Task.misuse fault 1
  let paths := if given.operands.isEmpty then ["-"] else given.operands
  Task.statusOf <$> Task.all paths
    (if given.has 'c' then Checksum.checked given else Checksum.one given)

end Conformance.Tool
