import Conformance.Shell.Letters
import Conformance.Shell.Lookup

namespace Conformance.Shell

open Machine (Act findProgram)

-- A text between quotes, so that the shell reads it back. Single quotes stand
-- between double ones.
def quotedParts : Nat → List Char → String
  | 0, _ => ""
  | fuel + 1, cs =>
      let plain := cs.takeWhile (· ≠ '\'')
      let behind := cs.drop plain.length
      let quotes := behind.takeWhile (· = '\'')
      let rest := behind.drop quotes.length
      "'" ++ String.ofList plain ++ "'" ++
        (if quotes.isEmpty then "" else "\"" ++ String.ofList quotes ++ "\"") ++
        (if rest.isEmpty then "" else quotedParts fuel rest)

def singleQuoted (s : String) : String :=
  quotedParts (s.length + 1) s.toList

-- The order in which names come out of a table with so many rows.
def tableOrder {α : Type} (rows : Nat) (entries : List (String × α)) : List (String × α) :=
  let row (name : String) : Nat :=
    let bytes := Text.bytesOf name
    ((bytes.headD 0).toNat * 16 + bytes.foldl (fun n b => n + b.toNat) 0) % rows
  entries.mergeSort fun a b => row a.1 ≤ row b.1

namespace Builtin

def complain (command name : String) : Step Unit := do
  Step.remark (command ++ ": " ++ name ++ " not found")
  Step.setStatus 1

def aliasLine (entry : String × String) : String :=
  entry.1 ++ "=" ++ singleQuoted entry.2 ++ "\n"

-- Sets and shows aliases. An equals sign in front belongs to the name.
def nickname (args : List String) : Step Unit := do
  let s ← get
  Step.setStatus 0
  if args.isEmpty then Step.say (String.join ((tableOrder 39 s.aliases).map aliasLine))
  args.forM fun arg => do
    let s ← get
    let front := (arg.toList.drop 1).takeWhile (· ≠ '=')
    let name := String.ofList (arg.toList.take 1 ++ front)
    match arg.toList.drop (1 + front.length) with
    | _ :: text =>
        let text := String.ofList text
        let isThere := s.aliases.any fun entry => entry.1 = name
        let aliases := if isThere then
            s.aliases.map fun entry => if entry.1 = name then (name, text) else entry
          else s.aliases ++ [(name, text)]
        set { s with aliases := aliases }
    | [] =>
        match s.aliases.find? fun entry => entry.1 = arg with
        | some entry => Step.say (aliasLine entry)
        | none => complain "alias" arg

def unalias (args : List String) : Step Unit := do
  let (letters, args) ← Letter.ofArgs "a" args
  Step.setStatus 0
  if !letters.isEmpty then modify fun s => { s with aliases := [] }
  else args.forM fun name => do
    let s ← get
    if s.aliases.any fun entry => entry.1 = name then
      set { s with aliases := s.aliases.filter fun entry => entry.1 ≠ name }
    else complain "unalias" name

-- Shows, forgets or looks for the programs that are remembered.
def hash (args : List String) : Step Unit := do
  let (letters, args) ← Letter.ofArgs "r" args
  let t ← Step.act Act.files
  let cwd ← Step.act Act.cwd
  let s ← get
  Step.setStatus 0
  if !letters.isEmpty then set { s with hashed := [] }
  else if args.isEmpty then
    let names := tableOrder 31 (s.hashed.reverse.map fun name => (name, ()))
    Step.say (String.join (names.filterMap fun (entry : String × Unit) =>
      (findProgram t cwd s.path entry.1).toOption.map (· ++ "\n")))
  else args.forM fun name => do
    match meaning { s with aliases := [] } t cwd name with
    | .program _ _ => modify fun s => s.remembering name
    | .nothing => do
        Step.warn (name ++ ": not found")
        Step.setStatus 1
    | _ => pure ()

-- What a name means, shortly or in a sentence.
def describe (long : Bool) (name : String) : Step Unit := do
  let s ← get
  let t ← Step.act Act.files
  let cwd ← Step.act Act.cwd
  let tell (short sentence : String) : Step Unit :=
    Step.say ((if long then name ++ sentence else short) ++ "\n")
  match meaning s t cwd name with
  | .keyword => tell name " is a shell keyword"
  | .alias text =>
      if long then tell "" (" is an alias for " ++ text)
      else Step.say ("alias " ++ aliasLine (name, text))
  | .special => tell name " is a special shell builtin"
  | .function => tell name " is a shell function"
  | .regular => tell name " is a shell builtin"
  | .program p wasFound =>
      tell p (" is" ++ (if wasFound then " a tracked alias for " else " ") ++ p)
  | .nothing => do
      if long then Step.say (name ++ ": not found\n")
      Step.setStatus 127

def type (args : List String) : Step Unit := do
  Step.setStatus 0
  args.forM (describe true)

end Builtin

end Conformance.Shell
