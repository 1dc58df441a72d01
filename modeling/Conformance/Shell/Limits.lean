import Conformance.Shell.Letters

namespace Conformance.Shell

open Machine (Act Self)

-- The permissions that new files lack: three bits for each of the three kinds
-- of users.
abbrev Mask := Nat

namespace Mask

def all : Nat := 511

def complement (m : Mask) : Nat := all - m % 512

-- What one letter behind a sign permits, as bits of one kind of user.
def permission (present : Nat) (c : Char) : Nat :=
  if c = 'r' then 4
  else if c = 'w' then 2
  else if c = 'x' then 1
  else if c = 'u' then present / 64 % 8
  else if c = 'g' then present / 8 % 8
  else if c = 'o' then present % 8
  else if c = 'X' ∧ present &&& 73 ≠ 0 then 1
  else 0

-- The kinds of users that a letter names, as the lowest bit of each.
def users (c : Char) : Nat :=
  if c = 'a' then 73 else if c = 'u' then 64 else if c = 'g' then 8 else 1

-- The permissions after changes that are given by letters and signs.
def changed (present : Nat) : Nat → Nat → Nat → List Char → Option Nat
  | 0, _, _, _ => none
  | fuel + 1, who, done, cs =>
      let named := cs.takeWhile fun c => c ∈ ['a', 'u', 'g', 'o']
      let who := named.foldl (fun who c => who ||| users c) who
      let who := if who = 0 then 73 else who
      match cs.drop named.length with
      | [] => some done
      | sign :: rest =>
          if sign ∉ ['=', '+', '-'] then none
          else
            let letters := rest.takeWhile fun c =>
              c ∈ ['r', 'w', 'x', 'u', 'g', 'o', 'X', 's']
            let bits := letters.foldl (fun bits c => bits ||| permission present c) 0
            let value := bits * who
            let done := if sign = '-' then done &&& complement value
              else if sign = '+' then done ||| value
              else value ||| (done &&& complement (who * 7))
            match rest.drop letters.length with
            | [] => some done
            | ',' :: more => changed present fuel 0 done more
            | c :: more =>
                if c ∈ ['=', '+', '-'] then changed present fuel who done (c :: more) else none

def shown (m : Mask) : String :=
  let digits := [m / 512 % 8, m / 64 % 8, m / 8 % 8, m % 8]
  String.join (digits.map toString)

-- What a mask permits, by letters.
def shownByLetters (m : Mask) : String :=
  let present := complement m
  let letters (bits : Nat) : String :=
    (if bits &&& 4 ≠ 0 then "r" else "") ++ (if bits &&& 2 ≠ 0 then "w" else "") ++
      (if bits &&& 1 ≠ 0 then "x" else "")
  "u=" ++ letters (present / 64 % 8) ++ ",g=" ++ letters (present / 8 % 8) ++
    ",o=" ++ letters (present % 8)

end Mask

namespace Builtin

def setMask (m : Mask) : Step Unit :=
  Step.act (Act.own fun me => ((), { me with mask := m }))

def umask (args : List String) : Step Unit := do
  let (letters, args) ← Letter.ofArgs "S" args
  let me ← Step.act Act.self
  Step.setStatus 0
  match args with
  | [] =>
      let shown := if letters.isEmpty then Mask.shown me.mask else Mask.shownByLetters me.mask
      Step.say (shown ++ "\n")
  | text :: _ =>
      let cs := text.toList
      if cs.head?.any Char.isDigit then
        if cs.all fun c => '0' ≤ c ∧ c ≤ '7' then
          let value := cs.foldl (fun n c => n * 8 + (c.toNat - 48)) 0
          setMask (value % 512)
        else Step.fault ("Illegal number: " ++ text)
      else
        let present := Mask.complement me.mask
        match Mask.changed present (cs.length + 1) 0 present cs with
        | some permitted => setMask (Mask.complement permitted)
        | none => Step.fault ("Illegal mode: " ++ text)

-- The limits of a process: a letter, what is limited, and the unit.
def limitNames : List (Char × String) := [
  ('t', "time(seconds)"), ('f', "file(blocks)"), ('d', "data(kbytes)"), ('s', "stack(kbytes)"),
  ('c', "coredump(blocks)"), ('m', "memory(kbytes)"), ('l', "locked memory(kbytes)"),
  ('p', "process"), ('n', "nofiles"), ('v', "vmemory(kbytes)"), ('w', "locks"), ('r', "rtprio")]

-- The limits of a process that was not given others: the present one and the
-- highest. None is no limit.
def firstLimit (c : Char) : Option Nat × Option Nat :=
  if c = 's' then (some 8192, none)
  else if c = 'c' then (some 0, none)
  else if c = 'l' then (some 8192, some 8192)
  else if c = 'p' then (some 128619, some 128619)
  else if c = 'n' then (some 20000, some 20000)
  else if c = 'r' then (some 0, some 0)
  else (none, none)

def limit (me : Self) (c : Char) : Option Nat × Option Nat :=
  ((me.limits.find? fun entry => entry.1 = c).map Prod.snd).getD (firstLimit c)

def limitShown (n : Option Nat) : String :=
  n.elim "unlimited" toString

-- A text with blanks behind it up to some width.
def filledUp (width : Nat) (s : String) : String :=
  s ++ String.ofList (List.replicate (width - s.length) ' ')

def exceeds (a b : Option Nat) : Bool :=
  match a, b with
  | _, none => false
  | none, some _ => true
  | some a, some b => b < a

def ulimit (args : List String) : Step Unit := do
  let (letters, args) ← Letter.ofArgs "HSatfdscmlpnvwr" args
  let me ← Step.act Act.self
  let sides := (letters.map Letter.char).filter fun c => c = 'H' || c = 'S'
  let isSoft := sides.getLast? ≠ some 'H'
  let isHard := sides.getLast? ≠ some 'S'
  let what := letters.foldl (fun what l =>
    if l.char ∈ ['H', 'S', 'a'] then what else l.char) 'f'
  let showsAll := Letter.has 'a' letters
  let chosen (both : Option Nat × Option Nat) : Option Nat :=
    if isSoft then both.1 else both.2
  Step.setStatus 0
  match args with
  | [] =>
      if showsAll then
        Step.say (String.join (limitNames.map fun entry =>
          filledUp 20 entry.2 ++ " " ++ limitShown (chosen (limit me entry.1)) ++ "\n"))
      else Step.say (limitShown (chosen (limit me what)) ++ "\n")
  | text :: more =>
      if showsAll || !more.isEmpty then Step.fault "too many arguments"
      else
        let value ← if text = "unlimited" then pure none
          else if text.toList.all Char.isDigit then pure (some (text.toNat?.getD 0))
          else Step.fault "bad number"
        let old := limit me what
        let new := (if isSoft then value else old.1, if isHard then value else old.2)
        if exceeds new.1 new.2 then Step.fault "error setting limit (Invalid argument)"
        else Step.act (Act.own fun me => ((), { me with
          limits := (what, new) :: me.limits.filter fun entry => entry.1 ≠ what }))

end Builtin

end Conformance.Shell
