namespace Conformance.Shell

-- What can be switched on in a shell, by letters and long names. The last two
-- have no letters.
def optionNames : List (Char × String) := [
  ('e', "errexit"), ('f', "noglob"), ('I', "ignoreeof"), ('i', "interactive"), ('m', "monitor"),
  ('n', "noexec"), ('s', "stdin"), ('x', "xtrace"), ('v', "verbose"), ('V', "vi"), ('E', "emacs"),
  ('C', "noclobber"), ('a', "allexport"), ('b', "notify"), ('u', "nounset"), ('p', "privileged"),
  ('\x01', "nolog"), ('\x02', "debug")]

-- How arguments switch options: what is on, what they ask to be shown, the
-- arguments behind them, and whether a mark ended them.
structure Switching where
  options : List Char
  args : List String
  shown : String := ""
  isEnded : Bool := false
  -- the first argument behind the options is a script, not a file
  takesScript : Bool := false

namespace Switching

-- The letters with one of them on or off, in their order.
def switched (on : Bool) (letter : Char) (letters : List Char) : List Char :=
  (optionNames.map Prod.fst).filter fun c => if c = letter then on else letters.contains c

-- All options, as settings or as commands that bring them back.
def listing (on : Bool) (options : List Char) : String :=
  let settings := optionNames.map fun o =>
    let gap := String.ofList (List.replicate (16 - o.2.length) ' ')
    let state := options.contains o.1
    if on then o.2 ++ gap ++ (if state then "on" else "off") ++ "\n"
    else "set " ++ (if state then "-o " else "+o ") ++ o.2 ++ "\n"
  (if on then "Current option settings\n" else "") ++ String.join settings

-- The letters of one argument. On the command line of a shell there are more.
def letters (onLine on : Bool) (s : Switching) : List Char → Except String Switching
  | [] => .ok s
  | c :: rest =>
      if c = 'o' then
        match s.args with
        | [] => letters onLine on { s with shown := s.shown ++ listing on s.options } rest
        | name :: args =>
            match optionNames.find? fun o => o.2 = name with
            | some o =>
                letters onLine on
                  { s with options := switched on o.1 s.options, args := args } rest
            | none => .error ("Illegal option -o " ++ name)
      else if onLine ∧ c = 'c' then letters onLine on { s with takesScript := true } rest
      else if onLine ∧ c = 'l' then letters onLine on s rest
      else if optionNames.any fun o => o.1 = c then
        letters onLine on { s with options := switched on c s.options } rest
      else .error ("Illegal option -" ++ String.ofList [c])

-- The options in front of the arguments.
def read (onLine : Bool) : Nat → Switching → Except String Switching
  | 0, s => .ok s
  | fuel + 1, s =>
      match s.args with
      | [] => .ok s
      | arg :: rest =>
          let s' := { s with args := rest }
          match arg.toList with
          | ['-'] =>
              if onLine then .ok s'
              else .ok { s' with
                options := (s'.options.filter fun c => c ≠ 'x' ∧ c ≠ 'v') }
          | ['-', '-'] => .ok { s' with isEnded := true }
          | '-' :: cs => do read onLine fuel (← letters onLine true s' cs)
          | '+' :: cs => do read onLine fuel (← letters onLine false s' cs)
          | _ => .ok s

def ofArgs (onLine : Bool) (options : List Char) (args : List String) : Except String Switching :=
  read onLine (args.length + 1) { options := options, args := args }

end Switching

end Conformance.Shell
