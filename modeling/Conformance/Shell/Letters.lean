import Conformance.Shell.Session

namespace Conformance.Shell

-- An option among the arguments of a command, with the value behind it.
structure Letter where
  char : Char
  value : String := ""
deriving DecidableEq, Repr

namespace Letter

-- The letters of one argument, and whether the last one wants the next
-- argument as its value. A colon in a form stands behind a letter with a value.
def read (form : String) : List Char → Step (List Letter × Option Char)
  | [] => pure ([], none)
  | c :: rest => do
      let behind := (form.toList.dropWhile (· ≠ c)).drop 1
      if c = ':' || !form.toList.contains c then
        Step.fault ("Illegal option -" ++ String.ofList [c])
      else if behind.head? ≠ some ':' then do
        let (letters, open?) ← read form rest
        pure (⟨c, ""⟩ :: letters, open?)
      else if rest.isEmpty then pure ([], some c)
      else pure ([⟨c, String.ofList rest⟩], none)

-- The options in front of the arguments, and the other arguments.
def ofArgs (form : String) : List String → Step (List Letter × List String)
  | [] => pure ([], [])
  | "--" :: rest => pure ([], rest)
  | arg :: rest => do
      match arg.toList with
      | '-' :: c :: more => do
          match ← read form (c :: more), rest with
          | (letters, none), rest => do
              let (others, rest) ← ofArgs form rest
              pure (letters ++ others, rest)
          | (letters, some c), value :: rest => do
              let (others, rest) ← ofArgs form rest
              pure (letters ++ ⟨c, value⟩ :: others, rest)
          | (_, some c), [] =>
              Step.fault ("No arg for -" ++ String.ofList [c] ++ " option")
      | _ => pure ([], arg :: rest)

def has (c : Char) (letters : List Letter) : Bool :=
  letters.any fun l => l.char = c

end Letter

end Conformance.Shell
