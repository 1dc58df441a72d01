import Conformance.Files.Error

namespace Conformance

-- What is handed to a console: a piece of text, or that nothing be held back any more.
inductive Output where
  | text (piece : String)
  | flush
deriving DecidableEq, Repr

namespace Output

-- Text that is empty is not tried at all.
def isTried : Output → Bool
  | .text piece => piece ≠ ""
  | .flush => true

def shown : Output → String
  | .text piece => piece
  | .flush => ""

end Output

-- Where a run tells its progress. Text goes out in pieces, and each attempt to
-- write one succeeds or fails as a whole.
structure Console where
  -- what an attempt fails with, by its number
  fault? : Nat → Option IoError
  attempts : Nat := 0
  written : String := ""

namespace Console

def healthy : Console :=
  { fault? := fun _ => none }

def put (c : Console) (output : Output) : Except IoError Unit × Console :=
  if output.isTried then
    let tried := { c with attempts := c.attempts + 1 }
    match c.fault? c.attempts with
    | some e => (.error e, tried)
    | none => (.ok (), { tried with written := c.written ++ output.shown })
  else (.ok (), c)

-- What comes before the first piece that fails is written.
def putAll (c : Console) : List Output → Except IoError Unit × Console
  | [] => (.ok (), c)
  | output :: rest =>
      match c.put output with
      | (.ok _, c) => c.putAll rest
      | (.error e, c) => (.error e, c)

end Console

end Conformance
