import Conformance.Config.Basic
import Conformance.Fixture
import Conformance.Outcome

namespace Conformance

open Json

-- What a fixture has to show to pass.
inductive Expectation where
  | rejectedWith (code : Int)
  | accepted
  | exitsWith (code : Nat)
deriving DecidableEq, Repr

namespace Expectation

def message : Expectation → String
  | rejectedWith code => "compiler exit " ++ toString code
  | accepted => "accepted"
  | exitsWith code => "program exit " ++ toString code

-- An invalid fixture has to be rejected with the code of its category. A valid
-- one has to be accepted where only the front end runs, and otherwise to exit
-- with its own code or the default one.
def ofFixture (f : Fixture) (config : Config) : Expectation :=
  match f.category with
  | .valid =>
      if config.frontEndOnly then accepted
      else exitsWith (f.expectedExitCode.getD (normalExitCode config.defaultExitCode))
  | category => rejectedWith (config.codes.expected category)

-- Timeouts and crashes never meet an expectation.
def isMetBy : Expectation → Outcome → Bool
  | rejectedWith want, .rejectedAs code => code = want
  | accepted, .accepted => true
  | exitsWith want, .exited code => code = want
  | _, _ => false

def decoder : Decoder Expectation :=
  .tagged "Expectation" "kind" [
    ("rejected_with", .fields {
      name := "RejectedWith"
      fields := [.required "code" .int32 fun v _ => rejectedWith v]
      blank := rejectedWith 0 }),
    ("accepted", .bare accepted),
    ("exits_with", .fields {
      name := "ExitsWith"
      fields := [.required "code" .nat8 fun v _ => exitsWith v]
      blank := exitsWith 0 })]

def toValue : Expectation → Value
  | rejectedWith code => .object [("kind", .string "rejected_with"), ("code", .int code)]
  | accepted => .object [("kind", .string "accepted")]
  | exitsWith code => .object [("kind", .string "exits_with"), ("code", .nat code)]

end Expectation

end Conformance
