import Conformance.Json.Decode

namespace Conformance

open Json

-- How one external command ended.
inductive Status where
  | exited (code : Int)
  -- ended by a signal, or without a code
  | signaled (signal : Option Int)
  | timedOut
  | launchFailed (reason : String)
  -- a captured stream grew past the limit
  | outputLimitExceeded (limitBytes : Nat)
deriving DecidableEq, Repr

namespace Status

def exitCode? : Status → Option Int
  | exited code => some code
  | _ => none

def isTimeout (s : Status) : Bool :=
  s = timedOut

def message : Status → String
  | exited code => "exit " ++ toString code
  | signaled (some signal) => "signal " ++ toString signal
  | signaled none => "terminated without exit code"
  | timedOut => "timed out"
  | launchFailed reason => "launch failed (" ++ reason ++ ")"
  | outputLimitExceeded limit => "output exceeded " ++ toString limit ++ " bytes"

def decoder : Decoder Status :=
  .tagged "ProcessStatus" "kind" [
    ("exited", .fields {
      name := "Exited"
      fields := [.required "code" .int32 fun v _ => exited v]
      blank := exited 0 }),
    ("signaled", .fields {
      name := "Signaled"
      fields := [.absent "signal" .int32 fun v _ => signaled v]
      blank := signaled none }),
    ("timed_out", .bare timedOut),
    ("launch_failed", .fields {
      name := "LaunchFailed"
      fields := [.required "reason" .string fun v _ => launchFailed v]
      blank := launchFailed "" }),
    ("output_limit_exceeded", .fields {
      name := "OutputLimitExceeded"
      fields := [.required "limit_bytes" .nat64 fun v _ => outputLimitExceeded v]
      blank := outputLimitExceeded 0 })]

def toValue : Status → Value
  | exited code => .object [("kind", .string "exited"), ("code", .int code)]
  | signaled signal => .object [
      ("kind", .string "signaled"),
      ("signal", match signal with
        | some signal => .int signal
        | none => .null)]
  | timedOut => .object [("kind", .string "timed_out")]
  | launchFailed reason => .object [("kind", .string "launch_failed"), ("reason", .string reason)]
  | outputLimitExceeded limit => .object [
      ("kind", .string "output_limit_exceeded"), ("limit_bytes", .nat limit)]

end Status

end Conformance
