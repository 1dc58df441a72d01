import Conformance.Shell.Run

namespace Conformance.Shell

open Machine (Act Environment Process)

-- The names that a shell takes over, and those that it sets itself.
def firstBindings (environment : Environment) (here : String) (parent : Nat) : List Binding :=
  let taken := environment.filter fun entry => isName entry.1 && entry.1 ≠ "IFS"
  let isTaken (name : String) : Bool := taken.any fun entry => entry.1 = name
  let marks := [("PS1", "# "), ("PS2", "> "), ("PS4", "+ ")].filter fun entry => !isTaken entry.1
  let own : List Binding := [⟨"PWD", some here, true, false⟩,
    ⟨"OPTIND", some "1", false, false⟩, ⟨"PPID", some (toString parent), false, false⟩,
    ⟨"IFS", some " \t\n", false, false⟩] ++
      marks.map fun entry => ⟨entry.1, some entry.2, false, false⟩
  own ++ (taken.filter fun entry => !own.any fun b => b.name = entry.1).map fun entry =>
    ⟨entry.1, some entry.2, true, false⟩

-- The shell as a program: a script, a file or what comes as input.
def program (args : List String) (environment : Environment) : Process :=
  let name := args.headD "sh"
  let main : Step Unit := do
    let me ← Step.act Act.self
    let t ← Step.act Act.files
    let here := match environment.find? fun entry => entry.1 = "PWD" with
      | some (_, pwd) =>
          if Path.isAbsolute pwd && sameDirectory t me.cwd pwd "." then pwd
          else Tree.render me.cwd
      | none => Tree.render me.cwd
    modify fun s => { s with
      number := me.number, here := here, bindings := firstBindings environment here me.parent }
    match Switching.ofArgs true [] (args.drop 1) with
    | .error text => Step.fault text
    | .ok r => do
        modify fun s => { s with options := r.options }
        Step.say r.shown
        let takesInput := r.options.contains 's'
        if r.takesScript then
          match r.args with
          | [] => Step.fault "-c requires an argument"
          | script :: more => do
              modify fun s => { s with name := more.headD name, args := more.drop 1 }
              runText Act.patience { last := !takesInput } script
        else match (if takesInput then [] else r.args) with
          | path :: more => do
              match readScript t me.cwd path with
              | .error e => Step.fault ("cannot open " ++ path ++ ": " ++ openReason e)
              | .ok script => do
                  modify fun s => { s with name := path, args := more }
                  runFile Act.patience script
          | [] => do
              modify fun s => { s with args := r.args }
              match ← Step.act (Act.readAll 0) with
              | .error _ => pure ()
              | .ok data => runFile Act.patience (Text.lossy data)
  ((conclude Act.patience main).run.run { name := name, args := [], line := 0 }) fun (_, s) =>
    .done (.exited (s.status % 256))

end Conformance.Shell
