import Conformance.CommandLine.Arguments
import Conformance.Text.Lines

namespace Conformance.CommandLine

def blanks (n : Nat) : String :=
  String.ofList (List.replicate n ' ')

-- How wide a page of help is.
def pageWidth : Nat := 100

-- Words in lines that are no longer than some width, if the words are not.
def inLines (width : Nat) (line : String) : List String → List String
  | [] => [line]
  | word :: rest =>
      if line.length + 1 + word.length ≤ width then inLines width (line ++ " " ++ word) rest
      else line :: inLines width word rest

def wrappedText (width indent : Nat) (text : String) : String :=
  match text.splitOn " " with
  | [] => ""
  | word :: rest => String.intercalate ("\n" ++ blanks indent) (inLines width word rest)

namespace Offer

def form (o : Offer) : String :=
  "--" ++ o.name ++ if o.arity = .flag then "" else " <" ++ o.value ++ ">"

-- The option that all commands have.
def help : Offer :=
  ⟨helpName, .flag, "", "Print help"⟩

def row (o : Offer) : String :=
  (if o = help then "  -h, " else blanks 6) ++ o.form

end Offer

-- What the forms of some options take of each line beside what they are for.
def takenBy (options : Options) : Nat :=
  (options.map fun o => o.form.length).foldr max 0 + 12

-- What options are for stands below them when this leaves too little room beside them.
def standsBelow (options : Options) : Bool :=
  40 < takenBy options && options.any fun o => pageWidth < takenBy options + o.about.length

def optionLines (options : Options) : List String :=
  let options := options ++ [Offer.help]
  options.map fun o =>
    if standsBelow options then
      o.row ++ "\n" ++ blanks 10 ++ wrappedText (pageWidth - 10) 10 o.about
    else o.row ++ blanks (takenBy options - 4 - o.row.length) ++ o.about

def program : String := "wacc-harness"

def page (about usage : String) (sections : List (String × List String)) : String :=
  about ++ "\n\nUsage: " ++ program ++ usage ++ "\n" ++
    String.join (sections.map fun part =>
      "\n" ++ part.1 ++ ":\n" ++ String.join (part.2.map fun line => line ++ "\n"))

def CommandForm.page (c : CommandForm) : String :=
  -- a command of which the reading needs an option cannot do without options at all
  let usage := match c.read [] with
    | .error (.missing _) => String.join (c.options.map fun o => " " ++ o.form)
    | _ => " [OPTIONS]"
  CommandLine.page c.about (" " ++ c.name ++ usage) [("Options", optionLines c.options)]

def helpAbout : String :=
  "Print this message or the help of the given subcommand(s)"

def mainPage : String :=
  let rows := commands.map (fun c => (c.name, c.about)) ++ [(helpName, helpAbout)]
  let widest := (commandNames.map String.length).foldr max 0
  page "Compile, assemble and emulate the WACC fixture suite" " <COMMAND>" [
    ("Commands", rows.map fun row =>
      "  " ++ row.1 ++ blanks (widest + 2 - row.1.length) ++ row.2),
    ("Options", optionLines [])]

def helpPage (name : Option String) : String :=
  match name with
  | none => mainPage
  | some name =>
      match commands.find? fun c => c.name = name with
      | some c => c.page
      | none => page helpAbout (" " ++ helpName ++ " [COMMAND]...")
          [("Arguments", ["  [COMMAND]...  Print help for the subcommand(s)"])]

end Conformance.CommandLine
