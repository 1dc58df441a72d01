import Conformance.Shell.Syntax

namespace Conformance.Shell

-- A name that was replaced by another text, how much of the script is behind
-- that text, and whether the text ends with a blank.
structure Replacement where
  name : String
  behind : Nat
  endsOpen : Bool

-- What is left of a script, the number of its line, and how many lines behind
-- this one were taken out as here-documents.
structure Input where
  rest : List Char
  line : Nat := 1
  hidden : Nat := 0
  aliases : List (String × String) := []
  replaced : List Replacement := []

-- A fault of a script with the number of its line.
structure Misreading where
  line : Nat
  error : SyntaxError

abbrev Parser := StateT Input (Except Misreading)

inductive Token where
  | word (w : Word)
  -- a stream, unless it is the usual one, and a sign
  | redirect (stream : Option Nat) (sign : String)
  | mark (s : String)
  | finish

namespace Token

def bare? : Token → Option String
  | .word w => w.bare?
  | _ => none

def isMark (t : Token) (s : String) : Bool :=
  match t with
  | .mark m => m = s
  | _ => false

def keywords : List String :=
  ["!", "case", "do", "done", "elif", "else", "esac", "fi", "for", "if", "in", "then", "until",
    "while", "\x7b", "\x7d"]

-- The keyword that a token is, where keywords count.
def keyword? (t : Token) : Option String :=
  t.bare?.filter fun s => keywords.contains s

def quote (s : String) : String :=
  "\"" ++ s ++ "\""

-- How a message calls a token.
def shown (t : Token) (asKeyword : Bool) : String :=
  match t with
  | .word w =>
      match Token.keyword? (.word w) with
      | some k => if asKeyword then quote k else "word"
      | none => "word"
  | .redirect _ _ => "redirection"
  | .mark "\n" => "newline"
  | .mark s => quote s
  | .finish => "end of file"

-- Whether a list of commands ends before a token.
def endsList (t : Token) : Bool :=
  match t with
  | .finish => true
  | .mark s => s = ";;" || s = ")"
  | t => t.keyword?.any fun k =>
      ["do", "done", "elif", "else", "esac", "fi", "then", "\x7d"].contains k

end Token

namespace Parser

def fail (error : SyntaxError) : Parser α := do
  throw ⟨(← get).line, error⟩

def next? : Parser (Option Char) := do
  let input ← get
  match input.rest with
  | [] => pure none
  | '\n' :: rest =>
      set { input with rest := rest, line := input.line + 1 + input.hidden, hidden := 0 }
      pure (some '\n')
  | c :: rest =>
      set { input with rest := rest }
      pure (some c)

def peek? : Parser (Option Char) := do
  pure (← get).rest.head?

def skip : Parser Unit := discard next?

-- A backslash takes the end of its line with it.
def joinLines : Nat → Parser Unit
  | 0 => pure ()
  | fuel + 1 => do
      match (← get).rest with
      | '\\' :: '\n' :: _ => do
          skip
          skip
          joinLines fuel
      | _ => pure ()

def takeWhile (p : Char → Bool) : Parser String := do
  let input ← get
  let taken := input.rest.takeWhile p
  set { input with rest := input.rest.drop taken.length }
  pure (String.ofList taken)

-- The text up to a quote that is closed.
def singleQuoted : Nat → List Char → Parser String
  | 0, done => pure (String.ofList done.reverse)
  | fuel + 1, done => do
      match ← next? with
      | none => fail .openQuote
      | some '\'' => pure (String.ofList done.reverse)
      | some c => singleQuoted fuel (c :: done)

-- The script between backquotes.
def backquoted (quoted : Bool) : Nat → List Char → Parser String
  | 0, done => pure (String.ofList done.reverse)
  | fuel + 1, done => do
      match ← next? with
      | none => fail .openBackquote
      | some '\x60' => pure (String.ofList done.reverse)
      | some '\\' =>
          match ← next? with
          | none => fail .openBackquote
          | some '\n' => backquoted quoted fuel done
          | some c =>
              if c = '\\' ∨ c = '\x60' ∨ c = '$' ∨ (quoted ∧ c = '"') then
                backquoted quoted fuel (c :: done)
              else backquoted quoted fuel (c :: '\\' :: done)
      | some c => backquoted quoted fuel (c :: done)

def endsWord (c : Char) : Bool :=
  c ∈ [' ', '\t', '\n', ';', '&', '|', '(', ')', '<', '>']

-- The rest of a line, whose quotes may go over its end, and what is behind it.
def splitLine : Option Char → List Char → List Char → List Char × List Char
  | _, done, [] => (done.reverse, [])
  | none, done, '\n' :: rest => (done.reverse, '\n' :: rest)
  | some '\'', done, c :: rest =>
      splitLine (if c = '\'' then none else some '\'') (c :: done) rest
  | some _, done, '\\' :: c :: rest => splitLine (some '"') (c :: '\\' :: done) rest
  | some _, done, c :: rest => splitLine (if c = '"' then none else some '"') (c :: done) rest
  | none, done, '\\' :: c :: rest => splitLine none (c :: '\\' :: done) rest
  | none, done, c :: rest =>
      splitLine (if c = '\'' ∨ c = '"' then some c else none) (c :: done) rest

-- The lines before a closing one, how many lines they and it are, and what is
-- behind them.
def hereLines (closing : List Char) (stripped : Bool) :
    Nat → List Char → List Char × Nat × List Char
  | 0, cs => ([], 0, cs)
  | _, [] => ([], 0, [])
  | fuel + 1, cs =>
      let line := cs.takeWhile (· ≠ '\n')
      let rest := cs.drop line.length
      let line := if stripped then line.dropWhile (· = '\t') else line
      if line = closing then ([], 1, rest.drop 1)
      else
        let (body, count, behind) := hereLines closing stripped fuel (rest.drop 1)
        (line ++ rest.take 1 ++ body, count + 1, behind)

-- The text of a here-document, which is taken out of the lines that follow.
def takeHere (closing : String) (stripped : Bool) : Parser String := do
  let input ← get
  let (line, behind) := splitLine none [] input.rest
  match behind with
  | [] => pure ""
  | _ :: following =>
      let (body, count, left) :=
        hereLines closing.toList stripped (following.length + 1) following
      set { input with rest := line ++ '\n' :: left, hidden := input.hidden + count }
      pure (String.ofList body)

-- A sign of redirection behind its first character.
def redirectSign (first : Char) : Parser String := do
  joinLines (← get).rest.length
  match first, (← get).rest with
  | '>', '>' :: _ => do skip; pure ">>"
  | '>', '|' :: _ => do skip; pure ">|"
  | '>', '&' :: _ => do skip; pure ">&"
  | '<', '<' :: '-' :: _ => do skip; skip; pure "<<-"
  | '<', '<' :: _ => do skip; pure "<<"
  | '<', '&' :: _ => do skip; pure "<&"
  | '<', '>' :: _ => do skip; pure "<>"
  | c, _ => pure (String.ofList [c])

-- What stands before a sign of redirection as the number of its stream.
def streamNumber? (done : Word) : Option (Option Nat) :=
  match done with
  | [] => some none
  | [.text s false] =>
      match s.toList with
      | [c] => if c.isDigit then some (some (c.toNat - 48)) else none
      | _ => none
  | _ => none

-- The name and the value when a word is an assignment.
def assignment? (w : Word) : Option (String × Word) :=
  match w with
  | .text s false :: rest =>
      let front := s.toList.takeWhile (· ≠ '=')
      match s.toList.drop front.length with
      | _ :: value =>
          let name := String.ofList front
          let value := if value = [] then rest else .text (String.ofList value) false :: rest
          if isName name then some (name, value) else none
      | [] => none
  | _ => none

-- The commands of the shell whose names no function may have.
def specialNames : List String :=
  [".", ":", "break", "continue", "eval", "exec", "exit", "export", "local", "readonly", "return",
    "set", "shift", "times", "trap", "unset"]

mutual

-- A word from behind its pieces so far, latest first. What looks like a word
-- may be the number of a stream.
def word : Nat → Word → Parser Token
  | 0, done => pure (.word done.reverse)
  | fuel + 1, done => do
      match ← peek? with
      | none => pure (.word done.reverse)
      | some '\\' =>
          skip
          match ← next? with
          | none => word fuel (Word.extended (.text "\\" true) done)
          | some '\n' => word fuel done
          | some c => word fuel (Word.extended (.text (String.ofList [c]) true) done)
      | some '\'' =>
          skip
          let s ← singleQuoted ((← get).rest.length + 1) []
          word fuel (Word.extended (.text s true) done)
      | some '"' =>
          skip
          let inner ← quotedText fuel false []
          word fuel (Word.extendedAll (if inner.isEmpty then [.text "" true] else inner) done)
      | some '$' =>
          skip
          let piece ← dollar fuel false
          word fuel (Word.extended piece done)
      | some '\x60' =>
          skip
          let piece ← backquote fuel false
          word fuel (Word.extended piece done)
      | some c =>
          if c = '<' ∨ c = '>' then
            match streamNumber? done with
            | some stream =>
                skip
                pure (.redirect stream (← redirectSign c))
            | none => pure (.word done.reverse)
          else if endsWord c then pure (.word done.reverse)
          else
            skip
            word fuel (Word.extended (.text (String.ofList [c]) false) done)

-- The inside of double quotes up to the closing one, or a here-document up to
-- its end. A backslash keeps its meaning only before the characters that have
-- one there.
def quotedText : Nat → Bool → Word → Parser Word
  | 0, _, done => pure done.reverse
  | fuel + 1, inHere, done => do
      match ← next? with
      | none => if inHere then pure done.reverse else fail .openQuote
      | some '"' =>
          if inHere then quotedText fuel inHere (Word.extended (.text "\"" true) done)
          else pure done.reverse
      | some '\\' =>
          match ← next? with
          | none => quotedText fuel inHere (Word.extended (.text "\\" true) done)
          | some '\n' => quotedText fuel inHere done
          | some c =>
              let bare := c = '$' || c = '\\' || c = '\x60' || (c = '"' && !inHere)
              let s := if bare then [c] else ['\\', c]
              quotedText fuel inHere (Word.extended (.text (String.ofList s) true) done)
      | some '$' =>
          let piece ← dollar fuel true
          quotedText fuel inHere (Word.extended piece done)
      | some '\x60' =>
          let piece ← backquote fuel true
          quotedText fuel inHere (Word.extended piece done)
      | some c => quotedText fuel inHere (Word.extended (.text (String.ofList [c]) true) done)

-- What stands behind a dollar sign.
def dollar : Nat → Bool → Parser Piece
  | 0, quoted => pure (.text "$" quoted)
  | fuel + 1, quoted => do
      joinLines (← get).rest.length
      match (← get).rest with
      | '(' :: '(' :: _ =>
          skip
          skip
          pure (.sum (← sumText fuel 0 []) quoted)
      | '(' :: _ =>
          skip
          let c ← list fuel true
          match ← token fuel with
          | .mark ")" => pure (.output c quoted)
          | t => fail (.unexpected (t.shown true) (some "\")\""))
      | '\x7b' :: _ =>
          skip
          braced fuel quoted
      | c :: _ =>
          if isNameStart c then pure (.parameter (← takeWhile isNameChar) .plain quoted)
          else if isSpecial c then
            skip
            pure (.parameter (String.ofList [c]) .plain quoted)
          else pure (.text "$" quoted)
      | [] => pure (.text "$" quoted)

-- What stands behind a backquote.
def backquote : Nat → Bool → Parser Piece
  | 0, quoted => pure (.text "" quoted)
  | fuel + 1, quoted => do
      let script ← backquoted quoted ((← get).rest.length + 1) []
      let outer ← get
      set { outer with rest := script.toList, hidden := 0, replaced := [] }
      let c ← list fuel true
      match ← token fuel with
      | .finish =>
          set outer
          pure (.output c quoted)
      | t => fail (.unexpected (t.shown true) none)

-- What stands behind a dollar sign and a brace.
def braced : Nat → Bool → Parser Piece
  | 0, _ => pure .malformed
  | fuel + 1, quoted => do
      let isLength := match (← get).rest with
        | '#' :: '\x7d' :: _ => false
        | '#' :: c :: '\x7d' :: _ => isNameChar c || isSpecial c
        | '#' :: c :: _ => isNameStart c || c.isDigit
        | _ => false
      if isLength then skip
      let name ← match (← get).rest with
        | c :: _ =>
            if isNameStart c then takeWhile isNameChar
            else if c.isDigit then takeWhile Char.isDigit
            else if isSpecial c then do
              skip
              pure (String.ofList [c])
            else pure ""
        | [] => pure ""
      if name = "" then
        discard (braceWord fuel quoted [])
        pure .malformed
      else
        match (← get).rest with
        | '\x7d' :: _ =>
            skip
            pure (.parameter name (if isLength then .length else .plain) quoted)
        | '%' :: '%' :: _ =>
            skip
            skip
            pure (.parameter name (.trimmed false true (← braceWord fuel false [])) quoted)
        | '%' :: _ =>
            skip
            pure (.parameter name (.trimmed false false (← braceWord fuel false [])) quoted)
        | '#' :: '#' :: _ =>
            skip
            skip
            pure (.parameter name (.trimmed true true (← braceWord fuel false [])) quoted)
        | '#' :: _ =>
            skip
            pure (.parameter name (.trimmed true false (← braceWord fuel false [])) quoted)
        | ':' :: c :: _ =>
            if c ∈ ['-', '=', '?', '+'] then
              skip
              skip
              pure (.parameter name (.instead c true (← braceWord fuel quoted [])) quoted)
            else
              discard (braceWord fuel quoted [])
              pure .malformed
        | c :: _ =>
            if c ∈ ['-', '=', '?', '+'] then
              skip
              pure (.parameter name (.instead c false (← braceWord fuel quoted [])) quoted)
            else
              discard (braceWord fuel quoted [])
              pure .malformed
        | [] => fail .openBrace

-- A word up to a closing brace. Inside double quotes a single quote is none.
def braceWord : Nat → Bool → Word → Parser Word
  | 0, _, done => pure done.reverse
  | fuel + 1, quoted, done => do
      match ← next? with
      | none => fail .openBrace
      | some '\x7d' => pure done.reverse
      | some '\\' =>
          match ← next? with
          | none => fail .openBrace
          | some '\n' => braceWord fuel quoted done
          | some c =>
              let bare := !quoted || c ∈ ['$', '\\', '\x60', '"', '\x7d']
              let s := if bare then [c] else ['\\', c]
              braceWord fuel quoted (Word.extended (.text (String.ofList s) true) done)
      | some '"' =>
          let inner ← quotedText fuel false []
          braceWord fuel quoted
            (Word.extendedAll (if inner.isEmpty then [.text "" true] else inner) done)
      | some '$' =>
          let piece ← dollar fuel quoted
          braceWord fuel quoted (Word.extended piece done)
      | some '\x60' =>
          let piece ← backquote fuel quoted
          braceWord fuel quoted (Word.extended piece done)
      | some c =>
          if c = '\'' ∧ !quoted then
            let s ← singleQuoted ((← get).rest.length + 1) []
            braceWord fuel quoted (Word.extended (.text s true) done)
          else braceWord fuel quoted (Word.extended (.text (String.ofList [c]) quoted) done)

-- An arithmetic expression up to the two parentheses that close it.
def sumText : Nat → Nat → Word → Parser Word
  | 0, _, done => pure done.reverse
  | fuel + 1, depth, done => do
      match ← next? with
      | none => fail .openSum
      | some ')' =>
          if depth = 0 then
            match ← peek? with
            | some ')' =>
                skip
                pure done.reverse
            | _ => sumText fuel 0 (Word.extended (.text ")" true) done)
          else sumText fuel (depth - 1) (Word.extended (.text ")" true) done)
      | some '(' => sumText fuel (depth + 1) (Word.extended (.text "(" true) done)
      | some '\\' =>
          match ← next? with
          | none => fail .openSum
          | some '\n' => sumText fuel depth done
          | some c => sumText fuel depth (Word.extended (.text (String.ofList [c]) true) done)
      | some '"' => sumText fuel depth done
      | some '$' =>
          let piece ← dollar fuel true
          sumText fuel depth (Word.extended piece done)
      | some '\x60' =>
          let piece ← backquote fuel true
          sumText fuel depth (Word.extended piece done)
      | some c => sumText fuel depth (Word.extended (.text (String.ofList [c]) true) done)

-- The next token, without the blanks and the comment before it.
def token : Nat → Parser Token
  | 0 => pure .finish
  | fuel + 1 => do
      joinLines (← get).rest.length
      match (← get).rest with
      | [] => pure .finish
      | ' ' :: _ =>
          skip
          token fuel
      | '\t' :: _ =>
          skip
          token fuel
      | '#' :: _ =>
          discard (takeWhile (· ≠ '\n'))
          token fuel
      | '\n' :: _ =>
          skip
          pure (.mark "\n")
      | '&' :: '&' :: _ =>
          skip
          skip
          pure (.mark "&&")
      | '|' :: '|' :: _ =>
          skip
          skip
          pure (.mark "||")
      | ';' :: ';' :: _ =>
          skip
          skip
          pure (.mark ";;")
      | c :: _ =>
          if c ∈ ['&', '|', ';', '(', ')'] then
            skip
            pure (.mark (String.ofList [c]))
          else word fuel []

-- The next token where a command may begin. There a name may stand for a text,
-- but not inside that text.
def commandToken : Nat → Parser Token
  | 0 => pure .finish
  | fuel + 1 => do
      let t ← token fuel
      let input ← get
      match (if t.keyword?.isSome then none else t.bare?), input.aliases with
      | none, _ => pure t
      | _, [] => pure t
      | some name, aliases =>
          let behind := input.rest.length
          let active := input.replaced.filter fun r => r.behind ≤ behind
          if active.any fun r => r.name = name then pure t
          else match aliases.find? fun entry => entry.1 = name with
            | none => pure t
            | some (_, text) =>
                let isOpen := text.toList.getLast?.any fun c => c = ' ' || c = '\t'
                set { input with
                  rest := text.toList ++ input.rest
                  replaced := ⟨name, behind, isOpen⟩ :: active }
                commandToken fuel

-- The next token behind the first word of a command. Behind a text that ends
-- with a blank it is like the first one.
def laterToken : Nat → Parser Token
  | 0 => pure .finish
  | fuel + 1 => do
      let before ← get
      let t ← token fuel
      let behind := (← get).rest.length
      let isOpen := before.replaced.any fun r =>
        r.endsOpen && r.behind < before.rest.length && behind < r.behind
      if isOpen then
        set before
        commandToken fuel
      else pure t

-- The next token behind all ends of lines.
def tokenBeyond : Nat → Parser Token
  | 0 => pure .finish
  | fuel + 1 => do
      match ← token fuel with
      | .mark "\n" => tokenBeyond fuel
      | t => pure t

-- The redirection that a sign begins.
def redirection : Nat → Option Nat → String → Parser Redirection
  | 0, _, _ => fail .openQuote
  | fuel + 1, stream, sign => do
      match ← token fuel with
      | .word w =>
          let stream := stream.getD (if sign.startsWith ">" then 1 else 0)
          if sign = "<<" ∨ sign = "<<-" then
            let (closing, quoted) := Word.unquoted w
            let body ← takeHere closing (sign = "<<-")
            if quoted then pure (.here stream [.text body true])
            else
              let outer ← get
              set { outer with rest := body.toList, hidden := 0, replaced := [] }
              let pieces ← quotedText fuel true []
              set outer
              pure (.here stream pieces)
          else if sign = ">&" ∨ sign = "<&" then pure (.copy stream w)
          else pure (.file stream sign w)
      | t => fail (.unexpected (t.shown false) none)

-- The redirections that stand here.
def redirections : Nat → Parser (List Redirection)
  | 0 => pure []
  | fuel + 1 => do
      let before ← get
      match ← token fuel with
      | .redirect stream sign =>
          let r ← redirection fuel stream sign
          pure (r :: (← redirections fuel))
      | _ =>
          set before
          pure []

-- Commands up to a token that ends them. The list may be empty only where that
-- is said.
def list : Nat → Bool → Parser Command
  | 0, _ => pure .nothing
  | fuel + 1, mayBeEmpty => do
      let before ← get
      match ← tokenBeyond fuel with
      | .finish => pure .nothing
      | t =>
          set before
          if mayBeEmpty && t.endsList then
            discard (skipEnds fuel)
            pure .nothing
          else
            let first ← andOr fuel
            let before ← get
            match ← token fuel with
            | .mark "&" => pure (.followed (.background first) (← list fuel true))
            | .mark ";" => pure (.followed first (← list fuel true))
            | .mark "\n" => pure (.followed first (← list fuel true))
            | .finish => pure first
            | _ =>
                set before
                pure first

def skipEnds : Nat → Parser Unit
  | 0 => pure ()
  | fuel + 1 => do
      let before ← get
      match ← token fuel with
      | .mark "\n" => skipEnds fuel
      | _ => set before

def andOr : Nat → Parser Command
  | 0 => pure .nothing
  | fuel + 1 => do andOrRest fuel (← pipeline fuel)

-- Both signs bind alike, from the left.
def andOrRest : Nat → Command → Parser Command
  | 0, first => pure first
  | fuel + 1, first => do
      let before ← get
      match ← token fuel with
      | .mark "&&" =>
          skipEnds fuel
          andOrRest fuel (.both first (← pipeline fuel))
      | .mark "||" =>
          skipEnds fuel
          andOrRest fuel (.either first (← pipeline fuel))
      | _ =>
          set before
          pure first

def pipeline : Nat → Parser Command
  | 0 => pure .nothing
  | fuel + 1 => do
      skipEnds fuel
      let before ← get
      let t ← commandToken fuel
      if t.keyword? = some "!" then pure (.negated (← pipes fuel))
      else
        set before
        pipes fuel

def pipes : Nat → Parser Command
  | 0 => pure .nothing
  | fuel + 1 => do
      let first ← command fuel
      match ← pipeRest fuel with
      | [] => pure first
      | more => pure (.piped (first :: more))

def pipeRest : Nat → Parser (List Command)
  | 0 => pure []
  | fuel + 1 => do
      let before ← get
      match ← token fuel with
      | .mark "|" =>
          skipEnds fuel
          let c ← command fuel
          pure (c :: (← pipeRest fuel))
      | _ =>
          set before
          pure []

-- The word that must stand here.
def expect : Nat → String → Parser Unit
  | 0, _ => pure ()
  | fuel + 1, k => do
      let t ← tokenBeyond fuel
      if t.keyword? = some k || t.isMark k then pure ()
      else fail (.unexpected (t.shown true) (some (Token.quote k)))

-- A compound command with the redirections behind it.
def withRedirections : Nat → Nat → Bool → Command → Parser Command
  | 0, _, _, c => pure c
  | fuel + 1, line, inSubshell, c => do
      let rs ← redirections fuel
      pure (if rs.isEmpty && !inSubshell then c else .group line inSubshell c rs)

def command : Nat → Parser Command
  | 0 => pure .nothing
  | fuel + 1 => do
      let before ← get
      let line := before.line
      let t ← commandToken fuel
      match t, t.keyword? with
      | .mark "(", _ =>
          let body ← list fuel false
          expect fuel ")"
          withRedirections fuel line true body
      | _, some "\x7b" =>
          let body ← list fuel false
          expect fuel "\x7d"
          withRedirections fuel line false body
      | _, some "if" => withRedirections fuel line false (← branches fuel)
      | _, some "while" =>
          let condition ← list fuel false
          expect fuel "do"
          let body ← list fuel false
          expect fuel "done"
          withRedirections fuel line false (.loop true condition body)
      | _, some "until" =>
          let condition ← list fuel false
          expect fuel "do"
          let body ← list fuel false
          expect fuel "done"
          withRedirections fuel line false (.loop false condition body)
      | _, some "for" => withRedirections fuel line false (← forLoop fuel line)
      | _, some "case" =>
          match ← token fuel with
          | .word w =>
              expect fuel "in"
              let cases ← choices fuel
              withRedirections fuel line false (.choice line w cases)
          | t => fail (.unexpected (t.shown false) (some "word"))
      | .word _, none =>
          set before
          simple fuel line true [] [] []
      | .redirect _ _, _ =>
          set before
          simple fuel line true [] [] []
      | t, _ => fail (.unexpected (t.shown true) none)

-- What follows the word of a condition.
def branches : Nat → Parser Command
  | 0 => pure .nothing
  | fuel + 1 => do
      let condition ← list fuel false
      expect fuel "then"
      let yes ← list fuel false
      let t ← tokenBeyond fuel
      match t.keyword? with
      | some "elif" => pure (.branch condition yes (← branches fuel))
      | some "else" =>
          let no ← list fuel false
          expect fuel "fi"
          pure (.branch condition yes no)
      | some "fi" => pure (.branch condition yes .nothing)
      | _ => fail (.unexpected (t.shown true) (some (Token.quote "fi")))

-- What follows the word of a loop over words.
def forLoop : Nat → Nat → Parser Command
  | 0, _ => pure .nothing
  | fuel + 1, line => do
      match (← token fuel).bare? with
      | none => fail .badLoopVariable
      | some name =>
          if !isName name then fail .badLoopVariable
          let before ← get
          let t ← tokenBeyond fuel
          let words ← if t.keyword? = some "in" then some <$> loopWords fuel
            else do
              if !t.isMark ";" then set before
              pure none
          expect fuel "do"
          let body ← list fuel false
          expect fuel "done"
          pure (.each line name words body)

-- The words of a loop up to the end of their line.
def loopWords : Nat → Parser (List Word)
  | 0 => pure []
  | fuel + 1 => do
      match ← token fuel with
      | .word w => pure (w :: (← loopWords fuel))
      | .mark "\n" => pure []
      | .mark ";" => pure []
      | t => fail (.unexpected (t.shown false) none)

-- The cases of a choice up to the word that closes it.
def choices : Nat → Parser (List (List Word × Command))
  | 0 => pure []
  | fuel + 1 => do
      let t ← tokenBeyond fuel
      if t.keyword? = some "esac" then pure []
      else
        let t ← if t.isMark "(" then token fuel else pure t
        let patterns ← casePatterns fuel t
        let body ← list fuel true
        let before ← get
        let t ← tokenBeyond fuel
        if t.keyword? = some "esac" then
          set before
          pure ((patterns, body) :: (← choices fuel))
        else if t.isMark ";;" then pure ((patterns, body) :: (← choices fuel))
        else fail (.unexpected (t.shown true) (some "\";;\""))

-- The patterns of a case up to the parenthesis behind them.
def casePatterns : Nat → Token → Parser (List Word)
  | 0, _ => pure []
  | fuel + 1, t => do
      let w := match t with
        | .word w => w
        | _ => []
      match t, ← token fuel with
      | .word _, .mark "|" => pure (w :: (← casePatterns fuel (← token fuel)))
      | .word _, .mark ")" => pure [w]
      | .word _, other => fail (.unexpected (other.shown false) (some "\")\""))
      | _, other => fail (.unexpected (other.shown false) (some "\")\""))

-- A simple command from behind its parts so far, latest first. Assignments
-- stand before the first word, redirections anywhere; a word and parentheses
-- name a function.
def simple : Nat → Nat → Bool → List (String × Word) → List Word → List Redirection →
    Parser Command
  | 0, line, _, assigned, words, rs =>
      pure (.simple line assigned.reverse words.reverse rs.reverse)
  | fuel + 1, line, mayAssign, assigned, words, rs => do
      let before ← get
      let t ← if words.isEmpty then commandToken fuel else laterToken fuel
      match t with
      | .word w =>
          match (if mayAssign then assignment? w else none) with
          | some entry => simple fuel line true (entry :: assigned) words rs
          | none => simple fuel line false assigned (w :: words) rs
      | .redirect stream sign =>
          let r ← redirection fuel stream sign
          simple fuel line mayAssign assigned words (r :: rs)
      | .mark "(" =>
          match assigned, words, rs with
          | [], [w], [] =>
              match ← token fuel with
              | .mark ")" =>
                  match w.bare?.filter fun name => isName name && !specialNames.contains name with
                  | none => fail .badFunctionName
                  | some name =>
                      skipEnds fuel
                      pure (.define name (← command fuel))
              | t => fail (.unexpected (t.shown false) (some "\")\""))
          | _, _, _ =>
              set before
              pure (.simple line assigned.reverse words.reverse rs.reverse)
      | _ =>
          set before
          pure (.simple line assigned.reverse words.reverse rs.reverse)

end

-- The commands up to the end of a line, and whether the script ends there.
def lineRest : Nat → Parser (Command × Bool)
  | 0 => pure (.nothing, true)
  | fuel + 1 => do
      let first ← andOr fuel
      let more (first : Command) : Parser (Command × Bool) := do
        let before ← get
        match ← token fuel with
        | .mark "\n" => pure (first, false)
        | .finish => pure (first, true)
        | _ =>
            set before
            let (second, atEnd) ← lineRest fuel
            pure (.followed first second, atEnd)
      match ← token fuel with
      | .mark "&" => more (.background first)
      | .mark ";" => more first
      | .mark "\n" => pure (first, false)
      | .finish => pure (first, true)
      | t => fail (.unexpected (t.shown true) none)

-- The next line of commands, if there is one.
def line (fuel : Nat) : Parser (Option (Command × Bool)) := do
  let before ← get
  match ← token fuel with
  | .finish => pure none
  | .mark "\n" => pure (some (.nothing, false))
  | _ =>
      set before
      some <$> lineRest fuel

end Parser

-- The next line of a script, whether the script ends with it, and the rest.
def Input.line? (input : Input) : Except Misreading (Option (Command × Bool × Input)) :=
  match (Parser.line (16 * input.rest.length + 64)).run input with
  | .error e => .error e
  | .ok (none, _) => .ok none
  | .ok (some (c, atEnd), rest) => .ok (some (c, atEnd, rest))

def Input.ofScript (script : String) (line : Nat) : Input :=
  { rest := script.toList, line := line }

end Conformance.Shell
