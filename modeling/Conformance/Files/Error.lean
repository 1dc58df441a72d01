import Conformance.Text.Property

namespace Conformance

-- Why an operation on files or streams failed.
inductive IoError where
  | notFound
  | permissionDenied
  | alreadyExists
  | notADirectory
  | isADirectory
  | invalidArgument
  | nameTooLong
  | notExecutableFormat
  | argumentsTooLong
  | badDescriptor
  | noSpace
  | brokenPipe
  | notEmpty
  | tooManyLinks
  -- a file that was to be read as text
  | notText
  | nulInName
  | other (message : String)
deriving DecidableEq, Repr

namespace IoError

-- The number of the system and its text.
def system? : IoError → Option (Nat × String)
  | notFound => some (2, "No such file or directory")
  | argumentsTooLong => some (7, "Argument list too long")
  | notExecutableFormat => some (8, "Exec format error")
  | badDescriptor => some (9, "Bad file descriptor")
  | permissionDenied => some (13, "Permission denied")
  | alreadyExists => some (17, "File exists")
  | notADirectory => some (20, "Not a directory")
  | isADirectory => some (21, "Is a directory")
  | invalidArgument => some (22, "Invalid argument")
  | noSpace => some (28, "No space left on device")
  | brokenPipe => some (32, "Broken pipe")
  | nameTooLong => some (36, "File name too long")
  | notEmpty => some (39, "Directory not empty")
  | tooManyLinks => some (40, "Too many levels of symbolic links")
  | _ => none

def kindName : IoError → String
  | notFound => "NotFound"
  | permissionDenied => "PermissionDenied"
  | alreadyExists => "AlreadyExists"
  | notADirectory => "NotADirectory"
  | isADirectory => "IsADirectory"
  | invalidArgument => "InvalidInput"
  | nameTooLong => "InvalidFilename"
  | notExecutableFormat => "Uncategorized"
  | argumentsTooLong => "ArgumentListTooLong"
  | badDescriptor => "Uncategorized"
  | noSpace => "StorageFull"
  | brokenPipe => "BrokenPipe"
  | notEmpty => "DirectoryNotEmpty"
  | tooManyLinks => "FilesystemLoop"
  | notText => "InvalidData"
  | nulInName => "InvalidInput"
  | other _ => "Other"

def ownText : IoError → String
  | notText => "stream did not contain valid UTF-8"
  | nulInName => "file name contained an unexpected NUL byte"
  | other message => message
  | _ => ""

def message (e : IoError) : String :=
  match e.system? with
  | some (code, text) => text ++ " (os error " ++ toString code ++ ")"
  | none => e.ownText

-- The text without the number.
def reason (e : IoError) : String :=
  match e.system? with
  | some (_, text) => text
  | none => e.ownText

-- The long form for a person who looks into a failure.
def details (e : IoError) : String :=
  match e.system? with
  | some (code, text) =>
      "Os \x7b code: " ++ toString code ++ ", kind: " ++ e.kindName ++ ", message: " ++
        Text.quoted text ++ " \x7d"
  | none =>
      match e with
      | other message => "Custom \x7b kind: Other, error: " ++ Text.quoted message ++ " \x7d"
      | e =>
          "Error \x7b kind: " ++ e.kindName ++ ", message: " ++ Text.quoted e.ownText ++ " \x7d"

end IoError

end Conformance
