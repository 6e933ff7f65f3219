/-!
# What goes wrong with settings

Settings come from texts and files that others write. A text may be malformed, a file may be out of
reach, and it may have no format that is known.
-/

namespace CustomElements.Config

/-- Why a file cannot be read. -/
inductive Failure where
  | missing
  /-- A step on the way leads to a file. -/
  | notDirectory
  | isDirectory
  | nameTooLong
  /-- The path holds a character that no path may hold. -/
  | badPath
  /-- The contents are no text. -/
  | notText
  deriving DecidableEq, Repr

/-- The wording of a failure. -/
def Failure.message : Failure → String
  | .missing => "No such file or directory (os error 2)"
  | .notDirectory => "Not a directory (os error 20)"
  | .isDirectory => "Is a directory (os error 21)"
  | .nameTooLong => "File name too long (os error 36)"
  | .badPath => "file name contained an unexpected NUL byte"
  | .notText => "stream did not contain valid UTF-8"

/-- Why settings cannot be had. -/
inductive Error where
  | badYaml
  | badJson
  /-- The extension of the file is not one of the known ones. -/
  | unsupportedFormat (path : String)
  | unreadable (path : String) (cause : Failure)
  /-- What was not read from a file cannot be read again. -/
  | noSource
  deriving DecidableEq, Repr

/-- The wording of an error. -/
def Error.message : Error → String
  | .badYaml => "invalid YAML"
  | .badJson => "invalid JSON"
  | .unsupportedFormat path => "unsupported config format: " ++ path
  | .unreadable path cause => "failed to read " ++ path ++ ": " ++ cause.message
  | .noSource => "cannot refresh: no source file"

end CustomElements.Config
