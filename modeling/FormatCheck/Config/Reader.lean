import FormatCheck.Config
import FormatCheck.Json.Reader

/-!
# Reading configuration files

A configuration file is a JSON text in UTF-8, in object or array form. Members that no configuration
has are passed over, and a member given twice is refused.
-/

namespace FormatCheck
namespace Config

def ofText? (text : String) : Option Config := do
  let j ← Json.readRecord? fieldNames text
  ofJson? j

/-- What goes wrong in reading a file. -/
inductive FileError where
  | notFound
  | permissionDenied
  | isDirectory
  | invalidUtf8
  deriving DecidableEq, Repr

def FileError.message : FileError → String
  | notFound => "No such file or directory (os error 2)"
  | permissionDenied => "Permission denied (os error 13)"
  | isDirectory => "Is a directory (os error 21)"
  | invalidUtf8 => "stream did not contain valid UTF-8"

/-- Why a configuration file gives no configuration. -/
inductive LoadError where
  | file (e : FileError)
  | invalid
  deriving DecidableEq, Repr

def ofFile (content : Except FileError Bytes) : Except LoadError Config :=
  match content with
  | .error e => .error (.file e)
  | .ok bytes =>
    match Text.ofUtf8? bytes with
    | none => .error (.file .invalidUtf8)
    | some text =>
      match ofText? text with
      | none => .error .invalid
      | some config => .ok config

end Config
end FormatCheck
