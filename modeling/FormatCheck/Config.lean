import FormatCheck.Json

/-!
# Configuration of a run

Which type groups and presentation types are tested, and how a run treats failures, rejected cases
and slow subjects. The defaults enable what the engine and subjects are known to agree on.
-/

namespace FormatCheck

/-- Which table of presentation types formats are composed from. -/
inductive Presentation where
  /-- The types that the engine supports for each kind. -/
  | restricted
  /-- Every type that a subject understands. -/
  | full
  deriving DecidableEq, Repr

structure PresentationTypes where
  char : List String
  /-- Integer types other than decimal. -/
  nonDecimal : List String
  integer : List String
  float : List String
  text : List String
  deriving DecidableEq, Repr

namespace Presentation

def name : Presentation → String
  | restricted => "restricted"
  | full => "full"

def ofName? (name : String) : Option Presentation := [restricted, full].find? (·.name = name)

def types : Presentation → PresentationTypes
  | restricted =>
    { char := []
      nonDecimal := ["b", "o", "x"]
      integer := ["b", "o", "x", "d"]
      float := ["e", "E", "f", "F", "%"]
      text := ["s"] }
  | full =>
    { char := ["c"]
      nonDecimal := ["b", "B", "o", "O", "x", "X"]
      integer := ["b", "B", "d", "o", "O", "x", "X"]
      float := ["e", "E", "f", "F", "g", "G", "%", "a", "A"]
      text := ["s", "S"] }

end Presentation

structure Config where
  includeBool : Bool := false
  includeChar : Bool := false
  /-- Test the 8-bit integers too. -/
  include8Bit : Bool := false
  /-- Test floats with the basic forms as well. -/
  floatBasicFormats : Bool := false
  abortOnFirstFailure : Bool := false
  /-- Send cases that the engine rejects to the subject and expect it to fail. -/
  dispatchRejected : Bool := false
  floatPrecisionAxis : Bool := true
  presentation : Presentation := .restricted
  /-- The bound on the wait for one subject process, in milliseconds. -/
  timeoutMs : Option Nat := none
  deriving DecidableEq, Repr

namespace Config

/-- The members of a configuration, in the order of its array form. -/
def fieldNames : List String :=
  ["include_bool", "include_char", "include_8bit", "float_basic_formats",
    "abort_on_first_failure", "dispatch_rejected", "float_precision_axis", "presentation",
    "timeout_ms"]

/-- Reads a member, or takes the default where it is absent. -/
def member? {α : Type} (members : List (String × Json)) (name : String) (default : α)
    (read : Json → Option α) : Option α :=
  match members.lookup name with
  | none => some default
  | some j => read j

/-- Reads a configuration; absent members keep their defaults. -/
def ofJson? (j : Json) : Option Config := do
  let members ← j.record? fieldNames true
  let flag (name : String) (default : Bool) := member? members name default Json.bool?
  let default : Config := {}
  some
    { includeBool := ← flag "include_bool" default.includeBool
      includeChar := ← flag "include_char" default.includeChar
      include8Bit := ← flag "include_8bit" default.include8Bit
      floatBasicFormats := ← flag "float_basic_formats" default.floatBasicFormats
      abortOnFirstFailure := ← flag "abort_on_first_failure" default.abortOnFirstFailure
      dispatchRejected := ← flag "dispatch_rejected" default.dispatchRejected
      floatPrecisionAxis := ← flag "float_precision_axis" default.floatPrecisionAxis
      presentation := ← member? members "presentation" default.presentation fun j => do
        Presentation.ofName? (← j.alternative?)
      timeoutMs := ← Json.optional? Json.unsigned? (members.lookup "timeout_ms") }

def toJson (config : Config) : Json :=
  .object
    [("include_bool", .bool config.includeBool), ("include_char", .bool config.includeChar),
      ("include_8bit", .bool config.include8Bit),
      ("float_basic_formats", .bool config.floatBasicFormats),
      ("abort_on_first_failure", .bool config.abortOnFirstFailure),
      ("dispatch_rejected", .bool config.dispatchRejected),
      ("float_precision_axis", .bool config.floatPrecisionAxis),
      ("presentation", .string config.presentation.name),
      ("timeout_ms", .ofOption .nat config.timeoutMs)]

end Config
end FormatCheck
