import FormatCheck.Expectation
import FormatCheck.Process

/-!
# The reference subject

The subject that prints what the engine expects: it reads the literal as a value of the type,
renders it under the format and writes the rendering. Subjects' output is read as Latin-1, so a
rendering is written as Latin-1 if it can be; one that cannot is written as UTF-8.

`answer` is what the subject does with its three arguments, `run` adds the reading of its command
line.
-/

namespace FormatCheck
namespace ReferenceSubject

/-! ## Answers -/

inductive Refusal where
  | literal (e : LiteralError)
  | format (e : FormatError)
  deriving DecidableEq

def Refusal.message : Refusal → String
  | literal e => e.message
  | format e => e.message

/-- The bytes that a rendering is written as. -/
def outputBytes (rendering : String) : Bytes :=
  (Text.toLatin1? rendering).getD (Text.utf8 rendering)

/-- The bytes for a format, the tag of a type and a literal. -/
def answer (format tag : String) (literal : Bytes) : Except Refusal Bytes :=
  match SemanticType.ofTag? tag with
  | none => .error (.literal (.unknownTag tag))
  | some type =>
    match Literal.decode type literal with
    | .error e => .error (.literal e)
    | .ok v =>
      match expectedRendering format v with
      | .error e => .error (.format e)
      | .ok rendering => .ok (outputBytes rendering)

/-- The course of a subject that gives an answer: the rendering alone, or the reason on a line. -/
def respond : Except Refusal Bytes → Process
  | .ok bytes => .instant 0 bytes []
  | .error refusal => .instant 1 [] (Text.utf8 (refusal.message ++ "\n"))

/-! ## Command line -/

/-- Why the arguments are not a format, a tag and a literal. -/
inductive UsageError where
  | missing (names : List String)
  | unexpected (argument : String)
  | invalidUtf8
  deriving DecidableEq, Repr

def operandNames : List String := ["<FORMAT>", "<TYPE_TAG>", "<LITERAL>"]

namespace UsageError

def problem : UsageError → String
  | missing names =>
    "the following required arguments were not provided:"
      ++ String.join (names.map fun name => "\n  " ++ name)
  | unexpected argument => "unexpected argument '" ++ argument ++ "' found"
  | invalidUtf8 => "invalid UTF-8 was detected in one or more arguments"

def message (e : UsageError) : String :=
  "error: " ++ e.problem ++ "\n\nUsage: reference-subject " ++ " ".intercalate operandNames
    ++ "\n\nFor more information, try '--help'.\n"

end UsageError

def dash : UInt8 := 0x2d
def equals : UInt8 := 0x3d

/-- Whether an argument begins like a long option whose name is no text. -/
def isUnreadableOption (argument : Bytes) : Bool :=
  match argument with
  | a :: b :: rest =>
    a = dash && b = dash && (Text.ofUtf8? (rest.takeWhile (· ≠ equals))).isNone
  | _ => false

/-- Adds an argument to the operands before it. -/
def addOperand (operands : List Bytes) (argument : Bytes) : Except UsageError (List Bytes) :=
  if operands.length ≥ operandNames.length then
    .error (.unexpected (Text.ofUtf8Replacing argument))
  else if operands.length < 2 ∧ (Text.ofUtf8? argument).isNone then .error .invalidUtf8
  else .ok (operands ++ [argument])

/-- The operands among arguments. Dashes at the front of an operand mean nothing, but the first `--`
only separates. -/
def operandsAfter (operands : List Bytes) (separated : Bool) :
    List Bytes → Except UsageError (List Bytes)
  | [] =>
    if operands.length < operandNames.length then
      .error (.missing (operandNames.drop operands.length))
    else .ok operands
  | argument :: rest =>
    -- After the separator even another `--` is an operand.
    if separated then
      match addOperand operands argument with
      | .error e => .error e
      | .ok operands => operandsAfter operands true rest
    else if argument = [dash, dash] then operandsAfter operands true rest
    else if isUnreadableOption argument then
      .error (.unexpected (Text.ofUtf8Replacing argument))
    else
      match addOperand operands argument with
      | .error e => .error e
      | .ok operands => operandsAfter operands false rest

def run (arguments : List Bytes) : Process :=
  match operandsAfter [] false arguments with
  | .error e => .instant 2 [] (Text.utf8 e.message)
  | .ok operands =>
    let text (i : Nat) : String := Text.ofUtf8Replacing (operands.getD i [])
    respond (answer (text 0) (text 1) (operands.getD 2 []))

end ReferenceSubject
end FormatCheck
