import FormatCheck.Text.Encoding
import FormatCheck.Numeral

/-!
# Subjects

A subject is a program that renders one value: it is run once a case with the format, the tag of the
type and the literal as its arguments, prints the rendering and exits with `0`, or fails. Its
standard output is read as Latin-1, its standard error as UTF-8 with replacements.

`Subject` is what a run sees of one: a function from the three arguments to an output or to the
reason for which there is none.
-/

namespace FormatCheck

inductive SubjectStatus where
  | exited (code : Int)
  /-- Ended by a signal, without an exit code. -/
  | signaled
  /-- Killed after the configured wait. -/
  | timedOut
  deriving DecidableEq, Repr

/-- The captured result of one process. -/
structure SubjectOutput where
  status : SubjectStatus
  stdout : String
  stderr : String
  microseconds : Nat
  deriving DecidableEq, Repr

namespace SubjectOutput

def success (output : SubjectOutput) : Bool := output.status = .exited 0

def milliseconds (output : SubjectOutput) : Nat := output.microseconds / 1000

/-- What a failed process has to say for itself. -/
def diagnostics (output : SubjectOutput) : String :=
  match output.status with
  | .timedOut => "timed out after " ++ Numeral.showNat output.milliseconds ++ "ms"
  | .signaled => if output.stderr.isEmpty then "terminated by signal" else output.stderr
  | .exited _ => output.stderr

def exitCode? (output : SubjectOutput) : Option Int :=
  match output.status with
  | .exited code => some code
  | .signaled | .timedOut => none

end SubjectOutput

/-- Why an invocation gives no output. An explanation is the text of the system about its own
failure. -/
inductive InvocationError where
  /-- The program could not be started. -/
  | spawn (program explanation : String)
  /-- A started process has no such output stream. -/
  | streamUnavailable (stream : String)
  /-- The thread that read a stream did not live to its end. -/
  | readerPanicked (stream : String)
  /-- Waiting for the process or reading a stream failed. -/
  | io (explanation : String)
  deriving DecidableEq, Repr

def InvocationError.message : InvocationError → String
  | spawn program explanation => "failed to spawn subject " ++ program ++ ": " ++ explanation
  | streamUnavailable stream => "subject stream unavailable: " ++ stream
  | readerPanicked stream => "subject " ++ stream ++ " reader thread panicked"
  | io explanation => "io: " ++ explanation

/-- What a program does with a format, a tag and a literal. -/
abbrev Subject := (format tag : String) → (literal : Bytes) → Except InvocationError SubjectOutput

end FormatCheck
