import FormatCheck.Session
import FormatCheck.Subject.Reference
import Std.Time.DateTime.Timestamp

/-!
# The program

Looks up what a session needs on the machine, performs the effects of the session in order, and ends
with its exit code. With `reference-subject` as the first argument the program is the reference
subject. Other processes are a matter of the system, so the reference subject, under a path of its
name, is the only subject that this program starts.
-/

namespace FormatCheck
namespace Main

/-- The name under which the reference subject is found. -/
def referenceName : String := "reference-subject"

/-- The reason for which a file could not be used. -/
def fileError : IO.Error → FileError
  | .noFileOrDirectory .. => .notFound
  | .permissionDenied .. => .permissionDenied
  | _ => .isDirectory

def readFile (path : String) : IO (Except FileError Bytes) := do
  try
    let content ← IO.FS.readBinFile path
    return .ok content.data.toList
  catch e => return .error (fileError e)

/-- What is started under a path. -/
def launcher (path : String) : Launcher := fun arguments =>
  if (path.splitOn "/").getLast? = some referenceName then .ok (ReferenceSubject.run arguments)
  else .error "No such file or directory (os error 2)"

def now : IO String := do
  let milliseconds := (← Std.Time.Timestamp.now).toMillisecondsSinceUnixEpoch.val.toNat
  return Timestamp.utc ⟨milliseconds / 1000, milliseconds % 1000⟩

/-- What a session with the given arguments finds. The clock stands still, as a session is computed
before its effects. -/
def host (arguments : List String) : IO Host := do
  let options := (Options.ofArguments arguments).toOption.getD {}
  let content ← readFile (options.config.getD "")
  let reading ← now
  return { read := fun _ => content, launcher, clock := fun _ => reading }

/-- Performs an effect; a file that cannot be written gives the reason. -/
def perform : Effect → IO (Option FileError)
  | .print text => do
    IO.print text
    return none
  | .note text => do
    IO.eprint text
    return none
  | .save path text => do
    try
      IO.FS.writeFile path text
      return none
    catch e => return some (fileError e)

def performAll (session : Session) : IO UInt32 := do
  for effect in session.effects do
    if let some e ← perform effect then
      IO.eprint (SessionError.unwritable e).message
      return 2
  return UInt32.ofNat session.exitCode

def runReference (arguments : List String) : IO UInt32 := do
  let process := ReferenceSubject.run (arguments.map Text.utf8)
  let bytes (sink : Sink) : ByteArray := ⟨(process.written sink none).toArray⟩
  (← IO.getStdout).write (bytes .stdout)
  (← IO.getStderr).write (bytes .stderr)
  match process.ending with
  | .exited code => return UInt32.ofNat code
  | .signaled | .running => return 1

end Main
end FormatCheck

open FormatCheck in
/-- Runs a session, or the reference subject. -/
def main (arguments : List String) : IO UInt32 := do
  match arguments with
  | name :: rest =>
    if name = Main.referenceName then Main.runReference rest
    else Main.performAll (.ofArguments (← Main.host arguments) arguments)
  | [] => Main.performAll (.ofArguments (← Main.host []) [])
