import FormatCheck.Subject

/-!
# Courses of processes

What a process did from its start to its end, on a clock of milliseconds: how it ended, what it
wrote when, and until when the programs it started hold its streams. A stream is at its end once
nobody holds it, so a process can end long before its output is complete.

`observe` is what one who waits sees of a course. With a bound on the wait, a process that has not
ended by then is killed, and a stream that is not complete soon after is given up.

Which courses there are is left to the system: a `Launcher` says what starting a program with
arguments leads to, and `Subject.ofLauncher` makes a subject of it by waiting for each process.
-/

namespace FormatCheck

inductive Ending where
  | exited (code : Nat)
  | signaled
  /-- Not ended within the steps it was given. -/
  | running
  deriving DecidableEq, Repr

inductive Sink where
  | stdout
  | stderr
  | discard
  deriving DecidableEq, Repr

/-- Where the two output streams of a command go. -/
structure Sinks where
  out : Sink := .stdout
  err : Sink := .stderr
  deriving DecidableEq, Repr

/-- Bytes written to a stream at a time. -/
structure Write where
  time : Nat
  sink : Sink
  bytes : Bytes
  deriving DecidableEq, Repr

/-- A program that runs, and holds its streams, from one time to another. -/
structure Holder where
  start : Nat
  stop : Nat
  sinks : Sinks
  deriving DecidableEq, Repr

def Holder.holds (holder : Holder) (sink : Sink) : Bool :=
  holder.sinks.out = sink || holder.sinks.err = sink

structure Process where
  ending : Ending
  time : Nat := 0
  writes : List Write := []
  /-- The programs started on the way. -/
  holders : List Holder := []
  deriving DecidableEq, Repr

namespace Process

/-- A process that ends at once with an exit code and its two outputs. -/
def instant (code : Nat) (stdout stderr : Bytes) : Process :=
  { ending := .exited code, writes := [⟨0, .stdout, stdout⟩, ⟨0, .stderr, stderr⟩] }

/-! ## Streams -/

/-- The bytes written to a stream before a time, in the order of their times. -/
def written (p : Process) (sink : Sink) (before : Option Nat) : Bytes :=
  let writes := p.writes.filter fun w => w.sink = sink && before.all (w.time < ·)
  (writes.mergeSort fun a b => a.time ≤ b.time).flatMap Write.bytes

/-- The time at which nobody started before a time holds a stream any more. -/
def released (p : Process) (sink : Sink) (before : Option Nat) : Nat :=
  let holders := p.holders.filter fun h => h.holds sink && before.all (h.start < ·)
  holders.foldl (fun t h => max t h.stop) 0

/-! ## Waiting -/

/-- How long streams may take to be complete after the end of the process, in milliseconds. -/
def grace : Nat := 50

/-- The output of a process with a status and the streams that were complete. -/
def output (status : SubjectStatus) (stdout stderr : Bytes) (milliseconds : Nat) :
    SubjectOutput :=
  { status
    stdout := Text.latin1 stdout
    stderr := if status = .exited 0 then "" else Text.ofUtf8Replacing stderr
    microseconds := milliseconds * 1000 }

/-- The status of an ending; a process that never ends has to be killed. -/
def statusOf : Ending → SubjectStatus
  | .exited code => .exited code
  | .signaled => .signaled
  | .running => .timedOut

/-- What is seen of a process by one who waits until all is complete. -/
def observeFully (p : Process) : SubjectOutput :=
  let stop := max p.time (max (p.released .stdout none) (p.released .stderr none))
  output (statusOf p.ending) (p.written .stdout none) (p.written .stderr none) stop

/-- What is seen of a process by one who kills it after `limit` milliseconds. -/
def observeFor (p : Process) (limit : Nat) : SubjectOutput :=
  let ended := p.ending ≠ .running ∧ p.time < limit
  -- Nothing that a killed process would have done after the limit happens.
  let before := if ended then none else some limit
  let deadline := if ended then max limit (p.time + grace) else limit + grace
  let complete (sink : Sink) : Bool := p.released sink before ≤ deadline
  let content (sink : Sink) : Bytes := if complete sink then p.written sink before else []
  -- A process that ended on time still counts as timed out if its output did not end.
  let status := if ended ∧ complete .stdout ∧ complete .stderr then statusOf p.ending
    else .timedOut
  let waited := if ended then p.time else limit
  let released := max (p.released .stdout before) (p.released .stderr before)
  output status (content .stdout) (content .stderr) (max waited (min released deadline))

/-- What is seen of a process, with an optional bound on the wait in milliseconds. -/
def observe (p : Process) : (limit : Option Nat) → SubjectOutput
  | none => p.observeFully
  | some limit => p.observeFor limit

end Process

/-- What starting a program with arguments leads to: the course of a process, or the text of the
system about why there is none. -/
abbrev Launcher := (arguments : List Bytes) → Except String Process

/-- A program as a subject, its path shown as given, each process awaited for at most `limit`
milliseconds. -/
def Subject.ofLauncher (path : String) (launch : Launcher) (limit : Option Nat) : Subject :=
  fun format tag literal =>
    match launch [Text.utf8 format, Text.utf8 tag, literal] with
    | .error explanation => .error (.spawn path explanation)
    | .ok process => .ok (process.observe limit)

end FormatCheck
