import FormatCheck.CommandLine
import FormatCheck.Config.Reader
import FormatCheck.Process
import FormatCheck.Report
import FormatCheck.Run
import FormatCheck.Timestamp

/-!
# Sessions

One use of the program from its arguments to its exit code. A session loads the configuration,
builds the plan, keeps the groups asked for, and either shows the plan or runs it and writes what
was asked for. What it does to the outside is a list of effects in order, and what it finds there
is in its `Host`.

The exit code is `0` if no case failed, `1` if one did, and `2` if there was no complete run.
-/

namespace FormatCheck

/-- Why a file cannot be read or written. -/
abbrev FileError := Config.FileError

/-- What a session finds on its machine. -/
structure Host where
  read : (path : String) → Except FileError Bytes
  /-- The program under a path. -/
  launcher : (path : String) → Launcher
  /-- The readings of the clock one after the other. -/
  clock : Nat → String

inductive Effect where
  /-- Text on standard output. -/
  | print (text : String)
  /-- Text on standard error. -/
  | note (text : String)
  | save (path text : String)
  deriving DecidableEq, Repr

/-- Why a session ends early. -/
inductive SessionError where
  | usage (e : UsageError)
  /-- The configuration file cannot be read. -/
  | file (e : FileError)
  | invalidConfig (path : String)
  | typeNotPlanned (tag : String)
  | literal (e : LiteralError)
  /-- A file cannot be written. -/
  | unwritable (e : FileError)
  deriving DecidableEq

namespace SessionError

def message : SessionError → String
  | usage e => e.message
  | file e => "error: io: " ++ e.message ++ "\n"
  | invalidConfig path => "error: invalid configuration " ++ path ++ "\n"
  | typeNotPlanned tag =>
    "error: type " ++ Text.inDoubleQuotes tag ++ " is not part of the test plan\n"
  | literal e => "error: literal encoding: " ++ e.message ++ "\n"
  | unwritable e => "error: " ++ e.message ++ "\n"

end SessionError

structure Session where
  effects : List Effect
  exitCode : Nat
  deriving DecidableEq, Repr

namespace Session

/-- Ends a session with an error after the effects so far. -/
def fail (effects : List Effect) (e : SessionError) : Session := ⟨effects ++ [.note e.message], 2⟩

/-- The session on a machine where some files cannot be written: it ends at the first of them. -/
def refusing (problem : (path : String) → Option FileError) (session : Session) : Session :=
  go [] session.effects
where
  /-- Goes through the effects after those done. -/
  go (done : List Effect) : List Effect → Session
    | [] => session
    | .save path text :: rest =>
      match problem path with
      | some e => fail done (.unwritable e)
      | none => go (done ++ [.save path text]) rest
    | effect :: rest => go (done ++ [effect]) rest

/-! ## Preparation -/

/-- The configuration asked for: that of the file, if one is named, changed by the options. -/
def config (host : Host) (options : Options) : Except SessionError Config := do
  let config ← match options.config with
    | none => .ok {}
    | some path =>
      match Config.ofFile (host.read path) with
      | .ok config => .ok config
      | .error (.file e) => .error (.file e)
      | .error .invalid => .error (.invalidConfig path)
  .ok
    { config with
      abortOnFirstFailure := config.abortOnFirstFailure || options.abortOnFailure
      timeoutMs := options.timeoutMs.or config.timeoutMs }

/-- Whether a tag is that of a group of the plan. -/
def isPlanned (plan : TestPlan) (tag : String) : Bool :=
  plan.groups.any fun group => group.type.tag = tag

/-- The plan asked for; every type named must have a group. -/
def plan (config : Config) (options : Options) : Except SessionError TestPlan :=
  let plan := TestPlan.build config
  if options.only.isEmpty then .ok plan
  else match options.only.find? fun tag => !isPlanned plan tag with
    | some tag => .error (.typeNotPlanned tag)
    | none => .ok (plan.retain options.only)

/-! ## Files -/

/-- The path with its extension, if it has one, replaced by `.json`. -/
def jsonSibling (path : String) : String :=
  let trimmed := (path.toList.reverse.dropWhile (· = '/')).reverse
  let name := (trimmed.reverse.takeWhile (· ≠ '/')).reverse
  let directory := trimmed.take (trimmed.length - name.length)
  if name = [] ∨ name = ['.', '.'] then path
  else
    let stem := ((name.reverse.dropWhile (· ≠ '.')).drop 1).reverse
    String.ofList (directory ++ (if stem = [] then name else stem) ++ ".json".toList)

def logText (entries : List LogEntry) : String :=
  String.join (entries.map fun entry => entry.line ++ "\n")

/-! ## Running -/

/-- The leading digits of a fingerprint that stand for it. -/
def shortFingerprint (fingerprint : String) : String := String.ofList (fingerprint.toList.take 12)

def startNote (plan : TestPlan) (subject shortFingerprint : String) : String :=
  "Running " ++ Numeral.showNat plan.totalCases ++ " cases in "
    ++ Numeral.showNat plan.groups.length ++ " groups against " ++ subject ++ " (plan "
    ++ shortFingerprint ++ ")\n"

def endNote (summary : Summary) : String :=
  "Conformance run complete: total=" ++ Numeral.showNat summary.total
    ++ ", passed=" ++ Numeral.showNat summary.passed
    ++ ", failed=" ++ Numeral.showNat summary.failed
    ++ ", skipped=" ++ Numeral.showNat summary.skipped
    ++ (if summary.aborted then " (aborted)" else "") ++ "\n"

/-- Writes the report and its JSON sibling. -/
def reportEffects (path : String) (report : Report) : List Effect :=
  [.note ("Writing report to " ++ path ++ "\n"), .save path report.markdown,
    .save (jsonSibling path) report.jsonText]

def execute (host : Host) (options : Options) (config : Config) (plan : TestPlan)
    (subject : String) : Session :=
  let fingerprint := plan.fingerprint
  let short := shortFingerprint fingerprint
  let run := Run.ofPlan (.ofLauncher subject (host.launcher subject) config.timeoutMs) config plan
  let saveLog (path : String) : Effect :=
    .save path (logText (run.log ("fmt-" ++ short) host.clock subject plan))
  -- The log comes before the transcript: if it cannot be written, nothing is run.
  let begun := .note (startNote plan subject short) :: (options.log.map saveLog).toList
    ++ [.print run.transcript]
  match run.error? with
  | some e => fail begun (.literal e)
  | none =>
    let summary := run.summary
    -- The entries of cases are made for a log only, those of the run in any case.
    let readings := if options.log.isSome then run.cases.length + 2 else 2
    let report : Report :=
      { title := "Format Conformance Report", subject, timestamp := host.clock readings,
        fingerprint, summary }
    ⟨begun ++ .note (endNote summary) ::
        (match options.report with
          | some path => reportEffects path report
          | none => []),
      if summary.allPassed then 0 else 1⟩

def ofOptions (host : Host) (options : Options) : Except SessionError Session := do
  let config ← config host options
  let plan ← plan config options
  match options.plan, options.subject with
  | true, _ => .ok ⟨[.print (plan.summaryJson.indented ++ "\n")], 0⟩
  | false, some subject => .ok (execute host options config plan subject)
  | false, none => .error (.usage .missingSubject)

def ofArguments (host : Host) (arguments : List String) : Session :=
  match Options.ofArguments arguments with
  | .error e => fail [] (.usage e)
  | .ok options =>
    match ofOptions host options with
    | .error e => fail [] e
    | .ok session => session

end Session
end FormatCheck
