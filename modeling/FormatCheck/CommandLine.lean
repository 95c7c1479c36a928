import FormatCheck.Numeral

/-!
# The command line

The arguments of the program: the path of a subject and options with long names. An option that
takes a value takes it after an equals sign or as the next argument, which must not begin with a
dash then, unless it is a dash alone. After `--` every argument is the subject's path.

`Options.ofArguments` reads the arguments in order and refuses the first that does not fit.
-/

namespace FormatCheck

/-- What a session is asked to do. -/
structure Options where
  subject : Option String := none
  config : Option String := none
  abortOnFailure : Bool := false
  timeoutMs : Option Nat := none
  /-- The tags of the groups to run, all if there are none. -/
  only : List String := []
  report : Option String := none
  log : Option String := none
  /-- Show the plan and run nothing. -/
  plan : Bool := false
  deriving DecidableEq, Repr

/-- Why arguments are refused. -/
inductive UsageError where
  | unexpected (argument : String)
  | repeated (option : String)
  | missingValue (option : String)
  | needlessValue (option : String)
  | invalidValue (option value : String)
  | missingSubject
  deriving DecidableEq, Repr

namespace UsageError

def problem : UsageError → String
  | unexpected argument => "unexpected argument '" ++ argument ++ "'"
  | repeated option => option ++ " cannot be given more than once"
  | missingValue option => option ++ " needs a value"
  | needlessValue option => option ++ " takes no value"
  | invalidValue option value => "invalid value '" ++ value ++ "' for " ++ option
  | missingSubject => "a subject is required"

def synopsis : String :=
  "usage: format-check [--config PATH] [--abort-on-failure] [--timeout-ms N] [--only TAG]... "
    ++ "[--report PATH] [--log PATH] (--plan | SUBJECT)"

def message (e : UsageError) : String := "error: " ++ e.problem ++ "\n" ++ synopsis ++ "\n"

end UsageError

namespace Options

/-! ## Values -/

/-- The bound of an option that takes an unsigned number of 64 bits; a plus sign may come first. -/
def unsigned? (s : String) : Option Nat :=
  let digits := match s.toList with
    | '+' :: digits => digits
    | digits => digits
  match Numeral.natural? digits with
  | some n => if n < 2 ^ 64 then some n else none
  | none => none

/-- Sets a path that can be given once and is not empty. -/
def setPath (name : String) (old : Option String) (value : String) :
    Except UsageError (Option String) :=
  if old.isSome then .error (.repeated name)
  else if value.isEmpty then .error (.invalidValue name value)
  else .ok (some value)

/-- Sets an option that takes a value; there is none of an unknown name. -/
def setValue? (options : Options) (name : String) :
    Option (String → Except UsageError Options) :=
  match name with
  | "--config" => some fun value => do
    .ok { options with config := ← setPath name options.config value }
  | "--report" => some fun value => do
    .ok { options with report := ← setPath name options.report value }
  | "--log" => some fun value => do
    .ok { options with log := ← setPath name options.log value }
  | "--only" => some fun value => .ok { options with only := options.only ++ [value] }
  | "--timeout-ms" => some fun value =>
    if options.timeoutMs.isSome then .error (.repeated name)
    else match unsigned? value with
      | some n => .ok { options with timeoutMs := some n }
      | none => .error (.invalidValue name value)
  | _ => none

/-- Sets an option without a value; there is none of an unknown name. -/
def setFlag? (options : Options) (name : String) : Option (Except UsageError Options) :=
  match name with
  | "--abort-on-failure" =>
    some (if options.abortOnFailure then .error (.repeated name)
      else .ok { options with abortOnFailure := true })
  | "--plan" =>
    some (if options.plan then .error (.repeated name) else .ok { options with plan := true })
  | _ => none

/-- Sets the subject, the only argument that belongs to no option. -/
def setSubject (options : Options) (path : String) : Except UsageError Options :=
  if options.subject.isSome then .error (.unexpected path)
  else if path.isEmpty then .error (.invalidValue "the subject" path)
  else .ok { options with subject := some path }

/-! ## Arguments -/

/-- Whether an argument begins with a dash and is more than that. -/
def isDashed (argument : String) : Bool :=
  match argument.toList with
  | '-' :: _ :: _ => true
  | _ => false

/-- The name of an option and what follows its first equals sign. -/
def splitValue (argument : String) : String × Option String :=
  let name := argument.toList.takeWhile (· ≠ '=')
  match argument.toList.drop name.length with
  | _ :: value => (String.ofList name, some (String.ofList value))
  | [] => (argument, none)

inductive Reading where
  | done (result : Except UsageError Options)
  /-- The next argument is the value of the option. -/
  | wantsValue (option : String) (set : String → Except UsageError Options)

/-- Reads an argument that is not after `--`. -/
def readArgument (options : Options) (argument : String) : Reading :=
  if isDashed argument then
    let (name, value) := splitValue argument
    match options.setFlag? name, options.setValue? name, value with
    | some _, _, some _ => .done (.error (.needlessValue name))
    | some result, _, none => .done result
    | none, some set, some value => .done (set value)
    | none, some set, none => .wantsValue name set
    | none, none, _ => .done (.error (.unexpected argument))
  else .done (options.setSubject argument)

/-- Reads arguments on top of the options so far. -/
def readAll (options : Options) (separated : Bool) :
    List String → Except UsageError Options
  | [] => .ok options
  | argument :: rest =>
    if separated then do readAll (← options.setSubject argument) true rest
    else if argument = "--" then readAll options true rest
    else match options.readArgument argument with
      | .done result => do readAll (← result) false rest
      | .wantsValue name set =>
        match rest with
        | [] => .error (.missingValue name)
        | value :: rest =>
          if isDashed value then .error (.missingValue name)
          else do readAll (← set value) false rest

/-- The options that arguments stand for. Without a plan to show, a subject is needed. -/
def ofArguments (arguments : List String) : Except UsageError Options := do
  let options ← readAll {} false arguments
  if options.subject.isNone ∧ options.plan = false then .error .missingSubject
  else .ok options

end Options
end FormatCheck
