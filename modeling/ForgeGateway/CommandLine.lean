/-! # The command line

The program takes one option: `-c` or `--config` with the place of its settings.
`CommandLine.parse` reads the arguments after the program's name. A value may stand in the
same argument or be the next one, unless that one looks like an option. -/

namespace ForgeGateway

/-- What the arguments ask for instead of a run. -/
inductive UsageError where
  | help
  | unknownArgument (shown : String)
  /-- `--help` with a value. -/
  | surplusValue (value : String)
  /-- `--config` without a value. -/
  | missingValue
  /-- `--config` twice. -/
  | repeated
  deriving DecidableEq, Repr

/-- The line on standard error, if there is one. -/
def UsageError.line? : UsageError → Option String
  | .help => none
  | .unknownArgument shown => some ("error: unexpected argument '" ++ shown ++ "' found")
  | .surplusValue value =>
    some ("error: unexpected value '" ++ value ++ "' for '--help' found; no more were expected")
  | .missingValue =>
    some "error: a value is required for '--config <CONFIG>' but none was supplied"
  | .repeated =>
    some "error: the argument '--config <CONFIG>' cannot be used multiple times"

/-- The status with which the program ends. -/
def UsageError.exitStatus : UsageError → Nat
  | .help => 0
  | _ => 2

namespace CommandLine

/-- Where the settings are if nothing is said. -/
def defaultPath : String := "/etc/gitgate/config.yaml"

def usageText : String := "Usage: gitgate [OPTIONS]"

def helpText : String :=
  "Git-over-SSH approval gateway\n\n" ++ usageText ++ "\n\nOptions:\n" ++
    "  -c, --config <CONFIG>  Path to the YAML configuration file [default: " ++ defaultPath ++
    "]\n  -h, --help             Print help\n"

/-- What follows the line about a wrong argument. -/
def hintText : String := "\n" ++ usageText ++ "\n\nFor more information, try \x27--help\x27."

/-- What has been read so far. -/
structure Progress where
  /-- The value of an option that is complete. -/
  config : Option String := none
  /-- An option that stands open, perhaps with its value. -/
  waiting : Option (Option String) := none
  deriving DecidableEq, Repr

/-- Completes the option with a value. -/
def Progress.complete (p : Progress) (value : String) : Except UsageError Progress :=
  if p.config.isSome then .error .repeated else .ok ⟨some value, none⟩

/-- Completes the option that stands open, if one does. -/
def Progress.settle (p : Progress) : Except UsageError Progress :=
  match p.waiting with
  | none => .ok p
  | some none => .error .missingValue
  | some (some value) => p.complete value

/-- An option with a value in the same argument, or one that stands open. -/
def Progress.option (p : Progress) (value : Option String) : Except UsageError Progress :=
  match p.settle with
  | .error e => .error e
  | .ok p =>
    match value with
    | some v => p.complete v
    | none => .ok { p with waiting := some none }

/-- The request for help, once all before it is in order. -/
def Progress.help (p : Progress) : Except UsageError Progress :=
  match p.settle with
  | .error e => .error e
  | .ok _ => .error .help

/-- An argument that starts with two hyphens. -/
def Progress.long (p : Progress) (body : List Char) : Except UsageError Progress :=
  let name := body.takeWhile (· != '=')
  let value := match body.dropWhile (· != '=') with
    | [] => none
    | _ :: v => some (String.ofList v)
  if name = "config".toList then p.option value
  else if name = "help".toList then
    match value with
    | some v => .error (.surplusValue v)
    | none => p.help
  else .error (.unknownArgument ("--" ++ String.ofList name))

/-- An argument that starts with one hyphen. -/
def Progress.short (p : Progress) : List Char → Except UsageError Progress
  | 'c' :: rest =>
    p.option (match rest with
      | [] => none
      | '=' :: v => some (String.ofList v)
      | v => some (String.ofList v))
  | 'h' :: _ => p.help
  | c :: _ => .error (.unknownArgument (String.ofList ['-', c]))
  | [] => .ok p

/-- An argument that is no option: the value that stands out, or nothing known. -/
def Progress.plain (p : Progress) (arg : String) : Except UsageError Progress :=
  match p.waiting with
  | some none => .ok { p with waiting := some (some arg) }
  | _ => .error (.unknownArgument arg)

/-- Reads the arguments one by one. Nothing may follow `--`. -/
def read (p : Progress) : List String → Except UsageError Progress
  | [] => p.settle
  | arg :: rest =>
    match arg.toList with
    | ['-', '-'] =>
      match rest with
      | [] => p.settle
      | surplus :: _ => .error (.unknownArgument surplus)
    | '-' :: '-' :: body =>
      match p.long body with
      | .error e => .error e
      | .ok p => read p rest
    | '-' :: c :: body =>
      match p.short (c :: body) with
      | .error e => .error e
      | .ok p => read p rest
    | _ =>
      match p.plain arg with
      | .error e => .error e
      | .ok p => read p rest

/-- The place of the settings that the arguments name. -/
def parse (args : List String) : Except UsageError String :=
  match read {} args with
  | .error e => .error e
  | .ok p => .ok (p.config.getD defaultPath)

end CommandLine

end ForgeGateway
