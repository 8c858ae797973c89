import HeaderCatalog.FileScan
import HeaderCatalog.Report.Record
import HeaderCatalog.Report.Table

/-!
# HeaderCatalog.Command — the commands and what they answer

`Invocation.ofArguments` reads the arguments, `Invocation.run` carries them out. A command that
fails on its input says so on the error channel, with exit code 1 if the input is at fault and 2
otherwise. Two failures are not dealt with by the commands: `Crash` names them.

How settings and scripts are read is left to `Readers`.
-/

namespace HeaderCatalog

/-! ## Arguments -/

/-- What can be asked for. -/
inductive Command where
  /-- List the entities of a file, as JSON or as a table. -/
  | scan (path : Path) (json : Bool)
  /-- List the kinds of nodes that the slot table does not cover. -/
  | kinds (path : Path)
deriving DecidableEq, Repr, Inhabited

/-- What the arguments ask for. -/
inductive Invocation where
  | command (verbose : Bool) (command : Command)
  /-- Only options that ask for nothing. -/
  | idle
  | help
  | version
  /-- The arguments do not fit. -/
  | misused
deriving DecidableEq, Repr, Inhabited

namespace Invocation

/-- Is an argument an option? A single hyphen is none. -/
def isOption (arg : String) : Bool :=
  arg.startsWith "-" && arg != "-"

/-- The options of a command and its other arguments. Behind two hyphens there are no options. -/
def divide : List String → List String × List String
  | [] => ([], [])
  | arg :: rest =>
    if arg == "--" then ([], rest)
    else
      let (options, others) := divide rest
      if isOption arg then (arg :: options, others) else (options, arg :: others)

/-- The arguments of a command that takes one path and these options. -/
def withPath (allowed args : List String) (make : Path → List String → Command)
    (verbose : Bool) : Invocation :=
  let (options, others) := divide args
  if !options.all ("--help" :: allowed).contains then misused
  else if options.contains "--help" then help
  else match others with
    | [path] => .command verbose (make (.ofText path.toList) options)
    | _ => misused

/-- A command by its name. -/
def ofCommand (verbose : Bool) : List String → Invocation
  | [] => idle
  | "scan" :: args =>
    withPath ["--json"] args (fun p options => .scan p (options.contains "--json")) verbose
  | "kinds" :: args => withPath [] args (fun p _ => .kinds p) verbose
  | _ => misused

/-- What an option in front of the command asks for, if anything. -/
def globalOption (option : String) : Option (Option Invocation) :=
  if option == "--verbose" then some none
  else if option == "--help" then some (some help)
  else if option == "--version" then some (some version)
  else if (option.toList.drop 1).all (· == 'v') then some (some version)
  else none

/-- The options in front of the command, and the command. All of them have to fit; the first one
that asks for something else wins over the command. -/
def ofOptions (verbose : Bool) (asked : Option Invocation) : List String → Invocation
  | [] => asked.getD idle
  | arg :: rest =>
    if arg == "--" then asked.getD (ofCommand verbose rest)
    else if isOption arg then
      match globalOption arg with
      | none => misused
      | some other => ofOptions (verbose || arg == "--verbose") (asked.or other) rest
    else asked.getD (ofCommand verbose (arg :: rest))

/-- What the arguments ask for. -/
def ofArguments (args : List String) : Invocation :=
  if args.isEmpty then misused else ofOptions false none args

end Invocation

/-! ## Answers -/

/-- What the commands rely on: a loader of the YAML texts that hold settings, and a parser of
scripts. -/
structure Readers where
  yaml : Yaml.Loader
  parse : Text → Node

/-- A failure that ends a command without an answer. -/
inductive Crash where
  /-- A file that is not UTF-8 is asked for its kinds of nodes. -/
  | undecodable
  /-- A name or header in a table closes a tag that is not open. -/
  | unprintable
deriving DecidableEq, Repr, Inhabited

/-- What a command answers. -/
structure Answer where
  exit : Nat := 0
  output : String := ""
  errors : String := ""
  crash : Option Crash := none
deriving DecidableEq, Repr, Inhabited

namespace Answer

/-- An answer that reports a failure. -/
def failed (exit : Nat) (message : String) : Answer :=
  { exit, errors := "Error: " ++ message ++ "\n" }

/-- A failure that ends a command without an answer. -/
def crashed (crash : Crash) : Answer :=
  { exit := 1, crash := some crash }

end Answer

/-- The lines of a log. -/
def logText (events : List Event) : String :=
  String.join (events.map fun e => e.render ++ "\n")

/-- The exit code of a failure: 1 if the file is missing, of no use or does not fit, 2 for any other
cause. -/
def FileScanError.exitCode : FileScanError → Nat
  | notFound _ => 1
  | unsupported _ => 1
  | undecodable _ => 1
  | scan (.unparsed _) => 1
  | scan (.fault .brokenText) => 1
  | scan (.fault (.unsupportedParameter _)) => 1
  | scan _ => 2
  | unreadable .missing _ => 1
  | unreadable _ _ => 2

/-- The events that a failure leaves in the log. -/
def FileScanError.events : FileScanError → List Event
  | scan (.unparsed e) => [e.event]
  | _ => []

/-- The catalogue of a file, with the settings of the working directory. -/
def scanAnswer (readers : Readers) (files : Files) (verbose : Bool) (p : Path) (json : Bool) :
    Answer :=
  let log (events : List Event) : String := if verbose then logText events else ""
  match Settings.load readers.yaml files (.ofText []) with
  | .error e => .failed 2 e.message
  | .ok settings =>
    match scanFile readers.parse files p settings with
    | .error e =>
      let answer := Answer.failed e.exitCode e.message
      { answer with errors := log e.events ++ answer.errors }
    | .ok (ds, events) =>
      if json then { output := jsonReport ds, errors := log events }
      else match tableReport p.name ds with
        | some table => { output := table, errors := log events }
        | none => { Answer.crashed .unprintable with errors := log events }

/-- The kinds that the slot table does not cover, with their counts. -/
def kindsReport (counts : List (String × Nat)) : String :=
  if counts.isEmpty then "All node kinds are covered.\n"
  else String.join (counts.map fun (kind, count) => kind ++ "\t" ++ toString count ++ "\n")

/-- The kinds of nodes of a file that the slot table does not cover. -/
def kindsAnswer (readers : Readers) (files : Files) (verbose : Bool) (p : Path) : Answer :=
  match readText files p with
  | .error (.undecodable _) => .crashed .undecodable
  | .error e => .failed 1 e.message
  | .ok text =>
    match (readers.parse text).clean with
    | .error e =>
      let answer := Answer.failed 1 e.message
      { answer with errors := (if verbose then logText [e.event] else "") ++ answer.errors }
    | .ok root => { output := kindsReport (gapReportByCount root) }

/-- How the program is called. -/
def usageText : String :=
  "Usage: jsscribe [--version] [--verbose] [--help] (scan FILE [--json] | kinds FILE)\n"

/-- What an invocation answers. -/
def Invocation.run (readers : Readers) (files : Files) : Invocation → Answer
  | command verbose (.scan p json) => scanAnswer readers files verbose p json
  | command verbose (.kinds p) => kindsAnswer readers files verbose p
  | idle => {}
  | help => { output := usageText }
  | version => { output := "jsscribe version 0.1.0\n" }
  | misused => { exit := 2, errors := usageText }

end HeaderCatalog
