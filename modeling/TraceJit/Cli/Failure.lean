import TraceJit.Cli.Command
import TraceJit.Compiler.SettingsFile
import TraceJit.Log.File
import TraceJit.Program.ImageFile

/-!
Why a command failed.
-/

namespace TraceJit.Cli

/-- Why a command failed. -/
inductive Failure where
  | flag (e : FlagError)
  | unknownCommand (word : String)
  /-- There is no argument where at least one is needed. -/
  | noArgument
  /-- There is not exactly one argument. -/
  | notOneArgument (count : Nat)
  /-- The value of a flag is none of `auto`, `on` and `off`. -/
  | badChoice (name value : String)
  /-- The format is neither for readers nor JSON. -/
  | badFormat (format : String)
  | settingsFile (path : String) (e : SettingsError)
  | settings (message : String)
  | image (path : String) (e : ImageError)
  /-- Tracer or compiler cannot be set up. -/
  | setup (e : SetupError)
  | traceFile (path : String) (e : Files.OpenError)
  | log (e : LogError)
  | logWrite (e : LogWriteError)
  /-- A trace of its own and recorded traces at the same time. -/
  | methodAndNames
  | unknownMethod (ref : String)
  | unknownTrace (name : String)
  | badStart (text : String) (fault : Text.NumeralFault)
  | noCount
  | startBeyond (start size : Nat) (ref : String)
  | noTraces
  | nothingToCompile (path : String)
  /-- Some requests have failed. -/
  | compilations (failed total : Nat)
  deriving DecidableEq, Repr

def Failure.message : Failure → String
  | .flag e => e.message
  | .unknownCommand word =>
    "unknown command " ++ Text.quoted word ++ " for \"dexjit\"" ++
      match suggestions word with
      | [] => ""
      | names =>
        "\n\nDid you mean this?\n" ++ String.join (names.map fun n => "\t" ++ n ++ "\n")
  | .noArgument => "requires at least 1 arg(s), only received 0"
  | .notOneArgument count => "accepts 1 arg(s), received " ++ toString count
  | .badChoice name value =>
    "invalid --" ++ name ++ " value " ++ Text.quoted value ++ " (expected auto|on|off)"
  | .badFormat format =>
    "unsupported format " ++ Text.quoted format ++ " (must be pretty or json)"
  | .settingsFile path e => path ++ ": " ++ e.message
  | .settings message => message
  | .image path e => path ++ ": " ++ e.message
  | .setup e => e.message?.getD "runtime error: makeslice: len out of range"
  | .traceFile path e =>
    "failed to create tracer: failed to open trace output: open " ++ path ++ ": " ++ e.message
  | .log e => e.message
  | .logWrite e => e.message
  | .methodAndNames => "--method cannot be combined with trace names"
  | .unknownMethod ref => "unknown method " ++ Text.quoted ref
  | .unknownTrace name => "unknown trace " ++ Text.quoted name
  | .badStart text fault =>
    "invalid --start " ++ Text.quoted text ++ ": " ++ valueProblem "ParseUint" text fault
  | .noCount => "--count must be positive"
  | .startBeyond start size ref =>
    "--start " ++ Text.hexMarked start ++ " is beyond the " ++ toString size ++
      " code units of " ++ ref
  | .noTraces => "image records no traces"
  | .nothingToCompile path => path ++ ": nothing to compile"
  | .compilations failed total =>
    toString failed ++ " of " ++ toString total ++ " compilations failed"

/-- The failure is none of the kinds that a command knows of and ends the run on the spot. -/
def Failure.isCrash : Failure → Bool
  | .setup .noMemory | .log .undated => true
  | _ => false

end TraceJit.Cli
