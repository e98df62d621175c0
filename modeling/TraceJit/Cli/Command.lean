import TraceJit.Cli.Flag
import TraceJit.Events.Options
import TraceJit.Text.Lower
import TraceJit.Text.Utf8

/-!
The commands of the program, their options, and how a command line selects one of them.
-/

namespace TraceJit.Cli

/-- What a command line can ask for. -/
inductive Command where
  /-- Compile recorded traces. -/
  | trace
  /-- Compile whole methods. -/
  | method
  /-- Compile everything in an image. -/
  | batch
  /-- Show a log. -/
  | log
  /-- Tell the build. -/
  | version
  deriving DecidableEq, Repr

/-- The options of all commands. An option that has to be told from its default is absent until it
is given. -/
structure Options where
  config : String := ""
  color : String := "auto"
  timings : Bool := false
  print : Option Bool := none
  maxInsns : Option Int := none
  tracer : TracerOptions := {}
  method : String := ""
  start : String := "0"
  count : UInt32 := 0
  stats : Bool := false
  jobs : Option Int := none
  methods : Bool := false
  ui : String := "auto"
  log : String := ""
  format : String := "pretty"
  help : Bool := false
  version : Bool := false
  deriving DecidableEq, Repr, Inhabited

namespace Command

/-- All commands, in the order in which they are offered. -/
def all : List Command := [.trace, .method, .batch, .log, .version]

def name : Command → String
  | .trace => "trace"
  | .method => "method"
  | .batch => "batch"
  | .log => "log"
  | .version => "version"

def purpose : Command → String
  | .trace => "Compile recorded traces"
  | .method => "Compile whole methods"
  | .batch => "Compile every trace of an image concurrently"
  | .log => "Show a translation log written by batch --log"
  | .version => "Show dexjit build metadata"

def statsFlag : Flag Options :=
  { name := "stats", setter := .truth fun stats o => { o with stats } }

def methodFlag : Flag Options :=
  { name := "method", setter := .text fun method o => { o with method } }

def formatFlag : Flag Options :=
  { name := "format", setter := .text fun format o => { o with format } }

def ownFlags : Command → List (Flag Options)
  | .trace =>
    [methodFlag,
      { name := "start", setter := .text fun start o => { o with start } },
      { name := "count", setter := .word32 fun count o => { o with count } },
      statsFlag]
  | .method => [statsFlag]
  | .batch =>
    [{ name := "jobs", setter := .integer fun jobs o => { o with jobs := some jobs } },
      { name := "methods", setter := .truth fun methods o => { o with methods } },
      { name := "ui", setter := .text fun ui o => { o with ui } },
      { name := "log", setter := .text fun log o => { o with log } },
      statsFlag]
  | .log => [formatFlag, methodFlag]
  | .version => [formatFlag]

end Command

def sharedFlags : List (Flag Options) :=
  [{ name := "config", setter := .text fun config o => { o with config } },
    { name := "color", setter := .text fun color o => { o with color } },
    { name := "timings", setter := .truth fun timings o => { o with timings } },
    { name := "print", setter := .truth fun print o => { o with print := some print } },
    { name := "max-insns", setter := .integer fun n o => { o with maxInsns := some n } },
    { name := "trace",
      setter := .text fun path o => { o with tracer := { o.tracer with path } } },
    { name := "trace-level",
      setter := .text fun level o => { o with tracer := { o.tracer with level } } },
    { name := "trace-mode",
      setter := .text fun mode o => { o with tracer := { o.tracer with mode } } },
    { name := "trace-format",
      setter := .text fun format o => { o with tracer := { o.tracer with format } } },
    { name := "trace-ring-size",
      setter := .integer fun ringSize o => { o with tracer := { o.tracer with ringSize } } }]

def helpFlag : Flag Options :=
  { name := "help", setter := .truth fun help o => { o with help }, short := some 'h' }

/-- The switch that asks for the version, where no command is given. -/
def versionFlag : Flag Options :=
  { name := "version", setter := .truth fun version o => { o with version }, short := some 'v' }

/-- The flags that a command line with this command may have. -/
def flagsOf : Option Command → List (Flag Options)
  | none => sharedFlags ++ [helpFlag, versionFlag]
  | some c => sharedFlags ++ c.ownFlags ++ [helpFlag]

/-- While the command is looked for, the word after this one counts as its value: a flag that is no
switch of all commands, and without an equals sign. -/
def takesNext (w : String) : Bool :=
  !w.toList.contains '=' &&
    ((w.startsWith "--" &&
        !sharedFlags.any fun f => f.isSwitch && "--" ++ f.name == w) ||
      (w.startsWith "-" && w.utf8ByteSize = 2))

/-- The words that are neither flags nor their values. A flag whose value would be the last word
ends the search. -/
def plainWords : List String → List String
  | [] => []
  | w :: rest =>
    if w = "--" then []
    else if takesNext w then
      match rest with
      | [] => []
      | [_] => []
      | _ :: rest => plainWords rest
    else if w ≠ "" && !w.startsWith "-" then w :: plainWords rest
    else plainWords rest

/-- The words without the first plain word that is `x`. -/
def without (x : String) : List String → List String
  | [] => []
  | w :: rest =>
    if w = "--" then w :: rest
    else if takesNext w then
      match rest with
      | [] => [w]
      | value :: rest => w :: value :: without x rest
    else if w = x then rest
    else w :: without x rest

/-- One row of the table of distances between the beginnings of two texts, from the row before
it. -/
def distanceRow (a : UInt8) : List UInt8 → List Nat → Nat → List Nat
  | b :: bs, diagonal :: above :: more, left =>
    let here := min (diagonal + (if a = b then 0 else 1)) (min (above + 1) (left + 1))
    here :: distanceRow a bs (above :: more) here
  | _, _, _ => []

/-- The least number of octets to add, drop or change to make one text from the other. -/
def editDistance (s t : List UInt8) : Nat :=
  let first := List.range (t.length + 1)
  let last := s.foldl
    (fun (row : List Nat) a =>
      let left := row.headD 0 + 1
      left :: distanceRow a t row left) first
  last.getLastD 0

/-- The names of commands that are close to a word or that it begins. -/
def suggestions (word : String) : List String :=
  let typed := Text.lower word
  (Command.all.map (·.name) ++ ["completion"]).filter fun name =>
    editDistance (Text.utf8 typed) (Text.utf8 name) ≤ 2 || name.startsWith typed

/-- What the words of a command line select. -/
inductive Selection where
  | command (c : Command) (words : List String)
  /-- No command, but perhaps flags. -/
  | nothing (words : List String)
  | help
  | unknown (word : String)
  deriving DecidableEq, Repr

def select (words : List String) : Selection :=
  match plainWords words with
  | [] => .nothing words
  | w :: _ =>
    match Command.all.find? (·.name == w) with
    | some c => .command c (without w words)
    | none => if w = "help" || w = "completion" then .help else .unknown w

def usage : String :=
  "Usage:\n  dexjit [command]\n\nAvailable Commands:\n" ++
    String.join (Command.all.map fun c => "  " ++ Text.padRight 12 c.name ++ c.purpose ++ "\n")

end TraceJit.Cli
