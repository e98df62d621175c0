import TraceJit.Cli.Failure
import TraceJit.Cli.Lines
import TraceJit.Release

/-!
Running a command line. A run is a function of the words and of the files it finds; what comes out
is an exit status, two texts and the files it leaves.
-/

namespace TraceJit.Cli

structure Ran where
  exit : Nat := 0
  stdout : String := ""
  stderr : String := ""
  files : Files
  deriving Inhabited

/-- A choice that may be left to the program. -/
inductive Choice where
  | auto
  | on
  | off
  deriving DecidableEq, Repr

/-- The choice that the value of a flag means. Case and blanks around it do not count. -/
def readChoice (flag value : String) : Except Failure Choice :=
  match Text.trimBlank (Text.lower value) with
  | "" | "auto" => .ok .auto
  | "on" => .ok .on
  | "off" => .ok .off
  | _ => .error (.badChoice flag value)

/-- Whether output is coloured. By itself it is not, because a run does not know its terminal. -/
def readColor (o : Options) : Except Failure Bool :=
  (readChoice "color" o.color).map (· == .on)

/-- Settings from the file that is named or found, changed by flags. -/
def loadSettings (files : Files) (o : Options) : Except Failure Settings := do
  let path :=
    if o.config ≠ "" then some o.config
    else (files.searchUp Settings.fileName ".").toOption.join
  let settings ← match path with
    | none => pure {}
    | some path =>
      match files.find path with
      | .file bytes => (Settings.load bytes).mapError (.settingsFile path)
      | _ => .error (.settingsFile path (.document .malformed))
  let settings :=
    { settings with
      print := o.print.getD settings.print
      maxTraceInsns := o.maxInsns.getD settings.maxTraceInsns
      jobs := o.jobs.getD settings.jobs }
  match settings.invalid? with
  | some message => .error (.settings message)
  | none => return settings

def loadImage (files : Files) (path : String) : Except Failure Image :=
  match files.find path with
  | .file bytes => (Image.load bytes).mapError (.image path)
  | _ => .error (.image path (.document .malformed))

/-- The tracer that is asked for, and the file that its reports go to. Where tracing is off but
something is to be printed, only what is printed is reported. -/
def loadTracer (files : Files) (now : Instant) (o : TracerOptions) (printing : Bool) :
    Except Failure (Tracer × Option String) := do
  let config ← o.config.mapError .setup
  if config.level = .off && !printing then return (.nop, none)
  let config :=
    if config.level = .off then { config with level := .error, mode := some .stream } else config
  let tracer := { ← (Tracer.new config).mapError .setup with now }
  if config.mode = some .ring || o.path = "" || o.path = "-" then return (tracer, none)
  match files.writeError? o.path with
  | some e => .error (.traceFile o.path e)
  | none => return (tracer, some o.path)

/-- A command that compiles, ready to do so. -/
structure Job where
  colored : Bool
  settings : Settings
  image : Image
  imagePath : String
  compiler : Compiler Assembler
  /-- Where reports are written if not on the terminal. -/
  traceFile : Option String
  files : Files

def openJob (files : Files) (now : Instant) (colored : Bool) (o : Options) (path : String) :
    Except Failure Job := do
  let settings ← loadSettings files o
  let image ← loadImage files path
  let printing := settings.print || (settings.filter.include_ && !settings.filter.methods.isEmpty)
  let (tracer, traceFile) ← loadTracer files now o.tracer printing
  let compiler ← (Compiler.withCache settings (some Assembler.compile) tracer).mapError .setup
  return { colored, settings, image, imagePath := path, compiler, traceFile, files }

def failureText (colored : Bool) (e : Failure) : String :=
  Paint.red.apply colored "error:" ++ " " ++ e.message ++ "\n"

/-- The end of a run that has failed before it did anything. -/
def failed (files : Files) (colored : Bool) (e : Failure) : Ran :=
  if e.isCrash then { exit := 2, stderr := "panic: " ++ e.message ++ "\n", files }
  else { exit := 1, stderr := failureText colored e, files }

/-- The files with the reports of a job in theirs, if they have one. -/
def Job.reported (j : Job) (t : Tracer) : Files :=
  match j.traceFile with
  | some path => j.files.write path (Text.utf8 t.output)
  | none => j.files

/-- The end of a job: the files, what it has printed, a message of a broken invariant, or a
failure. Reports that have no file come first among the complaints. -/
def Job.finish (j : Job) (t : Tracer) (files : Files) (stdout : String) (abort : Option String)
    (failure : Option Failure) : Ran :=
  let reports := if j.traceFile.isSome then "" else t.output
  match abort with
  | some message =>
    let kept := match t.ring? with
      | some r => r.dump .text
      | none => ""
    { exit := 70, stdout, files,
      stderr := reports ++ kept ++ "dexjit: fatal: " ++ message ++ "\n" }
  | none =>
    match failure with
    | some e => { exit := 1, stdout, stderr := reports ++ failureText j.colored e, files }
    | none => { stdout, stderr := reports, files }

/-- The end of a job that leaves no file but that of its reports. -/
def Job.close (j : Job) (t : Tracer) (stdout : String) (abort : Option String)
    (failure : Option Failure) : Ran :=
  j.finish t (j.reported t) stdout abort failure

/-- A trace of its own: so many instructions of a method from a given offset. -/
def ownTrace (image : Image) (o : Options) : Except Failure (List Request) :=
  match image.method? o.method with
  | none => .error (.unknownMethod o.method)
  | some m =>
    match Text.readMarked 0xffffffff o.start.toList with
    | .error fault => .error (.badStart o.start fault)
    | .ok start =>
      if o.count = 0 then .error .noCount
      else if m.code.size ≤ start then .error (.startBeyond start m.code.size o.method)
      else .ok [.trace (Trace.single m start.toUInt32 o.count)]

/-- The requests for traces: one of its own, those with the given names, or all. -/
def traceRequests (image : Image) (o : Options) (names : List String) :
    Except Failure (List Request) :=
  if o.method ≠ "" then
    if names.isEmpty then ownTrace image o else .error .methodAndNames
  else if names.isEmpty then
    if image.traces.isEmpty then .error .noTraces else .ok (image.traces.map .trace)
  else
    names.mapM fun name =>
      match image.trace? name with
      | some t => .ok (.trace t)
      | none => .error (.unknownTrace name)

/-- The requests for all methods that have code, in the order of their references. -/
def allMethods (image : Image) : List Request :=
  (image.methodRefs.filterMap image.method?).filter (!·.native) |>.map .method

/-- The requests for methods: those with the given references, or all that have code. -/
def methodRequests (image : Image) (refs : List String) : Except Failure (List Request) :=
  if refs.isEmpty then .ok (allMethods image)
  else
    refs.mapM fun ref =>
      match image.method? ref with
      | some m => .ok (.method m)
      | none => .error (.unknownMethod ref)

/-- How many requests failed, if any did. -/
def failures? (outcomes : List Outcome) : Option Failure :=
  match (outcomes.filter (·.error.isSome)).length with
  | 0 => none
  | n => some (.compilations n outcomes.length)

/-- Compile requests one after the other and tell every result. -/
def Job.compileAll (j : Job) (o : Options) (requests : List Request) : Ran :=
  let b := j.compiler.compileAll {} requests
  let told := if b.left then b.outcomes.dropLast else b.outcomes
  let lines := String.join (told.map fun r =>
    resultText j.colored o.timings r.request.name r.result (r.error.map (·.message)))
  let stats := if o.stats && !b.left then statsText b.compiler else ""
  j.close b.compiler.tracer (lines ++ stats) b.aborts.head? (failures? b.outcomes)

def batchTimings (outcomes : List Outcome) : String :=
  String.join (outcomes.map fun r =>
    if r.error.isNone && !r.result.phases.isEmpty then
      r.request.name ++ "\n" ++ r.result.timings.summary else "")

def Job.batch (j : Job) (now : Instant) (o : Options) : Ran :=
  let requests := j.image.traces.map .trace ++ (if o.methods then allMethods j.image else [])
  if requests.isEmpty then
    j.close j.compiler.tracer "" none (some (.nothingToCompile j.imagePath))
  else
    let b := j.compiler.batch {} requests true
    let t := b.compiler.tracer
    let lines := String.join ((b.events.filter (·.status.isFinal)).map fun e =>
      resultText j.colored false e.name e.result e.error)
    if b.left then j.close t lines b.aborts.head? none
    else
      let lines := lines ++ (if o.timings then batchTimings b.outcomes else "")
      let stats := if o.stats then statsText b.compiler else ""
      if o.log = "" then j.close t (lines ++ stats) none (failures? b.outcomes)
      else
        let entries := (b.outcomes.filter (·.error.isNone)).map (LogEntry.ofResult ·.result)
        match LogFile.write .standard (j.reported t) o.log now (some entries) with
        | (some e, files) => j.finish t files lines none (some (.logWrite e))
        | (none, files) =>
          let note := "wrote " ++ toString entries.length ++ " translations to " ++ o.log ++ "\n"
          j.finish t files (lines ++ note ++ stats) none (failures? b.outcomes)

def Job.compile (j : Job) (o : Options)
    (pick : Image → Except Failure (List Request)) : Ran :=
  match pick j.image with
  | .error e => j.close j.compiler.tracer "" none (some e)
  | .ok requests => j.compileAll o requests

def showLog (files : Files) (colored : Bool) (o : Options) (path : String) :
    Except Failure String := do
  let format := Text.lower o.format
  if format ≠ "pretty" && format ≠ "json" then .error (.badFormat format)
  let log ← (LogFile.read .standard path (files.find path)).mapError .log
  let entries := log.entries.map fun es =>
    if o.method = "" then es else es.filter (·.method == .ofString o.method)
  return if format = "json" then logJson entries
    else logText colored (entries.getD []) log.written

def releaseJson (r : Release) : String :=
  let build := [("git_commit", Text.trimBlank r.commit), ("build_date", Text.trimBlank r.date)]
  let fields := [("tool", "dexjit"), ("version", r.version)] ++ build.filter (·.2 ≠ "")
  Text.jsonFields 0 (fields.map fun (k, v) => (k, Text.jsonString v)) ++ "\n"

def showVersion (colored : Bool) (o : Options) : Except Failure String :=
  match Text.lower o.format with
  | "pretty" => .ok (Release.current.line colored ++ "\n")
  | "json" => .ok (releaseJson Release.current)
  | _ => .error (.badFormat o.format)

def checkArguments (c : Command) (args : List String) : Except Failure Unit :=
  match c with
  | .trace | .method => if args.isEmpty then .error .noArgument else .ok ()
  | .batch | .log => if args.length = 1 then .ok () else .error (.notOneArgument args.length)
  | .version => .ok ()

/-- The end of a run that only shows a text. -/
def shown (files : Files) (colored : Bool) : Except Failure String → Ran
  | .ok stdout => { stdout, files }
  | .error e => failed files colored e

def runCommand (files : Files) (now : Instant) (c : Command) (o : Options) (args : List String) :
    Ran :=
  let choices : Except Failure Bool := do
    if c = .batch then discard (readChoice "ui" o.ui)
    readColor o
  match choices with
  | .error e => failed files false e
  | .ok colored =>
    let path := args.headD ""
    let job (f : Job → Ran) : Ran :=
      match openJob files now colored o path with
      | .error e => failed files colored e
      | .ok j => f j
    match c with
    | .trace => job fun j => j.compile o fun image => traceRequests image o (args.drop 1)
    | .method => job fun j => j.compile o fun image => methodRequests image (args.drop 1)
    | .batch => job fun j => j.batch now o
    | .log => shown files colored (showLog files colored o path)
    | .version => shown files colored (showVersion colored o)

def run (files : Files) (now : Instant) (words : List String) : Ran :=
  match select words with
  | .unknown word => failed files false (.unknownCommand word)
  | .help => { stdout := usage, files }
  | .nothing words =>
    match readWords (flagsOf none) ({} : Options) [] words with
    | .error e => failed files false (.flag e)
    | .ok (o, _) =>
      if o.version && !o.help then
        { stdout := "dexjit version " ++ Release.current.version ++ "\n", files }
      else { stdout := usage, files }
  | .command c words =>
    match readWords (flagsOf (some c)) ({} : Options) [] words with
    | .error e => failed files false (.flag e)
    | .ok (o, args) =>
      if o.help then { stdout := usage, files }
      else match checkArguments c args with
        | .error e => failed files false e
        | .ok () => runCommand files now c o args

end TraceJit.Cli
