import TraceJit.Bytecode.CodeText
import TraceJit.Program.World

/-!
Images: a closed program together with the traces that were recorded in it. An image is described
by texts and numbers; the description is checked as a whole, and only one without any problem is
linked.
-/

namespace TraceJit

structure MethodText where
  name : String := ""
  /-- Code units as text. -/
  code : String := ""
  native : Bool := false
  slot : Int := 0
  /-- Address of the code; zero leaves the choice open. -/
  addr : UInt64 := 0
  deriving DecidableEq, Repr, Inhabited

structure ClassText where
  descriptor : String := ""
  super : String := ""
  vtable : List String := []
  methods : List MethodText := []
  deriving DecidableEq, Repr, Inhabited

structure RunText where
  start : UInt32 := 0
  count : UInt32 := 0
  deriving DecidableEq, Repr, Inhabited

structure TraceText where
  name : String := ""
  method : String := ""
  runs : List RunText := []
  deriving DecidableEq, Repr, Inhabited

/-- The description of an image. -/
structure ImageText where
  /-- Address of the first method that has none of its own. -/
  base : UInt64 := 0
  resolved : List String := []
  classes : List ClassText := []
  traces : List TraceText := []
  deriving DecidableEq, Repr, Inhabited

/-- What is wrong with a described trace. -/
inductive TraceProblem where
  | unknownMethod (ref : String)
  | nativeMethod (ref : String)
  | noRuns
  | emptyRun (index : Nat)
  | runBeyond (index : Nat) (start : UInt32) (size : Nat)
  deriving DecidableEq, Repr

def TraceProblem.message : TraceProblem → String
  | .unknownMethod ref => "unknown method " ++ Text.quoted ref
  | .nativeMethod ref => "method " ++ ref ++ " is native"
  | .noRuns => "no runs"
  | .emptyRun i => "run " ++ toString i ++ " is empty"
  | .runBeyond i start size =>
    "run " ++ toString i ++ " starts at " ++ Text.hexMarked start.toNat ++ " beyond code size " ++
      Text.hexMarked size

/-- What is wrong with a described image. -/
inductive ImageProblem where
  | missingDescriptor (index : Nat)
  | classTwice (descriptor : String)
  | nativeWithCode (ref : String)
  | badCode (ref : String) (cause : CodeTextError)
  | methodTwice (ref : String)
  | unknownSuper (descriptor super : String)
  | unknownSlot (descriptor : String) (slot : Nat) (ref : String)
  | unknownResolved (index : Nat) (ref : String)
  | trace (name : String) (problem : TraceProblem)
  deriving DecidableEq, Repr

def ImageProblem.message : ImageProblem → String
  | .missingDescriptor i => "class[" ++ toString i ++ "]: missing descriptor"
  | .classTwice d => "class " ++ d ++ ": declared twice"
  | .nativeWithCode ref => "method " ++ ref ++ ": native method with code"
  | .badCode ref cause => "method " ++ ref ++ ": " ++ cause.message
  | .methodTwice ref => "method " ++ ref ++ ": declared twice"
  | .unknownSuper d super => "class " ++ d ++ ": unknown super class " ++ super
  | .unknownSlot d slot ref =>
    "class " ++ d ++ ": vtable[" ++ toString slot ++ "] refers to unknown method " ++ ref
  | .unknownResolved i ref => "resolved[" ++ toString i ++ "]: unknown method " ++ ref
  | .trace name problem => "trace " ++ name ++ ": " ++ problem.message

/-- A linked image. -/
structure Image where
  world : World
  traces : List Trace
  deriving Inhabited

namespace MethodText

/-- The reference of a method of the class `descriptor`. -/
def ref (m : MethodText) (descriptor : String) : String := descriptor ++ "->" ++ m.name

/-- The code units of a method. Native methods have none, and neither have those whose text cannot
be read. -/
def units (m : MethodText) : List UInt16 :=
  if m.native then []
  else match CodeText.parse m.code with
    | .ok us => us
    | .error _ => []

def problems (m : MethodText) (descriptor : String) : List ImageProblem :=
  if m.native then
    if Text.allBlank m.code then [] else [.nativeWithCode (m.ref descriptor)]
  else match CodeText.parse m.code with
    | .ok _ => []
    | .error e => [.badCode (m.ref descriptor) e]

/-- Bytes that a method takes up: its code in whole words, and one word where there is none. -/
def extent (m : MethodText) : Nat :=
  if m.units.isEmpty then 4 else (2 * m.units.length + 3) / 4 * 4

/-- The declaration of a method, with the next free address before and after. A method with an
address of its own takes no space. -/
def place (m : MethodText) (free : UInt64) : MethodDecl × UInt64 :=
  let decl (addr : UInt64) : MethodDecl :=
    { name := m.name, code := m.units, native := m.native, slot := m.slot, addr }
  if m.addr ≠ 0 then (decl m.addr, free) else (decl free, free + m.extent.toUInt64)

end MethodText

namespace ImageText

def placeMethods : UInt64 → List MethodText → List MethodDecl × UInt64
  | free, [] => ([], free)
  | free, m :: rest =>
    let (d, free) := m.place free
    let (ds, free) := placeMethods free rest
    (d :: ds, free)

def placeClasses : UInt64 → List ClassText → List ClassDecl
  | _, [] => []
  | free, c :: rest =>
    let (methods, free) := placeMethods free c.methods
    { descriptor := c.descriptor, super := c.super, vtable := c.vtable, methods } ::
      placeClasses free rest

/-- Problems of the methods of a class, of which the references `seen` are taken. -/
def methodProblems (descriptor : String) : List String → List MethodText → List ImageProblem
  | _, [] => []
  | seen, m :: rest =>
    m.problems descriptor ++
      (if seen.contains (m.ref descriptor) then [.methodTwice (m.ref descriptor)] else []) ++
      methodProblems descriptor (m.ref descriptor :: seen) rest

def refs (c : ClassText) : List String := c.methods.map (·.ref c.descriptor)

/-- The classes that count: those with a descriptor that is not blank, the first of each. -/
def countedClasses : List String → List ClassText → List ClassText
  | _, [] => []
  | seen, c :: rest =>
    if Text.allBlank c.descriptor || seen.contains c.descriptor then countedClasses seen rest
    else c :: countedClasses (c.descriptor :: seen) rest

/-- Problems of classes and methods by themselves, the first class having position `index`.
`seen` and `taken` are the descriptors and references that were declared before. -/
def declarationProblems :
    Nat → List String → List String → List ClassText → List ImageProblem
  | _, _, _, [] => []
  | index, seen, taken, c :: rest =>
    if Text.allBlank c.descriptor then
      .missingDescriptor index :: declarationProblems (index + 1) seen taken rest
    else if seen.contains c.descriptor then
      .classTwice c.descriptor :: declarationProblems (index + 1) seen taken rest
    else
      methodProblems c.descriptor taken c.methods ++
        declarationProblems (index + 1) (c.descriptor :: seen) (refs c ++ taken) rest

/-- The classes that count. -/
def counted (d : ImageText) : List ClassText := countedClasses [] d.classes

def descriptors (d : ImageText) : List String := d.counted.map (·.descriptor)

/-- The methods of the classes that count, each with its reference. -/
def methods (d : ImageText) : List (String × MethodText) :=
  d.counted.flatMap fun c => c.methods.map fun m => (m.ref c.descriptor, m)

def declares (d : ImageText) (ref : String) : Bool := (d.methods.lookup ref).isSome

def linkProblems (d : ImageText) : List ImageProblem :=
  d.classes.flatMap fun c =>
    if d.descriptors.contains c.descriptor then
      (if c.super ≠ "" && !d.descriptors.contains c.super then
        [.unknownSuper c.descriptor c.super] else []) ++
      (c.vtable.mapIdx fun i ref =>
        if d.declares ref then [] else [ImageProblem.unknownSlot c.descriptor i ref]).flatten
    else []

def resolvedProblems (d : ImageText) : List ImageProblem :=
  (d.resolved.mapIdx fun i ref =>
    if ref = "" || d.declares ref then [] else [ImageProblem.unknownResolved i ref]).flatten

def traceName (index : Nat) (t : TraceText) : String :=
  if t.name = "" then "trace" ++ toString index else t.name

/-- The first problem with runs through code of `size` units. -/
def runProblem? (size : Nat) : Nat → List RunText → Option TraceProblem
  | _, [] => none
  | index, r :: rest =>
    if r.count = 0 then some (.emptyRun index)
    else if size ≤ r.start.toNat then some (.runBeyond index r.start size)
    else runProblem? size (index + 1) rest

/-- The first problem with a trace. -/
def traceProblem? (d : ImageText) (t : TraceText) : Option TraceProblem :=
  match d.methods.lookup t.method with
  | none => some (.unknownMethod t.method)
  | some m =>
    if m.native then some (.nativeMethod t.method)
    else if t.runs.isEmpty then some .noRuns
    else runProblem? m.units.length 0 t.runs

def traceProblems (d : ImageText) : List ImageProblem :=
  (d.traces.mapIdx fun i t =>
    ((d.traceProblem? t).map (ImageProblem.trace (traceName i t))).toList).flatten

def problems (d : ImageText) : List ImageProblem :=
  declarationProblems 0 [] [] d.classes ++ d.linkProblems ++ d.resolvedProblems ++ d.traceProblems

/-- The runs of a trace, the last of which ends it. -/
def runs : List RunText → List Run
  | [] => []
  | [r] => [⟨r.start, r.count, true⟩]
  | r :: rest => ⟨r.start, r.count, false⟩ :: runs rest

/-- The traces of an image, where a trace of an unknown method is left out. -/
def linkTraces (d : ImageText) (w : World) : List Trace :=
  (d.traces.mapIdx fun i t =>
    ((w.method? t.method).map fun m =>
      ({ name := traceName i t, method := m, runs := runs t.runs } : Trace)).toList).flatten

/-- Link a description that has no problems. -/
def link (d : ImageText) : Except (List ImageProblem) Image :=
  match d.problems with
  | [] =>
    let world := World.link (placeClasses d.base d.classes) [] d.resolved
    .ok { world, traces := d.linkTraces world }
  | ps => .error ps

end ImageText

namespace Image

def class? (i : Image) (descriptor : String) : Option Class :=
  i.world.classes.find? (·.descriptor == descriptor)

def method? (i : Image) (ref : String) : Option Method := i.world.method? ref

def trace? (i : Image) (name : String) : Option Trace := i.traces.find? (·.name == name)

/-- The references of all methods in order. -/
def methodRefs (i : Image) : List String :=
  (i.world.methods.map (·.ref)).mergeSort fun a b => a ≤ b

end Image

end TraceJit
