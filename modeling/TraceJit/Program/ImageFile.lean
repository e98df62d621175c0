import TraceJit.Program.Image
import TraceJit.Toml.Shape

/-!
Images in files. The description is a TOML document with lists of classes and traces.
-/

namespace TraceJit

/-- Why an image could not be loaded. -/
inductive ImageError where
  | document (cause : Toml.ReadError)
  | problems (ps : List ImageProblem)
  deriving DecidableEq, Repr

def ImageError.message : ImageError → String
  | .document cause => cause.message
  | .problems ps => String.intercalate "\n" (ps.map (·.message))

namespace ImageText

/-- Where methods are placed when a description does not say. -/
def defaultBase : UInt64 := 0x10000000

open Toml

def methodShape : Shape MethodText :=
  .record {}
    [field "name" .text fun m name => { m with name },
      field "code" .text fun m code => { m with code },
      field "native" .truth fun m native => { m with native },
      field "vtable_index" .integer fun m slot => { m with slot },
      field "addr" .word64 fun m addr => { m with addr }]

def classShape : Shape ClassText :=
  .record {}
    [field "descriptor" .text fun c descriptor => { c with descriptor },
      field "super" .text fun c super => { c with super },
      field "vtable" (.list .text) fun c vtable => { c with vtable },
      field "method" (.list methodShape) fun c methods => { c with methods }]

def runShape : Shape RunText :=
  .record {}
    [field "start" .word32 fun r start => { r with start },
      field "count" .word32 fun r count => { r with count }]

def traceShape : Shape TraceText :=
  .record {}
    [field "name" .text fun t name => { t with name },
      field "method" .text fun t method => { t with method },
      field "runs" (.list runShape) fun t runs => { t with runs }]

def fields : List (TableField ImageText) :=
  [field "base_address" .word64 fun d base => { d with base },
    field "resolved" (.list .text) fun d resolved => { d with resolved },
    field "class" (.list classShape) fun d classes => { d with classes },
    field "trace" (.list traceShape) fun d traces => { d with traces }]

def shape : Shape ImageText := .record {} fields

/-- The description in a file. The default base gives way only to one under its exact name. -/
def read (bytes : List UInt8) : Except ReadError ImageText :=
  (Toml.read shape bytes).map fun (d, doc) =>
    if doc.defines ["base_address"] then d else { d with base := defaultBase }

end ImageText

def Image.load (bytes : List UInt8) : Except ImageError Image :=
  match ImageText.read bytes with
  | .error e => .error (.document e)
  | .ok d => d.link.mapError .problems

end TraceJit
