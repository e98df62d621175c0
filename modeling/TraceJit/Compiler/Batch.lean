import TraceJit.Compiler.Compile

/-!
Compiling many requests in order. Every request first becomes queued; then each in turn is
compiled and is done or has failed.
-/

namespace TraceJit

/-- What a caller wants to have compiled. A request may name no known method. -/
inductive Request where
  | trace (t : Trace)
  | method (m : Method)
  /-- A trace without a method, known by a label only. -/
  | noTrace (label : String)
  | noMethod

namespace Request

def name : Request → String
  | .trace t => if t.name = "" then t.key else t.name
  | .method m => m.ref
  | .noTrace label => label
  | .noMethod => ""

/-- A request for a trace of a method that may be unknown. -/
def ofTrace (name : String) (method : Option Method) (runs : List Run) : Request :=
  match method with
  | some m => .trace { name, method := m, runs }
  | none => .noTrace (if name = "" then runsKey "" runs else name)

/-- A request for a method that may be unknown. -/
def ofMethod : Option Method → Request
  | some m => .method m
  | none => .noMethod

end Request

/-- The state of a request in a batch. -/
inductive Status where
  | queued
  | compiling
  | done
  | failed
  | unknown
  deriving DecidableEq, Repr, Inhabited

namespace Status

def ofNumber : Nat → Status
  | 0 => .queued
  | 1 => .compiling
  | 2 => .done
  | 3 => .failed
  | _ => .unknown

def name : Status → String
  | .queued => "queued"
  | .compiling => "compiling"
  | .done => "done"
  | .failed => "failed"
  | .unknown => "unknown"

/-- Nothing more happens to the request. -/
def isFinal : Status → Bool
  | .done | .failed => true
  | _ => false

end Status

/-- Progress of one request of a batch. -/
structure BatchEvent where
  /-- Position of the request in the batch. -/
  index : Int
  name : String
  status : Status
  result : CompileResult := {}
  error : Option String := none
  deriving Inhabited

/-- The final state of one request. -/
structure Outcome where
  request : Request
  result : CompileResult := {}
  error : Option CompileError := none

structure BatchEnd (σ : Type) where
  compiler : Compiler σ
  outcomes : List Outcome
  events : List BatchEvent
  /-- Messages of broken invariants. -/
  aborts : List String
  /-- The caller gave up before the batch was finished. -/
  canceled : Bool := false
  /-- The batch was left at the first broken invariant. -/
  left : Bool := false

/-- What a caller hands down with many requests. -/
structure BatchContext where
  /-- Number of the span that the caller stands in; zero for none. -/
  span : Nat := 0
  /-- The caller has given up when the turn of the request at the given position comes. -/
  gone : Nat → Bool := fun _ => false
  /-- The caller has given up when the request at the given position enters the backend for the
  given time. -/
  canceled : Nat → Nat → Bool := fun _ _ => false

/-- What is handed down with the request at position `index`. -/
def BatchContext.request (ctx : BatchContext) (index : Nat) : Context :=
  { canceled := ctx.canceled index, span := ctx.span }

namespace Compiler

variable {σ : Type}

def compile (c : Compiler σ) (arena : Arena) (ctx : Context) : Request → Compiled σ
  | .trace t => c.compileTrace arena ctx t
  | .method m => c.compileMethod arena ctx m
  | .noTrace _ => { compiler := c, arena, result := {}, error := some .noTrace }
  | .noMethod => { compiler := c, arena, result := {}, error := some .noMethod }

/-- Compile requests in order, the first of which has position `index`. Once the caller has given
up, the rest are left as they are. With `stopAtAbort` nothing more happens after a broken
invariant. -/
def runRequests (ctx : BatchContext) (stopAtAbort : Bool) :
    Nat → List Request → Arena → BatchEnd σ → BatchEnd σ
  | _, [], _, b => b
  | index, r :: rest, arena, b =>
    if ctx.gone index then
      { b with
        outcomes := b.outcomes ++ (r :: rest).map fun r => { request := r }
        canceled := true }
    else
      let d := b.compiler.compile arena (ctx.request index) r
      let status : Status := if d.error.isSome then .failed else .done
      let leave := stopAtAbort && d.abort.isSome
      let b : BatchEnd σ :=
        { b with
          compiler := d.compiler
          outcomes := b.outcomes ++ [{ request := r, result := d.result, error := d.error }]
          events := b.events ++
            [{ index, name := r.name, status := .compiling }] ++
            (if leave then [] else
              [{ index, name := r.name, status, result := d.result,
                 error := d.error.map (·.message) }])
          aborts := b.aborts ++ d.abort.toList
          left := leave }
      if leave then b else runRequests ctx stopAtAbort (index + 1) rest d.arena b

/-- Compile requests one after the other, up to a broken invariant. -/
def compileAll (c : Compiler σ) (ctx : BatchContext) (requests : List Request) : BatchEnd σ :=
  runRequests ctx true 0 requests {} { compiler := c, outcomes := [], events := [], aborts := [] }

/-- Compile requests in order on one worker, all of them inside the span of the batch. -/
def batch (c : Compiler σ) (ctx : BatchContext) (requests : List Request) (stopAtAbort : Bool) :
    BatchEnd σ :=
  if requests.isEmpty then { compiler := c, outcomes := [], events := [], aborts := [] }
  else
    let (span, c) := c.beginSpan .driver "batch" ctx.span
    let queued := requests.mapIdx fun i r =>
      ({ index := i, name := r.name, status := .queued } : BatchEvent)
    let b := runRequests { ctx with span := span.id } stopAtAbort 0 requests {}
      { compiler := c, outcomes := [], events := queued, aborts := [] }
    if b.left then b
    else
      let span := span.noted "requests" (toString requests.length)
      { b with compiler := b.compiler.endSpan span "" }

end Compiler

end TraceJit
