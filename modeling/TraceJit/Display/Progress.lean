import TraceJit.Compiler.Batch
import TraceJit.Display.Block
import TraceJit.Display.Columns
import TraceJit.Memory
import TraceJit.Text.Hex

/-!
The progress of a batch as a screen of text: a line for each request, and a bar.
-/

namespace TraceJit

/-- What is known of one request. -/
structure ProgressItem where
  name : String
  status : Status := .queued
  detail : String := ""
  deriving DecidableEq, Repr, Inhabited

/-- The progress of a batch and the screen it is shown on. -/
structure Progress where
  title : String
  items : List ProgressItem
  /-- Requests that have been done or have failed. -/
  finished : Nat := 0
  failed : Nat := 0
  /-- Columns of the screen. -/
  width : Int := 80
  /-- Columns of the bar, with the number behind it. -/
  barWidth : Int := 76
  /-- No more events are to come. -/
  done : Bool := false
  /-- Steps that the sign of life has made. -/
  ticks : Nat := 0
  deriving Inhabited

/-- What can happen while a batch runs. -/
inductive ProgressInput where
  | event (e : BatchEvent)
  | finished
  | tick
  | resized (width : Int)
  | key (name : String)

/-- Why a screen cannot be drawn. -/
inductive ScreenFault where
  /-- The bar has more octets than a text can count. -/
  | endless
  /-- There is no memory for the bar. -/
  | noMemory
  deriving DecidableEq, Repr

def ScreenFault.message? : ScreenFault → Option String
  | .endless => some "strings: Repeat output length overflow"
  | .noMemory => none

def CompileResult.brief (r : CompileResult) : String :=
  if r.cached then "cached"
  else if 1 < r.attempts then
    toString r.insts ++ " insns, " ++ toString r.attempts ++ " attempts"
  else toString r.insts ++ " insns"

def ProgressItem.after (item : ProgressItem) (e : BatchEvent) : ProgressItem :=
  { item with
    status := e.status
    detail :=
      match e.status with
      | .done => e.result.brief
      | .failed => e.error.getD item.detail
      | _ => item.detail }

namespace Progress

/-- The start of a batch of requests with the given names. -/
def new (title : String) (names : List String) : Progress :=
  { title, items := names.map fun name => { name } }

/-- The progress after an event. An event for no known request changes nothing; a request counts
as finished when it comes to a final status from one that is not. -/
def onEvent (p : Progress) (e : BatchEvent) : Progress :=
  if e.index < 0 then p
  else
    match p.items[e.index.toNat]? with
    | none => p
    | some item =>
      let fresh := e.status.isFinal && !item.status.isFinal
      { p with
        items := p.items.set e.index.toNat (item.after e)
        finished := p.finished + (if fresh then 1 else 0)
        failed := p.failed + (if fresh && e.status = .failed then 1 else 0) }

/-- The progress after an input, and whether the screen is to be left. -/
def update (p : Progress) : ProgressInput → Progress × Bool
  | .event e => (p.onEvent e, false)
  | .finished => ({ p with done := true }, true)
  | .tick => (if p.done then p else { p with ticks := p.ticks + 1 }, false)
  | .resized width =>
    (if 0 < width then { p with width, barWidth := width - 4 } else p, false)
  | .key name => (p, name = "ctrl+c")

/-- The pictures of the sign of life, which follow each other in a circle. -/
def frames : List String := ["⣾", "⣽", "⣻", "⢿", "⡿", "⣟", "⣯", "⣷"]

/-- The first line: how many requests are finished, and how many of them have failed. -/
def header (p : Progress) : String :=
  let counts := p.title ++ " (" ++ toString p.finished ++ "/" ++ toString p.items.length ++
    (if 0 < p.failed then ", " ++ toString p.failed ++ " failed" else "") ++ ")"
  if p.done then "done: " ++ counts
  else frames.getD (p.ticks % frames.length) "" ++ "  " ++ counts

/-- The line of a request, with its name cut to `nameWidth` columns. -/
def itemLine (nameWidth : Nat) (item : ProgressItem) : String :=
  "  " ++ Text.padLeft ' ' 10 item.status.name ++ " " ++ Display.truncate item.name nameWidth ++
    (if item.detail = "" then "" else " " ++ Display.block item.detail) ++ "\n"

/-- The bar, which is empty until nothing more is to come. Each of its columns takes three
octets. -/
def bar (p : Progress) : Except ScreenFault String :=
  let width := (p.barWidth - 5).toNat
  if 1 <<< 63 ≤ 3 * width then throw .endless
  else if maxAllocation < 3 * width then throw .noMemory
  else if p.done then return "".pushn '█' width ++ " 100%"
  else return "".pushn '░' width ++ "   0%"

/-- The whole screen; nothing if there are no requests. -/
def view (p : Progress) : Except ScreenFault String :=
  if p.items.isEmpty then return ""
  else do
    let nameWidth := (max (p.width - 14) 20).toNat
    let lines := String.join (p.items.map (itemLine nameWidth))
    return Display.block p.header ++ "\n\n" ++ lines ++ "\n" ++ (← p.bar) ++ "\n"

end Progress

end TraceJit
