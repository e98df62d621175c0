import TraceJit.Events.Ring

/-!
Tracers take reports and store them in streams and rings. Numbers are given out when a report is
stored, so a report that goes to two places gets two of them.
-/

namespace TraceJit

/-- What a destination of text does when it is flushed or closed: write something more, or fail
with a message. -/
structure Device where
  flush : Except String String := .ok ""
  close : Except String String := .ok ""
  deriving Inhabited

/-- A stream that writes reports at once. -/
structure EventStream where
  level : Level
  format : EventFormat
  device : Device := {}
  deriving Inhabited

/-- A place where reports are stored. -/
inductive Sink where
  | stream (s : EventStream)
  | ring (r : Ring)
  deriving Inhabited

/-- Takes reports and hands them to its sinks, each of which has a level of its own. -/
structure Tracer where
  level : Level
  sinks : List Sink
  /-- Reports stored so far. -/
  seq : Nat := 0
  /-- Spans begun so far. -/
  spans : Nat := 0
  /-- What the streams have written. -/
  output : String := ""
  /-- The time that reports bear. -/
  now : Instant := default
  deriving Inhabited

/-- A begun span. A span that the tracer's level suppresses has number zero. -/
structure Span where
  id : Nat
  parent : Nat
  scope : Scope
  name : String
  extra : List (String × String) := []
  live : Bool
  deriving DecidableEq, Repr, Inhabited

namespace Span

/-- The span that the tracer's level suppresses. -/
def dead : Span := { id := 0, parent := 0, scope := ⟨0⟩, name := "", live := false }

/-- Add a note for the report of the end, replacing an earlier one with the same key. -/
def noted (s : Span) (key value : String) : Span :=
  if s.live then { s with extra := s.extra.filter (·.1 != key) ++ [(key, value)] } else s

end Span

structure TracerConfig where
  level : Level
  mode : Option StorageMode
  format : EventFormat
  /-- Name of the output, which settles the format where none is asked for. -/
  path : String
  ringSize : Int
  device : Device := {}

namespace Tracer

/-- Discards everything. -/
def nop : Tracer := { level := .off, sinks := [] }

def ofStream (s : EventStream) : Tracer := { level := s.level, sinks := [.stream s] }

def ofRing (r : Ring) : Tracer := { level := r.level, sinks := [.ring r] }

/-- The format that an output gets. -/
def formatFor (format : EventFormat) (path : String) : EventFormat :=
  match format with
  | .auto => if path.endsWith ".ndjson" then .ndjson else .text
  | f => f

def new (c : TracerConfig) : Except SetupError Tracer :=
  if c.level = .off then .ok nop
  else
    let stream : Sink := .stream ⟨c.level, formatFor c.format c.path, c.device⟩
    let ring := Ring.new c.ringSize c.level
    match c.mode with
    | some .stream => .ok { level := c.level, sinks := [stream] }
    | some .ring => ring.map fun r => { level := c.level, sinks := [.ring r] }
    | some .both => ring.map fun r => { level := c.level, sinks := [stream, .ring r] }
    | none => .error (.refused "unknown storage mode: unknown")

def enabled (t : Tracer) : Bool := t.level.enabled

/-- The first ring among the sinks. -/
def ring? (t : Tracer) : Option Ring :=
  t.sinks.findSome? fun
    | .ring r => some r
    | .stream _ => none

/-- Hand a report to one sink: its number, what it writes and the sink afterwards. -/
def store (seq : Nat) (e : Event) : Sink → Nat × String × Sink
  | .stream s =>
    if e.passes s.level then
      (seq + 1, { e with seq := seq + 1 }.render s.format, .stream s)
    else (seq, "", .stream s)
  | .ring r =>
    if e.passes r.level then (seq + 1, "", .ring (r.push { e with seq := seq + 1 }))
    else (seq, "", .ring r)

def storeAll (e : Event) : Nat → List Sink → Nat × String × List Sink
  | seq, [] => (seq, "", [])
  | seq, s :: rest =>
    let (seq, text, s) := store seq e s
    let (seq, texts, rest) := storeAll e seq rest
    (seq, text ++ texts, s :: rest)

/-- Hand a report to all sinks. -/
def emit (t : Tracer) (e : Event) : Tracer :=
  let (seq, text, sinks) := storeAll e t.seq t.sinks
  { t with seq, sinks, output := t.output ++ text }

/-- Flush one sink: what it writes, or why it fails. -/
def flushSink : Sink → Except String String
  | .stream s => s.device.flush
  | .ring _ => .ok ""

/-- Close one sink, which is flushed first: what it writes and whether that fails. -/
def closeSink : Sink → String × Option String
  | .stream s =>
    match s.device.flush with
    | .error e => ("", some e)
    | .ok text =>
      match s.device.close with
      | .error e => (text, some e)
      | .ok more => (text ++ more, none)
  | .ring _ => ("", none)

/-- Flush every sink; the first failure is reported. -/
def flush (t : Tracer) : Option String × Tracer :=
  let results := t.sinks.map flushSink
  let texts := results.map fun
    | .ok text => text
    | .error _ => ""
  (results.findSome? fun
      | .error e => some e
      | .ok _ => none,
    { t with output := t.output ++ String.join texts })

/-- Close every sink; the first failure is reported. -/
def close (t : Tracer) : Option String × Tracer :=
  let results := t.sinks.map closeSink
  (results.findSome? (·.2), { t with output := t.output ++ String.join (results.map (·.1)) })

/-- Begin a span. Where the level does not admit its scope, nothing is reported and the span is
not live. -/
def beginSpan (t : Tracer) (scope : Scope) (name : String) (parent : Nat) : Span × Tracer :=
  if t.enabled && t.level.admits scope then
    let id := t.spans + 1
    let t := { t with spans := id }
    ({ id, parent, scope, name, live := true },
      t.emit { time := t.now, seq := 0, kind := .spanBegin, scope, span := id, parent, name,
               detail := "", extra := [], forced := false })
  else (.dead, t)

def endSpan (t : Tracer) (s : Span) (detail : String) : Tracer :=
  if s.live then
    t.emit { time := t.now, seq := 0, kind := .spanEnd, scope := s.scope, span := s.id,
             parent := s.parent, name := s.name, detail, extra := s.extra, forced := false,
             shared := true }
  else t

/-- Add a note to a span, replacing an earlier one with the same key. End reports of the span
that are still held show it too if they show notes at all. -/
def annotate (t : Tracer) (s : Span) (key value : String) : Span × Tracer :=
  if s.live then
    let s := s.noted key value
    (s, { t with sinks := t.sinks.map fun
          | .ring r => .ring (r.annotate s.id s.extra)
          | .stream s => .stream s })
  else (s, t)

def point (t : Tracer) (scope : Scope) (parent : Nat) (name detail : String) (forced : Bool) :
    Tracer :=
  if t.enabled then
    t.emit { time := t.now, seq := 0, kind := .point, scope, span := 0, parent, name, detail,
             extra := [], forced }
  else t

/-- Report a broken invariant and flush. -/
def fatal (t : Tracer) (name detail : String) : Tracer :=
  if t.enabled then
    (t.emit { time := t.now, seq := 0, kind := .fatal, scope := .driver, span := 0, parent := 0,
              name, detail, extra := [], forced := true }).flush.2
  else t

end Tracer

end TraceJit
