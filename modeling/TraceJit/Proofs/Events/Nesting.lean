import Mathlib.Data.List.Range
import TraceJit.Proofs.Events.Ring

/-!
Spans lie one inside the other. A tracer that begins and ends spans in pairs, finer ones inside
coarser ones and each under the number of the one around it, hands its sinks reports that are nested
in the same way at every level: a level takes away spans from the inside outwards, never one around
others that stay.
-/

namespace TraceJit

/-! ### Reports that are nested -/

namespace Event

/-- Number of the innermost open span. Where none is open it is that of the context. -/
def innermost (context : Nat) (opened : List Event) : Nat :=
  (opened.head?.map (·.span)).getD context

/-- The begin reports of the open spans, innermost first, after one more report. There are none if
a span begins elsewhere than in the innermost open one, or if another one ends. -/
def nest (context : Nat) (opened : List Event) (e : Event) : Option (List Event) :=
  match e.kind, opened with
  | .spanBegin, _ => if e.parent = innermost context opened then some (e :: opened) else none
  | .spanEnd, [] => none
  | .spanEnd, b :: rest =>
      if e.span = b.span ∧ e.parent = b.parent ∧ e.scope = b.scope ∧ e.name = b.name then some rest
      else none
  | _, _ => some opened

/-- Reports that are nested inside a span, together with its begin and its end. -/
theorem foldlM_nest_span {context : Nat} {opened es : List Event} {b e : Event}
    (hBegin : b.kind = .spanBegin) (hParent : b.parent = innermost context opened)
    (hInner : es.foldlM (nest context) (b :: opened) = some (b :: opened))
    (hEnd : e.kind = .spanEnd)
    (hSame : e.span = b.span ∧ e.parent = b.parent ∧ e.scope = b.scope ∧ e.name = b.name) :
    ([b] ++ es ++ [e]).foldlM (nest context) opened = some opened := by
  have hFirst : nest context opened b = some (b :: opened) := by
    unfold nest
    rw [hBegin]
    exact if_pos hParent
  have hLast : nest context (b :: opened) e = some opened := by
    unfold nest
    rw [hEnd]
    exact if_pos hSame
  simp [hFirst, hInner, hLast]

/-- The reports begin and end spans in pairs, one inside the other, and leave none open. -/
def Nested (context : Nat) (events : List Event) : Prop :=
  events.foldlM (nest context) [] = some []

instance (context : Nat) (events : List Event) : Decidable (Nested context events) :=
  inferInstanceAs (Decidable (_ = _))

def Quiet (events : List Event) : Prop :=
  ∀ e ∈ events, e.kind ≠ .spanBegin ∧ e.kind ≠ .spanEnd

def begun (events : List Event) : List Nat :=
  (events.filter (·.kind = .spanBegin)).map (·.span)

@[simp] theorem begun_append (a b : List Event) : begun (a ++ b) = begun a ++ begun b := by
  simp [begun]

/-- What begins and ends no span leaves the open spans as they are. -/
theorem Quiet.foldlM_nest {events : List Event} (h : Quiet events) (context : Nat)
    (opened : List Event) : events.foldlM (nest context) opened = some opened := by
  induction events with
  | nil => rfl
  | cons e rest ih =>
      rw [Quiet, List.forall_mem_cons] at h
      have hSame : nest context opened e = some opened := by
        unfold nest
        split
        next hKind => exact absurd hKind h.1.1
        next hKind => exact absurd hKind h.1.2
        next hKind => exact absurd hKind h.1.2
        next => rfl
      rw [List.foldlM_cons, hSame]
      exact ih h.2

end Event

/-- What a level lets through it lets through in coarser scopes too. -/
theorem Level.admits_of_le {l : Level} {a b : UInt8} (hLess : a ≤ b) (h : l.admits ⟨b⟩ = true) :
    l.admits ⟨a⟩ = true := by
  cases l with
  | off => exact h
  | error => exact h
  | phase =>
      simp only [admits, decide_eq_true_eq] at h ⊢
      exact UInt8.le_trans hLess h
  | detail =>
      simp only [admits, decide_eq_true_eq] at h ⊢
      exact UInt8.le_trans hLess h
  | debug => rfl

theorem Level.enabled_of_admits {l : Level} {scope : Scope} (h : l.admits scope = true) :
    l.enabled = true := by
  cases l with
  | off => cases h
  | _ => rfl

/-! ### What is reported -/

namespace Tracer

/-- Reports change two tracers alike that agree in their sinks, in the last number given out and in
what they have written. -/
theorem foldl_emit_congr {t u : Tracer} (hSinks : u.sinks = t.sinks) (hSeq : u.seq = t.seq)
    (events : List Event) :
    (events.foldl emit u).sinks = (events.foldl emit t).sinks ∧
      (events.foldl emit u).seq = (events.foldl emit t).seq ∧
      (u.output = t.output → (events.foldl emit u).output = (events.foldl emit t).output) := by
  induction events generalizing t u with
  | nil => exact ⟨hSinks, hSeq, id⟩
  | cons e rest ih =>
      obtain ⟨hSinks', hSeq', hOutput'⟩ := ih (t := t.emit e) (u := u.emit e)
        (by simp only [emit, hSinks, hSeq]) (by simp only [emit, hSinks, hSeq])
      refine ⟨hSinks', hSeq', fun hOutput => hOutput' ?_⟩
      simp only [emit, hSinks, hSeq, hOutput]

/-- Nothing more is written when the tracer is flushed. -/
def Plain (t : Tracer) : Prop := ∀ s ∈ t.sinks, flushSink s = .ok ""

/-- Storing an event does not change whether a sink can be flushed. -/
theorem flushSink_store (seq : Nat) (e : Event) (s : Sink) :
    flushSink (store seq e s).2.2 = flushSink s := by
  cases s with
  | stream s =>
      rw [store]
      split
      · rfl
      · rfl
  | ring r =>
      rw [store]
      split
      · rfl
      · rfl

/-- Sinks that store a report write the same as before when they are flushed. -/
theorem flushSink_storeAll (e : Event) (seq : Nat) (sinks : List Sink) :
    (storeAll e seq sinks).2.2.map flushSink = sinks.map flushSink := by
  induction sinks generalizing seq with
  | nil => rfl
  | cons s rest ih =>
      simp only [storeAll, List.map_cons, flushSink_store, ih]

/-- Events leave a tracer plain. -/
theorem Plain.foldl_emit {t : Tracer} (h : t.Plain) (events : List Event) :
    (events.foldl emit t).Plain := by
  induction events generalizing t with
  | nil => exact h
  | cons e rest ih =>
      refine ih fun s hSink => ?_
      have hFlushed : flushSink s ∈ t.sinks.map flushSink := by
        rw [← flushSink_storeAll e t.seq t.sinks]
        exact List.mem_map_of_mem hSink
      obtain ⟨s', hSink', hSame⟩ := List.mem_map.mp hFlushed
      rw [← hSame, h s' hSink']

/-- Nothing that a plain tracer has put out is lost when it is flushed. -/
theorem Plain.output_flush {t : Tracer} (h : t.Plain) : t.flush.2.output = t.output := by
  have hNone : t.sinks.map flushSink = List.replicate t.sinks.length (.ok "") :=
    List.eq_replicate_iff.mpr ⟨List.length_map _, List.forall_mem_map.mpr h⟩
  have hJoin (n : Nat) : String.join (List.replicate n "") = "" := by
    induction n with
    | zero => rfl
    | succ n ih => rw [List.replicate_succ, String.join_cons, ih, String.append_empty]
  simp [flush, hNone, hJoin]

/-- The tracer hands its sinks some reports and becomes another one. It gives numbers to the spans
in turn, and its level lets them through. -/
structure Emits (t : Tracer) (events : List Event) (u : Tracer) : Prop where
  level : u.level = t.level
  sinks : u.sinks = (events.foldl emit t).sinks
  seq : u.seq = (events.foldl emit t).seq
  output : t.Plain → u.output = (events.foldl emit t).output
  spans : u.spans = t.spans + (Event.begun events).length
  begun : Event.begun events = List.range' (t.spans + 1) (Event.begun events).length
  passes : ∀ e ∈ events, e.kind = .spanBegin ∨ e.kind = .spanEnd → e.passes t.level = true

namespace Emits

variable {t u v : Tracer} {a b : List Event}

theorem refl (t : Tracer) : Emits t [] t := ⟨rfl, rfl, rfl, fun _ => rfl, rfl, rfl, by simp⟩

theorem plain (h : Emits t a u) (hPlain : t.Plain) : u.Plain := by
  rw [Plain, h.sinks]
  exact hPlain.foldl_emit a

theorem trans (hFirst : Emits t a u) (hSecond : Emits u b v) : Emits t (a ++ b) v where
  level := hSecond.level.trans hFirst.level
  sinks := by
    rw [hSecond.sinks, List.foldl_append]
    exact (foldl_emit_congr hFirst.sinks hFirst.seq b).1
  seq := by
    rw [hSecond.seq, List.foldl_append]
    exact (foldl_emit_congr hFirst.sinks hFirst.seq b).2.1
  output hPlain := by
    rw [hSecond.output (hFirst.plain hPlain), List.foldl_append]
    exact (foldl_emit_congr hFirst.sinks hFirst.seq b).2.2 (hFirst.output hPlain)
  spans := by
    rw [hSecond.spans, hFirst.spans, Event.begun_append, List.length_append, Nat.add_assoc]
  begun := by
    rw [Event.begun_append, List.length_append, ← List.range'_append_1, ← hFirst.begun]
    rw [show t.spans + 1 + (Event.begun a).length = u.spans + 1 by rw [hFirst.spans]; omega,
      ← hSecond.begun]
  passes e he hSpan := by
    rcases List.mem_append.mp he with hHere | hThere
    · exact hFirst.passes e hHere hSpan
    · exact hFirst.level ▸ hSecond.passes e hThere hSpan

end Emits

/-- A report that begins no span, and ends one only if the level lets that through. -/
theorem emits_emit {t : Tracer} {e : Event} (hKind : e.kind ≠ .spanBegin)
    (hPasses : e.kind = .spanEnd → e.passes t.level = true) : Emits t [e] (t.emit e) where
  level := rfl
  sinks := rfl
  seq := rfl
  output _ := rfl
  spans := by simp [Event.begun, hKind, emit]
  begun := by simp [Event.begun, hKind]
  passes x hx hSpan := by
    obtain rfl := List.mem_singleton.mp hx
    exact hPasses (hSpan.resolve_left hKind)

section Steps

variable (t : Tracer) (scope : Scope) (name detail : String) (parent : Nat)

/-- The report of a span that begins under the next number. -/
def beginReport : Event :=
  { time := t.now, seq := 0, kind := .spanBegin, scope, span := t.spans + 1, parent, name
    detail := "", extra := [], forced := false }

/-- A span that is let through begins with the next number. -/
theorem emits_beginSpan (h : t.level.admits scope = true) :
    ∃ u, t.beginSpan scope name parent =
        ({ id := t.spans + 1, parent, scope, name, live := true }, u) ∧
      Emits t [t.beginReport scope name parent] u := by
  have hOpen : (t.enabled && t.level.admits scope) = true := by
    rw [h, Bool.and_true, enabled]
    exact Level.enabled_of_admits h
  have hPasses : (t.beginReport scope name parent).passes t.level = true := by
    simp [Event.passes, beginReport, h, Level.enabled_of_admits h]
  unfold beginSpan
  rw [if_pos hOpen]
  obtain ⟨hSinks, hSeq, hOutput⟩ := foldl_emit_congr (t := t)
    (u := { t with spans := t.spans + 1 }) rfl rfl [t.beginReport scope name parent]
  exact ⟨_, rfl, rfl, hSinks, hSeq, fun _ => hOutput rfl, rfl, rfl,
    by simpa using fun _ => hPasses⟩

/-- A span beyond the level is not begun. -/
theorem beginSpan_suppressed (h : t.level.admits scope = false) :
    t.beginSpan scope name parent = (.dead, t) := by
  rw [beginSpan, h, Bool.and_false]
  rfl

def endReport (s : Span) : Event :=
  { time := t.now, seq := 0, kind := .spanEnd, scope := s.scope, span := s.id, parent := s.parent
    name := s.name, detail, extra := s.extra, forced := false, shared := true }

/-- A live span is ended by one event. -/
theorem emits_endSpan {s : Span} (hLive : s.live = true) (h : t.level.admits s.scope = true) :
    Emits t [t.endReport detail s] (t.endSpan s detail) := by
  rw [endSpan, if_pos hLive]
  refine emits_emit (by simp [endReport]) fun _ => ?_
  simp [Event.passes, endReport, h, Level.enabled_of_admits h]

/-- The tracer reports instants only. -/
def Points (t u : Tracer) : Prop := ∃ events, Emits t events u ∧ Event.Quiet events

theorem Points.refl (t : Tracer) : t.Points t := ⟨[], .refl t, by simp [Event.Quiet]⟩

theorem Points.trans {t u v : Tracer} (hFirst : t.Points u) (hSecond : u.Points v) :
    t.Points v := by
  obtain ⟨a, hA, hQuietA⟩ := hFirst
  obtain ⟨b, hB, hQuietB⟩ := hSecond
  exact ⟨a ++ b, hA.trans hB, List.forall_mem_append.mpr ⟨hQuietA, hQuietB⟩⟩

/-- A point emits nothing that begins or ends a span. -/
theorem points_point (forced : Bool) : t.Points (t.point scope parent name detail forced) := by
  unfold point
  split
  next => exact ⟨_, emits_emit (by simp) (by simp), by simp [Event.Quiet]⟩
  next => exact .refl t

/-- Nor does a fatal event. -/
theorem points_fatal : t.Points (t.fatal name detail) := by
  unfold fatal
  split
  next =>
      have hEmits := emits_emit (t := t)
        (e := { time := t.now, seq := 0, kind := .fatal, scope := .driver, span := 0, parent := 0
                name, detail, extra := [], forced := true }) (by simp) (by simp)
      -- flushing leaves the sinks alone
      refine ⟨_, ⟨hEmits.level, hEmits.sinks, hEmits.seq, fun hPlain => ?_, hEmits.spans,
        hEmits.begun, hEmits.passes⟩, by simp [Event.Quiet]⟩
      rw [(hEmits.plain hPlain).output_flush]
      exact hEmits.output hPlain
  next => exact .refl t

end Steps

/-! ### Reports inside a span -/

/-- The tracer makes reports inside the span with number `parent`, with spans of depth `least` or
more. They are nested, provided that the level lets such spans through only where the span that they
are put into is the innermost one. -/
structure Tells (least : UInt8) (parent : Nat) (t : Tracer) (events : List Event) (u : Tracer) :
    Prop where
  emits : Emits t events u
  nested : ∀ context opened,
    (t.level.admits ⟨least⟩ = true → parent = Event.innermost context opened) →
    events.foldlM (Event.nest context) opened = some opened

namespace Tells

variable {least most : UInt8} {parent : Nat} {t u v : Tracer} {a b : List Event}

theorem refl (least : UInt8) (parent : Nat) (t : Tracer) : Tells least parent t [] t :=
  ⟨.refl t, fun _ _ _ => rfl⟩

theorem trans (hFirst : Tells least parent t a u) (hSecond : Tells least parent u b v) :
    Tells least parent t (a ++ b) v where
  emits := hFirst.emits.trans hSecond.emits
  nested context opened hInnermost := by
    rw [List.foldlM_append, hFirst.nested context opened hInnermost]
    exact hSecond.nested context opened (by rwa [hFirst.emits.level])

theorem exists_trans (hFirst : ∃ events, Tells least parent t events u)
    (hSecond : ∃ events, Tells least parent u events v) :
    ∃ events, Tells least parent t events v := by
  obtain ⟨a, hA⟩ := hFirst
  obtain ⟨b, hB⟩ := hSecond
  exact ⟨a ++ b, hA.trans hB⟩

/-- Where only finer spans are let in, coarser ones may be. -/
theorem mono (h : Tells most parent t a u) (hLess : least ≤ most) : Tells least parent t a u where
  emits := h.emits
  nested context opened hInnermost :=
    h.nested context opened fun hAdmits => hInnermost (Level.admits_of_le hLess hAdmits)

end Tells

/-- Instants can be reported anywhere. -/
theorem Points.tells {t u : Tracer} (h : t.Points u) (least : UInt8) (parent : Nat) :
    ∃ events, Tells least parent t events u := by
  obtain ⟨events, hEmits, hQuiet⟩ := h
  exact ⟨events, hEmits, fun context opened _ => hQuiet.foldlM_nest context opened⟩

/-- The tracer `t` has begun a span inside the one with number `parent` and has become `u` by what
was reported inside since. The span is now `s`, perhaps with notes. -/
def Inside (t : Tracer) (scope : Scope) (name : String) (parent : Nat) (s : Span) (u : Tracer) :
    Prop :=
  ∃ begun w events extra, t.beginSpan scope name parent = (begun, w) ∧ s = { begun with extra } ∧
    Tells scope.depth s.id w events u

namespace Inside

variable {t u v : Tracer} {scope : Scope} {name : String} {parent : Nat} {s : Span}

/-- The inside of a span that has just begun. -/
theorem begin (hBegun : t.beginSpan scope name parent = (s, u)) :
    Inside t scope name parent s u :=
  ⟨s, u, [], s.extra, hBegun, rfl, .refl ..⟩

/-- What is told inside of a span belongs to it. -/
theorem tells {least : UInt8} (h : Inside t scope name parent s u)
    (hMore : ∃ events, Tells least s.id u events v) (hFiner : scope.depth ≤ least) :
    Inside t scope name parent s v := by
  obtain ⟨begun, w, events, extra, hBegun, hSpan, hTells⟩ := h
  obtain ⟨more, hMore⟩ := hMore
  exact ⟨begun, w, events ++ more, extra, hBegun, hSpan, hTells.trans (hMore.mono hFiner)⟩

theorem points (h : Inside t scope name parent s u) (hPoints : u.Points v) :
    Inside t scope name parent s v :=
  h.tells (hPoints.tells scope.depth s.id) (UInt8.le_refl _)

theorem noted (h : Inside t scope name parent s u) (key value : String) :
    Inside t scope name parent (s.noted key value) u := by
  obtain ⟨begun, w, events, extra, hBegun, hSpan, hTells⟩ := h
  unfold Span.noted
  split
  next => exact ⟨begun, w, events, _, hBegun, by rw [hSpan], hTells⟩
  next => exact ⟨begun, w, events, extra, hBegun, hSpan, hTells⟩

/-- A span with all that is reported inside, whether it is let through or not. -/
theorem finish {least : UInt8} (h : Inside t scope name parent s u) (hFiner : least ≤ scope.depth)
    (detail : String) : ∃ events, Tells least parent t events (u.endSpan s detail) := by
  obtain ⟨begun, w, events, extra, hBegun, rfl, hTells⟩ := h
  cases hAdmits : t.level.admits scope with
  | true =>
      -- the span is the innermost one for what is reported inside
      obtain ⟨w', hOpened, hBegin⟩ := t.emits_beginSpan scope name parent hAdmits
      rw [hOpened] at hBegun
      obtain ⟨rfl, rfl⟩ := Prod.mk.inj hBegun
      have hLevel : u.level.admits scope = true := by
        rw [hTells.emits.level, hBegin.level, hAdmits]
      have hEnd := u.emits_endSpan detail
        (s := { id := t.spans + 1, parent, scope, name, extra, live := true }) rfl hLevel
      refine ⟨_, (hBegin.trans hTells.emits).trans hEnd, fun context opened hInnermost => ?_⟩
      exact Event.foldlM_nest_span rfl (hInnermost (Level.admits_of_le hFiner hAdmits))
        (hTells.nested context _ fun _ => rfl) rfl ⟨rfl, rfl, rfl, rfl⟩
  | false =>
      -- what lies inside is no coarser, so nothing in there is let through either
      rw [t.beginSpan_suppressed scope name parent hAdmits] at hBegun
      obtain ⟨rfl, rfl⟩ := Prod.mk.inj hBegun
      refine ⟨events, hTells.emits, fun context opened _ =>
        hTells.nested context opened fun hOpen => ?_⟩
      rw [hAdmits] at hOpen
      cases hOpen

end Inside

end Tracer

end TraceJit
