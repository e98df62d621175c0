import TraceJit.Proofs.Compiler.Crew
import TraceJit.Proofs.Compiler.History
import TraceJit.Proofs.Program.Image
import TraceJit.Proofs.Program.Key

/-!
Whether a fragment that is found under a key was made for the request. The keys of an image tell its
requests apart if and only if no reference of the image, by itself or with the mark of a whole
method, reads as another reference followed by runs. Loading does not see to that. Where it holds,
a call is served what an earlier call installed for the same request; where it fails, a call can be
served the code of another method.
-/

namespace TraceJit

/-- Both requests are for the same runs through the same method, or both for the same method. -/
inductive Request.Same : Request → Request → Prop where
  | trace {t u : Trace} (hMethod : t.method = u.method) (hRuns : t.runs = u.runs) :
      Same (.trace t) (.trace u)
  | method (m : Method) : Same (.method m) (.method m)

namespace Image

/-- What can be asked of an image: its traces, any other runs through its methods, and whole
methods. -/
inductive Offers (i : Image) : Request → Prop where
  | recorded {t : Trace} (hTrace : t ∈ i.traces) : Offers i (.trace t)
  | adHoc {t : Trace} (hMethod : t.method ∈ i.world.methods) (hRuns : t.runs ≠ []) :
      Offers i (.trace t)
  | whole {m : Method} (hMethod : m ∈ i.world.methods) : Offers i (.method m)

/-- Requests under the same key are the same. -/
def KeysTell (i : Image) : Prop :=
  ∀ r s key, i.Offers r → i.Offers s → r.key? = some key → s.key? = some key → r.Same s

/-- No reference of the image reads as another one followed by runs, by itself or with the mark of a
whole method. -/
structure Separated (i : Image) : Prop where
  traces : ∀ m ∈ i.world.methods, ∀ n ∈ i.world.methods, ∀ runs ≠ [], n.ref ≠ runsKey m.ref runs
  methods : ∀ m ∈ i.world.methods, ∀ n ∈ i.world.methods, ∀ runs ≠ [],
    "method:" ++ n.ref ≠ runsKey m.ref runs

/-- References without the sign that separates the runs cannot be confused. -/
theorem separated_of_unmarked {i : Image} (h : ∀ m ∈ i.world.methods, '@' ∉ m.ref.toList) :
    i.Separated where
  traces := by
    intro m _ n hn runs hRuns hEq
    exact h n hn (hEq ▸ mark_mem_runsKey m.ref hRuns)
  methods := by
    intro m _ n hn runs hRuns hEq
    have hMark : '@' ∈ ("method:" ++ n.ref).toList := hEq ▸ mark_mem_runsKey m.ref hRuns
    rw [String.toList_append, List.mem_append] at hMark
    rcases hMark with hMode | hRef
    · revert hMode
      decide
    · exact h n hn hRef

variable {i : Image}

/-- A trace of a linked image belongs to one of its methods and has runs. -/
theorem Linked.trace_of_offers (h : i.Linked) {t : Trace} (hOffers : i.Offers (.trace t)) :
    t.method ∈ i.world.methods ∧ t.runs ≠ [] := by
  cases hOffers with
  | recorded hTrace => exact h.traces t hTrace
  | adHoc hMethod hRuns => exact ⟨hMethod, hRuns⟩

/-- A method that is offered is one of the image. -/
theorem Offers.mem_methods {m : Method} (h : i.Offers (.method m)) : m ∈ i.world.methods := by
  cases h with
  | whole hMethod => exact hMethod

namespace Separated

/-- Where keys are apart, two traces with one key are the same. -/
theorem same_traces (h : i.Separated) (hLinked : i.Linked) {t u : Trace}
    (ht : i.Offers (.trace t)) (hu : i.Offers (.trace u)) (hKey : t.key = u.key) :
    Request.Same (.trace t) (.trace u) := by
  obtain ⟨hMethod, hRuns⟩ := hLinked.trace_of_offers ht
  obtain ⟨hMethod', hRuns'⟩ := hLinked.trace_of_offers hu
  rcases (runsKey_eq_iff hRuns hRuns').mp hKey with ⟨front, hSplit, hRef⟩ | ⟨front, hSplit, hRef⟩
  · obtain rfl : front = [] := by
      by_contra hFront
      exact h.traces _ hMethod _ hMethod' front hFront hRef
    rw [runsKey_nil] at hRef
    exact .trace (hLinked.method_inj hMethod hMethod' hRef.symm) hSplit
  · obtain rfl : front = [] := by
      by_contra hFront
      exact h.traces _ hMethod' _ hMethod front hFront hRef
    rw [runsKey_nil] at hRef
    exact .trace (hLinked.method_inj hMethod hMethod' hRef) hSplit.symm

/-- No method has the key of a trace there. -/
theorem ne_trace (h : i.Separated) (hLinked : i.Linked) {m : Method} {t : Trace}
    (hm : i.Offers (.method m)) (ht : i.Offers (.trace t)) : "method:" ++ m.ref ≠ t.key := by
  obtain ⟨hMethod, hRuns⟩ := hLinked.trace_of_offers ht
  exact h.methods _ hMethod _ hm.mem_methods _ hRuns

/-- Where references are apart, so are keys. -/
theorem keysTell (h : i.Separated) (hLinked : i.Linked) : i.KeysTell := by
  intro r s key hr hs hKey hKey'
  have hSame : r.key? = s.key? := hKey.trans hKey'.symm
  cases r with
  | trace t =>
      cases s with
      | trace u => exact h.same_traces hLinked hr hs (Option.some.inj hSame)
      | method m => exact absurd (Option.some.inj hSame).symm (h.ne_trace hLinked hs hr)
      | noTrace => cases hs
      | noMethod => cases hs
  | method m =>
      cases s with
      | trace t => exact absurd (Option.some.inj hSame) (h.ne_trace hLinked hr hs)
      | method n =>
          have hRef : m.ref = n.ref := by simpa [Request.key?] using hSame
          obtain rfl := hLinked.method_inj hr.mem_methods hs.mem_methods hRef
          exact .method m
      | noTrace => cases hs
      | noMethod => cases hs
  | noTrace => cases hr
  | noMethod => cases hr

end Separated

/-- And only there. -/
theorem KeysTell.separated (h : i.KeysTell) : i.Separated where
  traces := by
    intro m hm n hn runs hRuns hRef
    -- The runs that the reference reads as can be asked for in front of any others.
    let last : List Run := [⟨0, 1, true⟩]
    have hKey : runsKey m.ref (runs ++ last) = runsKey n.ref last := by
      rw [hRef, runsKey_append]
    have hSame := h (.trace ⟨"", m, runs ++ last⟩) (.trace ⟨"", n, last⟩) _
      (.adHoc hm (by simp [last])) (.adHoc hn (by simp [last])) rfl (congrArg some hKey.symm)
    cases hSame with
    | trace _ hAll => exact hRuns (List.append_left_eq_self.mp hAll)
  methods := by
    intro m hm n hn runs hRuns hRef
    have hSame := h (.method n) (.trace ⟨"", m, runs⟩) _ (.whole hn) (.adHoc hm hRuns) rfl
      (congrArg some hRef.symm)
    cases hSame

/-! ### Served calls -/

/-- Whatever is asked of the image, a call that is served gets what an earlier call for the same
request installed. -/
def ServesSame {σ : Type} (i : Image) (c : Compiler σ) : Prop :=
  ∀ calls k, (∀ x ∈ calls, i.Offers x.request) → i.Offers k.request →
    ((c.afterCalls calls).answer k).result.cached = true →
    ∃ before x after, calls = before ++ x :: after ∧ x.request.Same k.request ∧
      ((c.afterCalls before).answer x).error = none ∧
      ((c.afterCalls before).answer x).result.cached = false ∧
      ((c.afterCalls before).answer x).result.fragment =
        ((c.afterCalls calls).answer k).result.fragment

/-- Where keys tell requests apart, what is served was made for the same request. -/
theorem KeysTell.servesSame (h : i.KeysTell) {σ : Type} {c : Compiler σ}
    (hWord : c.settings.maxTraceInsns < 2 ^ 63) (hEmpty : c.lookup.entries = []) :
    i.ServesSame c := by
  intro calls k hCalls hRequest hCached
  obtain ⟨key, hKey, before, x, after, hSplit, hOwnKey, hError, hUncached, hFragment⟩ :=
    Compiler.installedIn_of_cached hWord hEmpty calls k hCached
  have hx : x ∈ calls := by simp [hSplit]
  exact ⟨before, x, after, hSplit, h _ _ key (hCalls x hx) hRequest hOwnKey hKey, hError,
    hUncached, hFragment⟩

/-- Lookup in a loaded image. Its keys tell its requests apart exactly if its references are
separated; and then any compiler serves a request only what was installed for the same request. -/
theorem lookup_separated {bytes : List UInt8} (hLoad : Image.load bytes = .ok i) :
    (i.Separated ↔ i.KeysTell) ∧
      (i.Separated → ∀ (σ : Type) (settings : Settings) (backend : Backend σ) (state : σ)
        (tracer : Tracer) (c : Compiler σ), settings.maxTraceInsns < 2 ^ 63 →
        Compiler.new settings (some backend) state tracer = .ok c → i.ServesSame c) := by
  have hLinked := linked_of_load hLoad
  refine ⟨⟨fun hSeparated => hSeparated.keysTell hLinked, KeysTell.separated⟩, ?_⟩
  intro hSeparated σ settings backend state tracer c hWord hNew
  obtain ⟨_, rfl⟩ := Compiler.new_ok hNew
  exact (hSeparated.keysTell hLinked).servesSame hWord rfl

theorem load_of_toOption {bytes : List UInt8} (h : (Image.load bytes).toOption = some i) :
    Image.load bytes = .ok i := by
  cases hLoad : Image.load bytes with
  | error e =>
      rw [hLoad] at h
      cases h
  | ok j =>
      rw [hLoad] at h
      exact congrArg Except.ok (Option.some.inj h)

def plainBytes : List UInt8 :=
  "[[class]]\ndescriptor=\"A\"\n[[class.method]]\nname=\"f\"\ncode=\"000e\"\n".toUTF8.data.toList

/-- An image whose keys are apart. -/
theorem lookup_separated_plain :
    ∃ i, Image.load plainBytes = .ok i ∧ i.world.methods.map (·.ref) = ["A->f"] ∧ i.KeysTell ∧
      i.ServesSame Crew.lone.compiler := by
  have hSome : (Image.load plainBytes).toOption.map (fun i => i.world.methods.map (·.ref)) =
      some ["A->f"] := by
    decide +kernel
  obtain ⟨i, hOption, hRefs⟩ := Option.map_eq_some_iff.mp hSome
  have hLoad := load_of_toOption hOption
  have hSeparated : i.Separated := by
    refine separated_of_unmarked fun m hm hMark => ?_
    have hRef : m.ref ∈ ["A->f"] := hRefs ▸ List.mem_map_of_mem hm
    rw [List.mem_singleton.mp hRef] at hMark
    revert hMark
    decide
  obtain ⟨hKeys, hServes⟩ := lookup_separated hLoad
  exact ⟨i, hLoad, hRefs, hKeys.mp hSeparated,
    hServes hSeparated _ _ Assembler.compile Crew.lone.compiler.state .nop _ (by decide)
      Crew.new_lone⟩

/-- An image of two methods, one of which is named like the other one with a run. -/
def clashBytes : List UInt8 :=
  ("[[class]]\ndescriptor=\"A\"\n[[class.method]]\nname=\"f\"\ncode=\"000e\"\n" ++
    "[[class.method]]\nname=\"f@0+1\"\ncode=\"000e\"\n" ++
    "[[trace]]\nmethod=\"A->f\"\n[[trace.runs]]\ncount=1\n[[trace.runs]]\ncount=1\n" ++
    "[[trace]]\nmethod=\"A->f@0+1\"\n[[trace.runs]]\ncount=1\n").toUTF8.data.toList

def pair? (i : Image) : Option (Trace × Trace) :=
  match i.traces with
  | [t, u] => some (t, u)
  | _ => none

theorem traces_of_pair? {t u : Trace} (h : i.pair? = some (t, u)) : i.traces = [t, u] := by
  unfold pair? at h
  split at h
  next hTraces =>
      cases h
      exact hTraces
  next => cases h

/-- After a call for one trace, a call for another is served its fragment, which has two
instructions where its own has one. -/
def ServedOther (c : Compiler Assembler) (t u : Trace) : Prop :=
  t.method.ref ≠ u.method.ref ∧ t.key = u.key ∧
    ((c.afterCalls [{ request := .trace t }]).answer { request := .trace u }).result.cached = true ∧
    ((c.afterCalls [{ request := .trace t }]).answer { request := .trace u }).result.fragment =
      (c.answer { request := .trace t }).result.fragment ∧
    (c.answer { request := .trace t }).result.fragment.insts = 2 ∧
    (c.answer { request := .trace u }).result.fragment.insts = 1

instance (c : Compiler Assembler) (t u : Trace) : Decidable (ServedOther c t u) :=
  inferInstanceAs (Decidable (_ ∧ _))

/-- Two traces of two methods, with one key between them. -/
theorem lookup_unsound_clash :
    ∃ i t u, Image.load clashBytes = .ok i ∧ i.traces = [t, u] ∧
      ServedOther Crew.lone.compiler t u ∧ ¬i.KeysTell ∧ ¬i.ServesSame Crew.lone.compiler := by
  have hAny : ((Image.load clashBytes).toOption.bind pair?).any
      (fun x => ServedOther Crew.lone.compiler x.1 x.2) = true := by
    decide +kernel
  obtain ⟨⟨t, u⟩, hPair, hServed⟩ := Option.any_eq_true _ _ |>.mp hAny
  obtain ⟨i, hOption, hPair⟩ := Option.bind_eq_some_iff.mp hPair
  have hLoad := load_of_toOption hOption
  have hTraces := traces_of_pair? hPair
  have hServed : ServedOther Crew.lone.compiler t u := of_decide_eq_true hServed
  have ht : i.Offers (.trace t) := .recorded (by simp [hTraces])
  have hu : i.Offers (.trace u) := .recorded (by simp [hTraces])
  have hOther : ¬Request.Same (.trace t) (.trace u) := by
    intro hSame
    cases hSame with
    | trace hMethod => exact hServed.1 (congrArg (·.ref) hMethod)
  refine ⟨i, t, u, hLoad, hTraces, hServed, fun hKeys => ?_, fun hServes => ?_⟩
  · exact hOther (hKeys _ _ _ ht hu rfl (congrArg some hServed.2.1.symm))
  · obtain ⟨before, x, after, hSplit, hSame, _⟩ :=
      hServes [{ request := .trace t }] { request := .trace u } (by simpa using ht) hu hServed.2.2.1
    have hx : x ∈ [({ request := .trace t } : Call)] := hSplit ▸ by simp
    rw [List.mem_singleton.mp hx] at hSame
    exact hOther hSame

end Image

end TraceJit
