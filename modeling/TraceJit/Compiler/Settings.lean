import TraceJit.Codegen.Backend

/-!
What can be set about a compiler.
-/

namespace TraceJit

/-- Which methods are singled out for printing or for stepwise code. -/
structure FilterSettings where
  /-- The list names the methods that are compiled as usual; else those that are not. -/
  include_ : Bool := false
  methods : List String := []
  deriving DecidableEq, Repr, Inhabited

structure Settings where
  /-- First instruction ceiling of a trace. -/
  maxTraceInsns : Int := 100
  /-- Report every step of every attempt. -/
  print : Bool := false
  /-- Number of fragments that are remembered by key. -/
  lookupCacheSize : Int := 512
  filter : FilterSettings := {}
  codeCacheBase : UInt64 := 0x40000000
  codeCacheBytes : Int := CodeCache.defaultCapacity
  /-- Size budget of one fragment. -/
  maxFragmentBytes : Int := Assembler.defaultMaxBytes
  /-- Workers of a batch; zero leaves the choice open. -/
  jobs : Int := 0
  deriving DecidableEq, Repr, Inhabited

/-- A setting that a compiler cannot run with. -/
inductive SettingError where
  | maxTraceInsns (got : Int)
  | lookupCacheSize (got : Int)
  | codeCacheBytes (got : Int)
  | maxFragmentBytes (got : Int)
  | jobs (got : Int)
  deriving DecidableEq, Repr

def SettingError.message : SettingError → String
  | .maxTraceInsns got => "[jit].max_trace_insns must be positive, got " ++ toString got
  | .lookupCacheSize got => "[jit].lookup_cache_size must be positive, got " ++ toString got
  | .codeCacheBytes got => "[backend].code_cache_bytes must be positive, got " ++ toString got
  | .maxFragmentBytes got =>
    "[backend].max_translation_bytes must exceed the " ++ toString headerBytes ++
      " byte header, got " ++ toString got
  | .jobs got => "[batch].jobs must not be negative, got " ++ toString got

namespace Settings

/-- The bad settings, in a fixed order. -/
def problems (s : Settings) : List SettingError :=
  (if s.maxTraceInsns ≤ 0 then [.maxTraceInsns s.maxTraceInsns] else []) ++
  (if s.lookupCacheSize ≤ 0 then [.lookupCacheSize s.lookupCacheSize] else []) ++
  (if s.codeCacheBytes ≤ 0 then [.codeCacheBytes s.codeCacheBytes] else []) ++
  (if s.maxFragmentBytes ≤ headerBytes then [.maxFragmentBytes s.maxFragmentBytes] else []) ++
  (if s.jobs < 0 then [.jobs s.jobs] else [])

/-- The bad settings as one message; none if all are usable. -/
def invalid? (s : Settings) : Option String :=
  match s.problems with
  | [] => none
  | ps => some (String.intercalate "\n" (ps.map (·.message)))

end Settings

end TraceJit
