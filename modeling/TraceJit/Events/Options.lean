import TraceJit.Events.Tracer

/-!
What a user asks of a tracer, as the words that were given.
-/

namespace TraceJit

structure TracerOptions where
  level : String := "off"
  mode : String := "stream"
  format : String := "auto"
  /-- Where reports are written; nothing and a hyphen stand for the terminal. -/
  path : String := ""
  ringSize : Int := 4096
  deriving DecidableEq, Repr, Inhabited

/-- The setup that the words mean. Of several words without a meaning the first is complained
about: level, mode, then format. -/
def TracerOptions.config (o : TracerOptions) : Except SetupError TracerConfig := do
  let level ← (Level.parse o.level).mapError .refused
  let mode ← (StorageMode.parse o.mode).mapError .refused
  let format ← (EventFormat.parse o.format).mapError .refused
  return { level, mode := some mode, format, path := o.path, ringSize := o.ringSize }

end TraceJit
