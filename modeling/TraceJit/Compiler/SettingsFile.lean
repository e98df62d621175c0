import TraceJit.Compiler.Settings
import TraceJit.Toml.Shape

/-!
Settings in files. The file is a TOML document with a section for each part of the compiler.
-/

namespace TraceJit

/-- What a settings file says; zero where it does not say anything. -/
structure SettingsText where
  maxTraceInsns : Int := 0
  print : Bool := false
  lookupCacheSize : Int := 0
  include_ : Bool := false
  methods : List String := []
  codeCacheBase : UInt64 := 0
  codeCacheBytes : Int := 0
  maxFragmentBytes : Int := 0
  jobs : Int := 0
  deriving DecidableEq, Repr, Inhabited

/-- The settings that a file can give. -/
inductive Setting where
  | maxTraceInsns
  | print
  | lookupCacheSize
  | include_
  | methods
  | codeCacheBase
  | codeCacheBytes
  | maxFragmentBytes
  | jobs
  deriving DecidableEq, Repr

namespace Setting

def section_ : Setting → String
  | maxTraceInsns | print | lookupCacheSize => "jit"
  | include_ | methods => "filter"
  | codeCacheBase | codeCacheBytes | maxFragmentBytes => "backend"
  | jobs => "batch"

def name : Setting → String
  | maxTraceInsns => "max_trace_insns"
  | print => "print"
  | lookupCacheSize => "lookup_cache_size"
  | include_ => "include"
  | methods => "methods"
  | codeCacheBase => "code_cache_base"
  | codeCacheBytes => "code_cache_bytes"
  | maxFragmentBytes => "max_translation_bytes"
  | jobs => "jobs"

def Kind : Setting → Type
  | print | include_ => Bool
  | methods => List String
  | codeCacheBase => UInt64
  | maxTraceInsns | lookupCacheSize | codeCacheBytes | maxFragmentBytes | jobs => Int

def shape : (k : Setting) → Toml.Shape k.Kind
  | print | include_ => .truth
  | methods => .list .text
  | codeCacheBase => .word64
  | maxTraceInsns | lookupCacheSize | codeCacheBytes | maxFragmentBytes | jobs => .integer

end Setting

/-- Why settings could not be loaded. -/
inductive SettingsError where
  | document (cause : Toml.ReadError)
  | problems (ps : List SettingError)
  deriving DecidableEq, Repr

def SettingsError.message : SettingsError → String
  | .document cause => cause.message
  | .problems ps => String.intercalate "\n" (ps.map (·.message))

namespace SettingsText

open Toml

/-- A section, whose fields are read on top of what is there. -/
def section_ (name : String) (fields : List (TableField SettingsText)) : TableField SettingsText :=
  { name, read := fun path v s => Shape.record s fields path v }

/-- Let a file say something about a setting. -/
def set (s : SettingsText) : (k : Setting) → k.Kind → SettingsText
  | .maxTraceInsns, maxTraceInsns => { s with maxTraceInsns }
  | .print, print => { s with print }
  | .lookupCacheSize, lookupCacheSize => { s with lookupCacheSize }
  | .include_, include_ => { s with include_ }
  | .methods, methods => { s with methods }
  | .codeCacheBase, codeCacheBase => { s with codeCacheBase }
  | .codeCacheBytes, codeCacheBytes => { s with codeCacheBytes }
  | .maxFragmentBytes, maxFragmentBytes => { s with maxFragmentBytes }
  | .jobs, jobs => { s with jobs }

def sections : List (String × List Setting) :=
  [("jit", [.maxTraceInsns, .print, .lookupCacheSize]),
    ("filter", [.include_, .methods]),
    ("backend", [.codeCacheBase, .codeCacheBytes, .maxFragmentBytes]),
    ("batch", [.jobs])]

/-- The field of a section that a setting is read by. -/
def fieldOf (k : Setting) : TableField SettingsText := field k.name k.shape fun s x => s.set k x

def shape : Shape SettingsText :=
  .record {} (sections.map fun (name, settings) => section_ name (settings.map fieldOf))

/-- The settings of a file. A default gives way only to a value under its exact name. -/
def settings (s : SettingsText) (d : Document) : Settings :=
  let dflt : Settings := {}
  let choose {α : Type} (path : Path) (given otherwise : α) : α :=
    if d.defines path then given else otherwise
  { maxTraceInsns := choose ["jit", "max_trace_insns"] s.maxTraceInsns dflt.maxTraceInsns
    print := s.print
    lookupCacheSize := choose ["jit", "lookup_cache_size"] s.lookupCacheSize dflt.lookupCacheSize
    filter := { include_ := s.include_, methods := s.methods }
    codeCacheBase := choose ["backend", "code_cache_base"] s.codeCacheBase dflt.codeCacheBase
    codeCacheBytes := choose ["backend", "code_cache_bytes"] s.codeCacheBytes dflt.codeCacheBytes
    maxFragmentBytes :=
      choose ["backend", "max_translation_bytes"] s.maxFragmentBytes dflt.maxFragmentBytes
    jobs := s.jobs }

end SettingsText

namespace Settings

def fileName : String := "dexjit.toml"

def load (bytes : List UInt8) : Except SettingsError Settings :=
  match Toml.read SettingsText.shape bytes with
  | .error e => .error (.document e)
  | .ok (s, d) =>
    let settings := s.settings d
    match settings.problems with
    | [] => .ok settings
    | ps => .error (.problems ps)

end Settings

end TraceJit
