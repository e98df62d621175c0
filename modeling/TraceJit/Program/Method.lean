import TraceJit.Bytecode.Code

/-!
Loaded methods and what their call sites can see of other methods.
-/

namespace TraceJit

/-- What a call site knows of a method. -/
structure MethodInfo where
  /-- Descriptor of the declaring class; a loose method has none. -/
  owner : Option String
  name : String
  /-- A native method has no code to compile. -/
  native : Bool
  /-- Slot of the method in the virtual table of its class. -/
  slot : Int
  /-- Address of the first code unit, to which resolved calls are redirected. -/
  addr : UInt64
  deriving DecidableEq, Repr, Inhabited

namespace MethodInfo

/-- The form `descriptor->name` that images use. -/
def ref (m : MethodInfo) : String :=
  match m.owner with
  | none => m.name
  | some d => d ++ "->" ++ m.name

/-- The descriptor directly followed by the name. -/
def signature (m : MethodInfo) : String :=
  match m.owner with
  | none => m.name
  | some d => d ++ m.name

end MethodInfo

/-- The tables through which the call sites of one class are resolved. Both are empty where
nothing is known. -/
structure Linkage where
  /-- Methods by call-site index. -/
  resolved : List (Option MethodInfo)
  /-- Virtual table of the super class. -/
  superTable : List (Option MethodInfo)
  deriving DecidableEq, Repr, Inhabited

namespace Linkage

def empty : Linkage := ⟨[], []⟩

def callee? (l : Linkage) (index : UInt32) : Option MethodInfo :=
  (l.resolved[index.toNat]?).join

/-- The method of the super class in a virtual slot. -/
def superMethod? (l : Linkage) (slot : Int) : Option MethodInfo :=
  if 0 ≤ slot then (l.superTable[slot.toNat]?).join else none

end Linkage

/-- A loaded method with its body. -/
structure Method extends MethodInfo where
  code : Array UInt16
  linkage : Linkage
  deriving Inhabited

end TraceJit
