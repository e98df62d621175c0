import TraceJit.Compiler.Settings

/-!
Singling out methods by a list of names. An entry is a signature, a class descriptor or a bare
method name.
-/

namespace TraceJit

/-- A list of methods, without repetition. -/
structure MethodFilter where
  include_ : Bool
  entries : List String
  deriving DecidableEq, Repr

namespace MethodFilter

/-- The filter that settings ask for; an empty list asks for none. -/
def ofSettings (s : FilterSettings) : Option MethodFilter :=
  if s.methods.isEmpty then none else some ⟨s.include_, s.methods.eraseDups⟩

/-- The method is listed by its signature, its class or its name. -/
def lists (f : MethodFilter) (m : MethodInfo) : Bool :=
  f.entries.contains m.signature ||
    (match m.owner with
      | some d => f.entries.contains d
      | none => false) ||
    f.entries.contains m.name

/-- A method on the wrong side of the list gets stepwise code. -/
def stepwise (f : MethodFilter) (listed : Bool) : Bool := f.include_ != listed

/-- The attempts of a method that is listed for inclusion are printed. -/
def printed (f : MethodFilter) (listed : Bool) : Bool := f.include_ && listed

def apply (f : MethodFilter) (u : WorkUnit) : WorkUnit :=
  let listed := f.lists u.method.toMethodInfo
  { u with
    singleStep := u.singleStep || f.stepwise listed
    print := u.print || f.printed listed }

end MethodFilter

end TraceJit
