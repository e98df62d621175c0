import TraceJit.Program.Trace

/-!
A closed program: declared classes and loose methods, linked so that every method carries the
tables its call sites are resolved through.
-/

namespace TraceJit

/-- A declared method. -/
structure MethodDecl where
  name : String
  code : List UInt16
  native : Bool
  slot : Int
  addr : UInt64
  deriving DecidableEq, Repr, Inhabited

/-- A declared class. Other classes and methods are named by reference. -/
structure ClassDecl where
  descriptor : String
  /-- Descriptor of the super class, empty for none. -/
  super : String
  vtable : List String
  methods : List MethodDecl
  /-- Call sites of the class see the table of resolved methods. -/
  resolves : Bool := true
  deriving DecidableEq, Repr, Inhabited

structure Class where
  descriptor : String
  super : Option String
  vtable : List (Option MethodInfo)
  methods : List Method
  deriving Inhabited

/-- A linked program. -/
structure World where
  classes : List Class
  loose : List Method
  resolved : List (Option MethodInfo)
  deriving Inhabited

/-- What call sites see of a declared method. -/
def MethodDecl.info (m : MethodDecl) (owner : Option String) : MethodInfo :=
  { owner, name := m.name, native := m.native, slot := m.slot, addr := m.addr }

def MethodDecl.link (m : MethodDecl) (owner : Option String) (linkage : Linkage) : Method :=
  { toMethodInfo := m.info owner, code := m.code.toArray, linkage }

namespace World

/-- The methods of some declarations, in declaration order. -/
def infos (classes : List ClassDecl) (loose : List MethodDecl) : List MethodInfo :=
  classes.flatMap (fun c => c.methods.map (·.info (some c.descriptor))) ++
    loose.map (·.info none)

/-- The method that a reference names. The empty reference names none. -/
def find? (methods : List MethodInfo) (ref : String) : Option MethodInfo :=
  if ref = "" then none else methods.find? (·.ref == ref)

/-- Link declarations. A reference to nothing declared leaves its place empty. -/
def link (classes : List ClassDecl) (loose : List MethodDecl) (resolved : List String) : World :=
  let methods := infos classes loose
  let resolved := resolved.map (find? methods)
  let super? (c : ClassDecl) : Option ClassDecl :=
    if c.super = "" then none else classes.find? (·.descriptor == c.super)
  { classes := classes.map fun c =>
      let linkage : Linkage :=
        { resolved := if c.resolves then resolved else [],
          superTable := ((super? c).map fun s => s.vtable.map (find? methods)).getD [] }
      { descriptor := c.descriptor
        super := (super? c).map (·.descriptor)
        vtable := c.vtable.map (find? methods)
        methods := c.methods.map (·.link (some c.descriptor) linkage) }
    loose := loose.map (·.link none .empty)
    resolved }

def methods (w : World) : List Method :=
  w.classes.flatMap (·.methods) ++ w.loose

def method? (w : World) (ref : String) : Option Method :=
  w.methods.find? (·.ref == ref)

end World

end TraceJit
