import TraceJit.Arena
import TraceJit.Graph.MethodBuild
import TraceJit.Graph.TraceBuild

/-!
A unit together with the arena it lives in. Blocks and nodes must not be touched once the arena
has been reset.
-/

namespace TraceJit

/-- Bytes of a block and of an instruction node, for the books of the arena. -/
def blockBytes : Nat := 56
@[inherit_doc blockBytes]
def nodeBytes : Nat := 80

def WorkUnit.footprint (u : WorkUnit) : Nat :=
  blockBytes * u.blocks.size + nodeBytes * u.nodes.size

/-- A unit in its arena. -/
structure Workspace where
  arena : Arena
  /-- The epoch in which the unit was made. -/
  epoch : Nat
  unit : WorkUnit

/-- Why a use of a workspace broke off. -/
inductive WorkspaceStop where
  | build (stop : Stop)
  | arena (fault : ArenaFault)

namespace Workspace

def new (m : Method) : Except UnitError Workspace :=
  (WorkUnit.new m).map fun unit => { arena := {}, epoch := 1, unit }

/-- The unit, if its blocks and nodes may still be touched. -/
def live (w : Workspace) : Except ArenaFault WorkUnit :=
  (w.arena.check w.epoch).map fun _ => w.unit

/-- What a build leaves behind. -/
def finish (w : Workspace) : Build → Option WorkspaceStop × Workspace
  | .ok unit => (none, { w with unit })
  | .error h => (some (.build h.stop), { w with unit := h.unit })

/-- Run a build that refuses some units before it touches their blocks. -/
def build (w : Workspace) (refusal : Option BuildError) (run : WorkUnit → Build) :
    Option WorkspaceStop × Workspace :=
  match refusal, w.live with
  | some e, _ => (some (.build (.failed e)), w)
  | none, .error f => (some (.arena f), w)
  | none, .ok u => w.finish (run u)

def buildTrace (w : Workspace) (ceiling : Int) : Option WorkspaceStop × Workspace :=
  w.build (w.unit.traceRefusal? ceiling) (·.buildTrace ceiling)

def buildMethod (w : Workspace) : Option WorkspaceStop × Workspace :=
  w.build
    (if w.unit.code.size = 0 then some (.malformed (.emptyMethod w.unit.name)) else none)
    (·.buildMethod)

def reset (w : Workspace) : Workspace := { w with arena := w.arena.reset }

end Workspace

end TraceJit
