import TraceJit.Codegen.Backend

/-!
Installed fragments by key. The cache holds a bounded number of them and gives up the one that
was used least recently.
-/

namespace TraceJit

/-- Fragments by key, the one used last in front. -/
structure LookupCache where
  capacity : Nat
  entries : List (String × Fragment)
  deriving Inhabited

namespace LookupCache

def new (capacity : Nat) : LookupCache := ⟨capacity, []⟩

def size (c : LookupCache) : Nat := c.entries.length

/-- The fragment under `key`, without touching it. -/
def peek? (c : LookupCache) (key : String) : Option Fragment := c.entries.lookup key

/-- The entries other than that of `key`. -/
def others (c : LookupCache) (key : String) : List (String × Fragment) :=
  c.entries.filter (·.1 != key)

/-- Make the fragment under `key`, if there is one, the one used last. -/
def touch (c : LookupCache) (key : String) : LookupCache :=
  match c.peek? key with
  | none => c
  | some f => { c with entries := (key, f) :: c.others key }

/-- Put a fragment under `key` in front, giving up the last one where there are too many. -/
def insert (c : LookupCache) (key : String) (f : Fragment) : LookupCache :=
  { c with entries := ((key, f) :: c.others key).take c.capacity }

end LookupCache

end TraceJit
