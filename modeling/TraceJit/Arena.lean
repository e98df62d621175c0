import TraceJit.Memory

/-!
Bulk storage for one compilation attempt at a time. Everything allocated in an epoch is given
back together when the arena is reset, and whatever was made in an earlier epoch must not be
used any more.
-/

namespace TraceJit

structure Arena where
  /-- Number of the current allocation generation. -/
  epoch : Nat := 1
  /-- Bytes allocated in this epoch. -/
  charged : Nat := 0
  /-- The most bytes that were charged when the arena was reset. -/
  peak : Nat := 0
  resets : Nat := 0
  deriving DecidableEq, Repr, Inhabited

inductive ArenaFault where
  /-- Something made in epoch `made` was used in epoch `now`. -/
  | stale (made now : Nat)
  /-- An element, a slab or a size that cannot exist. -/
  | outOfRange
  deriving DecidableEq, Repr

def ArenaFault.message? : ArenaFault → Option String
  | .stale made now =>
    some ("arena: slab from epoch " ++ toString made ++ " used in epoch " ++ toString now)
  | .outOfRange => none

namespace Arena

def charge (a : Arena) (bytes : Nat) : Arena := { a with charged := a.charged + bytes }

def reset (a : Arena) : Arena :=
  { epoch := a.epoch + 1, charged := 0, peak := max a.peak a.charged, resets := a.resets + 1 }

/-- Something made in epoch `made` may still be used. -/
def check (a : Arena) (made : Nat) : Except ArenaFault Unit :=
  if made = a.epoch then .ok () else .error (.stale made a.epoch)

end Arena

/-- A growable array of words of one size that lives in one epoch. -/
structure Slab where
  epoch : Nat
  /-- Size of an element in bytes. -/
  elemBytes : Nat
  items : Array Nat
  deriving DecidableEq, Repr, Inhabited

/-- An arena together with all slabs ever made in it. -/
structure SlabStore where
  arena : Arena := {}
  slabs : Array Slab := #[]
  deriving Inhabited

namespace SlabStore

/-- Make a slab with room for `hint` elements. Its number is the count of slabs before. -/
def newSlab (s : SlabStore) (elemBytes : Nat) (hint : Int) : Except ArenaFault SlabStore :=
  if hint < 0 || maxAllocation < hint.toNat * elemBytes then .error .outOfRange
  else .ok { s with slabs := s.slabs.push ⟨s.arena.epoch, elemBytes, #[]⟩ }

/-- The slab with number `id`, which must be of this epoch. -/
def slab (s : SlabStore) (id : Int) : Except ArenaFault Slab :=
  match (if 0 ≤ id then s.slabs[id.toNat]? else none) with
  | none => .error .outOfRange
  | some slab => (s.arena.check slab.epoch).map fun _ => slab

def alloc (s : SlabStore) (id : Int) : Except ArenaFault (Nat × SlabStore) :=
  (s.slab id).map fun slab =>
    (slab.items.size,
      { arena := s.arena.charge slab.elemBytes
        slabs := s.slabs.setIfInBounds id.toNat { slab with items := slab.items.push 0 } })

def get (s : SlabStore) (id i : Int) : Except ArenaFault Nat :=
  match s.slab id with
  | .error e => .error e
  | .ok slab =>
    match (if 0 ≤ i then slab.items[i.toNat]? else none) with
    | some v => .ok v
    | none => .error .outOfRange

/-- Store `value`, cut to the size of an element, in element `i` of slab `id`. -/
def set (s : SlabStore) (id i : Int) (value : Nat) : Except ArenaFault SlabStore :=
  match s.slab id with
  | .error e => .error e
  | .ok slab =>
    if 0 ≤ i && i < slab.items.size then
      let items := slab.items.setIfInBounds i.toNat (value % (1 <<< (8 * slab.elemBytes)))
      .ok { s with slabs := s.slabs.setIfInBounds id.toNat { slab with items } }
    else .error .outOfRange

def len (s : SlabStore) (id : Int) : Except ArenaFault Nat :=
  (s.slab id).map (·.items.size)

/-- Begin a new epoch. The slabs stay around but can no longer be used. -/
def reset (s : SlabStore) : SlabStore := { s with arena := s.arena.reset }

end SlabStore

end TraceJit
