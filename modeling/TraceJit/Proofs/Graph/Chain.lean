import TraceJit.Graph.WorkUnit

/-!
Chains of nodes. A list of entries is what a chain holds; the chain itself lies scattered in the
store of nodes, each node naming its neighbours by number. A segment may stand between any two
neighbours, so chains are cut and joined without looking at the rest of the store.
-/

namespace TraceJit

def Node.placed (n : Node) : Placed := ⟨n.offset, n.insn⟩

/-- The number of a node and the instruction that it holds. -/
structure Entry where
  number : Nat
  placed : Placed
  deriving DecidableEq, Repr

namespace Entry

/-- The node of an entry of block `b` with its two neighbours. -/
def node (e : Entry) (b : Nat) (prev next : NodeId) : Node :=
  { insn := e.placed.insn, offset := e.placed.offset, width := e.placed.insn.width, block := b,
    prev, next }

/-- The first number of a segment, or what follows an empty one. -/
def headId : List Entry → NodeId → NodeId
  | [], after => after
  | e :: _, _ => e.number

/-- The last number of a segment, or what precedes an empty one. -/
def lastId : NodeId → List Entry → NodeId
  | prev, [] => prev
  | _, e :: rest => lastId e.number rest

/-- The numbered nodes of a segment of block `b` between two neighbours. -/
def nodes (b : Nat) : NodeId → List Entry → NodeId → List (NodeId × Node)
  | _, [], _ => []
  | prev, e :: rest, after =>
      ((e.number : NodeId), e.node b prev (headId rest after)) :: nodes b e.number rest after

@[simp] theorem node_placed (e : Entry) (b : Nat) (prev next : NodeId) :
    (e.node b prev next).placed = e.placed := rfl

@[simp] theorem node_insn (e : Entry) (b : Nat) (prev next : NodeId) :
    (e.node b prev next).insn = e.placed.insn := rfl

theorem lastId_append (prev : NodeId) (es rest : List Entry) :
    lastId prev (es ++ rest) = lastId (lastId prev es) rest := by
  induction es generalizing prev with
  | nil => rfl
  | cons e es ih => exact ih e.number

@[simp] theorem lastId_concat (prev : NodeId) (es : List Entry) (e : Entry) :
    lastId prev (es ++ [e]) = e.number := lastId_append prev es [e]

theorem headId_append (es rest : List Entry) (after : NodeId) :
    headId (es ++ rest) after = headId es (headId rest after) := by
  cases es <;> rfl

/-- Only an empty list has no last node. -/
theorem lastId_eq_noNode_iff (es : List Entry) : lastId noNode es = noNode ↔ es = [] := by
  rcases List.eq_nil_or_concat es with rfl | ⟨es, e, rfl⟩
  · simp [lastId]
  · rw [List.concat_eq_append, lastId_concat]
    simp [noNode]

theorem nodes_length (b : Nat) (prev : NodeId) (es : List Entry) (after : NodeId) :
    (nodes b prev es after).length = es.length := by
  induction es generalizing prev with
  | nil => rfl
  | cons e es ih => simp [nodes, ih]

/-- The nodes of a chain hold its entries in their order. -/
theorem nodes_map (b : Nat) (prev : NodeId) (es : List Entry) (after : NodeId) :
    (nodes b prev es after).map (fun x => (x.1, x.2.placed)) =
      es.map (fun e => ((e.number : NodeId), e.placed)) := by
  induction es generalizing prev with
  | nil => rfl
  | cons e es ih => simp [nodes, ih]

end Entry

/-- The store holds the nodes of `es` as a chain of block `b` between two neighbours. -/
def Segment (store : Array Node) (b : Nat) : NodeId → List Entry → NodeId → Prop
  | _, [], _ => True
  | prev, e :: rest, after =>
      store[e.number]? = some (e.node b prev (Entry.headId rest after)) ∧
        Segment store b e.number rest after

namespace Segment

variable {store store' : Array Node} {b : Nat} {prev after : NodeId}

/-- A segment depends on the store only at its own numbers. -/
theorem congr {es : List Entry} (hSame : ∀ e ∈ es, store'[e.number]? = store[e.number]?)
    (hSegment : Segment store b prev es after) : Segment store' b prev es after := by
  induction es generalizing prev with
  | nil => trivial
  | cons e es ih =>
      obtain ⟨hHead, hRest⟩ := hSegment
      exact ⟨(hSame e (List.mem_cons_self ..)).trans hHead,
        ih (fun x hx => hSame x (List.mem_cons_of_mem _ hx)) hRest⟩

/-- A list that is stored in two parts, linked to each other. -/
theorem append_iff (es rest : List Entry) :
    Segment store b prev (es ++ rest) after ↔
      Segment store b prev es (Entry.headId rest after) ∧
        Segment store b (Entry.lastId prev es) rest after := by
  induction es generalizing prev with
  | nil => simp [Segment, Entry.lastId]
  | cons e es ih =>
      rw [List.cons_append, Segment, Segment, ih, Entry.headId_append, and_assoc]
      rfl

/-- A list that is stored up to its last entry. -/
theorem concat_iff (es : List Entry) (e : Entry) :
    Segment store b prev (es ++ [e]) after ↔
      Segment store b prev es e.number ∧
        store[e.number]? = some (e.node b (Entry.lastId prev es) after) := by
  rw [append_iff]
  simp only [Segment, Entry.headId, and_true]

/-- Handing a whole segment over to block `c` changes the owner of each node and nothing else. -/
theorem reown {c : Nat} {es : List Entry}
    (hOwner : ∀ e ∈ es, store'[e.number]? = (store[e.number]?).map fun n => { n with block := c })
    (hSegment : Segment store b prev es after) : Segment store' c prev es after := by
  induction es generalizing prev with
  | nil => trivial
  | cons e es ih =>
      obtain ⟨hHead, hRest⟩ := hSegment
      refine ⟨?_, ih (fun x hx => hOwner x (List.mem_cons_of_mem _ hx)) hRest⟩
      rw [hOwner e (List.mem_cons_self ..), hHead]
      rfl

end Segment

namespace WorkUnit

theorem node?_natCast (u : WorkUnit) (i : Nat) : u.node? (i : NodeId) = u.nodes[i]? := by
  simp [node?]

/-- Following a chain with enough fuel gives the nodes of its entries. -/
theorem chainFrom_eq (u : WorkUnit) {b : Nat} {prev : NodeId} {es : List Entry} {fuel : Nat}
    (hSegment : Segment u.nodes b prev es noNode) (hFuel : es.length ≤ fuel) :
    u.chainFrom fuel (Entry.headId es noNode) = Entry.nodes b prev es noNode := by
  induction es generalizing prev fuel with
  | nil => cases fuel <;> rfl
  | cons e es ih =>
      cases fuel with
      | zero => simp at hFuel
      | succ fuel =>
          obtain ⟨hHead, hRest⟩ := hSegment
          have hNode : u.node? (Entry.headId (e :: es) noNode) =
              some (e.node b prev (Entry.headId es noNode)) :=
            (u.node?_natCast e.number).trans hHead
          rw [chainFrom, hNode]
          simp only [Entry.nodes, List.cons.injEq]
          exact ⟨rfl, ih hRest (by simpa using hFuel)⟩

end WorkUnit

end TraceJit
