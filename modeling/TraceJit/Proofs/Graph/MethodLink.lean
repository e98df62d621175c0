import TraceJit.Proofs.Graph.MethodSplit

/-!
The third pass over a method. Blocks that ascend in the code are searched forward from a branch,
or from the first block on; either way the search finds the block at the branch target, if there
is one. The pass stops at the first branch for which there is none.
-/

namespace TraceJit

namespace Entry

/-- Where the last instruction of a body branches to. -/
def lastTarget? (l : Linkage) (body : List Entry) : Option UInt32 :=
  body.getLast?.bind fun e => l.target? e.placed

theorem lastTarget?_concat (l : Linkage) (es : List Entry) (e : Entry) :
    lastTarget? l (es ++ [e]) = l.target? e.placed := by
  rw [lastTarget?, List.getLast?_concat, Option.bind_some]

/-- The number of the first body that starts at `off`. -/
def startingAt (bodies : List (List Entry)) (off : UInt32) : BlockId :=
  match bodies.findIdx? (firstOffset · = off) with
  | none => noBlock
  | some j => j

/-- Where a body begins there is a block. -/
theorem exists_startingAt {bodies : List (List Entry)} {off : UInt32}
    (hMem : off ∈ bodies.map firstOffset) :
    ∃ j : Nat, (bodies.map firstOffset)[j]? = some off ∧ startingAt bodies off = j := by
  rw [startingAt]
  cases hFind : bodies.findIdx? (firstOffset · = off) with
  | none =>
      obtain ⟨body, hBody, rfl⟩ := List.mem_map.mp hMem
      have hMiss := List.findIdx?_eq_none_iff.mp hFind body hBody
      simp at hMiss
  | some j =>
      obtain ⟨hj, hHit, _⟩ := List.findIdx?_eq_some_iff_getElem.mp hFind
      refine ⟨j, ?_, rfl⟩
      rw [List.getElem?_map, List.getElem?_eq_getElem hj, Option.map_some]
      exact congrArg some (by simpa using hHit)

/-- And only there. -/
theorem startingAt_eq_noBlock_iff {bodies : List (List Entry)} {off : UInt32} :
    startingAt bodies off = noBlock ↔ off ∉ bodies.map firstOffset := by
  constructor
  · intro hNone hMem
    obtain ⟨j, _, hj⟩ := exists_startingAt hMem
    exact natCast_ne_noBlock j (hj.symm.trans hNone)
  · intro hNot
    have hFind : bodies.findIdx? (firstOffset · = off) = none := by simpa using hNot
    rw [startingAt, hFind]

/-- Where the branch at the end of a body leads, if it ends with one. -/
def takenEdge (l : Linkage) (bodies : List (List Entry)) (body : List Entry) : BlockId :=
  match lastTarget? l body with
  | none => noBlock
  | some t => startingAt bodies t

/-- Bodies that hold instructions, in ascending order of offsets. -/
structure Ascending (bodies : List (List Entry)) : Prop where
  full : [] ∉ bodies
  sorted : bodies.flatten.Pairwise fun x y => x.placed.offset < y.placed.offset

/-- Every instruction of a body comes after the start of each body before it. -/
theorem Ascending.firstOffset_lt {bodies : List (List Entry)} (h : Ascending bodies)
    {i j : Nat} {front back : List Entry} {e : Entry} (hij : i < j)
    (hFront : bodies[i]? = some front) (hBack : bodies[j]? = some back) (he : e ∈ back) :
    firstOffset front < e.placed.offset := by
  obtain ⟨hi, rfl⟩ := List.getElem?_eq_some_iff.mp hFront
  obtain ⟨hj, rfl⟩ := List.getElem?_eq_some_iff.mp hBack
  have hPairwise := List.pairwise_iff_getElem.mp (List.pairwise_flatten.mp h.sorted).2 i j hi hj hij
  cases hHead : bodies[i] with
  | nil => exact absurd (hHead ▸ List.getElem_mem hi) h.full
  | cons x rest => exact hPairwise x (hHead ▸ List.mem_cons_self ..) e he

end Entry

namespace WorkUnit

open Entry

def linkView (l : Linkage) (bodies : List (List Entry)) (v : BlockView) : BlockView :=
  { v with taken := takenEdge l bodies v.body }

theorem searchKeys_splitViews (i : Nat) (bodies : List (List Entry)) :
    searchKeys (splitViews i bodies) = bodies.map fun body => (.code, firstOffset body) := by
  apply List.ext_getElem?
  intro k
  rw [searchKeys, List.getElem?_map, getElem?_splitViews, List.getElem?_map, Option.map_map]
  rfl

/-- Linking a block does not change what a search for blocks sees. -/
theorem searchKeys_linkView (l : Linkage) (bodies : List (List Entry)) (pre post : List BlockView) :
    searchKeys (pre.map (linkView l bodies) ++ post) = searchKeys (pre ++ post) := by
  simp only [searchKeys, List.map_append, List.map_map]
  rfl

/-- Both ways of searching find the block at a branch target. -/
theorem Represents.findBlock_target {u : WorkUnit} {views : List BlockView}
    {bodies : List (List Entry)} {lo i : Nat} {es : List Entry} {e : Entry} {t : UInt32}
    (h : u.Represents views)
    (hKeys : searchKeys views = bodies.map fun body => (.code, firstOffset body))
    (hAscending : Ascending bodies) (hBody : bodies[i]? = some (es ++ [e]))
    (hLow : lo = 0 ∨ lo = i ∧ e.placed.offset < t) : u.findBlock lo t = startingAt bodies t := by
  have hStarts : ∀ j, StartsAt views j t ↔
      ∃ body, bodies[j]? = some body ∧ firstOffset body = t := by
    intro j
    rw [startsAt_iff, hKeys]
    simp only [List.getElem?_map, Option.map_eq_some_iff, Prod.mk.injEq, true_and]
  rw [h.findBlock_eq, startingAt]
  cases hFind : bodies.findIdx? (firstOffset · = t) with
  | none =>
      rw [List.findIdx?_eq_none_iff] at hFind
      refine searchFrom_eq_noBlock_iff.mpr fun j _ hj => ?_
      obtain ⟨body, hGet, hFirst⟩ := (hStarts j).mp hj
      exact absurd (hFind body (List.mem_of_getElem? hGet)) (by simp [hFirst])
  | some j =>
      obtain ⟨hj, hHit, hBefore⟩ := List.findIdx?_eq_some_iff_getElem.mp hFind
      rw [decide_eq_true_eq] at hHit
      have hGet : bodies[j]? = some bodies[j] := List.getElem?_eq_getElem hj
      refine searchFrom_eq_iff.mpr ⟨?_, (hStarts j).mpr ⟨_, hGet, hHit⟩, ?_⟩
      · rcases hLow with rfl | ⟨rfl, hForward⟩
        · exact Nat.zero_le j
        · -- A block before the branch starts before its last instruction.
          refine Nat.le_of_not_lt fun hLess => ?_
          have hStart := hAscending.firstOffset_lt (e := e) hLess hGet hBody (by simp)
          rw [hHit] at hStart
          exact absurd (UInt32.lt_trans hStart hForward) (UInt32.lt_irrefl t)
      · intro k _ hk hStart
        obtain ⟨body, hGet', hFirst⟩ := (hStarts k).mp hStart
        obtain ⟨hk', rfl⟩ := List.getElem?_eq_some_iff.mp hGet'
        exact hBefore k hk (by simpa using hFirst)

section Link

variable {u : WorkUnit} {bodies : List (List Entry)} {pre post : List BlockView} {v : BlockView}

/-- The body of a block that is split off but not linked. -/
theorem body_of_splitViews (hViews : pre ++ v :: post = splitViews 0 bodies) :
    bodies[pre.length]? = some v.body ∧ v.taken = noBlock := by
  have hGet := Represents.getElem?_pre_length pre post v
  rw [hViews, getElem?_splitViews, Option.map_eq_some_iff] at hGet
  obtain ⟨body, hBody, rfl⟩ := hGet
  exact ⟨hBody, rfl⟩

/-- What linking a block comes down to, given its last instruction. -/
theorem linkMethodBlock_eq {es : List Entry} {e : Entry} (hAscending : Ascending bodies)
    (hViews : pre ++ v :: post = splitViews 0 bodies)
    (h : u.Represents (pre.map (linkView u.method.linkage bodies) ++ v :: post))
    (hBody : v.body = es ++ [e]) :
    linkMethodBlock u pre.length =
      match u.method.linkage.target? e.placed with
      | none => .ok u
      | some t =>
          if startingAt bodies t = noBlock then
            .fail u (.invariant (.link u.name e.placed.offset t))
          else .ok (u.modifyBlock pre.length fun b => { b with taken := startingAt bodies t }) := by
  have hKeys := (searchKeys_linkView u.method.linkage bodies pre (v :: post)).trans
    ((congrArg searchKeys hViews).trans (searchKeys_splitViews 0 bodies))
  have hOwn : bodies[pre.length]? = some (es ++ [e]) := hBody ▸ (body_of_splitViews hViews).1
  have hGet := Represents.getElem?_pre_length (pre.map (linkView u.method.linkage bodies)) post v
  rw [List.length_map] at hGet
  obtain ⟨n, hLast, hPlaced⟩ : ∃ n, u.lastNode? pre.length = some n ∧ n.placed = e.placed :=
    ⟨_, h.lastNode?_eq hGet hBody, node_placed ..⟩
  have hInsn : n.insn = e.placed.insn := congrArg Placed.insn hPlaced
  have hOffset : n.offset = e.placed.offset := congrArg Placed.offset hPlaced
  simp only [linkMethodBlock, hLast, hInsn, hOffset, Linkage.target?]
  cases (classify u.method.linkage e.placed.insn e.placed.offset).bind (·.target) with
  | none => rfl
  | some t =>
      have hSearch : u.findBlock (if e.placed.offset < t then pre.length else 0) t =
          startingAt bodies t := by
        apply h.findBlock_target hKeys hAscending hOwn
        split
        next hForward => exact .inr ⟨rfl, hForward⟩
        next => exact .inl rfl
      simp only [hSearch]

/-- A branch that leads to some block. -/
def Resolved (l : Linkage) (bodies : List (List Entry)) (v : BlockView) : Prop :=
  ∀ t, lastTarget? l v.body = some t → startingAt bodies t ≠ noBlock

/-- A block whose target begins a block is linked. -/
theorem linkMethodBlock_ok (hAscending : Ascending bodies)
    (hViews : pre ++ v :: post = splitViews 0 bodies)
    (h : u.Represents (pre.map (linkView u.method.linkage bodies) ++ v :: post))
    (hResolved : Resolved u.method.linkage bodies v) :
    ∃ w, linkMethodBlock u pre.length = .ok w ∧
      w.Represents ((pre ++ [v]).map (linkView u.method.linkage bodies) ++ post) ∧
      w.setting = u.setting ∧ w.numInsts = u.numInsts := by
  obtain ⟨hGet, hTaken⟩ := body_of_splitViews hViews
  have hFull : v.body ≠ [] := fun hNil => hAscending.full (List.mem_of_getElem? (hNil ▸ hGet))
  obtain ⟨es, e, hBody⟩ := (List.eq_nil_or_concat v.body).resolve_left hFull
  rw [List.concat_eq_append] at hBody
  have hTarget : lastTarget? u.method.linkage v.body = u.method.linkage.target? e.placed := by
    rw [hBody, lastTarget?_concat]
  rw [linkMethodBlock_eq hAscending hViews h hBody, List.map_append, List.append_assoc]
  cases hBranch : u.method.linkage.target? e.placed with
  | none =>
      have hSame : linkView u.method.linkage bodies v = v := by
        rw [linkView, takenEdge, hTarget, hBranch, ← hTaken]
      refine ⟨u, rfl, ?_, rfl, rfl⟩
      rw [List.map_singleton, hSame]
      exact h
  | some t =>
      have hLinked : linkView u.method.linkage bodies v =
          { v with taken := startingAt bodies t } := by
        rw [linkView, takenEdge, hTarget, hBranch]
      dsimp only
      rw [if_neg (hResolved t (hTarget.trans hBranch)), List.map_singleton, hLinked]
      refine ⟨_, rfl, ?_, modifyBlock_setting .., modifyBlock_numInsts ..⟩
      rw [← List.length_map (linkView u.method.linkage bodies)]
      exact h.modifyBlock (by simp only [BlockView.block]) rfl

/-- Linking blocks one after the other, as long as every branch leads to some block. -/
theorem linkMethod_blocks (mid : List BlockView) (hAscending : Ascending bodies)
    (hViews : pre ++ (mid ++ post) = splitViews 0 bodies)
    (h : u.Represents (pre.map (linkView u.method.linkage bodies) ++ (mid ++ post)))
    (hResolved : ∀ v ∈ mid, Resolved u.method.linkage bodies v) :
    ∃ w, (List.range' pre.length mid.length).foldlM linkMethodBlock u = .ok w ∧
      w.Represents ((pre ++ mid).map (linkView u.method.linkage bodies) ++ post) ∧
      w.setting = u.setting ∧ w.numInsts = u.numInsts := by
  induction mid generalizing u pre with
  | nil => exact ⟨u, rfl, by rwa [List.append_nil], rfl, rfl⟩
  | cons v mid ih =>
      obtain ⟨w, hStep, hNext, hSetting, hCount⟩ :=
        linkMethodBlock_ok hAscending hViews h (hResolved v (List.mem_cons_self ..))
      have hMethod := method_of_setting hSetting
      rw [← hMethod] at hNext hResolved ⊢
      obtain ⟨w', hRest, hFinal, hSetting', hCount'⟩ := ih (by rw [← hViews]; simp) hNext
        fun x hx => hResolved x (List.mem_cons_of_mem _ hx)
      refine ⟨w', ?_, ?_, hSetting'.trans hSetting, hCount'.trans hCount⟩
      · rw [List.length_cons, List.range'_succ, List.foldlM_cons, hStep]
        rw [List.length_append, List.length_singleton] at hRest
        exact hRest
      · rw [List.append_cons]
        exact hFinal

/-- A method in which every branch leads to some block is linked as a whole. -/
theorem linkMethod_ok (hAscending : Ascending bodies) (h : u.Represents (splitViews 0 bodies))
    (hResolved : ∀ v ∈ splitViews 0 bodies, Resolved u.method.linkage bodies v) :
    ∃ w, u.linkMethod = .ok w ∧
      w.Represents ((splitViews 0 bodies).map (linkView u.method.linkage bodies)) ∧
      w.setting = u.setting ∧ w.numInsts = u.numInsts := by
  have hAll : [] ++ (splitViews 0 bodies ++ []) = splitViews 0 bodies := by simp
  obtain ⟨w, hLink, hFinal, hSetting, hCount⟩ :=
    linkMethod_blocks (splitViews 0 bodies) hAscending hAll (by rwa [← hAll] at h) hResolved
  refine ⟨w, ?_, ?_, hSetting, hCount⟩
  · rw [linkMethod, h.size_eq, List.range_eq_range']
    exact hLink
  · rwa [List.nil_append, List.append_nil] at hFinal

/-- The first branch that leads to no block stops the pass. -/
theorem linkMethod_astray {mid : List BlockView} {es : List Entry} {e : Entry} {t : UInt32}
    (hAscending : Ascending bodies) (h : u.Represents (splitViews 0 bodies))
    (hViews : mid ++ v :: post = splitViews 0 bodies)
    (hResolved : ∀ v ∈ mid, Resolved u.method.linkage bodies v) (hBody : v.body = es ++ [e])
    (hTarget : u.method.linkage.target? e.placed = some t)
    (hNone : startingAt bodies t = noBlock) :
    u.linkMethod.stop? = some (.failed (.invariant (.link u.name e.placed.offset t))) := by
  have hAll : [] ++ (mid ++ v :: post) = splitViews 0 bodies := hViews
  obtain ⟨w, hLink, hFinal, hSetting, _⟩ :=
    linkMethod_blocks mid hAscending hAll (by rwa [← hAll] at h) hResolved
  have hMethod := method_of_setting hSetting
  rw [← hMethod] at hFinal hTarget
  have hName : w.name = u.name := by rw [name, name, hMethod]
  have hStep := linkMethodBlock_eq hAscending hViews hFinal hBody
  simp only [hTarget, hNone, if_true, hName] at hStep
  have hRange : List.range (splitViews 0 bodies).length =
      List.range' 0 mid.length ++ mid.length :: List.range' (mid.length + 1) post.length := by
    rw [← hViews, List.length_append, List.length_cons, List.range_eq_range',
      ← List.range'_append_1, Nat.zero_add, List.range'_succ]
  rw [linkMethod, h.size_eq, hRange, List.foldlM_append]
  rw [List.length_nil] at hLink
  rw [hLink]
  simp only [bind, Except.bind, List.foldlM_cons, hStep, Build.fail, Build.stop?]

end Link

end WorkUnit

end TraceJit
