import TraceJit.Codegen.Backend
import TraceJit.Graph.Validate

/-!
Compiling a unit with the assembler. A unit that keeps all rules is lowered to a program that
counts its instructions right; the program is installed as a whole, or nothing changes.
-/

namespace TraceJit

namespace Lowered

theorem insts_foldl_addInsn (singleStep : Bool) (nodes : List Node) (p : Lowered) :
    (nodes.foldl (addInsn singleStep) p).insts = p.insts + nodes.length := by
  induction nodes generalizing p with
  | nil => simp
  | cons n nodes ih =>
      rw [List.foldl_cons, ih, List.length_cons]
      change p.insts + 1 + _ = _
      omega

/-- The number of a block, if it is a code block. -/
def codeId? (x : BlockId × Block) : Option BlockId :=
  if x.2.kind = .code then some x.1 else none

/-- Only the nodes of code blocks are counted. -/
theorem insts_addBlock {u : WorkUnit} {p q : Lowered} {x : BlockId × Block}
    (h : p.addBlock u x.1 x.2 = .ok q) :
    q.insts = p.insts + ((codeId? x).toList.flatMap u.nodesOf).length := by
  by_cases hKind : x.2.kind = .code
  · rw [codeId?, if_pos hKind, Option.toList_some, List.flatMap_singleton]
    rw [addBlock, hKind] at h
    cases h
    split
    next => exact (insts_foldl_addInsn ..).trans (by rw [List.length_map])
    next => exact (insts_foldl_addInsn ..).trans (by rw [List.length_map])
  · have hSame : q.insts = p.insts := by
      unfold addBlock at h
      split at h
      next hCode => exact absurd hCode hKind
      all_goals cases h
      all_goals rfl
    rw [codeId?, if_neg hKind, hSame]
    exact (Int.add_zero _).symm

/-- Code blocks are lowered node by node, the others add no instruction. -/
theorem insts_foldlM_addBlock {u : WorkUnit} {p q : Lowered} {blocks : List (BlockId × Block)}
    (h : blocks.foldlM (fun p x => p.addBlock u x.1 x.2) p = .ok q) :
    q.insts = p.insts + ((blocks.filterMap codeId?).flatMap u.nodesOf).length := by
  induction blocks generalizing p with
  | nil =>
      cases h
      exact (Int.add_zero _).symm
  | cons x blocks ih =>
      rw [List.foldlM_cons] at h
      cases hBlock : p.addBlock u x.1 x.2 with
      | error e =>
          rw [hBlock] at h
          cases h
      | ok r =>
          rw [hBlock] at h
          have hHead := insts_addBlock hBlock
          have hFilter : (x :: blocks).filterMap codeId? =
              (codeId? x).toList ++ blocks.filterMap codeId? := by
            rw [List.filterMap_cons]
            cases codeId? x <;> rfl
          rw [ih h, hHead, hFilter, List.flatMap_append, List.length_append]
          omega

end Lowered

namespace WorkUnit

variable {u : WorkUnit} {p : Lowered}

/-- The lowered program counts the instructions that the unit holds. -/
theorem insts_of_lower (hLower : u.lower = .ok p) : p.insts = u.heldInsts := by
  have hInsts := Lowered.insts_foldlM_addBlock hLower
  rw [hInsts]
  exact Int.zero_add _

/-- A valid unit counts what it holds. -/
theorem heldInsts_of_valid (hValid : u.invalid? = none) : (u.heldInsts : Int) = u.numInsts := by
  have hNone : u.violations = [] := by
    unfold invalid? at hValid
    split at hValid
    next hEmpty => exact hEmpty
    next => cases hValid
  simp only [violations, List.append_eq_nil_iff] at hNone
  obtain ⟨⟨⟨_, hRuns⟩, _⟩, _⟩ := hNone
  rw [runViolations, List.append_eq_nil_iff] at hRuns
  by_cases hSame : (u.heldInsts : Int) = u.numInsts
  · exact hSame
  · rw [if_neg hSame] at hRuns
    cases hRuns.2

end WorkUnit

namespace Assembler

variable {a b : Assembler} {p : Lowered} {f : Fragment}

/-- Assembling installs the encoded program, and changes nothing else. -/
theorem assemble_ok (h : a.assemble p = .ok (f, b)) :
    a.cache.install (encode p) = .ok (f.base, b.cache) ∧ b.maxBytes = a.maxBytes ∧
      f.insts = p.insts := by
  unfold assemble at h
  dsimp only at h
  split at h
  next => cases h
  next =>
      split at h
      next => cases h
      next =>
          cases hInstall : a.cache.install (encode p) with
          | error e =>
              rw [hInstall] at h
              cases h
          | ok r =>
              rw [hInstall] at h
              cases h
              exact ⟨rfl, rfl, rfl⟩

/-- The two ends of compiling a unit. -/
theorem compile_cases (a : Assembler) (canceled : Bool) (u : WorkUnit) :
    ((∃ e, (compile a canceled u).result = .error e) ∧ (compile a canceled u).state = a) ∨
      ∃ f p, (compile a canceled u).result = .ok f ∧ u.lower = .ok p ∧
        a.assemble p = .ok (f, (compile a canceled u).state) := by
  unfold compile
  cases canceled with
  | true => exact .inl ⟨⟨_, rfl⟩, rfl⟩
  | false =>
      rw [if_neg Bool.false_ne_true]
      cases hLower : u.lower with
      | error e => exact .inl ⟨⟨_, rfl⟩, rfl⟩
      | ok p =>
          dsimp only
          cases hAssemble : a.assemble p with
          | error e => exact .inl ⟨⟨_, rfl⟩, rfl⟩
          | ok r => exact .inr ⟨r.1, p, rfl, rfl, hAssemble⟩

/-- An assembler that fails is as it was. -/
theorem compile_error {canceled : Bool} {u : WorkUnit} {e : BackendError}
    (h : (compile a canceled u).result = .error e) : (compile a canceled u).state = a := by
  rcases compile_cases a canceled u with ⟨_, hState⟩ | ⟨f, _, hOk, _⟩
  · exact hState
  · cases hOk.symm.trans h

/-- Only a program that exceeds the budget is too large. -/
theorem assemble_tooLarge {size limit : Nat} (h : a.assemble p = .error (.tooLarge size limit)) :
    a.maxBytes < headerBytes + 4 * p.words.size := by
  unfold assemble at h
  dsimp only at h
  split at h
  next hLarge => exact hLarge
  next =>
      split at h
      next => cases h
      next =>
          cases hInstall : a.cache.install (encode p) with
          | error e =>
              rw [hInstall] at h
              cases h
          | ok r =>
              rw [hInstall] at h
              cases h

/-- An assembler refuses a unit for its size only if its bytes exceed the limit. -/
theorem compile_tooLarge {canceled : Bool} {u : WorkUnit} {size limit : Nat}
    (h : (compile a canceled u).result = .error (.tooLarge size limit)) :
    ∃ p, u.lower = .ok p ∧ a.maxBytes < headerBytes + 4 * p.words.size := by
  unfold compile at h
  cases canceled with
  | true => cases h
  | false =>
      rw [if_neg Bool.false_ne_true] at h
      cases hLower : u.lower with
      | error e =>
          rw [hLower] at h
          cases h
      | ok p =>
          simp only [hLower] at h
          cases hAssemble : a.assemble p with
          | error e =>
              rw [hAssemble] at h
              obtain rfl : e = .tooLarge size limit := Except.error.inj h
              exact ⟨p, rfl, assemble_tooLarge hAssemble⟩
          | ok r =>
              rw [hAssemble] at h
              cases h

/-- Code for a unit that keeps all rules counts the unit's instructions. -/
theorem compile_ok {canceled : Bool} {u : WorkUnit} (hValid : u.invalid? = none)
    (h : (compile a canceled u).result = .ok f) :
    ∃ p, a.assemble p = .ok (f, (compile a canceled u).state) ∧ f.insts = u.numInsts := by
  rcases compile_cases a canceled u with ⟨⟨e, hError⟩, _⟩ | ⟨g, p, hOk, hLower, hAssemble⟩
  · cases hError.symm.trans h
  · obtain rfl : g = f := Except.ok.inj (hOk.symm.trans h)
    refine ⟨p, hAssemble, ?_⟩
    rw [(assemble_ok hAssemble).2.2, WorkUnit.insts_of_lower hLower,
      WorkUnit.heldInsts_of_valid hValid]

end Assembler

end TraceJit
