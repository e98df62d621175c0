import TraceJit.Bytecode.Code

/-!
The linear walk over a stretch of code: instruction after instruction from a start offset until
the end of the code, or until an instruction does not fit.
-/

namespace TraceJit

/-- An instruction at its offset. -/
structure Placed where
  offset : UInt32
  insn : Instruction
  deriving DecidableEq, Repr, Inhabited

def Placed.next (p : Placed) : UInt32 := p.offset + p.insn.width

/-- What a linear walk meets. -/
structure Sweep where
  /-- The instructions walked over, in order. -/
  steps : List Placed
  /-- The instruction that the walk could not step over, if it did not reach the end. -/
  stuck : Option (Placed × AdvanceError)

namespace Code

def placedAt (code : Code) (off : UInt32) : Placed :=
  ⟨off, code.instructionAt off⟩

/-- The linear walk from `off` over at most `fuel` instructions. -/
def sweepFrom (code : Code) : Nat → UInt32 → Sweep
  | 0, _ => ⟨[], none⟩
  | fuel + 1, off =>
    if code.size ≤ off then ⟨[], none⟩
    else
      let here := code.placedAt off
      match code.advance off here.insn.width with
      | .error e => ⟨[], some (here, e)⟩
      | .ok next =>
        let rest := sweepFrom code fuel next
        { rest with steps := here :: rest.steps }

/-- The linear walk from `off` to the end of the code. Every step moves on by at least one unit,
so the number of units left bounds the number of steps. -/
def sweep (code : Code) (off : UInt32) : Sweep :=
  code.sweepFrom (code.units.size - off.toNat) off

end Code

end TraceJit
