import RiscvSim.Instr.Decode

/-! Basic blocks of decoded instructions. -/

namespace RiscvSim

/-- The result of fetching an instruction word. -/
structure FetchResult where
  status : SimStatus := .physMemAccessFault
  instrCode : InstrCode := 0
  deriving DecidableEq, Repr

namespace Bb

/-- The number of entries of a block. -/
def maxSize : Nat := 16

/-- The address of an empty block. -/
def invalidVa : VirtAddr := 1 <<< 56

end Bb

/-- A basic block: its address and its decoded instructions. -/
structure Bb where
  virtAddr : VirtAddr
  instrs : List Instr
  sized : instrs.length = Bb.maxSize
  deriving DecidableEq, Repr

namespace Bb

/-- An empty block. -/
def new : Bb where
  virtAddr := invalidVa
  instrs := List.replicate maxSize {}
  sized := List.length_replicate

/-- The instruction ends a block by leaving it. -/
def isBranch : InstrId → Bool
  | .jal | .jalr | .beq | .bne | .blt | .bltu | .bge | .bgeu => true
  | _ => false

variable {σ : Type}

/-- Decode instructions into the entries from some position on, until one ends the block. -/
def updateFrom (fetch : σ → Except Abort (FetchResult × σ)) :
    List Instr → σ → Except Abort (List Instr × σ)
  | [], state => .ok ([], state)
  -- Reached max size.
  | [_], state => .ok ([Instr.statusInstr .ok], state)
  | _ :: next :: rest, state =>
    match fetch state with
    | .error why => .error why
    | .ok (fetchRes, state) =>
      -- Fetch failure ends the block.
      if fetchRes.status ≠ .ok then
        .ok (Instr.statusInstr fetchRes.status :: next :: rest, state)
      else
        let instr := Instr.decode fetchRes.instrCode
        -- An illegal instruction ends the block, and so does a branch.
        if instr.id = .simStatusInstr ∨ isBranch instr.id then .ok (instr :: next :: rest, state)
        else
          match updateFrom fetch (next :: rest) state with
          | .error why => .error why
          | .ok (entries, state) => .ok (instr :: entries, state)

/-- Decoding neither adds nor removes entries. -/
theorem length_updateFrom {fetch : σ → Except Abort (FetchResult × σ)} {stale entries : List Instr}
    {state after : σ} (result : updateFrom fetch stale state = .ok (entries, after)) :
    entries.length = stale.length := by
  -- By induction on the entries, each one is decoded or kept.
  induction stale generalizing entries state with
  | nil =>
    cases result
    rfl
  | cons entry rest ih =>
    cases rest with
    | nil =>
      -- The last entry is replaced by a status.
      cases result
      rfl
    | cons next rest =>
      rw [updateFrom] at result
      split at result
      · cases result
      · split at result
        · -- A fetch that failed replaces one entry, and the others stay stale.
          cases result
          rfl
        · dsimp only at result
          split at result
          · -- So does an instruction that ends the block.
            cases result
            rfl
          · split at result
            · cases result
            · rename_i tail
              -- Otherwise one entry is decoded and the rest are the entries of a shorter block.
              cases result
              simp only [List.length_cons, ih tail]

/-- Decode instructions starting from an address. -/
def update (bb : Bb) (virtAddr : VirtAddr) (fetch : σ → Except Abort (FetchResult × σ))
    (state : σ) : Except Abort (Bb × σ) :=
  match result : updateFrom fetch bb.instrs state with
  | .error why => .error why
  | .ok (entries, state) =>
    .ok (⟨virtAddr, entries, (length_updateFrom result).trans bb.sized⟩, state)

/-- Empty a block. -/
def invalidate (bb : Bb) : Bb where
  virtAddr := invalidVa
  -- The first entry would stop a block that is run after all.
  instrs := bb.instrs.set 0 (Instr.statusInstr .simNotImplementedInstr)
  sized := by rw [List.length_set, bb.sized]

end Bb

end RiscvSim
