import RiscvSim.Simulator.Simulator

/-! The ways in which an access, a handler or the decoding of a block ends without an abort. -/

namespace RiscvSim

namespace Simulator

variable {sim after : Simulator}

section access

variable {n : Nat}

/-- The ways in which a load ends. -/
inductive LoadEnds (sim : Simulator) (access : LoadAccess) (va : VirtAddr) :
    LoadResult n → Simulator → Prop where
  | unaligned : va &&& addrAlignMask n ≠ 0 → LoadEnds sim access va ⟨.simUnalignedLoad, 0⟩ sim
  /-- The page is cached, so nothing is translated. -/
  | hit {hostAddr : HostPtr} : va &&& addrAlignMask n = 0 →
    (sim.getReadTLB access).find va = (true, some hostAddr) → sim.physMemory.ValidPtr hostAddr n →
    LoadEnds sim access va ⟨.ok, sim.physMemory.load n hostAddr⟩ sim
  | untranslated {status : SimStatus} {pa : PhysAddr} : va &&& addrAlignMask n = 0 →
    sim.translateVa access.accessType va = .ok ⟨status, pa⟩ → status ≠ .ok →
    LoadEnds sim access va ⟨status, 0⟩ sim
  | unread {pa : PhysAddr} : va &&& addrAlignMask n = 0 →
    sim.translateVa access.accessType va = .ok ⟨.ok, pa⟩ →
    (sim.physMemory.read (n := n) pa 0).status ≠ .ok →
    LoadEnds sim access va ⟨(sim.physMemory.read (n := n) pa 0).status, 0⟩ sim
  /-- The page is cached from now on. -/
  | read {pa : PhysAddr} : va &&& addrAlignMask n = 0 →
    sim.translateVa access.accessType va = .ok ⟨.ok, pa⟩ →
    (sim.physMemory.read (n := n) pa 0).status = .ok →
    LoadEnds sim access va ⟨.ok, (sim.physMemory.read (n := n) pa 0).dst⟩
      (sim.setReadTLB ((sim.getReadTLB access).update va
        (sim.physMemory.read (n := n) pa 0).hostPagePtr) access)

/-- A load that does not abort ends in one of these ways. -/
theorem loadInt_ends {access : LoadAccess} {va : VirtAddr} {res : LoadResult n}
    (done : sim.loadInt n access va = .ok (res, after)) : LoadEnds sim access va res after := by
  unfold loadInt at done
  split at done
  · rename_i unaligned
    cases done
    exact .unaligned unaligned
  · rename_i masked
    have aligned := not_not.mp masked
    dsimp only at done
    split at done
    · rename_i found
      -- A hit needs a pointer that is still valid.
      split at done
      · cases done
      · rename_i hostAddr pointer
        split at done <;> cases done
        rename_i valid
        exact .hit aligned (Prod.ext found pointer) valid
    · split at done
      · cases done
      · rename_i status pa translated
        split at done
        · rename_i failed
          cases done
          exact .untranslated aligned translated failed
        · rename_i passed
          rw [not_not.mp passed] at translated
          -- Only a read that succeeds is cached.
          split at done
          · rename_i failed
            cases done
            exact .unread aligned translated failed
          · rename_i succeeded
            cases done
            exact .read aligned translated (not_not.mp succeeded)

/-- The ways in which a store ends. -/
inductive StoreEnds (sim : Simulator) (va : VirtAddr) (value : BitVec (8 * n)) :
    SimStatus → Simulator → Prop where
  | unaligned : va &&& addrAlignMask n ≠ 0 → StoreEnds sim va value .simUnalignedStore sim
  /-- The page is cached, so nothing is translated. -/
  | hit {hostAddr : HostPtr} (valid : sim.physMemory.ValidPtr hostAddr n) :
    va &&& addrAlignMask n = 0 → sim.writeTlb.find va = (true, some hostAddr) →
    StoreEnds sim va value .ok
      { sim with physMemory := sim.physMemory.store hostAddr value valid }
  | untranslated {status : SimStatus} {pa : PhysAddr} : va &&& addrAlignMask n = 0 →
    sim.translateVa .write va = .ok ⟨status, pa⟩ → status ≠ .ok →
    StoreEnds sim va value status sim
  | unwritten {pa : PhysAddr} : va &&& addrAlignMask n = 0 →
    sim.translateVa .write va = .ok ⟨.ok, pa⟩ →
    (sim.physMemory.write pa value).1.status ≠ .ok →
    StoreEnds sim va value (sim.physMemory.write pa value).1.status sim
  /-- The page is cached from now on. -/
  | written {pa : PhysAddr} : va &&& addrAlignMask n = 0 →
    sim.translateVa .write va = .ok ⟨.ok, pa⟩ →
    (sim.physMemory.write pa value).1.status = .ok →
    StoreEnds sim va value .ok
      { sim with
        physMemory := (sim.physMemory.write pa value).2
        writeTlb := sim.writeTlb.update va (sim.physMemory.write pa value).1.hostPagePtr }

/-- A store that does not abort ends in one of these ways. -/
theorem storeInt_ends {va : VirtAddr} {value : BitVec (8 * n)} {status : SimStatus}
    (done : sim.storeInt n va value = .ok (status, after)) :
    StoreEnds sim va value status after := by
  unfold storeInt at done
  split at done
  · rename_i unaligned
    cases done
    exact .unaligned unaligned
  · rename_i masked
    have aligned := not_not.mp masked
    dsimp only at done
    split at done
    · rename_i found
      split at done
      · cases done
      · rename_i hostAddr pointer
        -- The pointer is checked before anything is written through it.
        split at done <;> cases done
        rename_i valid
        exact .hit valid aligned (Prod.ext found pointer)
    · split at done
      · cases done
      · rename_i status pa translated
        split at done
        · rename_i failed
          cases done
          exact .untranslated aligned translated failed
        · rename_i passed
          rw [not_not.mp passed] at translated
          split at done
          · rename_i failed
            cases done
            exact .unwritten aligned translated failed
          · rename_i succeeded
            cases done
            exact .written aligned translated (not_not.mp succeeded)

end access

/-- The ways in which a handler ends on an instruction. -/
inductive ExecEnds (sim : Simulator) (instr : Instr) : Handler → Flow → Simulator → Prop where
  | status {status : SimStatus} : instr.status = .ok status →
    ExecEnds sim instr .status (.ret status) sim
  | exit : ExecEnds sim instr .exit (.ret .simExit) { sim with toCore := sim.incr }
  | computed {res : Core → Instr → Except Abort RegValue} {value : RegValue} {written : Core} :
    res sim.toCore instr = .ok value → sim.toCore.write instr.rd value = .ok written →
    ExecEnds sim instr (.compute res) .next { sim with toCore := written.incr }
  /-- A load that fails writes no register. -/
  | unloaded {n : Nat} {widen : BitVec (8 * n) → RegValue} {vaBase : RegValue}
    {res : LoadResult n} {loaded : Simulator} : sim.toCore.read instr.rs1 = .ok vaBase →
    sim.loadInt n .read (vaBase + instr.signedImm) = .ok (res, loaded) → res.status ≠ .ok →
    ExecEnds sim instr (.load n widen) (.ret res.status) loaded
  | loaded {n : Nat} {widen : BitVec (8 * n) → RegValue} {vaBase : RegValue}
    {res : LoadResult n} {loaded : Simulator} {written : Core} :
    sim.toCore.read instr.rs1 = .ok vaBase →
    sim.loadInt n .read (vaBase + instr.signedImm) = .ok (res, loaded) → res.status = .ok →
    loaded.toCore.write instr.rd (widen res.value) = .ok written →
    ExecEnds sim instr (.load n widen) .next { loaded with toCore := written.incr }
  | unstored {n : Nat} {vaBase value : RegValue} {status : SimStatus} {stored : Simulator} :
    sim.toCore.read instr.rs1 = .ok vaBase → sim.toCore.read instr.rs2 = .ok value →
    sim.storeInt n (vaBase + instr.signedImm) (value.setWidth (8 * n)) = .ok (status, stored) →
    status ≠ .ok → ExecEnds sim instr (.store n) (.ret status) stored
  | stored {n : Nat} {vaBase value : RegValue} {stored : Simulator} :
    sim.toCore.read instr.rs1 = .ok vaBase → sim.toCore.read instr.rs2 = .ok value →
    sim.storeInt n (vaBase + instr.signedImm) (value.setWidth (8 * n)) = .ok (.ok, stored) →
    ExecEnds sim instr (.store n) .next { stored with toCore := stored.incr }
  /-- The target of a jump is refused before the link register is written. -/
  | astray {target : Core → Instr → Except Abort VirtAddr} {newPc : VirtAddr} :
    target sim.toCore instr = .ok newPc → newPc &&& pcAlignMask ≠ 0 →
    ExecEnds sim instr (.jump target) (.ret .simPcAlignError) sim
  | jumped {target : Core → Instr → Except Abort VirtAddr} {newPc : VirtAddr} {written : Core} :
    target sim.toCore instr = .ok newPc → newPc &&& pcAlignMask = 0 →
    sim.toCore.write instr.rd (sim.pc + 4) = .ok written →
    ExecEnds sim instr (.jump target) (.ret .ok) { sim with toCore := written.jumpTo newPc }
  | refused {cmp : RegValue → RegValue → Bool} {rs1 rs2 : RegValue} :
    sim.toCore.read instr.rs1 = .ok rs1 → sim.toCore.read instr.rs2 = .ok rs2 →
    cmp rs1 rs2 = true → (sim.pc + instr.signedImm) &&& pcAlignMask ≠ 0 →
    ExecEnds sim instr (.branch cmp) (.ret .simPcAlignError) sim
  | taken {cmp : RegValue → RegValue → Bool} {rs1 rs2 : RegValue} :
    sim.toCore.read instr.rs1 = .ok rs1 → sim.toCore.read instr.rs2 = .ok rs2 →
    cmp rs1 rs2 = true → (sim.pc + instr.signedImm) &&& pcAlignMask = 0 →
    ExecEnds sim instr (.branch cmp) (.ret .ok)
      { sim with toCore := sim.toCore.jumpTo (sim.pc + instr.signedImm) }
  /-- The target of a branch that is not taken does not matter. -/
  | untaken {cmp : RegValue → RegValue → Bool} {rs1 rs2 : RegValue} :
    sim.toCore.read instr.rs1 = .ok rs1 → sim.toCore.read instr.rs2 = .ok rs2 →
    ¬cmp rs1 rs2 = true →
    ExecEnds sim instr (.branch cmp) (.ret .ok) { sim with toCore := sim.incr }

/-- A handler that does not abort ends in one of these ways. -/
theorem exec_ends {handler : Handler} {instr : Instr} {flow : Flow}
    (done : handler.exec sim instr = .ok (flow, after)) :
    ExecEnds sim instr handler flow after := by
  -- One case for each shape of handler.
  cases handler with
  | status =>
    simp only [Handler.exec] at done
    split at done
    · cases done
    · rename_i found
      cases done
      exact .status found
  | exit =>
    cases done
    exact .exit
  | compute res =>
    simp only [Handler.exec, simCompute] at done
    split at done
    · cases done
    · rename_i value computed
      split at done
      · cases done
      · rename_i written write
        cases done
        exact .computed computed write
  | load n widen =>
    simp only [Handler.exec, simLoadInstr] at done
    split at done
    · cases done
    · rename_i vaBase base
      split at done
      · cases done
      · rename_i res loaded load
        split at done
        · rename_i failed
          cases done
          exact .unloaded base load failed
        · rename_i succeeded
          split at done
          · cases done
          · rename_i written write
            cases done
            exact .loaded base load (not_not.mp succeeded) write
  | store n =>
    simp only [Handler.exec, simStoreInstr] at done
    split at done
    · cases done
    · rename_i vaBase base
      split at done
      · cases done
      · rename_i value second
        split at done
        · cases done
        · rename_i status stored store
          split at done
          · rename_i failed
            cases done
            exact .unstored base second store failed
          · rename_i succeeded
            cases done
            rw [not_not.mp succeeded] at store
            exact .stored base second store
  | jump target =>
    simp only [Handler.exec, simJump] at done
    split at done
    · cases done
    · rename_i newPc computed
      split at done
      · rename_i masked
        cases done
        exact .astray computed masked
      · rename_i masked
        split at done
        · cases done
        · rename_i written write
          cases done
          exact .jumped computed (not_not.mp masked) write
  | branch cmp =>
    simp only [Handler.exec, simCondBranch] at done
    split at done
    · cases done
    · rename_i rs1 first
      split at done
      · cases done
      · rename_i rs2 second
        split at done
        · rename_i holds
          split at done
          · rename_i masked
            cases done
            exact .refused first second holds masked
          · rename_i masked
            cases done
            exact .taken first second holds (not_not.mp masked)
        · rename_i fails
          cases done
          exact .untaken first second fails

end Simulator

namespace Bb

/-- The ways in which the entries of a block are decoded, from one state to another. -/
inductive Updates {σ : Type} (fetch : σ → Except Abort (FetchResult × σ)) :
    List Instr → σ → List Instr → σ → Prop where
  | nil {state : σ} : Updates fetch [] state [] state
  /-- The last slot is reserved. -/
  | full {entry : Instr} {state : σ} :
    Updates fetch [entry] state [Instr.statusInstr .ok] state
  | fault {entry next : Instr} {rest : List Instr} {state after : σ} {res : FetchResult} :
    fetch state = .ok (res, after) → res.status ≠ .ok →
    Updates fetch (entry :: next :: rest) state (Instr.statusInstr res.status :: next :: rest) after
  /-- The entries behind one that ends the block are stale. -/
  | last {entry next : Instr} {rest : List Instr} {state after : σ} {res : FetchResult} :
    fetch state = .ok (res, after) → res.status = .ok →
    (Instr.decode res.instrCode).id = .simStatusInstr ∨ isBranch (Instr.decode res.instrCode).id →
    Updates fetch (entry :: next :: rest) state (Instr.decode res.instrCode :: next :: rest) after
  | more {entry next : Instr} {rest entries : List Instr} {state middle after : σ}
    {res : FetchResult} : fetch state = .ok (res, middle) → res.status = .ok →
    ¬((Instr.decode res.instrCode).id = .simStatusInstr ∨
      isBranch (Instr.decode res.instrCode).id) →
    Updates fetch (next :: rest) middle entries after →
    Updates fetch (entry :: next :: rest) state (Instr.decode res.instrCode :: entries) after

/-- Entries that are decoded without an abort are decoded in one of these ways. -/
theorem updates_of_updateFrom {σ : Type} {fetch : σ → Except Abort (FetchResult × σ)}
    {stale entries : List Instr} {state after : σ}
    (done : updateFrom fetch stale state = .ok (entries, after)) :
    Updates fetch stale state entries after := by
  -- By induction on the places of the block, one word is fetched for each.
  induction stale generalizing entries state with
  | nil =>
    cases done
    exact .nil
  | cons entry rest ih =>
    cases rest with
    | nil =>
      cases done
      exact .full
    | cons next rest =>
      rw [updateFrom] at done
      split at done
      · cases done
      · rename_i res middle fetched
        split at done
        · rename_i failed
          cases done
          exact .fault fetched failed
        · rename_i succeeded
          have ok := not_not.mp succeeded
          dsimp only at done
          split at done
          · rename_i ends
            cases done
            exact .last fetched ok ends
          · rename_i goesOn
            -- The rest of the block is decoded from the state behind this word.
            split at done
            · cases done
            · rename_i tail
              cases done
              exact .more fetched ok goesOn (ih tail)

end Bb

end RiscvSim
