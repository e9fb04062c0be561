import RiscvSim.Proofs.Simulator.Refinement

/-! Runs from the same registers and bytes agree while no cache holds anything stale. -/

namespace RiscvSim

open Transition

namespace Plain

/-- The same registers and counters, and the same bytes at every physical address. -/
def SameBytes (left right : Plain) : Prop :=
  left.toCore = right.toCore ∧ left.physMemory.bytes = right.physMemory.bytes

variable {left right : Plain}

/-- Translation depends on control registers and bytes alone. -/
theorem SameBytes.translateVa (same : left.SameBytes right) (accessType : AccessType)
    (va : VirtAddr) : left.translateVa accessType va = right.translateVa accessType va := by
  rw [Plain.translateVa, Plain.translateVa, same.1]
  -- The entries of the tables are bytes, which are the same.
  exact translate_congr _ va (fun _ _ addr _ => congrFun same.2 addr) _ _ _

/-- Loading depends on control registers and bytes alone. -/
theorem SameBytes.loadInt (same : left.SameBytes right) {n : Nat} (size : AccessSize n)
    (accessType : AccessType) (va : VirtAddr) :
    left.loadInt n accessType va = right.loadInt n accessType va := by
  have positive : 0 < n := by rcases size with rfl | rfl | rfl | rfl <;> decide
  unfold Plain.loadInt Plain.readInt
  rw [same.translateVa]
  split
  · rfl
  · split
    · rfl
    · split
      · rfl
      · rename_i pa _ _
        -- A read depends on the bytes of its run.
        obtain ⟨status, dst⟩ := PhysMemory.read_congr positive
          (fun addr (_ : ByteStore.InRun pa n addr) => congrFun same.2 addr) 0
        simp only [status, dst]

/-- The words are the same. -/
theorem SameBytes.fetchAt (same : left.SameBytes right) : left.fetchAt = right.fetchAt := by
  funext va
  rw [Plain.fetchAt, Plain.fetchAt, same.loadInt (.inr (.inr (.inl rfl)))]

/-- Storing does the same to the bytes. -/
theorem SameBytes.storeInt (same : left.SameBytes right) (n : Nat) (va : VirtAddr)
    (value : BitVec (8 * n)) :
    Lifted SameBytes (fun _ => False) (left.storeInt n va value) (right.storeInt n va value) := by
  unfold Plain.storeInt
  rw [same.translateVa]
  split
  · exact .ok same
  · split
    · exact .error _
    · rename_i status pa _
      split
      · exact .ok same
      · -- A page is there exactly when its bytes are.
        have pages : left.physMemory.HasPage pa ↔ right.physMemory.HasPage pa := by
          rw [← PhysMemory.isSome_bytes, ← PhysMemory.isSome_bytes, same.2]
        have statuses : (left.physMemory.write pa value).1.status =
            (right.physMemory.write pa value).1.status := by
          rw [PhysMemory.write_status, PhysMemory.write_status]
          simp only [PhysMemory.accessStatus, pages]
        simp only [statuses]
        split
        · exact .ok same
        · rename_i ok
          -- Both writes succeed, and they put the same bytes in the same run.
          have leftBytes := (PhysMemory.write_ok (statuses.trans (not_not.mp ok))).1
          have rightBytes := (PhysMemory.write_ok (not_not.mp ok)).1
          exact .ok ⟨same.1, by rw [leftBytes, rightBytes, same.2]⟩

/-- Registers may change on both sides. -/
theorem sameCore_sameBytes : SameCore SameBytes where
  core same := same.1
  setCore same _ _ := ⟨rfl, same.2⟩

/-- A call does the same on both sides. -/
theorem SameBytes.call (same : left.SameBytes right) (instr : Instr) :
    Lifted SameBytes (fun _ => False) (call left instr) (call right instr) := by
  unfold RiscvSim.call
  cases dispatched : dispatch instr.id with
  | none => exact .error _
  | some handler =>
    -- Only loads and stores look beyond the registers.
    refine handler.exec_lifted sameCore_sameBytes instr same ?_ ?_
    · rintro n widen va rfl _
      have value := same.loadInt (dispatch_sized dispatched) .read va
      change Lifted _ _ ((left.loadInt n .read va).map fun res => (res, left))
        ((right.loadInt n .read va).map fun res => (res, right))
      rw [value]
      cases right.loadInt n .read va with
      | error why => exact .error why
      | ok res => exact .ok same
    · rintro n va value rfl _
      exact same.storeInt n va value

end Plain

namespace Prefetcher

/-- The machines are at the same place of the same block, over the same bytes. -/
def SameBytes (left right : Prefetcher) : Prop :=
  left.plain.SameBytes right.plain ∧ left.room = right.room

/-- The same result, up to where the bytes are kept. -/
def SameResult : SimResult Plain → SimResult Plain → Prop
  | .ok (leftStatus, left), .ok (rightStatus, right) =>
    leftStatus = rightStatus ∧ left.SameBytes right
  | .error left, .error right => left = right
  | _, _ => False

/-- Machines over the same bytes keep step. -/
theorem SameBytes.moves {left right : Prefetcher} (same : left.SameBytes right) :
    (step left).Both SameBytes SameResult (step right) := by
  obtain ⟨left, room⟩ := left
  obtain ⟨right, other⟩ := right
  obtain ⟨same, rooms⟩ := same
  dsimp only at same rooms
  subst rooms
  have pc : left.pc = right.pc := congrArg Core.pc same.1
  unfold step
  dsimp only
  -- The words and the program counter are the same, so both sides take the same branch.
  rw [same.fetchAt, pc]
  cases room with
  | none =>
    dsimp only
    cases Bb.decodeFrom right.fetchAt Bb.room right.pc with
    | error why => exact rfl
    | ok block => exact ⟨same, rfl⟩
  | some room =>
    cases room with
    | zero => exact ⟨same, rfl⟩
    | succ room =>
      dsimp only
      cases right.fetchAt right.pc with
      | error why => exact rfl
      | ok res =>
        dsimp only
        split
        · exact ⟨rfl, same⟩
        · -- Both execute the instruction of the word.
          have called := same.call (Instr.decode res.instrCode)
          generalize call left (Instr.decode res.instrCode) = leftCall at called ⊢
          generalize call right (Instr.decode res.instrCode) = rightCall at called ⊢
          cases called with
          | error why => exact rfl
          | excused _ never => exact never.elim
          | @ok flow leftAfter rightAfter after =>
            cases flow with
            | next => exact ⟨after, rfl⟩
            -- A handler returned, so both stop or both go on.
            | ret status =>
              dsimp only [Config.ofStatus]
              by_cases exit : status = .simExit
              · rw [if_pos exit, if_pos exit]
                exact ⟨rfl, after⟩
              · rw [if_neg exit, if_neg exit]
                by_cases ok : status = .ok
                · rw [if_neg (not_not.mpr ok), if_neg (not_not.mpr ok)]
                  exact ⟨after, rfl⟩
                · rw [if_pos ok, if_pos ok]
                  exact ⟨rfl, after⟩

end Prefetcher

namespace Simulator

/-- The caches are right about the memory and the control registers. -/
structure CachesCoherent (sim : Simulator) : Prop where
  tlbs : sim.TlbsCoherent
  blocks : sim.BlocksValid

/-- The same general purpose and control registers, and the same bytes in the same pages. -/
structure SameView (left right : Simulator) : Prop where
  gprFile : left.hart.gprFile = right.hart.gprFile
  csrFile : left.hart.csrFile = right.hart.csrFile
  bytes : left.physMemory.bytes = right.physMemory.bytes

/-- Whatever one simulation returns, the other returns in the same state. -/
def Agree (left right : Simulator) (startPc : VirtAddr) : Prop :=
  (∀ status after, left.Returns startPc (.ok (status, after)) → ∃ other,
    right.Returns startPc (.ok (status, other)) ∧ after.plain.SameBytes other.plain) ∧
  ∀ status after, right.Returns startPc (.ok (status, after)) → ∃ other,
    left.Returns startPc (.ok (status, other)) ∧ after.plain.SameBytes other.plain

/-- Caches that are right between simulations are right when the next one starts. -/
theorem CachesCoherent.valid {sim : Simulator} (coherent : sim.CachesCoherent)
    (startPc : VirtAddr) : (Config.start sim startPc).Valid none where
  tlbs := ⟨coherent.tlbs.read, coherent.tlbs.write, coherent.tlbs.fetch⟩
  blocks := coherent.blocks
  rest := rfl

/-- With caches that are right, what one simulation returns the other returns as well. -/
theorem returns_of_sameView {left right : Simulator} {startPc : VirtAddr}
    (leftCoherent : left.CachesCoherent) (rightCoherent : right.CachesCoherent)
    (view : left.SameView right) (leftQuiet : (Config.start left startPc).QuietRun)
    (rightQuiet : (Config.start right startPc).QuietRun) {status : SimStatus} {after : Simulator}
    (returned : left.Returns startPc (.ok (status, after))) :
    ∃ other, right.Returns startPc (.ok (status, other)) ∧ after.plain.SameBytes other.plain := by
  obtain ⟨n, stopped⟩ := (left.returns_iff startPc _).mp returned
  -- Starting a simulation makes the registers the same.
  have same : (left.start startPc).plain.SameBytes (right.start startPc).plain := by
    refine ⟨?_, view.bytes⟩
    simp only [Simulator.plain, Simulator.start, view.gprFile, view.csrFile]
  -- Both keep step with a machine without caches, and these two machines with each other.
  have leftStep := (leftCoherent.valid startPc).lockstep (n := n) leftQuiet
  have rightStep := (rightCoherent.valid startPc).lockstep (n := n) rightQuiet
  have middle := Transition.lockstep (n := n) (fun _ _ same => Prefetcher.SameBytes.moves same)
    (show Prefetcher.SameBytes ⟨(Config.start left startPc).sim.plain, none⟩
      ⟨(Config.start right startPc).sim.plain, none⟩ from ⟨same, rfl⟩)
  -- The result is carried from the left to the right over the two machines.
  rw [stopped] at leftStep
  obtain ⟨value, ahead, leftSame⟩ := leftStep.of_stop
  rw [ahead] at middle
  obtain ⟨other, behind, sameResult⟩ := middle.of_stop
  rw [behind] at rightStep
  obtain ⟨result, rightStopped, rightSame⟩ := rightStep.stop_of
  subst leftSame
  rw [← rightSame] at sameResult
  -- An abort is not the result that was returned.
  cases result with
  | error why => exact sameResult.elim
  | ok ending =>
    obtain ⟨rightStatus, other⟩ := ending
    obtain ⟨rfl, sameBytes⟩ := sameResult
    exact ⟨other, (right.returns_iff startPc _).mpr ⟨n, rightStopped⟩, sameBytes⟩

/-- The same view is one both ways. -/
theorem SameView.symm {left right : Simulator} (view : left.SameView right) :
    right.SameView left := ⟨view.gprFile.symm, view.csrFile.symm, view.bytes.symm⟩

/-- With caches that are right, quiet simulations from the same view agree. -/
theorem agree_of_coherent {left right : Simulator} {startPc : VirtAddr}
    (leftCoherent : left.CachesCoherent) (rightCoherent : right.CachesCoherent)
    (view : left.SameView right) (leftQuiet : (Config.start left startPc).QuietRun)
    (rightQuiet : (Config.start right startPc).QuietRun) : left.Agree right startPc :=
  ⟨fun _ _ => returns_of_sameView leftCoherent rightCoherent view leftQuiet rightQuiet,
    fun _ _ => returns_of_sameView rightCoherent leftCoherent view.symm rightQuiet leftQuiet⟩

end Simulator

end RiscvSim
