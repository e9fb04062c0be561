import RiscvSim.Proofs.Simulator.MappedSpace

/-! Programs cannot tell where their pages are placed in physical memory. -/

namespace RiscvSim

open Transition

/-- What is left of a core without the control registers, which no instruction reads. -/
def Core.visible (core : Core) : Core :=
  { core with hart := { core.hart with csrFile := {} } }

/-- A write of a register does the same without the control registers. -/
theorem Core.write_visible (core : Core) (idx : BitVec 8) (value : RegValue) :
    core.visible.write idx value = (core.write idx value).map Core.visible := by
  have same : core.visible.hart.gprFile = core.hart.gprFile := rfl
  rw [Core.write, Core.write, same]
  cases core.hart.gprFile.write idx value <;> rfl

/-- A handler computes nothing from the control registers. -/
def Handler.Blind : Handler → Prop
  | .compute res => ∀ core instr, res core.visible instr = res core instr
  | .jump newPc => ∀ core instr, newPc core.visible instr = newPc core instr
  | _ => True

/-- No handler of an instruction computes anything from the control registers. -/
theorem simInstr_blind {id : InstrId} {handler : Handler} (found : simInstr id = some handler) :
    handler.Blind := by
  unfold simInstr at found
  split at found <;> cases found <;>
    first
    | trivial
    | exact fun _ _ => rfl

/-- What is left of a result without the control registers. -/
def SimResult.visible {w : Nat} : SimResult (Flat w) → SimResult (Flat w)
  | .error why => .error why
  | .ok (status, flat) => .ok (status, { flat with toCore := flat.toCore.visible })

namespace Flat

variable {w : Nat}

/-- What a program sees of a hart and its address space. -/
def visible (flat : Flat w) : Flat w := { flat with toCore := flat.toCore.visible }

/-- A handler that is blind to the control registers does the same without them. -/
theorem exec_visible {handler : Handler} (blind : handler.Blind) (flat : Flat w) (instr : Instr) :
    handler.exec flat.visible instr =
      (handler.exec flat instr).map fun done => (done.1, done.2.visible) := by
  have core : Machine.core flat.visible = (Machine.core flat).visible := rfl
  have read (idx : BitVec 8) : (Machine.core flat).visible.read idx =
      (Machine.core flat).read idx := rfl
  cases handler with
  | status =>
    simp only [Handler.exec]
    cases instr.status <;> rfl
  | exit => rfl
  | compute res =>
    simp only [Handler.exec, simCompute, core, blind (Machine.core flat) instr,
      Core.write_visible]
    cases res (Machine.core flat) instr with
    | error why => rfl
    | ok value =>
      dsimp only
      cases (Machine.core flat).write instr.rd value <;> rfl
  | load n widen =>
    have loaded (va : VirtAddr) : Machine.loadInt n flat.visible va =
        (Machine.loadInt n flat va).map fun done => (done.1, done.2.visible) := rfl
    simp only [Handler.exec, simLoadInstr, core, read, loaded]
    cases (Machine.core flat).read instr.rs1 with
    | error why => rfl
    | ok vaBase =>
      dsimp only
      cases called : Machine.loadInt n flat (vaBase + instr.signedImm) with
      | error why => rfl
      | ok result =>
        obtain ⟨res, after⟩ := result
        dsimp only [Except.map]
        split
        · rfl
        · rw [show Machine.core after.visible = (Machine.core after).visible from rfl,
            Core.write_visible]
          cases (Machine.core after).write instr.rd (widen res.value) <;> rfl
  | store n =>
    have stored (va : VirtAddr) (value : BitVec (8 * n)) :
        Machine.storeInt n flat.visible va value =
          (Machine.storeInt n flat va value).map fun done => (done.1, done.2.visible) := by
      refine congrArg Except.ok ?_
      simp only [store]
      split
      · rfl
      · rw [show flat.visible.denial = flat.denial from rfl]
        split <;> rfl
    simp only [Handler.exec, simStoreInstr, core, read, stored]
    cases (Machine.core flat).read instr.rs1 with
    | error why => rfl
    | ok vaBase =>
      cases (Machine.core flat).read instr.rs2 with
      | error why => rfl
      | ok value =>
        dsimp only
        cases Machine.storeInt n flat (vaBase + instr.signedImm) (value.setWidth (8 * n)) with
        | error why => rfl
        | ok result =>
          obtain ⟨status, after⟩ := result
          dsimp only [Except.map]
          split <;> rfl
  | jump newPc =>
    simp only [Handler.exec, simJump, core, blind (Machine.core flat) instr, Core.write_visible]
    cases newPc (Machine.core flat) instr with
    | error why => rfl
    | ok target =>
      dsimp only
      split
      · rfl
      · rw [show (Machine.core flat).visible.pc = (Machine.core flat).pc from rfl]
        cases (Machine.core flat).write instr.rd ((Machine.core flat).pc + 4) <;> rfl
  | branch cmp =>
    simp only [Handler.exec, simCondBranch, core, read]
    cases (Machine.core flat).read instr.rs1 with
    | error why => rfl
    | ok left =>
      cases (Machine.core flat).read instr.rs2 with
      | error why => rfl
      | ok right =>
        dsimp only
        split
        · rw [show (Machine.core flat).visible.pc = (Machine.core flat).pc from rfl]
          split <;> rfl
        · rfl

/-- A step does the same without the control registers, up to these. -/
theorem step_visible (flat : Flat w) :
    (step flat).Both (fun left right => right = left.visible)
      (fun left right => right = left.visible) (step flat.visible) := by
  have fetched : flat.visible.fetchAt flat.visible.pc = flat.fetchAt flat.pc := rfl
  rw [step, step, fetched]
  cases flat.fetchAt flat.pc with
  | error why => exact rfl
  | ok res =>
    dsimp only
    split
    · exact rfl
    · simp only [call]
      cases dispatched : dispatch (Instr.decode res.instrCode).id with
      | none => exact rfl
      | some handler =>
        have blind := simInstr_blind (simInstr_of_dispatch dispatched)
        dsimp only
        rw [exec_visible blind]
        cases handler.exec flat (Instr.decode res.instrCode) with
        | error why => exact rfl
        | ok done =>
          obtain ⟨flow, after⟩ := done
          cases flow with
          | next => exact rfl
          | ret status =>
            simp only [Except.map, Config.ofStatus]
            split
            · exact rfl
            · split <;> exact rfl

/-- A run goes through the same states without the control registers, to the same results. -/
theorem run_visible (flat : Flat w) (n : Nat) :
    (run step n flat).Both (fun left right => right = left.visible)
      (fun left right => right = left.visible) (run step n flat.visible) :=
  lockstep (fun left _ same => same ▸ step_visible left) rfl

/-- The words ahead and the data of an instruction are the same for what the program sees. -/
theorem accesses_visible (flat : Flat w) :
    flat.visible.ahead = flat.ahead ∧ flat.visible.dataVa = flat.dataVa := by
  refine ⟨rfl, ?_⟩
  have fetched : flat.visible.fetchAt flat.visible.pc = flat.fetchAt flat.pc := rfl
  rw [dataVa, dataVa, fetched]
  cases flat.fetchAt flat.pc with
  | error why => rfl
  | ok res =>
    dsimp only
    split
    · rfl
    · congr 1

/-- A program stays calm when it cannot see a difference. -/
theorem Calm.of_visible {flat other : Flat w} (calm : flat.Calm)
    (same : other.visible = flat.visible) : other.Calm := by
  -- What the other run leads to looks like what this one leads to.
  have twin {n : Nat} {after : Flat w} (led : run step n other = .next after) :
      ∃ before, run step n flat = .next before ∧ before.visible = after.visible := by
    have left := run_visible other n
    have right := run_visible flat n
    rw [same] at left
    rw [led] at left
    obtain ⟨seen, ran, rfl⟩ := left.of_next
    rw [ran] at right
    obtain ⟨before, led', same'⟩ := right.next_of
    exact ⟨before, led', same'.symm⟩
  have ahead {before after : Flat w} (alike : before.visible = after.visible) :
      after.ahead = before.ahead := by
    rw [← (accesses_visible after).1, ← alike, (accesses_visible before).1]
  have dataVa {before after : Flat w} (alike : before.visible = after.visible) :
      after.dataVa = before.dataVa := by
    rw [← (accesses_visible after).2, ← alike, (accesses_visible before).2]
  have bytes {before after : Flat w} (alike : before.visible = after.visible) :
      before.bytes = after.bytes := by
    have seen := congrArg Flat.bytes alike
    exact seen
  have denial {before after : Flat w} (alike : before.visible = after.visible) :
      before.denial = after.denial := by
    have denied := congrArg Flat.denial alike
    exact denied
  refine ⟨fun n after led => ?_, fun n after va led => ?_, ?_⟩
  · obtain ⟨before, led', alike⟩ := twin led
    exact ahead alike ▸ calm.fetches n before led'
  · obtain ⟨before, led', alike⟩ := twin led
    exact dataVa alike ▸ calm.accesses n before va led'
  · intro m n earlier later after order earlierLed laterLed moved
    obtain ⟨before, led, alike⟩ := twin earlierLed
    obtain ⟨middle, middleLed, middleAlike⟩ := twin laterLed
    have moved' : run step (n + 1) other = .next after := (run_succ laterLed).trans moved
    obtain ⟨last, lastLed, lastAlike⟩ := twin moved'
    have step' : step middle = .next last := (run_succ middleLed).symm.trans lastLed
    have kept := calm.code m n before middle last order led middleLed step'
    rw [ahead alike]
    rwa [bytes lastAlike, bytes middleAlike, denial middleAlike] at kept

/-- A program comes to what it would come to if it could not see a difference. -/
theorem stops_of_visible {flat other : Flat w} (same : other.visible = flat.visible) {n : Nat}
    {value : SimResult (Flat w)} (stopped : run step n flat = .stop value) :
    ∃ result, run step n other = .stop result ∧ result.visible = value.visible := by
  have left := run_visible flat n
  have right := run_visible other n
  rw [stopped, ← same] at left
  obtain ⟨seen, ran, rfl⟩ := left.of_stop
  rw [ran] at right
  obtain ⟨result, otherStopped, alike⟩ := right.stop_of
  exact ⟨result, otherStopped, alike.symm⟩

end Flat

/-- A new simulator that translates by tables, which were made for pages that no others share. -/
structure Simulator.Guest (levels : Nat) (history : List MapCall) (sim : Simulator) : Prop where
  tables : ∃ mode first last mapper, Built mode first last history mapper sim.physMemory ∧
    modeToLevels mode = .ok levels ∧ last.toNat ≤ 2 ^ 44 ∧
    sim.hart.csrFile.satp64.mode = mode ∧ sim.hart.csrFile.satp64.ppn = first
  ppns : ∀ call ∈ history, call.ppn.toNat < 2 ^ 44
  unshared : Unshared levels history
  fresh : sim.Fresh

namespace Simulator.Guest

variable {levels : Nat} {history otherHistory : List MapCall} {sim other : Simulator}
  {startPc : VirtAddr}

/-- A calm guest runs on the address space that was mapped for it. -/
theorem refinesFlat (guest : sim.Guest levels history)
    (calm : ((sim.start startPc).plain.mapped levels history).Calm) :
    (sim.start startPc).plain.flat (12 + 9 * levels) =
        (sim.start startPc).plain.mapped levels history ∧
      sim.RefinesFlat (12 + 9 * levels) startPc := by
  obtain ⟨mode, first, last, mapper, built, translating, small, selected⟩ := guest.tables
  have same : (sim.start startPc).plain.flat (12 + 9 * levels) = _ :=
    Built.flat_eq built translating small selected guest.ppns
  have space : (sim.start startPc).plain.Space (12 + 9 * levels) :=
    built.space_of_unshared translating small selected guest.ppns guest.unshared
  exact ⟨same, Simulator.refinesFlat_of_calm guest.fresh space (same ▸ calm)⟩

/-- What a guest returns, another guest returns that sees the same. -/
theorem returns_of_visible (guest : sim.Guest levels history)
    (twin : other.Guest levels otherHistory)
    (same : ((other.start startPc).plain.mapped levels otherHistory).visible =
      ((sim.start startPc).plain.mapped levels history).visible)
    (calm : ((sim.start startPc).plain.mapped levels history).Calm)
    {result : SimResult Simulator} (returned : sim.Returns startPc result) :
    ∃ otherResult, other.Returns startPc otherResult ∧
      (otherResult.plain.flat (12 + 9 * levels)).visible =
        (result.plain.flat (12 + 9 * levels)).visible := by
  obtain ⟨flat, refines⟩ := guest.refinesFlat calm
  obtain ⟨otherFlat, otherRefines⟩ := twin.refinesFlat (calm.of_visible same)
  obtain ⟨n, stopped⟩ := (refines.returns _).mp ⟨result, returned, rfl⟩
  rw [← flat, ← otherFlat] at same
  obtain ⟨value, otherStopped, alike⟩ := Flat.stops_of_visible same stopped
  obtain ⟨otherResult, otherReturned, rfl⟩ := (otherRefines.returns value).mpr ⟨n, otherStopped⟩
  exact ⟨otherResult, otherReturned, alike⟩

/-- Guests that see the same return the same, wherever and however their pages were mapped. -/
theorem placement_hidden (guest : sim.Guest levels history)
    (twin : other.Guest levels otherHistory)
    (same : ((other.start startPc).plain.mapped levels otherHistory).visible =
      ((sim.start startPc).plain.mapped levels history).visible)
    (calm : ((sim.start startPc).plain.mapped levels history).Calm)
    (value : SimResult (Flat (12 + 9 * levels))) :
    (∃ result, sim.Returns startPc result ∧
        (result.plain.flat (12 + 9 * levels)).visible = value) ↔
      ∃ result, other.Returns startPc result ∧
        (result.plain.flat (12 + 9 * levels)).visible = value := by
  constructor
  · rintro ⟨result, returned, rfl⟩
    exact guest.returns_of_visible twin same calm returned
  · rintro ⟨result, returned, rfl⟩
    exact twin.returns_of_visible guest same.symm (calm.of_visible same) returned

end Simulator.Guest

/-- Programs see nothing of a page that is mapped with no right of theirs beside their own. -/
theorem Plain.mapped_refused {levels : Nat} {history : List MapCall} {call : MapCall}
    (plain other : Plain) (apart : mappedBy levels history (call.key levels) = none)
    (refused : ∀ accessType,
      admits plain.hart.csrFile.mstatus64 .user accessType call.mapping.flags = false)
    (cores : other.toCore.visible = plain.toCore.visible)
    (mstatus : other.hart.csrFile.mstatus64 = plain.hart.csrFile.mstatus64)
    (pages : ∀ key mapping, mappedBy levels history key = some mapping → ∀ va : VirtAddr,
      other.physMemory.bytes (mapping.ppn * 4096#64 + va % 4096#64) =
        plain.physMemory.bytes (mapping.ppn * 4096#64 + va % 4096#64)) :
    (other.mapped levels history).visible = (plain.mapped levels (call :: history)).visible := by
  -- A key that is not the page's was mapped by the others alike.
  have keys (key : Nat) : mappedBy levels (call :: history) key = mappedBy levels history key ∨
      mappedBy levels history key = none ∧
        mappedBy levels (call :: history) key = some call.mapping := by
    simp only [mappedBy]
    split
    · by_cases here : key = call.key levels
      · exact .inr (by rw [here, Function.update_self]; exact ⟨apart, rfl⟩)
      · exact .inl (by rw [Function.update_of_ne here])
    · exact .inl rfl
  have present {key : Nat} {mapping : MemoryMapping}
      (mapped : mappedBy levels history key = some mapping) :
      other.physMemory.HasPage (mapping.ppn * 4096#64) ↔
        plain.physMemory.HasPage (mapping.ppn * 4096#64) := by
    have same := pages key mapping mapped 0
    rw [show (0 : VirtAddr) % 4096#64 = 0#64 from rfl, BitVec.add_zero] at same
    rw [← PhysMemory.isSome_bytes, ← PhysMemory.isSome_bytes, same]
  have denial : (other.mapped levels history).denial =
      (plain.mapped levels (call :: history)).denial := by
    funext accessType addr
    simp only [mapped, mstatus]
    rcases keys (addr.toNat / 4096) with same | ⟨none, same⟩
    · rw [same]
      cases known : mappedBy levels history (addr.toNat / 4096) with
      | none => rfl
      | some mapping => simp only [present known]
    · simp only [none, same, refused, Bool.false_eq_true, if_false]
  have bytes : (other.mapped levels history).bytes =
      (plain.mapped levels (call :: history)).bytes := by
    funext addr
    simp only [mapped, mstatus]
    rcases keys (addr.toNat / 4096) with same | ⟨none, same⟩
    · rw [same]
      cases known : mappedBy levels history (addr.toNat / 4096) with
      | none => rfl
      | some mapping => simp only [pages _ _ known]
    · have unseen : AccessType.all.any
          (admits plain.hart.csrFile.mstatus64 .user · call.mapping.flags) = false := by
        simp only [refused]
        rfl
      simp only [none, same, unseen, Bool.false_eq_true, if_false]
  have same := congr (congr (congrArg Flat.mk cores) denial) bytes
  exact same

/-- The call that maps a page for the supervisor alone. -/
def supervisorCall : MapCall := ⟨⟨0x02⟩, 6, 101, .ok⟩

namespace Simulator.Guest

/-- The same program with and without the page of a supervisor, in tables at different places. -/
theorem placement_hidden_page : ∃ mapper memory other otherMemory,
    Built .sv39 1 8 [supervisorCall, programCall] mapper memory ∧
      Built .sv39 2 9 [programCall] other otherMemory ∧
      ∀ value : SimResult (Flat 39),
        (∃ result, (Simulator.withTables 1 memory).Returns 0x5000 result ∧
            (result.plain.flat 39).visible = value) ↔
        ∃ result, (Simulator.withTables 2 otherMemory).Returns 0x5000 result ∧
          (result.plain.flat 39).visible = value := by
  -- The run of the program is checked in the first tables.
  have checked : (buildTables .sv39 1 8 (holdingProgram 0x64000).physMemory
      [supervisorCall, programCall]).any (fun made =>
        let first := ((withTables 1 made.2).start 0x5000).plain.mapped 3
          [supervisorCall, programCall]
        (run Flat.step 5 first).stops &&
          (visited Flat.step 5 first).all (Flat.keepsWords (programWords 0x5000))) = true := by
    decide +kernel
  have made : (buildTables .sv39 2 9 (holdingProgram 0x64000).physMemory [programCall]).isSome =
      true := by
    decide +kernel
  obtain ⟨⟨mapper, memory⟩, computed, passed⟩ := (Option.any_eq_true _ _).mp checked
  obtain ⟨⟨other, otherMemory⟩, otherComputed⟩ := Option.isSome_iff_exists.mp made
  have built := Built.of_buildTables computed
  have otherBuilt := Built.of_buildTables otherComputed
  rw [Bool.and_eq_true] at passed
  have translating : modeToLevels .sv39 = .ok 3 := rfl
  refine ⟨mapper, memory, other, otherMemory, built, otherBuilt, fun value => ?_⟩
  have unshared : Unshared 3 [supervisorCall, programCall] := by
    intro call member other otherMember _ _ same
    rcases List.mem_pair.mp member with rfl | rfl <;>
      rcases List.mem_pair.mp otherMember with rfl | rfl
    · rfl
    · exact absurd same (by decide)
    · exact absurd same (by decide)
    · rfl
  have guest : (withTables 1 memory).Guest 3 [supervisorCall, programCall] :=
    { tables := ⟨_, _, _, _, built, translating, by decide, rfl, rfl⟩
      ppns := by decide
      unshared := unshared
      fresh := ⟨rfl, rfl, rfl, rfl⟩ }
  have twin : (withTables 2 otherMemory).Guest 3 [programCall] :=
    { tables := ⟨_, _, _, _, otherBuilt, translating, by decide, rfl, rfl⟩
      ppns := by decide
      unshared := fun call member other otherMember _ _ _ => by
        rw [List.mem_singleton.mp member, List.mem_singleton.mp otherMember]
      fresh := ⟨rfl, rfl, rfl, rfl⟩ }
  refine guest.placement_hidden twin (Plain.mapped_refused _ _ ?_ ?_ rfl rfl ?_)
    (Flat.calm_of_checked _ 5 passed.1 passed.2) value
  · decide
  · intro accessType
    have refused : admits {} .user accessType supervisorCall.mapping.flags = false := by
      cases accessType <;> decide
    exact refused
  · -- The page of the program lies outside of both regions of tables.
    intro key mapping mapped va
    obtain ⟨call, member, _, _, rfl⟩ := mem_of_mappedBy mapped
    cases List.mem_singleton.mp member
    have page : (programCall.mapping.ppn * 4096#64 + va % 4096#64).toNat / 4096 = 100 := by
      rw [ElfLoader.toNat_inPage (by decide), show programCall.mapping.ppn.toNat = 100 from rfl]
      omega
    exact (bytes_buildTables otherComputed translating (by decide) (by rw [page]; decide)).trans
      (bytes_buildTables computed translating (by decide) (by rw [page]; decide)).symm

end Simulator.Guest

end RiscvSim
