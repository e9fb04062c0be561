import RiscvSim.Proofs.Simulator.AddressSpace
import RiscvSim.Proofs.Simulator.Refinement

/-! With its caches empty at first, the simulator does what an interpreter without tables does. -/

namespace RiscvSim

open Transition
open PhysMemory (Fits)

/-- The words that are fetched for a block at an aligned address are aligned. -/
theorem Bb.aligned_of_mem_fetchVas {fetchAt : VirtAddr → Except Abort FetchResult} {room : Nat}
    {va word : VirtAddr} (member : word ∈ fetchVas fetchAt room va)
    (aligned : va.toNat % 4 = 0) : word.toNat % 4 = 0 := by
  -- By induction on the room, each word is four bytes behind the one before.
  induction room generalizing va with
  | zero => cases member
  | succ room ih =>
    rw [fetchVas, List.mem_cons] at member
    rcases member with rfl | later
    · exact aligned
    · split at later
      · cases later
      · split at later
        · cases later
        · split at later
          · cases later
          · refine ih later ?_
            rw [BitVec.toNat_add, show instrCodeSize.toNat = 4 from rfl]
            omega

namespace Flat

variable {w : Nat} {flat after : Flat w}

/-- The addresses of the words that are fetched for a block at the program counter. -/
def ahead (flat : Flat w) : List VirtAddr := Bb.fetchVas flat.fetchAt Bb.room flat.pc

/-- The address of the data that the instruction at the program counter accesses. -/
def dataVa (flat : Flat w) : Option VirtAddr :=
  match flat.fetchAt flat.pc with
  | .error _ => none
  | .ok res =>
    if res.status ≠ .ok then none
    else
      (dispatch (Instr.decode res.instrCode).id).bind fun handler =>
        handler.dataVa flat.toCore (Instr.decode res.instrCode)

/-- A run that does not change its code, and stays away from the page that marks empty entries. -/
structure Calm (first : Flat w) : Prop where
  /-- No word of a block is fetched from that page. -/
  fetches : ∀ n flat, run step n first = .next flat → ∀ va ∈ flat.ahead, pageBase va ≠ poisonVa
  /-- No value is loaded from that page or stored to it. -/
  accesses : ∀ n flat va, run step n first = .next flat → flat.dataVa = some va →
    pageBase va ≠ poisonVa
  /-- No byte of a word changes that was fetched for a block before. -/
  code : ∀ m n earlier flat after, m ≤ n → run step m first = .next earlier →
    run step n first = .next flat → step flat = .next after → ∀ va ∈ earlier.ahead,
    flat.denial .fetch (va.setWidth w) = none → ∀ i < 4,
      after.bytes (va.setWidth w + BitVec.ofNat w i) = flat.bytes (va.setWidth w + BitVec.ofNat w i)

/-- An instruction is executed at an aligned address. -/
theorem aligned_of_step (next : step flat = .next after) : flat.pc.toNat % 4 = 0 := by
  by_contra misaligned
  have masked : flat.pc &&& addrAlignMask 4 ≠ 0 := (pcAlignMask_iff flat.pc).mpr misaligned
  have failed : flat.load 4 .fetch flat.pc = ⟨.simUnalignedLoad, 0⟩ := by rw [load, if_pos masked]
  simp only [step, fetchAt, failed] at next
  cases next

end Flat

variable {w : Nat}

/-- Words that are not there have no bytes, and stay so. -/
theorem PhysMemory.bytes_of_missing {memory : PhysMemory} {pa : PhysAddr} {n i : Nat}
    (missing : ¬memory.HasPage pa) (fits : Fits pa n) (inside : i < n) :
    memory.bytes (pa + BitVec.ofNat 64 i) = none := by
  rw [← Option.not_isSome_iff_eq_none, isSome_bytes, HasPage, (address_in_page fits inside).1]
  exact missing

/-- A word of RAM stays when it stays in the address space. -/
theorem Plain.Space.bytes_of_flat {left right : Plain} (spaceLeft : left.Space w)
    (spaceRight : right.Space w) (ram : right.physMemory.ram = left.physMemory.ram)
    {accessType : AccessType} {va pa : VirtAddr} {n : Nat}
    (found : left.translateVa accessType va = .ok ⟨.ok, pa⟩)
    (translation : right.translateVa accessType va = left.translateVa accessType va)
    (fits : Fits va n)
    (same : (left.flat w).denial accessType (va.setWidth w) = none → ∀ i < n,
      (right.flat w).bytes (va.setWidth w + BitVec.ofNat w i) =
        (left.flat w).bytes (va.setWidth w + BitVec.ofNat w i)) {i : Nat} (inside : i < n) :
    right.physMemory.bytes (pa + BitVec.ofNat 64 i) =
      left.physMemory.bytes (pa + BitVec.ofNat 64 i) := by
  have page : right.physMemory.HasPage pa ↔ left.physMemory.HasPage pa := by
    rw [PhysMemory.HasPage, ram]
    exact Iff.rfl
  unfold Fits at fits
  by_cases here : left.physMemory.HasPage pa
  · -- Both bytes are those of the address space behind the same translation.
    have reachedLeft := spaceLeft.reach_add (reach_ok_iff.mpr ⟨found, here⟩) (i := i) (by omega)
    have reachedRight := spaceRight.reach_add
      (reach_ok_iff.mpr ⟨translation.trans found, page.mpr here⟩) (i := i) (by omega)
    rw [← spaceRight.flat_bytes reachedRight.1, ← spaceLeft.flat_bytes reachedLeft.1,
      reachedLeft.2]
    refine same ?_ i inside
    rw [spaceLeft.flat_denial, reach_ok_iff.mpr ⟨found, here⟩]
  · have offset := ((left.pagewise_translateVa accessType).page_of found).2
    have placeFits : Fits pa n := by
      unfold Fits
      rwa [← toNat_pageOffset, offset, toNat_pageOffset]
    rw [PhysMemory.bytes_of_missing here placeFits inside,
      PhysMemory.bytes_of_missing (mt page.mp here) placeFits inside]

namespace Config

variable {cfg after : Config} {first : Flat w}

/-- The words ahead are those of the address space. -/
theorem fetchVas_flat (space : cfg.sim.plain.Space w) :
    cfg.sim.fetchVas = (cfg.sim.plain.flat w).ahead := by
  have same : cfg.sim.fetchAt = (cfg.sim.plain.flat w).fetchAt := funext space.fetchAt
  rw [Simulator.fetchVas, Flat.ahead, same]
  rfl

/-- The current entry is a status, or the instruction at the program counter. -/
theorem Valid.entry {room : Option Nat} (valid : cfg.Valid room) {instr : Instr}
    {rest : List Instr} (here : cfg.rest = some (instr :: rest)) :
    (∃ status, instr = Instr.statusInstr status) ∨
      ∃ res, cfg.sim.fetchAt cfg.sim.pc = .ok res ∧ res.status = .ok ∧
        instr = Instr.decode res.instrCode := by
  obtain ⟨_, _, entries⟩ := valid
  match room with
  | none => cases here.symm.trans entries
  | some 0 =>
    -- A full block ends in a status.
    obtain ⟨block, stale, inside, decoded, _⟩ := entries
    cases decoded
    cases here.symm.trans inside
    exact .inl ⟨_, rfl⟩
  | some (room + 1) =>
    obtain ⟨block, stale, inside, decoded, _⟩ := entries
    cases Bb.start_of_decodeFrom decoded with
    | fault fetched failed =>
      cases here.symm.trans inside
      exact .inl ⟨_, rfl⟩
    | last fetched ok ends =>
      cases here.symm.trans inside
      exact .inr ⟨_, fetched, ok, rfl⟩
    | more fetched ok goesOn later words =>
      cases here.symm.trans inside
      exact .inr ⟨_, fetched, ok, rfl⟩

/-- The data that the current entry accesses is that of the instruction. -/
theorem Valid.dataVa_flat {room : Option Nat} (valid : cfg.Valid room)
    (space : cfg.sim.plain.Space w) {instr : Instr} {rest : List Instr} {handler : Handler}
    {va : VirtAddr} (here : cfg.rest = some (instr :: rest))
    (dispatched : dispatch instr.id = some handler)
    (access : handler.dataVa cfg.sim.toCore instr = some va) :
    (cfg.sim.plain.flat w).dataVa = some va := by
  rcases valid.entry here with ⟨status, rfl⟩ | ⟨res, fetched, ok, rfl⟩
  · -- A status accesses nothing.
    cases (show dispatch (Instr.statusInstr status).id = some .status from rfl).symm.trans dispatched
    cases access
  · have word : (cfg.sim.plain.flat w).fetchAt (cfg.sim.plain.flat w).pc = .ok res :=
      (space.fetchAt _).symm.trans fetched
    simp only [Flat.dataVa, word, if_neg (not_not.mpr ok), dispatched, Option.bind_some]
    exact access

/-- A step that takes one on the address space, and keeps the tables. -/
structure Advances (w : Nat) (cfg after : Config) : Prop where
  flat : Flat.step (cfg.sim.plain.flat w) = .next (after.sim.plain.flat w)
  space : after.sim.plain.Space w
  csrFile : after.sim.hart.csrFile = cfg.sim.hart.csrFile
  ram : after.sim.physMemory.ram = cfg.sim.physMemory.ram
  tables : ∀ va, ∀ pte ∈ tableEntries cfg.sim.physMemory cfg.sim.hart.csrFile.satp64 va, ∀ addr,
    ByteStore.InRun pte pteBytes addr →
      after.sim.physMemory.bytes addr = cfg.sim.physMemory.bytes addr

/-- An entry that is executed without stopping leaves everything, or takes a step. -/
theorem Valid.advances_exec {room : Option Nat} (valid : cfg.Valid room)
    (space : cfg.sim.plain.Space w)
    (accesses : ∀ va, (cfg.sim.plain.flat w).dataVa = some va → pageBase va ≠ poisonVa)
    {instr : Instr} {rest : List Instr} {handler : Handler} {flow : Flow} {sim : Simulator}
    {entries : Option (List Instr)} (here : cfg.rest = some (instr :: rest))
    (dispatched : dispatch instr.id = some handler)
    (executed : handler.exec cfg.sim instr = .ok (flow, sim))
    (goesOn : flow = .next ∨ flow = .ret .ok) :
    sim.plain = cfg.sim.plain ∨ Advances w cfg ⟨sim, entries⟩ := by
  rcases valid.entry here with ⟨status, rfl⟩ | ⟨res, fetched, ok, rfl⟩
  · cases (show dispatch (Instr.statusInstr status).id = some .status from rfl).symm.trans dispatched
    simp only [Handler.exec, Instr.status_statusInstr] at executed
    cases executed
    exact .inl rfl
  · right
    -- The handler does what it does on a plain machine, and writes no byte of a table.
    have lifted : Lifted (Simulator.Tracks cfg.sim fun memory => ∀ va,
        ∀ pte ∈ tableEntries cfg.sim.physMemory cfg.sim.hart.csrFile.satp64 va, ∀ addr,
          ByteStore.InRun pte pteBytes addr →
          memory.bytes addr = cfg.sim.physMemory.bytes addr) (fun _ => False) _ _ :=
      valid.tlbs.exec (fun _ _ _ _ _ => rfl) (dispatch_sized dispatched)
        (Instr.decode res.instrCode)
        (fun va access poison => accesses va (valid.dataVa_flat space here dispatched access) poison)
        (fun _ va pa value _ _ found written => space.tables_write found written)
    rw [executed] at lifted
    obtain ⟨plain, executedPlain, tracks⟩ := lifted.of_ok
    have called := space.call (Instr.decode res.instrCode)
    simp only [call, dispatched, executedPlain] at called
    obtain ⟨flat, calledFlat, kept, rfl⟩ := called.of_ok
    have same := tracks.plain
    subst same
    refine ⟨?_, kept, tracks.csrFile, tracks.ram, tracks.good⟩
    -- The hart without tables fetches the same word, and its handler does the same.
    have word : (cfg.sim.plain.flat w).fetchAt (cfg.sim.plain.flat w).pc = .ok res :=
      (space.fetchAt _).symm.trans fetched
    simp only [Flat.step, word, if_neg (not_not.mpr ok), call, dispatched, calledFlat]
    rcases goesOn with rfl | rfl <;> rfl

/-- A step that goes on leaves everything, or takes a step on the address space. -/
theorem Valid.advances {room : Option Nat} (valid : cfg.Valid room)
    (space : cfg.sim.plain.Space w)
    (accesses : ∀ va, (cfg.sim.plain.flat w).dataVa = some va → pageBase va ≠ poisonVa)
    (next : step cfg = .next after) :
    after.sim.plain = cfg.sim.plain ∨ Advances w cfg after := by
  cases step_next next with
  | found boundary found =>
    have same := (Simulator.findBb_spec found).2.2
    left
    rw [Simulator.plain, Simulator.plain, same.1, same.2]
  | called here dispatched executed =>
    exact valid.advances_exec space accesses here dispatched executed (.inl rfl)
  | returned here dispatched executed =>
    exact valid.advances_exec space accesses here dispatched executed (.inr rfl)

/-- A point of a simulation that an interpreter without tables comes to. -/
structure Flattened (first : Flat w) (cfg : Config) : Prop where
  valid : ∃ room, cfg.Valid room
  space : cfg.sim.plain.Space w
  /-- The words that cached blocks hold could be fetched before. -/
  reached : ∃ m, run Flat.step m first = .next (cfg.sim.plain.flat w) ∧
    ∀ va, cfg.sim.Holds va → ∃ k earlier, k ≤ m ∧ run Flat.step k first = .next earlier ∧
      va ∈ earlier.ahead

namespace Flattened

variable (flattened : cfg.Flattened first) (calm : first.Calm)

include flattened calm

/-- No instruction accesses the page that marks empty entries. -/
theorem accesses : ∀ va, (cfg.sim.plain.flat w).dataVa = some va → pageBase va ≠ poisonVa := by
  obtain ⟨m, led, _⟩ := flattened.reached
  exact fun va => calm.accesses m _ va led

/-- The step of a calm run is quiet, whatever the caches hold of it. -/
theorem quiet : cfg.Quiet := by
  obtain ⟨room, valid⟩ := flattened.valid
  have space := flattened.space
  have accesses := flattened.accesses calm
  obtain ⟨m, led, words⟩ := flattened.reached
  refine ⟨fun boundary va member => ?_, fun instr rest handler va here dispatched access =>
    accesses va (valid.dataVa_flat space here dispatched access), ?_, ?_⟩
  · rw [fetchVas_flat space] at member
    exact calm.fetches m _ led va member
  · intro after next va pte member addr inside
    rcases valid.advances space accesses next with same | advances
    · rw [show after.sim.physMemory = _ from congrArg Plain.physMemory same]
      rfl
    · exact advances.tables va pte member addr inside
  · intro after next va pa held found addr inside
    rcases valid.advances space accesses next with same | advances
    · rw [show after.sim.physMemory = _ from congrArg Plain.physMemory same]
      rfl
    · obtain ⟨k, earlier, order, ledEarlier, member⟩ := words va held
      -- The word was fetched ahead of an instruction that was executed, so it is aligned.
      have aligned : va.toNat % 4 = 0 := by
        refine Bb.aligned_of_mem_fetchVas member ?_
        obtain ⟨later, ledLater⟩ := prefix_next (Nat.succ_le_succ order)
          ((run_succ led).trans advances.flat)
        exact Flat.aligned_of_step ((run_succ ledEarlier).symm.trans ledLater)
      have fits : Fits va 4 := by
        unfold Fits
        omega
      obtain ⟨i, bound, rfl⟩ := (ByteStore.inRun_iff (by decide)).mp inside
      exact space.bytes_of_flat advances.space advances.ram found
        (Simulator.translateVa_congr advances.csrFile advances.tables .fetch va) fits
        (calm.code k m earlier _ _ order ledEarlier led advances.flat va member) bound

/-- The next point is one that the interpreter comes to as well. -/
theorem kept (stepped : step cfg = .next after) : after.Flattened first := by
  have quiet := flattened.quiet calm
  have accesses := flattened.accesses calm
  obtain ⟨room, valid⟩ := flattened.valid
  obtain ⟨m, led, words⟩ := flattened.reached
  have together := valid.moves quiet
  rw [stepped] at together
  obtain ⟨state, _, validAfter, _, held⟩ := together.of_next
  -- The words of a block that was just found are ahead of the current instruction.
  have now (va : VirtAddr) (holds : after.sim.Holds va) : ∃ k earlier, k ≤ m ∧
      run Flat.step k first = .next earlier ∧ va ∈ earlier.ahead := by
    rcases held va holds with old | ⟨_, new⟩
    · exact words va old
    · rw [fetchVas_flat flattened.space] at new
      exact ⟨m, _, Nat.le_refl m, led, new⟩
  rcases valid.advances flattened.space accesses stepped with same | advances
  · exact ⟨⟨_, validAfter⟩, same ▸ flattened.space, m, same ▸ led, now⟩
  · refine ⟨⟨_, validAfter⟩, advances.space, m + 1, (run_succ led).trans advances.flat, ?_⟩
    intro va holds
    obtain ⟨k, earlier, order, rest⟩ := now va holds
    exact ⟨k, earlier, Nat.le_succ_of_le order, rest⟩

end Flattened

/-- Every point of a calm run is one that the interpreter comes to. -/
theorem flattened_of_run {sim : Simulator} {startPc : VirtAddr} (fresh : sim.Fresh)
    (space : (sim.start startPc).plain.Space w)
    (calm : ((sim.start startPc).plain.flat w).Calm) {n : Nat}
    (led : run step n (start sim startPc) = .next cfg) :
    cfg.Flattened ((sim.start startPc).plain.flat w) := by
  obtain ⟨valid, empty⟩ := valid_of_fresh fresh startPc
  refine Transition.invariant
    (h := fun _ cfg => cfg.Flattened ((sim.start startPc).plain.flat w)) ?_ ?_ led
  · exact ⟨⟨none, valid⟩, space, 0, rfl, fun va held => (empty va held).elim⟩
  · exact fun _ _ _ _ _ flattened stepped => flattened.kept calm stepped

end Config

/-- A run with the tables is one with the address space, in step. -/
theorem Plain.Space.lockstep {plain : Plain} (space : plain.Space w) (n : Nat) :
    (run Plain.step n plain).Both (Plain.Flattens w) (fun left right => left.flat w = right)
      (run Flat.step n (plain.flat w)) := by
  refine Transition.lockstep ?_ (show Plain.Flattens w plain _ from ⟨space, rfl⟩)
  rintro left _ ⟨space, rfl⟩
  exact space.step

/-- A simulation goes through the states of an interpreter without tables, to the same results. -/
structure Simulator.RefinesFlat (w : Nat) (sim : Simulator) (startPc : VirtAddr) : Prop where
  visits : ∀ n cfg, run Config.step n (Config.start sim startPc) = .next cfg →
    ∃ m, run Flat.step m ((sim.start startPc).plain.flat w) = .next (cfg.sim.plain.flat w)
  returns : ∀ value, (∃ result, sim.Returns startPc result ∧ result.plain.flat w = value) ↔
    ∃ m, run Flat.step m ((sim.start startPc).plain.flat w) = .stop value

/-- A simulation that starts with empty caches, in an address space of its own, is one there. -/
theorem Simulator.refinesFlat_of_calm {sim : Simulator} {startPc : VirtAddr} (fresh : sim.Fresh)
    (space : (sim.start startPc).plain.Space w)
    (calm : ((sim.start startPc).plain.flat w).Calm) : sim.RefinesFlat w startPc := by
  obtain ⟨valid, _⟩ := Config.valid_of_fresh fresh startPc
  have quiet : (Config.start sim startPc).QuietRun := fun n cfg led =>
    (Config.flattened_of_run fresh space calm led).quiet calm
  have fetches : Prefetcher.Fetches ⟨(Config.start sim startPc).sim.plain, none⟩ := by
    rintro n ⟨plain, room⟩ led rfl
    have together := valid.lockstep (n := n) quiet
    rw [led] at together
    obtain ⟨cfg, left, _, _, same⟩ := together.next_of
    have kept := (Config.flattened_of_run fresh space calm left).space
    rw [show cfg.sim.plain = plain from same] at kept
    -- A word of an address space can always be asked for.
    exact Bb.decodeFrom_ok fun va _ => ⟨_, kept.fetchAt va⟩
  obtain ⟨visits, returns⟩ := valid.refines quiet fetches
  refine ⟨fun n cfg led => (Config.flattened_of_run fresh space calm led).reached.imp
    fun _ reached => reached.1, fun value => ⟨?_, ?_⟩⟩
  · rintro ⟨result, returned, rfl⟩
    obtain ⟨n, stopped⟩ := (sim.returns_iff startPc result).mp returned
    obtain ⟨m, plainStopped⟩ := (returns result.plain).mp ⟨n, result, stopped, rfl⟩
    have together := space.lockstep m
    rw [show run Plain.step m (sim.start startPc).plain = _ from plainStopped] at together
    obtain ⟨_, flatStopped, rfl⟩ := together.of_stop
    exact ⟨m, flatStopped⟩
  · rintro ⟨m, flatStopped⟩
    have together := space.lockstep m
    rw [flatStopped] at together
    obtain ⟨_, plainStopped, rfl⟩ := together.stop_of
    obtain ⟨n, result, stopped, rfl⟩ := (returns _).mpr ⟨m, plainStopped⟩
    exact ⟨result, (sim.returns_iff startPc result).mpr ⟨n, stopped⟩, rfl⟩

/-- Without translation all of RAM is an address space. -/
theorem Plain.space_of_bare {plain : Plain} (bare : plain.hart.csrFile.satp64.mode = .bare) :
    plain.Space 64 := by
  have found (accessType : AccessType) (va : VirtAddr) :
      plain.translateVa accessType va = .ok ⟨.ok, va⟩ := by
    rw [translateVa, translate, if_pos bare]
  constructor
  · rw [bare]
    rfl
  · exact fun accessType va => ⟨_, found accessType va⟩
  · -- There are no tables.
    intro va pa _ other pte member
    rw [tableEntries, bare] at member
    cases member
  · intro accessType other va vaOther pa here there
    rw [found] at here there
    cases here
    cases there
    rfl

namespace Flat

variable {flat : Flat w}

/-- A state that has known words ahead, and whose step changes none of them.

It stays away from the page that marks empty entries, too.
-/
def keepsWords (words : List VirtAddr) (flat : Flat w) : Bool :=
  (flat.ahead.all fun va => words.contains va && pageBase va != poisonVa) &&
    (flat.dataVa.all fun va => pageBase va != poisonVa) &&
    match step flat with
    | .stop _ => true
    | .next after => words.all fun va => (List.range 4).all fun i =>
        after.bytes (va.setWidth w + BitVec.ofNat w i) ==
          flat.bytes (va.setWidth w + BitVec.ofNat w i)

/-- What is ahead of a checked state is known. -/
theorem ahead_of_keepsWords {words : List VirtAddr} (checked : flat.keepsWords words = true)
    {va : VirtAddr} (member : va ∈ flat.ahead) : va ∈ words ∧ pageBase va ≠ poisonVa := by
  simp only [keepsWords, Bool.and_eq_true] at checked
  exact Config.known_of_checked checked.1.1 member

/-- The step of a checked state keeps the known words. -/
theorem bytes_of_keepsWords {words : List VirtAddr} (checked : flat.keepsWords words = true)
    (next : step flat = .next after) {va : VirtAddr} (known : va ∈ words) {i : Nat}
    (inside : i < 4) : after.bytes (va.setWidth w + BitVec.ofNat w i) =
      flat.bytes (va.setWidth w + BitVec.ofNat w i) := by
  simp only [keepsWords, next, Bool.and_eq_true] at checked
  exact Config.bytes_of_checked checked.2 known inside

/-- A run whose states were all checked is calm. -/
theorem calm_of_checked {first : Flat w} (words : List VirtAddr) (n : Nat)
    (stops : (run step n first).stops = true)
    (checked : (visited step n first).all (keepsWords words) = true) : first.Calm := by
  have keeps {m : Nat} {flat : Flat w} (led : run step m first = .next flat) :
      flat.keepsWords words = true := check_of_visited stops checked led
  refine ⟨fun m flat led va member => (ahead_of_keepsWords (keeps led) member).2,
    fun m flat va led access => ?_, ?_⟩
  · have check := keeps led
    simp only [keepsWords, access, Option.all_some, Bool.and_eq_true] at check
    exact bne_iff_ne.mp check.1.2
  · -- The words ahead of the earlier state are known, and the later state keeps them.
    intro m k earlier flat after _ ledEarlier led next va member _ i inside
    exact bytes_of_keepsWords (keeps led) next (ahead_of_keepsWords (keeps ledEarlier) member).1
      inside

end Flat

/-- With empty caches at first, the simulator does what an interpreter without tables does.

The interpreter has the address space that the user sees, keeps its code as it is and stays away
from the page that marks empty entries.
-/
theorem Simulator.refines_flat {sim : Simulator} {startPc : VirtAddr} (fresh : sim.Fresh)
    (space : (sim.start startPc).plain.Space w)
    (calm : ((sim.start startPc).plain.flat w).Calm) : sim.RefinesFlat w startPc :=
  Simulator.refinesFlat_of_calm fresh space calm

/-- Without translation a program of two blocks that loads and stores is simulated on its RAM. -/
theorem Simulator.refines_flat_program : Simulator.RefinesFlat 64 (Simulator.holdingProgram 0) 0 :=
  Simulator.refines_flat ⟨rfl, rfl, rfl, rfl⟩ (Plain.space_of_bare rfl)
    (Flat.calm_of_checked (Simulator.programWords 0) 8 (by decide +kernel) (by decide +kernel))

end RiscvSim
