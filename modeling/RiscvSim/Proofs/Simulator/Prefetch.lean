import RiscvSim.Proofs.Memory.Walk
import RiscvSim.Proofs.Simulator.Block

/-! A machine that fetches whole blocks ahead without caches: the simulator keeps step with it. -/

namespace RiscvSim

open Transition

/-- A plain machine in a block with room for more words, or between two blocks. -/
structure Prefetcher where
  plain : Plain
  room : Option Nat := none

namespace Prefetcher

/-- One step: a block is fetched and decoded, or one of its instructions executed. -/
def step (state : Prefetcher) : Outcome Prefetcher (SimResult Plain) :=
  match state.room with
  | none =>
    match Bb.decodeFrom state.plain.fetchAt Bb.room state.plain.pc with
    | .error why => .stop (.error why)
    | .ok _ => .next ⟨state.plain, some Bb.room⟩
  | some 0 => .next ⟨state.plain, none⟩
  | some (room + 1) =>
    match state.plain.fetchAt state.plain.pc with
    | .error why => .stop (.error why)
    | .ok res =>
      if res.status ≠ .ok then .stop (.ok (res.status, state.plain))
      else
        match call state.plain (Instr.decode res.instrCode) with
        | .error why => .stop (.error why)
        | .ok (.next, plain) => .next ⟨plain, some room⟩
        | .ok (.ret status, plain) => Config.ofStatus (fun plain => ⟨plain, none⟩) status plain

end Prefetcher

namespace Config

/-- A step of the loop that executes an entry is a call of its handler. -/
theorem step_call (sim : Simulator) (instr : Instr) (rest : List Instr) :
    step ⟨sim, some (instr :: rest)⟩ =
      match call sim instr with
      | .error why => .stop (.error why)
      | .ok (.next, sim) => .next ⟨sim, some rest⟩
      | .ok (.ret status, sim) => ofStatus (fun sim => ⟨sim, none⟩) status sim := by
  simp only [step, call]
  cases dispatch instr.id <;> rfl

/-- A step leaves alone what the caches depend on, and stays away from the page of empty entries. -/
structure Quiet (cfg : Config) : Prop where
  /-- No word of a block is fetched from the page that marks empty entries. -/
  fetches : cfg.rest = none → ∀ va ∈ cfg.sim.fetchVas, pageBase va ≠ poisonVa
  /-- No value is loaded from that page or stored to it. -/
  accesses : ∀ instr rest handler va, cfg.rest = some (instr :: rest) →
    dispatch instr.id = some handler → handler.dataVa cfg.sim.toCore instr = some va →
    pageBase va ≠ poisonVa
  /-- No byte of a page table entry changes. -/
  tables : ∀ after, step cfg = .next after → ∀ va,
    ∀ pte ∈ tableEntries cfg.sim.physMemory cfg.sim.hart.csrFile.satp64 va, ∀ addr,
      ByteStore.InRun pte pteBytes addr →
      after.sim.physMemory.bytes addr = cfg.sim.physMemory.bytes addr
  /-- No byte of an instruction word changes that a cached block was decoded from. -/
  code : ∀ after, step cfg = .next after → ∀ va pa, cfg.sim.Holds va →
    cfg.sim.translateVa .fetch va = .ok ⟨.ok, pa⟩ → ∀ addr, ByteStore.InRun pa 4 addr →
      after.sim.physMemory.bytes addr = cfg.sim.physMemory.bytes addr

/-- The caches are right, and the current entries are those of the program counter. -/
structure Valid (cfg : Config) (room : Option Nat) : Prop where
  tlbs : cfg.sim.TlbsCoherent
  blocks : cfg.sim.BlocksValid
  rest : match room with
    | none => cfg.rest = none
    | some room => ∃ block stale, cfg.rest = some (block ++ stale) ∧
        Bb.decodeFrom cfg.sim.fetchAt room cfg.sim.pc = .ok block ∧
        ∀ va ∈ Bb.fetchVas cfg.sim.fetchAt room cfg.sim.pc, cfg.sim.Holds va

end Config

namespace Simulator

variable {sim after : Simulator}

/-- The translations of every address stay when no entry of a table changes. -/
theorem translateVa_congr (csrFile : after.hart.csrFile = sim.hart.csrFile)
    (tables : ∀ va, ∀ pte ∈ tableEntries sim.physMemory sim.hart.csrFile.satp64 va, ∀ addr,
      ByteStore.InRun pte pteBytes addr →
      after.physMemory.bytes addr = sim.physMemory.bytes addr)
    (accessType : AccessType) (va : VirtAddr) :
    after.translateVa accessType va = sim.translateVa accessType va := by
  -- Translation reads the tables and the control registers, and nothing else.
  rw [translateVa, translateVa, csrFile]
  exact translate_congr _ va (tables va) _ _ _

/-- A word that is fetched stays when its translation does and none of its bytes changes. -/
theorem fetchAt_congr {va : VirtAddr}
    (translation : after.translateVa .fetch va = sim.translateVa .fetch va)
    (word : ∀ pa, sim.translateVa .fetch va = .ok ⟨.ok, pa⟩ → ∀ addr,
      ByteStore.InRun pa 4 addr → after.physMemory.bytes addr = sim.physMemory.bytes addr) :
    after.fetchAt va = sim.fetchAt va := by
  have read : after.plain.readInt 4 .fetch va = sim.plain.readInt 4 .fetch va := by
    unfold Plain.readInt
    rw [show after.plain.translateVa .fetch va = sim.plain.translateVa .fetch va from translation]
    cases translated : sim.plain.translateVa .fetch va with
    | error why => rfl
    | ok result =>
      -- The bytes of the word are read only behind a translation that succeeds.
      obtain ⟨status, pa⟩ := result
      dsimp only
      by_cases ok : status = .ok
      · subst ok
        obtain ⟨status, dst⟩ := PhysMemory.read_congr (by decide) (word pa translated) 0
        rw [if_neg (not_not.mpr rfl), if_neg (not_not.mpr rfl),
          show after.plain.physMemory = after.physMemory from rfl,
          show sim.plain.physMemory = sim.physMemory from rfl, status, dst]
      · rw [if_pos ok, if_pos ok]
  simp only [fetchAt, Plain.fetchAt, Plain.loadInt, read]

/-- Held words say which words are held. -/
theorem holds_congr (words : ∀ va, sim.Holds va → after.fetchAt va = sim.fetchAt va)
    (cache : after.bbCache = sim.bbCache) {va : VirtAddr} : after.Holds va ↔ sim.Holds va := by
  -- The same words give the same addresses of words.
  have same (i : Fin bbCacheSize) (occupied : (sim.bbCache.entries i).virtAddr ≠ Bb.invalidVa) :
      Bb.fetchVas after.fetchAt Bb.room (sim.bbCache.entries i).virtAddr =
        Bb.fetchVas sim.fetchAt Bb.room (sim.bbCache.entries i).virtAddr :=
    (Bb.decodeFrom_congr fun at' member => words at' ⟨i, occupied, member⟩).2
  unfold Holds
  rw [cache]
  constructor
  · rintro ⟨i, occupied, member⟩
    exact ⟨i, occupied, same i occupied ▸ member⟩
  · rintro ⟨i, occupied, member⟩
    exact ⟨i, occupied, (same i occupied).symm ▸ member⟩

/-- Cached blocks stay valid when no word of theirs changes. -/
theorem BlocksValid.congr (valid : sim.BlocksValid)
    (words : ∀ va, sim.Holds va → after.fetchAt va = sim.fetchAt va)
    (cache : after.bbCache = sim.bbCache) : after.BlocksValid := by
  intro i occupied
  rw [cache] at occupied ⊢
  -- The block at each place is decoded from words that are held.
  obtain ⟨block, stale, decoded, entries⟩ := valid i occupied
  refine ⟨block, stale, ?_, entries⟩
  rw [← decoded]
  exact (Bb.decodeFrom_congr fun at' member => words at' ⟨i, occupied, member⟩).1

end Simulator

/-- A translation does not end the simulation. -/
theorem translate_ne_exit {memory : PhysMemory} {mstatus64 : MSTATUS64} {satp64 : SATP64}
    {privLevel : PrivLevel} {accessType : AccessType} {va : VirtAddr} {result : TranslateResult}
    (translated : translate memory mstatus64 satp64 privLevel accessType va = .ok result) :
    result.status ≠ .simExit := by
  intro exits
  have reported := status_of_translate translated
  rw [exits] at reported
  -- An exit is none of the three results of a translation.
  rcases reported with ok | missing | fault <;> contradiction

/-- A word that cannot be fetched does not end the simulation. -/
theorem Plain.fetchAt_ne_exit {plain : Plain} {va : VirtAddr} {res : FetchResult}
    (fetched : plain.fetchAt va = .ok res) : res.status ≠ .simExit := by
  unfold fetchAt loadInt at fetched
  split at fetched
  · cases fetched
    nofun
  · unfold readInt at fetched
    split at fetched
    · cases fetched
    · rename_i status pa translated
      split at fetched
      · cases fetched
        exact translate_ne_exit translated
      · dsimp only at fetched
        split at fetched
        · cases fetched
          -- A read tells of a crossing or of a missing page.
          dsimp only
          rw [PhysMemory.read_status]
          unfold PhysMemory.accessStatus
          split
          · decide
          · split <;> decide
        · cases fetched
          nofun

/-- A status instruction returns its status. -/
theorem call_statusInstr {σ : Type} [Machine σ] (sim : σ) (status : SimStatus) :
    call sim (Instr.statusInstr status) = .ok (.ret status, sim) := by
  have handler : dispatch (Instr.statusInstr status).id = some .status := rfl
  simp only [call, handler, Handler.exec, Instr.status_statusInstr]

/-- An instruction that ends a block does not go on to the next entry. -/
theorem Bb.Ends.call_ne_next {instr : Instr} (ends : Bb.Ends instr) {sim after : Simulator}
    (called : call sim instr = .ok (.next, after)) : False := by
  unfold call at called
  cases dispatched : dispatch instr.id with
  | none =>
    rw [dispatched] at called
    cases called
  | some handler =>
    rw [dispatched] at called
    have kind := (simInstr_kind (simInstr_of_dispatch dispatched)).1
    -- Handlers that go on are those of instructions that end no block.
    rw [((Simulator.exec_spec called).next rfl).1] at kind
    rcases ends with status | branch
    · simp [status] at kind
    · simp [branch] at kind

/-- A call goes on at the next address when it goes on to the next entry. -/
theorem call_next_pc {instr : Instr} {sim after : Simulator}
    (called : call sim instr = .ok (.next, after)) : after.pc = sim.pc + instrCodeSize := by
  unfold call at called
  split at called
  · cases called
  · exact ((Simulator.exec_spec called).next rfl).2

namespace Config

variable {cfg after : Config} {room : Option Nat}

/-- With coherent caches a call does what it does on a plain machine. -/
theorem Quiet.call_lifted (quiet : cfg.Quiet) (coherent : cfg.sim.TlbsCoherent) {instr : Instr}
    {rest : List Instr} (here : cfg.rest = some (instr :: rest)) :
    Lifted (Simulator.Tracks cfg.sim fun _ => True) (fun _ => False) (call cfg.sim instr)
      (call cfg.sim.plain instr) := by
  unfold call
  cases dispatched : dispatch instr.id with
  | none => exact .error _
  | some handler =>
    -- The accesses stay away from the page of empty entries, so nothing is excused.
    exact coherent.exec trivial (dispatch_sized dispatched) instr
      (fun va access poison => quiet.accesses _ _ _ va here dispatched access poison)
      (fun _ _ _ _ _ _ _ _ => trivial)

/-- A quiet step keeps the caches right. -/
theorem Quiet.kept (quiet : cfg.Quiet) (blocks : cfg.sim.BlocksValid)
    (next : step cfg = .next after) {plain : Plain}
    (tracks : Simulator.Tracks cfg.sim (fun _ => True) after.sim plain) :
    after.sim.TlbsCoherent ∧ after.sim.BlocksValid ∧
      (∀ va, cfg.sim.Holds va → after.sim.fetchAt va = cfg.sim.fetchAt va) ∧
      ∀ va, after.sim.Holds va ↔ cfg.sim.Holds va := by
  -- The tables are the same bytes, so all addresses are translated as before.
  have translation := Simulator.translateVa_congr tracks.csrFile (quiet.tables after next)
  have words (va : VirtAddr) (held : cfg.sim.Holds va) :
      after.sim.fetchAt va = cfg.sim.fetchAt va :=
    Simulator.fetchAt_congr (translation .fetch va) fun pa => quiet.code after next va pa held
  exact ⟨tracks.coherent translation, blocks.congr words tracks.bbCache, words,
    fun va => Simulator.holds_congr words tracks.bbCache⟩

/-- The caches are valid at the next point, and hold no other words than before and new ones. -/
def Follows (cfg after : Config) (state : Prefetcher) : Prop :=
  after.Valid state.room ∧ after.sim.plain = state.plain ∧
    ∀ va, after.sim.Holds va → cfg.sim.Holds va ∨ cfg.rest = none ∧ va ∈ cfg.sim.fetchVas

/-- Both machines go on alike, or stop with the same result. -/
def Together (cfg : Config) :
    Outcome Config (SimResult Simulator) → Outcome Prefetcher (SimResult Plain) → Prop :=
  Outcome.Both cfg.Follows fun left right => left.plain = right

/-- Both sides call the handler of an instruction, and go on with the entries after it. -/
theorem Quiet.together_call (quiet : cfg.Quiet) (tlbs : cfg.sim.TlbsCoherent)
    (blocks : cfg.sim.BlocksValid) {instr : Instr} {entries : List Instr} {room : Nat}
    (here : cfg.rest = some (instr :: entries))
    (goesOn : ∀ after, call cfg.sim instr = .ok (.next, after) → ∃ block stale,
      entries = block ++ stale ∧
        Bb.decodeFrom cfg.sim.fetchAt room (cfg.sim.pc + instrCodeSize) = .ok block ∧
        ∀ va ∈ Bb.fetchVas cfg.sim.fetchAt room (cfg.sim.pc + instrCodeSize), cfg.sim.Holds va) :
    cfg.Together (step cfg)
      (match call cfg.sim.plain instr with
        | .error why => .stop (.error why)
        | .ok (.next, plain) => .next ⟨plain, some room⟩
        | .ok (.ret status, plain) => ofStatus (fun plain => ⟨plain, none⟩) status plain) := by
  have lifted := quiet.call_lifted tlbs here
  obtain ⟨sim, rest⟩ := cfg
  cases here
  have stepped := step_call sim instr entries
  dsimp only at lifted goesOn
  cases called : call sim instr with
  | error why =>
    -- Both calls abort for the same reason.
    rw [called] at lifted stepped
    generalize call sim.plain instr = plainCall at lifted ⊢
    cases lifted with
    | error =>
      rw [stepped]
      rfl
    | excused _ never => exact never.elim
  | ok result =>
    obtain ⟨flow, after⟩ := result
    rw [called] at lifted stepped
    obtain ⟨plain, plainCalled, tracks⟩ := lifted.of_ok
    simp only [plainCalled]
    rw [stepped]
    -- The caches stay right, and the entries are those after the current one.
    cases flow with
    | next =>
      obtain ⟨coherent, valid, words, held⟩ := quiet.kept blocks stepped tracks
      obtain ⟨block, stale, rfl, decoded, inside⟩ := goesOn after called
      have same := Bb.decodeFrom_congr fun va member => words va (inside va member)
      refine ⟨⟨coherent, valid, block, stale, rfl, ?_, fun va member => ?_⟩, tracks.plain,
        fun va member => .inl ((held va).mp member)⟩
      · rw [call_next_pc called]
        exact same.1.trans decoded
      · rw [call_next_pc called] at member
        exact (held va).mpr (inside va (same.2 ▸ member))
    -- A return to the loop ends the run, or it goes on at a block boundary.
    | ret status =>
      dsimp only [ofStatus] at stepped ⊢
      by_cases exit : status = .simExit
      · rw [if_pos exit, if_pos exit]
        exact congrArg (fun plain => Except.ok (SimStatus.ok, plain)) tracks.plain
      · rw [if_neg exit] at stepped ⊢
        rw [if_neg exit]
        by_cases ok : status = .ok
        · rw [if_neg (not_not.mpr ok)] at stepped ⊢
          rw [if_neg (not_not.mpr ok)]
          obtain ⟨coherent, valid, _, held⟩ := quiet.kept blocks stepped tracks
          exact ⟨⟨coherent, valid, rfl⟩, tracks.plain, fun va member => .inl ((held va).mp member)⟩
        · rw [if_pos ok, if_pos ok]
          exact congrArg (fun plain => Except.ok (status, plain)) tracks.plain

/-- Looking up a block gives the entries that are decoded anew on the other side. -/
theorem Valid.moves_lookup (valid : cfg.Valid none) (quiet : cfg.Quiet) :
    cfg.Together (step cfg) (Prefetcher.step ⟨cfg.sim.plain, none⟩) := by
  obtain ⟨tlbs, blocks, here⟩ := valid
  obtain ⟨sim, rest⟩ := cfg
  cases here
  -- With coherent caches the look-up gives the block that decoding gives.
  have found := tlbs.findBb_eq blocks (quiet.fetches rfl)
  have sameBlock : Bb.decodeFrom sim.plain.fetchAt Bb.room sim.plain.pc =
      Bb.decodeFrom sim.fetchAt Bb.room sim.pc := rfl
  simp only [step, Prefetcher.step, sameBlock]
  cases decoded : Bb.decodeFrom sim.fetchAt Bb.room sim.pc with
  | error why =>
    simp only [decoded] at found
    rw [found]
    rfl
  | ok block =>
    simp only [decoded] at found
    obtain ⟨bb, after, looked, ⟨stale, entries⟩, coherent, same, blocks, held, holds⟩ := found
    rw [looked]
    -- Finding the block leaves the program counter.
    have pc : after.pc = sim.pc := congrArg Core.pc same.1
    refine ⟨⟨coherent, blocks, block, stale, congrArg some entries, ?_, ?_⟩, ?_, ?_⟩
    · rw [same.fetchAt, pc]
      exact decoded
    · rw [same.fetchAt, pc]
      exact holds
    · rw [Simulator.plain, Simulator.plain, same.1, same.2]
    · exact fun va member => (held va member).imp id fun inside => ⟨rfl, inside⟩

/-- A full block goes on to the next one on both sides. -/
theorem Valid.moves_full (valid : cfg.Valid (some 0)) :
    cfg.Together (step cfg) (Prefetcher.step ⟨cfg.sim.plain, some 0⟩) := by
  obtain ⟨tlbs, blocks, block, stale, here, decoded, _⟩ := valid
  obtain ⟨sim, rest⟩ := cfg
  cases here
  -- With no room the block is the status that goes on.
  cases decoded
  rw [List.singleton_append, step_call, call_statusInstr]
  exact ⟨⟨tlbs, blocks, rfl⟩, rfl, fun va held => .inl held⟩

/-- The current entry is the word at the program counter, which both sides execute. -/
theorem Valid.moves_entry {room : Nat} (valid : cfg.Valid (some (room + 1))) (quiet : cfg.Quiet) :
    cfg.Together (step cfg) (Prefetcher.step ⟨cfg.sim.plain, some (room + 1)⟩) := by
  obtain ⟨tlbs, blocks, block, stale, here, decoded, held⟩ := valid
  have sameWord : cfg.sim.plain.fetchAt cfg.sim.plain.pc = cfg.sim.fetchAt cfg.sim.pc := rfl
  simp only [Prefetcher.step, sameWord]
  -- The first entry is a failed fetch, the end of the block, or one that goes on.
  cases Bb.start_of_decodeFrom decoded with
  | fault fetched failed =>
    obtain ⟨sim, rest⟩ := cfg
    cases here
    rw [List.singleton_append, step_call, call_statusInstr]
    simp only [fetched, if_pos failed, ofStatus, if_neg (Plain.fetchAt_ne_exit fetched)]
    rfl
  | last fetched ok ends =>
    simp only [fetched, if_neg (not_not.mpr ok)]
    exact quiet.together_call tlbs blocks here fun after called => (ends.call_ne_next called).elim
  | more fetched ok goesOn later inside =>
    simp only [fetched, if_neg (not_not.mpr ok)]
    refine quiet.together_call tlbs blocks here fun after called => ⟨_, stale, rfl, later, fun va member => ?_⟩
    exact held va (inside va member)

/-- The simulator with valid caches and the machine that fetches ahead take the same step. -/
theorem Valid.moves (valid : cfg.Valid room) (quiet : cfg.Quiet) :
    cfg.Together (step cfg) (Prefetcher.step ⟨cfg.sim.plain, room⟩) := by
  match room with
  | none => exact valid.moves_lookup quiet
  | some 0 => exact valid.moves_full
  | some (room + 1) => exact valid.moves_entry quiet

end Config

end RiscvSim
