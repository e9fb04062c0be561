import RiscvSim.Proofs.Simulator.Tlb

/-! Cached blocks that hold what fetching and decoding at their addresses would give. -/

namespace RiscvSim

open Transition

namespace Bb

/-- The number of words that a block can hold. -/
def room : Nat := maxSize - 1

/-- An instruction ends its block. -/
def Ends (instr : Instr) : Prop := instr.id = .simStatusInstr ∨ isBranch instr.id

instance (instr : Instr) : Decidable (Ends instr) := inferInstanceAs (Decidable (_ ∨ _))

/-- The entries of a block at an address, up to the one that ends it. -/
def decodeFrom (fetchAt : VirtAddr → Except Abort FetchResult) :
    (room : Nat) → VirtAddr → Except Abort (List Instr)
  | 0, _ => .ok [Instr.statusInstr .ok]
  | room + 1, va =>
    match fetchAt va with
    | .error why => .error why
    | .ok res =>
      if res.status ≠ .ok then .ok [Instr.statusInstr res.status]
      else if Ends (Instr.decode res.instrCode) then .ok [Instr.decode res.instrCode]
      else
        match decodeFrom fetchAt room (va + instrCodeSize) with
        | .error why => .error why
        | .ok entries => .ok (Instr.decode res.instrCode :: entries)

/-- The addresses of the words that are fetched for a block at an address. -/
def fetchVas (fetchAt : VirtAddr → Except Abort FetchResult) :
    (room : Nat) → VirtAddr → List VirtAddr
  | 0, _ => []
  | room + 1, va =>
    va ::
      match fetchAt va with
      | .error _ => []
      | .ok res =>
        if res.status ≠ .ok then []
        else if Ends (Instr.decode res.instrCode) then []
        else fetchVas fetchAt room (va + instrCodeSize)

variable {fetchAt other : VirtAddr → Except Abort FetchResult} {room : Nat} {va : VirtAddr}

/-- A block depends on the words that are fetched for it alone. -/
theorem decodeFrom_congr (same : ∀ at' ∈ fetchVas fetchAt room va, other at' = fetchAt at') :
    decodeFrom other room va = decodeFrom fetchAt room va ∧
      fetchVas other room va = fetchVas fetchAt room va := by
  -- By induction on the room: the first word is the same, and so are those after it.
  induction room generalizing va with
  | zero => exact ⟨rfl, rfl⟩
  | succ room ih =>
    have here : other va = fetchAt va := same va (by rw [fetchVas]; exact List.mem_cons_self)
    rw [fetchVas] at same
    rw [decodeFrom, decodeFrom, fetchVas, fetchVas, here]
    cases fetched : fetchAt va with
    | error why => exact ⟨rfl, rfl⟩
    | ok res =>
      dsimp only
      by_cases ok : res.status = .ok
      · rw [if_neg (not_not.mpr ok), if_neg (not_not.mpr ok), if_neg (not_not.mpr ok),
          if_neg (not_not.mpr ok)]
        by_cases ends : Ends (Instr.decode res.instrCode)
        · simp only [if_pos ends, and_self]
        · simp only [fetched, if_neg (not_not.mpr ok), if_neg ends] at same
          obtain ⟨entries, vas⟩ := ih fun at' member => same at' (List.mem_cons_of_mem _ member)
          simp only [if_neg ends, entries, vas, and_self]
      · -- A fetch that failed is the last one of the block.
        simp only [if_pos ok, and_self]

/-- A block can be decoded when all its words can be fetched. -/
theorem decodeFrom_ok (fetches : ∀ at' ∈ fetchVas fetchAt room va, ∃ res, fetchAt at' = .ok res) :
    ∃ block, decodeFrom fetchAt room va = .ok block := by
  -- By induction on the room, where each word that is decoded is one of the addresses.
  induction room generalizing va with
  | zero => exact ⟨_, rfl⟩
  | succ room ih =>
    obtain ⟨res, fetched⟩ := fetches va (by rw [fetchVas]; exact List.mem_cons_self)
    rw [fetchVas] at fetches
    rw [decodeFrom]
    simp only [fetched] at fetches ⊢
    split
    · exact ⟨_, rfl⟩
    · rename_i ok
      split
      · exact ⟨_, rfl⟩
      · rename_i goesOn
        simp only [if_neg ok, if_neg goesOn] at fetches
        obtain ⟨block, decoded⟩ := ih fun at' member => fetches at' (List.mem_cons_of_mem _ member)
        exact ⟨_, by rw [decoded]⟩

/-- The ways in which a block with room starts. -/
inductive Start (fetchAt : VirtAddr → Except Abort FetchResult) (room : Nat) (va : VirtAddr) :
    List Instr → Prop where
  /-- The first word cannot be fetched. -/
  | fault {res : FetchResult} : fetchAt va = .ok res → res.status ≠ .ok →
    Start fetchAt room va [Instr.statusInstr res.status]
  /-- The first word ends the block. -/
  | last {res : FetchResult} : fetchAt va = .ok res → res.status = .ok →
    Ends (Instr.decode res.instrCode) → Start fetchAt room va [Instr.decode res.instrCode]
  /-- The block goes on after the first word. -/
  | more {res : FetchResult} {entries : List Instr} : fetchAt va = .ok res → res.status = .ok →
    ¬Ends (Instr.decode res.instrCode) →
    decodeFrom fetchAt room (va + instrCodeSize) = .ok entries →
    (∀ at' ∈ fetchVas fetchAt room (va + instrCodeSize), at' ∈ fetchVas fetchAt (room + 1) va) →
    Start fetchAt room va (Instr.decode res.instrCode :: entries)

/-- A block with room starts in one of these ways. -/
theorem start_of_decodeFrom {block : List Instr}
    (decoded : decodeFrom fetchAt (room + 1) va = .ok block) : Start fetchAt room va block := by
  rw [decodeFrom] at decoded
  split at decoded
  · cases decoded
  · rename_i res fetched
    split at decoded
    · rename_i failed
      cases decoded
      exact .fault fetched failed
    · rename_i ok
      split at decoded
      · rename_i ends
        cases decoded
        exact .last fetched (not_not.mp ok) ends
      · rename_i goesOn
        split at decoded
        · cases decoded
        · rename_i entries rest
          cases decoded
          refine .more fetched (not_not.mp ok) goesOn rest fun at' member => ?_
          rw [fetchVas, fetched]
          simp only [if_neg ok, if_neg goesOn]
          exact List.mem_cons_of_mem _ member

/-- Updating a block puts the decoded entries at the address. -/
theorem update_eq {σ : Type} (fetch : σ → Except Abort (FetchResult × σ)) (bb : Bb) (state : σ)
    (virtAddr : VirtAddr) :
    match updateFrom fetch bb.instrs state with
    | .error why => bb.update virtAddr fetch state = .error why
    | .ok (entries, after) => ∃ updated, bb.update virtAddr fetch state = .ok (updated, after) ∧
        updated.virtAddr = virtAddr ∧ updated.instrs = entries := by
  unfold update
  -- Both run the same worker, whose result decides the block.
  split <;> rename_i decoded <;> split <;> rename_i other <;> rw [decoded] at other <;> cases other
  · rfl
  · exact ⟨_, rfl, rfl, rfl⟩

end Bb

namespace Simulator

/-- The word at a virtual address, fetched without the help of a cache. -/
def fetchAt (sim : Simulator) : VirtAddr → Except Abort FetchResult := sim.plain.fetchAt

/-- The addresses of the words that are fetched for a block at the program counter. -/
def fetchVas (sim : Simulator) : List VirtAddr := Bb.fetchVas sim.fetchAt Bb.room sim.pc

/-- A block is empty, or its entries are those of its address. -/
def BbValid (sim : Simulator) (bb : Bb) : Prop :=
  bb.virtAddr ≠ Bb.invalidVa → ∃ block stale,
    Bb.decodeFrom sim.fetchAt Bb.room bb.virtAddr = .ok block ∧ bb.instrs = block ++ stale

/-- Every cached block is valid. -/
def BlocksValid (sim : Simulator) : Prop := ∀ i, sim.BbValid (sim.bbCache.entries i)

/-- A cached block was decoded from the word at an address. -/
def Holds (sim : Simulator) (va : VirtAddr) : Prop :=
  ∃ i, (sim.bbCache.entries i).virtAddr ≠ Bb.invalidVa ∧
    va ∈ Bb.fetchVas sim.fetchAt Bb.room (sim.bbCache.entries i).virtAddr

variable {before sim after : Simulator} {good : PhysMemory → Prop}

/-- Fetching a word through a coherent cache gives the word, outside the page of empty entries. -/
theorem Tracks.fetch_eq (tracks : Tracks before good sim before.plain) {va : VirtAddr}
    (sentinel : pageBase va ≠ poisonVa) :
    match before.fetchAt va with
    | .error why => Simulator.fetch (va, sim) = .error why
    | .ok res => ∃ after, Simulator.fetch (va, sim) = .ok (res, va + instrCodeSize, after) ∧
        Tracks before good after before.plain := by
  -- The page of the address is not the one that empty entries are tagged with.
  have lifted : Lifted (Tracks before good) (fun _ => False) (sim.loadInt 4 .fetch va)
      ((before.plain.loadInt 4 .fetch va).map fun res => (res, before.plain)) :=
    tracks.loadInt tracks.plain (.inr (.inr (.inl rfl))) .fetch va fun poison => sentinel poison
  simp only [Simulator.fetchAt, Plain.fetchAt, Simulator.fetch]
  cases found : before.plain.loadInt 4 .fetch va with
  | error why =>
    rw [found] at lifted
    generalize sim.loadInt 4 .fetch va = loaded at lifted ⊢
    cases lifted with
    | error => rfl
    | excused _ never => exact never.elim
  | ok res =>
    rw [found] at lifted
    generalize sim.loadInt 4 .fetch va = loaded at lifted ⊢
    cases lifted with
    | ok kept => exact ⟨_, rfl, kept⟩
    | excused _ never => exact never.elim

/-- Decoding through coherent caches gives the entries of the address. -/
theorem Tracks.updateFrom_eq (stale : List Instr) {room : Nat} (length : stale.length = room + 1)
    (tracks : Tracks before good sim before.plain) {va : VirtAddr}
    (sentinel : ∀ at' ∈ Bb.fetchVas before.fetchAt room va, pageBase at' ≠ poisonVa) :
    match Bb.decodeFrom before.fetchAt room va with
    | .error why => Bb.updateFrom Simulator.fetch stale (va, sim) = .error why
    | .ok block => ∃ rest next after,
        Bb.updateFrom Simulator.fetch stale (va, sim) = .ok (block ++ rest, next, after) ∧
          Tracks before good after before.plain := by
  -- By induction on the room, every entry is decoded from the word that is fetched for it.
  induction room generalizing stale sim va with
  | zero =>
    -- The block ends in the last place, which keeps its entry.
    obtain ⟨entry, rfl⟩ := List.length_eq_one_iff.mp length
    exact ⟨[], va, sim, rfl, tracks⟩
  | succ room ih =>
    obtain ⟨entry, tail, rfl⟩ := List.exists_cons_of_length_eq_add_one length
    obtain ⟨next, rest, rfl⟩ := List.exists_cons_of_length_eq_add_one (Nat.succ.inj length)
    have fetched := tracks.fetch_eq (sentinel va (by rw [Bb.fetchVas]; exact List.mem_cons_self))
    rw [Bb.fetchVas] at sentinel
    rw [Bb.decodeFrom, Bb.updateFrom]
    cases word : before.fetchAt va with
    -- The abort of the first fetch is that of the whole block.
    | error why =>
      rw [word] at fetched
      dsimp only at fetched ⊢
      rw [fetched]
    | ok res =>
      rw [word] at fetched
      obtain ⟨later, fetched, kept⟩ := fetched
      dsimp only
      rw [fetched]
      dsimp only
      by_cases ok : res.status = .ok
      · -- The word was fetched, so it is decoded, and it may end the block.
        rw [if_neg (not_not.mpr ok), if_neg (not_not.mpr ok)]
        by_cases ends : Bb.Ends (Instr.decode res.instrCode)
        · have branch : (Instr.decode res.instrCode).id = .simStatusInstr ∨
              Bb.isBranch (Instr.decode res.instrCode).id = true := ends
          rw [if_pos ends, if_pos branch]
          exact ⟨next :: rest, _, later, rfl, kept⟩
        · have noBranch : ¬((Instr.decode res.instrCode).id = .simStatusInstr ∨
              Bb.isBranch (Instr.decode res.instrCode).id = true) := ends
          rw [if_neg ends, if_neg noBranch]
          simp only [word, if_neg (not_not.mpr ok), if_neg ends] at sentinel
          have more := ih (next :: rest) (Nat.succ.inj length) kept
            fun at' member => sentinel at' (List.mem_cons_of_mem _ member)
          cases decoded : Bb.decodeFrom before.fetchAt room (va + instrCodeSize) with
          | error why =>
            rw [decoded] at more
            dsimp only at more ⊢
            rw [more]
          | ok block =>
            rw [decoded] at more
            obtain ⟨rest, next, after, updated, kept⟩ := more
            dsimp only
            rw [updated]
            exact ⟨rest, next, after, rfl, kept⟩
      · -- The word could not be fetched, and the entry holds its status.
        rw [if_pos ok, if_pos ok]
        exact ⟨next :: rest, _, later, rfl, kept⟩

/-- The words of a block at the program counter start with the one there. -/
theorem pc_mem_fetchVas (sim : Simulator) : sim.pc ∈ sim.fetchVas := by
  rw [fetchVas, Bb.room, Bb.maxSize, Bb.fetchVas]
  exact List.mem_cons_self

/-- A block at the program counter is not an empty one. -/
theorem pc_ne_invalidVa (sentinel : ∀ va ∈ sim.fetchVas, pageBase va ≠ poisonVa) :
    sim.pc ≠ Bb.invalidVa := by
  intro same
  refine sentinel sim.pc sim.pc_mem_fetchVas ?_
  rw [same]
  rfl

/-- In the same state the same words are fetched. -/
theorem SameState.fetchAt (same : after.SameState sim) : after.fetchAt = sim.fetchAt := by
  rw [Simulator.fetchAt, Simulator.fetchAt, plain, plain, same.1, same.2]

/-- A block that is cached is held, and the others stay. -/
structure Found (sim : Simulator) (block : List Instr) (bb : Bb) (after : Simulator) : Prop where
  entries : ∃ stale, bb.instrs = block ++ stale
  coherent : after.TlbsCoherent
  same : after.SameState sim
  valid : after.BlocksValid
  held : ∀ va, after.Holds va → sim.Holds va ∨ va ∈ sim.fetchVas
  holds : ∀ va ∈ sim.fetchVas, after.Holds va

/-- A block that was decoded is valid, and it replaces one other. -/
theorem found_of_update (blocks : sim.BlocksValid)
    (sentinel : ∀ va ∈ sim.fetchVas, pageBase va ≠ poisonVa) {fetched : Simulator} {bb : Bb}
    {block : List Instr} (decoded : Bb.decodeFrom sim.fetchAt Bb.room sim.pc = .ok block)
    (tracks : Tracks sim (fun _ => True) fetched sim.plain) (address : bb.virtAddr = sim.pc)
    (entries : ∃ stale, bb.instrs = block ++ stale) :
    sim.Found block bb { fetched with bbCache := fetched.bbCache.set fetched.pc bb } := by
  have coherent := tracks.coherent fun accessType va =>
    congrArg (fun state : Plain => state.translateVa accessType va) tracks.plain
  have same : fetched.SameState sim :=
    ⟨congrArg Plain.toCore tracks.plain, congrArg Plain.physMemory tracks.plain⟩
  -- The words are fetched from the state, which has not changed.
  have words : fetched.fetchAt = sim.fetchAt := same.fetchAt
  have pc : fetched.pc = sim.pc := congrArg Core.pc same.1
  have cached (i : Fin bbCacheSize) : (fetched.bbCache.set fetched.pc bb).entries i =
      if i = BbCache.index sim.pc then bb else sim.bbCache.entries i := by
    rw [BbCache.set, tracks.bbCache, pc]
    exact Function.update_apply _ _ _ _
  refine ⟨entries, ⟨coherent.read, coherent.write, coherent.fetch⟩, same, ?_, ?_, ?_⟩
  · -- The block that was put in is valid, and the others are as they were.
    intro i occupied
    change _ ≠ _ at occupied
    change ∃ block stale, Bb.decodeFrom fetched.fetchAt _ _ = _ ∧ _
    rw [words]
    rw [cached] at occupied ⊢
    split at occupied
    · rename_i here
      rw [if_pos here, address]
      obtain ⟨stale, entries⟩ := entries
      exact ⟨block, stale, decoded, entries⟩
    · rename_i elsewhere
      rw [if_neg elsewhere]
      exact blocks i occupied
  · -- What is held is held by the new block or was held before.
    rintro va ⟨i, occupied, member⟩
    change va ∈ Bb.fetchVas fetched.fetchAt _ _ at member
    rw [words] at member
    rw [cached] at occupied member
    split at occupied
    · rename_i here
      rw [if_pos here, address] at member
      exact .inr member
    · rename_i elsewhere
      rw [if_neg elsewhere] at member
      exact .inl ⟨i, occupied, member⟩
  · -- The words of the new block are held at its place.
    intro va member
    refine ⟨BbCache.index sim.pc, ?_, ?_⟩
    · change ((fetched.bbCache.set fetched.pc bb).entries _).virtAddr ≠ _
      rw [cached, if_pos rfl, address]
      exact pc_ne_invalidVa sentinel
    · change va ∈ Bb.fetchVas fetched.fetchAt _
        ((fetched.bbCache.set fetched.pc bb).entries _).virtAddr
      rw [cached, if_pos rfl, address, words]
      exact member

/-- Looking up a block gives the entries of the program counter, or aborts as fetching does. -/
theorem TlbsCoherent.findBb_eq (coherent : sim.TlbsCoherent) (blocks : sim.BlocksValid)
    (sentinel : ∀ va ∈ sim.fetchVas, pageBase va ≠ poisonVa) :
    match Bb.decodeFrom sim.fetchAt Bb.room sim.pc with
    | .error why => sim.findBb = .error why
    | .ok block => ∃ bb after, sim.findBb = .ok (bb, after) ∧ sim.Found block bb after := by
  have valid := blocks (BbCache.index sim.pc)
  rw [← BbCache.find] at valid
  unfold Simulator.findBb
  dsimp only
  by_cases hit : (sim.bbCache.find sim.pc).virtAddr = sim.pc
  · -- The block is cached, so it is that of its address.
    rw [if_neg (not_not.mpr hit)]
    obtain ⟨block, stale, decoded, entries⟩ :=
      valid (by rw [hit]; exact pc_ne_invalidVa sentinel)
    rw [hit] at decoded
    rw [decoded]
    refine ⟨_, sim, rfl, ⟨stale, entries⟩, coherent, ⟨rfl, rfl⟩, blocks, fun va held => .inl held,
      fun va member => ⟨BbCache.index sim.pc, ?_, ?_⟩⟩ <;>
      rw [show (sim.bbCache.entries _).virtAddr = sim.pc from hit]
    · exact pc_ne_invalidVa sentinel
    · exact member
  · -- The block is not cached, so it is decoded from the words at the address.
    rw [if_pos hit]
    have tracks : Tracks sim (fun _ => True) sim sim.plain := coherent.tracks trivial
    have decoded := tracks.updateFrom_eq _
      (show _ = Bb.room + 1 from (sim.bbCache.find sim.pc).sized) sentinel
    have updated := Bb.update_eq Simulator.fetch (sim.bbCache.find sim.pc) (sim.pc, sim) sim.pc
    cases word : Bb.decodeFrom sim.fetchAt Bb.room sim.pc with
    | error why =>
      rw [word] at decoded
      dsimp only at decoded ⊢
      rw [decoded] at updated
      dsimp only at updated
      rw [updated]
    | ok block =>
      rw [word] at decoded
      obtain ⟨stale, next, fetched, decoded, kept⟩ := decoded
      rw [decoded] at updated
      obtain ⟨bb, updated, address, entries⟩ := updated
      dsimp only
      rw [updated]
      exact ⟨bb, _, rfl, found_of_update blocks sentinel word kept address ⟨stale, entries⟩⟩

end Simulator

end RiscvSim
