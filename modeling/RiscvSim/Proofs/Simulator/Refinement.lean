import RiscvSim.Proofs.Simulator.Prefetch

/-! With its caches empty at first, the simulator does what a plain interpreter does. -/

namespace RiscvSim

open Transition

namespace Simulator

/-- The three translation caches and the block cache are empty. -/
def Fresh (sim : Simulator) : Prop :=
  sim.readTlb = {} ∧ sim.writeTlb = {} ∧ sim.fetchTlb = {} ∧ sim.bbCache = {}

end Simulator

namespace Config

variable {first cfg : Config} {n : Nat}

/-- Every step of a run is quiet. -/
def QuietRun (first : Config) : Prop := ∀ n cfg, run step n first = .next cfg → cfg.Quiet

/-- A point of a run at which the caches are valid, and a plain machine in the same state. -/
def Alike (first cfg : Config) (state : Prefetcher) : Prop :=
  (∃ m, run step m first = .next cfg) ∧ cfg.Valid state.room ∧ cfg.sim.plain = state.plain

/-- A simulator with valid caches keeps step with the machine that fetches ahead. -/
theorem Valid.lockstep (valid : first.Valid none) (quiet : first.QuietRun) :
    (run step n first).Both first.Alike (fun left right => left.plain = right)
      (run Prefetcher.step n ⟨first.sim.plain, none⟩) := by
  have start : first.Alike first ⟨first.sim.plain, none⟩ := ⟨⟨0, rfl⟩, valid, rfl⟩
  -- Each step keeps the caches valid, since the run stays quiet.
  refine Transition.lockstep (fun cfg state alike => ?_) start
  obtain ⟨⟨m, led⟩, valid, same⟩ := alike
  have together := valid.moves (quiet m cfg led)
  rw [same] at together
  exact together.imp (fun after next stepped _ follows =>
    ⟨⟨m + 1, (run_succ led).trans stepped⟩, follows.1, follows.2.1⟩) fun _ _ same => same

/-- A word was fetched for a block at an earlier point of a run. -/
def Fetched (first : Config) (n : Nat) (va : VirtAddr) : Prop :=
  ∃ m cfg, m ≤ n ∧ run step m first = .next cfg ∧ cfg.rest = none ∧ va ∈ cfg.sim.fetchVas

/-- A run that does not disturb the caches. -/
structure Undisturbed (first : Config) : Prop where
  /-- No word of a block is fetched from the page that marks empty entries. -/
  fetches : ∀ n cfg, run step n first = .next cfg → cfg.rest = none →
    ∀ va ∈ cfg.sim.fetchVas, pageBase va ≠ poisonVa
  /-- No value is loaded from that page or stored to it. -/
  accesses : ∀ n cfg instr rest handler va, run step n first = .next cfg →
    cfg.rest = some (instr :: rest) → dispatch instr.id = some handler →
    handler.dataVa cfg.sim.toCore instr = some va → pageBase va ≠ poisonVa
  /-- The leaf entries that fetches use have the accessed and dirty bits. -/
  flags : ∀ n cfg, run step n first = .next cfg → cfg.rest = none →
    ∀ va ∈ cfg.sim.fetchVas, cfg.sim.translateVa .fetch va ≠ .error .assertion
  /-- No byte of a page table entry changes. -/
  tables : ∀ n cfg after, run step n first = .next cfg → step cfg = .next after → ∀ va,
    ∀ pte ∈ tableEntries cfg.sim.physMemory cfg.sim.hart.csrFile.satp64 va, ∀ addr,
      ByteStore.InRun pte pteBytes addr →
      after.sim.physMemory.bytes addr = cfg.sim.physMemory.bytes addr
  /-- No byte of an instruction word changes that was fetched before. -/
  code : ∀ n cfg after, run step n first = .next cfg → step cfg = .next after → ∀ va pa,
    first.Fetched n va → cfg.sim.translateVa .fetch va = .ok ⟨.ok, pa⟩ → ∀ addr,
      ByteStore.InRun pa 4 addr →
      after.sim.physMemory.bytes addr = cfg.sim.physMemory.bytes addr

/-- A word that was fetched earlier was fetched before a later point. -/
theorem Fetched.mono {m : Nat} {va : VirtAddr} (fetched : first.Fetched n va) (later : n ≤ m) :
    first.Fetched m va := by
  obtain ⟨k, cfg, bound, rest⟩ := fetched
  exact ⟨k, cfg, Nat.le_trans bound later, rest⟩

/-- A run that does not disturb the caches is quiet while they hold words it fetched. -/
theorem Undisturbed.quiet (undisturbed : first.Undisturbed) (led : run step n first = .next cfg)
    (fetched : ∀ va, cfg.sim.Holds va → first.Fetched n va) : cfg.Quiet where
  fetches := undisturbed.fetches n cfg led
  accesses instr rest handler va := undisturbed.accesses n cfg instr rest handler va led
  tables after := undisturbed.tables n cfg after led
  code after next va pa held := undisturbed.code n cfg after led next va pa (fetched va held)

/-- The words that cached blocks hold were all fetched during the run. -/
theorem Undisturbed.held_fetched (undisturbed : first.Undisturbed) (valid : first.Valid none)
    (empty : ∀ va, ¬first.sim.Holds va) (led : run step n first = .next cfg) :
    (∃ room, cfg.Valid room) ∧ ∀ va, cfg.sim.Holds va → first.Fetched n va := by
  -- By induction on the run, a block is added when its words are fetched.
  refine Transition.invariant (h := fun n cfg =>
    (∃ room, cfg.Valid room) ∧ ∀ va, cfg.sim.Holds va → first.Fetched n va)
    ⟨⟨none, valid⟩, fun va held => (empty va held).elim⟩ ?_ led
  rintro m before after _ reached ⟨⟨room, valid⟩, fetched⟩ next
  have together := valid.moves (undisturbed.quiet reached fetched)
  rw [next] at together
  obtain ⟨state, _, valid, _, held⟩ := together.of_next
  refine ⟨⟨state.room, valid⟩, fun va member => ?_⟩
  -- A word that is held was held before, or it belongs to the block that was just found.
  rcases held va member with old | ⟨boundary, new⟩
  · exact (fetched va old).mono (Nat.le_succ m)
  · exact ⟨m, before, Nat.le_succ m, reached, boundary, new⟩

/-- Fresh caches hold nothing, and are valid. -/
theorem valid_of_fresh {sim : Simulator} (fresh : sim.Fresh) (startPc : VirtAddr) :
    (start sim startPc).Valid none ∧ ∀ va, ¬(start sim startPc).sim.Holds va := by
  obtain ⟨read, write, fetch, blocks⟩ := fresh
  -- Every place of a fresh cache has the address that no block has.
  have cached (i : Fin bbCacheSize) :
      ((start sim startPc).sim.bbCache.entries i).virtAddr = Bb.invalidVa := by
    rw [show (start sim startPc).sim.bbCache = {} from blocks]
    rfl
  refine ⟨⟨⟨?_, ?_, ?_⟩, fun i occupied => absurd (cached i) occupied, rfl⟩,
    fun va ⟨i, occupied, _⟩ => occupied (cached i)⟩
  · rw [show (start sim startPc).sim.readTlb = {} from read]
    exact TLB.coherent_empty
  · rw [show (start sim startPc).sim.writeTlb = {} from write]
    exact TLB.coherent_empty
  · rw [show (start sim startPc).sim.fetchTlb = {} from fetch]
    exact TLB.coherent_empty

end Config

namespace Prefetcher

/-- The machine executes an instruction next. -/
def executes (state : Prefetcher) : Bool :=
  match state.room with
  | some (_ + 1) => true
  | _ => false

/-- How many steps there are at most before the machine executes an instruction. -/
def patience (state : Prefetcher) : Nat :=
  match state.room with
  | some (_ + 1) => 0
  | none => 1
  | some 0 => 2

/-- Every block that the machine comes to can be fetched without an abort. -/
def Fetches (first : Prefetcher) : Prop :=
  ∀ n state, run step n first = .next state → state.room = none →
    ∃ block, Bb.decodeFrom state.plain.fetchAt Bb.room state.plain.pc = .ok block

/-- The plain interpreter executes the same instructions and fetches no block. -/
theorem stuttering {first : Prefetcher} (fetches : first.Fetches) :
    Stuttering step Plain.step
      (fun state plain => (∃ n, run step n first = .next state) ∧ state.plain = plain)
      id executes patience where
  moves := by
    rintro ⟨plain, room⟩ _ ⟨⟨n, led⟩, rfl⟩ executes
    cases room with
    | none => cases executes
    | some room =>
      cases room with
      | zero => cases executes
      | succ room =>
        -- Both fetch the word at the program counter and call its handler.
        have reached {after : Prefetcher} (next : step ⟨plain, some (room + 1)⟩ = .next after) :
            ∃ n, run step n first = .next after := ⟨n + 1, (run_succ led).trans next⟩
        simp only [step, Plain.step, Plain.stepWith] at reached ⊢
        cases fetched : plain.fetchAt plain.pc with
        | error why => rfl
        | ok res =>
          simp only [fetched] at reached ⊢
          by_cases ok : res.status = .ok
          · simp only [if_neg (not_not.mpr ok)] at reached ⊢
            cases called : call plain (Instr.decode res.instrCode) with
            | error why => rfl
            | ok result =>
              obtain ⟨flow, after⟩ := result
              simp only [called] at reached
              cases flow with
              | next => exact ⟨after, rfl, reached rfl, rfl⟩
              | ret status =>
                simp only [Config.ofStatus] at reached ⊢
                by_cases exit : status = .simExit
                · simp only [if_pos exit, id]
                · simp only [if_neg exit] at reached ⊢
                  by_cases ok : status = .ok
                  · simp only [if_neg (not_not.mpr ok)] at reached ⊢
                    exact ⟨after, rfl, reached rfl, rfl⟩
                  · simp only [if_pos ok, id]
          · simp only [if_pos ok, id]
  waits := by
    rintro ⟨plain, room⟩ _ ⟨⟨n, led⟩, rfl⟩ waits
    -- At a block boundary the machine fetches ahead, which is one step.
    cases room with
    | none =>
      obtain ⟨block, decoded⟩ := fetches n _ led rfl
      have next : step ⟨plain, none⟩ = .next ⟨plain, some Bb.room⟩ := by
        simp only [step, decoded]
      exact ⟨_, next, ⟨⟨n + 1, (run_succ led).trans next⟩, rfl⟩, Nat.zero_lt_one⟩
    | some room =>
      -- With no room left the block is over, which is another step.
      cases room with
      | zero =>
        have next : step ⟨plain, some 0⟩ = .next ⟨plain, none⟩ := rfl
        exact ⟨_, next, ⟨⟨n + 1, (run_succ led).trans next⟩, rfl⟩, Nat.one_lt_two⟩
      | succ room => cases waits

end Prefetcher

/-- A word can be fetched unless its leaf entry lacks the accessed or the dirty bit. -/
theorem Simulator.fetchAt_ok {sim : Simulator} {va : VirtAddr}
    (flags : sim.translateVa .fetch va ≠ .error .assertion) : ∃ res, sim.fetchAt va = .ok res := by
  have read : ∃ res, sim.plain.readInt 4 .fetch va = .ok res := by
    unfold Plain.readInt
    -- Translation aborts only for the missing bits.
    cases translated : sim.plain.translateVa .fetch va with
    | error why =>
      cases translate_error translated
      exact absurd translated flags
    | ok result =>
      dsimp only
      split
      · exact ⟨_, rfl⟩
      · split <;> exact ⟨_, rfl⟩
  obtain ⟨res, read⟩ := read
  simp only [fetchAt, Plain.fetchAt, Plain.loadInt, read]
  split <;> exact ⟨_, rfl⟩

namespace Config

variable {first : Config}

/-- The machine that fetches ahead meets no entry without the bits either. -/
theorem Undisturbed.prefetches (undisturbed : first.Undisturbed) (valid : first.Valid none)
    (quiet : first.QuietRun) : Prefetcher.Fetches ⟨first.sim.plain, none⟩ := by
  rintro n ⟨plain, room⟩ led rfl
  have together := valid.lockstep (n := n) quiet
  rw [led] at together
  obtain ⟨cfg, left, _, ⟨_, _, boundary⟩, same⟩ := together.next_of
  -- The two machines are in the same state at the block boundary.
  have flags := undisturbed.flags n cfg left boundary
  change cfg.sim.plain = plain at same
  rw [← same]
  exact Bb.decodeFrom_ok fun va member => Simulator.fetchAt_ok (flags va member)

/-- A run that stays quiet is a run of the plain interpreter, to the same results. -/
theorem Valid.refines (valid : first.Valid none) (quiet : first.QuietRun)
    (fetches : Prefetcher.Fetches ⟨first.sim.plain, none⟩) :
    (∀ n cfg, run step n first = .next cfg →
      ∃ m, run Plain.step m first.sim.plain = .next cfg.sim.plain) ∧
    ∀ value, (∃ n result, run step n first = .stop result ∧ result.plain = value) ↔
      ∃ m, run Plain.step m first.sim.plain = .stop value := by
  have stuttering := Prefetcher.stuttering fetches
  have start : (∃ n, run Prefetcher.step n ⟨first.sim.plain, none⟩ =
      .next ⟨first.sim.plain, none⟩) ∧ first.sim.plain = first.sim.plain := ⟨⟨0, rfl⟩, rfl⟩
  refine ⟨fun n cfg led => ?_, fun value => ⟨?_, ?_⟩⟩
  · -- The machine that fetches ahead has the same states, and the interpreter has those.
    have together := valid.lockstep (n := n) quiet
    rw [led] at together
    obtain ⟨state, ahead, _, _, same⟩ := together.of_next
    obtain ⟨slow, slowLed, _, slowSame⟩ := stuttering.next start ahead
    rw [same, slowSame]
    exact ⟨_, slowLed⟩
  · -- A result carries over to the machine that fetches ahead, and from there to the interpreter.
    rintro ⟨n, result, stopped, rfl⟩
    have together := valid.lockstep (n := n) quiet
    rw [stopped] at together
    obtain ⟨value, ahead, same⟩ := together.of_stop
    obtain ⟨m, slowStopped⟩ := stuttering.stop start ahead
    exact ⟨m, slowStopped.trans (congrArg _ same.symm)⟩
  · -- Conversely, the interpreter's result is reached by the machine that fetches ahead.
    rintro ⟨m, stopped⟩
    obtain ⟨n, value', ahead, rfl⟩ := stuttering.stop_of_spec start stopped
    have together := valid.lockstep (n := n) quiet
    rw [ahead] at together
    obtain ⟨result, left, same⟩ := together.stop_of
    exact ⟨n, result, left, same⟩

end Config

/-- A simulation goes through states of an interpreter's run, and both return the same. -/
structure Simulator.Refines (sim : Simulator) (step : Plain → Outcome Plain (SimResult Plain))
    (startPc : VirtAddr) : Prop where
  visits : ∀ n cfg, run Config.step n (Config.start sim startPc) = .next cfg →
    ∃ m, run step m (sim.start startPc).plain = .next cfg.sim.plain
  returns : ∀ value, (∃ result, sim.Returns startPc result ∧ result.plain = value) ↔
    ∃ m, run step m (sim.start startPc).plain = .stop value

/-- A simulation that starts with empty caches, and leaves them alone, is one without caches. -/
theorem Simulator.refines_plain {sim : Simulator} {startPc : VirtAddr} (fresh : sim.Fresh)
    (undisturbed : (Config.start sim startPc).Undisturbed) : sim.Refines Plain.step startPc := by
  obtain ⟨valid, empty⟩ := Config.valid_of_fresh fresh startPc
  -- By the run lemma the cached words were all fetched during the run.
  have quiet : (Config.start sim startPc).QuietRun := fun n cfg led =>
    undisturbed.quiet led (undisturbed.held_fetched valid empty led).2
  obtain ⟨visits, returns⟩ := valid.refines quiet (undisturbed.prefetches valid quiet)
  refine ⟨visits, fun value => ?_⟩
  rw [← show (Config.start sim startPc).sim.plain = (sim.start startPc).plain from rfl, ← returns]
  constructor
  · rintro ⟨result, returned, same⟩
    obtain ⟨n, stopped⟩ := (sim.returns_iff startPc result).mp returned
    exact ⟨n, result, stopped, same⟩
  · rintro ⟨n, result, stopped, same⟩
    exact ⟨result, (sim.returns_iff startPc result).mpr ⟨n, stopped⟩, same⟩

namespace Config

variable {first cfg : Config}

/-- A point without translation that fetches known words only, and whose step changes none of them.

It stays away from the page that marks empty entries, too.
-/
def keepsWords (words : List VirtAddr) (cfg : Config) : Bool :=
  cfg.sim.hart.csrFile.satp64.mode == .bare &&
    (cfg.rest.isSome || cfg.sim.fetchVas.all fun va => words.contains va && pageBase va != poisonVa) &&
    ((cfg.rest.bind List.head?).all fun instr =>
      (dispatch instr.id).all fun handler =>
        (handler.dataVa cfg.sim.toCore instr).all fun va => pageBase va != poisonVa) &&
    match step cfg with
    | .stop _ => true
    | .next after => words.all fun va => (List.range 4).all fun i =>
        after.sim.physMemory.bytes (va + BitVec.ofNat 64 i) ==
          cfg.sim.physMemory.bytes (va + BitVec.ofNat 64 i)

/-- An address that was checked is a known one, outside the page that marks empty entries. -/
theorem known_of_checked {words fetched : List VirtAddr}
    (checked : (fetched.all fun va => words.contains va && pageBase va != poisonVa) = true)
    {va : VirtAddr} (member : va ∈ fetched) : va ∈ words ∧ pageBase va ≠ poisonVa := by
  have known := List.all_eq_true.mp checked va member
  rw [Bool.and_eq_true] at known
  exact ⟨List.contains_iff_mem.mp known.1, bne_iff_ne.mp known.2⟩

/-- The bytes of a known word that were compared are the same. -/
theorem bytes_of_checked {words : List VirtAddr} {left right : VirtAddr → Nat → Option (BitVec 8)}
    (checked : (words.all fun va => (List.range 4).all fun i => left va i == right va i) = true)
    {va : VirtAddr} (known : va ∈ words) {i : Nat} (inside : i < 4) : left va i = right va i := by
  have bytes := List.all_eq_true.mp checked va known
  exact eq_of_beq (List.all_eq_true.mp bytes i (List.mem_range.mpr inside))

/-- What the check of a point says. -/
structure KeepsWords (words : List VirtAddr) (cfg : Config) : Prop where
  bare : cfg.sim.hart.csrFile.satp64.mode = .bare
  fetches : cfg.rest = none → ∀ va ∈ cfg.sim.fetchVas, va ∈ words ∧ pageBase va ≠ poisonVa
  accesses : ∀ instr rest handler va, cfg.rest = some (instr :: rest) →
    dispatch instr.id = some handler → handler.dataVa cfg.sim.toCore instr = some va →
    pageBase va ≠ poisonVa
  code : ∀ after, step cfg = .next after → ∀ va ∈ words, ∀ i < 4,
    after.sim.physMemory.bytes (va + BitVec.ofNat 64 i) =
      cfg.sim.physMemory.bytes (va + BitVec.ofNat 64 i)

/-- The check of a point is sound. -/
theorem keepsWords_sound {words : List VirtAddr} (checked : cfg.keepsWords words = true) :
    cfg.KeepsWords words := by
  simp only [keepsWords, Bool.and_eq_true] at checked
  obtain ⟨⟨⟨bare, fetches⟩, accesses⟩, code⟩ := checked
  refine ⟨eq_of_beq bare, fun between va member => ?_,
    fun instr rest handler va here dispatched access => ?_, fun after next va member i inside => ?_⟩
  · rw [between, Option.isSome_none, Bool.false_or] at fetches
    exact known_of_checked fetches member
  · rw [here, Option.bind_some, List.head?_cons, Option.all_some, dispatched, Option.all_some,
      access, Option.all_some] at accesses
    exact bne_iff_ne.mp accesses
  · rw [next] at code
    exact bytes_of_checked code member inside

namespace KeepsWords

variable {words : List VirtAddr} {after : Config} (keeps : cfg.KeepsWords words)

include keeps

/-- Every address is its own translation. -/
theorem translateVa_eq (accessType : AccessType) (va : VirtAddr) :
    cfg.sim.translateVa accessType va = .ok ⟨.ok, va⟩ := by
  rw [Simulator.translateVa, translate, if_pos keeps.bare]

/-- There are no tables. -/
theorem tableEntries_eq (va : VirtAddr) :
    tableEntries cfg.sim.physMemory cfg.sim.hart.csrFile.satp64 va = [] := by
  rw [tableEntries, keeps.bare]
  rfl

/-- The bytes behind a known word stay. -/
theorem bytes_of_word (next : step cfg = .next after) {va pa : VirtAddr} (known : va ∈ words)
    (found : cfg.sim.translateVa .fetch va = .ok ⟨.ok, pa⟩) {addr : PhysAddr}
    (inside : ByteStore.InRun pa 4 addr) :
    after.sim.physMemory.bytes addr = cfg.sim.physMemory.bytes addr := by
  cases (keeps.translateVa_eq .fetch va).symm.trans found
  obtain ⟨i, bound, rfl⟩ := (ByteStore.inRun_iff (by decide)).mp inside
  exact keeps.code after next va known i bound

/-- The step is quiet where the cached words are known. -/
theorem quiet (held : ∀ va, cfg.sim.Holds va → va ∈ words) : cfg.Quiet where
  fetches between va member := (keeps.fetches between va member).2
  accesses := keeps.accesses
  tables after next va pte member := by
    rw [keeps.tableEntries_eq] at member
    cases member
  code after next va pa holds found addr inside :=
    keeps.bytes_of_word next (held va holds) found inside

end KeepsWords

/-- A run whose points were all checked disturbs nothing. -/
theorem undisturbed_of_checked (words : List VirtAddr) (n : Nat)
    (stops : (run step n first).stops = true)
    (checked : (visited step n first).all (keepsWords words) = true) : first.Undisturbed := by
  have keeps {m : Nat} {cfg : Config} (led : run step m first = .next cfg) :
      cfg.KeepsWords words := keepsWords_sound (check_of_visited stops checked led)
  constructor
  · exact fun m cfg led between va member => ((keeps led).fetches between va member).2
  · exact fun m cfg instr rest handler va led => (keeps led).accesses instr rest handler va
  · intro m cfg led between va member never
    cases ((keeps led).translateVa_eq .fetch va).symm.trans never
  · intro m cfg after led next va pte member
    rw [(keeps led).tableEntries_eq] at member
    cases member
  · -- A word that was fetched earlier was known where it was fetched.
    intro m cfg after led next va pa ⟨k, earlier, _, ledEarlier, between, member⟩ found addr inside
    exact (keeps led).bytes_of_word next ((keeps ledEarlier).fetches between va member).1 found inside

/-- Every cached block was decoded from known words. -/
def holdsOnly (words : List VirtAddr) (cfg : Config) : Bool :=
  (List.finRange bbCacheSize).all fun i =>
    (cfg.sim.bbCache.entries i).virtAddr == Bb.invalidVa ||
      (Bb.fetchVas cfg.sim.fetchAt Bb.room (cfg.sim.bbCache.entries i).virtAddr).all words.contains

/-- A word that is held is a known one. -/
theorem mem_of_holdsOnly {words : List VirtAddr} (checked : cfg.holdsOnly words = true)
    (va : VirtAddr) (held : cfg.sim.Holds va) : va ∈ words := by
  obtain ⟨i, occupied, member⟩ := held
  have entry := List.all_eq_true.mp checked i (List.mem_finRange i)
  rw [beq_eq_false_iff_ne.mpr occupied, Bool.false_or] at entry
  exact List.contains_iff_mem.mp (List.all_eq_true.mp entry va member)

/-- A checked run from valid caches that hold known words is quiet. -/
theorem quietRun_of_checked (words : List VirtAddr) (n : Nat) (valid : first.Valid none)
    (holds : first.holdsOnly words = true) (stops : (run step n first).stops = true)
    (checked : (visited step n first).all (keepsWords words) = true) : first.QuietRun := by
  have keeps {m : Nat} {cfg : Config} (led : run step m first = .next cfg) :
      cfg.KeepsWords words := keepsWords_sound (check_of_visited stops checked led)
  -- By induction on the run, the cached words stay known.
  have known {m : Nat} {cfg : Config} (led : run step m first = .next cfg) :
      (∃ room, cfg.Valid room) ∧ ∀ va, cfg.sim.Holds va → va ∈ words := by
    refine Transition.invariant (h := fun _ cfg =>
      (∃ room, cfg.Valid room) ∧ ∀ va, cfg.sim.Holds va → va ∈ words)
      ⟨⟨none, valid⟩, mem_of_holdsOnly holds⟩ ?_ led
    rintro k before after _ reached ⟨⟨room, valid⟩, held⟩ next
    have together := valid.moves ((keeps reached).quiet held)
    rw [next] at together
    obtain ⟨state, _, valid, _, later⟩ := together.of_next
    refine ⟨⟨state.room, valid⟩, fun va member => ?_⟩
    rcases later va member with old | ⟨boundary, new⟩
    · exact held va old
    · exact ((keeps reached).fetches boundary va new).1
  exact fun m cfg led => (keeps led).quiet (known led).2

/-- The first entry is the one that the next point has, in the state of the start. -/
theorem rest_of_firstEntry {sim : Simulator} {startPc : VirtAddr} {after : Config} {instr : Instr}
    (first : (start sim startPc).firstEntry = some instr)
    (next : step (start sim startPc) = .next after) :
    after.sim.SameState (sim.start startPc) ∧ ∃ rest, after.rest = some (instr :: rest) := by
  obtain ⟨other, rest, led, inside⟩ := next_of_firstEntry first
  cases led.symm.trans next
  refine ⟨?_, rest, inside⟩
  cases step_next next with
  | found _ found => exact (Simulator.findBb_spec found).2.2
  | called elsewhere => cases (show none = some _ from elsewhere)
  | returned elsewhere => cases (show none = some _ from elsewhere)

/-- A status instruction ends the simulation with its status. -/
theorem step_statusInstr {cfg : Config} {rest : List Instr} {status : SimStatus}
    (here : cfg.rest = some (Instr.statusInstr status :: rest)) (failed : status ≠ .ok)
    (other : status ≠ .simExit) : step cfg = .stop (.ok (status, cfg.sim)) := by
  obtain ⟨sim, entries⟩ := cfg
  cases here
  rw [step_call, call_statusInstr]
  simp only [ofStatus, if_neg other, if_pos failed]

/-- The word of an environment call is dispatched to the handler that ends the simulation. -/
theorem dispatch_ecall : dispatch (Instr.decode 0x73).id = some .exit := by
  rw [show (Instr.decode 0x73).id = .ecall by decide +kernel]
  rfl

/-- An environment call ends the simulation. -/
theorem step_ecall {cfg : Config} {rest : List Instr}
    (here : cfg.rest = some (Instr.decode 0x73 :: rest)) :
    step cfg = .stop (.ok (.ok, { cfg.sim with toCore := cfg.sim.toCore.incr })) := by
  obtain ⟨sim, entries⟩ := cfg
  cases here
  simp only [step, dispatch_ecall]
  rfl

/-- A simulation returns the result of its first entry. -/
theorem returns_of_firstEntry {sim : Simulator} {startPc : VirtAddr} {instr : Instr}
    {r : Simulator → SimResult Simulator} (first : (start sim startPc).firstEntry = some instr)
    (ends : ∀ cfg rest, cfg.rest = some (instr :: rest) → step cfg = .stop (r cfg.sim)) :
    ∃ found, found.SameState (sim.start startPc) ∧ sim.Returns startPc (r found) := by
  obtain ⟨after, _, next, _⟩ := next_of_firstEntry first
  obtain ⟨same, rest, inside⟩ := rest_of_firstEntry first next
  exact ⟨after.sim, same, (Simulator.returns_iff _ _ _).mpr
    ⟨2, (run_of_next next).trans ((run_succ rfl).trans (ends after rest inside))⟩⟩

end Config

/-- An environment call at the first address is the first entry. -/
theorem Simulator.firstEntry_ecall :
    (Config.start (Simulator.holdingWord 0 0x73) 0).firstEntry = some (Instr.decode 0x73) := by
  decide +kernel

/-- A program of two blocks that loads and stores is simulated as it is interpreted. -/
theorem Simulator.refines_plain_program :
    Simulator.Refines (Simulator.holdingProgram 0) Plain.step 0 :=
  Simulator.refines_plain ⟨rfl, rfl, rfl, rfl⟩
    (Config.undisturbed_of_checked (Simulator.programWords 0) 8 (by decide +kernel)
      (by decide +kernel))

/-- The status that an outcome stops with, if it does. -/
def SimResult.stoppedStatus {σ τ : Type} : Outcome τ (SimResult σ) → Option SimStatus
  | .stop (.ok (status, _)) => some status
  | _ => none

/-- A start address that is not aligned is refused, though there is an instruction to execute. -/
theorem Simulator.not_refines_unaligned :
    ¬∀ (sim : Simulator) (startPc : VirtAddr), sim.Fresh →
      (Config.start sim startPc).Undisturbed →
      sim.Refines (Plain.stepWith Plain.fetchAnywhere) startPc := by
  -- The refinement fails for a word at an address that is not a multiple of four.
  intro refines
  have entry : (Config.start (Simulator.holdingWord 2 0x73) 2).firstEntry =
      some (Instr.statusInstr .simUnalignedLoad) := by decide +kernel
  have stops (cfg : Config) (rest : List Instr)
      (here : cfg.rest = some (Instr.statusInstr .simUnalignedLoad :: rest)) :
      Config.step cfg = .stop (.ok (.simUnalignedLoad, cfg.sim)) :=
    Config.step_statusInstr here (by decide) (by decide)
  have undisturbed : (Config.start (Simulator.holdingWord 2 0x73) 2).Undisturbed :=
    Config.undisturbed_of_checked [2] 2 (by decide +kernel) (by decide +kernel)
  -- The simulation returns an alignment error.
  obtain ⟨found, _, returned⟩ := Config.returns_of_firstEntry
    (r := fun sim => .ok (.simUnalignedLoad, sim)) entry stops
  have literal := refines _ 2 ⟨rfl, rfl, rfl, rfl⟩ undisturbed
  obtain ⟨m, stopped⟩ := (literal.returns _).mp ⟨_, returned, rfl⟩
  -- The interpreter executes the environment call and returns that all is well.
  have well : SimResult.stoppedStatus (run (Plain.stepWith Plain.fetchAnywhere) 1
      (Simulator.start (Simulator.holdingWord 2 0x73) 2).plain) = some .ok := by decide +kernel
  cases called : run (Plain.stepWith Plain.fetchAnywhere) 1
      (Simulator.start (Simulator.holdingWord 2 0x73) 2).plain with
  | next plain =>
    rw [called] at well
    cases well
  | stop value =>
    rw [called, stop_unique called stopped] at well
    cases well

end RiscvSim
