import RiscvSim.Proofs.Simulator.HostCall
import RiscvSim.Lib.SlotLog

/-! What the caches hold is what was put there, but for the addresses that mark empty entries. -/

namespace RiscvSim

open SlotLog

namespace TLB

/-- What is done to a translation cache: updates, invalidations and lookups. -/
abbrev Log := List (Event VirtAddr (Option HostPtr))

/-- The entries of a translation cache are tagged by the page of the address. -/
def layout : Layout VirtAddr (Option HostPtr) (Fin tlbSize) TLBEntry VirtAddr where
  slot := index
  name := pageBase
  entry virtAddr hostPagePtr := ⟨hostPagePtr, pageBase virtAddr⟩
  tag := TLBEntry.virtAddr
  empty := poisonVa
  tag_entry _ _ := rfl

/-- Perform one call. -/
def call (tlb : TLB) : Event VirtAddr (Option HostPtr) → TLB
  | .fill virtAddr hostPagePtr => tlb.update virtAddr hostPagePtr
  | .clear => tlb.invalidate
  -- A lookup gives an answer and changes nothing.
  | .probe _ => tlb

/-- A new cache after the calls of a log. -/
def replay : Log → TLB
  | [] => {}
  | last :: earlier => (replay earlier).call last

/-- A hit is a translation that was cached, and gives its host address. -/
structure FindSound (log : Log) (va : VirtAddr) : Prop where
  hit : ((replay log).find va).1 = true ↔ layout.Filled log va
  host : ∀ other host, lastFill index (index va) log = some (other, host) →
    pageBase other = pageBase va →
    ((replay log).find va).2 = host.map fun host => host.add (pageOffset va).toNat

/-- A cache holds what its log says. -/
theorem mirrors_replay (log : Log) : layout.Mirrors log (replay log).entries := by
  -- By induction on the log, every call keeps what the log says.
  induction log with
  | nil => exact Layout.mirrors_nil fun _ => rfl
  | cons last earlier ih =>
    cases last with
    -- The update is the filling of the slot that the layout names.
    | fill virtAddr hostPagePtr =>
      have same : (replay (.fill virtAddr hostPagePtr :: earlier)).entries =
          Function.update (replay earlier).entries (layout.slot virtAddr)
            (layout.entry virtAddr hostPagePtr) := by
        simp only [replay, call, TLB.update, sub_pageOffset]
        rfl
      rw [same]
      exact ih.fill virtAddr hostPagePtr
    | clear => exact Layout.Mirrors.clear fun _ => rfl
    | probe virtAddr => exact ih.probe

/-- Hits are sound exactly for the pages that mark no empty entry. -/
theorem findSound_iff (log : Log) (va : VirtAddr) :
    FindSound log va ↔
      (pageBase va = poisonVa → ∃ filling, lastFill index (index va) log = some filling) := by
  have mirrors := mirrors_replay log
  -- A hit compares the tag with the page of the address.
  have tagged : ((replay log).find va).1 = true ↔
      layout.tag ((replay log).entries (layout.slot va)) = layout.name va := by
    exact beq_iff_eq.trans eq_comm
  constructor
  · intro sound
    exact (mirrors.sound_iff va).mp fun hit => sound.hit.mp (tagged.mpr hit)
  · intro occupied
    -- The library says that a hit is sound exactly at occupied slots.
    refine ⟨tagged.trans ⟨(mirrors.sound_iff va).mpr occupied, fun filled =>
      (mirrors.hit_iff va).mpr (.inl filled)⟩, ?_⟩
    intro other host last _
    -- The entry is the one that was put there last.
    have held := mirrors.entry_eq last
    simp only [TLB.find, getEntry, held]
    rfl

end TLB

namespace BbCache

/-- The fillings of blocks. -/
abbrev Log := List (Event VirtAddr Bb)

/-- The blocks are tagged by their addresses. -/
def layout : Layout VirtAddr Bb (Fin bbCacheSize) Bb VirtAddr where
  slot := index
  name := id
  entry virtAddr bb := { bb with virtAddr := virtAddr }
  tag := Bb.virtAddr
  empty := Bb.invalidVa
  tag_entry _ _ := rfl

/-- The block that is found at an address was filled from it. -/
def FindSound (cache : BbCache) (log : Log) (pc : VirtAddr) : Prop :=
  (cache.find pc).virtAddr = pc →
    ∃ bb, lastFill index (index pc) log = some (pc, bb) ∧ (cache.find pc).instrs = bb.instrs

end BbCache

namespace Config

/-- What a step does to the cached blocks: it updates one that is not at the program counter. -/
def filled (cfg : Config) : BbCache.Log :=
  match cfg.rest with
  | some _ => []
  | none =>
    let cachedBb := cfg.sim.bbCache.find cfg.sim.pc
    if cachedBb.virtAddr ≠ cfg.sim.pc then
      match cachedBb.update cfg.sim.pc Simulator.fetch (cfg.sim.pc, cfg.sim) with
      | .error _ => []
      | .ok (bb, _) => [.fill cfg.sim.pc bb]
    else []

end Config

/-- A simulator that a host holds, or a point of a simulation. -/
inductive Point where
  | idle (sim : Simulator)
  | running (cfg : Config)

/-- The simulator at a point. -/
def Point.sim : Point → Simulator
  | idle sim => sim
  | running cfg => cfg.sim

/-- The points that a host and its simulations come to, with the fillings of blocks on the way. -/
inductive Logged : BbCache.Log → Point → Prop
  | new : Logged [] (.idle {})
  | hosted {log : BbCache.Log} {sim after : Simulator} (call : HostCall) :
    Logged log (.idle sim) → call.exec sim = .ok after → Logged log (.idle after)
  | started {log : BbCache.Log} {sim : Simulator} (startPc : VirtAddr) :
    Logged log (.idle sim) → Logged log (.running (Config.start sim startPc))
  | stepped {log : BbCache.Log} {cfg after : Config} :
    Logged log (.running cfg) → cfg.step = .next after →
    Logged (cfg.filled ++ log) (.running after)
  | stopped {log : BbCache.Log} {cfg : Config} {status : SimStatus} {after : Simulator} :
    Logged log (.running cfg) → cfg.step = .stop (.ok (status, after)) →
    Logged log (.idle after)

namespace Simulator

variable {sim after : Simulator}

/-- Fetching a block keeps the cached blocks and the program counter. -/
theorem update_frame {cached bb : Bb} {address : VirtAddr}
    (updated : cached.update sim.pc fetch (sim.pc, sim) = .ok (bb, address, after)) :
    bb.virtAddr = sim.pc ∧ after.pc = sim.pc ∧ after.bbCache = sim.bbCache := by
  have kept := Bb.update_keeps
    (k := fun state => state.2.pc = sim.pc ∧ state.2.bbCache = sim.bbCache)
    (fun state res later start fetched => by
      unfold fetch at fetched
      dsimp only at fetched
      split at fetched
      · cases fetched
      · rename_i loaded
        cases fetched
        -- A word is loaded through the fetch cache, which is all that changes.
        obtain ⟨⟨core, _⟩, blocks⟩ := loadInt_frame loaded
        exact ⟨(congrArg Core.pc core).trans start.1, blocks.trans start.2⟩) ⟨rfl, rfl⟩ updated
  exact ⟨kept.1, kept.2⟩

end Simulator

namespace Config

variable {cfg : Config} {log : BbCache.Log} {sim after : Simulator}

/-- Looking a block up fills what the step says that it fills. -/
theorem mirrors_findBb {bb : Bb} (here : cfg.rest = none)
    (found : cfg.sim.findBb = .ok (bb, sim))
    (mirrors : BbCache.layout.Mirrors log cfg.sim.bbCache.entries) :
    BbCache.layout.Mirrors (cfg.filled ++ log) sim.bbCache.entries := by
  unfold Simulator.findBb at found
  simp only [filled, here]
  dsimp only at found
  split at found
  · -- A miss fills the slot at the program counter, and a hit fills nothing.
    rename_i miss
    rw [if_pos miss]
    split at found
    · cases found
    · rename_i address fetched updated
      cases found
      obtain ⟨virtAddr, pc, blocks⟩ := Simulator.update_frame updated
      -- The block was updated at the program counter and put in the slot of that address.
      have entry : BbCache.layout.entry cfg.sim.pc bb = bb := by
        rw [← virtAddr]
        rfl
      have filled := mirrors.fill cfg.sim.pc bb
      rw [entry] at filled
      simp only [updated, BbCache.set, pc, blocks]
      exact filled
  · rename_i hit
    cases found
    rw [if_neg hit]
    exact mirrors

end Config

namespace Logged

variable {log : BbCache.Log} {point : Point}

/-- The cached blocks are what the log says. -/
theorem mirrors (logged : Logged log point) :
    BbCache.layout.Mirrors log point.sim.bbCache.entries := by
  -- By induction on the history: blocks are filled where one is looked up, and nowhere else.
  induction logged with
  | new => exact Layout.mirrors_nil fun _ => rfl
  -- A host call leaves the cached blocks.
  | hosted call _ executed ih =>
    simp only [Point.sim, (Simulator.keepsCaches_of_exec executed).bbCache]
    exact ih
  | started startPc _ ih => exact ih
  | stepped _ next ih =>
    cases Config.step_next next with
    | found here found => exact Config.mirrors_findBb here found ih
    -- Handlers leave them too, so that the log says nothing new.
    | called here _ executed =>
      simp only [Config.filled, here, List.nil_append, Point.sim,
        (Simulator.exec_spec executed).bbCache]
      exact ih
    | returned here _ executed =>
      simp only [Config.filled, here, List.nil_append, Point.sim,
        (Simulator.exec_spec executed).bbCache]
      exact ih
  -- The last step is that of a handler.
  | stopped _ stop ih =>
    cases Config.step_stop stop with
    | exited _ _ executed =>
      simp only [Point.sim, (Simulator.exec_spec executed).bbCache]
      exact ih
    | failed _ _ executed =>
      simp only [Point.sim, (Simulator.exec_spec executed).bbCache]
      exact ih

/-- Blocks are found where they were filled exactly at the addresses that mark no empty block. -/
theorem findSound_iff (logged : Logged log point) (pc : VirtAddr) :
    point.sim.bbCache.FindSound log pc ↔
      (pc = Bb.invalidVa →
        ∃ filling, lastFill BbCache.index (BbCache.index pc) log = some filling) := by
  have mirrors := logged.mirrors
  -- The library has the same equivalence for its own notion of a sound hit.
  refine Iff.trans ?_ (mirrors.sound_iff pc)
  constructor
  · intro sound hit
    obtain ⟨bb, last, _⟩ := sound hit
    exact ⟨pc, bb, last, rfl⟩
  · intro sound hit
    obtain ⟨other, bb, last, same⟩ := sound hit
    cases (show other = pc from same)
    -- The entries of the block are those of the last filling.
    have held := congrArg Bb.instrs (mirrors.entry_eq last)
    exact ⟨bb, last, held⟩

end Logged

/-- Hits are sound exactly when they do not find the mark of an entry that is still empty. -/
theorem cacheHits_sound_iff (tlbLog : TLB.Log) (va : VirtAddr) {log : BbCache.Log} {point : Point}
    (logged : Logged log point) (pc : VirtAddr) :
    (TLB.FindSound tlbLog va ↔
      (pageBase va = poisonVa →
        ∃ filling, lastFill TLB.index (TLB.index va) tlbLog = some filling)) ∧
    (point.sim.bbCache.FindSound log pc ↔
      (pc = Bb.invalidVa →
        ∃ filling, lastFill BbCache.index (BbCache.index pc) log = some filling)) :=
  ⟨TLB.findSound_iff tlbLog va, logged.findSound_iff pc⟩

/-- A log tells of every simulation from a simulator that it tells of. -/
theorem Logged.of_run {log : BbCache.Log} {first cfg : Config} {n : Nat}
    (logged : Logged log (.running first)) (led : Transition.run Config.step n first = .next cfg) :
    ∃ longer, Logged longer (.running cfg) := by
  refine Transition.invariant (h := fun _ cfg => ∃ longer, Logged longer (.running cfg))
    ⟨log, logged⟩ ?_ led
  exact fun _ _ _ _ _ ⟨_, before⟩ next => ⟨_, .stepped before next⟩

/-- Every simulator that hosts and simulations lead to has a log. -/
theorem Simulator.Reached.logged {sim : Simulator} (reached : sim.Reached) :
    ∃ log, Logged log (.idle sim) := by
  induction reached with
  | new => exact ⟨[], .new⟩
  | hosted call _ executed ih =>
    obtain ⟨log, before⟩ := ih
    exact ⟨log, .hosted call before executed⟩
  | simulated startPc status _ returned ih =>
    -- A simulation that returned went through steps, and then a last one.
    obtain ⟨log, before⟩ := ih
    obtain ⟨n, stopped⟩ := (Simulator.returns_iff _ startPc _).mp returned
    obtain ⟨m, _, cfg, led, stop⟩ := Transition.last_of_stop stopped
    obtain ⟨longer, after⟩ := (Logged.started startPc before).of_run led
    exact ⟨longer, .stopped after stop⟩

/-- Hits in the page of a translation that was cached, and at a block that a program has cached. -/
theorem cacheHits_sound_iff_filled : ∃ log cfg, Logged log (.running cfg) ∧
    BbCache.layout.Filled log 0 ∧
    (TLB.FindSound [.fill 0x5123 (some ⟨1, 0⟩)] 0x5fff ↔
      (pageBase 0x5fff = poisonVa → ∃ filling, lastFill TLB.index (TLB.index 0x5fff)
        ([.fill 0x5123 (some ⟨1, 0⟩)] : TLB.Log) = some filling)) ∧
    (cfg.sim.bbCache.FindSound log 0 ↔
      (0 = Bb.invalidVa →
        ∃ filling, lastFill BbCache.index (BbCache.index 0) log = some filling)) := by
  -- The program is written by the host, and its first step caches its first block.
  have reached : (Simulator.holdingProgram 0).Reached :=
    ((Simulator.reachedQuietly_holdingWord 0 0x00000317).writeWords ⟨rfl, rfl, rfl, rfl⟩ _).reached
  obtain ⟨log, idle⟩ := reached.logged
  have found : (Transition.visited Config.step 2 (Config.start (Simulator.holdingProgram 0) 0)).any
      (fun cfg => (cfg.sim.bbCache.find 0).virtAddr == 0) = true := by
    decide +kernel
  obtain ⟨cfg, member, found⟩ := List.any_eq_true.mp found
  obtain ⟨_, led⟩ := Transition.run_of_mem_visited member
  obtain ⟨longer, logged⟩ := (Logged.started 0 idle).of_run led
  -- A block that is found at an address that marks no empty one was filled there.
  have filled := ((logged.mirrors.hit_iff 0).mp (eq_of_beq found)).resolve_right
    fun never => absurd never.1 (by decide)
  exact ⟨longer, cfg, logged, filled, cacheHits_sound_iff _ _ logged 0⟩

/-- New caches hit the marks of their empty entries. -/
theorem not_cacheHits_sound :
    (¬∀ tlbLog va, TLB.FindSound tlbLog va) ∧
      ¬∀ log point pc, Logged log point → point.sim.bbCache.FindSound log pc := by
  constructor
  · intro sound
    -- The mark of the empty entries is found in a new cache.
    obtain ⟨_, _, filled, _⟩ := (sound [] poisonVa).hit.mp (by decide)
    cases filled
  · intro sound
    obtain ⟨_, filled, _⟩ := sound [] (.idle {}) Bb.invalidVa .new rfl
    cases filled

end RiscvSim
