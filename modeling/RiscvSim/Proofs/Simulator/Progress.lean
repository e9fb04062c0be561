import RiscvSim.Proofs.Simulator.Prefetch

/-! Blocks are well formed for every stream of fetch results, and executing one makes progress. -/

namespace RiscvSim

namespace Bb

variable {σ : Type}

/-- The results of fetching again and again, from one state to another. -/
inductive Fetches (fetch : σ → Except Abort (FetchResult × σ)) :
    σ → List FetchResult → σ → Prop where
  | nil {state : σ} : Fetches fetch state [] state
  | cons {state middle after : σ} {res : FetchResult} {later : List FetchResult} :
    fetch state = .ok (res, middle) → Fetches fetch middle later after →
    Fetches fetch state (res :: later) after

/-- An entry that the handlers do not go past, where some room is left in the block. -/
inductive Last (room : Nat) : Option FetchResult → Instr → Prop where
  /-- A branch. -/
  | branch {res : FetchResult} : res.status = .ok → isBranch (Instr.decode res.instrCode).id →
    0 < room → Last room (some res) (Instr.decode res.instrCode)
  /-- The status of a failed fetch. -/
  | fault {res : FetchResult} : res.status ≠ .ok →
    Last room (some res) (Instr.statusInstr res.status)
  /-- A word that cannot be decoded. -/
  | undecodable {res : FetchResult} : res.status = .ok →
    (Instr.decode res.instrCode).id = .simStatusInstr →
    Last room (some res) (Instr.statusInstr .simNotImplementedInstr)
  /-- The reserved last slot. -/
  | full : room = 0 → Last room none (Instr.statusInstr .ok)

/-- The entries up to some index are those of the fetched words, and the last of them ends. -/
structure Formed (room : Nat) (results : List FetchResult) (stale entries : List Instr) (t : Nat) :
    Prop where
  bound : t ≤ room
  body : ∀ i < t, ∃ res, results[i]? = some res ∧ res.status = .ok ∧
    entries[i]? = some (Instr.decode res.instrCode) ∧
    (Instr.decode res.instrCode).id ≠ .simStatusInstr ∧
    ¬isBranch (Instr.decode res.instrCode).id
  last : ∃ instr, entries[t]? = some instr ∧ Last (room - t) results[t]? instr
  /-- Whatever the block held before is still there. -/
  stale : ∀ i, t < i → entries[i]? = stale[i]?

/-- A word that goes on comes before the rest of a block. -/
theorem Formed.cons {room t : Nat} {res : FetchResult} {later : List FetchResult}
    {stale entries : List Instr} {old : Instr} (formed : Formed room later stale entries t)
    (ok : res.status = .ok) (goesOn : ¬Ends (Instr.decode res.instrCode)) :
    Formed (room + 1) (res :: later) (old :: stale) (Instr.decode res.instrCode :: entries)
      (t + 1) := by
  refine { bound := Nat.succ_le_succ formed.bound, body := ?_, last := ?_, stale := ?_ }
  · -- The first entry is the new word, and the others move up by one.
    intro i below
    cases i with
    | zero => exact ⟨res, rfl, ok, rfl, fun status => goesOn (.inl status),
        fun branch => goesOn (.inr branch)⟩
    | succ i => exact formed.body i (Nat.lt_of_succ_lt_succ below)
  · -- The room that is left is the same behind the new word.
    rcases formed.last with ⟨instr, found, last⟩
    rw [← Nat.add_sub_add_right room 1 t] at last
    exact ⟨instr, found, last⟩
  · intro i above
    cases i with
    | zero => omega
    | succ i => exact formed.stale i (Nat.lt_of_succ_lt_succ above)

/-- A word that ends a block, or could not be fetched, is its only entry. -/
theorem Formed.single {room : Nat} {res : FetchResult} {instr old : Instr} {rest : List Instr}
    (last : Last (room + 1) (some res) instr) :
    Formed (room + 1) [res] (old :: rest) (instr :: rest) 0 := by
  refine
    { bound := Nat.zero_le _
      body := fun i below => absurd below (Nat.not_lt_zero i)
      last := ⟨instr, rfl, last⟩
      stale := ?_ }
  intro i above
  cases i with
  | zero => omega
  | succ i => rfl

/-- Decoding forms a block, whatever it held before. -/
theorem Updates.formed {fetch : σ → Except Abort (FetchResult × σ)} {room : Nat}
    {stale entries : List Instr} {state after : σ} (length : stale.length = room + 1)
    (decoded : Updates fetch stale state entries after) :
    ∃ results t, Fetches fetch state results after ∧ Formed room results stale entries t := by
  -- The induction follows the worker, one entry at a time.
  induction decoded generalizing room with
  | nil => cases length
  | full =>
    -- Only the reserved slot is left, which takes the status that goes on.
    cases length
    refine ⟨[], 0, .nil,
      { bound := Nat.le_refl 0
        body := fun i below => absurd below (Nat.not_lt_zero i)
        last := ⟨_, rfl, .full rfl⟩
        stale := ?_ }⟩
    intro i above
    cases i with
    | zero => omega
    | succ i => rfl
  | fault fetched failed =>
    cases length
    exact ⟨_, 0, .cons fetched .nil, .single (.fault failed)⟩
  | last fetched ok ends =>
    cases length
    refine ⟨_, 0, .cons fetched .nil, .single ?_⟩
    -- The word is one that cannot be decoded, or a branch.
    rcases ends with status | branch
    · rw [decode_of_status status]
      exact .undecodable ok status
    · exact .branch ok branch (Nat.succ_pos _)
  | @more entry next rest entries state middle after res fetched ok goesOn decoded ih =>
    cases length
    -- The results are those of one fetch and the later ones.
    rcases ih rfl with ⟨later, t, fetches, formed⟩
    exact ⟨res :: later, t + 1, .cons fetched fetches, formed.cons ok goesOn⟩

end Bb

/-- The entry at an index of a block is dispatched, in some state, when the block is executed. -/
inductive Dispatched (entries : List Instr) (sim : Simulator) : Nat → Simulator → Prop where
  | first : Dispatched entries sim 0 sim
  /-- The entry before it has a handler, which goes on. -/
  | next {i : Nat} {before after : Simulator} {instr : Instr} : Dispatched entries sim i before →
    entries[i]? = some instr → call before instr = .ok (.next, after) →
    Dispatched entries sim (i + 1) after

variable {entries : List Instr} {sim reached after : Simulator} {i room t : Nat}

/-- Every entry that is dispatched after the first one comes after a retired instruction. -/
theorem Dispatched.icount (dispatched : Dispatched entries sim i reached) :
    reached.icount = sim.icount + i := by
  -- By induction on the entries that were dispatched: each of them has retired.
  induction dispatched with
  | first => rfl
  | next _ _ called ih =>
    unfold call at called
    split at called
    · cases called
    · rw [(Simulator.exec_spec called).retired rfl, ih, Nat.add_assoc]

/-- Executing the rest of a block dispatches the entries of the block. -/
theorem Dispatched.cons {instr : Instr} {middle : Simulator} {rest : List Instr}
    (called : call sim instr = .ok (.next, middle)) (dispatched : Dispatched rest middle i reached) :
    Dispatched (instr :: rest) sim (i + 1) reached := by
  induction dispatched with
  | first => exact .next .first rfl called
  | next _ found calls ih => exact .next ih found calls

/-- The status of a block is returned by an entry that was dispatched. -/
theorem dispatched_of_dispatchFrom {status : SimStatus}
    (done : Simulator.dispatchFrom entries sim = .ok (status, after)) :
    ∃ i reached instr handler, Dispatched entries sim i reached ∧ entries[i]? = some instr ∧
      dispatch instr.id = some handler ∧ handler.exec reached instr = .ok (.ret status, after) := by
  -- By induction on the entries, where a handler goes on or returns.
  induction entries generalizing sim with
  | nil => cases done
  | cons instr rest ih =>
    rw [Simulator.dispatchFrom] at done
    split at done
    · cases done
    · rename_i handler found
      split at done
      · cases done
      · rename_i middle executed
        rcases ih done with ⟨i, reached, last, ending, dispatched, entry, present, returned⟩
        have called : call sim instr = .ok (.next, middle) := by rw [call, found]; exact executed
        exact ⟨i + 1, reached, last, ending, .cons called dispatched, entry, present, returned⟩
      · rename_i executed
        cases done
        exact ⟨0, sim, instr, handler, .first, rfl, found, executed⟩

namespace Bb

variable {results : List FetchResult} {stale : List Instr}

/-- The last entry of a block ends it. -/
theorem Last.ends {result : Option FetchResult} {instr : Instr} (last : Last room result instr) :
    Ends instr := by
  cases last with
  | branch _ branch _ => exact .inr branch
  | fault => exact .inl rfl
  | undecodable => exact .inl rfl
  | full => exact .inl rfl

/-- No entry behind the last one is dispatched, whatever is stored there. -/
theorem Formed.dispatched_le (formed : Formed room results stale entries t)
    (dispatched : Dispatched entries sim i reached) : i ≤ t := by
  -- By induction on the entries that were dispatched.
  induction dispatched with
  | first => exact Nat.zero_le t
  | @next i before after instr dispatched found called ih =>
    -- The last entry does not go on, so an entry that does comes before it.
    have different : i ≠ t := by
      rintro rfl
      rcases formed.last with ⟨last, entry, ending⟩
      rw [entry] at found
      cases found
      exact ending.ends.call_ne_next called
    omega

/-- Executing a block retires an instruction at least, if it returns the status that goes on. -/
theorem Formed.retires (formed : Formed room results stale entries t) (positive : 0 < room)
    (done : Simulator.dispatchFrom entries sim = .ok (.ok, after)) :
    sim.icount + 1 ≤ after.icount ∧ after.icount ≤ sim.icount + room := by
  -- The status was returned by one entry, and each before it has retired.
  rcases dispatched_of_dispatchFrom done with
    ⟨i, reached, instr, handler, dispatched, entry, found, returned⟩
  have within := formed.dispatched_le dispatched
  have before := dispatched.icount
  have bound := formed.bound
  have spec := Simulator.exec_spec returned
  have kind := (simInstr_kind (simInstr_of_dispatch found)).2.1
  -- An instruction that is not a status retires when it returns so.
  have retired (proper : instr.id ≠ .simStatusInstr) : after.icount = reached.icount + 1 := by
    refine spec.retired ?_
    rw [beq_eq_false_iff_ne.2 proper] at kind
    simp [Flow.retires, kind]
  -- The entry comes before the last one, so it is a word that was decoded.
  by_cases early : i < t
  · rcases formed.body i early with ⟨res, _, _, decoded, proper, _⟩
    rw [decoded] at entry
    cases entry
    have one := retired proper
    omega
  · have same : i = t := by omega
    subst same
    rcases formed.last with ⟨last, ending, kinds⟩
    rw [ending] at entry
    cases entry
    -- A status that is returned is the one that the entry holds.
    have status (code : SimStatus) (held : instr = Instr.statusInstr code) :
        code = .ok ∧ after = reached := by
      have handled := call_statusInstr reached code
      rw [← held, call, found] at handled
      have same : Except.ok (Flow.ret .ok, after) = Except.ok (Flow.ret code, reached) :=
        returned.symm.trans handled
      cases same
      exact ⟨rfl, rfl⟩
    generalize results[i]? = result at kinds
    cases kinds with
    -- A branch retires, and its place lies inside the room.
    | @branch res ok branch left =>
      have proper : (Instr.decode res.instrCode).id ≠ .simStatusInstr := by
        intro isStatus
        rw [isStatus] at branch
        exact absurd branch (by decide)
      have one := retired proper
      omega
    -- A failed fetch does not return the status that goes on.
    | fault failed => exact absurd (status _ rfl).1 failed
    | undecodable => exact absurd (status _ rfl).1 (by decide)
    | full none =>
      -- The reserved slot comes after a full block, all of which has retired.
      rw [(status _ rfl).2]
      omega

/-- What updating a block promises, whatever the block held before. -/
structure Progress {σ : Type} (bb : Bb) (va : VirtAddr)
    (fetch : σ → Except Abort (FetchResult × σ)) (state : σ) : Prop where
  /-- The update succeeds with every stream of results. -/
  total : (∀ state, ∃ result, fetch state = .ok result) →
    ∃ updated after, bb.update va fetch state = .ok (updated, after)
  /-- The updated block is well formed, and executing it stays inside. -/
  formed : ∀ updated after, bb.update va fetch state = .ok (updated, after) →
    ∃ results t, Fetches fetch state results after ∧
      Formed 15 results bb.instrs updated.instrs t ∧
      ∀ sim i reached, Dispatched updated.instrs sim i reached → i ≤ t
  /-- An iteration over the updated block ends the run or retires 1 to 15 instructions. -/
  iteration : ∀ updated after, bb.update va fetch state = .ok (updated, after) →
    ∀ (sim found last : Simulator), sim.findBb = .ok (updated, found) →
      sim.simulateIter = .ok (none, last) →
        sim.icount + 1 ≤ last.icount ∧ last.icount ≤ sim.icount + 15

/-- Decoding fails only if fetching does. -/
theorem updateFrom_total {σ : Type} {fetch : σ → Except Abort (FetchResult × σ)}
    (total : ∀ state, ∃ result, fetch state = .ok result) (stale : List Instr) (state : σ) :
    ∃ entries after, updateFrom fetch stale state = .ok (entries, after) := by
  -- The worker has no other reason to fail.
  cases result : updateFrom fetch stale state with
  | error why =>
    rcases updateFrom_error result with ⟨state, failed⟩
    rcases total state with ⟨value, fetched⟩
    rw [failed] at fetched
    cases fetched
  | ok done => exact ⟨done.1, done.2, rfl⟩

/-- Updating a block keeps this promise for every stream of fetch results. -/
theorem progress {σ : Type} (bb : Bb) (va : VirtAddr)
    (fetch : σ → Except Abort (FetchResult × σ)) (state : σ) : Progress bb va fetch state := by
  -- The update is that of the worker, whose entries are the block.
  have whole := update_eq fetch bb state va
  have wellFormed (updated : Bb) (after : σ) (done : bb.update va fetch state = .ok (updated, after)) :
      ∃ results t, Fetches fetch state results after ∧
        Formed 15 results bb.instrs updated.instrs t := by
    cases decoded : updateFrom fetch bb.instrs state with
    | error why =>
      rw [decoded, done] at whole
      cases whole
    | ok result =>
      rw [decoded] at whole
      rcases whole with ⟨same, stored, _, entries⟩
      rw [done] at stored
      cases stored
      have length : bb.instrs.length = 15 + 1 := bb.sized
      rcases (updates_of_updateFrom decoded).formed length with ⟨results, t, fetches, formed⟩
      rw [← entries] at formed
      exact ⟨results, t, fetches, formed⟩
  refine { total := ?_, formed := ?_, iteration := ?_ }
  · intro total
    rcases updateFrom_total total bb.instrs state with ⟨entries, after, decoded⟩
    rw [decoded] at whole
    rcases whole with ⟨updated, stored, _⟩
    exact ⟨updated, after, stored⟩
  · intro updated after done
    rcases wellFormed updated after done with ⟨results, t, fetches, formed⟩
    exact ⟨results, t, fetches, formed, fun sim i reached => formed.dispatched_le⟩
  · intro updated after done sim found last lookup iterated
    rcases wellFormed updated after done with ⟨results, t, fetches, formed⟩
    rw [Simulator.simulateIter, lookup] at iterated
    dsimp only at iterated
    split at iterated
    · -- The iteration ended without a result, so the block returned the status that goes on.
      cases iterated
    · rename_i status middle executed
      split at iterated
      · cases iterated
      · split at iterated
        · cases iterated
        · rename_i goesOn
          cases iterated
          rw [not_not.1 goesOn] at executed
          -- Finding a block retires nothing.
          have same : found.icount = sim.icount :=
            congrArg Core.icount (Simulator.findBb_spec lookup).2.2.1
          rw [← same]
          exact formed.retires (by omega) executed

end Bb

end RiscvSim
