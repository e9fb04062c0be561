import RiscvSim.SimApp.SimApp

/-! A loop that has ended gives the same result with more iterations. -/

namespace RiscvSim

variable {n m : Nat}

namespace ElfLoader

/-- The loop over pages that has ended is as it was with more iterations. -/
theorem mapPages_mono {σ : Type} {mapPage : VPN → σ → Except Abort (SimStatus × σ)}
    {segEnd currPageVa : VirtAddr} {state : σ} (more : n ≤ m)
    (ended : ∀ later, mapPages mapPage segEnd n currPageVa state ≠ .ok (none, later)) :
    mapPages mapPage segEnd m currPageVa state = mapPages mapPage segEnd n currPageVa state := by
  -- By induction on the fewer iterations, both loops take the same turns.
  induction n generalizing m currPageVa state with
  | zero => exact absurd rfl (ended state)
  | succ n ih =>
    obtain ⟨m, rfl⟩ := Nat.exists_eq_succ_of_ne_zero (Nat.ne_of_gt (Nat.zero_lt_of_lt more))
    unfold mapPages at ended ⊢
    split
    · rename_i inside
      rw [if_pos inside] at ended
      cases called : mapPage (currPageVa / BitVec.ofNat 64 pageSize) state with
      | error why => rfl
      | ok result =>
        obtain ⟨status, later⟩ := result
        simp only [called] at ended ⊢
        split
        · rfl
        · rename_i ok
          rw [if_neg ok] at ended
          exact ih (Nat.le_of_succ_le_succ more) ended
    · rfl

/-- The loop over a segment's bytes that has ended is as it was with more iterations. -/
theorem copySegment_mono {loader : ElfLoader} {elfBuf : List (BitVec 8)} {seg : GElfPhdr}
    {offset : BitVec 64} {memory : PhysMemory} (more : n ≤ m)
    (ended : loader.copySegment elfBuf seg n offset memory ≠ .ok none) :
    loader.copySegment elfBuf seg m offset memory =
      loader.copySegment elfBuf seg n offset memory := by
  induction n generalizing m offset memory with
  | zero => exact absurd rfl ended
  | succ n ih =>
    obtain ⟨m, rfl⟩ := Nat.exists_eq_succ_of_ne_zero (Nat.ne_of_gt (Nat.zero_lt_of_lt more))
    unfold copySegment at ended ⊢
    split
    · rename_i inside
      rw [if_pos inside] at ended
      cases copied : loader.copyPage elfBuf seg offset memory with
      | error why => rfl
      | ok result =>
        simp only [copied] at ended ⊢
        exact ih (Nat.le_of_succ_le_succ more) ended
    · rfl

/-- A segment that was loaded or failed is so with more iterations. -/
theorem loadSegment_mono {elfBuf : List (BitVec 8)} {seg : GElfPhdr} {loader : ElfLoader}
    {memory : PhysMemory} (more : n ≤ m)
    (ended : ∀ later, loadSegment n elfBuf seg loader memory ≠ .ok (none, later)) :
    loadSegment m elfBuf seg loader memory = loadSegment n elfBuf seg loader memory := by
  have mapped : mapSegment seg m loader memory = mapSegment seg n loader memory := by
    refine mapPages_mono more fun later unfinished => ?_
    -- Unless its pages were mapped, the segment was not loaded either.
    have unmapped : mapSegment seg n loader memory = .ok (none, later) := unfinished
    simp only [loadSegment, unmapped] at ended
    exact ended later rfl
  unfold loadSegment at ended ⊢
  rw [mapped]
  split
  · rfl
  · rename_i loader memory called
    simp only [called] at ended
    have copied : copySegment loader elfBuf seg m 0 memory =
        copySegment loader elfBuf seg n 0 memory :=
      copySegment_mono more fun unfinished => by
        simp only [unfinished] at ended
        exact ended _ rfl
    rw [copied]
  · rfl

/-- Segments that were loaded or failed are so with more iterations. -/
theorem loadSegments_mono {elfBuf : List (BitVec 8)} {count : Nat} {phdrs : List GElfPhdr}
    {loader : ElfLoader} {memory : PhysMemory} (more : n ≤ m)
    (ended : ∀ later, loadSegments n elfBuf count phdrs loader memory ≠ .ok (none, later)) :
    loadSegments m elfBuf count phdrs loader memory =
      loadSegments n elfBuf count phdrs loader memory := by
  induction phdrs generalizing count loader memory with
  | nil => cases count <;> rfl
  | cons seg rest ih =>
    cases count with
    | zero => rfl
    | succ count =>
      unfold loadSegments at ended ⊢
      split
      · rename_i isLoad
        rw [if_pos isLoad] at ended
        have loaded : loadSegment m elfBuf seg loader memory =
            loadSegment n elfBuf seg loader memory := by
          refine loadSegment_mono more fun later unfinished => ?_
          simp only [unfinished] at ended
          exact ended later rfl
        rw [loaded]
        split
        · rfl
        · rename_i called
          simp only [called] at ended
          exact ih ended
        · rfl
      · rename_i other
        rw [if_neg other] at ended
        exact ih ended

/-- A file that was loaded or failed is so with more iterations. -/
theorem loadElf_mono {loader : ElfLoader} {memory : PhysMemory} {file : ElfFile} (more : n ≤ m)
    (ended : ∀ later, loader.loadElf n memory file ≠ .ok (none, later)) :
    loader.loadElf m memory file = loader.loadElf n memory file := by
  unfold loadElf at ended ⊢
  split
  · rfl
  · rename_i readNum filled
    rw [filled] at ended
    rw [loadSegments_mono more fun later unfinished => by
      simp only [unfinished] at ended
      exact ended later rfl]

end ElfLoader

/-- A simulation that has ended is as it was with more iterations. -/
theorem Simulator.simulateLoop_mono {sim : Simulator} (more : n ≤ m)
    (ended : ∀ later, sim.simulateLoop n ≠ .ok (none, later)) :
    sim.simulateLoop m = sim.simulateLoop n := by
  induction n generalizing m sim with
  | zero => exact absurd rfl (ended sim)
  | succ n ih =>
    obtain ⟨m, rfl⟩ := Nat.exists_eq_succ_of_ne_zero (Nat.ne_of_gt (Nat.zero_lt_of_lt more))
    unfold simulateLoop at ended ⊢
    split
    · rfl
    · rfl
    · rename_i iterated
      simp only [iterated] at ended
      exact ih (Nat.le_of_succ_le_succ more) ended

namespace SimApp

/-- A program that was loaded or failed is so with more iterations. -/
theorem load_mono {simulator : Simulator} {elfFile : Option ElfFile} (more : n ≤ m)
    (ended : load n simulator elfFile ≠ .ok none) :
    load m simulator elfFile = load n simulator elfFile := by
  unfold load at ended ⊢
  -- Only loading the file takes iterations.
  split
  · rfl
  · rename_i created
    simp only [created] at ended
    split
    · rfl
    · rename_i stackMapped
      simp only [stackMapped] at ended
      split
      · rfl
      · rename_i stackOk
        rw [if_neg stackOk] at ended
        split
        · rfl
        · rename_i written
          simp only [written] at ended
          split
          · rfl
          · dsimp only at ended
            rw [ElfLoader.loadElf_mono more fun later unfinished => by
              simp only [unfinished] at ended
              exact ended rfl]

end SimApp

end RiscvSim
