import RiscvSim.Proofs.Memory.PhysMemory

/-! Any history of calls leaves physical memory as a flat store of the bytes last written. -/

namespace RiscvSim

/-- A call on physical memory. -/
inductive MemoryCall where
  | addRAMPage (page : PhysAddr)
  | write (n : Nat) (physAddr : PhysAddr) (value : BitVec (8 * n))
  | read (n : Nat) (physAddr : PhysAddr) (dst : BitVec (8 * n))

namespace MemoryCall

/-- Pages are added at page addresses. -/
def Aligned : MemoryCall → Prop
  | addRAMPage page => pageBase page = page
  | _ => True

/-- The memory after a call. -/
def exec (memory : PhysMemory) : MemoryCall → Except Abort PhysMemory
  | addRAMPage page => (memory.addRAMPage page).map Prod.snd
  | write _ physAddr value => .ok (memory.write physAddr value).2
  -- Reading is a constant method.
  | read _ _ _ => .ok memory

/-- The memory after a history of calls, the newest first. -/
def replay : List MemoryCall → Except Abort PhysMemory
  | [] => .ok PhysMemory.new
  | call :: earlier =>
    match replay earlier with
    | .error why => .error why
    | .ok memory => call.exec memory

/-- The page of an address was added at some point of a history. -/
def wasAdded : List MemoryCall → PhysAddr → Bool
  | [], _ => false
  | addRAMPage page :: earlier, addr => page == pageBase addr || wasAdded earlier addr
  | _ :: earlier, addr => wasAdded earlier addr

/-- The status a history gives an access of `n` bytes. -/
def flatStatus (history : List MemoryCall) (physAddr : PhysAddr) (n : Nat) : SimStatus :=
  PhysMemory.accessStatus (wasAdded history physAddr) physAddr n

/-- The byte last written at an address by a successful write of any width, or zero. -/
def lastWritten : List MemoryCall → PhysAddr → BitVec 8
  | [], _ => 0
  | write n start value :: earlier, addr =>
    if flatStatus earlier start n = .ok ∧ ByteStore.InRun start n addr
    then LittleEndian.byteAt value (addr - start).toNat
    else lastWritten earlier addr
  | _ :: earlier, addr => lastWritten earlier addr

/-- The flat store of a history. -/
def flat (history : List MemoryCall) : ByteStore 64 := fun addr =>
  if wasAdded history addr then some (lastWritten history addr) else none

/-- A page was added to the memory exactly when its flat store holds its bytes. -/
theorem hasPage_iff {history : List MemoryCall} {memory : PhysMemory}
    (same : memory.bytes = flat history) (addr : PhysAddr) :
    memory.HasPage addr ↔ wasAdded history addr = true := by
  -- Both say that the flat store has a byte at the address.
  rw [← memory.isSome_bytes, same, flat]
  split <;> simp_all

/-- A memory with the bytes of a history gives each access the status of the history. -/
theorem accessStatus_eq {history : List MemoryCall} {memory : PhysMemory}
    (same : memory.bytes = flat history) (physAddr : PhysAddr) (n : Nat) :
    PhysMemory.accessStatus (memory.HasPage physAddr) physAddr n =
      flatStatus history physAddr n := by
  -- Both statuses test for the same crossing and the same page.
  simp only [flatStatus, PhysMemory.accessStatus, hasPage_iff same]

/-- A read reports the status of the history. -/
theorem read_flatStatus {history : List MemoryCall} {memory : PhysMemory}
    (same : memory.bytes = flat history) {n : Nat} (physAddr : PhysAddr) (dst : BitVec (8 * n)) :
    (memory.read physAddr dst).status = flatStatus history physAddr n := by
  rw [memory.read_status, accessStatus_eq same]

/-- A write reports the status of the history. -/
theorem write_flatStatus {history : List MemoryCall} {memory : PhysMemory}
    (same : memory.bytes = flat history) {n : Nat} (physAddr : PhysAddr) (value : BitVec (8 * n)) :
    (memory.write physAddr value).1.status = flatStatus history physAddr n := by
  rw [memory.write_status, accessStatus_eq same]

/-- Whether an address was added depends only on its page. -/
theorem wasAdded_congr (history : List MemoryCall) {left right : PhysAddr}
    (same : pageBase left = pageBase right) : wasAdded history left = wasAdded history right := by
  -- Each page that was added is compared with the page of the address.
  induction history with
  | nil => rfl
  | cons call earlier ih => cases call <;> simp [wasAdded, ih, same]

/-- Nothing was written to a page that was never added. -/
theorem lastWritten_of_not_added {history : List MemoryCall} {addr : PhysAddr}
    (missing : wasAdded history addr = false) : lastWritten history addr = 0 := by
  -- The induction goes back through the calls, of which only a successful write matters.
  induction history with
  | nil => rfl
  | cons call earlier ih =>
    cases call with
    | addRAMPage page =>
      simp only [wasAdded, Bool.or_eq_false_iff] at missing
      exact ih missing.2
    | write n start value =>
      simp only [wasAdded] at missing
      rw [lastWritten, if_neg, ih missing]
      -- A successful write that covers the address finds the page of the address.
      rintro ⟨ok, inside⟩
      obtain ⟨fits, present⟩ := PhysMemory.accessStatus_ok_iff.mp ok
      rw [← wasAdded_congr earlier (PhysMemory.pageBase_of_inRun fits inside), missing] at present
      cases present
    | read n start dst => exact ih missing

/-- One more call keeps the memory and the flat store of the history in step. -/
theorem exec_flat {history : List MemoryCall} {memory : PhysMemory} {call : MemoryCall}
    (aligned : call.Aligned) (same : memory.bytes = flat history) :
    ∃ after, call.exec memory = .ok after ∧ after.bytes = flat (call :: history) := by
  -- One case for each kind of call.
  cases call with
  | addRAMPage page =>
    obtain ⟨added, result, bytes, _⟩ := memory.addRAMPage_eq page aligned
    refine ⟨added, by simp [exec, result, Except.map], ?_⟩
    rw [bytes, same]
    funext addr
    simp only [ByteStore.extend, flat, wasAdded, lastWritten, Bool.or_eq_true, beq_iff_eq,
      eq_comm (a := page)]
    by_cases here : pageBase addr = page
    · cases before : wasAdded history addr with
      | true => simp [here]
      -- A page that was not there holds zeros, as no write to it has succeeded.
      | false => simp [here, lastWritten_of_not_added before]
    · -- Addresses of other pages are not extended.
      simp [here]
  | write n physAddr value =>
    refine ⟨_, rfl, ?_⟩
    have status := write_flatStatus same physAddr value
    funext addr
    -- A successful write is the last one at its own addresses, and a failed one is none.
    by_cases ok : flatStatus history physAddr n = .ok
    · rw [(PhysMemory.write_ok (status.trans ok)).1, same]
      by_cases inside : ByteStore.InRun physAddr n addr
      · simp only [ByteStore.put, flat, wasAdded, lastWritten, ok, inside,
          and_self, if_true]
        split <;> rfl
      · simp [ByteStore.put, flat, wasAdded, lastWritten, inside]
    · rw [PhysMemory.write_failed (by rwa [status]), same]
      simp [flat, wasAdded, lastWritten, ok]
  | read n physAddr dst => exact ⟨memory, rfl, same⟩

/-- What a flat partial byte store with a history of calls answers to the next call. -/
structure RefinesFlat (history : List MemoryCall) (memory : PhysMemory) : Prop where
  /-- A read reports the status of the history and leaves the destination when it fails. -/
  read_status : ∀ n physAddr (dst : BitVec (8 * n)),
    (memory.read physAddr dst).status = flatStatus history physAddr n ∧
      (flatStatus history physAddr n ≠ .ok → (memory.read physAddr dst).dst = dst)
  /-- A successful read returns the bytes last written, in little-endian order. -/
  read_bytes : ∀ n physAddr (dst : BitVec (8 * n)), flatStatus history physAddr n = .ok →
    ∀ i < n, LittleEndian.byteAt (memory.read physAddr dst).dst i =
      lastWritten history (physAddr + BitVec.ofNat 64 i)
  /-- A write reports the status of the history and leaves the memory when it fails. -/
  write_status : ∀ n physAddr (value : BitVec (8 * n)),
    (memory.write physAddr value).1.status = flatStatus history physAddr n ∧
      (flatStatus history physAddr n ≠ .ok → (memory.write physAddr value).2 = memory)
  /-- A successful write changes exactly its own bytes. -/
  write_bytes : ∀ n physAddr (value : BitVec (8 * n)), flatStatus history physAddr n = .ok →
    (∀ i < n, (memory.write physAddr value).2.bytes (physAddr + BitVec.ofNat 64 i) =
      some (LittleEndian.byteAt value i)) ∧
    ∀ addr, ¬ByteStore.InRun physAddr n addr →
      (memory.write physAddr value).2.bytes addr = memory.bytes addr
  /-- Adding a page tells whether it was not there, and a page that was there keeps its bytes. -/
  addRAMPage : ∀ page, pageBase page = page → ∃ after,
    memory.addRAMPage page = .ok (!wasAdded history page, after) ∧
      (wasAdded history page = true → after.bytes = memory.bytes)

/-- A memory with the bytes of a history answers the next call as the flat store does. -/
theorem refinesFlat_of_bytes {history : List MemoryCall} {memory : PhysMemory}
    (same : memory.bytes = flat history) : RefinesFlat history memory where
  read_status n physAddr dst := by
    have status := read_flatStatus same physAddr dst
    exact ⟨status, fun failed => PhysMemory.read_failed (by rwa [status])⟩
  read_bytes n physAddr dst ok i inside := by
    have status := read_flatStatus same physAddr dst
    rw [(PhysMemory.read_ok (status.trans ok)).1, ByteStore.byteAt_get _ _ inside, same, flat]
    -- Every byte of the access lies in the page that was added.
    obtain ⟨fits, present⟩ := PhysMemory.accessStatus_ok_iff.mp ok
    rw [wasAdded_congr history (PhysMemory.address_in_page fits inside).1, present]
    rfl
  write_status n physAddr value := by
    have status := write_flatStatus same physAddr value
    exact ⟨status, fun failed => PhysMemory.write_failed (by rwa [status])⟩
  write_bytes n physAddr value ok := by
    have status := write_flatStatus same physAddr value
    rw [(PhysMemory.write_ok (status.trans ok)).1]
    -- The access fits in a page that was added.
    obtain ⟨fits, present⟩ := PhysMemory.accessStatus_ok_iff.mp ok
    constructor
    · intro i inside
      have distance := ByteStore.distance_add physAddr (i := i) (by unfold PhysMemory.Fits at fits; omega)
      rw [ByteStore.put, if_pos (by rwa [ByteStore.InRun, distance]), same, flat,
        wasAdded_congr history (PhysMemory.address_in_page fits inside).1, present, distance]
      rfl
    · intro addr outside
      rw [ByteStore.put, if_neg outside]
  addRAMPage page aligned := by
    obtain ⟨after, result, bytes, _⟩ := memory.addRAMPage_eq page aligned
    refine ⟨after, ?_, fun present => ?_⟩
    · rw [result]
      simp only [hasPage_iff same, Bool.decide_eq_true]
    · -- Extending by a page whose bytes are all there changes nothing.
      rw [bytes, same]
      funext addr
      rw [ByteStore.extend]
      split
      · rename_i here
        have there : wasAdded history addr = true := by
          rw [← present]
          exact wasAdded_congr history (here.trans aligned.symm)
        simp [flat, there]
      · rfl

/-- Every history of calls from an empty memory is a history of a flat partial byte store. -/
theorem replay_refines_flat (history : List MemoryCall)
    (aligned : ∀ call ∈ history, call.Aligned) :
    ∃ memory, replay history = .ok memory ∧ RefinesFlat history memory := by
  -- By induction on the history, the bytes are those of the flat store after every call.
  have bytes : ∃ memory, replay history = .ok memory ∧ memory.bytes = flat history := by
    induction history with
    | nil => exact ⟨PhysMemory.new, rfl, rfl⟩
    | cons call earlier ih =>
      obtain ⟨memory, before, same⟩ := ih fun other member => aligned other (by simp [member])
      obtain ⟨after, result, next⟩ := exec_flat (aligned call (by simp)) same
      exact ⟨after, by simp [replay, before, result], next⟩
  obtain ⟨memory, result, same⟩ := bytes
  exact ⟨memory, result, refinesFlat_of_bytes same⟩

/-- Re-adding a page between two overlapping writes is a history of the flat store. -/
theorem replay_refines_flat_readded :
    ∃ memory, replay [.write 2 0x1003 0xBEEF, .addRAMPage 0x1000, .write 8 0x1000 5,
        .addRAMPage 0x1000] = .ok memory ∧
      RefinesFlat [.write 2 0x1003 0xBEEF, .addRAMPage 0x1000, .write 8 0x1000 5,
        .addRAMPage 0x1000] memory :=
  replay_refines_flat _ (by simp [Aligned]; decide)

end MemoryCall

end RiscvSim
