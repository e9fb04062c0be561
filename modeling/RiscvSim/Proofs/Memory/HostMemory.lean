import RiscvSim.Memory.HostMemory

/-! Host pages never alias, as long as no size of a mapping wraps around. -/

namespace RiscvSim.Host

open RiscvSim.PageAllocator (InPage)

/-- The byte size of a number of pages does not wrap around, unless to nothing. -/
def Fits (ppn : PPN) : Prop := ppn.toNat < 2 ^ 52 ∨ ppn.toNat % 2 ^ 52 = 0

/-- The size that the pool grows to next fits, if it has to grow. -/
def GrowthFits (alloc : PageAllocator) : Prop :=
  alloc.currPpn = (alloc.mmaps.getLastD {}).ppn → Fits ((alloc.mmaps.getLastD {}).ppn * 2)

/-- A wrapper of a region of the model. -/
def MMap.ofModel (mmap : RiscvSim.MMap) : MMap := ⟨BitVec.ofNat 64 mmap.ppn, some mmap.ptr⟩

/-- Moving the elements to other storage keeps them, and unmaps nothing. -/
theorem relocate_eq (process : Process) (mmaps : List MMap) :
    relocate process mmaps = (mmaps, process) := by
  -- The elements are moved one after the other, and unmapping happens in the destructors alone.
  induction mmaps with
  | nil => rfl
  | cons mmap rest ih =>
    -- What is left of a moved wrapper is empty.
    simp only [relocate, MMap.moveConstruct, MMap.destroy, ih]

/-- Adding an element keeps the others, and unmaps nothing. -/
theorem emplaceBack_eq (process : Process) (mmaps : List MMap) (temporary : MMap)
    (reallocates : Bool) :
    emplaceBack process mmaps temporary reallocates = (mmaps ++ [temporary], process) := by
  cases reallocates with
  | false => rfl
  -- Both the temporary and the elements leave empty wrappers behind.
  | true => simp [emplaceBack, relocate_eq, MMap.moveConstruct, MMap.destroy]

/-- A mapping that was granted has its whole size, if that fits. -/
theorem MMap.construct_ok {process after : Process} {ppn : PPN} {grants : Bool} {mmap : MMap}
    (fits : Fits ppn) (done : MMap.construct process ppn grants = .ok (mmap, after)) :
    0 < ppn.toNat ∧ ppn.toNat < 2 ^ 52 ∧ mmap = ⟨ppn, some ⟨process.next, 0⟩⟩ ∧
      after =
        { bytes := Function.update process.bytes process.next (ppn.toNat * pageSize)
          next := process.next + 1 } := by
  -- The product is taken in sixty-four bits, where it may wrap around.
  have bytes : (ppn * BitVec.ofNat 64 pageSize).toNat = ppn.toNat * 4096 % 2 ^ 64 := by
    rw [BitVec.toNat_mul]
    rfl
  unfold construct Process.mmap at done
  split at done
  · split at done <;> cases done
  · rename_i ptr mapped found
    split at found
    · rename_i granted
      cases found
      cases done
      -- A size that wraps to nothing would have been refused.
      have some : (ppn * BitVec.ofNat 64 pageSize).toNat ≠ 0 := by
        intro zero
        exact granted.2 (BitVec.eq_of_toNat_eq zero)
      rw [bytes] at some
      have small : ppn.toNat < 2 ^ 52 := by
        rcases fits with small | multiple
        · exact small
        · omega
      refine ⟨by omega, small, rfl, ?_⟩
      rw [bytes, Nat.mod_eq_of_lt (by omega)]
      rfl
    · cases found

/-- The allocator holds the regions of the model, and they are mapped. -/
structure Refines (process : Process) (alloc : PageAllocator) (model : RiscvSim.PageAllocator) :
    Prop where
  mmaps : alloc.mmaps = model.mmaps.map MMap.ofModel
  small : ∀ mmap ∈ model.mmaps, mmap.ppn < 2 ^ 52
  curr : alloc.currPpn = BitVec.ofNat 64 model.currPpn
  next : process.next = model.mmaps.length
  bytes : ∀ i mmap, model.mmaps[i]? = some mmap → process.bytes i = mmap.ppn * pageSize

namespace Refines

variable {process after : Process} {alloc left : PageAllocator} {model : RiscvSim.PageAllocator}
  {answer : Answer} {page : HostPtr}

/-- Every byte that was handed out is mapped. -/
theorem mapped (refines : Refines process alloc model) {ptr : HostPtr} (owned : model.Owned ptr) :
    process.Mapped ptr := by
  rcases owned with ⟨mmap, found, below⟩
  rw [Process.Mapped, refines.bytes _ _ found]
  split at below
  · -- The cursor of the last region is inside it.
    rename_i final
    have last := model.back_get
    rw [show model.mmaps.length - 1 = ptr.region by omega, found] at last
    cases last
    exact Nat.lt_of_lt_of_le below (Nat.mul_le_mul_right _ model.cursor)
  · -- Any other region was handed out to its end, so the bound is its size.
    exact below

/-- The last wrapper is that of the last region. -/
theorem back (refines : Refines process alloc model) :
    alloc.mmaps.getLastD {} = MMap.ofModel model.back := by
  -- The wrappers are those of the model's regions, in the same order.
  rw [refines.mmaps, List.getLastD_eq_getLast?, List.getLast?_map,
    List.getLast?_eq_some_getLast model.nonempty]
  rfl

/-- The last region is small. -/
theorem back_small (refines : Refines process alloc model) : model.back.ppn < 2 ^ 52 :=
  refines.small _ (List.getLast_mem _)

/-- Both see alike that the last region is used up. -/
theorem full_iff (refines : Refines process alloc model) :
    alloc.currPpn = (alloc.mmaps.getLastD {}).ppn ↔ model.currPpn = model.back.ppn := by
  -- Both numbers stay below the width of the counters, so they are compared as they are.
  have small := refines.back_small
  have cursor : model.currPpn ≤ model.back.ppn := model.cursor
  rw [refines.back, refines.curr, MMap.ofModel, ← BitVec.toNat_inj, BitVec.toNat_ofNat,
    BitVec.toNat_ofNat, Nat.mod_eq_of_lt (by omega), Nat.mod_eq_of_lt (by omega)]

/-- A first region that was mapped is the one of the model. -/
theorem of_new {ppn : PPN} {grants : Bool} (fits : Fits ppn)
    (made : PageAllocator.new {} ppn grants = .ok (alloc, process)) :
    ∃ positive : 0 < ppn.toNat, Refines process alloc (.new ppn.toNat positive) := by
  unfold PageAllocator.new at made
  split at made
  · cases made
  · -- The assertion on the size passed, so the region was mapped.
    simp only [bind, Except.bind] at made
    split at made
    · cases made
    · rename_i result constructed
      rcases result with ⟨mmap, mapped⟩
      cases made
      rcases MMap.construct_ok fits constructed with ⟨positive, small, rfl, rfl⟩
      refine ⟨positive, ?_, ?_, rfl, rfl, ?_⟩
      · simp [RiscvSim.PageAllocator.new, MMap.ofModel]
      · intro mmap member
        rw [List.mem_singleton.1 member]
        exact small
      · -- The one region is the first mapping.
        intro i mmap found
        cases i with
        | zero =>
          cases found
          rfl
        | succ i => cases found

/-- The pool grows as the model does. -/
theorem grow (refines : Refines process alloc model) {ppn : PPN}
    (size : ppn.toNat = model.back.ppn * 2) (below : model.back.ppn * 2 < 2 ^ 52) :
    Refines
      { bytes := Function.update process.bytes process.next (ppn.toNat * pageSize)
        next := process.next + 1 }
      { mmaps := alloc.mmaps ++ [⟨ppn, some ⟨process.next, 0⟩⟩] } model.grow := by
  -- The wrapper that is added is the one of the region that the model adds.
  have region : (⟨ppn, some ⟨process.next, 0⟩⟩ : MMap) = MMap.ofModel model.nextRegion := by
    rw [MMap.ofModel, RiscvSim.PageAllocator.nextRegion, refines.next]
    refine congrArg (MMap.mk · _) (BitVec.eq_of_toNat_eq ?_)
    rw [size, BitVec.toNat_ofNat]
    exact (Nat.mod_eq_of_lt (by omega)).symm
  refine
    { mmaps := by rw [region, refines.mmaps, RiscvSim.PageAllocator.grow, List.map_append]; rfl
      small := ?_
      curr := rfl
      next := by simp [RiscvSim.PageAllocator.grow, refines.next]
      bytes := ?_ }
  · -- The old regions were small, and the new one is by assumption.
    intro mmap member
    rcases List.mem_append.1 member with old | new
    · exact refines.small mmap old
    · rw [List.mem_singleton.1 new]
      exact below
  · intro i mmap found
    change Function.update process.bytes process.next (ppn.toNat * pageSize) i = _
    rcases Nat.lt_or_ge i model.mmaps.length with before | after
    · -- Earlier mappings stay as they are.
      rw [RiscvSim.PageAllocator.grow, List.getElem?_append_left before] at found
      rw [Function.update_of_ne (by rw [refines.next]; omega)]
      exact refines.bytes i mmap found
    · -- The newest mapping has the size that was asked for.
      have same : i = model.mmaps.length := by
        have bound := (List.getElem?_eq_some_iff.1 found).1
        rw [RiscvSim.PageAllocator.grow, List.length_append, List.length_singleton] at bound
        omega
      rw [RiscvSim.PageAllocator.grow, same, List.getElem?_concat_length] at found
      cases found
      rw [same, ← refines.next, Function.update_self, size]
      rfl

/-- Reserving leaves room: the pool has grown if its last region was used up. -/
theorem reserve (refines : Refines process alloc model)
    (fits : GrowthFits alloc)
    (done : alloc.reserve process answer = .ok (left, after)) :
    (model.currPpn ≠ model.back.ppn ∧ Refines after left model) ∨
      (model.currPpn = model.back.ppn ∧ Refines after left model.grow) := by
  unfold PageAllocator.reserve at done
  simp only at done
  split at done
  · -- The last region is used up, so a region of twice its size was mapped.
    rename_i full
    right
    refine ⟨refines.full_iff.1 full, ?_⟩
    have small := refines.back_small
    simp only [bind, Except.bind, emplaceBack_eq] at done
    split at done
    · cases done
    · rename_i result constructed
      rcases result with ⟨mmap, mapped⟩
      cases done
      rcases MMap.construct_ok (fits full) constructed with ⟨positive, below, rfl, rfl⟩
      -- Doubling a small size does not wrap around.
      have size : ((alloc.mmaps.getLastD {}).ppn * 2).toNat = model.back.ppn * 2 := by
        rw [refines.back, MMap.ofModel, BitVec.toNat_mul, BitVec.toNat_ofNat,
          Nat.mod_eq_of_lt (show model.back.ppn < 2 ^ 64 by omega)]
        exact Nat.mod_eq_of_lt (by show model.back.ppn * 2 < _; omega)
      rw [size] at below
      exact refines.grow size below
  · -- There is room, so nothing is done.
    rename_i room
    left
    cases done
    exact ⟨fun full => room (refines.full_iff.2 full), refines⟩

/-- A page is allocated as in the model. -/
theorem allocPage (refines : Refines process alloc model)
    (fits : GrowthFits alloc)
    (done : alloc.allocPage process answer = .ok (page, left, after)) :
    page = model.allocPage.1 ∧ Refines after left model.allocPage.2 := by
  -- Taking a page moves the cursor of the last region, which is small.
  have take {grown : PageAllocator} {model : RiscvSim.PageAllocator}
      (refines : Refines after grown model) (room : model.currPpn < model.back.ppn) :
      (model.back.ptr.add (grown.currPpn * BitVec.ofNat 64 pageSize).toNat) = (model.take room).1 ∧
        Refines after { grown with currPpn := grown.currPpn + 1 } (model.take room).2 := by
    have small := refines.back_small
    have cursor : grown.currPpn.toNat = model.currPpn := by
      rw [refines.curr, BitVec.toNat_ofNat]
      exact Nat.mod_eq_of_lt (by omega)
    constructor
    · rw [BitVec.toNat_mul, cursor]
      change model.back.ptr.add (model.currPpn * 4096 % 2 ^ 64) =
        model.back.ptr.add (model.currPpn * 4096)
      rw [Nat.mod_eq_of_lt (by omega)]
    · -- The cursor moves by one on both sides.
      refine { refines with curr := ?_ }
      apply BitVec.eq_of_toNat_eq
      change (grown.currPpn + 1).toNat = (BitVec.ofNat 64 (model.currPpn + 1)).toNat
      rw [BitVec.toNat_add, cursor, BitVec.toNat_ofNat]
      rfl
  unfold PageAllocator.allocPage at done
  simp only [bind, Except.bind] at done
  split at done
  · cases done
  · rename_i result reserved
    rcases result with ⟨grown, mapped⟩
    simp only at done
    unfold RiscvSim.PageAllocator.allocPage
    rcases refines.reserve fits reserved with ⟨room, kept⟩ | ⟨full, kept⟩
    · -- The last region had room for the page.
      rw [dif_neg room]
      simp only [kept.back, MMap.ofModel] at done
      cases done
      exact take kept _
    · -- The page is the first one of the region that was added.
      rw [dif_pos full]
      simp only [kept.back, MMap.ofModel] at done
      cases done
      exact take kept _

end Refines

/-- Every size that the pool grows to in some calls fits. -/
def FitsCalls (process : Process) (alloc : PageAllocator) : List Answer → Prop
  | [] => True
  | answer :: later =>
    GrowthFits alloc ∧
      match alloc.allocPage process answer with
      | .error _ => FitsCalls process alloc later
      | .ok (_, left, after) => FitsCalls after left later

/-- The pages share no byte, and every byte of them is mapped. -/
structure Separate (process : Process) (pages : List HostPtr) : Prop where
  disjoint : pages.Pairwise fun page other => ∀ ptr, InPage page ptr → ¬InPage other ptr
  mapped : ∀ page ∈ pages, ∀ ptr, InPage page ptr → process.Mapped ptr

/-- What some calls leave, in terms of the model before them. -/
structure Handed (model final : RiscvSim.PageAllocator) (pages : List HostPtr) : Prop where
  kept : ∀ ptr, model.Owned ptr → final.Owned ptr
  owned : ∀ page ∈ pages, ∀ ptr, InPage page ptr → final.Owned ptr
  fresh : ∀ page ∈ pages, ∀ ptr, InPage page ptr → ¬model.Owned ptr
  disjoint : pages.Pairwise fun page other => ∀ ptr, InPage page ptr → ¬InPage other ptr

/-- A page is handed out before the others. -/
theorem Handed.cons {model final : RiscvSim.PageAllocator} {pages : List HostPtr}
    (handed : Handed model.allocPage.2 final pages) :
    Handed model final (model.allocPage.1 :: pages) := by
  have old {ptr : HostPtr} (owned : model.Owned ptr) : model.allocPage.2.Owned ptr :=
    (model.owned_allocPage ptr).2 (.inl owned)
  have new {ptr : HostPtr} (inside : InPage model.allocPage.1 ptr) :
      model.allocPage.2.Owned ptr := (model.owned_allocPage ptr).2 (.inr inside)
  refine
    { kept := fun ptr owned => handed.kept ptr (old owned)
      owned := ?_
      fresh := ?_
      disjoint := List.pairwise_cons.2 ⟨?_, handed.disjoint⟩ }
  · -- The first page stays handed out in the later calls.
    intro page member ptr inside
    rcases List.mem_cons.1 member with rfl | member
    · exact handed.kept ptr (new inside)
    · exact handed.owned page member ptr inside
  · -- A later page was not handed out after the first, so neither before.
    intro page member ptr inside owned
    rcases List.mem_cons.1 member with rfl | member
    · exact model.allocPage_fresh inside owned
    · exact handed.fresh page member ptr inside (old owned)
  · -- The later pages are fresh where this one was handed out.
    intro other member ptr inside shared
    exact handed.fresh other member ptr shared (new inside)

/-- Calls hand out pages as the model does. -/
theorem Refines.calls {answers : List Answer} {process : Process} {alloc : PageAllocator}
    {model : RiscvSim.PageAllocator} (refines : Refines process alloc model)
    (fits : FitsCalls process alloc answers) :
    ∃ final, Refines (alloc.calls process answers).2.2 (alloc.calls process answers).2.1 final ∧
      Handed model final (alloc.calls process answers).1 := by
  -- The first call hands out a page of the model, and the others go on from there.
  induction answers generalizing process alloc model with
  | nil =>
    exact ⟨model, refines,
      { kept := fun ptr owned => owned
        owned := fun page member => absurd member List.not_mem_nil
        fresh := fun page member => absurd member List.not_mem_nil
        disjoint := .nil }⟩
  | cons answer later ih =>
    rw [FitsCalls] at fits
    rw [PageAllocator.calls]
    cases result : alloc.allocPage process answer with
    | error failure =>
      -- The call has changed nothing.
      rw [result] at fits
      exact ih refines fits.2
    | ok done =>
      rcases done with ⟨page, left, after⟩
      rw [result] at fits
      rcases refines.allocPage fits.1 result with ⟨rfl, stepped⟩
      rcases ih stepped fits.2 with ⟨final, ends, handed⟩
      exact ⟨final, ends, handed.cons⟩

/-- The last region has a size that is a power of two. -/
def PowerSized (model : RiscvSim.PageAllocator) : Prop := ∃ k, model.back.ppn = 2 ^ k

/-- Allocating a page keeps the size of the last region a power of two. -/
theorem PowerSized.allocPage {model : RiscvSim.PageAllocator} (sized : PowerSized model) :
    PowerSized model.allocPage.2 := by
  -- The page is taken from the last region or from a new one.
  rcases sized with ⟨k, size⟩
  unfold RiscvSim.PageAllocator.allocPage
  split
  · -- The new region is twice as large.
    refine ⟨k + 1, ?_⟩
    have last : model.grow.back = model.nextRegion := List.getLast_concat
    rw [Nat.pow_succ, ← size]
    exact congrArg RiscvSim.MMap.ppn last
  · exact ⟨k, size⟩

/-- A pool of such sizes never grows to a size that does not fit. -/
theorem Refines.growthFits {process : Process} {alloc : PageAllocator}
    {model : RiscvSim.PageAllocator} (refines : Refines process alloc model)
    (sized : PowerSized model) : GrowthFits alloc := by
  intro full
  rcases sized with ⟨k, size⟩
  have small := refines.back_small
  rw [size] at small
  -- The doubled size is at most the power that wraps around to nothing.
  have bound : k + 1 ≤ 52 := (Nat.pow_lt_pow_iff_right (by omega)).1 small
  -- The doubled size is the next power.
  have doubled : ((alloc.mmaps.getLastD {}).ppn * 2).toNat = 2 ^ (k + 1) := by
    rw [refines.back, MMap.ofModel, size, BitVec.toNat_mul, BitVec.toNat_ofNat,
      Nat.mod_eq_of_lt (show 2 ^ k < 2 ^ 64 by omega)]
    change 2 ^ k * 2 % 2 ^ 64 = 2 ^ (k + 1)
    rw [Nat.mod_eq_of_lt (by omega), Nat.pow_succ]
  rw [Fits, doubled]
  rcases Nat.lt_or_eq_of_le bound with less | same
  · exact .inl (Nat.pow_lt_pow_right (by omega) less)
  · exact .inr (by rw [same, Nat.mod_self])

/-- The memory maps the pages of the model, over its allocator. -/
structure RefinesRAM (process : Process) (ram : RAM) (model : RiscvSim.RAM) : Prop where
  allocator : Refines process ram.pageAllocator model.pageAllocator
  sized : PowerSized model.pageAllocator
  mapping : ram.mapping = model.mapping

namespace RefinesRAM

variable {process after : Process} {ram left : RAM} {model : RiscvSim.RAM}

/-- A new memory is the one of the model. -/
theorem of_new {grants : Bool} (made : RAM.new grants = .ok (ram, process)) :
    RefinesRAM process ram .new := by
  unfold RAM.new at made
  simp only [bind, Except.bind] at made
  split at made
  · cases made
  · rename_i result constructed
    rcases result with ⟨alloc, mapped⟩
    cases made
    -- The first region of a memory is small, so its size fits.
    rcases Refines.of_new (.inl (by decide)) constructed with ⟨positive, refines⟩
    exact { allocator := refines, sized := ⟨12, rfl⟩, mapping := rfl }

/-- A page is added as in the model, where no page ever changes its pointer. -/
theorem addPage (refines : RefinesRAM process ram model) {page : PhysAddr} {answer : Answer}
    {fresh : Bool} (done : ram.addPage process page answer = .ok (fresh, left, after)) :
    ∃ added, RefinesRAM after left added ∧
      ∀ other host, model.mapping other = some host → added.mapping other = some host := by
  have fits := refines.allocator.growthFits refines.sized
  unfold RAM.addPage at done
  split at done
  · cases done
  · simp only [bind, Except.bind] at done
    split at done
    · cases done
    · rename_i result allocated
      rcases result with ⟨host, alloc, mapped⟩
      rcases refines.allocator.allocPage fits allocated with ⟨rfl, stepped⟩
      simp only at done
      split at done
      · -- The page is there already.
        cases done
        exact ⟨model.discard, ⟨stepped, refines.sized.allocPage, refines.mapping⟩,
          fun other host found => found⟩
      · -- The page is new, so the entries of the others stay.
        rename_i missing
        cases done
        refine ⟨model.emplace page, ⟨stepped, refines.sized.allocPage, ?_⟩, ?_⟩
        · rw [refines.mapping]
          rfl
        · intro other host found
          have different : other ≠ page := by
            rintro rfl
            rw [refines.mapping, found] at missing
            exact missing rfl
          change Function.update model.mapping page _ other = some host
          rw [Function.update_of_ne different, found]

/-- Pages are added as in the model, where no page ever changes its pointer. -/
theorem calls {process : Process} {ram : RAM} {model : RiscvSim.RAM}
    (refines : RefinesRAM process ram model) (pages : List (PhysAddr × Answer)) :
    ∃ final, RefinesRAM (ram.calls process pages).2 (ram.calls process pages).1 final ∧
      ∀ other host, model.mapping other = some host → final.mapping other = some host := by
  -- No call that fails changes the mapping, and no call that succeeds moves a page.
  induction pages generalizing process ram model with
  | nil => exact ⟨model, refines, fun other host found => found⟩
  | cons call later ih =>
    rcases call with ⟨page, answer⟩
    rw [RAM.calls]
    cases result : ram.addPage process page answer with
    | error failure => exact ih refines
    | ok done =>
      rcases done with ⟨fresh, left, after⟩
      rcases refines.addPage result with ⟨added, stepped, kept⟩
      rcases ih stepped with ⟨final, ends, keeps⟩
      exact ⟨final, ends, fun other host found => keeps other host (kept other host found)⟩

end RefinesRAM

/-- Different pages of a memory share no byte, and every byte of them is mapped. -/
structure SeparateRAM (process : Process) (ram : RAM) : Prop where
  disjoint : ∀ page other host shared, page ≠ other → ram.mapping page = some host →
    ram.mapping other = some shared → ∀ ptr, InPage host ptr → ¬InPage shared ptr
  mapped : ∀ page host, ram.mapping page = some host → ∀ ptr, InPage host ptr → process.Mapped ptr

/-- What holds of the model holds of the memory that refines it. -/
theorem RefinesRAM.separate {process : Process} {ram : RAM} {model : RiscvSim.RAM}
    (refines : RefinesRAM process ram model) : SeparateRAM process ram := by
  constructor
  · -- No host byte stands behind two pages of the model.
    intro page other host shared different found sharedFound ptr inside sharedInside
    rw [refines.mapping] at found sharedFound
    exact different (model.distinct page other host shared ptr found sharedFound inside sharedInside)
  · -- A byte behind a page of the model was handed out, and so it is mapped.
    intro page host found ptr inside
    rw [refines.mapping] at found
    exact refines.allocator.mapped (model.owned page host ptr found inside)

/-- Every size of a pool fits: the first one and those that it grows to. -/
def FitsRun (ppn : PPN) (grants : Bool) (answers : List Answer) : Prop :=
  Fits ppn ∧ ∀ alloc process, PageAllocator.new {} ppn grants = .ok (alloc, process) →
    FitsCalls process alloc answers

/-- The pages that a pool of some initial size hands out, and those behind a memory. -/
structure NeverAliases (ppn : PPN) (grants : Bool) (answers : List Answer) : Prop where
  pool : ∀ alloc process, PageAllocator.new {} ppn grants = .ok (alloc, process) →
    Separate (alloc.calls process answers).2.2 (alloc.calls process answers).1
  ram : ∀ ramGrants ram process, RAM.new ramGrants = .ok (ram, process) → ∀ pages,
    SeparateRAM (ram.calls process pages).2 (ram.calls process pages).1
  /-- A page keeps its pointer in all later calls. -/
  stable : ∀ ramGrants ram process, RAM.new ramGrants = .ok (ram, process) → ∀ pages later page host,
    (ram.calls process pages).1.mapping page = some host →
      (ram.calls process (pages ++ later)).1.mapping page = some host

/-- Calls one after another are calls of the joined list. -/
theorem RAM.calls_append (pages later : List (PhysAddr × Answer)) (process : Process) (ram : RAM) :
    ram.calls process (pages ++ later) =
      (ram.calls process pages).1.calls (ram.calls process pages).2 later := by
  -- The first call is made by both, and the induction joins the rest.
  induction pages generalizing process ram with
  | nil => rfl
  | cons call pages ih =>
    rcases call with ⟨page, answer⟩
    rw [List.cons_append, RAM.calls, RAM.calls]
    cases ram.addPage process page answer with
    | error failure => exact ih process ram
    | ok done =>
      rcases done with ⟨fresh, left, after⟩
      exact ih after left

/-- Host pages never alias in a run whose sizes fit, and those behind a memory never do. -/
theorem neverAliases {ppn : PPN} {grants : Bool} {answers : List Answer}
    (fits : FitsRun ppn grants answers) : NeverAliases ppn grants answers := by
  refine { pool := ?_, ram := ?_, stable := ?_ }
  · -- The pool starts with a region that fits, and every growth fits by assumption.
    intro alloc process made
    rcases Refines.of_new fits.1 made with ⟨positive, refines⟩
    rcases refines.calls (fits.2 alloc process made) with ⟨final, ends, handed⟩
    exact
      { disjoint := handed.disjoint
        mapped := fun page member ptr inside => ends.mapped (handed.owned page member ptr inside) }
  · -- For a memory no assumption is needed, as its sizes are powers of two.
    intro ramGrants ram process made pages
    rcases (RefinesRAM.of_new made).calls pages with ⟨final, ends, _⟩
    exact ends.separate
  · -- The mapping after some calls is one to go on from.
    intro ramGrants ram process made pages later page host found
    rcases (RefinesRAM.of_new made).calls pages with ⟨middle, reached, _⟩
    rcases reached.calls later with ⟨final, ends, kept⟩
    rw [RAM.calls_append, ends.mapping]
    rw [reached.mapping] at found
    exact kept page host found

/-- A pool of one page that grows twice. -/
theorem neverAliases_growing :
    NeverAliases 1 true [⟨true, false⟩, ⟨true, true⟩, ⟨true, false⟩, ⟨true, true⟩] := by
  refine neverAliases ⟨.inl (by decide), fun alloc process made => ?_⟩
  -- Each size that is reached is small.
  cases made
  exact ⟨fun _ => .inl (by decide), fun _ => .inl (by decide), fun _ => .inl (by decide),
    fun _ => .inl (by decide), trivial⟩

/-- A size that wraps around is mapped with one page, and the next page lies behind it. -/
theorem not_neverAliases_wrapped :
    ¬NeverAliases 0x0010000000000001 true [⟨true, false⟩, ⟨true, false⟩] := by
  intro safe
  have separate := safe.pool _ _ rfl
  have mapped := separate.mapped ⟨0, 4096⟩ (by decide) ⟨0, 4096⟩ ⟨rfl, Nat.le_refl _, by decide⟩
  -- One page is mapped, so its end is not.
  exact Nat.lt_irrefl 4096 mapped

end RiscvSim.Host
