import RiscvSim.ElfLoad.ElfLoader

/-! The loop that maps the pages of a segment, up to the end of the address space. -/

namespace RiscvSim

namespace ElfLoader

section PageLoop

variable {σ : Type} (mapPage : VPN → σ → Except Abort (SimStatus × σ)) (segEnd : VirtAddr)

/-- Map a page, and keep the call. -/
def logged (pageVpn : VPN) (state : σ × List VPN) : Except Abort (SimStatus × σ × List VPN) :=
  match mapPage pageVpn state.1 with
  | .error why => .error why
  | .ok (status, next) => .ok (status, next, state.2 ++ [pageVpn])

/-- Keeping the calls changes nothing in what the loop does. -/
theorem mapPages_logged (iterations : Nat) (currPageVa : VirtAddr) (state : σ) (calls : List VPN) :
    (mapPages (logged mapPage) segEnd iterations currPageVa (state, calls)).map
        (fun result => (result.1, result.2.1)) =
      mapPages mapPage segEnd iterations currPageVa state := by
  -- The induction follows the loop, whose test reads the address alone.
  induction iterations generalizing currPageVa state calls with
  | zero => rfl
  | succ iterations ih =>
    by_cases more : currPageVa < segEnd
    · simp only [mapPages, if_pos more, logged]
      rcases called : mapPage (currPageVa / BitVec.ofNat 64 pageSize) state with why | ⟨status, next⟩
      · -- The call aborts, with the log or without it.
        rfl
      · -- The log grows in both branches, and the state moves as without it.
        by_cases good : status = .ok
        · simpa [good] using ih _ next _
        · simp [good, Except.map]
    · simp [mapPages, more, Except.map]

end PageLoop

/-- The numbers of the pages of a segment, in increasing order. -/
def segmentPages (pVaddr : VirtAddr) (pMemsz : BitVec 64) : List Nat :=
  let first := pVaddr.toNat / 4096
  let last := (pVaddr.toNat + pMemsz.toNat - 1) / 4096
  if pMemsz = 0 then [] else List.range' first (last + 1 - first)

/-- How the loop may end: after the pages of the segment, or where mapping a page fails. -/
def EndsExactly {σ : Type} (pages : List Nat) :
    Except Abort (Option SimStatus × σ × List VPN) → Prop
  | .error _ => True
  | .ok (none, _) => False
  | .ok (some status, _, calls) =>
    calls.map BitVec.toNat <+: pages ∧ (status = .ok → calls.map BitVec.toNat = pages)

/-- Whatever mapping a page does, the loop ends after it has mapped each page of the segment once and
in increasing order, unless mapping one of them fails. -/
def PageLoopExact (pVaddr : VirtAddr) (pMemsz : BitVec 64) : Prop :=
  ∀ (σ : Type) (mapPage : VPN → σ → Except Abort (SimStatus × σ)) (state : σ), ∃ iterations,
    EndsExactly (segmentPages pVaddr pMemsz)
      (mapPages (logged mapPage) (pVaddr + pMemsz) iterations (pageBase pVaddr) (state, []))

/-- The segment ends below the last page, and an empty one starts with a page. -/
def PageLoopSafe (pVaddr : VirtAddr) (pMemsz : BitVec 64) : Prop :=
  (pMemsz = 0 ∧ pVaddr.toNat % 4096 = 0) ∨
    (pMemsz ≠ 0 ∧ pVaddr.toNat + pMemsz.toNat ≤ 0xfffffffffffff000)

/-- The number of the page at an address. -/
theorem toNat_div_pageSize (addr : VirtAddr) :
    (addr / BitVec.ofNat 64 pageSize).toNat = addr.toNat / 4096 := by
  rw [BitVec.toNat_udiv]
  rfl

/-- Below the last page the next page address does not wrap. -/
theorem toNat_add_pageSize (addr : VirtAddr) (below : addr.toNat < 0xfffffffffffff000) :
    (addr + BitVec.ofNat 64 pageSize).toNat = addr.toNat + 4096 := by
  rw [BitVec.toNat_add, show (BitVec.ofNat 64 pageSize).toNat = 4096 from rfl]
  omega

section PageLoop

variable {σ : Type} (mapPage : VPN → σ → Except Abort (SimStatus × σ))

/-- From a page address on, the loop maps the pages that are left. -/
theorem mapPages_ends {segEnd : VirtAddr} (low : segEnd.toNat ≤ 0xfffffffffffff000)
    (count : Nat) (currPageVa : VirtAddr) (aligned : currPageVa.toNat % 4096 = 0)
    (left : (segEnd.toNat + 4095) / 4096 - currPageVa.toNat / 4096 = count)
    (state : σ) (calls : List VPN) :
    EndsExactly (calls.map BitVec.toNat ++ List.range' (currPageVa.toNat / 4096) count)
      (mapPages (logged mapPage) segEnd (count + 1) currPageVa (state, calls)) := by
  -- The induction is on the number of pages that are left, and each turn maps one.
  induction count generalizing currPageVa state calls with
  | zero =>
    have done : ¬ currPageVa < segEnd := by
      rw [BitVec.lt_def]
      omega
    -- No page is left, and the test of the loop fails.
    simp [mapPages, done, EndsExactly]
  | succ count ih =>
    have more : currPageVa < segEnd := by
      rw [BitVec.lt_def]
      omega
    -- The page end is at most the end of the segment rounded up, so the address does not wrap.
    have moved := toNat_add_pageSize currPageVa (by rw [BitVec.lt_def] at more; omega)
    have page := toNat_div_pageSize currPageVa
    rw [mapPages, if_pos more, logged, ← page, List.range'_succ]
    generalize currPageVa / BitVec.ofNat 64 pageSize = pageVpn at page
    rcases mapPage pageVpn state with why | ⟨status, next⟩
    · -- An abort leaves nothing to show.
      trivial
    · by_cases good : status = .ok
      · have rest := ih (currPageVa + BitVec.ofNat 64 pageSize) (by omega) (by omega) next
          (calls ++ [pageVpn])
        rw [moved, show (currPageVa.toNat + 4096) / 4096 = pageVpn.toNat + 1 by omega] at rest
        simpa [good] using rest
      · -- A call that fails is the last one, so the calls are a prefix.
        simp [good, EndsExactly]

/-- The calls are only added to. -/
theorem calls_prefix {segEnd : VirtAddr} {iterations : Nat} {currPageVa : VirtAddr} {state : σ}
    {calls : List VPN} {status : Option SimStatus} {final : σ × List VPN}
    (ran : mapPages (logged mapPage) segEnd iterations currPageVa (state, calls) =
      .ok (status, final)) : calls <+: final.2 := by
  -- By induction on the turns, each of which puts one call at the end.
  induction iterations generalizing currPageVa state calls with
  | zero =>
    cases ran
    exact List.prefix_refl calls
  | succ iterations ih =>
    rw [mapPages, logged] at ran
    by_cases more : currPageVa < segEnd
    · rw [if_pos more] at ran
      rcases called : mapPage (currPageVa / BitVec.ofNat 64 pageSize) state with why | ⟨result, next⟩
      · simp [called] at ran
      · simp only [called] at ran
        by_cases good : result = .ok
        · rw [if_neg (by simp [good])] at ran
          exact (List.prefix_append calls _).trans (ih ran)
        · rw [if_pos good] at ran
          cases ran
          exact List.prefix_append calls _
    · rw [if_neg more] at ran
      cases ran
      exact List.prefix_refl calls

end PageLoop

/-- Mapping a page that always succeeds. -/
def alwaysMaps (_ : VPN) (_ : Unit) : Except Abort (SimStatus × Unit) := .ok (.ok, ())

/-- A loop that always maps its pages does not abort. -/
theorem mapPages_alwaysMaps (segEnd : VirtAddr) (iterations : Nat) (currPageVa : VirtAddr)
    (calls : List VPN) : ∃ status final,
    mapPages (logged alwaysMaps) segEnd iterations currPageVa ((), calls) = .ok (status, final) := by
  induction iterations generalizing currPageVa calls with
  | zero => exact ⟨_, _, rfl⟩
  | succ iterations ih =>
    -- The one test is that of the address, as no call fails.
    by_cases more : currPageVa < segEnd
    · rw [mapPages, if_pos more]
      exact ih _ _
    · rw [mapPages, if_neg more]
      exact ⟨_, _, rfl⟩

/-- When the segment ends inside the last page, the loop goes round the address space. -/
theorem mapPages_forever {segEnd : VirtAddr} (high : 0xfffffffffffff000 < segEnd.toNat)
    (iterations : Nat) (currPageVa : VirtAddr) (aligned : currPageVa.toNat % 4096 = 0)
    (calls : List VPN) : ∃ final,
    mapPages (logged alwaysMaps) segEnd iterations currPageVa ((), calls) = .ok (none, final) := by
  -- Every page address is below the end, also the first one after the last page.
  induction iterations generalizing currPageVa calls with
  | zero => exact ⟨_, rfl⟩
  | succ iterations ih =>
    have more : currPageVa < segEnd := by
      rw [BitVec.lt_def]
      omega
    rw [mapPages, if_pos more]
    apply ih
    rw [BitVec.toNat_add, show (BitVec.ofNat 64 pageSize).toNat = 4096 from rfl]
    omega

/-- The pages of a segment end with the page of its last byte. -/
theorem segmentPages_eq {pVaddr : VirtAddr} {pMemsz : BitVec 64} (occupied : pMemsz ≠ 0) :
    segmentPages pVaddr pMemsz =
      List.range' (pVaddr.toNat / 4096)
        ((pVaddr.toNat + pMemsz.toNat + 4095) / 4096 - pVaddr.toNat / 4096) := by
  have positive : pMemsz.toNat ≠ 0 := by
    intro empty
    exact occupied (BitVec.eq_of_toNat_eq empty)
  rw [segmentPages, if_neg occupied]
  congr 1
  omega

/-- A segment that is safe has its pages mapped, each once. -/
theorem pageLoopExact_of_safe {pVaddr : VirtAddr} {pMemsz : BitVec 64}
    (safe : PageLoopSafe pVaddr pMemsz) : PageLoopExact pVaddr pMemsz := by
  intro σ mapPage state
  rcases safe with ⟨empty, aligned⟩ | ⟨occupied, low⟩
  · -- The only page address that is looked at is the end.
    have base : pageBase pVaddr = pVaddr := (pageBase_eq_self_iff pVaddr).mpr aligned
    refine ⟨1, ?_⟩
    simp [empty, base, mapPages, segmentPages, EndsExactly]
  · -- The sum does not wrap, so the loop reaches the end of the segment.
    have segEnd : (pVaddr + pMemsz).toNat = pVaddr.toNat + pMemsz.toNat := by
      rw [BitVec.toNat_add]
      omega
    have low : (pVaddr + pMemsz).toNat ≤ 0xfffffffffffff000 := by omega
    have aligned : (pageBase pVaddr).toNat % 4096 = 0 := by
      rw [toNat_pageBase]
      omega
    have ends := mapPages_ends mapPage low _ (pageBase pVaddr) aligned rfl state []
    rw [toNat_pageBase, segEnd, show (pVaddr.toNat - pVaddr.toNat % 4096) / 4096 =
      pVaddr.toNat / 4096 by omega, List.map_nil, List.nil_append] at ends
    rw [segmentPages_eq occupied]
    exact ⟨_, ends⟩

/-- An empty segment that starts inside a page has that page mapped. -/
theorem not_ends_of_unaligned {pVaddr : VirtAddr} (unaligned : pVaddr.toNat % 4096 ≠ 0)
    (iterations : Nat) : ¬ EndsExactly []
      (mapPages (logged alwaysMaps) pVaddr iterations (pageBase pVaddr) ((), [])) := by
  have more : pageBase pVaddr < pVaddr := by
    rw [BitVec.lt_def, toNat_pageBase]
    omega
  cases iterations with
  -- Without a turn the loop has not ended.
  | zero => simp [mapPages, EndsExactly]
  | succ iterations =>
    intro ends
    rw [mapPages, if_pos more, logged] at ends
    simp only [alwaysMaps] at ends
    rw [if_neg (by simp)] at ends
    -- The first call stays in the log, whatever the loop does next.
    rw [List.nil_append] at ends
    obtain ⟨status, final, ran⟩ := mapPages_alwaysMaps pVaddr iterations
      (pageBase pVaddr + BitVec.ofNat 64 pageSize) [pageBase pVaddr / BitVec.ofNat 64 pageSize]
    have kept := calls_prefix _ ran
    rw [ran] at ends
    rcases status with _ | status
    · -- The loop did not end in these turns.
      exact ends
    · have empty := List.map_eq_nil_iff.mp (List.prefix_nil.mp ends.1)
      rw [empty] at kept
      simp at kept

/-- A segment that ends with the address space has no page mapped. -/
theorem not_ends_of_wrapped {pVaddr : VirtAddr} {pMemsz : BitVec 64} (occupied : pMemsz ≠ 0)
    (wrapped : pVaddr + pMemsz = 0) (iterations : Nat) :
    ¬ EndsExactly (segmentPages pVaddr pMemsz)
      (mapPages (logged alwaysMaps) (pVaddr + pMemsz) iterations (pageBase pVaddr) ((), [])) := by
  -- The end is the address zero, so the test fails at once.
  have sum := congrArg BitVec.toNat wrapped
  rw [BitVec.toNat_add] at sum
  have positive : pMemsz.toNat ≠ 0 := by
    intro empty
    exact occupied (BitVec.eq_of_toNat_eq empty)
  have pages : segmentPages pVaddr pMemsz ≠ [] := by
    rw [segmentPages_eq occupied]
    simp
    omega
  cases iterations with
  | zero => simp [mapPages, EndsExactly]
  | succ iterations => simpa [wrapped, mapPages, EndsExactly] using pages.symm

/-- A loop that ends well whatever mapping a page does is for a safe segment. -/
theorem safe_of_pageLoopExact {pVaddr : VirtAddr} {pMemsz : BitVec 64}
    (inside : pVaddr.toNat + pMemsz.toNat ≤ 0x10000000000000000)
    (maps : PageLoopExact pVaddr pMemsz) : PageLoopSafe pVaddr pMemsz := by
  obtain ⟨iterations, ends⟩ := maps Unit alwaysMaps ()
  by_cases empty : pMemsz = 0
  · refine .inl ⟨empty, ?_⟩
    by_contra unaligned
    have noPages : segmentPages pVaddr pMemsz = [] := if_pos empty
    have segEnd : pVaddr + pMemsz = pVaddr := by simp [empty]
    -- The loop starts below the end, at the page of the segment, and maps that page.
    rw [noPages, segEnd] at ends
    exact not_ends_of_unaligned unaligned iterations ends
  · refine .inr ⟨empty, ?_⟩
    -- The end is zero, or it lies inside the last page.
    by_contra high
    by_cases full : pVaddr.toNat + pMemsz.toNat = 0x10000000000000000
    · have wrapped : pVaddr + pMemsz = 0 := by
        apply BitVec.eq_of_toNat_eq
        rw [BitVec.toNat_add, full]
        rfl
      exact not_ends_of_wrapped empty wrapped iterations ends
    · have segEnd : (pVaddr + pMemsz).toNat = pVaddr.toNat + pMemsz.toNat := by
        rw [BitVec.toNat_add]
        omega
      have inLast : 0xfffffffffffff000 < (pVaddr + pMemsz).toNat := by omega
      have aligned : (pageBase pVaddr).toNat % 4096 = 0 := by
        rw [toNat_pageBase]
        omega
      obtain ⟨final, ran⟩ := mapPages_forever inLast iterations (pageBase pVaddr) aligned []
      rw [ran] at ends
      exact ends

/-- The loop maps exactly the pages of a segment when the segment ends below the last page, and an
empty one starts with a page. -/
theorem pageLoopExact_iff (pVaddr : VirtAddr) (pMemsz : BitVec 64)
    (inside : pVaddr.toNat + pMemsz.toNat ≤ 0x10000000000000000) :
    PageLoopExact pVaddr pMemsz ↔ PageLoopSafe pVaddr pMemsz := by
  constructor
  · exact safe_of_pageLoopExact inside
  · exact pageLoopExact_of_safe

/-- A segment of two pages that starts inside a page has its three pages mapped. -/
theorem pageLoopExact_unaligned : PageLoopExact 0x10010 0x2000 :=
  (pageLoopExact_iff 0x10010 0x2000 (by decide)).mpr (.inr (by decide))

/-- The last page of the address space is a segment that has no page mapped. -/
theorem pageLoopExact_lastPage : ¬ ∀ (pVaddr : VirtAddr) (pMemsz : BitVec 64),
    pVaddr.toNat + pMemsz.toNat ≤ 0x10000000000000000 → PageLoopExact pVaddr pMemsz := by
  intro claimed
  have inside : (0xfffffffffffff000 : VirtAddr).toNat + (0x1000 : BitVec 64).toNat ≤
      0x10000000000000000 := by decide
  rcases safe_of_pageLoopExact inside (claimed _ _ inside) with ⟨empty, -⟩ | ⟨-, low⟩
  · simp at empty
  · simp at low

end ElfLoader

end RiscvSim
