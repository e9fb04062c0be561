import RiscvSim.Lib.Bits

/-! Decision trees over the bit fields of a word, and the tests on the way to each leaf. -/

/-- The bits of a mask have given values. -/
structure Pattern (w : Nat) where
  mask : BitVec w
  value : BitVec w
  deriving DecidableEq, Repr

namespace Pattern

variable {w : Nat}

/-- A word has the bits of a pattern. -/
def Matches (pattern : Pattern w) (word : BitVec w) : Prop :=
  word &&& pattern.mask = pattern.value

instance (pattern : Pattern w) (word : BitVec w) : Decidable (pattern.Matches word) :=
  inferInstanceAs (Decidable (_ = _))

/-- Every bit that one pattern fixes is fixed alike by another. -/
def implies (strong weak : Pattern w) : Bool :=
  weak.mask &&& strong.mask == weak.mask && strong.value &&& weak.mask == weak.value

/-- Two patterns fix one bit differently. -/
def conflicts (left right : Pattern w) : Bool :=
  (left.mask &&& right.mask) &&& (left.value ^^^ right.value) != 0

/-- The pattern that fixes the bits of a list of patterns. -/
def merge (patterns : List (Pattern w)) : Pattern w :=
  patterns.foldr (fun pattern rest => ⟨pattern.mask ||| rest.mask, pattern.value ||| rest.value⟩)
    ⟨0, 0⟩

/-- The field `[msb, lsb]` has a given value. -/
def field (msb lsb key : Nat) : Pattern w :=
  ⟨Bits.lowMask w (msb - lsb + 1) <<< lsb, BitVec.ofNat w key <<< lsb⟩

/-- A word with the bits of the stronger pattern has those of the weaker. -/
theorem matches_of_implies {strong weak : Pattern w} {word : BitVec w}
    (implied : strong.implies weak = true) (holds : strong.Matches word) : weak.Matches word := by
  simp only [implies, Bool.and_eq_true, beq_iff_eq] at implied
  -- Masking with the wider mask first changes nothing.
  calc word &&& weak.mask
      = word &&& strong.mask &&& weak.mask := by
        rw [BitVec.and_assoc, BitVec.and_comm strong.mask, implied.1]
    _ = weak.value := by rw [holds, implied.2]

/-- No word has the bits of two conflicting patterns. -/
theorem not_matches_of_conflicts {left right : Pattern w} {word : BitVec w}
    (apart : left.conflicts right = true) (holds : left.Matches word) : ¬right.Matches word := by
  intro other
  refine absurd ?_ (bne_iff_ne.mp apart)
  -- Both patterns take the shared bits from the same word.
  rw [← show word &&& left.mask = left.value from holds,
    ← show word &&& right.mask = right.value from other]
  -- In a bit that both fix, the word would have to be clear and set.
  ext i bound
  simp
  grind

/-- A word with the bits of all patterns has the bits of the merged one. -/
theorem merge_matches {patterns : List (Pattern w)} {word : BitVec w}
    (holds : ∀ pattern ∈ patterns, pattern.Matches word) : (merge patterns).Matches word := by
  -- Each pattern puts its bits beside those of the patterns behind it.
  induction patterns with
  | nil => simp [merge, Matches]
  | cons pattern rest ih =>
    have tail := ih fun other member => holds other (by simp [member])
    have head := holds pattern (by simp)
    simp only [merge, List.foldr_cons, Matches] at head tail ⊢
    rw [BitVec.and_or_distrib_left, head, tail]

/-- A word has a field of a given value exactly when it has the bits of the field's pattern. -/
theorem field_matches_iff {msb lsb key : Nat} (ordered : lsb ≤ msb) (inside : msb < w)
    (small : key < 2 ^ (msb - lsb + 1)) (word : BitVec w) :
    (field msb lsb key).Matches word ↔ word.toNat / 2 ^ lsb % 2 ^ (msb - lsb + 1) = key := by
  -- Inside the mask the word's own bits are left, and outside nothing.
  have bits : ∀ i, (word &&& Bits.lowMask w (msb - lsb + 1) <<< lsb).getLsbD i =
      (decide (lsb ≤ i ∧ i ≤ msb) && word.getLsbD i) := by
    intro i
    by_cases bound : i < w
    · by_cases low : i < lsb
      · simp [low, show ¬lsb ≤ i by omega]
      · simp only [BitVec.getLsbD_and, BitVec.getLsbD_shiftLeft, Bits.getLsbD_lowMask, bound, low,
          decide_true, decide_false, Bool.not_false, Bool.true_and, Bool.and_comm (word.getLsbD i),
          show i - lsb < w by omega, show i - lsb < msb - lsb + 1 ↔ lsb ≤ i ∧ i ≤ msb by omega]
    · simp [BitVec.getLsbD_of_ge _ i (Nat.le_of_not_lt bound)]
  simp only [Matches, field]
  constructor
  · intro holds
    apply Nat.eq_of_testBit_eq
    intro i
    rw [Nat.testBit_mod_two_pow, Nat.testBit_div_two_pow]
    by_cases within : i < msb - lsb + 1
    · -- Inside the field, the bit of the key is the shifted bit of the word.
      have bit := bits (i + lsb)
      rw [holds, BitVec.getLsbD_shiftLeft, BitVec.getLsbD_ofNat] at bit
      simpa [within, show lsb + i < w by omega, show lsb + i ≤ msb by omega, Nat.add_comm i,
        show ¬lsb + i < lsb by omega, show i < w by omega, BitVec.getLsbD] using bit.symm
    · -- Above the field, the key has no bits, as it is small enough.
      rw [Nat.testBit_lt_two_pow (Nat.lt_of_lt_of_le small
        (Nat.pow_le_pow_right (by omega) (by omega)))]
      simp [within]
  · rintro rfl
    apply BitVec.eq_of_getLsbD_eq
    intro i bound
    rw [bits, BitVec.getLsbD_shiftLeft, BitVec.getLsbD_ofNat, Nat.testBit_mod_two_pow,
      Nat.testBit_div_two_pow]
    -- Below the field, neither side has a bit.
    by_cases low : i < lsb
    · simp [low, show ¬lsb ≤ i by omega]
    · simp [low, bound, show i - lsb < w by omega, show i - lsb + lsb = i by omega,
        show i - lsb < msb - lsb + 1 ↔ i ≤ msb by omega, show lsb ≤ i by omega, BitVec.getLsbD]

end Pattern

/-- A tree of switches over bit fields. -/
inductive DecisionTree (ι : Type) where
  /-- No case is left. -/
  | fail
  | leaf (value : ι)
  /-- A case of a switch over the field `[msb, lsb]`, and the cases after it. -/
  | case (msb lsb key : Nat) (hit miss : DecisionTree ι)

namespace DecisionTree

variable {ι : Type} {w : Nat}

/-- A switch over the field `[msb, lsb]` with one subtree for each listed value. -/
def switch (msb lsb : Nat) (nodes : List (Nat × DecisionTree ι)) : DecisionTree ι :=
  nodes.foldr (fun node rest => .case msb lsb node.1 node.2 rest) .fail

/-- The leaf that a word leads to. -/
def select (word : BitVec w) : DecisionTree ι → Option ι
  | fail => none
  | leaf value => some value
  | case msb lsb key hit miss =>
    if word.toNat / 2 ^ lsb % 2 ^ (msb - lsb + 1) = key then hit.select word
    else miss.select word

/-- The leaves, each with the tests that succeed on the way to it. -/
def paths (w : Nat) : DecisionTree ι → List (List (Pattern w) × ι)
  | fail => []
  | leaf value => [([], value)]
  | case msb lsb key hit miss =>
    (hit.paths w).map (fun path => (Pattern.field msb lsb key :: path.1, path.2)) ++ miss.paths w

/-- Fields lie in the word, and later cases of a switch exclude the earlier ones. -/
def wellFormed (w : Nat) : DecisionTree ι → Bool
  | fail => true
  | leaf _ => true
  | case msb lsb key hit miss =>
    lsb ≤ msb && msb < w && key < 2 ^ (msb - lsb + 1) &&
      (miss.paths w).all (fun path => path.1.any (Pattern.field msb lsb key).conflicts) &&
      hit.wellFormed w && miss.wellFormed w

/-- The cases of a switch over the field `[msb, lsb]` go on with cases over the same field. -/
def continues (msb lsb : Nat) : DecisionTree ι → Bool
  | fail => true
  | leaf _ => false
  | case otherMsb otherLsb _ _ _ => otherMsb == msb && otherLsb == lsb

/-- All cases of each switch are over the same field. -/
def uniform : DecisionTree ι → Bool
  | fail => true
  | leaf _ => true
  | case msb lsb _ hit miss => hit.uniform && miss.uniform && miss.continues msb lsb

/-- A word leads to a leaf exactly when it passes the tests of a path to it. -/
theorem select_eq_some_iff {tree : DecisionTree ι} (good : tree.wellFormed w = true)
    (word : BitVec w) (value : ι) :
    tree.select word = some value ↔
      ∃ tests, (tests, value) ∈ tree.paths w ∧ ∀ test ∈ tests, test.Matches word := by
  -- By induction on the tree, with the two subtrees of a case apart.
  induction tree with
  | fail => simp [select, paths]
  | leaf other =>
    -- There is one path, and no test on it.
    simp only [select, paths, List.mem_singleton, Prod.mk.injEq, Option.some.injEq]
    constructor
    · rintro rfl
      exact ⟨[], ⟨rfl, rfl⟩, by simp⟩
    · rintro ⟨_, ⟨_, same⟩, _⟩
      exact same.symm
  | case msb lsb key hit miss hitIh missIh =>
    simp only [wellFormed, Bool.and_eq_true, decide_eq_true_eq] at good
    obtain ⟨⟨⟨⟨⟨ordered, inside⟩, small⟩, apart⟩, hitGood⟩, missGood⟩ := good
    have test := Pattern.field_matches_iff ordered inside small word
    simp only [paths, List.mem_append, List.mem_map, Prod.mk.injEq, Prod.exists]
    by_cases taken : word.toNat / 2 ^ lsb % 2 ^ (msb - lsb + 1) = key
    · -- The test of this case succeeds, so the paths through the hit count.
      rw [select, if_pos taken, hitIh hitGood]
      constructor
      · rintro ⟨tests, member, holds⟩
        exact ⟨_, .inl ⟨tests, value, member, rfl, rfl⟩,
          List.forall_mem_cons.mpr ⟨test.mpr taken, holds⟩⟩
      · rintro ⟨tests, ⟨rest, other, member, rfl, rfl⟩ | member, holds⟩
        · exact ⟨rest, member, (List.forall_mem_cons.mp holds).2⟩
        · -- A path through the later cases fails a test that this one passes.
          obtain ⟨failed, inTests, conflict⟩ :=
            List.any_eq_true.mp (List.all_eq_true.mp apart _ member)
          exact absurd (holds failed inTests)
            (Pattern.not_matches_of_conflicts conflict (test.mpr taken))
    · -- The test fails, so the paths through the later cases count.
      rw [select, if_neg taken, missIh missGood]
      constructor
      · rintro ⟨tests, member, holds⟩
        exact ⟨tests, .inr member, holds⟩
      · rintro ⟨tests, ⟨rest, other, member, rfl, rfl⟩ | member, holds⟩
        · -- A path through the hit starts with the test that fails.
          exact absurd (test.mp (List.forall_mem_cons.mp holds).1) taken
        · exact ⟨tests, member, holds⟩

end DecisionTree
