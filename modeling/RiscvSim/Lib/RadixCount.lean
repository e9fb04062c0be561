import RiscvSim.Lib.RadixTables
import Mathlib.Algebra.BigOperators.Group.Finset.Sigma
import Mathlib.Order.Interval.Finset.Nat

/-! How many tables a forest has for a set of keys. -/

namespace RadixTables

variable {radix levels root next key : Nat} {tables after : Tables} {keys : Finset Nat}

/-- The prefixes of keys below the top, with their levels. -/
def prefixes (radix levels : Nat) (keys : Finset Nat) : Finset (Σ _ : Nat, Nat) :=
  (Finset.range (levels - 1)).sigma fun i => keys.image fun key => keyPrefix radix key i

/-- The number of tables that keys need below the top. -/
def tableCount (radix levels : Nat) (keys : Finset Nat) : Nat :=
  ∑ i ∈ Finset.range (levels - 1), (keys.image fun key => keyPrefix radix key i).card

/-- Each prefix needs a table. -/
theorem card_prefixes (radix levels : Nat) (keys : Finset Nat) :
    (prefixes radix levels keys).card = tableCount radix levels keys :=
  Finset.card_sigma _ _

/-- A prefix is that of one of the keys. -/
theorem mem_prefixes {entry : Σ _ : Nat, Nat} : entry ∈ prefixes radix levels keys ↔
    entry.1 + 1 < levels ∧ ∃ key ∈ keys, keyPrefix radix key entry.1 = entry.2 := by
  simp only [prefixes, Finset.mem_sigma, Finset.mem_range, Finset.mem_image]
  -- The levels below the top are those with a level above them.
  constructor
  · intro ⟨inside, spelled⟩
    exact ⟨by omega, spelled⟩
  · intro ⟨inside, spelled⟩
    exact ⟨by omega, spelled⟩

/-- Every table below the top serves one of the keys. -/
def Needed (radix levels : Nat) (tables : Tables) (keys : Finset Nat) : Prop :=
  ∀ i p, i + 1 < levels → (tables i p).isSome → ∃ key ∈ keys, keyPrefix radix key i = p

/-- Every key has its lowest table. -/
def Served (radix : Nat) (tables : Tables) (keys : Finset Nat) : Prop :=
  ∀ key ∈ keys, (tables 0 (keyPrefix radix key 0)).isSome

/-- Tables that are created along a key serve that key. -/
theorem Needed.insert (needed : Needed radix levels tables keys)
    (along : Along radix key tables after) : Needed radix levels after (insert key keys) := by
  intro i p below present
  -- A table was there before, or it serves the new key.
  rcases along.adds i p present with found | rfl
  · obtain ⟨other, member, same⟩ := needed i p below found
    exact ⟨other, Finset.mem_insert_of_mem member, same⟩
  · exact ⟨key, Finset.mem_insert_self key keys, rfl⟩

/-- A key is served once its lowest table was created. -/
theorem Served.insert (served : Served radix tables keys) (along : Along radix key tables after)
    (lowest : (after 0 (keyPrefix radix key 0)).isSome) :
    Served radix after (insert key keys) := by
  intro other member
  -- The new key has its table by assumption, and the others keep theirs.
  rcases Finset.mem_insert.mp member with rfl | old
  · exact lowest
  · exact along.keeps _ _ (served other old)

namespace Shape

variable (shape : Shape radix levels root next tables)
include shape

/-- A table below the top has a number above the root's. -/
theorem root_lt {i p t : Nat} (found : tables i p = some t) (below : i + 1 < levels) : root < t := by
  have bounds := shape.bounds i p t found
  -- The number of the root belongs to the top table alone.
  have other : root ≠ t := by
    rintro rfl
    have same := (shape.unique _ _ _ _ _ found shape.top.2).1
    omega
  omega

/-- Every number above the root's belongs to a table below the top. -/
theorem below_top {t : Nat} (lower : root < t) (upper : t < next) :
    ∃ i p, i + 1 < levels ∧ tables i p = some t := by
  -- Some table has the number, and it is not the one at the top.
  obtain ⟨i, p, found⟩ := shape.onto t (by omega) upper
  obtain ⟨inside, top⟩ := shape.above i p t found
  refine ⟨i, p, ?_, found⟩
  by_contra highest
  -- The only table at the top is the root.
  have rooted := shape.top.2
  rw [show levels - 1 = i by omega, ← top (by omega), found] at rooted
  cases rooted
  omega

/-- The tables below the top are those of the prefixes that have one. -/
theorem next_eq_filter (needed : Needed radix levels tables keys) :
    next = root + 1 + ((prefixes radix levels keys).filter
      fun entry => (tables entry.1 entry.2).isSome).card := by
  have count : ((prefixes radix levels keys).filter
      fun entry => (tables entry.1 entry.2).isSome).card = (Finset.Ico (root + 1) next).card := by
    -- Each table is matched with its number.
    apply Finset.card_bij fun entry _ => (tables entry.1 entry.2).getD 0
    · intro entry member
      -- The number of a table below the top lies above that of the root.
      rw [Finset.mem_filter, mem_prefixes] at member
      obtain ⟨t, found⟩ := Option.isSome_iff_exists.mp member.2
      have lower := shape.root_lt found member.1.1
      have upper := (shape.bounds _ _ _ found).2
      rw [found, Finset.mem_Ico]
      exact ⟨lower, upper⟩
    · intro ⟨i, p⟩ member ⟨j, q⟩ otherMember same
      -- Tables with one number serve the same prefix at the same level.
      rw [Finset.mem_filter] at member otherMember
      obtain ⟨t, found⟩ := Option.isSome_iff_exists.mp member.2
      obtain ⟨u, otherFound⟩ := Option.isSome_iff_exists.mp otherMember.2
      simp only [found, otherFound, Option.getD_some] at same
      rw [← same] at otherFound
      obtain ⟨rfl, rfl⟩ := shape.unique _ _ _ _ _ found otherFound
      rfl
    · intro t member
      -- Every such number belongs to a table, which some key needs.
      rw [Finset.mem_Ico] at member
      obtain ⟨i, p, below, found⟩ := shape.below_top (by omega) member.2
      have present : (tables i p).isSome := Option.isSome_of_eq_some found
      refine ⟨⟨i, p⟩, ?_, by rw [found]; rfl⟩
      rw [Finset.mem_filter, mem_prefixes]
      exact ⟨⟨below, needed i p below present⟩, present⟩
  have bounds := shape.bounds _ _ _ shape.top.2
  rw [count, Nat.card_Ico]
  omega

/-- There are fewer tables than the keys need while one of them is missing. -/
theorem next_lt (needed : Needed radix levels tables keys) (deep : 1 < levels) (member : key ∈ keys)
    (missing : tables 0 (keyPrefix radix key 0) = none) :
    next < root + 1 + tableCount radix levels keys := by
  -- The missing table is one that the keys need.
  have needs : ⟨0, keyPrefix radix key 0⟩ ∈ prefixes radix levels keys :=
    mem_prefixes.mpr ⟨deep, key, member, rfl⟩
  have fewer : ((prefixes radix levels keys).filter
      fun entry => (tables entry.1 entry.2).isSome).card < (prefixes radix levels keys).card := by
    apply Finset.card_lt_card
    rw [Finset.filter_ssubset]
    exact ⟨_, needs, by simp [missing]⟩
  rw [card_prefixes] at fewer
  rw [shape.next_eq_filter needed]
  omega

/-- There are as many tables as the keys need when each key has its lowest one. -/
theorem next_eq (needed : Needed radix levels tables keys) (served : Served radix tables keys) :
    next = root + 1 + tableCount radix levels keys := by
  have all : (prefixes radix levels keys).filter
      (fun entry => (tables entry.1 entry.2).isSome) = prefixes radix levels keys := by
    -- A key with its lowest table has all the tables above it.
    apply Finset.filter_true_of_mem
    intro entry member
    obtain ⟨below, key, known, spelled⟩ := mem_prefixes.mp member
    rw [← spelled]
    exact shape.ancestors (served key known) (Nat.zero_le _) (by omega)
  rw [shape.next_eq_filter needed, all, card_prefixes]

end Shape

end RadixTables
