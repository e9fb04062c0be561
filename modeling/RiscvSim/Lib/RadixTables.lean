import Mathlib.Algebra.Group.Nat.Defs
import Mathlib.Tactic.Common
import Mathlib.Logic.Function.Basic

/-! Forests of numbered tables that spell keys digit by digit, and how they grow.

A table at level `i` serves the keys that share a prefix, and its entries select the next digit.
Tables are numbered in the order they are created, starting from the root.
-/

namespace RadixTables

/-- The number of the table that serves a prefix at a level. -/
abbrev Tables := Nat → Nat → Option Nat

variable {radix levels root next : Nat} {tables : Tables}

/-- The prefix of a key that its table at a level serves. -/
def keyPrefix (radix key i : Nat) : Nat := key / radix ^ (i + 1)

/-- The digit of a key that selects the entry of its table at a level. -/
def digit (radix key i : Nat) : Nat := key / radix ^ i % radix

/-- The shape of a forest whose tables are numbered from the root up to the next free number. -/
structure Shape (radix levels root next : Nat) (tables : Tables) : Prop where
  /-- The top table serves every key. -/
  top : 0 < levels ∧ tables (levels - 1) 0 = some root
  /-- The top level has no other table, and there is nothing above it. -/
  above : ∀ i p t, tables i p = some t → i < levels ∧ (i + 1 = levels → p = 0)
  /-- A table below the top hangs in the table of the shorter prefix. -/
  parent : ∀ i p t, tables i p = some t → i + 1 < levels → (tables (i + 1) (p / radix)).isSome
  /-- A table serves one prefix at one level. -/
  unique : ∀ i p j q t, tables i p = some t → tables j q = some t → i = j ∧ p = q
  /-- Tables are numbered below the next free number. -/
  bounds : ∀ i p t, tables i p = some t → root ≤ t ∧ t < next
  /-- Every number from the root up to the next free one belongs to a table. -/
  onto : ∀ t, root ≤ t → t < next → ∃ i p, tables i p = some t

/-- A prefix is the shorter prefix followed by a digit. -/
theorem keyPrefix_succ (radix key i : Nat) :
    keyPrefix radix key (i + 1) * radix + digit radix key (i + 1) = keyPrefix radix key i := by
  -- Dividing by one more power of the radix divides the quotient once more.
  rw [keyPrefix, keyPrefix, digit, Nat.pow_succ, ← Nat.div_div_eq_div_mul]
  exact Nat.div_add_mod' _ _

/-- The shorter prefix drops the last digit. -/
theorem keyPrefix_div (radix key i : Nat) :
    keyPrefix radix key i / radix = keyPrefix radix key (i + 1) := by
  -- One more power of the radix divides once more.
  rw [keyPrefix, keyPrefix, Nat.div_div_eq_div_mul, ← Nat.pow_succ]

/-- A key is its prefix at the lowest level followed by its last digit. -/
theorem keyPrefix_zero (radix key : Nat) :
    keyPrefix radix key 0 * radix + digit radix key 0 = key := by
  -- At the lowest level the prefix is the quotient by the radix, and the digit is the remainder.
  rw [keyPrefix, digit, Nat.zero_add, Nat.pow_one, Nat.pow_zero, Nat.div_one]
  exact Nat.div_add_mod' _ _

/-- A prefix followed by a digit drops the digit again. -/
theorem mul_add_digit_div (p : Nat) {d : Nat} (inside : d < radix) : (p * radix + d) / radix = p := by
  -- The digit is below the radix, so it leaves nothing in the quotient.
  rw [Nat.mul_comm, Nat.mul_add_div (by omega), Nat.div_eq_of_lt inside, Nat.add_zero]

/-- The prefix of a key at the lowest level drops its last digit. -/
theorem keyPrefix_of_digit (p : Nat) {d : Nat} (inside : d < radix) :
    keyPrefix radix (p * radix + d) 0 = p := by
  rw [keyPrefix, Nat.zero_add, Nat.pow_one, mul_add_digit_div p inside]

/-- A digit is below the radix. -/
theorem digit_lt (key i : Nat) (positive : 0 < radix) : digit radix key i < radix :=
  Nat.mod_lt _ positive

/-- Only the root table exists at first. -/
theorem Shape.initial (radix root : Nat) (positive : 0 < levels) :
    Shape radix levels root (root + 1)
      (fun i p => if i + 1 = levels ∧ p = 0 then some root else none) where
  top := ⟨positive, by rw [if_pos ⟨by omega, rfl⟩]⟩
  above i p t found := by
    -- The one table that exists is at the top, where the only prefix is the empty one.
    split at found
    · rename_i here
      exact ⟨by omega, fun _ => here.2⟩
    · cases found
  parent i p t found below := by
    -- The root table is at the top.
    split at found
    · omega
    · cases found
  unique i p j q t left right := by
    split at left
    · split at right
      · exact ⟨by omega, by omega⟩
      · cases right
    · cases left
  bounds i p t found := by
    -- The root has the first number, and the next one is free.
    split at found
    · cases found
      omega
    · cases found
  onto t lower upper := ⟨levels - 1, 0, by rw [if_pos ⟨by omega, rfl⟩, show t = root by omega]⟩

/-- A key whose table exists at a level has all tables above it. -/
theorem Shape.ancestors (shape : Shape radix levels root next tables) {key i j : Nat}
    (present : (tables i (keyPrefix radix key i)).isSome) (order : i ≤ j) (inside : j < levels) :
    (tables j (keyPrefix radix key j)).isSome := by
  -- By induction on the distance, each table hangs in the one above.
  induction order with
  | refl => exact present
  | @step j order ih =>
    obtain ⟨t, found⟩ := Option.isSome_iff_exists.mp (ih (by omega))
    -- The table above serves the prefix without its last digit.
    have next := shape.parent j _ t found inside
    rwa [keyPrefix_div] at next

/-- The tables after the next free number was given to a prefix. -/
def add (tables : Tables) (i p t : Nat) : Tables :=
  fun j q => if j = i ∧ q = p then some t else tables j q

/-- The new table serves its prefix. -/
@[simp] theorem add_self (tables : Tables) (i p t : Nat) : add tables i p t i p = some t := by
  simp [add]

/-- Tables of other prefixes stay. -/
theorem add_of_ne (tables : Tables) {i p t j q : Nat} (other : ¬(j = i ∧ q = p)) :
    add tables i p t j q = tables j q := by
  simp only [add, if_neg other]

/-- Creating a table under an existing one keeps the shape. -/
theorem Shape.add (shape : Shape radix levels root next tables) {i p : Nat}
    (missing : tables i p = none) (below : i + 1 < levels)
    (hangs : (tables (i + 1) (p / radix)).isSome) :
    Shape radix levels root (next + 1) (RadixTables.add tables i p next) where
  top := ⟨shape.top.1, by rw [add_of_ne _ (by omega)]; exact shape.top.2⟩
  above j q t found := by
    -- The new table lies below the top, and the others were there before.
    by_cases new : j = i ∧ q = p
    · exact ⟨by omega, fun highest => by omega⟩
    · exact shape.above j q t (by rwa [add_of_ne _ new] at found)
  parent j q t found lower := by
    -- The new table hangs where it was asked to, and an old one where it hung, be that the new one.
    by_cases new : j = i ∧ q = p
    · obtain ⟨rfl, rfl⟩ := new
      rwa [add_of_ne _ (by omega)]
    · rw [add_of_ne _ new] at found
      by_cases parentNew : j + 1 = i ∧ q / radix = p
      · rw [parentNew.1, parentNew.2, add_self]
        rfl
      · rw [add_of_ne _ parentNew]
        exact shape.parent j q t found lower
  unique j q k r t left right := by
    -- The next free number belonged to no table before, so a new and an old one differ.
    by_cases leftNew : j = i ∧ q = p <;> by_cases rightNew : k = i ∧ r = p
    · exact ⟨by omega, by omega⟩
    · rw [leftNew.1, leftNew.2, add_self] at left
      rw [add_of_ne _ rightNew] at right
      cases left
      have := shape.bounds k r _ right
      omega
    · rw [rightNew.1, rightNew.2, add_self] at right
      rw [add_of_ne _ leftNew] at left
      cases right
      have := shape.bounds j q _ left
      omega
    · rw [add_of_ne _ leftNew] at left
      rw [add_of_ne _ rightNew] at right
      exact shape.unique j q k r t left right
  bounds j q t found := by
    -- The new table takes the free number, and the next one is free then.
    by_cases new : j = i ∧ q = p
    · rw [new.1, new.2, add_self] at found
      cases found
      have := shape.bounds _ _ _ shape.top.2
      omega
    · rw [add_of_ne _ new] at found
      have := shape.bounds j q t found
      omega
  onto t lower upper := by
    -- The last number belongs to the new table, and the others to their old ones.
    by_cases last : t = next
    · exact ⟨i, p, by rw [last, add_self]⟩
    · obtain ⟨j, q, found⟩ := shape.onto t lower (by omega)
      refine ⟨j, q, ?_⟩
      rwa [add_of_ne]
      rintro ⟨rfl, rfl⟩
      -- An old number cannot belong to the new prefix, which had no table.
      rw [missing] at found
      cases found

/-- A key whose table is missing at some level has no lowest table. -/
theorem Shape.lowest_none (shape : Shape radix levels root next tables) {key i : Nat}
    (inside : i < levels) (missing : tables i (keyPrefix radix key i) = none) :
    tables 0 (keyPrefix radix key 0) = none := by
  rw [← Option.not_isSome_iff_eq_none] at missing ⊢
  -- With the lowest table, all tables above it would be there.
  intro lowest
  exact missing (shape.ancestors lowest (Nat.zero_le i) inside)

/-- Tables with more of them along one key. -/
structure Along (radix key : Nat) (tables after : Tables) : Prop where
  keeps : ∀ i p, (tables i p).isSome → (after i p).isSome
  adds : ∀ i p, (after i p).isSome → (tables i p).isSome ∨ p = keyPrefix radix key i

/-- Nothing has to be created along a key. -/
theorem Along.refl (radix key : Nat) (tables : Tables) : Along radix key tables tables :=
  ⟨fun _ _ present => present, fun _ _ present => .inl present⟩

/-- A table is created along a key, and then others are. -/
theorem Along.add {key i t : Nat} {after : Tables}
    (along : Along radix key (RadixTables.add tables i (keyPrefix radix key i) t) after) :
    Along radix key tables after where
  keeps j p present := by
    apply along.keeps j p
    -- The new table is one of those that were created, and the others are kept after it.
    by_cases new : j = i ∧ p = keyPrefix radix key i
    · rw [new.1, new.2, add_self]
      rfl
    · rwa [add_of_ne _ new]
  adds j p present := by
    rcases along.adds j p present with found | same
    · -- A table of the key counts as created, be it the first one or a later one.
      by_cases new : j = i ∧ p = keyPrefix radix key i
      · exact .inr (by rw [new.1, new.2])
      · exact .inl (by rwa [add_of_ne _ new] at found)
    · exact .inr same

variable {α : Type} {limit : Nat} {values : Nat → Option α} {link : Nat → α} {blank : α}
  {entries : Nat → Nat → α}

/-- Entries with one of them replaced. -/
def setEntry (entries : Nat → Nat → α) (t d : Nat) (entry : α) : Nat → Nat → α :=
  fun u e => if u = t ∧ e = d then entry else entries u e

/-- The replaced entry. -/
@[simp] theorem setEntry_self (entries : Nat → Nat → α) (t d : Nat) (entry : α) :
    setEntry entries t d entry t d = entry := by
  simp [setEntry]

/-- The other entries stay. -/
theorem setEntry_of_ne (entries : Nat → Nat → α) {t d u e : Nat} (entry : α)
    (other : ¬(u = t ∧ e = d)) : setEntry entries t d entry u e = entries u e := by
  simp only [setEntry, if_neg other]

/-- The entries of the tables below a limit spell a forest with values at some keys. -/
structure Holds (radix levels root next limit : Nat) (tables : Tables) (values : Nat → Option α)
    (link : Nat → α) (blank : α) (entries : Nat → Nat → α) : Prop where
  shape : Shape radix levels root next tables
  room : next ≤ limit
  /-- An entry above the lowest level links the table of its longer prefix. -/
  links : ∀ i p t d, tables (i + 1) p = some t → d < radix →
      entries t d = ((tables i (p * radix + d)).map link).getD blank
  /-- An entry of the lowest level holds the value of its key. -/
  leaves : ∀ p t d, tables 0 p = some t → d < radix →
    entries t d = (values (p * radix + d)).getD blank
  /-- Tables that were not handed out yet are blank. -/
  free : ∀ t d, next ≤ t → t < limit → d < radix → entries t d = blank
  /-- A key with a value has its lowest table. -/
  hung : ∀ key value, values key = some value → (tables 0 (keyPrefix radix key 0)).isSome

namespace Holds

/-- A forest of blank tables has only its root and no value. -/
theorem initial (radix : Nat) (link : Nat → α) (positive : 0 < levels) (room : root < limit)
    (clear : ∀ t d, root ≤ t → t < limit → d < radix → entries t d = blank) :
    Holds radix levels root (root + 1) limit
      (fun i p => if i + 1 = levels ∧ p = 0 then some root else none) (fun _ => none) link blank
      entries where
  shape := Shape.initial radix root positive
  room := room
  links i p t d found inside := by
    split at found
    · -- The level below the top has no table yet.
      cases found
      rw [if_neg (by omega)]
      exact clear root d (by omega) room inside
    · cases found
  -- The root is the lowest table when there is one level, and it is blank.
  leaves p t d found inside := by
    split at found
    · cases found
      exact clear root d (by omega) room inside
    · cases found
  free t d lower upper inside := clear t d (by omega) upper inside
  hung key value found := by cases found

/-- Only the entries of the tables below the limit matter. -/
theorem congr (holds : Holds radix levels root next limit tables values link blank entries)
    {others : Nat → Nat → α}
    (same : ∀ t d, root ≤ t → t < limit → d < radix → others t d = entries t d) :
    Holds radix levels root next limit tables values link blank others where
  shape := holds.shape
  room := holds.room
  links i p t d found inside := by
    -- Tables that exist are numbered below the limit.
    have bounds := holds.shape.bounds _ _ _ found
    rw [same t d bounds.1 (Nat.lt_of_lt_of_le bounds.2 holds.room) inside]
    exact holds.links i p t d found inside
  leaves p t d found inside := by
    have bounds := holds.shape.bounds _ _ _ found
    rw [same t d bounds.1 (Nat.lt_of_lt_of_le bounds.2 holds.room) inside]
    exact holds.leaves p t d found inside
  free t d lower upper inside := by
    have order := holds.shape.bounds _ _ _ holds.shape.top.2
    -- Free tables are numbered above the root.
    rw [same t d (by omega) upper inside]
    exact holds.free t d lower upper inside
  hung := holds.hung

/-- Along a key, the entry of a table links the next one. -/
theorem entry_link (holds : Holds radix levels root next limit tables values link blank entries)
    (positive : 0 < radix) {key i t : Nat}
    (found : tables (i + 1) (keyPrefix radix key (i + 1)) = some t) :
    entries t (digit radix key (i + 1)) =
      ((tables i (keyPrefix radix key i)).map link).getD blank := by
  -- The prefix of the table followed by the digit is the longer prefix.
  rw [holds.links _ _ _ _ found (digit_lt key _ positive), keyPrefix_succ]

/-- At the lowest level of a key, the entry holds its value. -/
theorem entry_value (holds : Holds radix levels root next limit tables values link blank entries)
    (positive : 0 < radix) {key t : Nat} (found : tables 0 (keyPrefix radix key 0) = some t) :
    entries t (digit radix key 0) = (values key).getD blank := by
  rw [holds.leaves _ _ _ found (digit_lt key _ positive), keyPrefix_zero]

/-- A key whose table is missing at some level has no value. -/
theorem value_none (holds : Holds radix levels root next limit tables values link blank entries)
    {key i : Nat} (inside : i < levels) (missing : tables i (keyPrefix radix key i) = none) :
    values key = none := by
  cases found : values key with
  | none => rfl
  | some value =>
    -- A value would hang in a lowest table, which has all its ancestors.
    have present := holds.shape.ancestors (holds.hung key value found) (Nat.zero_le i) inside
    rw [missing] at present
    cases present

/-- Linking a blank table along a key keeps every value. -/
theorem addTable (holds : Holds radix levels root next limit tables values link blank entries)
    {key i t : Nat} (room : next < limit)
    (found : tables (i + 1) (keyPrefix radix key (i + 1)) = some t)
    (missing : tables i (keyPrefix radix key i) = none) :
    Holds radix levels root (next + 1) limit (add tables i (keyPrefix radix key i) next) values
      link blank (setEntry entries t (digit radix key (i + 1)) (link next)) := by
  -- The table that links lies above, so the new one lies below the top.
  have below : i + 1 < levels := (holds.shape.above _ _ _ found).1
  have bounds := holds.shape.bounds _ _ _ found
  have hangs : (tables (i + 1) (keyPrefix radix key i / radix)).isSome := by
    rw [keyPrefix_div, found]
    rfl
  refine
    { shape := holds.shape.add missing below hangs
      room := room
      links := ?_
      leaves := ?_
      free := ?_
      hung := ?_ }
  · intro j p u d other inside
    by_cases new : j + 1 = i ∧ p = keyPrefix radix key i
    · -- The new table is blank, and none of the longer prefixes has a table.
      rw [new.1, new.2, add_self] at other
      cases other
      rw [setEntry_of_ne _ _ (by omega), holds.free next d (by omega) room inside,
        add_of_ne _ (by omega)]
      cases child : tables j (p * radix + d) with
      | none => rfl
      | some v =>
        have parent := holds.shape.parent j _ v child (by omega)
        rw [mul_add_digit_div _ inside, new.1, new.2, missing] at parent
        cases parent
    · rw [add_of_ne _ new] at other
      by_cases here : u = t ∧ d = digit radix key (i + 1)
      · -- The entry that was set is the one that links the new table.
        obtain ⟨rfl, rfl⟩ := here
        obtain ⟨level, same⟩ := holds.shape.unique _ _ _ _ _ other found
        obtain rfl : j = i := by omega
        rw [setEntry_self, same, keyPrefix_succ, add_self]
        rfl
      · rw [setEntry_of_ne _ _ here, holds.links j p u d other inside]
        by_cases child : j = i ∧ p * radix + d = keyPrefix radix key i
        · -- Only that entry spells the prefix of the new table.
          refine absurd ?_ here
          have quotient : p = keyPrefix radix key (i + 1) := by
            rw [← keyPrefix_div, ← child.2, mul_add_digit_div _ inside]
          have spelled := keyPrefix_succ radix key i
          rw [child.1, quotient, found] at other
          cases other
          rw [quotient] at child
          exact ⟨rfl, by omega⟩
        · rw [add_of_ne _ child]
  · intro p u d other inside
    by_cases new : 0 = i ∧ p = keyPrefix radix key i
    · -- A new lowest table is blank, and none of its keys has a value.
      obtain ⟨rfl, rfl⟩ := new
      rw [add_self] at other
      cases other
      rw [setEntry_of_ne _ _ (by omega), holds.free next d (by omega) room inside]
      cases value : values (keyPrefix radix key 0 * radix + d) with
      | none => rfl
      | some v =>
        have present := holds.hung _ v value
        rw [keyPrefix_of_digit _ inside, missing] at present
        cases present
    · rw [add_of_ne _ new] at other
      rw [setEntry_of_ne, holds.leaves p u d other inside]
      -- The entry that was set belongs to a table above the lowest level.
      rintro ⟨rfl, _⟩
      have := (holds.shape.unique _ _ _ _ _ other found).1
      omega
  · intro u d lower upper inside
    rw [setEntry_of_ne _ _ (by omega)]
    -- The entry that was set belongs to a table that was handed out.
    exact holds.free u d (by omega) upper inside
  · intro other value present
    by_cases new : 0 = i ∧ keyPrefix radix other 0 = keyPrefix radix key i
    · rw [new.2, ← new.1, add_self]
      -- A key of the new lowest table finds it, and the others find their old ones.
      rfl
    · rw [add_of_ne _ new]
      exact holds.hung other value present

/-- Setting the lowest entry of a key gives that key its value and no other. -/
theorem addValue (holds : Holds radix levels root next limit tables values link blank entries)
    {key t : Nat} (value : α)
    (found : tables 0 (keyPrefix radix key 0) = some t) :
    Holds radix levels root next limit tables (Function.update values key (some value)) link blank
      (setEntry entries t (digit radix key 0) value) where
  shape := holds.shape
  room := holds.room
  links i p u d other inside := by
    rw [setEntry_of_ne]
    · exact holds.links i p u d other inside
    -- Values are set at the lowest level only.
    · rintro ⟨rfl, _⟩
      have := (holds.shape.unique _ _ _ _ _ other found).1
      omega
  leaves p u d other inside := by
    by_cases here : p * radix + d = key
    · -- The key's own entry is the one that was set, as only its prefix and digit spell the key.
      have quotient : p = keyPrefix radix key 0 := by
        rw [keyPrefix, Nat.zero_add, Nat.pow_one, ← here, Nat.mul_comm,
          Nat.mul_add_div (by omega), Nat.div_eq_of_lt inside, Nat.add_zero]
      have spelled := keyPrefix_zero radix key
      rw [quotient, found] at other
      cases other
      rw [here, Function.update_self, show d = digit radix key 0 by rw [quotient] at here; omega,
        setEntry_self]
      rfl
    · rw [setEntry_of_ne, Function.update_of_ne here]
      · exact holds.leaves p u d other inside
      -- The same entry of the same table would spell the same key.
      · rintro ⟨rfl, rfl⟩
        rw [(holds.shape.unique _ _ _ _ _ other found).2, keyPrefix_zero] at here
        exact here rfl
  free u d lower upper inside := by
    have := holds.shape.bounds _ _ _ found
    rw [setEntry_of_ne _ _ (by omega)]
    exact holds.free u d lower upper inside
  hung other old present := by
    -- The key has its table, and the other keys keep theirs.
    by_cases same : other = key
    · rw [same, found]
      rfl
    · rw [Function.update_of_ne same] at present
      exact holds.hung other old present

end Holds

end RadixTables
