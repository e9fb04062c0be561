import RiscvSim.Lib.LittleEndian
import Mathlib.Data.List.GetD

/-! Partial stores of bytes over wrapping addresses, with little-endian words on top. -/

/-- A byte at some addresses and nothing at the others. -/
abbrev ByteStore (w : Nat) := BitVec w → Option (BitVec 8)

namespace ByteStore

variable {w n : Nat}

/-- An address lies in the run of bytes that starts at another. -/
def InRun (start : BitVec w) (n : Nat) (addr : BitVec w) : Prop :=
  (addr - start).toNat < n

instance (start : BitVec w) (n : Nat) (addr : BitVec w) : Decidable (InRun start n addr) :=
  inferInstanceAs (Decidable ((addr - start).toNat < n))

/-- Every address of a run holds a byte. -/
def Present (store : ByteStore w) (start : BitVec w) (n : Nat) : Prop :=
  ∀ i < n, (store (start + BitVec.ofNat w i)).isSome

/-- The little-endian word at an address, reading absent bytes as zero. -/
def get (store : ByteStore w) (n : Nat) (start : BitVec w) : BitVec (8 * n) :=
  LittleEndian.fromBytes n fun i => (store (start + BitVec.ofNat w i)).getD 0

/-- Replace the bytes of a run that are present by those of a word. -/
def put (store : ByteStore w) (start : BitVec w) (word : BitVec (8 * n)) : ByteStore w :=
  fun addr =>
    if InRun start n addr then
      (store addr).map fun _ => LittleEndian.byteAt word (addr - start).toNat
    else store addr

/-- Put a zero byte at every address that satisfies a condition and holds none. -/
def extend (store : ByteStore w) (added : BitVec w → Prop) [DecidablePred added] : ByteStore w :=
  fun addr => if added addr then some ((store addr).getD 0) else store addr

/-- A position below the size of the address space is its own distance. -/
theorem distance_add (start : BitVec w) {i : Nat} (small : i < 2 ^ w) :
    (start + BitVec.ofNat w i - start).toNat = i := by
  -- Subtraction undoes the wrapping addition.
  rw [BitVec.add_comm, BitVec.add_sub_cancel, BitVec.toNat_ofNat, Nat.mod_eq_of_lt small]

/-- The addresses of a run are those at the distances below its length. -/
theorem inRun_iff {start addr : BitVec w} (small : n ≤ 2 ^ w) :
    InRun start n addr ↔ ∃ i < n, addr = start + BitVec.ofNat w i := by
  constructor
  · intro inside
    refine ⟨_, inside, ?_⟩
    -- The distance leads back to the address.
    rw [BitVec.ofNat_toNat, BitVec.setWidth_eq, BitVec.add_comm, BitVec.sub_add_cancel]
  · rintro ⟨i, inside, rfl⟩
    rw [InRun, distance_add start (by omega)]
    exact inside

/-- Each byte of a word that was read is the byte of the store at its address. -/
theorem byteAt_get (store : ByteStore w) {i : Nat} (start : BitVec w) (inside : i < n) :
    LittleEndian.byteAt (store.get n start) i = (store (start + BitVec.ofNat w i)).getD 0 :=
  LittleEndian.byteAt_fromBytes _ inside

/-- A word depends only on the bytes of its run. -/
theorem get_congr {left right : ByteStore w} {start : BitVec w} (small : n ≤ 2 ^ w)
    (same : ∀ addr, InRun start n addr → left addr = right addr) :
    left.get n start = right.get n start := by
  -- The word is made of the bytes at its own positions.
  apply LittleEndian.fromBytes_congr
  intro i inside
  rw [same]
  -- The position is in the run because it is its own distance.
  rw [InRun, distance_add start (by omega)]
  exact inside

/-- A byte of a word that was put is read back as part of any word that covers it. -/
theorem byteAt_get_put {m i j : Nat} (store : ByteStore w) {start other : BitVec w}
    (word : BitVec (8 * n)) (small : n ≤ 2 ^ w) (present : store.Present start n) (inside : j < n)
    (covered : i < m) (same : other + BitVec.ofNat w i = start + BitVec.ofNat w j) :
    LittleEndian.byteAt ((store.put start word).get m other) i = LittleEndian.byteAt word j := by
  have distance := distance_add start (i := j) (by omega)
  obtain ⟨byte, found⟩ := Option.isSome_iff_exists.mp (present j inside)
  -- The address lies in the run, at the distance of the byte that was put there.
  rw [byteAt_get _ _ covered, same, put, if_pos (by rw [InRun, distance]; exact inside), found,
    distance]
  rfl

/-- A word that was put is read back. -/
theorem get_put_same (store : ByteStore w) {start : BitVec w} (word : BitVec (8 * n))
    (small : n ≤ 2 ^ w) (present : store.Present start n) :
    (store.put start word).get n start = word := by
  -- Each of its bytes is one that was put.
  apply LittleEndian.eq_of_byteAt
  intro i inside
  exact byteAt_get_put store word small present inside inside rfl

/-- A word outside the run that was put is unchanged. -/
theorem get_put_disjoint {m : Nat} (store : ByteStore w) {start other : BitVec w}
    (word : BitVec (8 * n)) (small : m ≤ 2 ^ w)
    (apart : ∀ addr, InRun other m addr → ¬InRun start n addr) :
    (store.put start word).get m other = store.get m other := by
  -- The bytes of the other word are those that the put left alone.
  apply get_congr small
  intro addr inside
  rw [put, if_neg (apart addr inside)]

/-- Putting a word adds and removes no address. -/
@[simp] theorem isSome_put (store : ByteStore w) (start : BitVec w) (word : BitVec (8 * n))
    (addr : BitVec w) : (store.put start word addr).isSome = (store addr).isSome := by
  -- Inside the run a byte takes the place of a byte, and outside nothing happens.
  unfold put
  split <;> simp

/-- Putting zeros where there are zeros changes nothing. -/
theorem put_zero {store : ByteStore w} {start : BitVec w}
    (zeros : ∀ addr, InRun start n addr → store addr = some 0) :
    store.put start (0 : BitVec (8 * n)) = store := by
  funext addr
  rw [put]
  -- Inside the run a zero takes the place of a zero.
  split
  · rename_i inside
    rw [zeros addr inside, Option.map_some, LittleEndian.byteAt_zero]
  · rfl

/-- Replace the bytes from an address on that are present by those of a list. -/
def overwrite (store : ByteStore w) (start : BitVec w) (src : List (BitVec 8)) : ByteStore w :=
  fun addr =>
    if InRun start src.length addr then
      (store addr).map fun _ => src.getD (addr - start).toNat 0
    else store addr

/-- Putting the word of a list of bytes overwrites with the list. -/
theorem put_fromBytes (store : ByteStore w) (start : BitVec w) (src : List (BitVec 8)) :
    store.put start (LittleEndian.fromBytes src.length fun i => src.getD i 0) =
      store.overwrite start src := by
  funext addr
  rw [put, overwrite]
  -- Both replace the same run, by the same bytes.
  split
  · rename_i inside
    rw [LittleEndian.byteAt_fromBytes _ inside]
  · rfl

/-- Overwriting adds and removes no address. -/
@[simp] theorem isSome_overwrite (store : ByteStore w) (start : BitVec w) (src : List (BitVec 8))
    (addr : BitVec w) : (store.overwrite start src addr).isSome = (store addr).isSome := by
  unfold overwrite
  split <;> simp

/-- Nothing is overwritten by an empty list. -/
@[simp] theorem overwrite_nil (store : ByteStore w) (start : BitVec w) :
    store.overwrite start [] = store := by
  -- No address lies in an empty run.
  funext addr
  rw [overwrite, if_neg (by rw [InRun]; exact Nat.not_lt_zero _)]

/-- Overwriting in two parts is overwriting with both. -/
theorem overwrite_append (store : ByteStore w) (start : BitVec w) {front back : List (BitVec 8)}
    (fits : front.length + back.length ≤ 2 ^ w) :
    (store.overwrite start front).overwrite (start + BitVec.ofNat w front.length) back =
      store.overwrite start (front ++ back) := by
  funext addr
  have bound := (addr - start).isLt
  -- The distance from the second part is the distance from the first less its length, wrapping.
  have shifted : (addr - (start + BitVec.ofNat w front.length)).toNat =
      (2 ^ w - front.length % 2 ^ w + (addr - start).toNat) % 2 ^ w := by
    rw [← BitVec.sub_sub, BitVec.toNat_sub, BitVec.toNat_ofNat]
  by_cases inFront : (addr - start).toNat < front.length
  · -- Before the second part the distance from it wraps round.
    have apart : ¬InRun (start + BitVec.ofNat w front.length) back.length addr := by
      rw [InRun, shifted]
      rcases Nat.lt_or_ge front.length (2 ^ w) with small | full
      · rw [Nat.mod_eq_of_lt small, Nat.mod_eq_of_lt (by omega)]
        omega
      · omega
    rw [overwrite, if_neg apart, overwrite, overwrite, if_pos (show InRun start _ _ from inFront),
      if_pos (show InRun start (front ++ back).length addr by rw [InRun, List.length_append]; omega),
      List.getD_append _ _ _ _ inFront]
  · -- Behind the first part the distance is shorter by its length.
    have moved : (addr - (start + BitVec.ofNat w front.length)).toNat =
        (addr - start).toNat - front.length := by
      rw [shifted, Nat.mod_eq_of_lt (show front.length < 2 ^ w by omega),
        show 2 ^ w - front.length + (addr - start).toNat =
          (addr - start).toNat - front.length + 2 ^ w by omega,
        Nat.add_mod_right, Nat.mod_eq_of_lt (by omega)]
    have kept : store.overwrite start front addr = store addr :=
      if_neg (show ¬InRun start _ _ from inFront)
    rw [overwrite, kept, overwrite]
    by_cases inBack : (addr - start).toNat - front.length < back.length
    · rw [if_pos (show InRun _ _ _ by rw [InRun, moved]; exact inBack),
        if_pos (show InRun start (front ++ back).length addr by
          rw [InRun, List.length_append]; omega),
        moved, List.getD_append_right _ _ _ _ (by omega)]
    · rw [if_neg (show ¬InRun _ _ _ by rw [InRun, moved]; exact inBack),
        if_neg (show ¬InRun start (front ++ back).length addr by
          -- An address behind both parts is in neither.
          rw [InRun, List.length_append]; omega)]

/-- A store holds zeros at addresses that held nothing before, and is otherwise the same. -/
structure Adds (before after : ByteStore w) (added : BitVec w → Prop) : Prop where
  fresh : ∀ addr, added addr → before addr = none
  zero : ∀ addr, added addr → after addr = some 0
  kept : ∀ addr, ¬added addr → after addr = before addr

/-- Nothing is added to the same store. -/
theorem Adds.refl (store : ByteStore w) : Adds store store fun _ => False :=
  ⟨fun _ never => never.elim, fun _ never => never.elim, fun _ _ => rfl⟩

/-- What is added first was not there afterwards either. -/
theorem Adds.trans {first second third : ByteStore w} {added more : BitVec w → Prop}
    (adds : Adds first second added) (addsMore : Adds second third more) :
    Adds first third fun addr => added addr ∨ more addr := by
  -- An address that is filled later was still empty before, so the first filling left it out.
  have apart {addr : BitVec w} (here : more addr) : ¬added addr := by
    intro there
    have zero := adds.zero addr there
    rw [addsMore.fresh addr here] at zero
    cases zero
  constructor
  · rintro addr (there | here)
    · exact adds.fresh addr there
    · rw [← adds.kept addr (apart here)]
      exact addsMore.fresh addr here
  · rintro addr (there | here)
    · rw [addsMore.kept addr fun here => apart here there]
      exact adds.zero addr there
    · exact addsMore.zero addr here
  · intro addr neither
    rw [addsMore.kept addr fun here => neither (.inr here),
      adds.kept addr fun there => neither (.inl there)]

/-- The added addresses matter alone. -/
theorem Adds.congr {before after : ByteStore w} {added other : BitVec w → Prop}
    (adds : Adds before after added) (same : ∀ addr, other addr ↔ added addr) :
    Adds before after other := by
  -- Conditions that agree everywhere are the same condition.
  rwa [show other = added from funext fun addr => propext (same addr)]

/-- Every byte of one store is in the other. -/
def Keeps (before after : ByteStore w) : Prop :=
  ∀ addr, (before addr).isSome → after addr = before addr

/-- A store keeps its bytes. -/
theorem Keeps.refl (store : ByteStore w) : Keeps store store := fun _ _ => rfl

/-- What is kept twice is kept. -/
theorem Keeps.trans {first second third : ByteStore w} (keeps : Keeps first second)
    (keepsMore : Keeps second third) : Keeps first third := by
  intro addr present
  -- The byte is still there in the middle, so it is kept a second time.
  have same := keeps addr present
  rw [← same] at present ⊢
  exact keepsMore addr present

/-- A byte that is kept is found again. -/
theorem Keeps.found {before after : ByteStore w} (keeps : Keeps before after) {addr : BitVec w}
    {byte : BitVec 8} (found : before addr = some byte) : after addr = some byte := by
  rw [keeps addr (Option.isSome_of_eq_some found), found]

/-- Overwriting what is added keeps the bytes that were there. -/
theorem Adds.keeps_overwrite {before after : ByteStore w} {added : BitVec w → Prop}
    (adds : Adds before after added) {start : BitVec w} {src : List (BitVec 8)}
    (inside : ∀ addr, InRun start src.length addr → added addr) :
    Keeps before (after.overwrite start src) := by
  intro addr present
  -- An address that held a byte was not filled, so neither change reaches it.
  have old : ¬added addr := by
    intro new
    rw [adds.fresh addr new] at present
    cases present
  rw [overwrite, if_neg (mt (inside addr) old), adds.kept addr old]

end ByteStore
