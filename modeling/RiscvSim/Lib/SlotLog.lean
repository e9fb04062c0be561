import Mathlib.Logic.Function.Basic

/-! Direct-mapped stores that mark empty slots by a tag: what a log of events says they hold. -/

namespace SlotLog

/-- What is done to a store whose slots are filled under keys. -/
inductive Event (κ ν : Type) where
  | fill (key : κ) (value : ν)
  /-- Empty every slot. -/
  | clear
  /-- Look a key up. -/
  | probe (key : κ)

variable {κ ν ι ε τ : Type} [DecidableEq ι]

/-- The last filling of a slot since the slots were emptied, where the log starts with its end. -/
def lastFill (slot : κ → ι) (i : ι) : List (Event κ ν) → Option (κ × ν)
  | [] => none
  | .fill key value :: earlier =>
    if slot key = i then some (key, value) else lastFill slot i earlier
  | .clear :: _ => none
  | .probe _ :: earlier => lastFill slot i earlier

/-- How a store finds the slot of a key, and marks the entry that it puts there. -/
structure Layout (κ ν ι ε τ : Type) where
  slot : κ → ι
  /-- The tag under which a key is looked up. -/
  name : κ → τ
  entry : κ → ν → ε
  tag : ε → τ
  /-- The tag of a slot that was emptied. -/
  empty : τ
  tag_entry : ∀ key value, tag (entry key value) = name key

namespace Layout

variable (layout : Layout κ ν ι ε τ)

/-- Every slot holds what was last put there, or the tag of an empty one. -/
def Mirrors (log : List (Event κ ν)) (entries : ι → ε) : Prop :=
  ∀ i, match lastFill layout.slot i log with
    | none => layout.tag (entries i) = layout.empty
    | some (key, value) => entries i = layout.entry key value

/-- The slot of a key was last filled under the same tag. -/
def Filled (log : List (Event κ ν)) (key : κ) : Prop :=
  ∃ other value, lastFill layout.slot (layout.slot key) log = some (other, value) ∧
    layout.name other = layout.name key

variable {layout} {log : List (Event κ ν)} {entries after : ι → ε} {key : κ} {value : ν}

/-- Empty slots mirror a log of nothing. -/
theorem mirrors_nil (empty : ∀ i, layout.tag (entries i) = layout.empty) :
    layout.Mirrors [] entries := empty

/-- Emptying the slots keeps the log. -/
theorem Mirrors.clear (empty : ∀ i, layout.tag (after i) = layout.empty) :
    layout.Mirrors (.clear :: log) after := empty

/-- Looking a key up keeps the log. -/
theorem Mirrors.probe (mirrors : layout.Mirrors log entries) :
    layout.Mirrors (.probe key :: log) entries := mirrors

/-- Filling a slot keeps the log. -/
theorem Mirrors.fill (mirrors : layout.Mirrors log entries) (key : κ) (value : ν) :
    layout.Mirrors (.fill key value :: log)
      (Function.update entries (layout.slot key) (layout.entry key value)) := by
  intro i
  rw [lastFill]
  -- The slot of the key is filled now, under this key.
  by_cases here : i = layout.slot key
  · subst here
    rw [if_pos rfl, Function.update_self]
  · -- Every other slot keeps both its entry and its last filling.
    rw [if_neg (Ne.symm here), Function.update_of_ne here]
    exact mirrors i

/-- The slot of a key that was filled holds the entry of the last filling. -/
theorem Mirrors.entry_eq (mirrors : layout.Mirrors log entries) {i : ι}
    (last : lastFill layout.slot i log = some (key, value)) :
    entries i = layout.entry key value := by
  -- What is known of every slot is read at this one, for the filling that was found.
  have held := mirrors i
  rwa [last] at held

/-- A slot that was not filled has the tag of an empty one. -/
theorem Mirrors.tag_eq (mirrors : layout.Mirrors log entries) {i : ι}
    (last : lastFill layout.slot i log = none) : layout.tag (entries i) = layout.empty := by
  have held := mirrors i
  rwa [last] at held

/-- The tag of a key is found exactly when it was filled, or names an empty slot. -/
theorem Mirrors.hit_iff (mirrors : layout.Mirrors log entries) (key : κ) :
    layout.tag (entries (layout.slot key)) = layout.name key ↔
      layout.Filled log key ∨
        layout.name key = layout.empty ∧ lastFill layout.slot (layout.slot key) log = none := by
  cases last : lastFill layout.slot (layout.slot key) log with
  | none =>
    -- Nothing but the tag of an empty slot is found.
    rw [mirrors.tag_eq last]
    constructor
    · intro same
      exact .inr ⟨same.symm, rfl⟩
    · rintro (⟨_, _, filled, _⟩ | ⟨same, _⟩)
      · rw [last] at filled
        cases filled
      · exact same.symm
  -- The tag of the entry is the name of the key that filled the slot.
  | some filling =>
    obtain ⟨other, value⟩ := filling
    rw [mirrors.entry_eq last, layout.tag_entry]
    constructor
    · intro same
      exact .inl ⟨other, value, last, same⟩
    · rintro (⟨_, _, filled, same⟩ | ⟨_, never⟩)
      · cases last.symm.trans filled
        exact same
      · cases never

/-- What is found was filled exactly when no empty slot is found. -/
theorem Mirrors.sound_iff (mirrors : layout.Mirrors log entries) (key : κ) :
    (layout.tag (entries (layout.slot key)) = layout.name key → layout.Filled log key) ↔
      (layout.name key = layout.empty →
        ∃ filling, lastFill layout.slot (layout.slot key) log = some filling) := by
  constructor
  · intro sound same
    cases last : lastFill layout.slot (layout.slot key) log with
    -- A hit on an empty slot would have to be a filling, of which there is none.
    | none =>
      obtain ⟨_, _, filled, _⟩ := sound ((mirrors.hit_iff key).mpr (.inr ⟨same, last⟩))
      exact absurd (last.symm.trans filled) (by simp)
    | some filling => exact ⟨filling, rfl⟩
  · intro occupied hit
    -- The other way to hit is an empty slot, which is excluded.
    rcases (mirrors.hit_iff key).mp hit with filled | ⟨same, last⟩
    · exact filled
    · obtain ⟨_, some⟩ := occupied same
      exact absurd (last.symm.trans some) (by simp)

end Layout

end SlotLog
