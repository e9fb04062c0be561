/-! Code of switches over bit fields, as C executes it: jumps to labels, and breaks that leave. -/

/-- Statements and labels in the order in which they are written. -/
inductive SwitchCode (α : Type) where
  | nil
  | act (action : α) (rest : SwitchCode α)
  /-- Leave the innermost switch. -/
  | brk (rest : SwitchCode α)
  | case (key : Nat) (rest : SwitchCode α)
  | default (rest : SwitchCode α)
  /-- A switch over the field `[msb, lsb]`. -/
  | switch (msb lsb : Nat) (body rest : SwitchCode α)
  deriving DecidableEq, Repr

/-- The place at which code is entered. -/
inductive SwitchEntry where
  /-- Its first statement. -/
  | top
  /-- The label of a value. -/
  | case (value : Nat)
  /-- The label of all other values. -/
  | default
  deriving DecidableEq, Repr

namespace SwitchCode

variable {α σ : Type}

/-- Code of actions, one after the other, and of what follows them. -/
def acts (actions : List α) (rest : SwitchCode α) : SwitchCode α := actions.foldr act rest

section exec

variable (perform : α → σ → σ) (field : Nat → Nat → Nat)

/-- The state in which code is left, unless it has no such entry. -/
def exec : SwitchCode α → SwitchEntry → σ → Option σ
  | nil, .top, state => some state
  | nil, _, _ => none
  | act action rest, .top, state => exec rest .top (perform action state)
  | act _ rest, entry, state => exec rest entry state
  | brk _, .top, state => some state
  | brk rest, entry, state => exec rest entry state
  | case key rest, .case value, state =>
    if key = value then exec rest .top state else exec rest (.case value) state
  -- Labels do not stop the statements before them.
  | case _ rest, entry, state => exec rest entry state
  | default rest, .default, state => exec rest .top state
  | default rest, entry, state => exec rest entry state
  | switch msb lsb body rest, .top, state =>
    -- A switch without a label for the value does nothing.
    let left := (exec body (.case (field msb lsb)) state).or (exec body .default state)
    exec rest .top (left.getD state)
  -- The labels of an inner switch are not those of the outer one.
  | switch _ _ _ rest, entry, state => exec rest entry state

/-- Actions are performed in their order. -/
theorem exec_acts (actions : List α) (rest : SwitchCode α) (state : σ) :
    exec perform field (acts actions rest) .top state =
      exec perform field rest .top
        (actions.foldl (fun state action => perform action state) state) := by
  induction actions generalizing state with
  | nil => rfl
  | cons action actions ih => exact ih (perform action state)

/-- Actions have no labels, so they are skipped on the way to one. -/
theorem exec_acts_label (actions : List α) (rest : SwitchCode α) {entry : SwitchEntry}
    (label : entry ≠ .top) (state : σ) :
    exec perform field (acts actions rest) entry state = exec perform field rest entry state := by
  induction actions with
  | nil => rfl
  | cons action actions ih =>
    rw [← ih]
    cases entry with
    | top => exact absurd rfl label
    | case value => rfl
    | default => rfl

end exec

end SwitchCode
