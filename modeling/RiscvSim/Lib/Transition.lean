import Mathlib.Tactic.Common

/-! Deterministic systems that step until they stop: their runs, invariants and simulations. -/

/-- What a step leads to. -/
inductive Outcome (σ ρ : Type) where
  | next (state : σ)
  | stop (result : ρ)
  deriving DecidableEq, Repr

/-- The outcome is a result. -/
def Outcome.stops {σ ρ : Type} : Outcome σ ρ → Bool
  | .next _ => false
  | .stop _ => true

/-- Both outcomes go on or both stop, with related states or results. -/
def Outcome.Both {σ τ ρ υ : Type} (r : σ → τ → Prop) (q : ρ → υ → Prop) :
    Outcome σ ρ → Outcome τ υ → Prop
  | .next left, .next right => r left right
  | .stop left, .stop right => q left right
  | _, _ => False

/-- The other outcome stops where one does. -/
theorem Outcome.Both.of_stop {σ τ ρ υ : Type} {r : σ → τ → Prop} {q : ρ → υ → Prop}
    {value : ρ} {other : Outcome τ υ} (both : Outcome.Both r q (.stop value) other) :
    ∃ result, other = .stop result ∧ q value result := by
  -- A state never matches a result, so the other outcome is a result as well.
  cases other with
  | next state => exact both.elim
  | stop result => exact ⟨result, rfl, both⟩

/-- One outcome stops where the other does. -/
theorem Outcome.Both.stop_of {σ τ ρ υ : Type} {r : σ → τ → Prop} {q : ρ → υ → Prop}
    {value : υ} {other : Outcome σ ρ} (both : Outcome.Both r q other (.stop value)) :
    ∃ result, other = .stop result ∧ q result value := by
  cases other with
  | next state => exact both.elim
  | stop result => exact ⟨result, rfl, both⟩

/-- The other outcome goes on where one does. -/
theorem Outcome.Both.of_next {σ τ ρ υ : Type} {r : σ → τ → Prop} {q : ρ → υ → Prop}
    {state : σ} {other : Outcome τ υ} (both : Outcome.Both r q (.next state) other) :
    ∃ after, other = .next after ∧ r state after := by
  -- A result never matches a state.
  cases other with
  | next after => exact ⟨after, rfl, both⟩
  | stop value => exact both.elim

/-- One outcome goes on where the other does. -/
theorem Outcome.Both.next_of {σ τ ρ υ : Type} {r : σ → τ → Prop} {q : ρ → υ → Prop}
    {state : τ} {other : Outcome σ ρ} (both : Outcome.Both r q other (.next state)) :
    ∃ before, other = .next before ∧ r before state := by
  cases other with
  | next before => exact ⟨before, rfl, both⟩
  | stop value => exact both.elim

/-- What follows for the states that both go on to and for the results. -/
theorem Outcome.Both.imp {σ τ ρ υ : Type} {r s : σ → τ → Prop} {q t : ρ → υ → Prop}
    {left : Outcome σ ρ} {right : Outcome τ υ} (both : left.Both r q right)
    (next : ∀ leftAfter rightAfter, left = .next leftAfter → right = .next rightAfter →
      r leftAfter rightAfter → s leftAfter rightAfter)
    (stop : ∀ leftResult rightResult, q leftResult rightResult → t leftResult rightResult) :
    left.Both s t right := by
  -- The two outcomes have the same shape, so only two of the four cases are left.
  cases left with
  | next leftAfter =>
    cases right with
    | next rightAfter => exact next _ _ rfl rfl both
    | stop rightResult => exact both.elim
  | stop leftResult =>
    cases right with
    | next rightAfter => exact both.elim
    | stop rightResult => exact stop _ _ both

namespace Transition

variable {σ τ ρ υ : Type}

/-- The outcome of at most a number of steps. -/
def run (step : σ → Outcome σ ρ) : Nat → σ → Outcome σ ρ
  | 0, state => .next state
  | n + 1, state =>
    match step state with
    | .next after => run step n after
    | .stop result => .stop result

variable {step : σ → Outcome σ ρ}

/-- A run starts with a step that goes on. -/
theorem run_of_next {n : Nat} {state after : σ} (first : step state = .next after) :
    run step (n + 1) state = run step n after := by
  simp only [run, first]

/-- A run starts with a step that stops. -/
theorem run_of_stop {n : Nat} {state : σ} {result : ρ} (first : step state = .stop result) :
    run step (n + 1) state = .stop result := by
  simp only [run, first]

/-- A run goes on with the run from the state that it led to. -/
theorem run_add {m : Nat} (n : Nat) {state middle : σ} (led : run step m state = .next middle) :
    run step (m + n) state = run step n middle := by
  -- The first step of the whole run is that of its first part.
  induction m generalizing state with
  | zero =>
    cases led
    rw [Nat.zero_add]
  | succ m ih =>
    rw [Nat.add_right_comm]
    cases first : step state with
    | next after =>
      rw [run_of_next first] at led ⊢
      exact ih led
    | stop result =>
      -- A run that stopped at once leads nowhere.
      rw [run_of_stop first] at led
      cases led

/-- A run that led to a state goes on with one more step. -/
theorem run_succ {n : Nat} {state last : σ} (led : run step n state = .next last) :
    run step (n + 1) state = step last := by
  rw [run_add 1 led]
  cases first : step last with
  | next after => exact run_of_next first
  | stop result => exact run_of_stop first

/-- A run that stopped stays stopped. -/
theorem run_stop_add {m : Nat} (n : Nat) {state : σ} {result : ρ}
    (stopped : run step m state = .stop result) : run step (m + n) state = .stop result := by
  -- Adding steps behind the stop changes none of the steps before it.
  induction m generalizing state with
  | zero => cases stopped
  | succ m ih =>
    rw [Nat.add_right_comm]
    cases first : step state with
    | next after =>
      rw [run_of_next first] at stopped ⊢
      exact ih stopped
    | stop other =>
      rw [run_of_stop first] at stopped ⊢
      exact stopped

/-- A run has one result. -/
theorem stop_unique {m n : Nat} {state : σ} {left right : ρ}
    (leftStopped : run step m state = .stop left)
    (rightStopped : run step n state = .stop right) : left = right := by
  -- Both runs are lengthened to the sum of their lengths, where they are the same run.
  have leftLater := run_stop_add n leftStopped
  have rightLater := run_stop_add m rightStopped
  rw [Nat.add_comm, leftLater] at rightLater
  cases rightLater
  rfl

/-- A run that stopped did so at its last step. -/
theorem last_of_stop {n : Nat} {state : σ} {result : ρ}
    (stopped : run step n state = .stop result) :
    ∃ m < n, ∃ last, run step m state = .next last ∧ step last = .stop result := by
  -- Either the shorter run goes on and the last step stops, or it stopped earlier still.
  induction n with
  | zero => cases stopped
  | succ n ih =>
    cases before : run step n state with
    | next last =>
      rw [run_succ before] at stopped
      exact ⟨n, Nat.lt_succ_self n, last, before, stopped⟩
    | stop other =>
      -- A run that stopped earlier has the same result later, so the induction finds its last step.
      have same := run_stop_add 1 before
      rw [stopped] at same
      cases same
      obtain ⟨m, bound, rest⟩ := ih before
      exact ⟨m, Nat.lt_succ_of_lt bound, rest⟩

/-- Every prefix of a run that led to a state led to a state. -/
theorem prefix_next {m n : Nat} {state last : σ} (order : m ≤ n)
    (led : run step n state = .next last) : ∃ middle, run step m state = .next middle := by
  cases before : run step m state with
  | next middle => exact ⟨middle, rfl⟩
  | stop result =>
    -- Had the shorter run stopped, the longer one would have stopped with it.
    have stopped := run_stop_add (n - m) before
    rw [Nat.add_sub_cancel' order, led] at stopped
    cases stopped

/-- What holds at first and is kept by every step on the way holds in every state reached. -/
theorem invariant {h : Nat → σ → Prop} {state last : σ} {n : Nat} (initial : h 0 state)
    (kept : ∀ m before after, m < n → run step m state = .next before → h m before →
      step before = .next after → h (m + 1) after)
    (led : run step n state = .next last) : h n last := by
  -- The property is carried along the run: each prefix is a run of its own.
  induction n generalizing last with
  | zero =>
    cases led
    exact initial
  | succ n ih =>
    obtain ⟨before, reached⟩ := prefix_next (Nat.le_succ n) led
    rw [run_succ reached] at led
    exact kept n before last (Nat.lt_succ_self n) reached
      (ih (fun m before after bound => kept m before after (Nat.lt_succ_of_lt bound)) reached) led

/-- The number of steps of a run that start in a counted state. -/
def count (step : σ → Outcome σ ρ) (counted : σ → Bool) : Nat → σ → Nat
  | 0, _ => 0
  | n + 1, state =>
    (if counted state then 1 else 0) +
      match step state with
      | .next after => count step counted n after
      | .stop _ => 0

/-- The count of a run that starts with a step that goes on. -/
theorem count_of_next {counted : σ → Bool} {n : Nat} {state after : σ}
    (first : step state = .next after) :
    count step counted (n + 1) state =
      (if counted state then 1 else 0) + count step counted n after := by
  rw [count, first]

/-- One more step adds one to the count or nothing. -/
theorem count_succ {counted : σ → Bool} {n : Nat} {state last : σ}
    (led : run step n state = .next last) :
    count step counted (n + 1) state =
      count step counted n state + if counted last then 1 else 0 := by
  induction n generalizing state with
  | zero =>
    cases led
    simp only [count, Nat.zero_add]
    -- A single step adds nothing behind it, whatever it leads to.
    cases step last <;> rfl
  | succ n ih =>
    cases first : step state with
    | next after =>
      rw [run_of_next first] at led
      rw [count_of_next first, count_of_next first, ih led, Nat.add_assoc]
    | stop result =>
      rw [run_of_stop first] at led
      cases led

/-- The states that a run goes through in less than a number of steps. -/
def visited (step : σ → Outcome σ ρ) : Nat → σ → List σ
  | 0, _ => []
  | n + 1, state =>
    state ::
      match step state with
      | .next after => visited step n after
      | .stop _ => []

/-- A state that a run leads to is one that it goes through. -/
theorem mem_visited {m n : Nat} {state last : σ} (order : m < n)
    (led : run step m state = .next last) : last ∈ visited step n state := by
  induction n generalizing m state with
  | zero => exact absurd order (Nat.not_lt_zero m)
  | succ n ih =>
    cases m with
    | zero =>
      cases led
      exact List.mem_cons_self
    | succ m =>
      rw [visited]
      cases first : step state with
      | next after =>
        rw [run_of_next first] at led
        exact List.mem_cons_of_mem state (ih (Nat.lt_of_succ_lt_succ order) led)
      | stop result =>
        rw [run_of_stop first] at led
        cases led

/-- A state that a run goes through is one that it leads to. -/
theorem run_of_mem_visited {n : Nat} {state last : σ} (member : last ∈ visited step n state) :
    ∃ m, run step m state = .next last := by
  induction n generalizing state with
  | zero => cases member
  | succ n ih =>
    rw [visited] at member
    rcases List.mem_cons.mp member with rfl | later
    · exact ⟨0, rfl⟩
    · cases first : step state with
      | next after =>
        rw [first] at later
        obtain ⟨m, led⟩ := ih later
        exact ⟨m + 1, (run_of_next first).trans led⟩
      | stop result =>
        rw [first] at later
        cases later

/-- A run that stops leads to states that it goes through, so that each of them can be checked. -/
theorem check_of_visited {m n : Nat} {state last : σ} {check : σ → Bool}
    (stops : (run step n state).stops = true)
    (checked : (visited step n state).all check = true) (led : run step m state = .next last) :
    check last = true := by
  refine List.all_eq_true.mp checked last (mem_visited (Nat.lt_of_not_le fun late => ?_) led)
  -- A run that is at least as long would have stopped as well.
  cases short : run step n state with
  | next other =>
    rw [short] at stops
    cases stops
  | stop result =>
    have later := run_stop_add (m - n) short
    rw [Nat.add_sub_cancel' late, led] at later
    cases later

/-- A specification that takes the counted steps of a system, and waits during the others. -/
structure Stuttering (step : σ → Outcome σ ρ) (spec : τ → Outcome τ υ) (related : σ → τ → Prop)
    (result : ρ → υ) (counted : σ → Bool) (patience : σ → Nat) : Prop where
  /-- In a counted state both go on, or both stop with the same result. -/
  moves : ∀ state slow, related state slow → counted state = true →
    match step state with
    | .next after => ∃ slowAfter, spec slow = .next slowAfter ∧ related after slowAfter
    | .stop value => spec slow = .stop (result value)
  /-- In any other state the system goes on alone, which it can do only so often. -/
  waits : ∀ state slow, related state slow → counted state = false →
    ∃ after, step state = .next after ∧ related after slow ∧ patience after < patience state

namespace Stuttering

variable {spec : τ → Outcome τ υ} {related : σ → τ → Prop} {result : ρ → υ} {counted : σ → Bool}
  {patience : σ → Nat} (stuttering : Stuttering step spec related result counted patience)

include stuttering

/-- Every state reached is matched after the counted steps. -/
theorem next {n : Nat} {state last : σ} {slow : τ} (start : related state slow)
    (led : run step n state = .next last) :
    ∃ slowLast, run spec (count step counted n state) slow = .next slowLast ∧
      related last slowLast := by
  -- The specification moves in the counted steps and keeps its place in the others.
  induction n generalizing state slow with
  | zero =>
    cases led
    exact ⟨slow, rfl, start⟩
  | succ n ih =>
    cases first : step state with
    | stop value =>
      rw [run_of_stop first] at led
      cases led
    | next after =>
      rw [run_of_next first] at led
      rw [count_of_next first]
      by_cases now : counted state = true
      · -- Both take the step, and the counts agree on it.
        have move := stuttering.moves state slow start now
        rw [first] at move
        obtain ⟨slowAfter, slowFirst, kept⟩ := move
        rw [if_pos now, Nat.add_comm, run_of_next slowFirst]
        exact ih kept led
      · -- The system waits, so the specification stays where it is.
        obtain ⟨other, same, kept, _⟩ :=
          stuttering.waits state slow start (Bool.eq_false_iff.mpr now)
        cases first.symm.trans same
        rw [if_neg now, Nat.zero_add]
        exact ih kept led

/-- A result of the system is one of the specification. -/
theorem stop {n : Nat} {state : σ} {slow : τ} {value : ρ} (start : related state slow)
    (stopped : run step n state = .stop value) :
    ∃ m, run spec m slow = .stop (result value) := by
  -- The result comes at the last step, which has to be a counted one.
  obtain ⟨m, _, last, led, final⟩ := last_of_stop stopped
  obtain ⟨slowLast, slowLed, kept⟩ := stuttering.next start led
  by_cases now : counted last = true
  · have move := stuttering.moves last slowLast kept now
    rw [final] at move
    exact ⟨_, (run_succ slowLed).trans move⟩
  · -- A state that waits goes on, so a result cannot come there.
    obtain ⟨other, same, _⟩ := stuttering.waits last slowLast kept (Bool.eq_false_iff.mpr now)
    cases final.symm.trans same

/-- Where the specification takes a step, the system takes it after waiting. -/
theorem catches_up {state : σ} {slow : τ} (start : related state slow) :
    ∃ n state', run step n state = .next state' ∧ related state' slow ∧ counted state' = true := by
  -- By induction on how often the system can still wait.
  induction bound : patience state using Nat.strongRecOn generalizing state with
  | ind p ih =>
    by_cases now : counted state = true
    · -- In a state that is not counted the system takes one more step and can wait less often.
      exact ⟨0, state, rfl, start, now⟩
    · obtain ⟨after, first, kept, less⟩ :=
        stuttering.waits state slow start (Bool.eq_false_iff.mpr now)
      obtain ⟨n, state', led, rest⟩ := ih _ (bound ▸ less) kept rfl
      exact ⟨n + 1, state', (run_of_next first).trans led, rest⟩

/-- A result of the specification is one of the system. -/
theorem stop_of_spec {m : Nat} {state : σ} {slow : τ} {value : υ} (start : related state slow)
    (stopped : run spec m slow = .stop value) :
    ∃ n value', run step n state = .stop value' ∧ result value' = value := by
  -- The system catches up before each step of the specification.
  induction m generalizing state slow with
  | zero => cases stopped
  | succ m ih =>
    obtain ⟨n, state', led, kept, now⟩ := stuttering.catches_up start
    have move := stuttering.moves state' slow kept now
    cases first : step state' with
    | stop value' =>
      rw [first] at move
      rw [run_of_stop move] at stopped
      cases stopped
      exact ⟨n + 1, value', (run_succ led).trans first, rfl⟩
    | next after =>
      rw [first] at move
      obtain ⟨slowAfter, slowFirst, after'⟩ := move
      rw [run_of_next slowFirst] at stopped
      obtain ⟨k, value', rest, same⟩ := ih after' stopped
      exact ⟨n + (k + 1), value', by rw [run_add _ led, run_of_next first, rest], same⟩

end Stuttering

/-- Two systems that stay related step by step, and stop together with related results. -/
theorem lockstep {other : τ → Outcome τ υ} {r : σ → τ → Prop} {q : ρ → υ → Prop}
    (moves : ∀ left right, r left right → (step left).Both r q (other right))
    {n : Nat} {left : σ} {right : τ} (start : r left right) :
    (run step n left).Both r q (run other n right) := by
  -- The first steps match, and the rest of both runs starts in related states.
  induction n generalizing left right with
  | zero => exact start
  | succ n ih =>
    have move := moves left right start
    cases leftFirst : step left with
    | next leftAfter =>
      rw [leftFirst] at move
      cases rightFirst : other right with
      | next rightAfter =>
        rw [rightFirst] at move
        rw [run_of_next leftFirst, run_of_next rightFirst]
        exact ih move
      | stop rightResult =>
        rw [rightFirst] at move
        exact move.elim
    | stop leftResult =>
      rw [leftFirst] at move
      cases rightFirst : other right with
      | next rightAfter =>
        rw [rightFirst] at move
        exact move.elim
      | stop rightResult =>
        rw [rightFirst] at move
        rw [run_of_stop leftFirst, run_of_stop rightFirst]
        exact move

end Transition
