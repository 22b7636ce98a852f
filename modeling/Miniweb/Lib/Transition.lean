import Mathlib

/-! Runs of a system given by a partial step function. A run is restricted by
a condition on each step, so that a property of "every run whose steps are all
like this" and a property of every run are one notion at two conditions. -/
namespace Miniweb.Lib.Transition

variable {σ α : Type*}

/-- The states reached from `init` by steps that all satisfy `ok`. -/
inductive Reach (step : σ → α → Option σ) (ok : σ → α → Prop) (init : σ) : σ → Prop where
  | start : Reach step ok init init
  | next {s t : σ} {a : α} (before : Reach step ok init s) (allowed : ok s a)
      (taken : step s a = some t) : Reach step ok init t

/-- The condition that restricts nothing. -/
def Any : σ → α → Prop := fun _ _ => True

instance (s : σ) (a : α) : Decidable (Any s a) := isTrue trivial

variable {step : σ → α → Option σ} {ok ok' : σ → α → Prop} {init s t : σ}

/-- What holds at the start and survives every allowed step holds throughout. -/
theorem Reach.invariant {P : σ → Prop} (base : P init)
    (kept : ∀ s a t, P s → ok s a → step s a = some t → P t)
    (reached : Reach step ok init s) : P s := by
  induction reached with
  | start => exact base
  | next _ allowed taken ih => exact kept _ _ _ ih allowed taken

/-- A run under a stronger condition is a run under a weaker one. -/
theorem Reach.mono (weaker : ∀ s a, ok s a → ok' s a) (reached : Reach step ok init s) :
    Reach step ok' init s := by
  induction reached with
  | start => exact .start
  | next _ allowed taken ih => exact .next ih (weaker _ _ allowed) taken

/-- Takes the listed actions in order; `none` when one of them is not enabled. -/
def run (step : σ → α → Option σ) : σ → List α → Option σ
  | s, [] => some s
  | s, a :: rest => (step s a).bind fun t => run step t rest

/-- What each of the actions preserves holds behind all of them. -/
theorem run_invariant {P : σ → Prop} {actions : List α} (base : P s)
    (kept : ∀ a ∈ actions, ∀ s t, P s → step s a = some t → P t)
    (ran : run step s actions = some t) : P t := by
  induction actions generalizing s with
  | nil =>
    cases ran
    exact base
  | cons a rest ih =>
    obtain ⟨middle, taken, ran⟩ := Option.bind_eq_some_iff.mp ran
    exact ih (kept a List.mem_cons_self s middle base taken)
      (fun b later => kept b (List.mem_cons_of_mem a later)) ran

/-- The step function that refuses what `ok` does not allow. -/
def guarded (ok : σ → α → Prop) [∀ s a, Decidable (ok s a)] (step : σ → α → Option σ)
    (s : σ) (a : α) : Option σ := if ok s a then step s a else none

/-- A list of allowed actions that can be taken in order is a run. -/
private theorem reach_of_run [∀ s a, Decidable (ok s a)] {actions : List α}
    (ran : run (guarded ok step) s actions = some t) (reached : Reach step ok init s) :
    Reach step ok init t := by
  refine run_invariant reached (fun a _ s t reached taken => ?_) ran
  unfold guarded at taken
  split at taken
  · rename_i allowed
    exact .next reached allowed taken
  · cases taken

/-- Actions taken from the start reach a state, and `f` may be read off it. -/
theorem exists_reach_of_run [∀ s a, Decidable (ok s a)] {γ : Type*} {f : σ → γ} {v : γ}
    {actions : List α} (ran : (run (guarded ok step) init actions).map f = some v) :
    ∃ s, Reach step ok init s ∧ f s = v := by
  obtain ⟨s, ran, final⟩ := Option.map_eq_some_iff.mp ran
  exact ⟨s, reach_of_run ran .start, final⟩

/-- Actions that are allowed in every state need no check on the way. -/
theorem exists_reach_of_allowed {γ : Type*} {f : σ → γ} {v : γ} {actions : List α}
    (allowed : ∀ a ∈ actions, ∀ s, ok s a) (ran : (run step init actions).map f = some v) :
    ∃ s, Reach step ok init s ∧ f s = v := by
  obtain ⟨s, ran, final⟩ := Option.map_eq_some_iff.mp ran
  have reached : Reach step ok init s :=
    run_invariant .start (fun a member s _ reached taken => .next reached (allowed a member s) taken) ran
  exact ⟨s, reached, final⟩

/-! ## Runs that keep a record -/

section Recorded

variable {ρ : Type*}

/-- Each step also updates a record of the run, which no step reads. -/
def recorded (step : σ → α → Option σ) (record : σ → α → ρ → ρ) (x : σ × ρ) (a : α) :
    Option (σ × ρ) := (step x.1 a).map fun t => (t, record x.1 a x.2)

end Recorded

/-! ## Systems of parties -/

/-- One party has moved: another one stands where it stood. -/
theorem update_cases {ι β : Type*} [DecidableEq ι] {parties : ι → β} {i j : ι} {next now : β}
    (after : Function.update parties i next j = now) :
    (j = i ∧ next = now) ∨ (j ≠ i ∧ parties j = now) := by
  by_cases same : j = i
  · subst same
    rw [Function.update_self] at after
    exact .inl ⟨rfl, after⟩
  · rw [Function.update_of_ne same] at after
    exact .inr ⟨same, after⟩

/-! ## Systems that answer -/

section Answers

variable {τ β : Type*} {f : σ → α → β × σ} {g : τ → α → β × τ} {valid : α → Prop}

/-- The answers to a list of requests, and the state after them. -/
def answers (f : σ → α → β × σ) : σ → List α → List β × σ
  | s, [] => ([], s)
  | s, a :: rest =>
    let (b, t) := f s a
    let (later, final) := answers f t rest
    (b :: later, final)

/-- When related states give the same answer and stay related, so does every
list of requests. -/
theorem answers_eq_of_simulation {R : σ → τ → Prop}
    (simulates : ∀ s t a, R s t → valid a → (f s a).1 = (g t a).1 ∧ R (f s a).2 (g t a).2)
    {s : σ} {t : τ} (related : R s t) {requests : List α} (allValid : ∀ a ∈ requests, valid a) :
    (answers f s requests).1 = (answers g t requests).1 ∧
      R (answers f s requests).2 (answers g t requests).2 := by
  induction requests generalizing s t with
  | nil => exact ⟨rfl, related⟩
  | cons a rest ih =>
    obtain ⟨head, next⟩ := simulates s t a related (allValid a List.mem_cons_self)
    obtain ⟨tail, final⟩ := ih next fun b member => allValid b (List.mem_cons_of_mem _ member)
    refine ⟨?_, final⟩
    simp only [answers]
    rw [head, tail]

end Answers

end Miniweb.Lib.Transition
