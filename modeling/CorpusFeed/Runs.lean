import Mathlib.Logic.Function.Basic

/-! Runs of a step function over a list of actions. A condition on the steps of
a run is a predicate on the state a step starts from and on its action. Beside them, the calls of a function
that passes a state on. -/

namespace CorpusFeed

section Runs

variable {S A : Type*} (step : S → A → S)

def runFrom (s : S) (actions : List A) : S := actions.foldl step s

/-- Every step of the run meets `ok` in the state it starts from. -/
def RunMeets (ok : S → A → Prop) : S → List A → Prop
  | _, [] => True
  | s, a :: actions => ok s a ∧ RunMeets ok (step s a) actions

instance decidableRunMeets (ok : S → A → Prop) [∀ s a, Decidable (ok s a)] :
    ∀ s actions, Decidable (RunMeets step ok s actions)
  | _, [] => isTrue trivial
  | s, a :: actions =>
    have := decidableRunMeets ok (step s a) actions
    inferInstanceAs (Decidable (ok s a ∧ RunMeets step ok (step s a) actions))

@[simp] theorem runFrom_nil (s : S) : runFrom step s [] = s := rfl

@[simp] theorem runFrom_cons (s : S) (a : A) (actions : List A) :
    runFrom step s (a :: actions) = runFrom step (step s a) actions := rfl

theorem runFrom_append (s : S) (before after : List A) :
    runFrom step s (before ++ after) = runFrom step (runFrom step s before) after :=
  List.foldl_append

variable {step} {ok ok' : S → A → Prop} {P : S → Prop} {s : S} {actions : List A}

theorem runFrom_keeps (hstep : ∀ s a, P s → ok s a → P (step s a)) (hs : P s)
    (hrun : RunMeets step ok s actions) : P (runFrom step s actions) := by
  induction actions generalizing s with
  | nil => exact hs
  | cons a actions ih => exact ih (hstep s a hs hrun.1) hrun.2

theorem runFrom_keeps_all (hstep : ∀ s a, P s → P (step s a)) (hs : P s) : P (runFrom step s actions) := by
  induction actions generalizing s with
  | nil => exact hs
  | cons a actions ih => exact ih (hstep s a hs)

theorem RunMeets.append_iff {before after : List A} :
    RunMeets step ok s (before ++ after) ↔
      RunMeets step ok s before ∧ RunMeets step ok (runFrom step s before) after := by
  induction before generalizing s with
  | nil => simp [RunMeets]
  | cons a before ih => simp [RunMeets, ih, and_assoc]

theorem RunMeets.of_forall (h : ∀ a ∈ actions, ∀ s, ok s a) : RunMeets step ok s actions := by
  induction actions generalizing s with
  | nil => trivial
  | cons a actions ih =>
    exact ⟨h a List.mem_cons_self s, ih fun b hb => h b (List.mem_cons_of_mem a hb)⟩

/-- A condition that follows from another one along the states of an invariant. -/
theorem RunMeets.mono (hstep : ∀ s a, P s → ok s a → P (step s a)) (hok : ∀ s a, P s → ok s a → ok' s a)
    (hs : P s) (hrun : RunMeets step ok s actions) : RunMeets step ok' s actions := by
  induction actions generalizing s with
  | nil => trivial
  | cons a actions ih => exact ⟨hok s a hs hrun.1, ih (hstep s a hs hrun.1) hrun.2⟩

/-- A condition that follows from an invariant holds along every run. -/
theorem RunMeets.of_invariant (hstep : ∀ s a, P s → P (step s a)) (hok : ∀ s a, P s → ok s a) (hs : P s) :
    RunMeets step ok s actions := by
  induction actions generalizing s with
  | nil => trivial
  | cons a actions ih => exact ⟨hok s a hs, ih (hstep s a hs)⟩

/-- A condition on what a function shows of the states, along a run that it maps to
another one. -/
theorem RunMeets.of_map {T : Type*} {f : S → T} {step' : T → A → T} {ok' : T → A → Prop}
    (hstep : ∀ s a, f (step s a) = step' (f s) a) (h : RunMeets step' ok' (f s) actions) :
    RunMeets step (fun s a => ok' (f s) a) s actions := by
  induction actions generalizing s with
  | nil => trivial
  | cons a actions ih =>
    refine ⟨h.1, ih ?_⟩
    rw [hstep]
    exact h.2

end Runs

section Calls

variable {σ α ρ : Type*} (call : α → σ → ρ × σ)

/-- The calls of a function that passes a state on, with one argument after another:
what each call returns, and the state after the last. -/
def callsFrom (s : σ) (args : List α) : List (α × ρ) × σ :=
  args.foldl (fun made arg => (made.1 ++ [(arg, (call arg made.2).1)], (call arg made.2).2)) ([], s)

theorem callsFrom_append_singleton (s : σ) (args : List α) (arg : α) :
    callsFrom call s (args ++ [arg]) =
      ((callsFrom call s args).1 ++ [(arg, (call arg (callsFrom call s args).2).1)],
        (call arg (callsFrom call s args).2).2) := by
  rw [callsFrom, List.foldl_append]
  rfl

end Calls

end CorpusFeed
