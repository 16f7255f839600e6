import CorpusFeed.RegistryReachable

/-! The safety of registry runs, and the run that loses a live schema when a
label fills the identifier. -/

namespace CorpusFeed

open Database RegistrySystem

variable {α : Type*}

/-- In a run whose resets and cleanups of stored generations are clear of active
labels, every state is safe, every activation moves one row to active and the
former one to retired, and no other step touches a live schema. -/
theorem registry_run_safe (ready : Database α → Text → Bool) (tables : α)
    (actions : List (RegistryAction α)) (hclear : RunClear ready tables start actions) :
    RegistrySafe (run ready tables start actions).db ∧
      (∀ l c g stamps guard db',
        (run ready tables start actions).db.activateGeneration ready l c g stamps guard = .ok db' →
        ActivationMoves (run ready tables start actions).db db' c g) ∧
      ∀ a, StepClear (run ready tables start actions).db a →
        (∀ l c g stamps guard, a ≠ .activate l c g stamps guard) →
        (∀ identifier rows, a ≠ .write identifier rows) →
        LiveSchemasKept (run ready tables start actions).db
          (step ready tables (run ready tables start actions) a).db := by
  have h : RegistryInvariant (run ready tables start actions).db :=
    run_invariant RegistryInvariant.empty hclear
  exact ⟨h.toRegistrySafe, fun l c g stamps guard db' hop => h.activation_moves hop,
    fun a ha hactivate hwrite => (step_keeps h ha hactivate hwrite).2⟩

def firstStamps : ActivationStamps :=
  ⟨1, "base-1".toList, 24, "bge".toList, [], some "core-1".toList, some "sha".toList⟩

/-- A first generation goes live, and a second attempt is created and reset. -/
def shortRun : List (RegistryAction Nat) :=
  [.create coreCorpus 1 none, .activate true coreCorpus (generationName coreCorpus.name 1) firstStamps .firstBaseline,
    .register coreCorpus 2 none, .clone coreCorpus 2, .reset coreCorpus (generationName coreCorpus.name 2)]

theorem registry_run_safe_short :
    RegistrySafe (run (fun _ _ => true) 7 start shortRun).db :=
  (registry_run_safe (fun _ _ => true) 7 shortRun
    (runClear_of_shortNames RegistryInvariant.empty (by simp [RowsShort, start, Database.empty])
      (by simp [shortRun, ShortNames, coreCorpus]))).1

/-- The second creation of a 40 character corpus fails on the existing schema,
and its reset drops the live one. -/
def wideRun : List (RegistryAction Nat) :=
  [.create wideCorpus 1 none, .activate true wideCorpus (generationName wideCorpus.name 1) firstStamps .firstBaseline,
    .register wideCorpus 2 none, .clone wideCorpus 2, .reset wideCorpus (generationName wideCorpus.name 2)]

theorem wide_run_unsafe : ¬ RegistrySafe (run (fun _ _ => true) 7 start wideRun).db := by
  intro h
  obtain ⟨entries, hv, _⟩ := h.views_live
  have hnone : (run (fun _ _ => true) 7 start wideRun).db.views = none := by decide
  rw [hnone] at hv
  cases hv

end CorpusFeed
