import Mathlib.Data.Nat.Notation
import Mathlib.Logic.Relation

/-! A step relation with a size that every step makes smaller: how long a run can be,
and what every reachable state keeps. -/

namespace CorpusFeed

variable {S : Type*} {step : S → S → Prop}

inductive StepsTo (step : S → S → Prop) : ℕ → S → S → Prop
  | refl (s : S) : StepsTo step 0 s s
  | tail {n : ℕ} {s t u : S} (before : StepsTo step n s t) (last : step t u) : StepsTo step (n + 1) s u

theorem StepsTo.bounded {size : S → ℕ} (hsize : ∀ s t, step s t → size t < size s) {n : ℕ} {s t : S}
    (h : StepsTo step n s t) : n + size t ≤ size s := by
  induction h with
  | refl s => omega
  | tail before last ih =>
    have hlast := hsize _ _ last
    omega

theorem reachable_keeps {P : S → Prop} (hstep : ∀ s t, P s → step s t → P t) {s t : S} (hs : P s)
    (h : Relation.ReflTransGen step s t) : P t := by
  induction h with
  | refl => exact hs
  | tail _ last ih => exact hstep _ _ ih last

/-- Every scheduling comes to an end, and it ends where no step is left. -/
structure Terminates (step : S → S → Prop) (s : S) (ended : S → Prop) : Prop where
  bounded : ∃ most, ∀ n t, StepsTo step n s t → n ≤ most
  ends : ∀ t, Relation.ReflTransGen step s t → (∀ u, ¬ step t u) → ended t

theorem terminates_of_size {size : S → ℕ} {ended : S → Prop} (hsize : ∀ s t, step s t → size t < size s)
    (hprogress : ∀ t, ended t ∨ ∃ u, step t u) (s : S) : Terminates step s ended := by
  refine ⟨⟨size s, fun n t h => ?_⟩, fun t _ hstuck => ?_⟩
  · have hbounded := h.bounded hsize
    omega
  · rcases hprogress t with hended | ⟨u, hu⟩
    · exact hended
    · exact absurd hu (hstuck u)

end CorpusFeed
