import Mathlib.Data.Nat.Notation

/-! Replacing a value only by one of strictly greater depth: after any sequence
of offers the first of the deepest is left. -/

namespace CorpusFeed

section FirstDeepest

variable {P : Type*} (depth : P → ℕ)

def deepen (current offer : P) : P := if depth current < depth offer then offer else current

def deepest (current : P) (offers : List P) : P := offers.foldl (deepen depth) current

/-- The first among the deepest of the values. -/
def IsFirstDeepest (values : List P) (p : P) : Prop :=
  ∃ before after, values = before ++ p :: after ∧ (∀ q ∈ before, depth q < depth p) ∧ ∀ q ∈ after, depth q ≤ depth p

variable {depth} {current offer : P} {offers : List P}

@[simp] theorem deepest_nil : deepest depth current [] = current := rfl

@[simp] theorem deepest_cons :
    deepest depth current (offer :: offers) = deepest depth (deepen depth current offer) offers := rfl

theorem deepest_eq_current (h : ∀ offer ∈ offers, depth offer ≤ depth current) :
    deepest depth current offers = current := by
  induction offers with
  | nil => rfl
  | cons offer offers ih =>
    have hstep : deepen depth current offer = current :=
      if_neg (Nat.not_lt.mpr (h offer List.mem_cons_self))
    rw [deepest_cons, hstep]
    exact ih fun later hlater => h later (List.mem_cons_of_mem offer hlater)

theorem deepest_isFirstDeepest (current : P) (offers : List P) :
    IsFirstDeepest depth (current :: offers) (deepest depth current offers) := by
  induction offers generalizing current with
  | nil => exact ⟨[], [], rfl, by simp, by simp⟩
  | cons offer offers ih =>
    rw [deepest_cons]
    by_cases hlt : depth current < depth offer
    · have hstep : deepen depth current offer = offer := if_pos hlt
      rw [hstep]
      obtain ⟨before, after, heq, hbefore, hafter⟩ := ih offer
      refine ⟨current :: before, after, congrArg (current :: ·) heq, ?_, hafter⟩
      have hoffer : depth offer ≤ depth (deepest depth offer offers) := by
        have hmem : offer ∈ before ++ deepest depth offer offers :: after := heq ▸ List.mem_cons_self
        rcases List.mem_append.mp hmem with hm | hm
        · exact Nat.le_of_lt (hbefore offer hm)
        · rcases List.mem_cons.mp hm with hm | hm
          · exact Nat.le_of_eq (congrArg depth hm)
          · exact hafter offer hm
      intro q hq
      rcases List.mem_cons.mp hq with rfl | hq
      · omega
      · exact hbefore q hq
    · have hstep : deepen depth current offer = current := if_neg hlt
      rw [hstep]
      obtain ⟨before, after, heq, hbefore, hafter⟩ := ih current
      cases before with
      | nil =>
        obtain ⟨hcurrent, hoffers⟩ := List.cons.inj heq
        refine ⟨[], offer :: after, by rw [← hoffers, ← hcurrent]; rfl, by simp, fun q hq => ?_⟩
        rcases List.mem_cons.mp hq with rfl | hq
        · rw [← hcurrent]
          omega
        · exact hafter q hq
      | cons first before =>
        obtain ⟨hfirst, hoffers⟩ := List.cons.inj heq
        subst hfirst
        have hcurrent := hbefore current List.mem_cons_self
        refine ⟨current :: offer :: before, after, congrArg (current :: offer :: ·) hoffers, fun q hq => ?_, hafter⟩
        rcases List.mem_cons.mp hq with rfl | hq
        · exact hcurrent
        rcases List.mem_cons.mp hq with rfl | hq
        · omega
        · exact hbefore q (List.mem_cons_of_mem _ hq)

end FirstDeepest

end CorpusFeed
