import CorpusFeed.DecimalText

/-! Texts joined with a separator, and integers in decimal. Fields that do not
hold the separator are fixed by the joined text. -/

namespace CorpusFeed

section Separated

variable {α : Type*} {m : α}

theorem intercalate_injective [DecidableEq α] {xs ys : List (List α)} (hx : ∀ x ∈ xs, m ∉ x) (hy : ∀ y ∈ ys, m ∉ y)
    (hxs : xs ≠ []) (hys : ys ≠ []) (h : List.intercalate [m] xs = List.intercalate [m] ys) : xs = ys := by
  have hsplit := congrArg (List.splitOn m) h
  rwa [List.splitOn_intercalate m hx hxs, List.splitOn_intercalate m hy hys] at hsplit

theorem mem_intercalate_of_mem [DecidableEq α] {sep x : List α} {xs : List (List α)} (hx : x ∈ xs) (hm : m ∈ x) :
    m ∈ List.intercalate sep xs := by
  induction xs with
  | nil => simp at hx
  | cons y xs ih =>
    cases xs with
    | nil => simpa using List.mem_singleton.mp hx ▸ hm
    | cons z xs =>
      rw [List.intercalate_cons_cons, List.mem_append, List.mem_append]
      rcases List.mem_cons.mp hx with rfl | hx
      · exact Or.inl (Or.inl hm)
      · exact Or.inr (ih hx)

end Separated

theorem dark_of_mem_splitOnP {p : Char → Bool} {t part : Text} (hpart : part ∈ t.splitOnP p) :
    ∀ c ∈ part, p c = false := by
  induction t generalizing part with
  | nil =>
    have he : part = [] := by simpa using hpart
    simp [he]
  | cons d t ih =>
    rw [List.splitOnP_cons_eq_if_modifyHead] at hpart
    split at hpart
    · rcases List.mem_cons.mp hpart with rfl | hpart
      · simp
      · exact ih hpart
    · next hd =>
      cases hsplit : t.splitOnP p with
      | nil => exact absurd hsplit (List.splitOnP_ne_nil p t)
      | cons first others =>
        rw [hsplit, List.modifyHead_cons] at hpart
        rcases List.mem_cons.mp hpart with rfl | hpart
        · intro c hc
          rcases List.mem_cons.mp hc with rfl | hc
          · simpa using hd
          · exact ih (hsplit ▸ List.mem_cons_self) c hc
        · exact ih (hsplit ▸ List.mem_cons_of_mem first hpart)

theorem not_digit_mem_intText {n : Int} {c : Char} (hc : c.isDigit = false) (hdash : c ≠ '-') : c ∉ intText n := by
  have hdigits : c ∉ padDecimal 1 n.natAbs := fun hm => by simp [isDigit_of_mem_padDecimal hm] at hc
  by_cases hn : n < 0
  · simp [intText, hn, hdash, hdigits]
  · simp [intText, hn, hdigits]

theorem intText_injective : Function.Injective intText := by
  intro m n h
  have hdash : ∀ k t, padDecimal 1 k ≠ '-' :: t := by
    intro k t hk
    have hm : '-' ∈ padDecimal 1 k := hk ▸ List.mem_cons_self
    have hdigit := isDigit_of_mem_padDecimal hm
    revert hdigit
    decide
  have hpad : ∀ k l, padDecimal 1 k = padDecimal 1 l → k = l := fun k l hkl => padDecimal_injective 1 hkl
  by_cases hm : m < 0
  · by_cases hn : n < 0
    · simp only [intText, hm, hn, if_true, List.cons.injEq, true_and] at h
      have habs := hpad _ _ h
      omega
    · simp only [intText, hm, hn, if_true, if_false] at h
      exact absurd h.symm (hdash _ _)
  · by_cases hn : n < 0
    · simp only [intText, hm, hn, if_true, if_false] at h
      exact absurd h (hdash _ _)
    · simp only [intText, hm, hn, if_false] at h
      have habs := hpad _ _ h
      omega

end CorpusFeed
