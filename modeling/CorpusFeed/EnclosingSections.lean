import CorpusFeed.StructureLinks
import Mathlib.Data.List.Infix

/-! When the stack of the `TEXTELR` links is that of the last link and the
sections around it. The loop cuts the stack at a depth, and the links speak of
levels. -/

namespace CorpusFeed

variable {links : List TextStructLink} {link : TextStructLink}

theorem pushTitle_extends (stack : List Text) (title : Text) : stack <+: pushTitle stack title := by
  unfold pushTitle
  split
  · exact List.prefix_rfl
  · exact List.prefix_append _ _

theorem pushTitle_ne_nil (stack : List Text) (title : Text) : pushTitle stack title ≠ [] := by
  unfold pushTitle
  split
  · next h =>
    intro hnil
    simp [hnil] at h
  · simp

/-- Two stacks, one above the other, show the same after a title. -/
theorem pushTitle_eq_iff {above stack : List Text} {title : Text} (h : above <+: stack) :
    pushTitle stack title = pushTitle above title ↔
      stack = above ∨ (stack = above ++ [title] ∧ above.getLast? ≠ some title) := by
  obtain ⟨more, rfl⟩ := h
  constructor
  · intro heq
    unfold pushTitle at heq
    by_cases hstack : (above ++ more).getLast? = some title
    · rw [if_pos hstack] at heq
      by_cases habove : above.getLast? = some title
      · rw [if_pos habove] at heq
        exact Or.inl heq
      · rw [if_neg habove] at heq
        exact Or.inr ⟨heq, habove⟩
    · rw [if_neg hstack] at heq
      by_cases habove : above.getLast? = some title
      · rw [if_pos habove] at heq
        have hlen := congrArg List.length heq
        simp at hlen
      · rw [if_neg habove] at heq
        exact Or.inl (List.append_cancel_right heq)
  · rintro (heq | ⟨heq, habove⟩)
    · rw [heq]
    · rw [heq]
      simp [pushTitle, habove]

theorem shownTitles_mono {links links' : List TextStructLink} (h : links <+: links') : shownTitles links <+: shownTitles links' := by
  obtain ⟨more, rfl⟩ := h
  induction more using List.reverseRecOn with
  | nil => rw [List.append_nil]
  | append_singleton more link ih =>
    rw [← List.append_assoc, shownTitles_snoc]
    exact ih.trans (pushTitle_extends _ _)

theorem length_shownTitles_le (links : List TextStructLink) : (shownTitles links).length ≤ links.length := by
  have h := (List.destutter_sublist (· ≠ ·) (links.map linkTitle)).length_le
  rwa [List.length_map] at h

/-- Growing levels between two bounds leave room for as many links. -/
theorem length_le_of_growing {low high : Nat}
    (hgrow : links.Pairwise fun outer inner => linkLevel outer < linkLevel inner)
    (hbound : ∀ link ∈ links, low ≤ linkLevel link ∧ linkLevel link < high) : links.length ≤ high - low := by
  induction links generalizing low with
  | nil => simp
  | cons link inner ih =>
    rw [List.pairwise_cons] at hgrow
    have hlink := hbound link List.mem_cons_self
    have hinner := @ih (low + 1) hgrow.2 fun next hnext => by
      have hbelow := hbound next (List.mem_cons_of_mem _ hnext)
      have hover := hgrow.1 next hnext
      omega
    simp only [List.length_cons]
    omega

/-- The open links that stay open after one of the level. -/
def openAbove (before : List TextStructLink) (level : Nat) : List TextStructLink :=
  (enclosing before).filter fun outer => decide (linkLevel outer < level)

/-- Cutting at the depth `level - 1` leaves the titles of the links above the
level, or these and the title that follows. -/
def CutsAtLevel (before : List TextStructLink) (link : TextStructLink) : Prop :=
  (shownTitles (enclosing before)).take (linkLevel link - 1) = shownTitles (openAbove before (linkLevel link)) ∨
    ((shownTitles (enclosing before)).take (linkLevel link - 1) =
        shownTitles (openAbove before (linkLevel link)) ++ [linkTitle link] ∧
      (shownTitles (openAbove before (linkLevel link))).getLast? ≠ some (linkTitle link))

theorem openAbove_under (before : List TextStructLink) (level : Nat) : openAbove before level <+: enclosing before :=
  filter_of_growing level (enclosing_pairwise before)

theorem length_openAbove_le {before : List TextStructLink} {level : Nat} (h : ∀ link ∈ before, Titled link) :
    (openAbove before level).length ≤ level - 1 := by
  apply length_le_of_growing
  · exact (enclosing_pairwise before).sublist List.filter_sublist
  · intro outer houter
    obtain ⟨hopen, hlevel⟩ := List.mem_filter.mp houter
    have htitled := h outer ((enclosing_sublist before).subset hopen)
    exact ⟨htitled.2, of_decide_eq_true hlevel⟩

/-- The cut is never above the links that stay open. -/
theorem openAbove_shown_under {before : List TextStructLink} {level : Nat} (h : ∀ link ∈ before, Titled link) :
    shownTitles (openAbove before level) <+: (shownTitles (enclosing before)).take (level - 1) := by
  have hlen := (length_shownTitles_le (openAbove before level)).trans (length_openAbove_le h)
  rw [List.prefix_take_iff]
  exact ⟨shownTitles_mono (openAbove_under before level), hlen⟩

theorem structuralStack_snoc_iff {before : List TextStructLink} (hbefore : ∀ link ∈ before, Titled link)
    (hlink : Titled link) (hstack : structuralStack before = shownTitles (enclosing before)) :
    structuralStack (before ++ [link]) = shownTitles (enclosing (before ++ [link])) ↔ CutsAtLevel before link := by
  rw [structuralStack_snoc before hlink, hstack, enclosing_snoc, shownTitles_snoc]
  exact pushTitle_eq_iff (openAbove_shown_under hbefore)

theorem structuralStack_prefixes_iff (h : ∀ link ∈ links, Titled link) :
    (∀ before, before <+: links → structuralStack before = shownTitles (enclosing before)) ↔
      ∀ before link after, links = before ++ link :: after → CutsAtLevel before link := by
  constructor
  · intro hall before link after hsplit
    subst hsplit
    have hbefore := hall before (List.prefix_append _ _)
    have hnext := hall (before ++ [link]) ⟨after, by simp⟩
    refine (structuralStack_snoc_iff ?_ (h link (by simp)) hbefore).mp hnext
    intro earlier hearlier
    exact h earlier (List.mem_append_left _ hearlier)
  · intro hcuts before hprefix
    induction before using List.reverseRecOn with
    | nil => rfl
    | append_singleton before link ih =>
      obtain ⟨after, hafter⟩ := hprefix
      have hsplit : links = before ++ link :: after := by simp [← hafter]
      refine (structuralStack_snoc_iff ?_ (h link (by simp [hsplit])) ?_).mpr (hcuts before link after hsplit)
      · intro earlier hearlier
        exact h earlier (by simp [hsplit, hearlier])
      · exact ih ⟨link :: after, hsplit.symm⟩

end CorpusFeed
