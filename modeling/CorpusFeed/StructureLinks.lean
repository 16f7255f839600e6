import CorpusFeed.HierarchyPath
import Mathlib.Data.List.Destutter
import Mathlib.Data.List.TakeWhile
import Mathlib.Data.List.Induction

/-! The stack of section titles that the flat links of a `TEXTELR` record
leave, beside the links that are still open after them. -/

namespace CorpusFeed

def linkTitle (link : TextStructLink) : Text := (nonEmptyText link.text).getD []

def linkLevel (link : TextStructLink) : Nat := (link.level.getD 0).toNat

/-- A section link with a title and a level. -/
def Titled (link : TextStructLink) : Prop := nonEmptyText link.text ≠ none ∧ 0 < linkLevel link

/-- The stack that the loop of `text_struct_hierarchy_from_links` leaves. -/
def structuralStack (links : List TextStructLink) : List Text := links.foldl pushLink []

/-- The links that no later link closes. -/
def enclosing : List TextStructLink → List TextStructLink
  | [] => []
  | link :: later =>
    if later.all fun next => decide (linkLevel link < linkLevel next) then link :: enclosing later
    else enclosing later

/-- The titles of the links, each one once in a row. -/
def shownTitles (links : List TextStructLink) : List Text := (links.map linkTitle).destutter (· ≠ ·)

def pushTitle (stack : List Text) (title : Text) : List Text :=
  if stack.getLast? = some title then stack else stack ++ [title]

variable {links : List TextStructLink} {link : TextStructLink}

theorem pushLink_titled (stack : List Text) (h : Titled link) :
    pushLink stack link = pushTitle (stack.take (linkLevel link - 1)) (linkTitle link) := by
  obtain ⟨htitle, hlevel⟩ := h
  obtain ⟨title, ht⟩ := Option.ne_none_iff_exists'.mp htitle
  have hl : ∃ level, link.level = some level ∧ 0 < level := by
    cases hlink : link.level with
    | none => simp [linkLevel, hlink] at hlevel
    | some level =>
      simp only [linkLevel, hlink, Option.getD_some] at hlevel
      exact ⟨level, rfl, by omega⟩
  obtain ⟨level, hlink, hpos⟩ := hl
  have hfilter : (some level).filter (fun level => decide (0 < level)) = some level := by
    rw [Option.filter_some, if_pos (decide_eq_true hpos)]
  simp only [pushLink, pushTitle, linkTitle, linkLevel, ht, hlink, hfilter, Option.getD_some]

theorem structuralStack_snoc (links : List TextStructLink) (h : Titled link) :
    structuralStack (links ++ [link]) =
      pushTitle ((structuralStack links).take (linkLevel link - 1)) (linkTitle link) := by
  unfold structuralStack
  rw [List.foldl_append, List.foldl_cons, List.foldl_nil, pushLink_titled _ h]

theorem destutter'_snoc (a b : Text) (l : List Text) :
    (l ++ [b]).destutter' (· ≠ ·) a = pushTitle (l.destutter' (· ≠ ·) a) b := by
  induction l generalizing a with
  | nil =>
    by_cases h : a = b
    · simp [pushTitle, h]
    · simp [pushTitle, h]
  | cons c l ih =>
    by_cases h : a = c
    · simp only [List.cons_append, ne_eq, h, not_true_eq_false, not_false_eq_true, List.destutter'_cons_neg]
      exact ih c
    · simp only [List.cons_append, ne_eq, h, not_false_eq_true, List.destutter'_cons_pos]
      have hne : l.destutter' (fun x y => ¬ x = y) c ≠ [] := List.destutter'_ne_nil l _
      have hlast : (a :: l.destutter' (fun x y => ¬ x = y) c).getLast? =
          (l.destutter' (fun x y => ¬ x = y) c).getLast? := by
        cases hl : l.destutter' (fun x y => ¬ x = y) c with
        | nil => exact absurd hl hne
        | cons d m => simp
      have hcons := ih c
      simp only [ne_eq] at hcons
      rw [hcons]
      unfold pushTitle
      rw [hlast]
      split <;> rfl

@[simp] theorem shownTitles_nil : shownTitles [] = [] := rfl

theorem shownTitles_snoc (links : List TextStructLink) (link : TextStructLink) :
    shownTitles (links ++ [link]) = pushTitle (shownTitles links) (linkTitle link) := by
  unfold shownTitles
  rw [List.map_append]
  cases links with
  | nil => rfl
  | cons first rest => exact destutter'_snoc _ _ _

@[simp] theorem enclosing_nil : enclosing [] = [] := rfl

theorem enclosing_sublist (links : List TextStructLink) : (enclosing links).Sublist links := by
  induction links with
  | nil => exact List.Sublist.slnil
  | cons link later ih =>
    rw [enclosing]
    split
    · exact ih.cons_cons link
    · exact ih.cons link

theorem enclosing_snoc (links : List TextStructLink) (link : TextStructLink) :
    enclosing (links ++ [link]) =
      (enclosing links).filter (fun outer => decide (linkLevel outer < linkLevel link)) ++ [link] := by
  induction links with
  | nil => rfl
  | cons first later ih =>
    rw [List.cons_append, enclosing, enclosing, ih, List.all_append, List.all_cons, List.all_nil, Bool.and_true]
    by_cases hall : later.all fun next => decide (linkLevel first < linkLevel next)
    · by_cases hlink : linkLevel first < linkLevel link
      · simp [hall, hlink]
      · simp [hall, hlink]
    · simp [hall]

theorem enclosing_pairwise (links : List TextStructLink) :
    (enclosing links).Pairwise fun outer inner => linkLevel outer < linkLevel inner := by
  induction links with
  | nil => exact List.Pairwise.nil
  | cons link later ih =>
    rw [enclosing]
    split
    · next hall =>
      refine List.Pairwise.cons ?_ ih
      intro inner hinner
      exact of_decide_eq_true (List.all_eq_true.mp hall inner ((enclosing_sublist later).subset hinner))
    · exact ih

theorem filter_of_growing (level : Nat)
    (h : links.Pairwise fun outer inner => linkLevel outer < linkLevel inner) :
    links.filter (fun link => decide (linkLevel link < level)) <+: links := by
  induction links with
  | nil => exact List.prefix_rfl
  | cons link inner ih =>
    rw [List.pairwise_cons] at h
    by_cases hlink : linkLevel link < level
    · rw [List.filter_cons_of_pos (by simpa using hlink)]
      exact (List.prefix_cons_inj link).mpr (ih h.2)
    · rw [List.filter_cons_of_neg (by simpa using hlink)]
      have hnone : inner.filter (fun link => decide (linkLevel link < level)) = [] := by
        rw [List.filter_eq_nil_iff]
        intro next hnext
        have hgrow := h.1 next hnext
        simp only [decide_eq_true_eq]
        omega
      rw [hnone]
      exact List.nil_prefix

end CorpusFeed
