import CorpusFeed.EnclosingSections
import Mathlib.Data.List.Sublists

/-! Which links a stack without repeated titles shows, by the depth at which
each of them was pushed. -/

namespace CorpusFeed

variable {links : List TextStructLink} {link : TextStructLink}

/-- The depth of the stack after a link, for a title that is not on top. -/
def nextDepth (depth : Nat) (link : TextStructLink) : Nat := min (depth + 1) (linkLevel link)

/-- The links still on the stack at the end, when the first one meets `depth`
titles. -/
def survivors (depth : Nat) : List TextStructLink → List TextStructLink
  | [] => []
  | link :: later =>
    if later.all fun next => decide (nextDepth depth link < linkLevel next) then
      link :: survivors (nextDepth depth link) later
    else survivors (nextDepth depth link) later

def linkStack (stack links : List TextStructLink) : List TextStructLink :=
  links.foldl (fun stack link => stack.take (linkLevel link - 1) ++ [link]) stack

/-- How much of a stack is left under the links that follow. -/
def leastCut (depth : Nat) (links : List TextStructLink) : Nat :=
  links.foldr (fun link cut => min (linkLevel link - 1) cut) depth

theorem leastCut_le (depth : Nat) (links : List TextStructLink) : leastCut depth links ≤ depth := by
  induction links with
  | nil => exact Nat.le_refl depth
  | cons link later ih => exact (Nat.min_le_right _ _).trans ih

theorem le_leastCut {depth bound : Nat} :
    bound ≤ leastCut depth links ↔ bound ≤ depth ∧ ∀ link ∈ links, bound ≤ linkLevel link - 1 := by
  induction links with
  | nil => simp [leastCut]
  | cons link later ih =>
    have hcons : leastCut depth (link :: later) = min (linkLevel link - 1) (leastCut depth later) := rfl
    rw [hcons, Nat.le_min, ih, List.forall_mem_cons]
    tauto

theorem leastCut_kept {depth : Nat} (h : ∀ next ∈ links, nextDepth depth link < linkLevel next) :
    leastCut (nextDepth depth link) links = nextDepth depth link ∧
      min depth (linkLevel link - 1) ≤ leastCut depth links := by
  constructor
  · apply le_antisymm (leastCut_le _ _)
    rw [le_leastCut]
    refine ⟨le_refl _, fun next hnext => ?_⟩
    have hnext := h next hnext
    omega
  · rw [le_leastCut]
    refine ⟨Nat.min_le_left _ _, fun next hnext => ?_⟩
    have hnext := h next hnext
    unfold nextDepth at hnext
    omega

theorem leastCut_cut {depth : Nat} (hlevel : 0 < linkLevel link)
    (h : ∃ next ∈ links, linkLevel next ≤ nextDepth depth link) :
    leastCut (nextDepth depth link) links = min (linkLevel link - 1) (leastCut depth links) ∧
      leastCut (nextDepth depth link) links < nextDepth depth link := by
  obtain ⟨next, hnext, hcut⟩ := h
  have hpos : 0 < nextDepth depth link := by
    unfold nextDepth
    omega
  constructor
  · apply eq_of_forall_le_iff
    intro bound
    rw [Nat.le_min, le_leastCut, le_leastCut]
    constructor
    · rintro ⟨_, hall⟩
      have hbound := hall next hnext
      unfold nextDepth at hcut hpos
      exact ⟨by omega, by omega, hall⟩
    · rintro ⟨hlink, hdepth, hall⟩
      refine ⟨?_, hall⟩
      unfold nextDepth
      omega
  · have hall := (le_leastCut.mp (le_refl (leastCut (nextDepth depth link) links))).2
    have hbound := hall next hnext
    omega

/-- The stack after the links: what they leave of it, and the links that stay. -/
theorem linkStack_eq (stack : List TextStructLink) (h : ∀ link ∈ links, Titled link) :
    linkStack stack links = stack.take (leastCut stack.length links) ++ survivors stack.length links := by
  induction links generalizing stack with
  | nil => simp [linkStack, leastCut, survivors]
  | cons link later ih =>
    have hlater : ∀ next ∈ later, Titled next := fun next hnext => h next (List.mem_cons_of_mem _ hnext)
    have hlevel : 0 < linkLevel link := (h link List.mem_cons_self).2
    have hlen : (stack.take (linkLevel link - 1) ++ [link]).length = nextDepth stack.length link := by
      simp only [List.length_append, List.length_take, List.length_singleton, nextDepth]
      omega
    have hstep : linkStack stack (link :: later) = linkStack (stack.take (linkLevel link - 1) ++ [link]) later := rfl
    have hcut : leastCut stack.length (link :: later) = min (linkLevel link - 1) (leastCut stack.length later) := rfl
    rw [hstep, ih _ hlater, hlen, survivors, hcut]
    by_cases hall : ∀ next ∈ later, nextDepth stack.length link < linkLevel next
    · obtain ⟨hkept, hroom⟩ := leastCut_kept hall
      have htake : stack.take (min (linkLevel link - 1) (leastCut stack.length later)) =
          stack.take (linkLevel link - 1) := by
        rw [List.take_eq_take_iff]
        omega
      rw [hkept, ← hlen, List.take_length, hlen, htake, if_pos (by simpa using hall), List.append_assoc,
        List.singleton_append]
    · have hsome : ∃ next ∈ later, linkLevel next ≤ nextDepth stack.length link := by simpa using hall
      obtain ⟨heq, hlt⟩ := leastCut_cut hlevel hsome
      have hshort : leastCut (nextDepth stack.length link) later ≤ (stack.take (linkLevel link - 1)).length := by
        rw [List.length_append, List.length_singleton] at hlen
        omega
      rw [List.take_append_of_le_length hshort, List.take_take, if_neg (by simpa using hall), heq]
      congr 2
      omega

theorem linkStack_nil (h : ∀ link ∈ links, Titled link) : linkStack [] links = survivors 0 links := by
  rw [linkStack_eq [] h]
  simp

theorem linkStack_snoc (stack links : List TextStructLink) (link : TextStructLink) :
    linkStack stack (links ++ [link]) = (linkStack stack links).take (linkLevel link - 1) ++ [link] := by
  simp [linkStack]

theorem survivors_subset (depth : Nat) (links : List TextStructLink) : survivors depth links ⊆ links := by
  induction links generalizing depth with
  | nil => exact List.Subset.refl _
  | cons link later ih =>
    rw [survivors]
    split
    · exact List.cons_subset_cons link (ih _)
    · exact List.subset_cons_of_subset link (ih _)

/-- Where no title repeats, the titles shown are those of the links on the stack. -/
theorem structuralStack_distinct (h : ∀ link ∈ links, Titled link) (hdistinct : (links.map linkTitle).Nodup) :
    structuralStack links = (survivors 0 links).map linkTitle := by
  induction links using List.reverseRecOn with
  | nil => rfl
  | append_singleton links link ih =>
    have hbefore : ∀ earlier ∈ links, Titled earlier := fun earlier he => h earlier (List.mem_append_left _ he)
    rw [List.map_append, List.nodup_append] at hdistinct
    rw [structuralStack_snoc links (h link (by simp)), ih hbefore hdistinct.1, ← linkStack_nil h, linkStack_snoc,
      linkStack_nil hbefore, ← List.map_take, pushTitle, if_neg, List.map_append, List.map_singleton]
    intro hlast
    have hmem := List.mem_of_getLast? hlast
    obtain ⟨earlier, hearlier, htitle⟩ := List.mem_map.mp hmem
    have hin := survivors_subset 0 links (List.mem_of_mem_take hearlier)
    exact hdistinct.2.2 _ (List.mem_map_of_mem hin) (linkTitle link) (by simp) htitle

theorem enclosing_sublist_survivors (depth : Nat) (links : List TextStructLink) :
    (enclosing links).Sublist (survivors depth links) := by
  induction links generalizing depth with
  | nil => exact List.Sublist.slnil
  | cons link later ih =>
    rw [enclosing, survivors]
    by_cases hopen : ∀ next ∈ later, linkLevel link < linkLevel next
    · have hstays : ∀ next ∈ later, nextDepth depth link < linkLevel next := by
        intro next hnext
        have hlevel := hopen next hnext
        unfold nextDepth
        omega
      rw [if_pos (by simpa using hopen), if_pos (by simpa using hstays)]
      exact (ih _).cons_cons link
    · rw [if_neg (by simpa using hopen)]
      split
      · exact (ih _).cons link
      · exact ih _

def depthAfter (depth : Nat) (links : List TextStructLink) : Nat := links.foldl nextDepth depth

/-- The same links stay on the stack and open if every link that is closed is
also cut. -/
theorem survivors_eq_enclosing_iff (depth : Nat) (links : List TextStructLink) :
    survivors depth links = enclosing links ↔
      ∀ before link after, links = before ++ link :: after → (∃ next ∈ after, linkLevel next ≤ linkLevel link) →
        ∃ next ∈ after, linkLevel next ≤ depthAfter depth (before ++ [link]) := by
  induction links generalizing depth with
  | nil =>
    refine iff_of_true rfl ?_
    intro before link after hsplit
    simp at hsplit
  | cons first later ih =>
    have htail := ih (nextDepth depth first)
    have hsplit : (∀ before link after, first :: later = before ++ link :: after →
        (∃ next ∈ after, linkLevel next ≤ linkLevel link) →
          ∃ next ∈ after, linkLevel next ≤ depthAfter depth (before ++ [link])) ↔
        ((∃ next ∈ later, linkLevel next ≤ linkLevel first) →
          ∃ next ∈ later, linkLevel next ≤ nextDepth depth first) ∧
        survivors (nextDepth depth first) later = enclosing later := by
      rw [htail]
      constructor
      · intro h
        refine ⟨h [] first later rfl, fun before link after hlater => ?_⟩
        have hcons := h (first :: before) link after (by rw [hlater, List.cons_append])
        exact hcons
      · rintro ⟨hfirst, hlater⟩ before link after hcons
        cases before with
        | nil =>
          obtain ⟨rfl, rfl⟩ := List.cons.inj hcons
          exact hfirst
        | cons head before =>
          obtain ⟨rfl, hrest⟩ := List.cons.inj hcons
          exact hlater before link after hrest
    rw [hsplit, survivors, enclosing]
    have hsub := enclosing_sublist_survivors (nextDepth depth first) later
    by_cases hstays : ∀ next ∈ later, nextDepth depth first < linkLevel next
    · have hnocut : ¬ ∃ next ∈ later, linkLevel next ≤ nextDepth depth first := by simpa using hstays
      rw [if_pos (by simpa using hstays)]
      by_cases hopen : ∀ next ∈ later, linkLevel first < linkLevel next
      · have hnoclose : ¬ ∃ next ∈ later, linkLevel next ≤ linkLevel first := by simpa using hopen
        rw [if_pos (by simpa using hopen), List.cons_inj_right]
        exact ⟨fun h => ⟨fun hc => absurd hc hnoclose, h⟩, fun h => h.2⟩
      · have hclose : ∃ next ∈ later, linkLevel next ≤ linkLevel first := by simpa using hopen
        rw [if_neg (by simpa using hopen)]
        constructor
        · intro heq
          have hlen := congrArg List.length heq
          have hle := hsub.length_le
          simp only [List.length_cons] at hlen
          omega
        · intro h
          exact absurd (h.1 hclose) hnocut
    · have hcut : ∃ next ∈ later, linkLevel next ≤ nextDepth depth first := by simpa using hstays
      have hclose : ∃ next ∈ later, linkLevel next ≤ linkLevel first := by
        obtain ⟨next, hnext, hle⟩ := hcut
        refine ⟨next, hnext, hle.trans ?_⟩
        exact Nat.min_le_right _ _
      have hopen : ¬ ∀ next ∈ later, linkLevel first < linkLevel next := by simpa using hclose
      rw [if_neg (by simpa using hstays), if_neg (by simpa using hopen)]
      exact ⟨fun h => ⟨fun _ => hcut, h⟩, fun h => h.2⟩

/-- A level that the stack reaches after the links: there are as many links,
and none of them cut it too far back. -/
def Reaches (links : List TextStructLink) (level : Nat) : Prop :=
  level ≤ links.length ∧ ∀ before link after, links = before ++ link :: after → level ≤ linkLevel link + after.length

theorem le_depthAfter_iff (level : Nat) (links : List TextStructLink) :
    level ≤ depthAfter 0 links ↔ Reaches links level := by
  induction links using List.reverseRecOn generalizing level with
  | nil =>
    simp [depthAfter, Reaches]
  | append_singleton links link ih =>
    have hdepth : depthAfter 0 (links ++ [link]) = min (depthAfter 0 links + 1) (linkLevel link) := by
      simp [depthAfter, nextDepth]
    have hless : level ≤ depthAfter 0 links + 1 ↔ Reaches links (level - 1) := by
      rw [← ih]
      omega
    rw [hdepth, Nat.le_min, hless]
    constructor
    · rintro ⟨⟨hlen, hall⟩, hlink⟩
      refine ⟨by simp; omega, fun before outer after hsplit => ?_⟩
      rcases List.eq_nil_or_concat after with rfl | ⟨after, last, rfl⟩
      · have heq := List.append_inj_right' hsplit rfl
        obtain ⟨rfl, _⟩ := List.cons.inj heq
        omega
      · rw [List.concat_eq_append, ← List.cons_append, ← List.append_assoc] at hsplit
        have hinit := List.append_inj_left' hsplit rfl
        have hbound := hall before outer after hinit
        simp
        omega
    · rintro ⟨hlen, hall⟩
      refine ⟨⟨?_, fun before outer after hsplit => ?_⟩, ?_⟩
      · simp at hlen
        omega
      · have hbound := hall before outer (after ++ [link]) (by simp [hsplit])
        simp at hbound
        omega
      · have hbound := hall links link [] rfl
        simpa using hbound

theorem shownTitles_distinct (hdistinct : (links.map linkTitle).Nodup) : shownTitles links = links.map linkTitle := by
  unfold shownTitles
  exact List.destutter_of_isChain _ _ hdistinct.isChain

/-- With distinct titles, the stack shows the last link and its enclosing
links if every link that is closed is cut by a link within reach. -/
theorem structuralStack_iff (h : ∀ link ∈ links, Titled link) (hdistinct : (links.map linkTitle).Nodup) :
    structuralStack links = shownTitles (enclosing links) ↔
      ∀ before link after, links = before ++ link :: after → (∃ next ∈ after, linkLevel next ≤ linkLevel link) →
        ∃ next ∈ after, Reaches (before ++ [link]) (linkLevel next) := by
  have hopen : ((enclosing links).map linkTitle).Nodup :=
    hdistinct.sublist ((enclosing_sublist links).map linkTitle)
  have htitles : (survivors 0 links).map linkTitle = (enclosing links).map linkTitle ↔
      survivors 0 links = enclosing links := by
    constructor
    · intro heq
      have hlen := congrArg List.length heq
      rw [List.length_map, List.length_map] at hlen
      exact ((enclosing_sublist_survivors 0 links).eq_of_length hlen.symm).symm
    · intro heq
      rw [heq]
  rw [structuralStack_distinct h hdistinct, shownTitles_distinct hopen, htitles, survivors_eq_enclosing_iff]
  simp only [le_depthAfter_iff]

theorem mergeHierarchyWithOverlap_eq (base suffix : List Text) :
    ∃ kept, kept <+: base ∧ mergeHierarchyWithOverlap base suffix = kept ++ suffix := by
  unfold mergeHierarchyWithOverlap
  dsimp only
  cases hfind : (List.range (min base.length suffix.length + 1)).reverse.find? fun overlap =>
      base.drop (base.length - overlap) == suffix.take overlap with
  | none => exact ⟨base, List.prefix_rfl, by simp⟩
  | some overlap =>
    have hsame : base.drop (base.length - overlap) = suffix.take overlap := by
      simpa using List.find?_some hfind
    refine ⟨base.take (base.length - overlap), List.take_prefix _ _, ?_⟩
    calc base ++ suffix.drop overlap
        = base.take (base.length - overlap) ++ base.drop (base.length - overlap) ++ suffix.drop overlap := by
          rw [List.take_append_drop]
      _ = base.take (base.length - overlap) ++ suffix := by
          rw [hsame, List.append_assoc, List.take_append_drop]

theorem structuralStack_ne_nil (h : ∀ link ∈ links, Titled link) (hne : links ≠ []) : structuralStack links ≠ [] := by
  rcases List.eq_nil_or_concat links with rfl | ⟨before, link, rfl⟩
  · exact absurd rfl hne
  · rw [List.concat_eq_append] at h ⊢
    rw [structuralStack_snoc before (h link (by simp))]
    exact pushTitle_ne_nil _ _

/-- The path ends in the stack, and what stands before it comes from the
section's own path, which starts with the section's ancestors. -/
theorem textStructHierarchy_eq (root : SectionTa) (h : ∀ link ∈ links, Titled link) (hne : links ≠ []) :
    ∃ kept, kept <+: sectionHierarchy root ∧
      textStructHierarchy root links = some (kept ++ structuralStack links) := by
  unfold textStructHierarchy
  dsimp only
  have hstack : links.foldl pushLink [] ≠ [] := structuralStack_ne_nil h hne
  rw [if_neg hstack]
  obtain ⟨kept, hprefix, heq⟩ := mergeHierarchyWithOverlap_eq
    (if (sectionHierarchy root).getLast? = some root.title then (sectionHierarchy root).dropLast
      else sectionHierarchy root) (structuralStack links)
  refine ⟨kept, hprefix.trans ?_, congrArg some heq⟩
  split
  · exact List.dropLast_prefix _
  · exact List.prefix_rfl

/-- The structural part of the path is the stack of the links. It shows the
last link and its enclosing links at every link of a flat list if and only if
each link cuts it where its level says; for one list of distinct titles, if
and only if each link that is closed is cut by a link within the reach of the
stack. -/
theorem text_struct_enclosing_iff (links : List TextStructLink) (h : ∀ link ∈ links, Titled link) :
    (links ≠ [] → ∀ root, ∃ kept, kept <+: sectionHierarchy root ∧
        textStructHierarchy root links = some (kept ++ structuralStack links)) ∧
      ((∀ before, before <+: links → structuralStack before = shownTitles (enclosing before)) ↔
        ∀ before link after, links = before ++ link :: after → CutsAtLevel before link) ∧
      ((links.map linkTitle).Nodup →
        (structuralStack links = shownTitles (enclosing links) ↔
          ∀ before link after, links = before ++ link :: after → (∃ next ∈ after, linkLevel next ≤ linkLevel link) →
            ∃ next ∈ after, Reaches (before ++ [link]) (linkLevel next))) :=
  ⟨fun hne root => textStructHierarchy_eq root h hne, structuralStack_prefixes_iff h, structuralStack_iff h⟩

def sectionLink (level : Int) (title : String) : TextStructLink :=
  ⟨"LIEN_SECTION_TA".toList, none, some level, some title.toList, []⟩

def codeSection : SectionTa := ⟨"section".toList, none, "Titre".toList, none, none, ["Code".toList]⟩

def siblingLinks : List TextStructLink :=
  [sectionLink 1 "Livre I", sectionLink 2 "Titre I", sectionLink 2 "Titre II"]

/-- Two sections of level 2 under a book: the second one closes the first, and
cuts it. -/
theorem sibling_links_path :
    (∀ before link after, siblingLinks = before ++ link :: after →
        (∃ next ∈ after, linkLevel next ≤ linkLevel link) →
          ∃ next ∈ after, Reaches (before ++ [link]) (linkLevel next)) ∧
      ∃ kept, kept <+: sectionHierarchy codeSection ∧
        textStructHierarchy codeSection siblingLinks = some (kept ++ structuralStack siblingLinks) := by
  have htitled : ∀ link ∈ siblingLinks, Titled link := by
    unfold Titled
    decide +kernel
  have hdistinct : (siblingLinks.map linkTitle).Nodup := by decide +kernel
  have hshown : structuralStack siblingLinks = shownTitles (enclosing siblingLinks) := by decide +kernel
  have hpath := text_struct_enclosing_iff siblingLinks htitled
  exact ⟨(hpath.2.2 hdistinct).mp hshown, hpath.1 (by decide +kernel) codeSection⟩

def gapLinks : List TextStructLink :=
  [sectionLink 1 "Livre I", sectionLink 3 "Section 1", sectionLink 3 "Section 2"]

/-- Levels 1, 3 and 3: the closed sibling stays in the path as an ancestor. -/
theorem level_gap_keeps_sibling :
    textStructHierarchy codeSection gapLinks =
        some ["Code".toList, "Livre I".toList, "Section 1".toList, "Section 2".toList] ∧
      shownTitles (enclosing gapLinks) = ["Livre I".toList, "Section 2".toList] ∧
      structuralStack gapLinks ≠ shownTitles (enclosing gapLinks) := by
  decide +kernel

end CorpusFeed
