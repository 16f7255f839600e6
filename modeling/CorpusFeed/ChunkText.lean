import CorpusFeed.BodyText
import CorpusFeed.ChunkBuilders

/-! What the two splitters do with the text of a body: the units of an article are
packed into consecutive ranges, and the paragraphs of a decision into pieces. -/

namespace CorpusFeed

theorem intercalate_append {sep : Text} {parts more : List Text} (hparts : parts ≠ []) (hmore : more ≠ []) :
    sep.intercalate (parts ++ more) = sep.intercalate parts ++ sep ++ sep.intercalate more := by
  induction parts with
  | nil => exact absurd rfl hparts
  | cons first rest ih =>
    by_cases hrest : rest = []
    · simp [hrest, List.intercalate_cons_of_ne_nil hmore]
    · rw [List.cons_append, List.intercalate_cons_of_ne_nil (by simp [hrest]), ih hrest,
        List.intercalate_cons_of_ne_nil hrest]
      simp

theorem intercalate_flatten {sep : Text} {groups : List (List Text)} (hgroups : ∀ group ∈ groups, group ≠ []) :
    sep.intercalate (groups.map sep.intercalate) = sep.intercalate groups.flatten := by
  induction groups with
  | nil => simp
  | cons group groups ih =>
    have hgroup := hgroups group List.mem_cons_self
    have htail := ih fun g hg => hgroups g (List.mem_cons_of_mem group hg)
    by_cases hne : groups = []
    · simp [hne]
    · obtain ⟨second, others, rfl⟩ := List.exists_cons_of_ne_nil hne
      have hflat : (second :: others).flatten ≠ [] := fun he =>
        hgroups second (by simp) (List.flatten_eq_nil_iff.mp he second List.mem_cons_self)
      rw [List.flatten_cons, intercalate_append hgroup hflat, ← htail, List.map_cons,
        List.intercalate_cons_of_ne_nil (by simp)]

section Units

variable {body : Text}

theorem mem_splitOn_tidy (h : Tidy body) (hne : body ≠ []) :
    ∀ unit ∈ body.splitOn '\n', unit ≠ [] ∧ Tidy unit := by
  refine Tidy.parts ?_ ?_
  · rwa [List.intercalate_splitOn]
  · rwa [List.intercalate_splitOn]

theorem structuralArticleBodyUnits_eq (h : Tidy body) (hne : body ≠ []) :
    structuralArticleBodyUnits body = body.splitOn '\n' := by
  have hunits := mem_splitOn_tidy h hne
  have hlast : (body.splitOn '\n').getLast? ≠ some [] := fun he =>
    (hunits [] (List.mem_of_getLast? he)).1 rfl
  have hplain : ∀ unit ∈ body.splitOn '\n', stripCarriageReturn unit = unit := by
    intro unit hunit
    rw [stripCarriageReturn, if_neg]
    intro hreturn
    exact absurd ((hunits unit hunit).2.last _ hreturn) (by decide)
  have htrim : ∀ unit ∈ body.splitOn '\n', trim unit = unit := fun unit hunit => (hunits unit hunit).2.trim_eq
  rw [structuralArticleBodyUnits, lines]
  simp only [hlast, if_false]
  rw [List.map_congr_left hplain, List.map_id', List.map_congr_left htrim, List.map_id', List.filter_eq_self]
  intro unit hunit
  simpa using (hunits unit hunit).1

theorem join_structuralArticleBodyUnits (h : Tidy body) (hne : body ≠ []) :
    ['\n'].intercalate (structuralArticleBodyUnits body) = body := by
  rw [structuralArticleBodyUnits_eq h hne, List.intercalate_splitOn]

end Units

section Packing

variable {document : CanonicalDocument} {context : Text}

/-- The chunks of consecutive groups of units, the first of which has the number
`start`. -/
def alineaChunks (document : CanonicalDocument) (context : Text) (index start : Nat) :
    List (List Text) → List CanonicalChunk
  | [] => []
  | units :: groups => alineaChunk document context index units start (start + units.length - 1) ::
      alineaChunks document context (index + 1) (start + units.length) groups

/-- A group that the ceiling allows: the text fits, or it cannot be split. -/
def GroupFits (context : Text) (units : List Text) : Prop :=
  units.length = 1 ∨
    (contextualized context (joinArticleBodyUnits units none)).length ≤ legiArticleContextualizedChunkMaxChars

theorem joinArticleBodyUnits_some {units : List Text} {unit : Text} (hne : units ≠ [])
    (hunits : ∀ u ∈ units, u ≠ []) :
    joinArticleBodyUnits units (some unit) = joinArticleBodyUnits (units ++ [unit]) none := by
  obtain ⟨first, rest, rfl⟩ := List.exists_cons_of_ne_nil hne
  have hfirst := hunits first List.mem_cons_self
  have hjoin : ['\n'].intercalate (first :: rest) ≠ [] := by
    cases rest with
    | nil => simpa using hfirst
    | cons second rest => simp [List.intercalate_cons_cons]
  rw [joinArticleBodyUnits, joinArticleBodyUnits]
  simp only [List.isEmpty_iff, hjoin, if_false]
  rw [intercalate_append (by simp) (by simp)]
  simp

theorem packUnits_groups {chunks : List CanonicalChunk} {current rest : List Text} {start index : Nat}
    (hindex : index + 1 = start + current.length) (hfits : current ≠ [] → GroupFits context current)
    (hcurrent : ∀ unit ∈ current, unit ≠ []) (hrest : ∀ unit ∈ rest, unit ≠ []) :
    ∃ groups, groups.flatten = current ++ rest ∧ (∀ group ∈ groups, group ≠ [] ∧ GroupFits context group) ∧
      packUnits document context chunks current start index rest =
        chunks ++ alineaChunks document context chunks.length start groups := by
  induction rest generalizing chunks current start index with
  | nil =>
    by_cases he : current = []
    · exact ⟨[], by simp [he], by simp, by simp [packUnits, he, alineaChunks]⟩
    · have hstop : start + current.length - 1 = index := by omega
      exact ⟨[current], by simp, by simpa using ⟨he, hfits he⟩, by simp [packUnits, he, alineaChunks, hstop]⟩
  | cons unit rest ih =>
    have hunit := hrest unit List.mem_cons_self
    have htail := fun u hu => hrest u (List.mem_cons_of_mem unit hu)
    rw [packUnits]
    split
    · next hfull =>
      have he : current ≠ [] := by
        intro he
        simp [he] at hfull
      obtain ⟨groups, hflat, hgroups, hpack⟩ := @ih
        (chunks ++ [alineaChunk document context chunks.length current start index]) [unit] (index + 1) (index + 1)
        rfl (fun _ => Or.inl rfl) (by simpa using hunit) htail
      have hstop : start + current.length - 1 = index := by omega
      have hnext : start + current.length = index + 1 := hindex.symm
      refine ⟨current :: groups, by simp [hflat], ?_, ?_⟩
      · intro group hgroup
        rcases List.mem_cons.mp hgroup with rfl | hgroup
        · exact ⟨he, hfits he⟩
        · exact hgroups group hgroup
      · rw [hpack, alineaChunks, hstop, hnext]
        simp
    · next hroom =>
      have hgrown : ∀ u ∈ current ++ [unit], u ≠ [] := by
        intro u hu
        rcases List.mem_append.mp hu with hu | hu
        · exact hcurrent u hu
        · rwa [List.mem_singleton.mp hu]
      have hgrownFits : GroupFits context (current ++ [unit]) := by
        by_cases he : current = []
        · exact Or.inl (by simp [he])
        · have hle : (contextualized context (joinArticleBodyUnits current (some unit))).length ≤
              legiArticleContextualizedChunkMaxChars := by
            simpa [he] using hroom
          exact Or.inr (by rwa [joinArticleBodyUnits_some he hcurrent] at hle)
      have hlength : index + 1 + 1 = start + (current ++ [unit]).length := by
        rw [List.length_append, List.length_singleton]
        omega
      obtain ⟨groups, hflat, hgroups, hpack⟩ := @ih chunks (current ++ [unit]) start (index + 1) hlength
        (fun _ => hgrownFits) hgrown htail
      exact ⟨groups, by simp [hflat], hgroups, hpack⟩

theorem buildArticleChunks_cases (h : Tidy document.body) (hne : document.body ≠ []) :
    (buildArticleChunks document = [wholeArticleChunk document] ∧
      ((structuralArticleBodyUnits document.body).length = 1 ∨
        (contextualized (articleChunkContext document) document.body).length ≤
          legiArticleContextualizedChunkMaxChars)) ∨
    ∃ groups, 2 ≤ groups.length ∧ groups.flatten = structuralArticleBodyUnits document.body ∧
      (∀ group ∈ groups, group ≠ [] ∧ GroupFits (articleChunkContext document) group) ∧
      buildArticleChunks document = alineaChunks document (articleChunkContext document) 0 1 groups := by
  have hjoin := join_structuralArticleBodyUnits h hne
  have hunits : ∀ unit ∈ structuralArticleBodyUnits document.body, unit ≠ [] := fun unit hunit => by
    rw [structuralArticleBodyUnits_eq h hne] at hunit
    exact (mem_splitOn_tidy h hne unit hunit).1
  obtain ⟨groups, hflat, hgroups, hpack⟩ := @packUnits_groups document (articleChunkContext document) [] [] _ 1 0 rfl
    (fun he => absurd rfl he) (by simp) hunits
  rw [List.nil_append] at hflat hpack
  have hlength : (alineaChunks document (articleChunkContext document) 0 1 groups).length = groups.length := by
    generalize 0 = index
    generalize 1 = start
    clear hflat hgroups hpack
    induction groups generalizing index start with
    | nil => rfl
    | cons units groups ih => simp [alineaChunks, ih]
  unfold buildArticleChunks
  dsimp only
  split
  · next hfits => exact Or.inl ⟨rfl, Or.inr hfits⟩
  split
  · next hfew =>
    refine Or.inl ⟨rfl, Or.inl ?_⟩
    have hpos : 0 < (structuralArticleBodyUnits document.body).length := by
      rw [structuralArticleBodyUnits_eq h hne]
      exact List.length_pos_of_ne_nil (List.splitOn_ne_nil '\n' document.body)
    omega
  · next hlong hmany =>
    rw [hpack, List.length_nil, hlength]
    split
    · next hone =>
      -- One group holds every unit, so the whole text would have fitted.
      exfalso
      have hgroup : ∃ group, groups = [group] := by
        cases groups with
        | nil =>
          rw [List.flatten_nil] at hflat
          simp [← hflat] at hmany
        | cons group others =>
          cases others with
          | nil => exact ⟨group, rfl⟩
          | cons second others =>
            simp only [List.length_cons] at hone
            omega
      obtain ⟨group, rfl⟩ := hgroup
      have hall : group = structuralArticleBodyUnits document.body := by simpa using hflat
      rcases (hgroups group List.mem_cons_self).2 with hsingle | hle
      · rw [hall] at hsingle
        omega
      · rw [hall, joinArticleBodyUnits] at hle
        simp only [hjoin] at hle
        omega
    · next hseveral => exact Or.inr ⟨groups, by omega, hflat, hgroups, rfl⟩

end Packing

end CorpusFeed
