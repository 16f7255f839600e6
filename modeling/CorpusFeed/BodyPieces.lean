import CorpusFeed.ChunkText

/-! The pieces of the body of a decision: packs of paragraphs, and the slices of a
paragraph that is too long for one. -/

namespace CorpusFeed

variable {maxChars : Nat} {t : Text}

section Slices

variable {n fuel : Nat}

theorem flatten_sliceChunks (hn : 0 < n) (hfuel : t.length ≤ fuel) : (sliceChunks n fuel t).flatten = t := by
  induction fuel generalizing t with
  | zero =>
    have he : t = [] := List.eq_nil_of_length_eq_zero (by omega)
    simp [he, sliceChunks]
  | succ fuel ih =>
    by_cases he : t = []
    · simp [he, sliceChunks]
    · have hpos : 0 < t.length := List.length_pos_of_ne_nil he
      have hrest : (t.drop n).length ≤ fuel := by
        rw [List.length_drop]
        omega
      rw [sliceChunks, if_neg (by simpa using he), List.flatten_cons, ih hrest, List.take_append_drop]

theorem length_sliceChunks {slice : Text} (h : slice ∈ sliceChunks n fuel t) : slice.length ≤ n := by
  induction fuel generalizing t with
  | zero => simp [sliceChunks] at h
  | succ fuel ih =>
    rw [sliceChunks] at h
    split at h
    · cases h
    · rcases List.mem_cons.mp h with rfl | h
      · rw [List.length_take]
        omega
      · exact ih h

/-- A slice of two characters or more holds one that is no white space, and a
slice of one is the last character of the text. -/
theorem isBlank_sliceChunks (hn : 2 ≤ n)
    (hapart : t.IsChain fun a b => isWhiteSpace a = false ∨ isWhiteSpace b = false)
    (hlast : ∀ c, t.getLast? = some c → isWhiteSpace c = false) {slice : Text} (h : slice ∈ sliceChunks n fuel t) :
    isBlank slice = false := by
  have hdark : ∀ c ∈ slice, isWhiteSpace c = false → isBlank slice = false := by
    intro c hc hdark
    rw [Bool.eq_false_iff]
    intro hblank
    rw [isBlank_iff.mp hblank c hc] at hdark
    cases hdark
  induction fuel generalizing t with
  | zero => simp [sliceChunks] at h
  | succ fuel ih =>
    rw [sliceChunks] at h
    split at h
    · cases h
    · next hne =>
      rcases List.mem_cons.mp h with rfl | h
      · cases t with
        | nil => simp at hne
        | cons a t =>
          cases t with
          | nil => exact hdark a (by rw [List.mem_take_iff_getElem]; exact ⟨0, by simp; omega, rfl⟩) (hlast a rfl)
          | cons b t =>
            obtain ⟨m, rfl⟩ : ∃ m, n = m + 2 := ⟨n - 2, by omega⟩
            rcases (List.isChain_cons_cons.mp hapart).1 with ha | hb
            · exact hdark a (by simp) ha
            · exact hdark b (by simp) hb
      · refine ih (hapart.suffix (List.drop_suffix n t)) (fun c hc => hlast c ?_) h
        by_cases hlong : n < t.length
        · rwa [List.getLast?_drop, if_neg (by omega)] at hc
        · rw [List.drop_eq_nil_of_le (by omega)] at hc
          cases hc

end Slices

theorem flatten_hardSplit : (hardSplit t maxChars).flatten = t :=
  flatten_sliceChunks (by omega) (Nat.le_refl _)

/-- What a group of consecutive pieces holds: paragraphs that were packed, or one
paragraph in slices. -/
def PieceGroup (maxChars : Nat) (group : List BodyPiece × List Text) : Prop :=
  (∃ piece, group.1 = [piece] ∧ piece.boundary = "paragraph".toList ∧ group.2 ≠ [] ∧
    piece.text = ['\n'].intercalate group.2 ∧ piece.text.length ≤ maxChars) ∨
  ∃ paragraph, group.2 = [paragraph] ∧ maxChars < paragraph.length ∧
    group.1 = (hardSplit paragraph maxChars).map fun text => ⟨text, "hard_split".toList⟩

/-- The pieces hold the paragraphs, each in its place. -/
def PiecesOf (maxChars : Nat) (pieces : List BodyPiece) (paragraphs : List Text) : Prop :=
  ∃ groups : List (List BodyPiece × List Text), (∀ group ∈ groups, PieceGroup maxChars group) ∧
    groups.flatMap Prod.fst = pieces ∧ groups.flatMap Prod.snd = paragraphs

namespace PiecesOf

variable {pieces more : List BodyPiece} {paragraphs others held : List Text}

theorem nil : PiecesOf maxChars [] [] := ⟨[], by simp, rfl, rfl⟩

theorem group {group : List BodyPiece × List Text} (h : PieceGroup maxChars group) :
    PiecesOf maxChars group.1 group.2 :=
  ⟨[group], by simpa using h, by simp, by simp⟩

theorem append (h : PiecesOf maxChars pieces paragraphs) (h' : PiecesOf maxChars more others) :
    PiecesOf maxChars (pieces ++ more) (paragraphs ++ others) := by
  obtain ⟨groups, hgroups, rfl, rfl⟩ := h
  obtain ⟨groups', hgroups', rfl, rfl⟩ := h'
  refine ⟨groups ++ groups', fun group hgroup => ?_, by simp, by simp⟩
  rcases List.mem_append.mp hgroup with hgroup | hgroup
  · exact hgroups group hgroup
  · exact hgroups' group hgroup

theorem pack (hne : held ≠ []) (hroom : (['\n'].intercalate held).length ≤ maxChars) :
    PiecesOf maxChars [⟨['\n'].intercalate held, "paragraph".toList⟩] held :=
  @group _ ([⟨['\n'].intercalate held, "paragraph".toList⟩], held) (Or.inl ⟨_, rfl, rfl, hne, rfl, hroom⟩)

theorem slices {paragraph : Text} (hlong : maxChars < paragraph.length) :
    PiecesOf maxChars ((hardSplit paragraph maxChars).map fun text => ⟨text, "hard_split".toList⟩) [paragraph] :=
  @group _ (_, [paragraph]) (Or.inr ⟨paragraph, rfl, hlong, rfl⟩)

end PiecesOf

section Paragraphs

variable {held rest : List Text} {pieces : List BodyPiece}

theorem isEmpty_join (hheld : ∀ paragraph ∈ held, paragraph ≠ []) :
    (['\n'].intercalate held).isEmpty = true ↔ held = [] := by
  cases held with
  | nil => simp
  | cons first others =>
    have hfirst := hheld first List.mem_cons_self
    cases others with
    | nil => simpa using hfirst
    | cons second others => simp [List.intercalate_cons_cons]

theorem flushParagraphs_pieces (hheld : ∀ paragraph ∈ held, paragraph ≠ [])
    (hroom : (['\n'].intercalate held).length ≤ maxChars) :
    ∃ more, flushParagraphs (['\n'].intercalate held) pieces = pieces ++ more ∧ PiecesOf maxChars more held := by
  by_cases he : held = []
  · exact ⟨[], by simp [he, flushParagraphs], he ▸ PiecesOf.nil⟩
  · refine ⟨_, ?_, PiecesOf.pack he hroom⟩
    rw [flushParagraphs, if_neg (fun hempty => he ((isEmpty_join hheld).mp hempty))]

/-- The loop holds the paragraphs of a pack that is not full yet. -/
theorem splitParagraphs_pieces (hheld : ∀ paragraph ∈ held, paragraph ≠ [])
    (hrest : ∀ paragraph ∈ rest, paragraph ≠ []) (hroom : (['\n'].intercalate held).length ≤ maxChars) :
    ∃ more, splitParagraphs maxChars (['\n'].intercalate held) pieces rest = pieces ++ more ∧
      PiecesOf maxChars more (held ++ rest) := by
  induction rest generalizing held pieces with
  | nil =>
    rw [List.append_nil]
    exact flushParagraphs_pieces hheld hroom
  | cons paragraph rest ih =>
    have hparagraph := hrest paragraph List.mem_cons_self
    have htail := fun p hp => hrest p (List.mem_cons_of_mem paragraph hp)
    obtain ⟨flushed, hflush, hflushed⟩ := @flushParagraphs_pieces maxChars held pieces hheld hroom
    rw [splitParagraphs]
    split
    · next hlong =>
      obtain ⟨more, hmore, hpieces⟩ := @ih [] (flushParagraphs (['\n'].intercalate held) pieces ++
        (hardSplit paragraph maxChars).map fun text => ⟨text, "hard_split".toList⟩) (by simp) htail (by simp)
      rw [List.intercalate_nil] at hmore
      exact ⟨_, by rw [hmore, hflush, List.append_assoc, List.append_assoc],
        hflushed.append ((PiecesOf.slices hlong).append hpieces)⟩
    · next hshort =>
      have hle : paragraph.length ≤ maxChars := by omega
      have halone : (['\n'].intercalate [paragraph]).length ≤ maxChars := by rwa [List.intercalate_singleton]
      split
      · next hnone =>
        have he := (isEmpty_join hheld).mp hnone
        obtain ⟨more, hmore, hpieces⟩ := @ih [paragraph] pieces (by simpa using hparagraph) htail halone
        rw [List.intercalate_singleton] at hmore
        exact ⟨more, hmore, he ▸ hpieces⟩
      · next hsome =>
        have he : held ≠ [] := fun he => hsome ((isEmpty_join hheld).mpr he)
        split
        · next hfull =>
          obtain ⟨more, hmore, hpieces⟩ := @ih [paragraph] (flushParagraphs (['\n'].intercalate held) pieces)
            (by simpa using hparagraph) htail halone
          rw [List.intercalate_singleton] at hmore
          exact ⟨_, by rw [hmore, hflush, List.append_assoc], hflushed.append hpieces⟩
        · next hfree =>
          have hjoin : ['\n'].intercalate (held ++ [paragraph]) = ['\n'].intercalate held ++ '\n' :: paragraph := by
            rw [intercalate_append he (by simp)]
            simp
          have hgrown : ∀ p ∈ held ++ [paragraph], p ≠ [] := by
            intro p hp
            rcases List.mem_append.mp hp with hp | hp
            · exact hheld p hp
            · rwa [List.mem_singleton.mp hp]
          have hgrownRoom : (['\n'].intercalate (held ++ [paragraph])).length ≤ maxChars := by
            rw [hjoin, List.length_append, List.length_cons]
            omega
          obtain ⟨more, hmore, hpieces⟩ := @ih (held ++ [paragraph]) pieces hgrown htail hgrownRoom
          rw [hjoin] at hmore
          exact ⟨more, hmore, by simpa using hpieces⟩

theorem splitBody_pieces (body : Text) (maxChars : Nat) :
    PiecesOf maxChars (splitBody body maxChars) (bodyParagraphs body) := by
  have hparagraphs : ∀ paragraph ∈ bodyParagraphs body, paragraph ≠ [] := fun paragraph hp => by
    simpa using (List.mem_filter.mp hp).2
  obtain ⟨more, hmore, hpieces⟩ := @splitParagraphs_pieces maxChars [] (bodyParagraphs body) [] (by simp)
    hparagraphs (by simp)
  have hall : splitBody body maxChars = more := hmore
  exact hall ▸ hpieces

end Paragraphs

section Pieces

variable {pieces : List BodyPiece} {paragraphs : List Text}

theorem PiecesOf.length_le (h : PiecesOf maxChars pieces paragraphs) (hmax : 0 < maxChars) :
    ∀ piece ∈ pieces, piece.text.length ≤ maxChars := by
  obtain ⟨groups, hgroups, rfl, -⟩ := h
  intro piece hpiece
  obtain ⟨group, hgroup, hpiece⟩ := List.mem_flatMap.mp hpiece
  rcases hgroups group hgroup with ⟨only, hpieces, -, -, -, hle⟩ | ⟨paragraph, -, -, hpieces⟩
  · rw [hpieces, List.mem_singleton] at hpiece
    exact hpiece ▸ hle
  · rw [hpieces] at hpiece
    obtain ⟨slice, hslice, rfl⟩ := List.mem_map.mp hpiece
    have hle := length_sliceChunks hslice
    exact hle.trans (by omega)

theorem PiecesOf.not_blank (h : PiecesOf maxChars pieces paragraphs) (hmax : 2 ≤ maxChars)
    (hparagraphs : ∀ paragraph ∈ paragraphs, paragraph ≠ [] ∧ Tidy paragraph) :
    ∀ piece ∈ pieces, isBlank piece.text = false := by
  obtain ⟨groups, hgroups, rfl, rfl⟩ := h
  intro piece hpiece
  obtain ⟨group, hgroup, hpiece⟩ := List.mem_flatMap.mp hpiece
  rcases hgroups group hgroup with ⟨only, hpieces, -, hne, htext, -⟩ | ⟨paragraph, hparagraph, -, hpieces⟩
  · rw [hpieces, List.mem_singleton] at hpiece
    obtain ⟨first, others, hheld⟩ := List.exists_cons_of_ne_nil hne
    obtain ⟨hfirst, htidy⟩ := hparagraphs first (List.mem_flatMap.mpr ⟨group, hgroup, by simp [hheld]⟩)
    rw [hpiece, htext, hheld]
    exact isBlank_intercalate List.mem_cons_self (htidy.not_blank hfirst)
  · rw [hpieces] at hpiece
    obtain ⟨slice, hslice, rfl⟩ := List.mem_map.mp hpiece
    obtain ⟨-, htidy⟩ := hparagraphs paragraph (List.mem_flatMap.mpr ⟨group, hgroup, by simp [hparagraph]⟩)
    exact isBlank_sliceChunks (by omega) htidy.apart htidy.last hslice

/-- Joining the groups gives the paragraphs back. -/
theorem PieceGroup.text {group : List BodyPiece × List Text} (h : PieceGroup maxChars group) :
    (group.1.map BodyPiece.text).flatten = ['\n'].intercalate group.2 ∧ group.2 ≠ [] := by
  rcases h with ⟨piece, hpieces, -, hne, htext, -⟩ | ⟨paragraph, hparagraph, -, hpieces⟩
  · exact ⟨by simp [hpieces, htext], hne⟩
  · have htexts : group.1.map BodyPiece.text = hardSplit paragraph maxChars := by simp [hpieces, Function.comp_def]
    exact ⟨by simp [htexts, hparagraph, flatten_hardSplit], by simp [hparagraph]⟩

end Pieces

end CorpusFeed
