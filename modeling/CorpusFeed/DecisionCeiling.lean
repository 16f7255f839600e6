import CorpusFeed.ChunkedRecords

/-! The budget of a decision's body is spent without its context: what the
contextualized bodies take up, and when they stay under the ceiling. -/

namespace CorpusFeed

/-- What a context adds to the length of a body. -/
def overheadOf (context : Text) : Nat := if context.isEmpty then 0 else context.length + 2

theorem length_contextualized (context body : Text) :
    (contextualized context body).length = overheadOf context + body.length := by
  unfold contextualized overheadOf
  by_cases he : context = []
  · simp [he]
  · have hseparator : ("\n\n".toList).length = 2 := by decide
    have hsome : context.isEmpty = false := by simpa using he
    simp only [hsome, Bool.false_eq_true, if_false, List.length_append, hseparator]

/-- Lines of these lengths, packed one after another while a pack takes up at most
`maxChars`, leave room for `overhead` more in every pack. `held` is the length of
the pack at hand. -/
def PacksLeaveRoom (maxChars overhead : Nat) : Nat → List Nat → Prop
  | _, [] => True
  | held, n :: rest =>
    if held = 0 ∨ maxChars < held + 1 + n then
      overhead + n ≤ maxChars ∧ PacksLeaveRoom maxChars overhead n rest
    else overhead + held + 1 + n ≤ maxChars ∧ PacksLeaveRoom maxChars overhead (held + 1 + n) rest

instance decidablePacksLeaveRoom (maxChars overhead : Nat) :
    ∀ held lengths, Decidable (PacksLeaveRoom maxChars overhead held lengths)
  | _, [] => isTrue trivial
  | held, n :: rest => by
    have := decidablePacksLeaveRoom maxChars overhead n rest
    have := decidablePacksLeaveRoom maxChars overhead (held + 1 + n) rest
    unfold PacksLeaveRoom
    infer_instance

section Splitter

variable {maxChars overhead : Nat} {current : Text} {pieces : List BodyPiece} {rest : List Text}

theorem hardSplit_full {paragraph : Text} (hmax : 0 < maxChars) (hlong : maxChars < paragraph.length) :
    ∃ slice ∈ hardSplit paragraph maxChars, slice.length = maxChars := by
  have hfirst : max maxChars 1 = maxChars := by omega
  obtain ⟨fuel, hfuel⟩ : ∃ fuel, paragraph.length = fuel + 1 := ⟨paragraph.length - 1, by omega⟩
  have hne : paragraph.isEmpty = false := by
    rw [List.isEmpty_eq_false_iff]
    intro he
    simp [he] at hlong
  refine ⟨paragraph.take maxChars, ?_, ?_⟩
  · rw [hardSplit, hfirst, hfuel, sliceChunks, hne]
    exact List.mem_cons_self
  · rw [List.length_take]
    omega

theorem prefix_splitParagraphs : pieces <+: splitParagraphs maxChars current pieces rest := by
  have hflush : ∀ {text : Text} {pieces : List BodyPiece}, pieces <+: flushParagraphs text pieces := by
    intro text pieces
    unfold flushParagraphs
    split
    · exact List.prefix_refl _
    · exact List.prefix_append _ _
  induction rest generalizing current pieces with
  | nil => exact hflush
  | cons paragraph rest ih =>
    rw [splitParagraphs]
    split
    · exact (hflush.trans (List.prefix_append _ _)).trans ih
    split
    · exact ih
    split
    · exact hflush.trans ih
    · exact ih

def PieceFits (maxChars overhead : Nat) (piece : BodyPiece) : Prop := overhead + piece.text.length ≤ maxChars

theorem flushParagraphs_fits :
    (∀ piece ∈ flushParagraphs current pieces, PieceFits maxChars overhead piece) ↔
      (∀ piece ∈ pieces, PieceFits maxChars overhead piece) ∧
        (current ≠ [] → overhead + current.length ≤ maxChars) := by
  unfold flushParagraphs
  by_cases he : current = []
  · simp [he]
  · have hsome : current.isEmpty = false := by simpa using he
    simp only [hsome, Bool.false_eq_true, if_false, List.mem_append, List.mem_singleton]
    constructor
    · intro h
      exact ⟨fun piece hp => h piece (Or.inl hp), fun _ => h _ (Or.inr rfl)⟩
    · rintro ⟨hpieces, hcurrent⟩ piece (hp | rfl)
      · exact hpieces piece hp
      · exact hcurrent he

/-- Induction on the paragraphs left: the pieces fit if those before them do, the
pack at hand does, and the packs to come leave room. -/
theorem splitParagraphs_fits (hmax : 0 < maxChars) (hoverhead : 0 < overhead)
    (hrest : ∀ paragraph ∈ rest, paragraph ≠ []) :
    (∀ piece ∈ splitParagraphs maxChars current pieces rest, PieceFits maxChars overhead piece) ↔
      (∀ piece ∈ pieces, PieceFits maxChars overhead piece) ∧
        (current ≠ [] → overhead + current.length ≤ maxChars) ∧
          PacksLeaveRoom maxChars overhead current.length (rest.map List.length) := by
  induction rest generalizing current pieces with
  | nil =>
    rw [splitParagraphs, flushParagraphs_fits]
    simp [PacksLeaveRoom]
  | cons paragraph rest ih =>
    have hparagraph := hrest paragraph List.mem_cons_self
    have htail := fun p hp => hrest p (List.mem_cons_of_mem paragraph hp)
    have hempty : current.length = 0 ↔ current = [] := List.length_eq_zero_iff
    rw [splitParagraphs, List.map_cons, PacksLeaveRoom]
    split
    · next hlong =>
      -- Neither side holds: the first slice leaves no room, and the line is too long.
      have hclosed : current.length = 0 ∨ maxChars < current.length + 1 + paragraph.length := by omega
      rw [if_pos hclosed]
      constructor
      · intro h
        exfalso
        obtain ⟨slice, hslice, hlength⟩ := hardSplit_full hmax hlong
        have hmem : (⟨slice, "hard_split".toList⟩ : BodyPiece) ∈ splitParagraphs maxChars []
            (flushParagraphs current pieces ++ (hardSplit paragraph maxChars).map fun text =>
              ⟨text, "hard_split".toList⟩) rest :=
          prefix_splitParagraphs.subset (List.mem_append_right _ (List.mem_map_of_mem hslice))
        have hfits := h _ hmem
        simp only [PieceFits, hlength] at hfits
        omega
      · rintro ⟨_, _, hroom, _⟩
        omega
    · next hshort =>
      split
      · next hnone =>
        have he : current = [] := by simpa using hnone
        rw [ih htail, if_pos (Or.inl (hempty.mpr he))]
        simp [he, hparagraph]
      · next hsome =>
        have he : current ≠ [] := by simpa using hsome
        split
        · next hfull =>
          rw [ih htail, flushParagraphs_fits, if_pos (Or.inr hfull), and_assoc]
          simp [hparagraph]
        · next hfree =>
          have hopen : ¬ (current.length = 0 ∨ maxChars < current.length + 1 + paragraph.length) := by
            rintro (h | h)
            · exact he (hempty.mp h)
            · exact hfree h
          have hjoined : (current ++ '\n' :: paragraph).length = current.length + 1 + paragraph.length := by
            rw [List.length_append, List.length_cons]
            omega
          have hne : current ++ '\n' :: paragraph ≠ [] := by simp
          rw [ih htail, if_neg hopen, hjoined]
          constructor
          · rintro ⟨hpieces, hpack, hroom⟩
            have hle := hpack hne
            exact ⟨hpieces, fun _ => by omega, by omega, hroom⟩
          · rintro ⟨hpieces, _, hpack, hroom⟩
            exact ⟨hpieces, fun _ => by omega, hroom⟩

theorem splitBody_fits {body : Text} (hmax : 0 < maxChars) (hoverhead : 0 < overhead) :
    (∀ piece ∈ splitBody body maxChars, PieceFits maxChars overhead piece) ↔
      PacksLeaveRoom maxChars overhead 0 ((bodyParagraphs body).map List.length) := by
  have hparagraphs : ∀ paragraph ∈ bodyParagraphs body, paragraph ≠ [] := fun paragraph hp => by
    simpa using (List.mem_filter.mp hp).2
  rw [splitBody, splitParagraphs_fits hmax hoverhead hparagraphs]
  simp

end Splitter

/-- The text of the summary chunk. -/
def summaryText (decision : CanonicalDecision) : Text :=
  "\n\n".toList.intercalate (decision.summaries.map DecisionSummary.text)

/-- The context leaves room for the packs of the body, and for the summaries together. -/
def DecisionLeavesRoom (decision : CanonicalDecision) : Prop :=
  PacksLeaveRoom juriDecisionChunkMaxChars (overheadOf (decisionContext decision)) 0
      ((bodyParagraphs decision.body).map List.length) ∧
    (isBlank (summaryText decision) = true ∨
      overheadOf (decisionContext decision) + (summaryText decision).length ≤ juriDecisionChunkMaxChars)

section Decision

variable {decision : CanonicalDecision}

theorem summaryChunks_fit {context : Text} :
    (∀ chunk ∈ summaryChunks decision context, chunk.contextualizedBody.length ≤ juriDecisionChunkMaxChars) ↔
      isBlank (summaryText decision) = true ∨
        overheadOf context + (summaryText decision).length ≤ juriDecisionChunkMaxChars := by
  have hchunks : summaryChunks decision context = if isBlank (summaryText decision) then [] else
      [makeChunk decision context 0 (summaryText decision) "decision_summary".toList "sommaire".toList
        ["TEXTE/SOMMAIRE".toList]] := rfl
  rw [hchunks]
  split
  · next hblank => simp [hblank]
  · next hblank =>
    have hlength := length_contextualized context (summaryText decision)
    simp only [List.mem_singleton, forall_eq, hblank, Bool.false_eq_true, false_or]
    rw [← hlength]
    exact Iff.rfl

theorem bodyChunksFrom_fit {context : Text} {index : Nat} {pieces : List BodyPiece} :
    (∀ chunk ∈ bodyChunksFrom decision context index pieces,
        chunk.contextualizedBody.length ≤ juriDecisionChunkMaxChars) ↔
      ∀ piece ∈ pieces, PieceFits juriDecisionChunkMaxChars (overheadOf context) piece := by
  induction pieces generalizing index with
  | nil => simp [bodyChunksFrom]
  | cons piece pieces ih =>
    have hlength := length_contextualized context piece.text
    rw [bodyChunksFrom, List.forall_mem_cons, List.forall_mem_cons, ih, PieceFits, ← hlength]
    exact Iff.rfl

theorem buildDecisionChunks_fit (hcontext : decisionContext decision ≠ []) :
    (∀ chunk ∈ buildDecisionChunks decision, chunk.contextualizedBody.length ≤ juriDecisionChunkMaxChars) ↔
      DecisionLeavesRoom decision := by
  have hoverhead : 0 < overheadOf (decisionContext decision) := by
    have hsome : (decisionContext decision).isEmpty = false := by simpa using hcontext
    simp [overheadOf, hsome]
  have hbuilt : buildDecisionChunks decision = summaryChunks decision (decisionContext decision) ++
      bodyChunksFrom decision (decisionContext decision) (summaryChunks decision (decisionContext decision)).length
        (splitBody decision.body juriDecisionChunkMaxChars) := bodyChunks_eq _ _
  rw [hbuilt, List.forall_mem_append, summaryChunks_fit, bodyChunksFrom_fit,
    splitBody_fits (by decide) hoverhead, DecisionLeavesRoom, and_comm]

end Decision

theorem intercalate_ne_nil {sep : Text} {parts : List Text} {part : Text} (hmem : part ∈ parts) (hne : part ≠ []) :
    sep.intercalate parts ≠ [] := by
  induction parts with
  | nil => cases hmem
  | cons first rest ih =>
    by_cases hrest : rest = []
    · rw [hrest, List.mem_singleton] at hmem
      rw [hrest, List.intercalate_singleton, ← hmem]
      exact hne
    · rw [List.intercalate_cons_of_ne_nil hrest]
      rcases List.mem_cons.mp hmem with rfl | hmem
      · simp [hne]
      · simp [ih hmem]

theorem decisionContext_ne_nil {decision : CanonicalDecision}
    (htitle : ∀ title, decision.title = some title → title ≠ [])
    (hdate : decision.decisionDate ≠ []) : decisionContext decision ≠ [] := by
  unfold decisionContext
  cases ht : decision.title with
  | some title => exact intercalate_ne_nil (List.mem_append_left _ List.mem_cons_self) (htitle title ht)
  | none =>
    have hmem : decision.decisionDate ∈ decision.jurisdiction.toList ++ [decision.decisionDate] :=
      List.mem_append_right _ List.mem_cons_self
    exact intercalate_ne_nil (List.mem_append_left _ hmem) hdate

namespace JuriXml

theorem metadata_ne_nil {raw : RawDecision} {name value : Text} (h : metadata raw name = some value) : value ≠ [] := by
  have hne := (Option.filter_eq_some_iff.mp h).2
  simpa using hne

variable {sha256 : Bytes → Vector UInt8 32} {patterns : CitationPatterns} {events : List XmlEvent} {xml : Text}
  {provenance : SourceProvenance} {source : ArchiveSource} {family : JuriFamily}

/-- A parsed decision has a date, so its context is never empty. -/
theorem parseDecision_context {d : DecisionRecord}
    (h : parseDecision sha256 patterns events source family xml provenance = .ok d) :
    decisionContext d.toCanonicalDecision ≠ [] := by
  unfold parseDecision at h
  split at h
  · cases h
  next s _ =>
  unfold RawDecision.intoDecision at h
  cases hheader : decisionHeader family s.raw with
  | error e =>
    rw [hheader] at h
    cases h
  | ok header =>
    obtain ⟨_, hdate, _, _⟩ := decisionHeader_ok hheader
    have hdated : header.decisionDate ≠ [] := by
      intro he
      rw [he] at hdate
      exact absurd hdate (by decide)
    simp only [hheader] at h
    cases h
    exact decisionContext_ne_nil (fun title htitle => metadata_ne_nil htitle) hdated

end JuriXml

/-- The chunks of a parsed decision stay under the ceiling exactly where the context
leaves room. -/
theorem ParserSetup.decision_fits {P : Type*} {setup : ParserSetup P} {member : XmlMember P} {source : ArchiveSource}
    {d : JuriXml.DecisionRecord} (h : setup.parseJuriMember source member = .ok (.decision d)) :
    (∀ chunk ∈ d.chunks, chunk.contextualizedBody.length ≤ juriDecisionChunkMaxChars) ↔
      DecisionLeavesRoom d.toCanonicalDecision := by
  have hcontext : decisionContext d.toCanonicalDecision ≠ [] := by
    unfold parseJuriMember at h
    split at h
    · cases h
    · obtain ⟨family, _, _, _, hparse⟩ := JuriXml.parseJuriEvents_decision.mp h
      exact JuriXml.parseDecision_context hparse
  rw [(parseJuriMember_isParsed h).chunks_built]
  exact buildDecisionChunks_fit hcontext

end CorpusFeed
