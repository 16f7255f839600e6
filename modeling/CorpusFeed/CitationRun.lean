import CorpusFeed.CitationCollect
import CorpusFeed.CursorPages
import CorpusFeed.Runs

/-! What a run of the citation collection adds to the store, and what holds after any
sequence of fetches and runs. -/

namespace CorpusFeed

variable {env : CitationEnv}

/-- What collecting citations may do to a store: rows only come in, each from a visa of
the archive, with its resolution and with its event. -/
structure Recorded (env : CitationEnv) (s t : CitationStore) : Prop where
  responses : t.responses = s.responses ∧ t.nextResponseId = s.nextResponseId
  kept : ∀ o ∈ s.occurrences, o ∈ t.occurrences
  keptResolutions : ∀ r ∈ s.resolutions, r ∈ t.resolutions
  traced : ∀ o ∈ t.occurrences, o ∈ s.occurrences ∨
    ∃ response ∈ s.responses, response.carriesVisa = true ∧ o ∈ occurrencesOf env.runtime response
  resolved : ∀ o ∈ t.occurrences, o ∈ s.occurrences ∨ ∃ corpus, env.corpusOf o.decisionDocumentId = some corpus ∧
    ∃ r ∈ t.resolutions, r.subject = (corpus, o.citationKey)
  events : ∃ events, t.outbox = s.outbox ++ events ∧
    (∀ o ∈ t.occurrences, o ∈ s.occurrences ∨ ∃ corpus, env.corpusOf o.decisionDocumentId = some corpus ∧
      occurrenceEvent corpus o.decisionDocumentId ∈ events) ∧
    ∀ r ∈ t.resolutions, r ∈ s.resolutions ∨ resolutionEvent r.corpus r.citationKey ∈ events

namespace Recorded

variable {s t u : CitationStore}

theorem refl (s : CitationStore) : Recorded env s s :=
  ⟨⟨rfl, rfl⟩, fun _ h => h, fun _ h => h, fun _ h => Or.inl h, fun _ h => Or.inl h,
    [], by simp, fun _ h => Or.inl h, fun _ h => Or.inl h⟩

theorem trans (h : Recorded env s t) (h' : Recorded env t u) : Recorded env s u := by
  obtain ⟨events, houtbox, hoccurrences, hresolutions⟩ := h.events
  obtain ⟨events', houtbox', hoccurrences', hresolutions'⟩ := h'.events
  refine ⟨⟨h'.responses.1.trans h.responses.1, h'.responses.2.trans h.responses.2⟩, fun o ho => h'.kept o (h.kept o ho),
    fun r hr => h'.keptResolutions r (h.keptResolutions r hr), fun o ho => ?_, fun o ho => ?_,
    events ++ events', by rw [houtbox', houtbox, List.append_assoc], fun o ho => ?_, fun r hr => ?_⟩
  · rcases h'.traced o ho with hold | ⟨response, hresponse, hnew⟩
    · exact h.traced o hold
    · exact Or.inr ⟨response, h.responses.1 ▸ hresponse, hnew⟩
  · rcases h'.resolved o ho with hold | hnew
    · rcases h.resolved o hold with hold | ⟨corpus, hcorpus, r, hr, hsubject⟩
      · exact Or.inl hold
      · exact Or.inr ⟨corpus, hcorpus, r, h'.keptResolutions r hr, hsubject⟩
    · exact Or.inr hnew
  · rcases hoccurrences' o ho with hold | ⟨corpus, hcorpus, hevent⟩
    · rcases hoccurrences o hold with hold | ⟨corpus, hcorpus, hevent⟩
      · exact Or.inl hold
      · exact Or.inr ⟨corpus, hcorpus, List.mem_append_left _ hevent⟩
    · exact Or.inr ⟨corpus, hcorpus, List.mem_append_right _ hevent⟩
  · rcases hresolutions' r hr with hold | hevent
    · exact (hresolutions r hold).imp_right fun hevent => List.mem_append_left _ hevent
    · exact Or.inr (List.mem_append_right _ hevent)

end Recorded

namespace CitationStore

variable {s t u : CitationStore} {o : CitationOccurrence}

theorem insertCitationOccurrence_cases (h : s.insertCitationOccurrence env o = some t) : ∃ added : Bool,
    (∀ x, x ∈ t.occurrences ↔ x ∈ s.occurrences ∨ (added = true ∧ x = o)) ∧
      (added = false → ∃ old ∈ s.occurrences, old.place = o.place) ∧
      ∃ corpus, (added = true → env.corpusOf o.decisionDocumentId = some corpus) ∧
        t = { s with
          occurrences := t.occurrences
          outbox := s.outbox ++ if added then [occurrenceEvent corpus o.decisionDocumentId] else [] } := by
  unfold insertCitationOccurrence at h
  split at h
  · next hinsert =>
    cases h
    exact ⟨false, by simp, fun _ => Table.insert_eq_none.mp hinsert, [], by simp, by simp⟩
  · next occurrences hinsert =>
    obtain ⟨corpus, hcorpus, rfl⟩ := Option.map_eq_some_iff.mp h
    refine ⟨true, fun x => ?_, by simp, corpus, fun _ => hcorpus, rfl⟩
    rw [Table.mem_insert hinsert, or_comm]
    simp

theorem upsertCitationResolutionPending_cases (h : s.upsertCitationResolutionPending env o = some t) :
    ∃ corpus, env.corpusOf o.decisionDocumentId = some corpus ∧ ∃ created : Option CitationResolution,
      (∀ r, r ∈ t.resolutions ↔ r ∈ s.resolutions ∨ created = some r) ∧
      (∃ r ∈ t.resolutions, r.subject = (corpus, o.citationKey)) ∧ (∀ r, created = some r → r.subject = (corpus, o.citationKey)) ∧
      t = { s with
        resolutions := t.resolutions
        outbox := s.outbox ++ if created.isSome then [resolutionEvent corpus o.citationKey] else [] } := by
  unfold upsertCitationResolutionPending at h
  obtain ⟨corpus, hcorpus, rfl⟩ := Option.map_eq_some_iff.mp h
  refine ⟨corpus, hcorpus, ?_⟩
  split
  · next hinsert => exact ⟨none, by simp, Table.insert_eq_none.mp hinsert, by simp, by simp⟩
  · next resolutions hinsert =>
    refine ⟨some ⟨corpus, o.citationKey, o.articleNumberNorm, o.codeNameNorm, o.canonicalQuery, 0⟩, fun r => ?_,
      ⟨_, (Table.mem_insert hinsert).mpr (Or.inl rfl), rfl⟩, fun r hr => ?_, rfl⟩
    · rw [Table.mem_insert hinsert, or_comm, Option.some.injEq, eq_comm]
    · cases hr
      rfl

theorem recordCitation_spec {response : ApiResponse} (hresponse : response ∈ s.responses)
    (hvisa : response.carriesVisa = true) (ho : o ∈ occurrencesOf env.runtime response)
    (h : s.recordCitation env o = some t) :
    Recorded env s t ∧ (∃ old ∈ t.occurrences, old.place = o.place) ∧ (∀ x ∈ t.occurrences, x ∈ s.occurrences ∨ x = o) ∧
      ∃ corpus, env.corpusOf o.decisionDocumentId = some corpus ∧
        ∃ r ∈ t.resolutions, r.subject = (corpus, o.citationKey) := by
  obtain ⟨mid, hinsert, hupsert⟩ := Option.bind_eq_some_iff.mp h
  obtain ⟨added, hoccurrences, hthere, corpus', hcorpus', hmid⟩ := insertCitationOccurrence_cases hinsert
  obtain ⟨corpus, hcorpus, created, hresolutions, hresolved, hsubject, ht⟩ := upsertCitationResolutionPending_cases hupsert
  rw [hmid] at ht
  have hsame : t.occurrences = mid.occurrences := by rw [ht]
  have holds : ∀ x, x ∈ t.occurrences ↔ x ∈ s.occurrences ∨ (added = true ∧ x = o) := by rwa [hsame]
  have hkept : ∀ r, r ∈ t.resolutions ↔ r ∈ s.resolutions ∨ created = some r := by
    intro r
    rw [hresolutions, hmid]
  refine ⟨⟨by rw [ht]; exact ⟨rfl, rfl⟩, fun x hx => (holds x).mpr (Or.inl hx), fun r hr => (hkept r).mpr (Or.inl hr),
    fun x hx => ?_, fun x hx => ?_, _, by rw [ht]; exact List.append_assoc _ _ _, fun x hx => ?_, fun r hr => ?_⟩,
    ?_, fun x hx => ?_, corpus, hcorpus, hresolved⟩
  · rcases (holds x).mp hx with hold | ⟨_, rfl⟩
    · exact Or.inl hold
    · exact Or.inr ⟨response, hresponse, hvisa, ho⟩
  · rcases (holds x).mp hx with hold | ⟨_, rfl⟩
    · exact Or.inl hold
    · exact Or.inr ⟨corpus, hcorpus, hresolved⟩
  · rcases (holds x).mp hx with hold | ⟨hadded, rfl⟩
    · exact Or.inl hold
    · exact Or.inr ⟨corpus', hcorpus' hadded, by simp [hadded]⟩
  · rcases (hkept r).mp hr with hold | hcreated
    · exact Or.inl hold
    · have hpair := hsubject r hcreated
      rw [CitationResolution.subject, Prod.mk.injEq] at hpair
      rw [hpair.1, hpair.2, hcreated]
      simp
  · by_cases hadded : added = true
    · exact ⟨o, (holds o).mpr (Or.inr ⟨hadded, rfl⟩), rfl⟩
    · obtain ⟨old, hold, hplace⟩ := hthere (by simpa using hadded)
      exact ⟨old, (holds old).mpr (Or.inl hold), hplace⟩
  · exact ((holds x).mp hx).imp_right And.right

theorem recordCitation_settled {corpus : Text} (hthere : ∃ old ∈ s.occurrences, old.place = o.place)
    (hcorpus : env.corpusOf o.decisionDocumentId = some corpus)
    (hresolved : ∃ r ∈ s.resolutions, r.subject = (corpus, o.citationKey)) : s.recordCitation env o = some s := by
  have hinsert : s.insertCitationOccurrence env o = some s := by
    rw [insertCitationOccurrence, Table.insert_eq_none.mpr hthere]
  have hupsert : s.upsertCitationResolutionPending env o = some s := by
    have hnone : s.resolutions.insert ⟨corpus, o.citationKey, o.articleNumberNorm, o.codeNameNorm, o.canonicalQuery, 0⟩ = none :=
      Table.insert_eq_none.mpr hresolved
    rw [upsertCitationResolutionPending, hcorpus, Option.map_some, hnone]
  rw [recordCitation, hinsert, Option.bind_some, hupsert]

/-- All of the citations come from visas of the archive of `s`. -/
def FromArchive (env : CitationEnv) (store : CitationStore) (occurrences : List CitationOccurrence) : Prop :=
  ∀ o ∈ occurrences, ∃ response ∈ store.responses, response.carriesVisa = true ∧ o ∈ occurrencesOf env.runtime response

/-- Each of the citations is stored and resolved. -/
def Covered (env : CitationEnv) (store : CitationStore) (occurrences : List CitationOccurrence) : Prop :=
  ∀ o ∈ occurrences, (∃ old ∈ store.occurrences, old.place = o.place) ∧
    ∃ corpus, env.corpusOf o.decisionDocumentId = some corpus ∧ ∃ r ∈ store.resolutions, r.subject = (corpus, o.citationKey)

theorem recordCitations_spec {occurrences : List CitationOccurrence} {done : Bool} (hfrom : FromArchive env s occurrences)
    (h : recordCitations env occurrences s = (t, done)) : Recorded env s t ∧
      (∀ x ∈ t.occurrences, x ∈ s.occurrences ∨ x ∈ occurrences) ∧ (done = true → Covered env t occurrences) := by
  induction occurrences generalizing s with
  | nil =>
    cases h
    exact ⟨Recorded.refl _, fun _ hx => Or.inl hx, fun _ o ho => by cases ho⟩
  | cons o rest ih =>
    rw [recordCitations] at h
    split at h
    · cases h
      exact ⟨Recorded.refl _, fun _ hx => Or.inl hx, fun hdone => by cases hdone⟩
    next mid hmid =>
    obtain ⟨response, hresponse, hvisa, ho⟩ := hfrom o List.mem_cons_self
    obtain ⟨hrecorded, ⟨old, hold, hplace⟩, honly, corpus, hcorpus, r, hr, hsubject⟩ :=
      recordCitation_spec hresponse hvisa ho hmid
    have hfrom' : FromArchive env mid rest := fun x hx => hrecorded.responses.1 ▸ hfrom x (List.mem_cons_of_mem o hx)
    obtain ⟨hrest, honly', hcovered⟩ := ih hfrom' h
    refine ⟨hrecorded.trans hrest, fun x hx => ?_, fun hdone x hx => ?_⟩
    · rcases honly' x hx with hx | hx
      · rcases honly x hx with hx | rfl
        · exact Or.inl hx
        · exact Or.inr List.mem_cons_self
      · exact Or.inr (List.mem_cons_of_mem o hx)
    · rcases List.mem_cons.mp hx with rfl | hx
      · exact ⟨⟨old, hrest.kept old hold, hplace⟩, corpus, hcorpus, r, hrest.keptResolutions r hr, hsubject⟩
      · exact hcovered hdone x hx

theorem recordCitations_covered {occurrences : List CitationOccurrence} (h : Covered env s occurrences) :
    recordCitations env occurrences s = (s, true) := by
  induction occurrences with
  | nil => rfl
  | cons o rest ih =>
    obtain ⟨hthere, corpus, hcorpus, hresolved⟩ := h o List.mem_cons_self
    rw [recordCitations, recordCitation_settled hthere hcorpus hresolved]
    exact ih fun x hx => h x (List.mem_cons_of_mem o hx)

theorem recordCitations_append (before after : List CitationOccurrence) (s : CitationStore) :
    recordCitations env (before ++ after) s = match recordCitations env before s with
      | (s, true) => recordCitations env after s
      | (s, false) => (s, false) := by
  induction before generalizing s with
  | nil => rfl
  | cons o before ih =>
    rw [List.cons_append, recordCitations, recordCitations]
    cases s.recordCitation env o with
    | none => rfl
    | some s => exact ih s

theorem collectDecisions_eq (decisions : List ApiResponse) (s : CitationStore) :
    collectDecisions env decisions s = recordCitations env (decisions.flatMap (occurrencesOf env.runtime)) s := by
  induction decisions generalizing s with
  | nil => rfl
  | cons decision rest ih =>
    rw [collectDecisions, List.flatMap_cons, recordCitations_append]
    cases recordCitations env (occurrencesOf env.runtime decision) s with
    | mk mid done =>
      cases done with
      | true => exact ih mid
      | false => rfl

end CitationStore

end CorpusFeed
