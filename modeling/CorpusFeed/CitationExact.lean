import CorpusFeed.CitationRun

/-! A completed run adds exactly what the latest visas cite, counts it, and leaves the
next run nothing to do. -/

namespace CorpusFeed

variable {env : CitationEnv} {s t : CitationStore}

namespace CitationStore

/-- The response that the view takes for its decision: the last one with a visa. -/
def LatestVisa (store : CitationStore) (response : ApiResponse) : Prop :=
  response ∈ store.responses ∧ response.carriesVisa = true ∧
    ∀ other ∈ store.responses, other.carriesVisa = true → other.document = response.document →
      other.responseId ≤ response.responseId

theorem mem_latestDecisions {cursor : Option Text} {response : ApiResponse} :
    response ∈ s.latestDecisions env.collation cursor ↔
      s.LatestVisa response ∧ afterCursor env.collation cursor response = true := by
  simp only [latestDecisions, List.mem_insertionSort, List.mem_filter, List.all_eq_true, decide_eq_true_eq,
    Bool.and_eq_true, Table.mem_rows]
  constructor
  · rintro ⟨⟨hresponse, hvisa, hafter⟩, hlast⟩
    refine ⟨⟨hresponse, hvisa, fun other hother hvisa' hsame => hlast other ⟨hother, hvisa', ?_⟩ hsame⟩, hafter⟩
    unfold afterCursor at hafter ⊢
    rwa [hsame]
  · rintro ⟨⟨hresponse, hvisa, hlast⟩, hafter⟩
    exact ⟨⟨hresponse, hvisa, hafter⟩, fun other hother hsame => hlast other hother.1 hother.2.1 hsame⟩

theorem LatestVisa.unique {a b : ApiResponse} (ha : s.LatestVisa a) (hb : s.LatestVisa b)
    (hsame : a.document = b.document) : a = b := by
  have hle := ha.2.2 b hb.1 hb.2.1 hsame.symm
  have hge := hb.2.2 a ha.1 ha.2.1 hsame
  exact Table.eq_of_key_eq ha.1 hb.1 (Nat.le_antisymm hge hle)

theorem latestDecisions_sorted (cursor : Option Text) : (s.latestDecisions env.collation cursor).Pairwise
    fun a b => env.collation.le a.document b.document = true := by
  have htotal : Std.Total fun a b : ApiResponse => env.collation.le a.document b.document = true :=
    ⟨fun a b => env.collation.total _ _⟩
  have htrans : IsTrans ApiResponse fun a b => env.collation.le a.document b.document = true :=
    ⟨fun a b c => env.collation.trans _ _ _⟩
  exact List.pairwise_insertionSort _ _

theorem latestDecisions_nodup (cursor : Option Text) : (s.latestDecisions env.collation cursor).Nodup := by
  refine (List.perm_insertionSort _ _).nodup_iff.mpr ?_
  exact ((s.responses.nodup.of_map).filter _).filter _

/-- The view past a cursor is the part of the whole view that comes after it. -/
theorem latestDecisions_filter (cursor : Option Text) : s.latestDecisions env.collation cursor =
    (s.latestDecisions env.collation none).filter (afterCursor env.collation cursor) := by
  have hmem : ∀ r, r ∈ s.latestDecisions env.collation cursor ↔
      r ∈ (s.latestDecisions env.collation none).filter (afterCursor env.collation cursor) := by
    intro r
    rw [List.mem_filter, mem_latestDecisions, mem_latestDecisions]
    simp [afterCursor]
  have hperm := (List.perm_ext_iff_of_nodup (latestDecisions_nodup cursor) ((latestDecisions_nodup none).filter _)).mpr hmem
  refine hperm.eq_of_pairwise (fun a b ha hb hab hba => ?_) (latestDecisions_sorted cursor)
    ((latestDecisions_sorted none).filter _)
  have hlatest := (mem_latestDecisions.mp ha).1
  have hlatest' := (mem_latestDecisions.mp (List.mem_filter.mp hb).1).1
  exact hlatest.unique hlatest' (env.collation.antisymm _ _ hab hba)

theorem latestDecisions_strict : (s.latestDecisions env.collation none).Pairwise
    fun a b => env.collation.lt a.document b.document = true := by
  have hdistinct : (s.latestDecisions env.collation none).Pairwise fun a b => a.document ≠ b.document := by
    refine (latestDecisions_nodup none).imp_of_mem ?_
    intro a b ha hb hne hsame
    exact hne ((mem_latestDecisions.mp ha).1.unique (mem_latestDecisions.mp hb).1 hsame)
  exact (latestDecisions_sorted none).imp₂ (fun _ _ hle hne => Collation.lt_of_le_of_ne hle hne) hdistinct

theorem latestDecisions_drop (position : ℕ) : s.latestDecisions env.collation
    (((s.latestDecisions env.collation none).take position).getLast?.map ApiResponse.document) =
      (s.latestDecisions env.collation none).drop position := by
  cases hlast : ((s.latestDecisions env.collation none).take position).getLast? with
  | none =>
    rw [List.getLast?_eq_none_iff, List.take_eq_nil_iff] at hlast
    rw [Option.map_none]
    rcases hlast with rfl | hnil
    · rw [List.drop_zero]
    · rw [hnil, List.drop_nil]
  | some last =>
    rw [Option.map_some, latestDecisions_filter]
    refine filter_after latestDecisions_strict (fun a => ?_) (fun a b c hab hbc => ?_) (fun row _ => Iff.rfl) hlast
    · rw [Collation.lt_irrefl]
      exact Bool.false_ne_true
    · exact Collation.lt_of_lt_of_le hab (Collation.le_of_lt hbc)

theorem latestDecisions_congr (h : t.responses = s.responses) (cursor : Option Text) :
    t.latestDecisions env.collation cursor = s.latestDecisions env.collation cursor := by
  simp only [latestDecisions, h]

theorem latest_from {decisions : List ApiResponse} (h : ∀ r ∈ decisions, s.LatestVisa r) :
    FromArchive env s (decisions.flatMap (occurrencesOf env.runtime)) := by
  intro o ho
  obtain ⟨r, hr, ho⟩ := List.mem_flatMap.mp ho
  exact ⟨r, (h r hr).1, (h r hr).2.1, ho⟩

theorem collectDecisions_spec {decisions : List ApiResponse} {done : Bool} (h : ∀ r ∈ decisions, s.LatestVisa r)
    (hrun : collectDecisions env decisions s = (t, done)) : Recorded env s t := by
  rw [collectDecisions_eq] at hrun
  exact (recordCitations_spec (latest_from h) hrun).1

theorem collectDecisions_append (before after : List ApiResponse) (s : CitationStore) :
    collectDecisions env (before ++ after) s = match collectDecisions env before s with
      | (s, true) => collectDecisions env after s
      | (s, false) => (s, false) := by
  simp only [collectDecisions_eq, List.flatMap_append]
  refine (recordCitations_append _ _ _).trans ?_
  cases recordCitations env (before.flatMap (occurrencesOf env.runtime)) s with
  | mk mid done => cases done <;> rfl

theorem loadArchivedDecisionsWithVisa_eq {decisions : List ApiResponse} (position limit : ℕ)
    (hview : s.latestDecisions env.collation none = decisions) :
    s.loadArchivedDecisionsWithVisa env.collation ((decisions.take position).getLast?.map ApiResponse.document) limit =
      ((decisions.drop position).take (max limit 1),
        ((decisions.drop position).take (max limit 1)).getLast?.map ApiResponse.document) := by
  subst hview
  rw [loadArchivedDecisionsWithVisa, latestDecisions_drop]

/-- Page by page the loop goes through the view, and without a limit to its end. -/
theorem collectPages_eq {limit : Option ℕ} {rounds position scanned : ℕ} {decisions : List ApiResponse}
    (hview : s.latestDecisions env.collation none = decisions) (hrounds : decisions.length < rounds + position)
    (hposition : position ≤ decisions.length) : ∃ visited, visited ⊆ decisions.drop position ∧
      (limit = none → visited = decisions.drop position) ∧
      collectPages env limit rounds ((decisions.take position).getLast?.map ApiResponse.document) scanned s =
        some (collectDecisions env visited s) := by
  induction rounds generalizing position scanned s with
  | zero => omega
  | succ rounds ih =>
    rw [collectPages]
    cases hlimit : pageLimit limit scanned with
    | none =>
      refine ⟨[], List.nil_subset _, fun hnone => ?_, rfl⟩
      rw [hnone, pageLimit] at hlimit
      cases hlimit
    | some pageLimit =>
    simp only [loadArchivedDecisionsWithVisa_eq position pageLimit hview]
    by_cases hempty : decisions.drop position = []
    · rw [hempty, List.take_nil]
      exact ⟨[], List.nil_subset _, fun _ => rfl, rfl⟩
    have hlong : position < decisions.length := by
      rw [List.drop_eq_nil_iff] at hempty
      omega
    set size := min (max pageLimit 1) (decisions.drop position).length with hsize
    have hpos : 0 < size := by
      rw [hsize, List.length_drop]
      omega
    have hfits : position + size ≤ decisions.length := by
      rw [hsize, List.length_drop]
      omega
    have hpage : (decisions.drop position).take (max pageLimit 1) = (decisions.drop position).take size :=
      List.take_eq_take_min
    have hrest : decisions.drop position = (decisions.drop position).take size ++ decisions.drop (position + size) := by
      rw [← List.drop_drop, List.take_append_drop]
    have hlength : ((decisions.drop position).take size).length = size := by
      rw [List.length_take, List.length_drop]
      omega
    have hcursor : (decisions.take (position + size)).getLast? = ((decisions.drop position).take size).getLast? := by
      have hne : (decisions.drop position).take size ≠ [] := List.length_pos_iff.mp (by omega)
      rw [List.take_add, List.getLast?_append_of_ne_nil _ hne]
    rw [hpage]
    cases hfirst : (decisions.drop position).take size with
    | nil =>
      rw [hfirst, List.length_nil] at hlength
      omega
    | cons decision more =>
      rw [hfirst] at hcursor hlength hrest
      have hpages : ∀ r ∈ decision :: more, s.LatestVisa r := by
        intro r hr
        rw [← hfirst] at hr
        have hmem : r ∈ s.latestDecisions env.collation none := hview ▸ List.mem_of_mem_drop (List.mem_of_mem_take hr)
        exact (mem_latestDecisions.mp hmem).1
      cases hrun : collectDecisions env (decision :: more) s with
      | mk mid done =>
        cases done with
        | false =>
          refine ⟨decisions.drop position, List.Subset.refl _, fun _ => rfl, ?_⟩
          rw [hrest, collectDecisions_append]
          simp only [hrun]
        | true =>
          have hmid := (latestDecisions_congr (collectDecisions_spec hpages hrun).responses.1 none).trans hview
          obtain ⟨visited, hsub, hall, hloop⟩ :=
            @ih mid (position + size) (scanned + (decision :: more).length) hmid (by omega) hfits
          rw [hcursor] at hloop
          refine ⟨(decision :: more) ++ visited, ?_, fun hnone => ?_, ?_⟩
          · rw [hrest]
            exact List.append_subset.mpr ⟨List.subset_append_left _ _, fun _ hr => List.mem_append_right _ (hsub hr)⟩
          · rw [hall hnone, ← hrest]
          · rw [collectDecisions_append]
            cases hlast : (decision :: more).getLast? with
            | none => simp at hlast
            | some last =>
              rw [hlast] at hloop
              simp only [hrun, Option.map_some]
              exact hloop

theorem latestDecisions_length : (s.latestDecisions env.collation none).length ≤ s.responses.rows.length := by
  rw [latestDecisions, List.length_insertionSort]
  exact (List.length_filter_le _ _).trans (List.length_filter_le _ _)

/-- A run returns, and what it did is to go through a part of the view, or all of it. -/
theorem collectLegislationCitations_eq (env : CitationEnv) (limit : Option ℕ) (s : CitationStore) :
    ∃ visited, (∀ r ∈ visited, s.LatestVisa r) ∧ (limit = none → visited = s.latestDecisions env.collation none) ∧
      s.collectLegislationCitations env limit = some (closeRun env (collectDecisions env visited s)) := by
  have hlength := @latestDecisions_length env s
  obtain ⟨visited, hsub, hall, hrun⟩ := @collectPages_eq env s limit (s.responses.rows.length + 2) 0 0 _ rfl (by omega)
    (Nat.zero_le _)
  rw [List.drop_zero] at hsub hall
  rw [List.take_zero, List.getLast?_nil, Option.map_none] at hrun
  refine ⟨visited, fun r hr => (mem_latestDecisions.mp (hsub hr)).1, hall, ?_⟩
  rw [collectLegislationCitations, hrun, Option.map_some]

def staleCount (env : CitationEnv) (store : CitationStore) (r : CitationResolution) : Bool :=
  r.occurrenceCount != store.occurrenceCount env r.corpus r.citationKey

theorem mem_finalize {r : CitationResolution} : r ∈ (s.finalizeCitationOccurrenceCounts env).resolutions ↔
    (∃ old ∈ s.resolutions, s.staleCount env old = true ∧ s.recount env old = r) ∨
      (r ∈ s.resolutions ∧ s.staleCount env r = false) :=
  @Table.mem_update _ _ _ s.resolutions (s.staleCount env) (s.recount env) (fun _ => rfl) r

theorem finalize_spec (s : CitationStore) : (∀ o, o ∈ (s.finalizeCitationOccurrenceCounts env).occurrences ↔ o ∈ s.occurrences) ∧
    (∀ r ∈ (s.finalizeCitationOccurrenceCounts env).resolutions,
      r.occurrenceCount = s.occurrenceCount env r.corpus r.citationKey) ∧
    (∀ r ∈ s.resolutions, ∃ r' ∈ (s.finalizeCitationOccurrenceCounts env).resolutions, r'.subject = r.subject) ∧
    ∃ events, (s.finalizeCitationOccurrenceCounts env).outbox = s.outbox ++ events ∧
      ∀ r ∈ (s.finalizeCitationOccurrenceCounts env).resolutions,
        r ∈ s.resolutions ∨ resolutionEvent r.corpus r.citationKey ∈ events := by
  refine ⟨fun o => Iff.rfl, fun r hr => ?_, fun r hr => ?_, _, rfl, fun r hr => ?_⟩
  · rcases mem_finalize.mp hr with ⟨old, _, _, rfl⟩ | ⟨_, hfresh⟩
    · rfl
    · simpa [staleCount] using hfresh
  · by_cases hstale : s.staleCount env r = true
    · exact ⟨s.recount env r, mem_finalize.mpr (Or.inl ⟨r, hr, hstale, rfl⟩), rfl⟩
    · exact ⟨r, mem_finalize.mpr (Or.inr ⟨hr, by simpa using hstale⟩), rfl⟩
  · rcases mem_finalize.mp hr with ⟨old, hold, hstale, rfl⟩ | ⟨hr, _⟩
    · exact Or.inr (List.mem_map.mpr ⟨old, List.mem_filter.mpr ⟨hold, hstale⟩, rfl⟩)
    · exact Or.inl hr

theorem finalize_settled (h : ∀ r ∈ s.resolutions, r.occurrenceCount = s.occurrenceCount env r.corpus r.citationKey) :
    s.finalizeCitationOccurrenceCounts env = s := by
  have hfresh : ∀ r ∈ s.resolutions.rows,
      (r.occurrenceCount != s.occurrenceCount env r.corpus r.citationKey) = false := by
    intro r hr
    rw [h r hr, bne_self_eq_false]
  have hnone : (s.resolutions.rows.filter fun r => r.occurrenceCount != s.occurrenceCount env r.corpus r.citationKey) = [] := by
    rw [List.filter_eq_nil_iff]
    intro r hr
    rw [hfresh r hr]
    exact Bool.false_ne_true
  have hrows : (s.resolutions.rows.map fun r =>
      if (r.occurrenceCount != s.occurrenceCount env r.corpus r.citationKey) = true then s.recount env r else r) =
        s.resolutions.rows := by
    refine (List.map_congr_left fun r hr => ?_).trans (List.map_id _)
    rw [hfresh r hr, if_neg Bool.false_ne_true]
    rfl
  unfold finalizeCitationOccurrenceCounts
  dsimp only
  rw [hnone, List.map_nil, List.append_nil]
  cases s with
  | mk responses nextResponseId occurrences resolutions outbox =>
    cases resolutions with
    | mk rows nodup => simp only [Table.update, hrows]

end CitationStore

inductive CitationAction where
  | archive (exchange : ArchivedExchange)
  | collect (limit : Option ℕ)

namespace CitationStore

def start : CitationStore := ⟨Table.empty, 1, Table.empty, Table.empty, []⟩

def step (env : CitationEnv) (s : CitationStore) : CitationAction → CitationStore
  | .archive exchange => (s.insertOfficialApiResponse env exchange).getD s
  | .collect limit => match s.collectLegislationCitations env limit with
    | some (t, _) => t
    | none => s

/-- Every stored citation is of a visa of the archive, and has its resolution. -/
structure CitationInvariant (env : CitationEnv) (s : CitationStore) : Prop where
  traced : ∀ o ∈ s.occurrences, ∃ response ∈ s.responses, response.carriesVisa = true ∧ o ∈ occurrencesOf env.runtime response
  resolved : ∀ o ∈ s.occurrences, ∃ corpus, env.corpusOf o.decisionDocumentId = some corpus ∧
    ∃ r ∈ s.resolutions, r.subject = (corpus, o.citationKey)

theorem CitationInvariant.recorded (h : CitationInvariant env s) (hrecorded : Recorded env s t) :
    CitationInvariant env t := by
  refine ⟨fun o ho => ?_, fun o ho => ?_⟩
  · rw [hrecorded.responses.1]
    rcases hrecorded.traced o ho with hold | hnew
    · exact h.traced o hold
    · exact hnew
  · rcases hrecorded.resolved o ho with hold | hnew
    · obtain ⟨corpus, hcorpus, r, hr, hsubject⟩ := h.resolved o hold
      exact ⟨corpus, hcorpus, r, hrecorded.keptResolutions r hr, hsubject⟩
    · exact hnew

theorem CitationInvariant.finalized (h : CitationInvariant env s) :
    CitationInvariant env (s.finalizeCitationOccurrenceCounts env) := by
  obtain ⟨hoccurrences, _, hresolutions, _⟩ := @finalize_spec env s
  refine ⟨fun o ho => h.traced o ((hoccurrences o).mp ho), fun o ho => ?_⟩
  obtain ⟨corpus, hcorpus, r, hr, hsubject⟩ := h.resolved o ((hoccurrences o).mp ho)
  obtain ⟨r', hr', hsame⟩ := hresolutions r hr
  exact ⟨corpus, hcorpus, r', hr', hsame.trans hsubject⟩

theorem CitationInvariant.collected {limit : Option ℕ} {done : Bool} (h : CitationInvariant env s)
    (hrun : s.collectLegislationCitations env limit = some (t, done)) : CitationInvariant env t := by
  obtain ⟨visited, hlatest, _, heq⟩ := collectLegislationCitations_eq env limit s
  rw [heq] at hrun
  cases hcollect : collectDecisions env visited s with
  | mk mid completed =>
    have hmid := h.recorded (collectDecisions_spec hlatest hcollect)
    rw [hcollect] at hrun
    cases completed with
    | true =>
      cases hrun
      exact hmid.finalized
    | false =>
      cases hrun
      exact hmid

theorem CitationInvariant.archived {exchange : ArchivedExchange} (h : CitationInvariant env s)
    (harchive : s.insertOfficialApiResponse env exchange = some t) : CitationInvariant env t := by
  unfold insertOfficialApiResponse at harchive
  split at harchive
  · cases harchive
  obtain ⟨responses, hinsert, rfl⟩ := Option.map_eq_some_iff.mp harchive
  refine ⟨fun o ho => ?_, h.resolved⟩
  obtain ⟨response, hresponse, hvisa⟩ := h.traced o ho
  exact ⟨response, (Table.mem_insert hinsert).mpr (Or.inr hresponse), hvisa⟩

theorem CitationInvariant.step (h : CitationInvariant env s) (a : CitationAction) :
    CitationInvariant env (s.step env a) := by
  cases a with
  | archive exchange =>
    rw [CitationStore.step]
    cases harchive : s.insertOfficialApiResponse env exchange with
    | none => exact h
    | some t => exact h.archived harchive
  | collect limit =>
    rw [CitationStore.step]
    cases hrun : s.collectLegislationCitations env limit with
    | none => exact h
    | some result => exact h.collected hrun

/-- What a completed run without a limit leaves of a store: the citations that were there
and those of the latest visas, counted, with an event for every row that is new or
changed, and nothing for another run to do. -/
structure CompletedRun (env : CitationEnv) (s t : CitationStore) : Prop where
  archive : t.responses = s.responses
  occurrences : ∀ place, (∃ o ∈ t.occurrences, o.place = place) ↔ (∃ o ∈ s.occurrences, o.place = place) ∨
    ∃ response, s.LatestVisa response ∧ place ∈ (occurrencesOf env.runtime response).map CitationOccurrence.place
  kept : ∀ o ∈ s.occurrences, o ∈ t.occurrences
  invariant : CitationInvariant env t
  counted : ∀ r ∈ t.resolutions, r.occurrenceCount = t.occurrenceCount env r.corpus r.citationKey
  emitted : ∃ events, t.outbox = s.outbox ++ events ∧
    (∀ o ∈ t.occurrences, o ∉ s.occurrences → ∃ corpus, env.corpusOf o.decisionDocumentId = some corpus ∧
      occurrenceEvent corpus o.decisionDocumentId ∈ events) ∧
    ∀ r ∈ t.resolutions, r ∉ s.resolutions → resolutionEvent r.corpus r.citationKey ∈ events
  again : t.collectLegislationCitations env none = some (t, true)

theorem CitationInvariant.completed (h : CitationInvariant env s)
    (hrun : s.collectLegislationCitations env none = some (t, true)) : CompletedRun env s t := by
  have hinvariant := h.collected hrun
  obtain ⟨visited, hlatest, hall, heq⟩ := collectLegislationCitations_eq env none s
  have hvisited := hall rfl
  rw [heq] at hrun
  cases hcollect : collectDecisions env visited s with
  | mk mid completed =>
    rw [hcollect] at hrun
    cases completed with
    | false => cases hrun
    | true =>
      obtain rfl : mid.finalizeCitationOccurrenceCounts env = t := congrArg Prod.fst (Option.some.inj hrun)
      have hrecorded := collectDecisions_spec hlatest hcollect
      rw [collectDecisions_eq] at hcollect
      obtain ⟨_, honly, hcovered⟩ := recordCitations_spec (latest_from hlatest) hcollect
      obtain ⟨hoccurrences, hcounted, hresolutions, counts, hcounts, hchanged⟩ := @finalize_spec env mid
      obtain ⟨events, hevents, hnew, hcreated⟩ := hrecorded.events
      refine ⟨hrecorded.responses.1, fun place => ⟨?_, ?_⟩, hrecorded.kept, hinvariant, hcounted,
        ⟨events ++ counts, by rw [hcounts, hevents, List.append_assoc], fun o ho hold => ?_, fun r hr hold => ?_⟩, ?_⟩
      · rintro ⟨o, ho, rfl⟩
        rcases honly o ho with hold | hcited
        · exact Or.inl ⟨o, hold, rfl⟩
        · obtain ⟨response, hresponse, hcited⟩ := List.mem_flatMap.mp hcited
          exact Or.inr ⟨response, hlatest response hresponse, List.mem_map_of_mem hcited⟩
      · rintro (⟨o, ho, rfl⟩ | ⟨response, hresponse, hplace⟩)
        · exact ⟨o, hrecorded.kept o ho, rfl⟩
        · obtain ⟨o, ho, rfl⟩ := List.mem_map.mp hplace
          have hmem : response ∈ visited := hvisited ▸ mem_latestDecisions.mpr ⟨hresponse, rfl⟩
          exact (hcovered rfl o (List.mem_flatMap.mpr ⟨response, hmem, ho⟩)).1
      · obtain ⟨corpus, hcorpus, hevent⟩ := (hnew o ho).resolve_left hold
        exact ⟨corpus, hcorpus, List.mem_append_left _ hevent⟩
      · rcases hchanged r hr with hmid | hevent
        · exact List.mem_append_left _ ((hcreated r hmid).resolve_left hold)
        · exact List.mem_append_right _ hevent
      · have hview : (mid.finalizeCitationOccurrenceCounts env).latestDecisions env.collation none = visited := by
          rw [hvisited]
          exact latestDecisions_congr hrecorded.responses.1 none
        have hcovered' : Covered env (mid.finalizeCitationOccurrenceCounts env) (visited.flatMap (occurrencesOf env.runtime)) := by
          intro o ho
          obtain ⟨hthere, corpus, hcorpus, r, hr, hsubject⟩ := hcovered rfl o ho
          obtain ⟨r', hr', hsame⟩ := hresolutions r hr
          exact ⟨hthere, corpus, hcorpus, r', hr', hsame.trans hsubject⟩
        obtain ⟨visited', _, hall', heq'⟩ := collectLegislationCitations_eq env none (mid.finalizeCitationOccurrenceCounts env)
        rw [heq', hall' rfl, hview, collectDecisions_eq, recordCitations_covered hcovered', closeRun,
          finalize_settled hcounted]

end CitationStore

open CitationStore in
/-- After any fetches and runs, limited and broken off ones too. -/
theorem collect_run_exact (env : CitationEnv) (actions : List CitationAction) (t : CitationStore)
    (h : (runFrom (step env) start actions).collectLegislationCitations env none = some (t, true)) :
    CompletedRun env (runFrom (step env) start actions) t := by
  have hstart : CitationInvariant env start :=
    ⟨fun _ ho => absurd ho (Table.not_mem_empty _), fun _ ho => absurd ho (Table.not_mem_empty _)⟩
  exact (runFrom_keeps_all (fun _ a hs => hs.step a) hstart).completed h

def plainCitations : CitationEnv where
  collation := codePointCollation
  corpusOf _ := some "core".toList
  runtime := ⟨List.map Char.toLower, List.map Char.toUpper, fun _ => none, id⟩

/-- A response for one decision, whose visa has one entry. -/
def decisionResponse (title : Text) : ArchivedExchange where
  provider := "judilibre".toList
  endpoint := "/cassation/judilibre/v1.0/decision".toList
  outcome := "ok".toList
  subjectDocumentId := some "cass:DEC1".toList
  subjectSourceUid := some "DEC1".toList
  responseJson := some (.object [("visa".toList, .array [.object [("title".toList, .string title)]])])
  corpus := none

def firstFetch : List CitationAction := [.archive (decisionResponse "Article 609 du code civil".toList)]

open CitationStore in
theorem collect_run_exact_first : ∃ t, CompletedRun plainCitations (runFrom (step plainCitations) start firstFetch) t := by
  have hdone : ((runFrom (step plainCitations) start firstFetch).collectLegislationCitations plainCitations none).map
      Prod.snd = some true := by decide
  obtain ⟨⟨t, done⟩, hrun, hsnd⟩ := Option.map_eq_some_iff.mp hdone
  obtain rfl : done = true := hsnd
  exact ⟨t, collect_run_exact plainCitations firstFetch t hrun⟩

def secondFetch : List CitationAction :=
  firstFetch ++ [.collect none, .archive (decisionResponse "Article 700 du code civil".toList), .collect none]

def citedPlace (article : Text) : Text × ℕ × Text :=
  ("cass:DEC1".toList, 0, plainCitations.runtime.legislationCitationKey article "code civil".toList)

open CitationStore in
/-- The citation of the first visa is still stored after a run over the second. -/
theorem dropped_citation_kept : ¬ ∀ place, (∃ o ∈ (runFrom (step plainCitations) start secondFetch).occurrences, o.place = place) ↔
    ∃ response, (runFrom (step plainCitations) start secondFetch).LatestVisa response ∧
      place ∈ (occurrencesOf plainCitations.runtime response).map CitationOccurrence.place := by
  intro h
  have hstored : (runFrom (step plainCitations) start secondFetch).occurrences.rows.map CitationOccurrence.place =
      [citedPlace "700".toList, citedPlace "609".toList] := by decide
  have hlatest : ((runFrom (step plainCitations) start secondFetch).latestDecisions plainCitations.collation none).flatMap
      (fun response => (occurrencesOf plainCitations.runtime response).map CitationOccurrence.place) =
      [citedPlace "700".toList] := by decide
  have hfirst : citedPlace "609".toList ∈
      (runFrom (step plainCitations) start secondFetch).occurrences.rows.map CitationOccurrence.place := by
    rw [hstored]
    simp
  obtain ⟨o, ho, hplace⟩ := List.mem_map.mp hfirst
  obtain ⟨response, hresponse, hcited⟩ := (h (citedPlace "609".toList)).mp ⟨o, ho, hplace⟩
  have hmem : citedPlace "609".toList ∈ [citedPlace "700".toList] :=
    hlatest ▸ List.mem_flatMap.mpr ⟨response, mem_latestDecisions.mpr ⟨hresponse, rfl⟩, hcited⟩
  rw [List.mem_singleton] at hmem
  exact absurd hmem (by decide)

end CorpusFeed
