import CorpusFeed.EmbeddingPoolAccounts
import Mathlib.Data.List.Perm.Subperm
import Mathlib.Data.Multiset.Basic

/-! Under every scheduling the pool returns, no batch is lost or inserted twice, and
nothing is inserted once an error has reached the main thread. -/

namespace CorpusFeed

variable {F σ : Type*} {setup : PoolSetup F σ} {vectorOf : EmbeddingConfig → Text → List F → Prop}
  {batches : List EmbeddingBatchWork} {s : PoolState σ} {start : σ}

theorem chunksOf_flatten {α : Type*} {size : ℕ} (hsize : size ≠ 0) (items : List α) :
    (chunksOf size items).flatten = items := by
  induction hlength : items.length using Nat.strongRecOn generalizing items with
  | ind length ih =>
    rw [chunksOf]
    by_cases hempty : items = []
    · rw [if_pos (Or.inr hempty), hempty, List.flatten_nil]
    · have hpos := List.length_pos_of_ne_nil hempty
      have hshorter : (items.drop size).length < length := by
        rw [List.length_drop]
        omega
      rw [if_neg (by simp [hsize, hempty]), List.flatten_cons, ih _ hshorter _ rfl, List.take_append_drop]

theorem flatten_sublist {α : Type*} {part whole : List (List α)} (h : part.Sublist whole) :
    part.flatten.Sublist whole.flatten := by
  induction h with
  | slnil => exact List.Sublist.refl _
  | cons items _ ih =>
    rw [List.flatten_cons]
    exact ih.trans (List.sublist_append_right _ _)
  | cons_cons items _ ih =>
    rw [List.flatten_cons, List.flatten_cons]
    exact (List.Sublist.refl _).append ih

namespace PoolState

theorem PoolInvariant.initial {inputs : List ChunkEmbeddingInput} {endpointConfigs : List EmbeddingEndpointPoolConfig}
    {batchSize poolConcurrency : ℕ} (hbatch : 1 ≤ batchSize) (hworkers : 1 ≤ poolConcurrency) (start : σ) :
    ∃ s, embedAndInsertWithPool inputs endpointConfigs batchSize poolConcurrency start = .ok s ∧
      PoolInvariant setup vectorOf (chunksOf batchSize inputs) start s := by
  rw [embedAndInsertWithPool, if_neg (by omega), if_neg (by omega)]
  refine ⟨_, rfl, ?_, ?_, by simp, by simp, rfl, by simp [Refused], ?_, by simp⟩
  · refine ⟨0, 0, ?_, ?_, fun _ => rfl⟩
    · simp [answers, MainPhase.answers, WorkerPhase.answers]
    · simp [held, WorkerPhase.held]
  · intro phase hphase i client endpoint hi
    rw [(List.mem_replicate.mp hphase).2] at hi
    simp [WorkerPhase.clients] at hi
  · intro hnone
    have hcount := congrArg List.length hnone
    rw [List.length_replicate, List.length_nil] at hcount
    omega

/-- Everything that was passed to `insert_batch`, and what of it went in. -/
def passed (s : PoolState σ) : List OwnedChunkEmbedding := (s.calls.map Prod.fst).flatten

def inserted (s : PoolState σ) : List OwnedChunkEmbedding := ((s.calls.filter fun call => call.2.isOk).map Prod.fst).flatten

theorem inserted_sublist (s : PoolState σ) : s.inserted.Sublist s.passed :=
  flatten_sublist (List.filter_sublist.map Prod.fst)

theorem rel_coe {α β : Type*} {r : α → β → Prop} {as : List α} {bs : List β}
    (h : Multiset.Rel r (Multiset.ofList as) (Multiset.ofList bs)) : ∃ as', as'.Perm as ∧ List.Forall₂ r as' bs := by
  induction bs generalizing as with
  | nil =>
    rw [Multiset.coe_nil, Multiset.rel_zero_right, Multiset.coe_eq_zero] at h
    exact ⟨[], h ▸ List.Perm.refl _, List.Forall₂.nil⟩
  | cons b bs ih =>
    rw [← Multiset.cons_coe, Multiset.rel_cons_right] at h
    obtain ⟨a, rest, hab, hrest, has⟩ := h
    rw [← Multiset.coe_toList rest] at hrest has
    obtain ⟨as', hperm, hforall⟩ := ih hrest
    rw [Multiset.cons_coe, Multiset.coe_eq_coe] at has
    exact ⟨a :: as', (hperm.cons a).trans has.symm, List.Forall₂.cons hab hforall⟩

theorem ownBatch_flatten {works : List EmbeddingBatchWork} {embeddings : List (List OwnedChunkEmbedding)}
    (h : List.Forall₂ (OwnBatch setup vectorOf) works embeddings) :
    List.Forall₂ (Own setup vectorOf) works.flatten embeddings.flatten := by
  induction h with
  | nil => exact List.Forall₂.nil
  | cons hbatch _ ih =>
    rw [List.flatten_cons, List.flatten_cons]
    exact List.rel_append hbatch ih

theorem own_ids {inputs : List ChunkEmbeddingInput} {embeddings : List OwnedChunkEmbedding}
    (h : List.Forall₂ (Own setup vectorOf) inputs embeddings) :
    embeddings.map OwnedChunkEmbedding.chunkId = inputs.map ChunkEmbeddingInput.chunkId := by
  induction h with
  | nil => rfl
  | cons hown _ ih =>
    obtain ⟨_, _, _, _, rfl⟩ := hown
    rw [List.map_cons, List.map_cons, ih]

/-- What was passed to `insert_batch` is, input by input, of a part of the batches. -/
theorem PoolInvariant.passed (h : PoolInvariant setup vectorOf batches start s) : ∃ works : List EmbeddingBatchWork,
    works.Subperm batches ∧ List.Forall₂ (OwnBatch setup vectorOf) works (s.calls.map Prod.fst) := by
  obtain ⟨answered, lost, hrel, htotal, _⟩ := h.accounted
  rw [answers, Multiset.rel_add_right] at hrel
  obtain ⟨others, called, _, hcalled, rfl⟩ := hrel
  rw [← Multiset.coe_toList called] at hcalled
  obtain ⟨works, hperm, hforall⟩ := rel_coe hcalled
  refine ⟨works, ?_, hforall⟩
  rw [← Multiset.coe_le, Multiset.coe_eq_coe.mpr hperm, Multiset.coe_toList, ← htotal]
  refine Multiset.le_iff_exists_add.mpr ⟨Multiset.ofList s.queue + s.held + others + lost, ?_⟩
  abel

theorem PoolInvariant.fine (h : PoolInvariant setup vectorOf batches start s) {run : EmbeddingPoolRun}
    (hmain : s.main = .returned (.ok run)) : ¬ s.Failed ∧ ∀ phase ∈ s.workers, phase = .exited := by
  obtain ⟨hchannel, hfinished, hresult⟩ := h.ended _ hmain
  have hnone : s.firstError = none := by
    cases herror : s.firstError with
    | none => rfl
    | some e =>
      rw [outcome, herror] at hresult
      cases hresult
  have hcalm : s.workers.any isPanicked = false := by
    by_contra hpanicked
    rw [Bool.not_eq_false] at hpanicked
    rw [outcome, hnone, if_pos hpanicked] at hresult
    cases hresult
  have hexited : ∀ phase ∈ s.workers, phase = .exited := by
    intro phase hphase
    have hdone := List.all_eq_true.mp hfinished phase hphase
    have hnot := List.any_eq_false.mp hcalm phase hphase
    cases phase with
    | exited => rfl
    | panicked => exact absurd rfl hnot
    | _ => cases hdone
  refine ⟨?_, hexited⟩
  rintro ((herror | hfailed) | ⟨message, hmessage, _⟩ | ⟨phase, hphase, hfailed⟩)
  · rw [hnone] at herror
    cases herror
  · rw [hmain] at hfailed
    cases hfailed
  · rw [hchannel] at hmessage
    cases hmessage
  · rw [hexited phase hphase] at hfailed
    cases hfailed

theorem PoolInvariant.complete (h : PoolInvariant setup vectorOf batches start s) {run : EmbeddingPoolRun}
    (hmain : s.main = .returned (.ok run)) : ∃ works : List EmbeddingBatchWork,
    works.Perm batches ∧ List.Forall₂ (OwnBatch setup vectorOf) works (s.calls.map Prod.fst) := by
  obtain ⟨hfine, hexited⟩ := h.fine hmain
  obtain ⟨hchannel, _, _⟩ := h.ended _ hmain
  obtain ⟨answered, lost, hrel, htotal, hlost⟩ := h.accounted
  obtain ⟨phase, hphase⟩ := List.exists_mem_of_ne_nil _ h.staffed
  have hqueue : s.queue = [] := (h.drained (hexited phase hphase ▸ hphase)).resolve_left hfine
  have hheld : s.held = 0 := List.sum_eq_zero fun _ hx => by
    obtain ⟨phase, hphase, rfl⟩ := List.mem_map.mp hx
    rw [hexited phase hphase]
    rfl
  have hworkers : (s.workers.map WorkerPhase.answers).sum = 0 := List.sum_eq_zero fun _ hx => by
    obtain ⟨phase, hphase, rfl⟩ := List.mem_map.mp hx
    rw [hexited phase hphase]
    rfl
  have hanswers : s.answers = Multiset.ofList (s.calls.map Prod.fst) := by
    simp [answers, hworkers, hchannel, hmain, MainPhase.answers]
  rw [hqueue, hheld, hlost hfine, Multiset.coe_nil, zero_add, zero_add, add_zero] at htotal
  rw [hanswers, htotal] at hrel
  exact rel_coe hrel

theorem PoolInvariant.all_inserted (h : PoolInvariant setup vectorOf batches start s) {run : EmbeddingPoolRun}
    (hmain : s.main = .returned (.ok run)) : s.inserted = s.passed := by
  have hok : ∀ call ∈ s.calls, call.2.isOk = true := by
    intro call hcall
    cases hresult : call.2 with
    | ok n => rfl
    | error e =>
      refine absurd (Or.inl ?_) (h.fine hmain).1
      rcases h.refused call hcall e hresult with hfirst | ⟨_, hstopping⟩
      · exact Or.inl (by rw [hfirst]; rfl)
      · exact Or.inr (by rw [hstopping]; rfl)
  rw [PoolState.inserted, PoolState.passed, List.filter_eq_self.mpr hok]

/-- The error of a call of `insert_batch` is the one that the pool returns. -/
theorem PoolInvariant.returned_refused (h : PoolInvariant setup vectorOf batches start s)
    {call : List OwnedChunkEmbedding × Except ErrorObject ℕ} (hcall : call ∈ s.calls) {e : ErrorObject}
    (he : call.2 = .error e) {result : Except ErrorObject EmbeddingPoolRun} (hmain : s.main = .returned result) :
    result = .error e := by
  obtain ⟨_, _, hresult⟩ := h.ended result hmain
  rcases h.refused call hcall e he with hfirst | ⟨_, hstopping⟩
  · rw [hresult, outcome, hfirst]
  · rw [hmain] at hstopping
    cases hstopping

/-- What a state of the pool over `inputs` promises: the recorded calls are those of
`insert_batch`; all of the inputs are inserted, each with its own vector, on success, a
part of them on an error, and nothing more after it. -/
structure PoolSound (setup : PoolSetup F σ) (vectorOf : EmbeddingConfig → Text → List F → Prop)
    (inputs : List ChunkEmbeddingInput) (start : σ) (s : PoolState σ) : Prop where
  called : s.Called setup start
  refused : ∀ call ∈ s.calls, ∀ e, call.2 = .error e → ∀ result, s.main = .returned result → result = .error e
  succeeded : ∀ run, s.main = .returned (.ok run) → s.inserted = s.passed ∧
    ∃ order : List ChunkEmbeddingInput, order.Perm inputs ∧ List.Forall₂ (Own setup vectorOf) order s.passed
  failed : ∀ e, s.main = .returned (.error e) →
    (s.inserted.map OwnedChunkEmbedding.chunkId).Subperm (inputs.map ChunkEmbeddingInput.chunkId) ∧
      ((inputs.map ChunkEmbeddingInput.chunkId).Nodup → (s.inserted.map OwnedChunkEmbedding.chunkId).Nodup)
  silent : s.ErrorReceived → ∀ t, Relation.ReflTransGen (Step setup vectorOf) s t → t.calls = s.calls

theorem PoolInvariant.sound {inputs : List ChunkEmbeddingInput} (h : PoolInvariant setup vectorOf batches start s)
    (hinputs : batches.flatten = inputs) : PoolSound setup vectorOf inputs start s := by
  refine ⟨h.called, fun call hcall e he result hmain => h.returned_refused hcall he hmain, fun run hmain => ?_, fun e hmain => ?_, fun herror t hreach => ?_⟩
  · obtain ⟨works, hperm, hforall⟩ := h.complete hmain
    exact ⟨h.all_inserted hmain, works.flatten, hinputs ▸ hperm.flatten, ownBatch_flatten hforall⟩
  · obtain ⟨works, ⟨part, hperm, hsub⟩, hforall⟩ := h.passed
    have hids := own_ids (ownBatch_flatten hforall)
    have hworks : (part.flatten.map ChunkEmbeddingInput.chunkId).Sublist (inputs.map ChunkEmbeddingInput.chunkId) :=
      hinputs ▸ (flatten_sublist hsub).map ChunkEmbeddingInput.chunkId
    have hpassed : (s.passed.map OwnedChunkEmbedding.chunkId).Subperm (inputs.map ChunkEmbeddingInput.chunkId) := by
      rw [PoolState.passed, hids]
      exact ⟨_, hperm.flatten.map ChunkEmbeddingInput.chunkId, hworks⟩
    have hinserted := ((inserted_sublist s).map OwnedChunkEmbedding.chunkId).subperm.trans hpassed
    refine ⟨hinserted, fun hnodup => ?_⟩
    obtain ⟨ids, hids, hsub⟩ := hinserted
    exact hids.nodup_iff.mp (hnodup.sublist hsub)
  · have hkeeps : ∀ u v : PoolState σ, u.ErrorReceived ∧ u.calls = s.calls → Step setup vectorOf u v →
        v.ErrorReceived ∧ v.calls = s.calls := by
      intro u v hu hstep
      obtain ⟨hv, hcalls⟩ := hstep.errorReceived hu.1
      exact ⟨hv, hcalls.trans hu.2⟩
    have hs : s.ErrorReceived ∧ s.calls = s.calls := ⟨herror, rfl⟩
    exact (reachable_keeps hkeeps hs hreach).2

end PoolState

/-- Whatever the order in which the threads move, and whatever fails, the pool comes to
an end, and what it inserted is what it reports. -/
theorem embed_and_insert_with_pool_sound {F σ : Type*} (runtime : EmbeddingRuntime F)
    (vectorOf : EmbeddingConfig → Text → List F → Prop) (inputs : List ChunkEmbeddingInput)
    (endpointConfigs : List EmbeddingEndpointPoolConfig) (batchSize poolConcurrency : ℕ)
    (insertBatch : List OwnedChunkEmbedding → σ → Except ErrorObject ℕ × σ) (start : σ) (hbatch : 1 ≤ batchSize)
    (hworkers : 1 ≤ poolConcurrency) :
    ∃ s, embedAndInsertWithPool inputs endpointConfigs batchSize poolConcurrency start = .ok s ∧
      Terminates (PoolState.Step ⟨runtime, endpointConfigs, inputs.length, insertBatch⟩ vectorOf) s
        (fun t => ∃ result, t.main = .returned result) ∧
      ∀ t, Relation.ReflTransGen (PoolState.Step ⟨runtime, endpointConfigs, inputs.length, insertBatch⟩ vectorOf) s t →
        PoolState.PoolSound ⟨runtime, endpointConfigs, inputs.length, insertBatch⟩ vectorOf inputs start t := by
  have hinitial : ∃ s, embedAndInsertWithPool inputs endpointConfigs batchSize poolConcurrency start = .ok s ∧
      PoolState.PoolInvariant ⟨runtime, endpointConfigs, inputs.length, insertBatch⟩ vectorOf
        (chunksOf batchSize inputs) start s :=
    PoolState.PoolInvariant.initial hbatch hworkers start
  obtain ⟨s, hs, hinvariant⟩ := hinitial
  refine ⟨s, hs, terminates_of_size (fun _ _ hstep => hstep.size_lt) PoolState.progress s, fun t hreach => ?_⟩
  have hkeeps : ∀ u v,
      PoolState.PoolInvariant ⟨runtime, endpointConfigs, inputs.length, insertBatch⟩ vectorOf
        (chunksOf batchSize inputs) start u →
      PoolState.Step ⟨runtime, endpointConfigs, inputs.length, insertBatch⟩ vectorOf u v →
      PoolState.PoolInvariant ⟨runtime, endpointConfigs, inputs.length, insertBatch⟩ vectorOf
        (chunksOf batchSize inputs) start v :=
    fun _ _ hu hstep => hu.step hstep
  have ht := reachable_keeps hkeeps hinvariant hreach
  exact ht.sound (chunksOf_flatten (by omega) inputs)

/-- An endpoint whose vectors are the texts. -/
def echoRuntime : EmbeddingRuntime Char where
  formatValue value := [value]
  formatNorm _ := "1.0000".toList
  offUnit _ := false
  baseUrlClass _ := .localLoopback
  debugFingerprint fingerprint := fingerprint.model

def echoEndpoint : EmbeddingEndpointPoolConfig :=
  let config : EmbeddingConfig :=
    { provider := .openAiCompatible, baseUrl := some "http://localhost:8080/v1".toList, model := "bge-m3".toList,
      requestModel := none, dimension := 6, normalize := true, pooling := "cls".toList,
      limits := ⟨some 20000, some 8192, 4⟩, tokenizerPath := none }
  ⟨"http://localhost:8080/v1".toList, none, config, config.fingerprint echoRuntime.baseUrlClass⟩

def twoInputs : List ChunkEmbeddingInput := [⟨"a".toList, "text a".toList⟩, ⟨"b".toList, "text b".toList⟩]

/-- A store that takes every batch. -/
def appendBatch (embeddings stored : List OwnedChunkEmbedding) :
    Except ErrorObject ℕ × List OwnedChunkEmbedding :=
  (.ok embeddings.length, stored ++ embeddings)

theorem embed_and_insert_with_pool_pair :
    ∃ s, embedAndInsertWithPool twoInputs [echoEndpoint] 1 2 [] = .ok s ∧
      Terminates (PoolState.Step ⟨echoRuntime, [echoEndpoint], 2, appendBatch⟩ fun _ text values => values = text) s
        (fun t => ∃ result, t.main = .returned result) ∧
      ∀ t, Relation.ReflTransGen
          (PoolState.Step ⟨echoRuntime, [echoEndpoint], 2, appendBatch⟩ fun _ text values => values = text) s t →
        PoolState.PoolSound ⟨echoRuntime, [echoEndpoint], 2, appendBatch⟩ (fun _ text values => values = text)
          twoInputs [] t :=
  embed_and_insert_with_pool_sound echoRuntime (fun _ text values => values = text) twoInputs [echoEndpoint] 1 2
    appendBatch [] (by decide) (by decide)

end CorpusFeed
