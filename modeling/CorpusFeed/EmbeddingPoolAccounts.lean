import CorpusFeed.EmbeddingPoolRun
import CorpusFeed.Runs

/-! The books of the pool: every batch is queued, held, answered, or lost to an error. -/

namespace CorpusFeed

theorem forall₂_map_zip {α β γ : Type*} {R : α → β → Prop} {Q : α → γ → Prop} {f : α × β → γ} {as : List α}
    {bs : List β} (h : List.Forall₂ R as bs) (hf : ∀ a b, R a b → Q a (f (a, b))) :
    List.Forall₂ Q as ((as.zip bs).map f) := by
  induction h with
  | nil => exact List.Forall₂.nil
  | cons hab _ ih => exact List.Forall₂.cons (hf _ _ hab) ih

/-- The batch that a worker has taken and has no answer for. -/
def WorkerPhase.held : WorkerPhase → Multiset EmbeddingBatchWork
  | .selecting _ work => {work}
  | .requesting _ work _ => {work}
  | _ => 0

def answersOf : BatchResult → Multiset (List OwnedChunkEmbedding)
  | .ok success => {success.embeddings}
  | .error _ => 0

def WorkerPhase.answers : WorkerPhase → Multiset (List OwnedChunkEmbedding)
  | .releasing _ _ _ result => answersOf result
  | .sending _ result => answersOf result
  | _ => 0

def MainPhase.answers : MainPhase → Multiset (List OwnedChunkEmbedding)
  | .received message => answersOf message
  | _ => 0

def isFailure : BatchResult → Bool
  | .ok _ => false
  | .error _ => true

def WorkerPhase.failed : WorkerPhase → Bool
  | .refusing _ => true
  | .reporting _ => true
  | .releasing _ _ _ result => isFailure result
  | .sending _ result => isFailure result
  | .panicked => true
  | _ => false

/-- The error that the main thread is at, if it is at one. -/
def MainPhase.failed : MainPhase → Bool
  | .received message => isFailure message
  | .stopping _ => true
  | _ => false

def WorkerPhase.clients : WorkerPhase → List OpenAiCompatibleClient
  | .checking clients => clients
  | .popping clients => clients
  | .selecting clients _ => clients
  | .requesting clients _ _ => clients
  | .releasing clients _ _ _ => clients
  | .sending clients _ => clients
  | _ => []

variable {F σ : Type*} (setup : PoolSetup F σ) (vectorOf : EmbeddingConfig → Text → List F → Prop)

/-- What is inserted for an input: its id, with a vector that an endpoint of the pool
gives for its text, cut to the budget of the endpoint. -/
def Own (input : ChunkEmbeddingInput) (owned : OwnedChunkEmbedding) : Prop :=
  ∃ endpoint ∈ setup.endpointConfigs, ∃ values,
    vectorOf endpoint.config (endpoint.config.limits.embeddingRequestText input.embeddingText).1 values ∧
    owned = ⟨input.chunkId, setup.runtime.pgvectorLiteral values⟩

def OwnBatch (work : EmbeddingBatchWork) (embeddings : List OwnedChunkEmbedding) : Prop :=
  List.Forall₂ (Own setup vectorOf) work embeddings

def ClientsOf (clients : List OpenAiCompatibleClient) : Prop :=
  ∀ (i : ℕ) (client : OpenAiCompatibleClient) (endpoint : EmbeddingEndpointPoolConfig), clients[i]? = some client →
    setup.endpointConfigs[i]? = some endpoint → client.config = endpoint.config

namespace PoolState

variable (s : PoolState σ)

def held : Multiset EmbeddingBatchWork := (s.workers.map WorkerPhase.held).sum

def answers : Multiset (List OwnedChunkEmbedding) :=
  (s.workers.map WorkerPhase.answers).sum + (s.channel.map answersOf).sum + s.main.answers +
    Multiset.ofList (s.calls.map Prod.fst)

/-- An error has reached the main thread. -/
def ErrorReceived : Prop := s.firstError.isSome = true ∨ s.main.failed = true

/-- An error has occurred somewhere. -/
def Failed : Prop :=
  s.ErrorReceived ∨ (∃ message ∈ s.channel, isFailure message = true) ∨ ∃ phase ∈ s.workers, phase.failed = true

/-- Every batch is in the queue, held, answered, or lost to an error. -/
def Accounted (batches : List EmbeddingBatchWork) : Prop :=
  ∃ answered lost : Multiset EmbeddingBatchWork, Multiset.Rel (OwnBatch setup vectorOf) answered s.answers ∧
    Multiset.ofList s.queue + s.held + answered + lost = Multiset.ofList batches ∧ (¬ s.Failed → lost = 0)

/-- The recorded calls are those of `insert_batch` from the state `start` on, each with
the result that it gave. -/
def Called (start : σ) : Prop :=
  callsFrom setup.insertBatch start (s.calls.map Prod.fst) = (s.calls, s.insertState)

/-- The error of a call of `insert_batch` is the first one, or is about to be. -/
def Refused : Prop :=
  ∀ call ∈ s.calls, ∀ e, call.2 = .error e → s.firstError = some e ∨ s.firstError = none ∧ s.main = .stopping e

end PoolState

variable {setup} {vectorOf} {outside : Surroundings vectorOf} {s t : PoolState σ}

theorem new_config {load : Text → Except Text Tokenizer} {config : EmbeddingConfig} {client : OpenAiCompatibleClient}
    (h : OpenAiCompatibleClient.new load config = .ok client) : client.config = config := by
  unfold OpenAiCompatibleClient.new at h
  split at h
  · cases h
  split at h
  · cases h
  split at h
  · cases h
    rfl
  split at h
  · cases h
    rfl
  · cases h

theorem buildClients_configs {runtime : EmbeddingRuntime F} {load : Text → Except Text Tokenizer}
    {configs : List EmbeddingEndpointPoolConfig} {clients : List OpenAiCompatibleClient}
    (h : buildClients runtime load configs = .ok clients) :
    clients.map OpenAiCompatibleClient.config = configs.map EmbeddingEndpointPoolConfig.config := by
  induction configs generalizing clients with
  | nil =>
    cases h
    rfl
  | cons config configs ih =>
    rw [buildClients] at h
    split at h
    · cases h
    split at h
    · cases h
    next client hclient _ rest hrest =>
    cases h
    rw [List.map_cons, List.map_cons, new_config hclient, ih hrest]

theorem clientsOf_of_configs {clients : List OpenAiCompatibleClient}
    (h : clients.map OpenAiCompatibleClient.config = setup.endpointConfigs.map EmbeddingEndpointPoolConfig.config) :
    ClientsOf setup clients := by
  intro i client endpoint hclient hendpoint
  have hi := congrArg (fun configs => configs[i]?) h
  simpa [hclient, hendpoint] using hi

theorem embedBatchOnEndpoint_ok {client : OpenAiCompatibleClient} {endpoint : EmbeddingEndpointPoolConfig}
    {work : EmbeddingBatchWork} {success : EmbeddingBatchSuccess} (hendpoint : endpoint ∈ setup.endpointConfigs)
    (hclient : client.config = endpoint.config)
    (h : embedBatchOnEndpoint setup.runtime client endpoint work outside.reply = .ok success) :
    OwnBatch setup vectorOf work success.embeddings := by
  unfold embedBatchOnEndpoint at h
  dsimp only at h
  split at h
  · cases h
  next vectors hvectors =>
  cases h
  have hown := embedBatchWithRetries_ok (fun attempt data => outside.inOrder client.config _ attempt data) hvectors
  rw [hclient, List.map_map, List.forall₂_map_left_iff, List.forall₂_map_right_iff] at hown
  exact forall₂_map_zip hown fun input entry hvalues => ⟨endpoint, hendpoint, entry.values, hvalues, rfl⟩

theorem WorkerMove.clientsOf {phase phase' : WorkerPhase} {queue : List EmbeddingBatchWork} {stop : Bool}
    {channel : List BatchResult} (h : WorkerMove setup outside s phase phase' queue stop channel)
    (hclients : ClientsOf setup phase.clients) : ClientsOf setup phase'.clients := by
  cases h with
  | built clients hbuilt => exact clientsOf_of_configs (buildClients_configs hbuilt)
  | _ => first | exact hclients | (intro i client endpoint hi; simp [WorkerPhase.clients] at hi)

theorem WorkerMove.accounts {phase phase' : WorkerPhase} {queue : List EmbeddingBatchWork} {stop : Bool}
    {channel : List BatchResult} (h : WorkerMove setup outside s phase phase' queue stop channel)
    (hclients : ClientsOf setup phase.clients) : ∃ (answered lost : Multiset EmbeddingBatchWork)
      (gained : Multiset (List OwnedChunkEmbedding)), Multiset.Rel (OwnBatch setup vectorOf) answered gained ∧
      Multiset.ofList queue + phase'.held + answered + lost = Multiset.ofList s.queue + phase.held ∧
      phase'.answers + (channel.map answersOf).sum = phase.answers + (s.channel.map answersOf).sum + gained ∧
      (phase'.failed = false → lost = 0) := by
  cases h with
  | popped clients work rest hqueue =>
    refine ⟨0, 0, 0, .zero, ?_, by simp [WorkerPhase.answers], fun _ => rfl⟩
    rw [hqueue, ← Multiset.cons_coe, ← Multiset.singleton_add]
    simp only [WorkerPhase.held]
    abel
  | unselected clients work =>
    exact ⟨0, {work}, 0, .zero, by simp [WorkerPhase.held], by simp [WorkerPhase.answers], by simp [WorkerPhase.failed]⟩
  | unanswered clients work i =>
    exact ⟨0, {work}, 0, .zero, by simp [WorkerPhase.held], by simp [WorkerPhase.answers], by simp [WorkerPhase.failed]⟩
  | answered clients work i client endpoint hclient hendpoint =>
    cases hresult : embedBatchOnEndpoint setup.runtime client endpoint work outside.reply with
    | error e =>
      exact ⟨0, {work}, 0, .zero, by simp [WorkerPhase.held], by simp [WorkerPhase.answers, answersOf],
        by simp [WorkerPhase.failed, isFailure]⟩
    | ok success =>
      have hown := embedBatchOnEndpoint_ok (List.mem_of_getElem? hendpoint)
        (hclients i client endpoint hclient hendpoint) hresult
      exact ⟨{work}, 0, {success.embeddings}, Multiset.rel_cons_left.mpr ⟨_, 0, hown, .zero, rfl⟩,
        by simp [WorkerPhase.held], by simp [WorkerPhase.answers, answersOf, add_comm], fun _ => rfl⟩
  | reported e =>
    refine ⟨0, 0, 0, .zero, by simp [WorkerPhase.held], ?_, fun _ => rfl⟩
    simp [WorkerPhase.answers, answersOf]
  | sent clients result =>
    refine ⟨0, 0, 0, .zero, by simp [WorkerPhase.held], ?_, fun _ => rfl⟩
    simp only [WorkerPhase.answers, List.map_append, List.sum_append, List.map_singleton, List.sum_singleton]
    abel
  | _ => exact ⟨0, 0, 0, .zero, by simp [WorkerPhase.held], by simp [WorkerPhase.answers], fun _ => rfl⟩

theorem WorkerMove.unfinished {phase phase' : WorkerPhase} {queue : List EmbeddingBatchWork} {stop : Bool}
    {channel : List BatchResult} (h : WorkerMove setup outside s phase phase' queue stop channel) :
    PoolState.finished phase = false := by
  cases h <;> rfl

theorem WorkerMove.failed {phase phase' : WorkerPhase} {queue : List EmbeddingBatchWork} {stop : Bool}
    {channel : List BatchResult} (h : WorkerMove setup outside s phase phase' queue stop channel) :
    (phase.failed = true → phase'.failed = true ∨ ∃ message ∈ channel, isFailure message = true) ∧
      s.channel ⊆ channel ∧ (stop = true → s.stopRequested = true ∨ phase'.failed = true) ∧
      (phase' = .exited → s.stopRequested = true ∨ queue = [] ∨ ∃ message ∈ channel, isFailure message = true) ∧
      (s.queue = [] → queue = []) := by
  cases h <;> simp_all [WorkerPhase.failed, isFailure]

namespace PoolState

theorem Step.failed (h : Step setup vectorOf s t) (hs : s.Failed) : t.Failed := by
  cases h with
  | worker outside w phase t hphase hstep =>
    obtain ⟨phase', queue, stop, channel, endpoints, hmove, rfl⟩ := workerStep_cases hstep
    obtain ⟨hmoved, hchannel, _⟩ := hmove.failed
    rcases hs with hreceived | ⟨message, hmessage, hfailure⟩ | ⟨p, hp, hfailed⟩
    · exact Or.inl hreceived
    · exact Or.inr (Or.inl ⟨message, hchannel hmessage, hfailure⟩)
    · obtain ⟨k, hk⟩ := List.mem_iff_getElem?.mp hp
      by_cases hkw : k = w
      · subst hkw
        obtain rfl : phase = p := by simpa [hphase] using hk
        have hlt := (List.getElem?_eq_some_iff.mp hphase).1
        rcases hmoved hfailed with hfailed' | hmessage
        · exact Or.inr (Or.inr ⟨phase', List.mem_set hlt phase', hfailed'⟩)
        · exact Or.inr (Or.inl hmessage)
      · have hk' : (s.workers.set w phase')[k]? = some p := by rwa [List.getElem?_set_ne (Ne.symm hkw)]
        exact Or.inr (Or.inr ⟨p, List.mem_of_getElem? hk', hfailed⟩)
  | main t hstep =>
    rcases hs with (herror | hmain) | ⟨message, hmessage, hfailure⟩ | hworkers
    · have hstays : t.firstError.isSome = true := by
        cases mainStep_cases hstep with
        | stop e _ => simp
        | _ => exact herror
      exact Or.inl (Or.inl hstays)
    · cases mainStep_cases hstep <;> simp_all [Failed, ErrorReceived, MainPhase.failed, isFailure]
    · cases mainStep_cases hstep with
      | receive first channel _ hchannel =>
        rw [hchannel] at hmessage
        rcases List.mem_cons.mp hmessage with rfl | hmessage
        · exact Or.inl (Or.inr hfailure)
        · exact Or.inr (Or.inl ⟨message, hmessage, hfailure⟩)
      | _ => exact Or.inr (Or.inl ⟨message, hmessage, hfailure⟩)
    · cases mainStep_cases hstep <;> exact Or.inr (Or.inr hworkers)

/-- After an error has been received nothing more is passed to `insert_batch`. -/
theorem Step.errorReceived (h : Step setup vectorOf s t) (hs : s.ErrorReceived) :
    t.ErrorReceived ∧ t.calls = s.calls := by
  cases h with
  | worker outside w phase t hphase hstep =>
    obtain ⟨phase', queue, stop, channel, endpoints, _, rfl⟩ := workerStep_cases hstep
    exact ⟨hs, rfl⟩
  | main t hstep =>
    cases mainStep_cases hstep <;> simp_all [ErrorReceived, MainPhase.failed, isFailure]

theorem balance {M : Type*} [AddCancelCommMonoid M] {q h a l total q' h' a' l' f f' : M} (hbefore : q + h + a + l = total)
    (hset : h' + f = h + f') (hmove : q' + f' + a' + l' = q + f) : q' + h' + (a + a') + (l + l') = total := by
  have hsum : q' + h' + (a + a') + (l + l') + f = total + f :=
    calc q' + h' + (a + a') + (l + l') + f = (h' + f) + (q' + a' + l' + a + l) := by abel
      _ = (q' + f' + a' + l') + (h + a + l) := by rw [hset]; abel
      _ = (q + h + a + l) + f := by rw [hmove]; abel
      _ = total + f := by rw [hbefore]
  exact add_right_cancel hsum

theorem carry {M : Type*} [AddCancelCommMonoid M] {p c p' c' f f' m k new : M} (hset : p' + f = p + f')
    (hmove : f' + c' = f + c + new) : p' + c' + m + k = p + c + m + k + new := by
  have hsum : p' + c' + m + k + f = p + c + m + k + new + f :=
    calc p' + c' + m + k + f = (p' + f) + c' + m + k := by abel
      _ = p + (f' + c') + m + k := by rw [hset]; abel
      _ = p + c + m + k + new + f := by rw [hmove]; abel
  exact add_right_cancel hsum

/-- What holds in every state of the pool over the batches of its inputs. -/
structure PoolInvariant (setup : PoolSetup F σ) (vectorOf : EmbeddingConfig → Text → List F → Prop)
    (batches : List EmbeddingBatchWork) (start : σ) (s : PoolState σ) : Prop where
  accounted : s.Accounted setup vectorOf batches
  clients : ∀ phase ∈ s.workers, ClientsOf setup phase.clients
  stopped : s.stopRequested = true → s.Failed
  drained : .exited ∈ s.workers → s.Failed ∨ s.queue = []
  called : s.Called setup start
  refused : s.Refused
  staffed : s.workers ≠ []
  ended : ∀ result, s.main = .returned result →
    s.channel = [] ∧ s.workers.all finished = true ∧ result = s.outcome setup

variable {batches : List EmbeddingBatchWork} {start : σ}

theorem Accounted.worker {w : ℕ} {phase : WorkerPhase} (h : s.Accounted setup vectorOf batches)
    (hclients : ClientsOf setup phase.clients) (hphase : s.workers[w]? = some phase)
    (hstep : s.workerStep setup outside w phase = some t) : t.Accounted setup vectorOf batches := by
  have hmonotone := (Step.worker outside w phase t hphase hstep).failed
  obtain ⟨answered, lost, hrel, htotal, hlost⟩ := h
  obtain ⟨phase', queue, stop, channel, endpoints, hmove, rfl⟩ := workerStep_cases hstep
  obtain ⟨answered', lost', gained, hrel', hwork, hanswers, hlost'⟩ := hmove.accounts hclients
  refine ⟨answered + answered', lost + lost', ?_, balance htotal (sum_map_set WorkerPhase.held hphase phase') hwork, ?_⟩
  · have hset := sum_map_set WorkerPhase.answers hphase phase'
    have hsum := carry (m := s.main.answers) (k := Multiset.ofList (s.calls.map Prod.fst)) hset hanswers
    simp only [answers]
    rw [hsum]
    exact hrel.add hrel'
  · intro hfine
    have hlt := (List.getElem?_eq_some_iff.mp hphase).1
    have hphase' : phase'.failed = false := by
      by_contra hfailed
      exact hfine (Or.inr (Or.inr ⟨phase', List.mem_set hlt phase', by simpa using hfailed⟩))
    rw [hlost fun hs => hfine (hmonotone hs), hlost' hphase', add_zero]

theorem Accounted.main (h : s.Accounted setup vectorOf batches) (hstep : s.mainStep setup = some t) :
    t.Accounted setup vectorOf batches := by
  have htaken : Step setup vectorOf s t := Step.main t hstep
  have hmonotone := htaken.failed
  obtain ⟨answered, lost, hrel, htotal, hlost⟩ := h
  have hkeeps : t.answers = s.answers → t.queue = s.queue → t.held = s.held →
      t.Accounted setup vectorOf batches := by
    intro hanswers hqueue hheld
    exact ⟨answered, lost, hanswers ▸ hrel, by rw [hqueue, hheld]; exact htotal,
      fun hfine => hlost fun hs => hfine (hmonotone hs)⟩
  cases mainStep_cases hstep with
  | receive message channel hmain hchannel =>
    refine hkeeps ?_ rfl rfl
    simp only [answers, hmain, hchannel, MainPhase.answers, List.map_cons, List.sum_cons]
    abel
  | finish hmain _ _ => exact hkeeps (by simp only [answers, hmain, MainPhase.answers]) rfl rfl
  | skip success hmain hfailed =>
    have hanswers : s.answers = success.embeddings ::ₘ answers { s with main := .receiving } := by
      simp only [answers, hmain, MainPhase.answers, answersOf, ← Multiset.singleton_add]
      abel
    rw [hanswers, Multiset.rel_cons_right] at hrel
    obtain ⟨work, answered', _, hrel', rfl⟩ := hrel
    refine ⟨answered', work ::ₘ lost, hrel', ?_, fun hfine => absurd (Or.inl (Or.inl hfailed)) hfine⟩
    rw [← htotal, ← Multiset.singleton_add, ← Multiset.singleton_add]
    simp only [held]
    abel
  | insert success inserted insertState hmain _ _ =>
    refine hkeeps ?_ rfl rfl
    simp only [answers, hmain, MainPhase.answers, answersOf, List.map_append, List.map_singleton, ← Multiset.coe_add,
      Multiset.coe_singleton]
    abel
  | insertFailed success e insertState hmain _ _ =>
    refine hkeeps ?_ rfl rfl
    simp only [answers, hmain, MainPhase.answers, answersOf, List.map_append, List.map_singleton, ← Multiset.coe_add,
      Multiset.coe_singleton]
    abel
  | fail e hmain => exact hkeeps (by simp only [answers, hmain, MainPhase.answers, answersOf]) rfl rfl
  | stop e hmain => exact hkeeps (by simp only [answers, hmain, MainPhase.answers]) rfl rfl

theorem Called.insert {embeddings : List OwnedChunkEmbedding} {result : Except ErrorObject ℕ} {insertState : σ}
    (h : s.Called setup start) (hinsert : setup.insertBatch embeddings s.insertState = (result, insertState))
    (hcalls : t.calls = s.calls ++ [(embeddings, result)]) (hstate : t.insertState = insertState) :
    t.Called setup start := by
  rw [Called] at h ⊢
  rw [hcalls, List.map_append, List.map_singleton, callsFrom_append_singleton, h, hinsert, hstate]

theorem Called.main (h : s.Called setup start) (hstep : s.mainStep setup = some t) : t.Called setup start := by
  cases mainStep_cases hstep with
  | insert success inserted insertState _ _ hinsert => exact h.insert hinsert rfl rfl
  | insertFailed success e insertState _ _ hinsert => exact h.insert hinsert rfl rfl
  | _ => exact h

theorem Refused.main (h : s.Refused) (hstep : s.mainStep setup = some t) : t.Refused := by
  have hidle : ∀ e, s.main ≠ .stopping e → ∀ call ∈ s.calls, call.2 = .error e → s.firstError = some e := by
    intro e hmain call hcall he
    exact (h call hcall e he).resolve_right fun hstopping => hmain hstopping.2
  cases mainStep_cases hstep with
  | receive message channel hmain _ =>
    exact fun call hcall e he => Or.inl (hidle e (by simp [hmain]) call hcall he)
  | finish hmain _ _ => exact fun call hcall e he => Or.inl (hidle e (by simp [hmain]) call hcall he)
  | skip success hmain _ => exact fun call hcall e he => Or.inl (hidle e (by simp [hmain]) call hcall he)
  | fail error hmain => exact fun call hcall e he => Or.inl (hidle e (by simp [hmain]) call hcall he)
  | insert success inserted insertState hmain hnone _ =>
    intro call hcall e he
    rcases List.mem_append.mp hcall with hcall | hcall
    · exact Or.inl (hidle e (by simp [hmain]) call hcall he)
    · rw [List.mem_singleton.mp hcall] at he
      cases he
  | insertFailed success error insertState hmain hnone _ =>
    intro call hcall e he
    rcases List.mem_append.mp hcall with hcall | hcall
    · exact Or.inl (hidle e (by simp [hmain]) call hcall he)
    · rw [List.mem_singleton.mp hcall] at he
      cases he
      exact Or.inr ⟨by simpa using hnone, rfl⟩
  | stop error hmain =>
    intro call hcall e he
    rcases h call hcall e he with hfirst | ⟨hfirst, hstopping⟩
    · exact Or.inl (by simp [hfirst])
    · rw [hmain] at hstopping
      cases hstopping
      exact Or.inl (by simp [hfirst])

theorem PoolInvariant.worker {w : ℕ} {phase : WorkerPhase} (h : PoolInvariant setup vectorOf batches start s)
    (hphase : s.workers[w]? = some phase) (hstep : s.workerStep setup outside w phase = some t) :
    PoolInvariant setup vectorOf batches start t := by
  have hmonotone := (Step.worker outside w phase t hphase hstep).failed
  have hclients := h.clients phase (List.mem_of_getElem? hphase)
  have haccounted := h.accounted.worker hclients hphase hstep
  obtain ⟨phase', queue, stop, channel, endpoints, hmove, rfl⟩ := workerStep_cases hstep
  obtain ⟨_, _, hstop, hexited, hqueue⟩ := hmove.failed
  have hlt := (List.getElem?_eq_some_iff.mp hphase).1
  have hfailed' : phase'.failed = true → Failed { s with
      queue := queue, stopRequested := stop, channel := channel, endpoints := endpoints,
      workers := s.workers.set w phase' } := fun hfailed => Or.inr (Or.inr ⟨phase', List.mem_set hlt phase', hfailed⟩)
  refine ⟨haccounted, ?_, ?_, ?_, h.called, h.refused, ?_, ?_⟩
  · intro p hp
    rcases List.mem_or_eq_of_mem_set hp with hp | rfl
    · exact h.clients p hp
    · exact hmove.clientsOf hclients
  · intro hstopped
    rcases hstop hstopped with hbefore | hfailed
    · exact hmonotone (h.stopped hbefore)
    · exact hfailed' hfailed
  · intro hmem
    rcases List.mem_or_eq_of_mem_set hmem with hmem | heq
    · rcases h.drained hmem with hfailed | hempty
      · exact Or.inl (hmonotone hfailed)
      · exact Or.inr (hqueue hempty)
    · rcases hexited heq.symm with hbefore | hempty | hmessage
      · exact Or.inl (hmonotone (h.stopped hbefore))
      · exact Or.inr hempty
      · exact Or.inl (Or.inr (Or.inl hmessage))
  · intro hnone
    rw [List.set_eq_nil_iff] at hnone
    exact h.staffed hnone
  · intro result hmain
    obtain ⟨_, hfinished, _⟩ := h.ended result hmain
    have hdone := List.all_eq_true.mp hfinished phase (List.mem_of_getElem? hphase)
    rw [hmove.unfinished] at hdone
    cases hdone

theorem PoolInvariant.main (h : PoolInvariant setup vectorOf batches start s) (hstep : s.mainStep setup = some t) :
    PoolInvariant setup vectorOf batches start t := by
  have htaken : Step setup vectorOf s t := Step.main t hstep
  have hmonotone := htaken.failed
  have haccounted := h.accounted.main hstep
  have hcalled := h.called.main hstep
  have hrefused := h.refused.main hstep
  have hreceived : t.ErrorReceived → t.Failed := Or.inl
  cases mainStep_cases hstep with
  | receive message channel hmain _ =>
    exact ⟨haccounted, h.clients, fun hs => hmonotone (h.stopped hs), fun hs => (h.drained hs).imp_left hmonotone,
      hcalled, hrefused, h.staffed, fun result hresult => by cases hresult⟩
  | finish hmain hchannel hfinished =>
    refine ⟨haccounted, h.clients, fun hs => hmonotone (h.stopped hs), fun hs => (h.drained hs).imp_left hmonotone,
      hcalled, hrefused, h.staffed, fun result hresult => ?_⟩
    cases hresult
    exact ⟨hchannel, hfinished, rfl⟩
  | skip success hmain _ =>
    exact ⟨haccounted, h.clients, fun hs => hmonotone (h.stopped hs), fun hs => (h.drained hs).imp_left hmonotone,
      hcalled, hrefused, h.staffed, fun result hresult => by cases hresult⟩
  | insert success inserted insertState hmain _ _ =>
    exact ⟨haccounted, h.clients, fun hs => hmonotone (h.stopped hs), fun hs => (h.drained hs).imp_left hmonotone,
      hcalled, hrefused, h.staffed, fun result hresult => by cases hresult⟩
  | insertFailed success e insertState hmain _ _ =>
    exact ⟨haccounted, h.clients, fun hs => hmonotone (h.stopped hs), fun hs => (h.drained hs).imp_left hmonotone,
      hcalled, hrefused, h.staffed, fun result hresult => by cases hresult⟩
  | fail e hmain =>
    exact ⟨haccounted, h.clients, fun hs => hmonotone (h.stopped hs), fun hs => (h.drained hs).imp_left hmonotone,
      hcalled, hrefused, h.staffed, fun result hresult => by cases hresult⟩
  | stop e hmain =>
    exact ⟨haccounted, h.clients, fun _ => hreceived (Or.inl (by simp)), fun hs => (h.drained hs).imp_left hmonotone,
      hcalled, hrefused, h.staffed, fun result hresult => by cases hresult⟩

theorem PoolInvariant.step (h : PoolInvariant setup vectorOf batches start s) (hstep : Step setup vectorOf s t) :
    PoolInvariant setup vectorOf batches start t := by
  cases hstep with
  | worker outside w phase t hphase hstep => exact h.worker hphase hstep
  | main t hstep => exact h.main hstep

end PoolState

end CorpusFeed
