import CorpusFeed.BoundedSteps
import CorpusFeed.DenseRebuild
import CorpusFeed.EmbeddingClient
import Mathlib.Data.List.MinMax
import Mathlib.Data.Prod.Lex

/-! The endpoint pool: workers that take batches off a shared queue, and the main thread
that inserts what they send. A step is one action of one thread. -/

namespace CorpusFeed

structure EmbeddingEndpointPoolConfig where
  baseUrl : Text
  requestModel : Option Text
  config : EmbeddingConfig
  expectedFingerprint : EmbeddingFingerprint

structure EmbeddingEndpointState where
  baseUrl : Text
  requestModel : Option Text
  outstanding : ℕ
  requests : ℕ
  chunks : ℕ
  truncatedInputs : ℕ
  failures : ℕ

abbrev EmbeddingBatchWork := List ChunkEmbeddingInput

structure OwnedChunkEmbedding where
  chunkId : Text
  embeddingLiteral : Text

structure EmbeddingBatchSuccess where
  embeddings : List OwnedChunkEmbedding
  truncatedInputs : ℕ

abbrev BatchResult := Except ErrorObject EmbeddingBatchSuccess

structure EmbeddingPoolRun where
  chunksConsidered : ℕ
  embeddingsInserted : ℕ
  embeddingInputsTruncated : ℕ
  endpointStats : List EmbeddingEndpointState

/-- Where a worker stands between two of its accesses to what the threads share. -/
inductive WorkerPhase where
  | starting
  | refusing (error : ErrorObject)
  | reporting (error : ErrorObject)
  | checking (clients : List OpenAiCompatibleClient)
  | popping (clients : List OpenAiCompatibleClient)
  | selecting (clients : List OpenAiCompatibleClient) (work : EmbeddingBatchWork)
  | requesting (clients : List OpenAiCompatibleClient) (work : EmbeddingBatchWork) (endpoint : ℕ)
  | releasing (clients : List OpenAiCompatibleClient) (work : EmbeddingBatchWork) (endpoint : ℕ) (result : BatchResult)
  | sending (clients : List OpenAiCompatibleClient) (result : BatchResult)
  | exited
  | panicked

inductive MainPhase where
  | receiving
  | received (message : BatchResult)
  | stopping (error : ErrorObject)
  | returned (result : Except ErrorObject EmbeddingPoolRun)

/-- `calls` are the batches passed to `insert_batch`, each with what it returned. -/
structure PoolState (σ : Type*) where
  queue : List EmbeddingBatchWork
  stopRequested : Bool
  channel : List BatchResult
  endpoints : List EmbeddingEndpointState
  workers : List WorkerPhase
  main : MainPhase
  calls : List (List OwnedChunkEmbedding × Except ErrorObject ℕ)
  insertState : σ
  embeddingsInserted : ℕ
  embeddingInputsTruncated : ℕ
  firstError : Option ErrorObject

variable {F σ : Type*}

/-- What a worker finds outside of the process at a step: the tokenizer files, and the
replies of the endpoints attempt by attempt. An endpoint gives its vectors in the order of
the request. -/
structure Surroundings (vectorOf : EmbeddingConfig → Text → List F → Prop) where
  load : Text → Except Text Tokenizer
  reply : EmbeddingConfig → List Text → ℕ → EndpointReply F
  inOrder : ∀ config inputs attempt data, reply config inputs attempt = .vectors data →
    ∀ p ∈ inputs.zip data, vectorOf config p.1 p.2

/-- `insertBatch` goes from the state of the store before a call to the state after it. -/
structure PoolSetup (F σ : Type*) where
  runtime : EmbeddingRuntime F
  endpointConfigs : List EmbeddingEndpointPoolConfig
  chunksConsidered : ℕ
  insertBatch : List OwnedChunkEmbedding → σ → Except ErrorObject ℕ × σ

def EmbeddingEndpointPoolConfig.state (config : EmbeddingEndpointPoolConfig) : EmbeddingEndpointState :=
  ⟨config.baseUrl, config.requestModel, 0, 0, 0, 0, 0⟩

def chunksOf {α : Type*} (size : ℕ) (items : List α) : List (List α) :=
  if size = 0 ∨ items = [] then [] else items.take size :: chunksOf size (items.drop size)
termination_by items.length
decreasing_by
  rename_i h
  rw [not_or] at h
  have hpos := List.length_pos_of_ne_nil h.2
  rw [List.length_drop]
  omega

/-- The state in which the workers have been spawned. -/
def embedAndInsertWithPool (inputs : List ChunkEmbeddingInput) (endpointConfigs : List EmbeddingEndpointPoolConfig)
    (batchSize poolConcurrency : ℕ) (insertState : σ) : Except ErrorObject (PoolState σ) :=
  if batchSize = 0 then .error (.badInput "embedding batch_size must be at least 1".toList)
  else if poolConcurrency = 0 then .error (.badInput "embedding pool_concurrency must be at least 1".toList)
  else
    let workQueue := chunksOf batchSize inputs
    let workerCount := min poolConcurrency (max workQueue.length 1)
    .ok
      { queue := workQueue
        stopRequested := false
        channel := []
        endpoints := endpointConfigs.map EmbeddingEndpointPoolConfig.state
        workers := List.replicate workerCount .starting
        main := .receiving
        calls := []
        insertState := insertState
        embeddingsInserted := 0
        embeddingInputsTruncated := 0
        firstError := none }

/-- The first endpoint with the fewest requests in flight, then the fewest in all. -/
def leastOutstandingEndpoint (states : List EmbeddingEndpointState) : Option ℕ :=
  (states.zipIdx.argmin fun entry => toLex (entry.1.outstanding, entry.1.requests)).map Prod.snd

def EmbeddingEndpointState.acquire (state : EmbeddingEndpointState) : EmbeddingEndpointState :=
  { state with outstanding := state.outstanding + 1, requests := state.requests + 1 }

def EmbeddingEndpointState.release (work : EmbeddingBatchWork) (result : BatchResult) (state : EmbeddingEndpointState) :
    EmbeddingEndpointState :=
  match result with
  | .ok success =>
    { state with
      outstanding := state.outstanding - 1
      chunks := state.chunks + work.length
      truncatedInputs := state.truncatedInputs + success.truncatedInputs }
  | .error _ => { state with outstanding := state.outstanding - 1, failures := state.failures + 1 }

def buildClients (runtime : EmbeddingRuntime F) (load : Text → Except Text Tokenizer) :
    List EmbeddingEndpointPoolConfig → Except ErrorObject (List OpenAiCompatibleClient)
  | [] => .ok []
  | config :: configs => match OpenAiCompatibleClient.new load config.config with
    | .error e => .error (runtime.embeddingErrorObject e)
    | .ok client => match buildClients runtime load configs with
      | .error e => .error e
      | .ok clients => .ok (client :: clients)

def embedBatchOnEndpoint (runtime : EmbeddingRuntime F) (client : OpenAiCompatibleClient)
    (endpoint : EmbeddingEndpointPoolConfig) (work : EmbeddingBatchWork)
    (reply : EmbeddingConfig → List Text → ℕ → EndpointReply F) : BatchResult :=
  let texts := work.map fun input => endpoint.config.limits.embeddingRequestText input.embeddingText
  let inputTexts := texts.map Prod.fst
  match embedBatchWithRetries runtime client inputTexts endpoint.expectedFingerprint (reply client.config inputTexts) with
  | .error e =>
    let chunkId := match work with
      | input :: _ => input.chunkId
      | [] => "<empty-batch>".toList
    let object := runtime.embeddingErrorObject e
    .error { object with
      message := "embedding endpoint `".toList ++ endpoint.baseUrl ++ "` failed: ".toList ++
        ("embedding chunk `".toList ++ chunkId ++ "` failed: ".toList ++ object.message) }
  | .ok vectors =>
    .ok ⟨(work.zip vectors).map fun entry => ⟨entry.1.chunkId, runtime.pgvectorLiteral entry.2.values⟩,
      (texts.filter Prod.snd).length⟩

namespace PoolState

variable (setup : PoolSetup F σ) (s : PoolState σ)

def setWorker (w : ℕ) (phase : WorkerPhase) : PoolState σ := { s with workers := s.workers.set w phase }

def finished : WorkerPhase → Bool
  | .exited | .panicked => true
  | _ => false

def isPanicked : WorkerPhase → Bool
  | .panicked => true
  | _ => false

/-- The result once every worker has been joined. -/
def outcome : Except ErrorObject EmbeddingPoolRun :=
  match s.firstError with
  | some error => .error error
  | none =>
    if s.workers.any isPanicked then
      .error ⟨.dependencyUnavailable, "embedding endpoint pool worker panicked".toList,
        ["Check PostgreSQL extension setup and embedding endpoint configuration.".toList]⟩
    else .ok ⟨setup.chunksConsidered, s.embeddingsInserted, s.embeddingInputsTruncated, s.endpoints⟩

variable {vectorOf : EmbeddingConfig → Text → List F → Prop} (outside : Surroundings vectorOf)

def workerStep (w : ℕ) : WorkerPhase → Option (PoolState σ)
  | .starting => match buildClients setup.runtime outside.load setup.endpointConfigs with
    | .ok clients => some (s.setWorker w (.checking clients))
    | .error e => some (s.setWorker w (.refusing e))
  | .refusing e => some { s.setWorker w (.reporting e) with stopRequested := true }
  | .reporting e => some { s.setWorker w .exited with channel := s.channel ++ [.error e] }
  | .checking clients => some (s.setWorker w (if s.stopRequested then .exited else .popping clients))
  | .popping clients => match s.queue with
    | [] => some (s.setWorker w .exited)
    | work :: queue => some { s.setWorker w (.selecting clients work) with queue := queue }
  | .selecting clients work => match leastOutstandingEndpoint s.endpoints with
    | none => some (s.setWorker w .panicked)
    | some i => some { s.setWorker w (.requesting clients work i) with
        endpoints := s.endpoints.modify i EmbeddingEndpointState.acquire }
  | .requesting clients work i => match clients[i]?, setup.endpointConfigs[i]? with
    | some client, some endpoint => some (s.setWorker w (.releasing clients work i
        (embedBatchOnEndpoint setup.runtime client endpoint work outside.reply)))
    | _, _ => some (s.setWorker w .panicked)
  | .releasing clients work i result => some { s.setWorker w (.sending clients result) with
      endpoints := s.endpoints.modify i (EmbeddingEndpointState.release work result) }
  | .sending clients result => some { s.setWorker w (.checking clients) with channel := s.channel ++ [result] }
  | .exited | .panicked => none

def mainStep : Option (PoolState σ) :=
  match s.main with
  | .receiving => match s.channel with
    | message :: channel => some { s with main := .received message, channel := channel }
    | [] => if s.workers.all finished then some { s with main := .returned (s.outcome setup) } else none
  | .received (.ok success) =>
    if s.firstError.isSome then some { s with main := .receiving }
    else
      let (result, insertState) := setup.insertBatch success.embeddings s.insertState
      let counted := { s with
        embeddingInputsTruncated := s.embeddingInputsTruncated + success.truncatedInputs
        calls := s.calls ++ [(success.embeddings, result)]
        insertState := insertState }
      match result with
      | .ok inserted => some { counted with main := .receiving, embeddingsInserted := s.embeddingsInserted + inserted }
      | .error e => some { counted with main := .stopping e }
  | .received (.error e) => some { s with main := .stopping e }
  | .stopping e => some { s with main := .receiving, stopRequested := true, firstError := s.firstError <|> some e }
  | .returned _ => none

/-- Some thread moves: worker `w`, or the main thread. -/
inductive Step (vectorOf : EmbeddingConfig → Text → List F → Prop) (s : PoolState σ) : PoolState σ → Prop
  | worker (outside : Surroundings vectorOf) (w : ℕ) (phase : WorkerPhase) (t : PoolState σ)
      (hphase : s.workers[w]? = some phase) (hstep : s.workerStep setup outside w phase = some t) : Step vectorOf s t
  | main (t : PoolState σ) (hstep : s.mainStep setup = some t) : Step vectorOf s t

end PoolState

end CorpusFeed
