import CorpusFeed.EmbeddingText
import CorpusFeed.SiteFrames
import Mathlib.Data.List.Forall2

/-! One request to an embedding endpoint, with the checks on what it answers, and a
batch of texts with its retries. -/

namespace CorpusFeed

inductive EmbeddingProvider where
  | openAiCompatible
  | inProcess
deriving DecidableEq

def EmbeddingProvider.debug : EmbeddingProvider → Text
  | .openAiCompatible => "OpenAiCompatible".toList
  | .inProcess => "InProcess".toList

inductive BaseUrlClass where
  | localLoopback
  | hosted
  | inProcess
deriving DecidableEq

structure EmbeddingFingerprint where
  provider : EmbeddingProvider
  baseUrlClass : BaseUrlClass
  model : Text
  dimension : ℕ
  normalize : Bool
  pooling : Text
deriving DecidableEq

structure EmbeddingConfig where
  provider : EmbeddingProvider
  baseUrl : Option Text
  model : Text
  requestModel : Option Text
  dimension : ℕ
  normalize : Bool
  pooling : Text
  limits : EmbeddingLimits
  tokenizerPath : Option Text
deriving DecidableEq

inductive EmbeddingError where
  | unsupportedProvider (provider : EmbeddingProvider)
  | missingBaseUrl
  | endpoint (message : Text)
  | invalidResponse (message : Text)
  | emptyResponse
  | batchSizeMismatch (expected actual : ℕ)
  | inputTooLong (stats : EmbeddingInputStats)
  | dimensionMismatch (model : Text) (expected actual : ℕ)
  | normalizationMismatch (model norm : Text)
  | fingerprintMismatch (expected configured : EmbeddingFingerprint)
  | tokenizerLoad (path message : Text)
  | tokenizerEncode (message : Text)
deriving DecidableEq

/-- What an endpoint and its network make of one request. -/
inductive EndpointReply (F : Type*) where
  | failed (message : Text)
  | errorResponse (body : Text)
  | invalid (message : Text)
  | vectors (data : List (List F))

/-- The floats and the URLs, as far as the client looks into them: the printed forms of a
value and of a norm, whether a vector is off the unit sphere, and the class of a URL. -/
structure EmbeddingRuntime (F : Type*) where
  formatValue : F → Text
  formatNorm : List F → Text
  offUnit : List F → Bool
  baseUrlClass : Text → BaseUrlClass
  debugFingerprint : EmbeddingFingerprint → Text

structure EmbeddingVector (F : Type*) where
  values : List F
  fingerprint : EmbeddingFingerprint

structure OpenAiCompatibleClient where
  config : EmbeddingConfig
  tokenizer : Option Tokenizer

def natText (n : ℕ) : Text := intText n

def EmbeddingInputStats.display (stats : EmbeddingInputStats) : Text :=
  (match stats.tokenCountMethod with
    | .estimatedChars => natText stats.chars ++ " chars, estimated ".toList ++ natText stats.estimatedTokens ++
        " tokens using ".toList ++ natText stats.charsPerToken ++ " chars/token".toList
    | .tokenizer => natText stats.chars ++ " chars, tokenizer-counted ".toList ++ natText stats.tokens ++ " tokens".toList) ++
  (match stats.maxChars with
    | some maxChars => ", max chars ".toList ++ natText maxChars
    | none => []) ++
  match stats.maxEstimatedTokens, stats.tokenCountMethod with
    | some maxTokens, .estimatedChars => ", max estimated tokens ".toList ++ natText maxTokens
    | some maxTokens, .tokenizer => ", max tokens ".toList ++ natText maxTokens
    | none, _ => []

def EmbeddingConfig.fingerprint (classOf : Text → BaseUrlClass) (config : EmbeddingConfig) : EmbeddingFingerprint where
  provider := config.provider
  baseUrlClass :=
    match config.provider with
    | .openAiCompatible => classOf (config.baseUrl.getD [])
    | .inProcess => .inProcess
  model := config.model
  dimension := config.dimension
  normalize := config.normalize
  pooling := config.pooling

/-- `load` reads the tokenizer at a path. -/
def OpenAiCompatibleClient.new (load : Text → Except Text Tokenizer) (config : EmbeddingConfig) :
    Except EmbeddingError OpenAiCompatibleClient :=
  if config.provider ≠ .openAiCompatible then .error (.unsupportedProvider config.provider)
  else if isBlank (config.baseUrl.getD []) then .error .missingBaseUrl
  else match config.tokenizerPath with
  | none => .ok ⟨config, none⟩
  | some path => match load path with
    | .ok tokenizer => .ok ⟨config, some tokenizer⟩
    | .error message => .error (.tokenizerLoad path message)

variable {F : Type*} (runtime : EmbeddingRuntime F)

namespace EmbeddingRuntime

def display : EmbeddingError → Text
  | .unsupportedProvider provider => "embedding provider ".toList ++ provider.debug ++
      " is not supported by the OpenAI-compatible client".toList
  | .missingBaseUrl => "embedding base_url is required for provider openai_compatible".toList
  | .endpoint message => "embedding endpoint request failed: ".toList ++ message
  | .invalidResponse message => "embedding endpoint response was invalid: ".toList ++ message
  | .emptyResponse => "embedding endpoint returned no embeddings".toList
  | .batchSizeMismatch expected actual => "embedding endpoint returned ".toList ++ natText actual ++
      " embeddings for a batch of ".toList ++ natText expected ++ " inputs".toList
  | .inputTooLong stats => "embedding input is too long: ".toList ++ stats.display ++
      "; split the document chunk or adjust JURISEARCH_EMBED_MAX_INPUT_CHARS/JURISEARCH_EMBED_MAX_ESTIMATED_TOKENS for this endpoint".toList
  | .dimensionMismatch model expected actual => "embedding endpoint returned ".toList ++ natText actual ++
      " dimensions for model `".toList ++ model ++ "`, expected ".toList ++ natText expected ++
      "; use an endpoint/model matching the index fingerprint or rebuild/re-embed the index".toList
  | .normalizationMismatch model norm => "embedding endpoint returned a vector for model `".toList ++ model ++
      "` with L2 norm ".toList ++ norm ++ ", but the configured fingerprint requires normalized vectors".toList
  | .fingerprintMismatch expected configured => "embedding fingerprint mismatch: configured ".toList ++
      runtime.debugFingerprint configured ++ ", index requires ".toList ++ runtime.debugFingerprint expected ++
      "; reconfigure the endpoint or run an explicit re-embed/index migration".toList
  | .tokenizerLoad path message => "embedding tokenizer `".toList ++ path ++ "` could not be loaded: ".toList ++ message
  | .tokenizerEncode message => "embedding tokenizer failed to count input tokens: ".toList ++ message

def embeddingErrorObject (error : EmbeddingError) : ErrorObject :=
  let message := runtime.display error
  match error with
  | .inputTooLong _ => .badInput message
  | .endpoint _ | .invalidResponse _ | .emptyResponse | .batchSizeMismatch _ _ =>
    ⟨.upstream, message, ["Check the configured OpenAI-compatible embeddings endpoint.".toList]⟩
  | _ => ⟨.dependencyUnavailable, message,
      ["Check PostgreSQL extension setup and embedding endpoint configuration.".toList]⟩

def pgvectorLiteral (values : List F) : Text :=
  "[".toList ++ List.intercalate ",".toList (values.map runtime.formatValue) ++ "]".toList

end EmbeddingRuntime

def preflightAll (client : OpenAiCompatibleClient) : List Text → Except EmbeddingError Unit
  | [] => .ok ()
  | input :: inputs => match client.config.limits.preflightInputWithTokenizer client.tokenizer input with
    | .ok _ => preflightAll client inputs
    | .error (.tokenizerEncode message) => .error (.tokenizerEncode message)
    | .error (.inputTooLong stats) => .error (.inputTooLong stats)

def checkedVectors (config : EmbeddingConfig) (expected : EmbeddingFingerprint) :
    List (List F) → Except EmbeddingError (List (EmbeddingVector F))
  | [] => .ok []
  | values :: data =>
    if values.length ≠ expected.dimension then
      .error (.dimensionMismatch config.model expected.dimension values.length)
    else if expected.normalize && runtime.offUnit values then
      .error (.normalizationMismatch config.model (runtime.formatNorm values))
    else match checkedVectors config expected data with
    | .ok vectors => .ok (⟨values, config.fingerprint runtime.baseUrlClass⟩ :: vectors)
    | .error e => .error e

def embedBatch (client : OpenAiCompatibleClient) (inputs : List Text) (expected : EmbeddingFingerprint)
    (reply : EndpointReply F) : Except EmbeddingError (List (EmbeddingVector F)) :=
  if inputs = [] then .ok []
  else if client.config.fingerprint runtime.baseUrlClass ≠ expected then
    .error (.fingerprintMismatch expected (client.config.fingerprint runtime.baseUrlClass))
  else match preflightAll client inputs with
  | .error e => .error e
  | .ok () => match reply with
    | .failed message => .error (.endpoint message)
    | .invalid message => .error (.invalidResponse message)
    | .errorResponse body => .error (.endpoint ("endpoint error response: ".toList ++ body))
    | .vectors data =>
      if data = [] then .error .emptyResponse
      else if data.length ≠ inputs.length then .error (.batchSizeMismatch inputs.length data.length)
      else checkedVectors runtime client.config expected data

def embeddingEndpointMaxAttempts : ℕ := 3

def retryableEmbeddingError : EmbeddingError → Bool
  | .endpoint _ | .invalidResponse _ => true
  | _ => false

/-- `more` attempts may follow the one that is made now, the `attempt`th. -/
def embedAttempts (client : OpenAiCompatibleClient) (inputs : List Text) (expected : EmbeddingFingerprint)
    (replies : ℕ → EndpointReply F) : ℕ → ℕ → Except EmbeddingError (List (EmbeddingVector F))
  | 0, attempt => embedBatch runtime client inputs expected (replies attempt)
  | more + 1, attempt => match embedBatch runtime client inputs expected (replies attempt) with
    | .ok embeddings => .ok embeddings
    | .error e => if retryableEmbeddingError e then embedAttempts client inputs expected replies more (attempt + 1)
      else .error e

def embedBatchWithRetries (client : OpenAiCompatibleClient) (inputs : List Text) (expected : EmbeddingFingerprint)
    (replies : ℕ → EndpointReply F) : Except EmbeddingError (List (EmbeddingVector F)) :=
  embedAttempts runtime client inputs expected replies (max embeddingEndpointMaxAttempts 1 - 1) 1

variable {runtime} {client : OpenAiCompatibleClient} {inputs : List Text} {expected : EmbeddingFingerprint}
  {vectors : List (EmbeddingVector F)}

theorem checkedVectors_values {config : EmbeddingConfig} {data : List (List F)}
    (h : checkedVectors runtime config expected data = .ok vectors) : vectors.map EmbeddingVector.values = data := by
  induction data generalizing vectors with
  | nil =>
    cases h
    rfl
  | cons values data ih =>
    rw [checkedVectors] at h
    split at h
    · cases h
    split at h
    · cases h
    split at h
    · next rest hrest =>
      cases h
      rw [List.map_cons, ih hrest]
    · cases h

/-- A batch of texts comes back with a vector for each, those the endpoint gave. -/
theorem embedBatch_ok {reply : EndpointReply F} (h : embedBatch runtime client inputs expected reply = .ok vectors) :
    (inputs = [] ∧ vectors = []) ∨
      ∃ data, reply = .vectors data ∧ data.length = inputs.length ∧ vectors.map EmbeddingVector.values = data := by
  unfold embedBatch at h
  split at h
  · next hempty =>
    cases h
    exact Or.inl ⟨hempty, rfl⟩
  split at h
  · cases h
  split at h
  · cases h
  split at h
  · cases h
  · cases h
  · cases h
  next data =>
  split at h
  · cases h
  split at h
  · cases h
  next hlength =>
  exact Or.inr ⟨data, rfl, not_not.mp hlength, checkedVectors_values h⟩

theorem embedAttempts_ok {replies : ℕ → EndpointReply F} {more attempt : ℕ}
    (h : embedAttempts runtime client inputs expected replies more attempt = .ok vectors) :
    ∃ last, embedBatch runtime client inputs expected (replies last) = .ok vectors := by
  induction more generalizing attempt with
  | zero => exact ⟨attempt, h⟩
  | succ more ih =>
    rw [embedAttempts] at h
    split at h
    · next embeddings hbatch =>
      cases h
      exact ⟨attempt, hbatch⟩
    split at h
    · exact ih h
    · cases h

/-- Under an endpoint that answers in the order of the request, each text has its own
vector. -/
theorem embedBatchWithRetries_ok {replies : ℕ → EndpointReply F} {vectorOf : Text → List F → Prop}
    (horder : ∀ attempt data, replies attempt = .vectors data → ∀ p ∈ inputs.zip data, vectorOf p.1 p.2)
    (h : embedBatchWithRetries runtime client inputs expected replies = .ok vectors) :
    List.Forall₂ vectorOf inputs (vectors.map EmbeddingVector.values) := by
  obtain ⟨last, hbatch⟩ := embedAttempts_ok h
  rcases embedBatch_ok hbatch with ⟨rfl, rfl⟩ | ⟨data, hreply, hlength, rfl⟩
  · exact List.Forall₂.nil
  · exact List.forall₂_iff_zip.mpr ⟨hlength.symm, fun hp => horder last _ hreply _ hp⟩

end CorpusFeed
