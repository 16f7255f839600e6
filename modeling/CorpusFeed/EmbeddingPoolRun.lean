import CorpusFeed.EmbeddingPool
import Mathlib.Algebra.BigOperators.Group.List.Basic
import Mathlib.Algebra.Order.Group.Multiset
import Mathlib.Tactic.Abel

/-! What one action of a thread of the pool does, and that every scheduling comes to an
end. -/

namespace CorpusFeed

theorem sum_map_set {α M : Type*} [AddCommMonoid M] (f : α → M) {items : List α} {i : ℕ} {old : α}
    (h : items[i]? = some old) (new : α) : ((items.set i new).map f).sum + f old = (items.map f).sum + f new := by
  induction items generalizing i with
  | nil => simp at h
  | cons item items ih =>
    cases i with
    | zero =>
      obtain rfl : item = old := by simpa using h
      simp only [List.set_cons_zero, List.map_cons, List.sum_cons]
      abel
    | succ i =>
      simp only [List.set_cons_succ, List.map_cons, List.sum_cons]
      rw [add_assoc, ih (by simpa using h), add_assoc]

/-- One action of a worker: the phase before and after, and the queue, the stop flag and
the channel after it. -/
inductive WorkerMove {F σ : Type*} (setup : PoolSetup F σ) {vectorOf : EmbeddingConfig → Text → List F → Prop}
    (outside : Surroundings vectorOf) (s : PoolState σ) :
    WorkerPhase → WorkerPhase → List EmbeddingBatchWork → Bool → List BatchResult → Prop
  | built (clients : List OpenAiCompatibleClient)
      (h : buildClients setup.runtime outside.load setup.endpointConfigs = .ok clients) :
      WorkerMove setup outside s .starting (.checking clients) s.queue s.stopRequested s.channel
  | unbuilt (e : ErrorObject) : WorkerMove setup outside s .starting (.refusing e) s.queue s.stopRequested s.channel
  | refused (e : ErrorObject) : WorkerMove setup outside s (.refusing e) (.reporting e) s.queue true s.channel
  | reported (e : ErrorObject) :
      WorkerMove setup outside s (.reporting e) .exited s.queue s.stopRequested (s.channel ++ [.error e])
  | stopped (clients : List OpenAiCompatibleClient) (h : s.stopRequested = true) :
      WorkerMove setup outside s (.checking clients) .exited s.queue s.stopRequested s.channel
  | checked (clients : List OpenAiCompatibleClient) :
      WorkerMove setup outside s (.checking clients) (.popping clients) s.queue s.stopRequested s.channel
  | drained (clients : List OpenAiCompatibleClient) (h : s.queue = []) :
      WorkerMove setup outside s (.popping clients) .exited s.queue s.stopRequested s.channel
  | popped (clients : List OpenAiCompatibleClient) (work : EmbeddingBatchWork) (queue : List EmbeddingBatchWork)
      (h : s.queue = work :: queue) :
      WorkerMove setup outside s (.popping clients) (.selecting clients work) queue s.stopRequested s.channel
  | selected (clients : List OpenAiCompatibleClient) (work : EmbeddingBatchWork) (i : ℕ) :
      WorkerMove setup outside s (.selecting clients work) (.requesting clients work i) s.queue s.stopRequested s.channel
  | unselected (clients : List OpenAiCompatibleClient) (work : EmbeddingBatchWork) :
      WorkerMove setup outside s (.selecting clients work) .panicked s.queue s.stopRequested s.channel
  | answered (clients : List OpenAiCompatibleClient) (work : EmbeddingBatchWork) (i : ℕ)
      (client : OpenAiCompatibleClient) (endpoint : EmbeddingEndpointPoolConfig) (hclient : clients[i]? = some client)
      (hendpoint : setup.endpointConfigs[i]? = some endpoint) :
      WorkerMove setup outside s (.requesting clients work i) (.releasing clients work i
        (embedBatchOnEndpoint setup.runtime client endpoint work outside.reply)) s.queue s.stopRequested s.channel
  | unanswered (clients : List OpenAiCompatibleClient) (work : EmbeddingBatchWork) (i : ℕ) :
      WorkerMove setup outside s (.requesting clients work i) .panicked s.queue s.stopRequested s.channel
  | released (clients : List OpenAiCompatibleClient) (work : EmbeddingBatchWork) (i : ℕ) (result : BatchResult) :
      WorkerMove setup outside s (.releasing clients work i result) (.sending clients result) s.queue s.stopRequested
        s.channel
  | sent (clients : List OpenAiCompatibleClient) (result : BatchResult) :
      WorkerMove setup outside s (.sending clients result) (.checking clients) s.queue s.stopRequested
        (s.channel ++ [result])

/-- One action of the main thread, and the state after it. -/
inductive MainMove {F σ : Type*} (setup : PoolSetup F σ) (s : PoolState σ) : PoolState σ → Prop
  | receive (message : BatchResult) (channel : List BatchResult) (hmain : s.main = .receiving)
      (hchannel : s.channel = message :: channel) :
      MainMove setup s { s with main := .received message, channel := channel }
  | finish (hmain : s.main = .receiving) (hchannel : s.channel = [])
      (hfinished : s.workers.all PoolState.finished = true) :
      MainMove setup s { s with main := .returned (s.outcome setup) }
  | skip (success : EmbeddingBatchSuccess) (hmain : s.main = .received (.ok success))
      (hfailed : s.firstError.isSome = true) : MainMove setup s { s with main := .receiving }
  | insert (success : EmbeddingBatchSuccess) (inserted : ℕ) (insertState : σ)
      (hmain : s.main = .received (.ok success)) (hfailed : s.firstError.isSome = false)
      (hinsert : setup.insertBatch success.embeddings s.insertState = (.ok inserted, insertState)) :
      MainMove setup s { s with
        embeddingInputsTruncated := s.embeddingInputsTruncated + success.truncatedInputs
        calls := s.calls ++ [(success.embeddings, .ok inserted)]
        insertState := insertState
        main := .receiving
        embeddingsInserted := s.embeddingsInserted + inserted }
  | insertFailed (success : EmbeddingBatchSuccess) (e : ErrorObject) (insertState : σ)
      (hmain : s.main = .received (.ok success)) (hfailed : s.firstError.isSome = false)
      (hinsert : setup.insertBatch success.embeddings s.insertState = (.error e, insertState)) :
      MainMove setup s { s with
        embeddingInputsTruncated := s.embeddingInputsTruncated + success.truncatedInputs
        calls := s.calls ++ [(success.embeddings, .error e)]
        insertState := insertState
        main := .stopping e }
  | fail (e : ErrorObject) (hmain : s.main = .received (.error e)) :
      MainMove setup s { s with main := .stopping e }
  | stop (e : ErrorObject) (hmain : s.main = .stopping e) :
      MainMove setup s { s with main := .receiving, stopRequested := true, firstError := s.firstError <|> some e }

namespace PoolState

variable {F σ : Type*} {setup : PoolSetup F σ} {vectorOf : EmbeddingConfig → Text → List F → Prop}
  {outside : Surroundings vectorOf} {s t : PoolState σ}

theorem workerStep_cases {w : ℕ} {phase : WorkerPhase} (h : s.workerStep setup outside w phase = some t) :
    ∃ phase' queue stop channel endpoints, WorkerMove setup outside s phase phase' queue stop channel ∧
      t = { s with
        queue := queue, stopRequested := stop, channel := channel, endpoints := endpoints,
        workers := s.workers.set w phase' } := by
  cases phase with
  | starting =>
    simp only [workerStep] at h
    split at h
    · next clients hclients =>
      cases h
      exact ⟨_, _, _, _, _, .built clients hclients, rfl⟩
    · next e _ =>
      cases h
      exact ⟨_, _, _, _, _, .unbuilt e, rfl⟩
  | refusing e =>
    cases h
    exact ⟨_, _, _, _, _, .refused e, rfl⟩
  | reporting e =>
    cases h
    exact ⟨_, _, _, _, _, .reported e, rfl⟩
  | checking clients =>
    cases h
    by_cases hstop : s.stopRequested = true
    · rw [if_pos hstop]
      exact ⟨_, _, _, _, _, .stopped clients hstop, rfl⟩
    · rw [if_neg hstop]
      exact ⟨_, _, _, _, _, .checked clients, rfl⟩
  | popping clients =>
    simp only [workerStep] at h
    split at h
    · next hqueue =>
      cases h
      exact ⟨_, _, _, _, _, .drained clients hqueue, rfl⟩
    · next work queue hqueue =>
      cases h
      exact ⟨_, _, _, _, _, .popped clients work queue hqueue, rfl⟩
  | selecting clients work =>
    simp only [workerStep] at h
    split at h
    · cases h
      exact ⟨_, _, _, _, _, .unselected clients work, rfl⟩
    · next i _ =>
      cases h
      exact ⟨_, _, _, _, _, .selected clients work i, rfl⟩
  | requesting clients work i =>
    simp only [workerStep] at h
    split at h
    · next client endpoint hclient hendpoint =>
      cases h
      exact ⟨_, _, _, _, _, .answered clients work i client endpoint hclient hendpoint, rfl⟩
    · cases h
      exact ⟨_, _, _, _, _, .unanswered clients work i, rfl⟩
  | releasing clients work i result =>
    cases h
    exact ⟨_, _, _, _, _, .released clients work i result, rfl⟩
  | sending clients result =>
    cases h
    exact ⟨_, _, _, _, _, .sent clients result, rfl⟩
  | exited => cases h
  | panicked => cases h

theorem mainStep_cases (h : s.mainStep setup = some t) : MainMove setup s t := by
  unfold mainStep at h
  split at h
  · next hmain =>
    split at h
    · next message channel hchannel =>
      cases h
      exact .receive message channel hmain hchannel
    · next hchannel =>
      split at h
      · next hfinished =>
        cases h
        exact .finish hmain hchannel hfinished
      · cases h
  · next success hmain =>
    split at h
    · next hfailed =>
      cases h
      exact .skip success hmain hfailed
    next hfailed =>
    have hnone : s.firstError.isSome = false := by simpa using hfailed
    dsimp only at h
    split at h
    · next inserted hinsert =>
      cases h
      rw [hinsert]
      exact .insert success inserted _ hmain hnone (Prod.ext hinsert rfl)
    · next e hinsert =>
      cases h
      rw [hinsert]
      exact .insertFailed success e _ hmain hnone (Prod.ext hinsert rfl)
  · next e hmain =>
    cases h
    exact .fail e hmain
  · next e hmain =>
    cases h
    exact .stop e hmain
  · cases h

end PoolState

section Weights

/-- How many actions a thread has before it. A batch in the queue is worth one more than
all the actions on it, and a message one more than those of the main thread. -/
def WorkerPhase.size : WorkerPhase → ℕ
  | .starting => 7
  | .refusing _ => 6
  | .reporting _ => 5
  | .checking _ => 2
  | .popping _ => 1
  | .selecting _ _ => 11
  | .requesting _ _ _ => 10
  | .releasing _ _ _ _ => 9
  | .sending _ _ => 8
  | .exited => 0
  | .panicked => 0

def MainPhase.size : MainPhase → ℕ
  | .receiving => 1
  | .received _ => 4
  | .stopping _ => 3
  | .returned _ => 0

def PoolState.size (s : PoolState σ) : ℕ :=
  11 * s.queue.length + (s.workers.map WorkerPhase.size).sum + 4 * s.channel.length + s.main.size

variable {F σ : Type*} {setup : PoolSetup F σ} {vectorOf : EmbeddingConfig → Text → List F → Prop}
  {outside : Surroundings vectorOf} {s t : PoolState σ}

theorem WorkerMove.size_lt {phase phase' : WorkerPhase} {queue : List EmbeddingBatchWork} {stop : Bool}
    {channel : List BatchResult} (h : WorkerMove setup outside s phase phase' queue stop channel) :
    11 * queue.length + phase'.size + 4 * channel.length < 11 * s.queue.length + phase.size + 4 * s.channel.length := by
  cases h with
  | popped clients work rest h =>
    rw [h, List.length_cons]
    simp only [WorkerPhase.size]
    omega
  | _ =>
    simp only [WorkerPhase.size, List.length_append, List.length_singleton]
    omega

theorem MainMove.size_lt (h : MainMove setup s t) : t.size < s.size := by
  cases h with
  | receive message channel hmain hchannel =>
    simp only [PoolState.size, hmain, hchannel, MainPhase.size, List.length_cons]
    omega
  | finish hmain _ _ => simp only [PoolState.size, hmain, MainPhase.size]; omega
  | skip success hmain _ => simp only [PoolState.size, hmain, MainPhase.size]; omega
  | insert success inserted insertState hmain _ _ => simp only [PoolState.size, hmain, MainPhase.size]; omega
  | insertFailed success e insertState hmain _ _ => simp only [PoolState.size, hmain, MainPhase.size]; omega
  | fail e hmain => simp only [PoolState.size, hmain, MainPhase.size]; omega
  | stop e hmain => simp only [PoolState.size, hmain, MainPhase.size]; omega

namespace PoolState

theorem Step.size_lt (h : Step setup vectorOf s t) : t.size < s.size := by
  cases h with
  | worker outside w phase t hphase hstep =>
    obtain ⟨phase', queue, stop, channel, endpoints, hmove, rfl⟩ := workerStep_cases hstep
    have hmoved := hmove.size_lt
    have hsum := sum_map_set WorkerPhase.size hphase phase'
    simp only [size]
    omega
  | main t hstep => exact (mainStep_cases hstep).size_lt

theorem workerStep_isSome (w : ℕ) {phase : WorkerPhase} (hphase : finished phase = false) :
    ∃ t, s.workerStep setup outside w phase = some t := by
  cases phase <;> simp only [workerStep]
  case exited => cases hphase
  case panicked => cases hphase
  all_goals first
    | exact ⟨_, rfl⟩
    | split <;> exact ⟨_, rfl⟩

/-- Outside of the process everything fails. -/
def failing : Surroundings vectorOf where
  load _ := .error []
  reply _ _ _ := .failed []
  inOrder _ _ _ _ h := by cases h

/-- No thread waits for another for ever: until the main thread has returned, it or a
worker can move. -/
theorem progress (s : PoolState σ) : (∃ result, s.main = .returned result) ∨ ∃ t, Step setup vectorOf s t := by
  by_cases hfinished : s.workers.all finished = true
  · cases hmain : s.main with
    | returned result => exact Or.inl ⟨result, rfl⟩
    | receiving =>
      refine Or.inr ?_
      cases hchannel : s.channel with
      | nil => exact ⟨_, .main _ (by simp only [mainStep, hmain, hchannel, if_pos hfinished]; rfl)⟩
      | cons message channel => exact ⟨_, .main _ (by simp only [mainStep, hmain, hchannel]; rfl)⟩
    | received message =>
      refine Or.inr ?_
      cases message with
      | error e => exact ⟨_, .main _ (by simp only [mainStep, hmain]; rfl)⟩
      | ok success =>
        by_cases hfailed : s.firstError.isSome = true
        · exact ⟨_, .main _ (by simp only [mainStep, hmain, if_pos hfailed]; rfl)⟩
        · cases hresult : (setup.insertBatch success.embeddings s.insertState).1 with
          | ok inserted => exact ⟨_, .main _ (by simp only [mainStep, hmain, if_neg hfailed, hresult]; rfl)⟩
          | error e => exact ⟨_, .main _ (by simp only [mainStep, hmain, if_neg hfailed, hresult]; rfl)⟩
    | stopping e => exact Or.inr ⟨_, .main _ (by simp only [mainStep, hmain]; rfl)⟩
  · obtain ⟨phase, hmem, hphase⟩ : ∃ phase ∈ s.workers, finished phase = false := by simpa using hfinished
    obtain ⟨w, hw⟩ := List.mem_iff_getElem?.mp hmem
    have hmoves : ∃ t, s.workerStep setup (failing : Surroundings vectorOf) w phase = some t := workerStep_isSome w hphase
    obtain ⟨t, hstep⟩ := hmoves
    exact Or.inr ⟨t, .worker failing w phase t hw hstep⟩

end PoolState

end Weights

end CorpusFeed
