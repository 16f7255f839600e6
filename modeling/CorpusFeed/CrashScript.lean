import Mathlib.Init

/-! Programs that write a durable state effect by effect and may stop after any
of them. A run keeps every state a stop can leave behind, and a triple says
what holds in all of these, when the program returns and when it fails. -/

namespace CorpusFeed

/-- `passed` lists the states after the start that a stop can leave behind. -/
structure Ran (σ ε α : Type*) where
  passed : List σ
  final : σ
  result : Except ε α

def Script (σ ε α : Type*) := σ → Ran σ ε α

namespace Script

universe u

variable {ε : Type*} {σ α β : Type u}

def done (a : α) : Script σ ε α := fun s => ⟨[], s, .ok a⟩

def andThen (p : Script σ ε α) (f : α → Script σ ε β) : Script σ ε β := fun s =>
  match (p s).result with
  | .error e => ⟨(p s).passed, (p s).final, .error e⟩
  | .ok a => ⟨(p s).passed ++ (f a (p s).final).passed, (f a (p s).final).final, (f a (p s).final).result⟩

instance : Monad (Script σ ε) where
  pure := done
  bind := andThen

def read (f : σ → α) : Script σ ε α := fun s => ⟨[], s, .ok (f s)⟩

def check (f : σ → Except ε α) : Script σ ε α := fun s => ⟨[], s, f s⟩

/-- One atomic effect. -/
def write (f : σ → σ) : Script σ ε PUnit := fun s => ⟨[f s], f s, .ok ⟨⟩⟩

def tryWrite (f : σ → Except ε σ) : Script σ ε PUnit := fun s =>
  match f s with
  | .ok t => ⟨[t], t, .ok ⟨⟩⟩
  | .error e => ⟨[], s, .error e⟩

theorem tryWrite_of_ok {f : σ → Except ε σ} {s t : σ} (h : f s = .ok t) : tryWrite f s = ⟨[t], t, .ok ⟨⟩⟩ := by
  rw [tryWrite, h]

/-- A step that is not atomic, and can stop in states of its own. -/
def mayLeave (f : σ → List σ) : Script σ ε PUnit := fun s => ⟨f s, s, .ok ⟨⟩⟩

/-- The states that stopping the program, or its own error, can leave behind. -/
def Leaves (p : Script σ ε α) (s t : σ) : Prop :=
  t = s ∨ t ∈ (p s).passed ∨ t = (p s).final

theorem bind_of_ok {p : Script σ ε α} {f : α → Script σ ε β} {s : σ} {a : α} (h : (p s).result = .ok a) :
    (p >>= f) s =
      ⟨(p s).passed ++ (f a (p s).final).passed, (f a (p s).final).final, (f a (p s).final).result⟩ := by
  change andThen p f s = _
  rw [andThen, h]

theorem bind_of_error {p : Script σ ε α} {f : α → Script σ ε β} {s : σ} {e : ε} (h : (p s).result = .error e) :
    (p >>= f) s = ⟨(p s).passed, (p s).final, .error e⟩ := by
  change andThen p f s = _
  rw [andThen, h]

theorem read_bind (f : σ → α) (g : α → Script σ ε β) (s : σ) : (read f >>= g) s = g (f s) s := by
  rw [bind_of_ok rfl]
  rfl

theorem check_bind_ok {f : σ → Except ε α} {g : α → Script σ ε β} {s : σ} {a : α} (h : f s = .ok a) :
    (check f >>= g) s = g a s := by
  rw [bind_of_ok h]
  rfl

theorem check_bind_error {f : σ → Except ε α} {g : α → Script σ ε β} {s : σ} {e : ε} (h : f s = .error e) :
    (check f >>= g) s = ⟨[], s, .error e⟩ := by
  rw [bind_of_error h]
  rfl

theorem passed_first {p : Script σ ε α} {f : α → Script σ ε β} {s t : σ} (h : t ∈ (p s).passed) :
    t ∈ ((p >>= f) s).passed := by
  cases hr : (p s).result with
  | error e =>
    rw [bind_of_error hr]
    exact h
  | ok a =>
    rw [bind_of_ok hr]
    exact List.mem_append_left _ h

/-- The undisturbed program returns `a` in `t`. -/
structure Returns (p : Script σ ε α) (s : σ) (a : α) (t : σ) : Prop where
  result : (p s).result = .ok a
  final : (p s).final = t

namespace Returns

variable {p : Script σ ε α} {f : α → Script σ ε β} {s t u : σ} {a : α} {b : β}

theorem done : Returns (pure a : Script σ ε α) s a s := ⟨rfl, rfl⟩

theorem andThen (hp : Returns p s a t) (hf : Returns (f a) t b u) : Returns (p >>= f) s b u := by
  have hrun := bind_of_ok (f := f) hp.result
  rw [hp.final, hf.result, hf.final] at hrun
  constructor
  · rw [hrun]
  · rw [hrun]

theorem tryWrite {f : σ → Except ε σ} (h : f s = .ok t) : Returns (Script.tryWrite f) s ⟨⟩ t := by
  constructor
  · rw [tryWrite_of_ok h]
  · rw [tryWrite_of_ok h]

theorem passed (hp : Returns p s a t) (h : u ∈ (f a t).passed) : u ∈ ((p >>= f) s).passed := by
  rw [bind_of_ok hp.result, hp.final]
  exact List.mem_append_right _ h

end Returns

/-- From `P` the program leaves only states in `C`, returns in `Q`, and fails
in `E`. -/
structure Triple (P : σ → Prop) (p : Script σ ε α) (Q : α → σ → Prop) (E : ε → σ → Prop)
    (C : σ → Prop) : Prop where
  passed : ∀ s, P s → ∀ t ∈ (p s).passed, C t
  final : ∀ s, P s → C (p s).final
  returns : ∀ s, P s → ∀ a, (p s).result = .ok a → Q a (p s).final
  fails : ∀ s, P s → ∀ e, (p s).result = .error e → E e (p s).final

namespace Triple

variable {P : σ → Prop} {Q R : α → σ → Prop} {S : β → σ → Prop} {E F : ε → σ → Prop} {C D : σ → Prop}

theorem done {a : α} (h : ∀ s, P s → C s ∧ Q a s) : Triple P (pure a : Script σ ε α) Q E C where
  passed _ _ _ ht := absurd ht List.not_mem_nil
  final s hs := (h s hs).1
  returns s hs b hb := by
    cases hb
    exact (h s hs).2
  fails _ _ _ he := by cases he

theorem andThen {p : Script σ ε α} {f : α → Script σ ε β} (hp : Triple P p Q E C)
    (hf : ∀ a, Triple (Q a) (f a) S E C) : Triple P (p >>= f) S E C := by
  constructor
  · intro s hs t ht
    cases hr : (p s).result with
    | error e =>
      rw [bind_of_error hr] at ht
      exact hp.passed s hs t ht
    | ok a =>
      rw [bind_of_ok hr] at ht
      rcases List.mem_append.mp ht with ht | ht
      · exact hp.passed s hs t ht
      · exact (hf a).passed _ (hp.returns s hs a hr) t ht
  · intro s hs
    cases hr : (p s).result with
    | error e =>
      rw [bind_of_error hr]
      exact hp.final s hs
    | ok a =>
      rw [bind_of_ok hr]
      exact (hf a).final _ (hp.returns s hs a hr)
  · intro s hs b hb
    cases hr : (p s).result with
    | error e =>
      rw [bind_of_error hr] at hb
      cases hb
    | ok a =>
      rw [bind_of_ok hr] at hb ⊢
      exact (hf a).returns _ (hp.returns s hs a hr) b hb
  · intro s hs e he
    cases hr : (p s).result with
    | error e' =>
      rw [bind_of_error hr] at he ⊢
      cases he
      exact hp.fails s hs e hr
    | ok a =>
      rw [bind_of_ok hr] at he ⊢
      exact (hf a).fails _ (hp.returns s hs a hr) e he

theorem weaken {p : Script σ ε α} (h : Triple P p Q E C) {P' : σ → Prop} {Q' : α → σ → Prop}
    (hP : ∀ s, P' s → P s) (hQ : ∀ a s, Q a s → Q' a s) (hE : ∀ e s, E e s → F e s) (hC : ∀ s, C s → D s) :
    Triple P' p Q' F D where
  passed s hs t ht := hC t (h.passed s (hP s hs) t ht)
  final s hs := hC _ (h.final s (hP s hs))
  returns s hs a ha := hQ a _ (h.returns s (hP s hs) a ha)
  fails s hs e he := hE e _ (h.fails s (hP s hs) e he)

theorem pre {p : Script σ ε α} (h : Triple P p Q E C) {P' : σ → Prop} (hP : ∀ s, P' s → P s) :
    Triple P' p Q E C :=
  h.weaken hP (fun _ _ hs => hs) (fun _ _ he => he) fun _ hs => hs

theorem onReturn {p : Script σ ε α} (h : Triple P p Q E C) : Triple P p Q (fun _ _ => True) fun _ => True :=
  h.weaken (fun _ hs => hs) (fun _ _ hs => hs) (fun _ _ _ => trivial) fun _ _ => trivial

theorem given {ι : Sort*} {p : Script σ ε α} {P : ι → σ → Prop} (h : ∀ i, Triple (P i) p Q E C) :
    Triple (fun s => ∃ i, P i s) p Q E C where
  passed s hs := hs.elim fun i hi => (h i).passed s hi
  final s hs := hs.elim fun i hi => (h i).final s hi
  returns s hs := hs.elim fun i hi => (h i).returns s hi
  fails s hs := hs.elim fun i hi => (h i).fails s hi

theorem check {f : σ → Except ε α} (hC : ∀ s, P s → C s) (h : ∀ s, P s → ∀ a, f s = .ok a → Q a s)
    (he : ∀ s, P s → ∀ e, f s = .error e → E e s) : Triple P (Script.check f) Q E C where
  passed _ _ _ ht := absurd ht List.not_mem_nil
  final s hs := hC s hs
  returns s hs a ha := h s hs a ha
  fails s hs e hf := he s hs e hf

theorem read {f : σ → α} (hC : ∀ s, P s → C s) (h : ∀ s, P s → Q (f s) s) :
    Triple P (Script.read f : Script σ ε α) Q E C where
  passed _ _ _ ht := absurd ht List.not_mem_nil
  final s hs := hC s hs
  returns s hs a ha := by
    cases ha
    exact h s hs
  fails _ _ _ he := by cases he

variable {T : PUnit → σ → Prop}

theorem write {f : σ → σ} (hC : ∀ s, P s → C (f s)) (h : ∀ s, P s → T ⟨⟩ (f s)) :
    Triple P (Script.write f : Script σ ε PUnit) T E C where
  passed s hs t ht := by
    rw [List.mem_singleton.mp ht]
    exact hC s hs
  final s hs := hC s hs
  returns s hs _ _ := h s hs
  fails _ _ _ he := by cases he

theorem tryWrite {f : σ → Except ε σ} (hP : ∀ s, P s → C s)
    (h : ∀ s, P s → ∀ t, f s = .ok t → C t ∧ T ⟨⟩ t) (hf : ∀ s, P s → ∀ e, f s = .error e → E e s) :
    Triple P (Script.tryWrite f) T E C := by
  have hcases : ∀ s, (∃ t, f s = .ok t ∧ Script.tryWrite f s = ⟨[t], t, .ok ⟨⟩⟩) ∨
      ∃ e, f s = .error e ∧ Script.tryWrite f s = ⟨[], s, .error e⟩ := by
    intro s
    cases hr : f s with
    | ok t => exact Or.inl ⟨t, rfl, tryWrite_of_ok hr⟩
    | error e => exact Or.inr ⟨e, rfl, by rw [Script.tryWrite, hr]⟩
  constructor
  · intro s hs t ht
    rcases hcases s with ⟨u, hu, hrun⟩ | ⟨e, _, hrun⟩
    · rw [hrun] at ht
      rw [List.mem_singleton.mp ht]
      exact (h s hs u hu).1
    · rw [hrun] at ht
      cases ht
  · intro s hs
    rcases hcases s with ⟨u, hu, hrun⟩ | ⟨e, _, hrun⟩
    · rw [hrun]
      exact (h s hs u hu).1
    · rw [hrun]
      exact hP s hs
  · intro s hs a ha
    rcases hcases s with ⟨u, hu, hrun⟩ | ⟨e, _, hrun⟩
    · rw [hrun]
      exact (h s hs u hu).2
    · rw [hrun] at ha
      cases ha
  · intro s hs e he
    rcases hcases s with ⟨u, _, hrun⟩ | ⟨e', he', hrun⟩
    · rw [hrun] at he
      cases he
    · rw [hrun] at he ⊢
      cases he
      exact hf s hs e he'

theorem mayLeave {f : σ → List σ} (hP : ∀ s, P s → C s) (hf : ∀ s, P s → ∀ t ∈ f s, C t)
    (h : ∀ s, P s → T ⟨⟩ s) : Triple P (Script.mayLeave f : Script σ ε PUnit) T E C where
  passed := hf
  final := hP
  returns s hs _ _ := h s hs
  fails _ _ _ he := by cases he

theorem leaves {p : Script σ ε α} (h : Triple P p Q E C) {s t : σ} (hs : P s) (hC : C s) (hl : p.Leaves s t) :
    C t := by
  rcases hl with rfl | ht | rfl
  · exact hC
  · exact h.passed s hs t ht
  · exact h.final s hs

/-- A program that has no error to fail with returns. -/
theorem completes {p : Script σ ε α} (h : Triple P p Q E C) (hE : ∀ e s, ¬ E e s) {s : σ} (hs : P s) :
    ∃ a, (p s).result = .ok a ∧ Q a (p s).final := by
  cases hr : (p s).result with
  | ok a => exact ⟨a, rfl, h.returns s hs a hr⟩
  | error e => exact absurd (h.fails s hs e hr) (hE e _)

end Triple

end Script

end CorpusFeed
