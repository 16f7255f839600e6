import CorpusFeed.Runs

/-! Tasks performed in order until one fails: which of them are performed, in
which state, and what the whole list leaves unchanged. -/

namespace CorpusFeed

section StoppingTasks

variable {T S E R : Type*} (perform : S → T → S × Except E R)

/-- A failed task keeps the state it leaves and ends the list. -/
def runTasks : List T → S → S
  | [], s => s
  | t :: tasks, s =>
    match perform s t with
    | (s', .error _) => s'
    | (s', .ok _) => runTasks tasks s'

inductive Performed : List T → S → T → S → Prop
  | head (t : T) (tasks : List T) (s : S) : Performed (t :: tasks) s t s
  | later {t u : T} {tasks : List T} {s before : S} {r : R} (hok : (perform s t).2 = .ok r)
      (h : Performed tasks (perform s t).1 u before) : Performed (t :: tasks) s u before

variable {perform} {tasks : List T} {s : S}

theorem Performed.mem {t : T} {before : S} (h : Performed perform tasks s t before) : t ∈ tasks := by
  induction h with
  | head t tasks s => exact List.mem_cons_self
  | later _ _ ih => exact List.mem_cons_of_mem _ ih

theorem runTasks_cons_error {t : T} {e : E} (h : (perform s t).2 = .error e) :
    runTasks perform (t :: tasks) s = (perform s t).1 := by
  rcases hp : perform s t with ⟨s', result⟩
  rw [hp] at h
  cases h
  simp [runTasks, hp]

theorem runTasks_cons_ok {t : T} {r : R} (h : (perform s t).2 = .ok r) :
    runTasks perform (t :: tasks) s = runTasks perform tasks (perform s t).1 := by
  rcases hp : perform s t with ⟨s', result⟩
  rw [hp] at h
  cases h
  simp [runTasks, hp]

theorem Performed.keeps {P : S → Prop} {t : T} {before : S} (h : Performed perform tasks s t before) (hs : P s)
    (hstep : ∀ u ∈ tasks, ∀ b, P b → P (perform b u).1) : P before := by
  induction h with
  | head t tasks s => exact hs
  | later _ _ ih =>
    have hnext := hstep _ List.mem_cons_self _ hs
    exact ih hnext fun u hu => hstep u (List.mem_cons_of_mem _ hu)

theorem runTasks_keeps {P : S → Prop} (hs : P s) (hstep : ∀ u ∈ tasks, ∀ b, P b → P (perform b u).1) :
    P (runTasks perform tasks s) := by
  induction tasks generalizing s with
  | nil => exact hs
  | cons t tasks ih =>
    have hnext := hstep t List.mem_cons_self s hs
    cases hr : (perform s t).2 with
    | error e => exact runTasks_cons_error hr ▸ hnext
    | ok r => exact runTasks_cons_ok hr ▸ ih hnext fun u hu => hstep u (List.mem_cons_of_mem t hu)

theorem runTasks_related (Related : S → S → Prop) (hrefl : ∀ a, Related a a)
    (htrans : ∀ a b c, Related a b → Related b c → Related a c)
    (h : ∀ t before, Performed perform tasks s t before → Related before (perform before t).1) :
    Related s (runTasks perform tasks s) := by
  induction tasks generalizing s with
  | nil => exact hrefl s
  | cons t tasks ih =>
    have hfirst := h t s (.head t tasks s)
    cases hr : (perform s t).2 with
    | error e => exact runTasks_cons_error hr ▸ hfirst
    | ok r =>
      have hrest := ih fun u before hp => h u before (.later hr hp)
      exact runTasks_cons_ok hr ▸ htrans _ _ _ hfirst hrest

end StoppingTasks

end CorpusFeed
