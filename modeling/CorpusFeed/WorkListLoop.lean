import Mathlib.Data.List.Nodup
import Mathlib.Data.List.Perm.Subperm

/-! A loop over a work list: load a page, write its items batch by batch, until a page
is empty. -/

namespace CorpusFeed

structure WorkList (S I K E : Type*) where
  key : I → K
  load : S → Option ℕ → List I
  write : S → List I → Except E S

namespace WorkList

variable {S I K E : Type*} (work : WorkList S I K E)

def writeBatches : List (List I) → S → Except E S
  | [], s => .ok s
  | batch :: batches, s =>
    match work.write s batch with
    | .ok s' => writeBatches batches s'
    | .error e => .error e

/-- `split` gives the batches of a page in the order in which they are written. The
result is `none` when the rounds run out. -/
def loop (limit : ℕ) (split : List I → List (List I)) : ℕ → S → Option (Except E S)
  | 0, _ => none
  | rounds + 1, s =>
    match work.load s (some limit) with
    | [] => some (.ok s)
    | page => match work.writeBatches (split page) s with
      | .ok s' => loop limit split rounds s'
      | .error e => some (.error e)

/-- The list and the writer agree: while `Inv` holds, what is listed can be written, and
writing takes exactly that off the list. -/
structure Agrees (Inv : S → Prop) : Prop where
  limited : ∀ s limit, work.load s (some limit) = (work.load s none).take limit
  nodup : ∀ s, ((work.load s none).map work.key).Nodup
  written : ∀ s items, Inv s → (∀ item ∈ items, item ∈ work.load s none) → (items.map work.key).Nodup →
    ∃ s', work.write s items = .ok s' ∧ Inv s' ∧
      ∀ item, item ∈ work.load s' none ↔ item ∈ work.load s none ∧ work.key item ∉ items.map work.key

variable {work} {Inv : S → Prop}

theorem Agrees.writeBatches (h : work.Agrees Inv) {batches : List (List I)} {s : S} (hs : Inv s)
    (hlisted : ∀ item ∈ batches.flatten, item ∈ work.load s none) (hnodup : (batches.flatten.map work.key).Nodup) :
    ∃ s', work.writeBatches batches s = .ok s' ∧ Inv s' ∧ ∀ item, item ∈ work.load s' none ↔
      item ∈ work.load s none ∧ work.key item ∉ batches.flatten.map work.key := by
  induction batches generalizing s with
  | nil => exact ⟨s, rfl, hs, by simp⟩
  | cons batch batches ih =>
    rw [List.flatten_cons, List.map_append, List.nodup_append'] at hnodup
    obtain ⟨hbatch, hbatches, hdisjoint⟩ := hnodup
    obtain ⟨s₁, hwrite, hs₁, hload₁⟩ := h.written s batch hs (fun item hi => hlisted item (by simp [hi])) hbatch
    have hlisted₁ : ∀ item ∈ batches.flatten, item ∈ work.load s₁ none := by
      intro item hi
      have hmem := hlisted item (by
        rw [List.flatten_cons]
        exact List.mem_append_right _ hi)
      exact (hload₁ item).mpr ⟨hmem, fun hkey => hdisjoint hkey (List.mem_map_of_mem hi)⟩
    obtain ⟨s', hrest, hs', hload⟩ := ih hs₁ hlisted₁ hbatches
    refine ⟨s', by rw [WorkList.writeBatches, hwrite]; exact hrest, hs', fun item => ?_⟩
    rw [hload, hload₁, List.flatten_cons, List.map_append, List.mem_append, not_or, and_assoc]

/-- Every round takes a page off the list, so as many rounds as there are items are
enough, and one more that finds nothing. -/
theorem Agrees.loop_ends (h : work.Agrees Inv) {limit : ℕ} (hlimit : 0 < limit) {split : List I → List (List I)}
    (hsplit : ∀ page, (split page).flatten.Perm page) {s : S} (hs : Inv s) :
    ∃ rounds s', work.loop limit split rounds s = some (.ok s') ∧ Inv s' ∧ work.load s' none = [] := by
  induction hcount : (work.load s none).length using Nat.strongRecOn generalizing s with
  | ind count ih =>
    cases hpage : work.load s (some limit) with
    | nil =>
      refine ⟨1, s, by simp [loop, hpage], hs, ?_⟩
      rw [h.limited, List.take_eq_nil_iff] at hpage
      exact hpage.resolve_left (by omega)
    | cons item rest =>
      have htake : item :: rest = (work.load s none).take limit := by rw [← hpage, h.limited]
      have hperm := hsplit (item :: rest)
      have hlisted : ∀ i ∈ (split (item :: rest)).flatten, i ∈ work.load s none := by
        intro i hi
        have hi := hperm.mem_iff.mp hi
        rw [htake] at hi
        exact List.mem_of_mem_take hi
      have hnodup : ((split (item :: rest)).flatten.map work.key).Nodup := by
        rw [(hperm.map work.key).nodup_iff, htake]
        exact (h.nodup s).sublist ((List.take_sublist _ _).map _)
      obtain ⟨s₁, hwrite, hs₁, hload⟩ := h.writeBatches hs hlisted hnodup
      have hitem : item ∈ (split (item :: rest)).flatten := hperm.mem_iff.mpr List.mem_cons_self
      have hfewer : (work.load s₁ none).length < count := by
        have hnot : item ∉ work.load s₁ none := fun hi => ((hload item).mp hi).2 (List.mem_map_of_mem hitem)
        have hsub : (item :: work.load s₁ none).Subperm (work.load s none) := by
          refine List.subperm_of_subset (List.nodup_cons.mpr ⟨hnot, (h.nodup s₁).of_map⟩) fun i hi => ?_
          rcases List.mem_cons.mp hi with rfl | hi
          · exact hlisted i hitem
          · exact ((hload i).mp hi).1
        have hle := hsub.length_le
        rw [hcount, List.length_cons] at hle
        exact hle
      obtain ⟨rounds, s', hloop, hs', hend⟩ := ih _ hfewer hs₁ rfl
      exact ⟨rounds + 1, s', by rw [loop, hpage]; simp only [hwrite, hloop], hs', hend⟩

/-- Everything listed can be written, writing it leaves nothing listed, and the loop
over pages comes to its end, whichever way its pages are split. -/
structure Drains (work : WorkList S I K E) (limit : ℕ) (s : S) : Prop where
  accepted : ∀ item ∈ work.load s none, ∃ s', work.write s [item] = .ok s'
  emptied : ∃ s', work.write s (work.load s none) = .ok s' ∧ work.load s' none = []
  ends : ∀ split : List I → List (List I), (∀ page, (split page).flatten.Perm page) →
    ∃ rounds s', work.loop limit split rounds s = some (.ok s') ∧ work.load s' none = []

theorem Agrees.drains (h : work.Agrees Inv) {limit : ℕ} (hlimit : 0 < limit) {s : S} (hs : Inv s) : work.Drains limit s := by
  refine ⟨fun item hi => ?_, ?_, fun split hsplit => ?_⟩
  · obtain ⟨s', hwrite, _⟩ := h.written s [item] hs (by simpa using hi) (by simp)
    exact ⟨s', hwrite⟩
  · obtain ⟨s', hwrite, _, hload⟩ := h.written s (work.load s none) hs (fun _ hi => hi) (h.nodup s)
    refine ⟨s', hwrite, List.eq_nil_iff_forall_not_mem.mpr fun item hi => ?_⟩
    obtain ⟨hlisted, hnot⟩ := (hload item).mp hi
    exact hnot (List.mem_map_of_mem hlisted)
  · obtain ⟨rounds, s', hloop, _, hend⟩ := h.loop_ends hlimit hsplit hs
    exact ⟨rounds, s', hloop, hend⟩

end WorkList

end CorpusFeed
