import CorpusFeed.MemberResume

/-! The plan order of archive members, and what the processing of one member
does to the store. -/

namespace CorpusFeed

/-- A baseline comes after a delta of the same timestamp, which its plan drops. -/
def Archive.rank (a : Archive) : Nat := 2 * a.timestamp + if isBaseline a then 1 else 0

theorem Archive.rank_injective : Function.Injective Archive.rank := by
  rintro ⟨kind, timestamp⟩ ⟨kind', timestamp'⟩ h
  cases kind <;> cases kind' <;> simp [Archive.rank, isBaseline] at h ⊢ <;> omega

variable {P D : Type*}

namespace ArchiveMember

def Precedes (x y : ArchiveMember P) : Prop :=
  x.archive.rank < y.archive.rank ∨ (x.archive = y.archive ∧ x.index < y.index)

theorem Precedes.asymm {x y : ArchiveMember P} (h : x.Precedes y) : ¬ y.Precedes x := by
  rintro (hrank | ⟨hsame, hindex⟩) <;> rcases h with hrank' | ⟨hsame', hindex'⟩
  · omega
  · rw [hsame'] at hrank
    omega
  · rw [hsame] at hrank'
    omega
  · omega

theorem not_precedes_self (x : ArchiveMember P) : ¬ x.Precedes x := fun h => h.asymm h

end ArchiveMember

namespace ArchiveContents

variable {contents : ArchiveContents P} {x y : ArchiveMember P}

def Holds (contents : ArchiveContents P) (x : ArchiveMember P) : Prop := x ∈ contents.membersOf x.archive

theorem mem_membersOf {a : Archive} : x ∈ contents.membersOf a ↔
    x.archive = a ∧ (contents.files a)[x.index]? = some (x.path, x.payload) := by
  simp only [membersOf, List.mem_map, Prod.exists, List.mem_zipIdx_iff_getElem?]
  constructor
  · rintro ⟨path, payload, index, hentry, rfl⟩
    exact ⟨rfl, hentry⟩
  · rintro ⟨rfl, hentry⟩
    exact ⟨x.path, x.payload, x.index, hentry, rfl⟩

theorem holds_of_mem {a : Archive} (h : x ∈ contents.membersOf a) : contents.Holds x := by
  obtain rfl := (mem_membersOf.mp h).1
  exact h

/-- A member is found by its archive and its index. -/
theorem eq_of_index (hx : contents.Holds x) (hy : contents.Holds y) (harchive : x.archive = y.archive)
    (hindex : x.index = y.index) : x = y := by
  have hx' := (mem_membersOf.mp hx).2
  have hy' := (mem_membersOf.mp hy).2
  rw [harchive, hindex, hy'] at hx'
  cases x
  cases y
  simp_all

theorem eq_of_path (hx : contents.Holds x) (hy : contents.Holds y) (harchive : x.archive = y.archive)
    (hpath : x.path = y.path) : x = y := by
  refine eq_of_index hx hy harchive ?_
  have hx' := (mem_membersOf.mp hx).2
  have hy' := (mem_membersOf.mp hy).2
  rw [harchive] at hx'
  obtain ⟨hxlt, hxget⟩ := List.getElem?_eq_some_iff.mp hx'
  obtain ⟨hylt, hyget⟩ := List.getElem?_eq_some_iff.mp hy'
  have hxlt' : x.index < ((contents.files y.archive).map Prod.fst).length := by simpa using hxlt
  have hylt' : y.index < ((contents.files y.archive).map Prod.fst).length := by simpa using hylt
  have hsame : ((contents.files y.archive).map Prod.fst)[x.index] = ((contents.files y.archive).map Prod.fst)[y.index] := by
    simp [hxget, hyget, hpath]
  exact (contents.paths_nodup y.archive).getElem_inj_iff.mp hsame

theorem precedes_total (hx : contents.Holds x) (hy : contents.Holds y) : x = y ∨ x.Precedes y ∨ y.Precedes x := by
  rcases Nat.lt_trichotomy x.archive.rank y.archive.rank with hrank | hrank | hrank
  · exact Or.inr (Or.inl (Or.inl hrank))
  · have harchive := Archive.rank_injective hrank
    rcases Nat.lt_trichotomy x.index y.index with hindex | hindex | hindex
    · exact Or.inr (Or.inl (Or.inr ⟨harchive, hindex⟩))
    · exact Or.inl (eq_of_index hx hy harchive hindex)
    · exact Or.inr (Or.inr (Or.inr ⟨harchive.symm, hindex⟩))
  · exact Or.inr (Or.inr (Or.inl hrank))

theorem membersOf_sorted (contents : ArchiveContents P) (a : Archive) :
    (contents.membersOf a).Pairwise ArchiveMember.Precedes := by
  refine List.pairwise_map.mpr ((List.pairwise_iff_getElem).mpr fun i j hi hj hij => Or.inr ⟨rfl, ?_⟩)
  simpa using hij

end ArchiveContents

namespace IngestStore

variable {setup : IngestSetup P D}

theorem mem_work {archives : List Archive} {x : ArchiveMember P} :
    x ∈ work setup archives ↔ setup.contents.Holds x ∧ x.archive ∈ archives := by
  simp only [work, List.mem_flatMap]
  constructor
  · rintro ⟨a, ha, hx⟩
    exact ⟨ArchiveContents.holds_of_mem hx, (ArchiveContents.mem_membersOf.mp hx).1 ▸ ha⟩
  · rintro ⟨hx, ha⟩
    exact ⟨x.archive, ha, hx⟩

theorem work_sorted {archives : List Archive} (h : archives.Pairwise fun a b => a.rank < b.rank) :
    (work setup archives).Pairwise ArchiveMember.Precedes := by
  refine List.pairwise_flatMap.mpr ⟨fun a _ => setup.contents.membersOf_sorted a, h.imp ?_⟩
  intro a b hab x hx y hy
  rw [← (ArchiveContents.mem_membersOf.mp hx).1, ← (ArchiveContents.mem_membersOf.mp hy).1] at hab
  exact Or.inl hab

end IngestStore

theorem select_sorted {mirror : List Archive} {plan : ArchivePlan} (hof : PlanOf mirror plan) (hnodup : mirror.Nodup)
    (filter : ArchiveSyncFilter) : (selectArchivesToProcess plan filter).Pairwise fun a b => a.rank < b.rank := by
  have hdeltas : plan.deltas.Pairwise fun a b => a.rank < b.rank := by
    refine (hof.deltas_sorted.and (hof.deltas_nodup hnodup)).imp_of_mem ?_
    rintro a b ha hb ⟨hle, hne⟩
    have hka := ((hof.mem_deltas a).mp ha).2.1
    have hkb := ((hof.mem_deltas b).mp hb).2.1
    have hrank : a.rank ≠ b.rank := fun hrank => hne (Archive.rank_injective hrank)
    simp only [Archive.rank, isBaseline, hka, hkb] at hrank ⊢
    simp at hrank ⊢
    omega
  have hbaseline : ∀ a ∈ plan.deltas, plan.baseline.rank < a.rank := by
    intro a ha
    obtain ⟨_, hkind, hlt⟩ := (hof.mem_deltas a).mp ha
    simp [Archive.rank, isBaseline, hkind, hof.baseline_kind]
    omega
  unfold selectArchivesToProcess
  refine List.pairwise_append.mpr ⟨?_, hdeltas.filter _, ?_⟩
  · split <;> simp
  · intro a ha b hb
    split at ha
    · cases ha
    · rw [List.mem_singleton.mp ha]
      exact hbaseline b (List.mem_filter.mp hb).1

end CorpusFeed
