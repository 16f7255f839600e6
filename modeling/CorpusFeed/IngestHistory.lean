import CorpusFeed.ArchiveIngest

/-! Histories of one corpus: archives become visible in its mirror in any order,
and runs ingest what is planned. -/

namespace CorpusFeed

variable {P D : Type*} {setup : IngestSetup P D}

namespace IngestStore

variable {mirror : List Archive} {s : IngestStore setup} {req : IngestRequest} {plan : ArchivePlan}
  {x : ArchiveMember P} {d : D}

open ArchiveMember

theorem Sound.mono {mirror' : List Archive} (h : Sound mirror s) (hmirror : mirror ⊆ mirror') :
    Sound mirror' s where
  numbered := h.numbered
  newest := by
    intro y hy hdone d hd
    obtain ⟨p, d', hp, hpmirror, hrest⟩ := h.newest y hy hdone d hd
    exact ⟨p, d', hp, hmirror hpmirror, hrest⟩

/-- The archives of the plan, in plan order. -/
def planned (plan : ArchivePlan) : List Archive := selectArchivesToProcess plan ⟨false, none⟩

theorem mem_planned {a : Archive} : a ∈ planned plan ↔ a = plan.baseline ∨ a ∈ plan.deltas := by
  simp [planned, mem_select, passesSince]

theorem select_subset (hof : PlanOf mirror plan) (filter : ArchiveSyncFilter) :
    selectArchivesToProcess plan filter ⊆ mirror := by
  intro a ha
  rcases mem_select.mp ha with ⟨_, rfl⟩ | ⟨hdelta, _⟩
  · exact hof.baseline_mem
  · exact ((hof.mem_deltas a).mp hdelta).1

/-- Archives of the mirror outside the plan come before its baseline. -/
theorem rank_lt_of_not_planned (hof : PlanOf mirror plan) {a : Archive} (ha : a ∈ mirror) (hout : a ∉ planned plan) :
    a.rank < plan.baseline.rank := by
  rw [mem_planned, not_or] at hout
  cases hkind : a.kind with
  | baseline =>
    have hle := hof.baseline_newest a ha hkind
    have hne : a.timestamp ≠ plan.baseline.timestamp := by
      intro htimestamp
      refine hout.1 (Archive.rank_injective ?_)
      simp [Archive.rank, isBaseline, hkind, hof.baseline_kind, htimestamp]
    simp only [Archive.rank, isBaseline, hkind, hof.baseline_kind, decide_true, if_true]
    omega
  | delta =>
    have hle : ¬ plan.baseline.timestamp < a.timestamp := fun hlt => hout.2 ((hof.mem_deltas a).mpr ⟨ha, hkind, hlt⟩)
    simp [Archive.rank, isBaseline, hkind, hof.baseline_kind]
    omega

theorem baseline_rank_le (hof : PlanOf mirror plan) {a : Archive} (ha : a ∈ planned plan) :
    plan.baseline.rank ≤ a.rank := by
  rcases mem_planned.mp ha with rfl | hdelta
  · exact Nat.le_refl _
  · obtain ⟨_, hkind, hlt⟩ := (hof.mem_deltas a).mp hdelta
    simp [Archive.rank, isBaseline, hkind, hof.baseline_kind]
    omega

/-- The member is the last one of its document in the planned archives. -/
def LastOfPlan (setup : IngestSetup P D) (plan : ArchivePlan) (x : ArchiveMember P) (d : D) : Prop :=
  x ∈ work setup (planned plan) ∧ setup.parse x.payload = .article d ∧
    ∀ y ∈ work setup (planned plan), ∀ d', setup.parse y.payload = .article d' →
      setup.documentId d' = setup.documentId d → ¬ x.Precedes y

/-- Where the last member of a document is done, its version is what is stored. -/
theorem Sound.last_stored (h : Sound mirror s) (hof : PlanOf mirror plan) (hlast : LastOfPlan setup plan x d)
    (hdone : s.Done x) : s.projection.StoredAs (setup.record d) := by
  obtain ⟨hwork, hparse, hnone⟩ := hlast
  obtain ⟨hx, hplanned⟩ := mem_work.mp hwork
  obtain ⟨p, d', hp, hpmirror, hpd, hpid, hstored, hnot⟩ := h.newest x hx hdone d hparse
  have hpplanned : p.archive ∈ planned plan := by
    by_contra hout
    have hlt := rank_lt_of_not_planned hof hpmirror hout
    have hle := baseline_rank_le hof hplanned
    exact hnot (Or.inl (by omega))
  have hafter := hnone p (mem_work.mpr ⟨hp, hpplanned⟩) d' hpd hpid
  rcases ArchiveContents.precedes_total hx hp with rfl | hprecedes | hprecedes
  · rw [hparse] at hpd
    exact ParsedMember.article.inj hpd ▸ hstored
  · exact absurd hprecedes hafter
  · exact absurd hprecedes hnot

theorem visited_sublist : (visited setup req plan).Sublist (work setup (selectArchivesToProcess plan req.filter)) := by
  unfold visited
  cases req.stopAfter with
  | none => exact List.Sublist.refl _
  | some n => exact List.take_sublist n _

/-- A run over the mirror keeps the invariant, and once it is completed all that
it planned is done. -/
theorem ingestLegiArchives_sound (hedges : EdgesApart setup) (hnodup : mirror.Nodup) (h : Sound mirror s)
    (hclear : ∀ plan, planFromPaths mirror = some plan → ∀ m ∈ visited setup req plan,
      ClearOf req s m ∧ CoversOlder req s (visited setup req plan) m) :
    Sound mirror (ingestLegiArchives mirror s req).1 ∧
      ((ingestLegiArchives mirror s req).2 = true → ∀ plan, planFromPaths mirror = some plan →
        ∀ m ∈ work setup (selectArchivesToProcess plan req.filter), (ingestLegiArchives mirror s req).1.Done m) := by
  unfold ingestLegiArchives
  cases hplan : planFromPaths mirror with
  | none => exact ⟨h, by simp⟩
  | some plan =>
    have hof := planFromPaths_cases hplan
    have hwork : (work setup (selectArchivesToProcess plan req.filter)).Pairwise ArchiveMember.Precedes :=
      work_sorted (select_sorted hof hnodup req.filter)
    have hsorted := hwork.sublist visited_sublist
    have hholds : ∀ m ∈ visited setup req plan, setup.contents.Holds m ∧ m.archive ∈ mirror := by
      intro m hm
      obtain ⟨hm', harchive⟩ := mem_work.mp (visited_sublist.subset hm)
      exact ⟨hm', select_subset hof req.filter harchive⟩
    have hmembers := processMembers_sound hedges hsorted hholds h h (hclear plan hplan)
    dsimp only
    generalize processMembers req s s (visited setup req plan) = result at hmembers
    obtain ⟨last, outcome⟩ := result
    obtain ⟨hsound, hdone⟩ := hmembers
    cases outcome with
    | error e => exact ⟨hsound, fun hcompleted => by cases hcompleted⟩
    | ok failed =>
      refine ⟨hsound.backfill req.enriched, fun hcompleted plan' hplan' m hm => ?_⟩
      obtain rfl := Option.some.inj hplan'
      obtain ⟨hfailed, hstop⟩ := Bool.and_eq_true_iff.mp hcompleted
      have hvisited : visited setup req plan = work setup (selectArchivesToProcess plan req.filter) := by
        simp [visited, Option.isNone_iff_eq_none.mp hstop]
      exact hdone (congrArg Except.ok (of_decide_eq_true hfailed)) m (hvisited ▸ hm)

end IngestStore

structure IngestHost (setup : IngestSetup P D) where
  mirror : List Archive
  store : IngestStore setup

inductive IngestAction where
  | appear (a : Archive)
  | ingest (req : IngestRequest)

namespace IngestHost

open IngestStore

variable {h : IngestHost setup} {action : IngestAction}

def start (setup : IngestSetup P D) : IngestHost setup := ⟨[], ⟨[], .empty⟩⟩

def step (h : IngestHost setup) : IngestAction → IngestHost setup
  | .appear a => { h with mirror := h.mirror.insert a }
  | .ingest req => { h with store := (ingestLegiArchives h.mirror h.store req).1 }

/-- After a completed full scan every document is stored, with its chunks and edges,
as its last planned member has it. -/
def FullScanExact (h : IngestHost setup) : IngestAction → Prop
  | .appear _ => True
  | .ingest req => req.filter = ⟨false, none⟩ → (ingestLegiArchives h.mirror h.store req).2 = true →
    ∀ plan, planFromPaths h.mirror = some plan → ∀ x d, LastOfPlan setup plan x d →
      (ingestLegiArchives h.mirror h.store req).1.projection.StoredAs (setup.record d)

/-- The run processes no member that a done member of the same document follows, and
no version with fewer chunks or other edges than an older one. -/
def Timely (h : IngestHost setup) : IngestAction → Prop
  | .appear _ => True
  | .ingest req => ∀ plan, planFromPaths h.mirror = some plan → ∀ m ∈ visited setup req plan,
    ClearOf req h.store m ∧ CoversOlder req h.store (visited setup req plan) m

structure Kept (h : IngestHost setup) : Prop where
  nodup : h.mirror.Nodup
  sound : Sound h.mirror h.store

theorem kept_start : (start setup).Kept where
  nodup := List.nodup_nil
  sound := {
    numbered := ProjectionStore.rowsNumbered_empty
    newest := by
      rintro y - ⟨row, hrow, -⟩
      simp [start, latestRow] at hrow }

theorem Kept.step (hkept : h.Kept) (hedges : EdgesApart setup) (htimely : h.Timely action) : (h.step action).Kept := by
  cases action with
  | appear a => exact ⟨hkept.nodup.insert, hkept.sound.mono fun b hb => List.mem_insert_of_mem hb⟩
  | ingest req => exact ⟨hkept.nodup, (ingestLegiArchives_sound hedges hkept.nodup hkept.sound htimely).1⟩

theorem Kept.fullScanExact (hkept : h.Kept) (hedges : EdgesApart setup) (htimely : h.Timely action) :
    h.FullScanExact action := by
  cases action with
  | appear a => trivial
  | ingest req =>
    intro hfilter hcompleted plan hplan x d hlast
    obtain ⟨hsound, hdone⟩ := ingestLegiArchives_sound hedges hkept.nodup hkept.sound htimely
    have hwork : x ∈ work setup (selectArchivesToProcess plan req.filter) := hfilter ▸ hlast.1
    exact hsound.last_stored (planFromPaths_cases hplan) hlast (hdone hcompleted plan hplan x hwork)

/-- In a history whose runs are timely no older content replaces newer content. -/
theorem newest_content_stored (hedges : EdgesApart setup) (actions : List IngestAction)
    (htimely : RunMeets step Timely (start setup) actions) : RunMeets step FullScanExact (start setup) actions :=
  RunMeets.mono (fun _ _ hkept => Kept.step hkept hedges) (fun _ _ hkept => Kept.fullScanExact hkept hedges) kept_start
    htimely

/-- Every archive has one member, an article whose text is the archive's timestamp. -/
def oneArticle : IngestSetup Text Text where
  contents := ⟨fun a => [("article.xml".toList, intText a.timestamp)], fun _ => List.nodup_singleton _⟩
  payloadHash payload := payload
  parse payload := .article payload
  document payload := .article (articleVersion payload)

def january : Archive := ⟨.baseline, 20250101000000⟩

def march : Archive := ⟨.baseline, 20250301000000⟩

def april : Archive := ⟨.delta, 20250401000000⟩

def fullScanRequest (run : Text) : IngestRequest :=
  ⟨run, ['1'], ['1'], ['1'], ⟨false, none⟩, fun _ _ => false, fun _ _ => true, none, []⟩

def fullScan (run : Text) : IngestAction := .ingest (fullScanRequest run)

theorem archive_of_done {s : IngestStore setup} {y : ArchiveMember P} (h : s.Done y) :
    y.archive ∈ s.rows.map IngestMemberRow.archiveName := by
  obtain ⟨row, hrow, _⟩ := h
  have hkey := List.find?_some hrow
  simp only [decide_eq_true_eq] at hkey
  exact List.mem_map.mpr ⟨row, List.mem_of_find?_eq_some hrow, hkey.1⟩

theorem payload_oneArticle {m : ArchiveMember Text} (hm : oneArticle.contents.Holds m) :
    m.index = 0 ∧ m.payload = intText m.archive.timestamp := by
  have hentry := (ArchiveContents.mem_membersOf.mp hm).2
  obtain ⟨hlt, hget⟩ := List.getElem?_eq_some_iff.mp hentry
  have hzero : m.index = 0 := by
    simp only [oneArticle, List.length_singleton] at hlt
    omega
  simp only [hzero] at hentry
  exact ⟨hzero, (congrArg Prod.snd (Option.some.inj hentry)).symm⟩

theorem not_precedes_of_rank_le {m y : ArchiveMember Text} (hy : oneArticle.contents.Holds y)
    (hrank : y.archive.rank ≤ m.archive.rank) : ¬ m.Precedes y := by
  have hindex := (payload_oneArticle hy).1
  rintro (hprecedes | ⟨_, hbefore⟩) <;> omega

theorem edgesApart_oneArticle : EdgesApart oneArticle := by
  intro d d' hne
  exact absurd rfl hne

theorem one_chunk : ∀ a ∈ [april, january], (oneArticle.record (intText a.timestamp)).chunks.length = 1 := by
  decide

theorem same_edge (d d' : Text) : ∀ edge ∈ (oneArticle.record d).edges,
    edge.edgeId ∈ (oneArticle.record d').edges.map CanonicalGraphEdge.edgeId := by
  intro edge hedge
  rw [List.mem_singleton.mp hedge]
  exact List.mem_singleton.mpr rfl

theorem parsed_oneArticle {req : IngestRequest} {m : ArchiveMember Text} {d : Text} (hm : oneArticle.contents.Holds m)
    (h : parsed oneArticle req m = .article d) : d = intText m.archive.timestamp := by
  have hparse := parse_of_parsed h (by simp)
  exact (ParsedMember.article.inj hparse).symm.trans (payload_oneArticle hm).2

/-- Versions of one chunk replace one another. -/
theorem coversOlder_oneArticle {req : IngestRequest} {s : IngestStore oneArticle} {members : List (ArchiveMember Text)}
    {m : ArchiveMember Text} (hmembers : ∀ m ∈ members, oneArticle.contents.Holds m ∧ m.archive ∈ [april, january])
    (hm : m ∈ members) (hchunks : ∀ row ∈ s.projection.chunks, row.chunk.chunkIndex = 0)
    (hedges : ∀ edge ∈ s.projection.graphEdges, edge.edgeId = "publisher-edge:1".toList) :
    CoversOlder req s members m := by
  intro htakes d hparsed
  obtain ⟨hholds, harchive⟩ := hmembers m hm
  have hlength : (oneArticle.record d).chunks.length = 1 := by
    rw [parsed_oneArticle hholds hparsed]
    exact one_chunk m.archive harchive
  refine ⟨?_, ?_⟩
  · refine { chunks := ?_, edges := ?_, distinct := ?_ }
    · intro row hr _
      rw [hchunks row hr, hlength]
      exact Nat.one_pos
    · intro edge he _
      rw [hedges edge he]
      exact List.mem_singleton.mpr rfl
    · intro edge he edge' he' _
      rw [List.mem_singleton.mp he, List.mem_singleton.mp he']
  · intro m' hm' _ _ d' hparsed' _
    obtain ⟨hholds', harchive'⟩ := hmembers m' hm'
    refine ⟨?_, same_edge d' d⟩
    rw [hlength, parsed_oneArticle hholds' hparsed', one_chunk m'.archive harchive']

theorem visited_oneArticle (req : IngestRequest) {mirror : List Archive} {plan : ArchivePlan}
    (hplan : planFromPaths mirror = some plan) (hmirror : mirror ⊆ [april, january]) :
    ∀ m ∈ visited oneArticle req plan, oneArticle.contents.Holds m ∧ m.archive ∈ [april, january] := by
  intro m hm
  obtain ⟨hholds, harchive⟩ := mem_work.mp (visited_sublist.subset hm)
  exact ⟨hholds, hmirror (select_subset (planFromPaths_cases hplan) _ harchive)⟩

/-- The delta of April is ingested after the baseline that it follows. -/
theorem deltaAfterBaseline_exact : RunMeets step FullScanExact (start oneArticle)
    [.appear january, fullScan ['1'], .appear april, fullScan ['2']] := by
  refine newest_content_stored edgesApart_oneArticle _ ⟨trivial, ?_, trivial, ?_, trivial⟩
  · intro plan hplan m hm
    have hmembers := visited_oneArticle (fullScanRequest ['1']) hplan (List.subset_cons_self april [january])
    refine ⟨?_, coversOlder_oneArticle hmembers hm (fun row hr => absurd hr (Table.not_mem_empty row))
      fun edge he => absurd he (Table.not_mem_empty edge)⟩
    intro _ d _ y _ hdone
    have harchive := archive_of_done hdone
    cases harchive
  · intro plan hplan m hm
    have hmembers := visited_oneArticle (fullScanRequest ['2']) hplan (List.Subset.refl [april, january])
    have hchunks : ∀ row ∈ (ingestLegiArchives [january] (start oneArticle).store
        (fullScanRequest ['1'])).1.projection.chunks.rows, row.chunk.chunkIndex = 0 := by decide
    have hedges : ∀ edge ∈ (ingestLegiArchives [january] (start oneArticle).store
        (fullScanRequest ['1'])).1.projection.graphEdges.rows, edge.edgeId = "publisher-edge:1".toList := by decide
    refine ⟨?_, coversOlder_oneArticle hmembers hm hchunks hedges⟩
    intro _ d _ y hy hdone _ _ _
    have harchive : y.archive ∈ [january] := archive_of_done hdone
    refine not_precedes_of_rank_le hy ?_
    rw [List.mem_singleton.mp harchive]
    have hm' := (hmembers m hm).2
    simp only [List.mem_cons, List.not_mem_nil, or_false] at hm'
    rcases hm' with hm' | hm'
    · rw [hm']
      decide
    · rw [hm']

/-- The delta of April is ingested before the baseline of March appears, whose
older text then replaces that of the delta. -/
theorem lateBaseline_reverts : ¬ RunMeets step FullScanExact (start oneArticle)
    [.appear january, .appear april, fullScan ['1'], .appear march, fullScan ['2']] := by
  rintro ⟨_, _, _, _, hexact, _⟩
  have hstored := hexact rfl (by decide) ⟨march, [april], [(january, .olderBaseline)]⟩ rfl
    ⟨april, 0, "article.xml".toList, intText april.timestamp⟩ (intText april.timestamp) ?_
  · obtain ⟨row, hr, hbare⟩ := hstored.document
    have hbody : row.body = intText april.timestamp := by
      have hsame := congrArg DocumentRow.body hbare
      exact hsame
    have hbodies : ∀ row ∈ (ingestLegiArchives [march, april, january] (ingestLegiArchives [april, january]
        (start oneArticle).store (fullScanRequest ['1'])).1 (fullScanRequest ['2'])).1.projection.documents.rows,
        row.body = intText march.timestamp := by decide
    rw [hbodies row hr] at hbody
    revert hbody
    decide
  · refine ⟨mem_work.mpr ⟨ArchiveContents.mem_membersOf.mpr ⟨rfl, rfl⟩, by decide⟩, rfl, fun y hy _ _ _ => ?_⟩
    obtain ⟨hholds, hplanned⟩ := mem_work.mp hy
    refine not_precedes_of_rank_le hholds ?_
    have hcases : y.archive ∈ [march, april] := hplanned
    simp only [List.mem_cons, List.not_mem_nil, or_false] at hcases
    rcases hcases with hcase | hcase
    · rw [hcase]
      decide
    · rw [hcase]

end IngestHost

end CorpusFeed
