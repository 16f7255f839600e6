import CorpusFeed.MemberOrder
import CorpusFeed.Runs

/-! Histories of ingest runs over a growing mirror. What a document's stored
projection was parsed from is not older than any member that is done for it. -/

namespace CorpusFeed

variable {P D : Type*} {setup : IngestSetup P D}

namespace IngestStore

variable {s : IngestStore setup} {req : IngestRequest} {m x : ArchiveMember P}

def isDone (status : IngestMemberStatus) : Bool := status = .inserted || status = .skipped

/-- The last row of the member is that of a complete one. -/
def Done (s : IngestStore setup) (x : ArchiveMember P) : Prop :=
  ∃ row, latestRow s.rows x.archive x.path = some row ∧ isDone row.status = true

/-- The run processes the member. -/
def Takes (s : IngestStore setup) (req : IngestRequest) (m : ArchiveMember P) : Prop :=
  (s.decision req m).action = .process ∨ (s.decision req m).action = .retry

theorem latestRow_record (rows : List IngestMemberRow) (row : IngestMemberRow) :
    latestRow (recordIngestMember rows row) row.archiveName row.memberPath = some row := by
  simp [latestRow, recordIngestMember]

theorem latestRow_record_of_ne {rows : List IngestMemberRow} {row : IngestMemberRow} {archive : Archive} {path : Text}
    (h : ¬ (row.archiveName = archive ∧ row.memberPath = path)) :
    latestRow (recordIngestMember rows row) archive path = latestRow rows archive path := by
  simp only [latestRow, recordIngestMember, List.find?_cons, h, decide_false, List.find?_filter]
  congr 1
  funext old
  by_cases hold : old.archiveName = archive ∧ old.memberPath = path
  · obtain ⟨rfl, rfl⟩ := hold
    have hkey : ¬ (old.archiveName = row.archiveName ∧ old.memberPath = row.memberPath) :=
      fun hkey => h ⟨hkey.1.symm, hkey.2.symm⟩
    simp [hkey]
  · simp [hold]

theorem done_record {status : IngestMemberStatus} : (s.record req m status).Done m ↔ isDone status = true := by
  simp [Done, record, latestRow_record s.rows ⟨req.runId, m.archive, m.path, status, compatibility setup req m⟩]

theorem done_of_skip (h : (s.decision req m).action = .skip) : s.Done m := by
  unfold decision ingestResumeDecision at h
  split at h
  · cases h
  next row hrow =>
  dsimp only at h
  split at h
  · cases h
  split at h
  · next hstatus => exact ⟨row, hrow, by simp [hstatus, isDone]⟩
  · next hstatus => exact ⟨row, hrow, by simp [hstatus, isDone]⟩
  all_goals cases h

/-- Everything that the processing of one member can do. -/
inductive MemberEffect (req : IngestRequest) (s : IngestStore setup) (m : ArchiveMember P) :
    IngestStore setup × Except StoreError Nat → Prop
  | kept {s' : IngestStore setup} (hprojection : s'.projection = s.projection) (hdone : s.Done m) (hdone' : s'.Done m) :
    MemberEffect req s m (s', .ok 0)
  | stored {s' : IngestStore setup} (d : D) (htakes : s.Takes req m) (hparsed : parsed setup req m = .article d)
    (hupserted : ProjectionStore.Upserted none (setup.record d) s.projection s'.projection) (hdone : s'.Done m) :
    MemberEffect req s m (s', .ok 0)
  | noted {s' : IngestStore setup} (hparse : ∀ d, setup.parse m.payload ≠ .article d)
    (hprojection : s'.projection = s.projection) (hdone : s'.Done m) : MemberEffect req s m (s', .ok 0)
  | failed {s' : IngestStore setup} (hprojection : s'.projection = s.projection) (hdone : ¬ s'.Done m) :
    MemberEffect req s m (s', .ok 1)
  | aborted {s' : IngestStore setup} (e : StoreError) : MemberEffect req s m (s', .error e)

theorem parse_of_parsed {result : ParsedMember D} (h : parsed setup req m = result) (hvalid : result ≠ .invalid) :
    setup.parse m.payload = result := by
  unfold parsed at h
  split at h
  · exact absurd h.symm hvalid
  · exact h

theorem memberEffect_taken (htakes : s.Takes req m) : MemberEffect req s m (projectMember req s m) := by
  unfold projectMember
  cases hparsed : parsed setup req m with
  | article d =>
    dsimp only [insertDocument]
    cases hupsert : s.projection.upsert (setup.record d) none with
    | error e => exact .aborted e
    | ok projection =>
      have hdone : (s.record req m .inserted).Done m := done_record.mpr rfl
      exact .stored d htakes hparsed (ProjectionStore.upsert_cases hupsert) hdone
  | invalid => exact .failed rfl (by simp [done_record, isDone])
  | metadata => exact .noted (by simp [parse_of_parsed hparsed]) rfl (done_record.mpr rfl)
  | unsupportedRoot => exact .noted (by simp [parse_of_parsed hparsed]) rfl (done_record.mpr rfl)
  | noText => exact .noted (by simp [parse_of_parsed hparsed]) rfl (done_record.mpr rfl)

theorem processMember_effect (req : IngestRequest) (s : IngestStore setup) (m : ArchiveMember P) :
    MemberEffect req s m (processMember req s m) := by
  unfold processMember
  cases haction : (s.decision req m).action with
  | skip =>
    have hdone := done_of_skip haction
    by_cases hrun : (s.decision req m).previousRunId = some req.runId
    · simp only [hrun, if_true]
      exact .kept rfl hdone hdone
    · simp only [hrun, if_false]
      exact .kept rfl hdone (done_record.mpr rfl)
  | blockedIncompatible => exact .failed rfl (by simp [done_record, isDone])
  | process => exact memberEffect_taken (Or.inl haction)
  | retry => exact memberEffect_taken (Or.inr haction)

theorem done_of_not_failed (h : (processMember req s m).2 = .ok 0) : (processMember req s m).1.Done m := by
  generalize hresult : processMember req s m = result at h
  have heffect := processMember_effect req s m
  rw [hresult] at heffect
  cases heffect with
  | kept _ _ hdone => exact hdone
  | stored _ _ _ _ hdone => exact hdone
  | noted _ _ hdone => exact hdone
  | failed => cases h
  | aborted => cases h

theorem processMember_rows (req : IngestRequest) (s : IngestStore setup) (m : ArchiveMember P) :
    ((s.decision req m).action = .skip ∧ (processMember req s m).1.rows = s.rows) ∨
      ∃ status, (processMember req s m).1.rows = (s.record req m status).rows := by
  have htaken : ∃ status, (projectMember req s m).1.rows = (s.record req m status).rows := by
    unfold projectMember
    cases parsed setup req m with
    | article d =>
      dsimp only [insertDocument]
      cases s.projection.upsert (setup.record d) none with
      | error e => exact ⟨.parsed, rfl⟩
      | ok projection => exact ⟨.inserted, rfl⟩
    | metadata => exact ⟨.skipped, rfl⟩
    | unsupportedRoot => exact ⟨.skipped, rfl⟩
    | noText => exact ⟨.skipped, rfl⟩
    | invalid => exact ⟨.failed, rfl⟩
  unfold processMember
  cases haction : (s.decision req m).action with
  | skip =>
    by_cases hrun : (s.decision req m).previousRunId = some req.runId
    · simp only [hrun, if_true]
      exact Or.inl ⟨trivial, trivial⟩
    · simp only [hrun, if_false]
      exact Or.inr ⟨.skipped, rfl⟩
  | blockedIncompatible => exact Or.inr ⟨.failed, rfl⟩
  | process => exact Or.inr htaken
  | retry => exact Or.inr htaken

theorem processMember_frame (h : ¬ (m.archive = x.archive ∧ m.path = x.path)) :
    latestRow (processMember req s m).1.rows x.archive x.path = latestRow s.rows x.archive x.path := by
  rcases processMember_rows req s m with ⟨-, hrows⟩ | ⟨status, hrows⟩
  · rw [hrows]
  · rw [hrows]
    exact latestRow_record_of_ne h

theorem done_congr {s s' : IngestStore setup} (h : latestRow s'.rows x.archive x.path = latestRow s.rows x.archive x.path) :
    s'.Done x ↔ s.Done x := by
  rw [Done, Done, h]

theorem takes_congr {s s' : IngestStore setup}
    (h : latestRow s'.rows x.archive x.path = latestRow s.rows x.archive x.path) : s'.Takes req x ↔ s.Takes req x := by
  simp only [Takes, decision, ingestResumeDecision, h]

open ArchiveMember

/-- What is stored of a document is the version of a member that precedes no done
member of it. -/
def NewestStored (mirror : List Archive) (s : IngestStore setup) : Prop :=
  ∀ y, setup.contents.Holds y → s.Done y → ∀ d, setup.parse y.payload = .article d →
    ∃ p d', setup.contents.Holds p ∧ p.archive ∈ mirror ∧ setup.parse p.payload = .article d' ∧
      setup.documentId d' = setup.documentId d ∧ s.projection.StoredAs (setup.record d') ∧ ¬ p.Precedes y

structure Sound (mirror : List Archive) (s : IngestStore setup) : Prop where
  numbered : s.projection.RowsNumbered
  newest : NewestStored mirror s

/-- The run does not process a member when a later member of its document is done. -/
def ClearOf (req : IngestRequest) (s : IngestStore setup) (m : ArchiveMember P) : Prop :=
  s.Takes req m → ∀ d, parsed setup req m = .article d → ∀ y, setup.contents.Holds y → s.Done y →
    ∀ d', setup.parse y.payload = .article d' → setup.documentId d' = setup.documentId d → ¬ m.Precedes y

/-- Where the run processes the member, its version covers what is stored of the
document, and replaces the versions of earlier members that the run processes. -/
def CoversOlder (req : IngestRequest) (s : IngestStore setup) (members : List (ArchiveMember P))
    (m : ArchiveMember P) : Prop :=
  s.Takes req m → ∀ d, parsed setup req m = .article d → s.projection.Covers (setup.record d) ∧
    ∀ m' ∈ members, m'.Precedes m → s.Takes req m' → ∀ d', parsed setup req m' = .article d' →
      setup.documentId d' = setup.documentId d → (setup.record d).Replaces (setup.record d')

/-- No two documents share the id of an edge. -/
def EdgesApart (setup : IngestSetup P D) : Prop :=
  ∀ d d', setup.documentId d ≠ setup.documentId d' → ∀ edge ∈ (setup.record d).edges,
    edge.edgeId ∉ (setup.record d').edges.map CanonicalGraphEdge.edgeId

theorem edges_own (d : D) : ∀ edge ∈ (setup.record d).edges, edge.fromDocumentId = setup.documentId d :=
  (setup.document d).edges_own

theorem Sound.member {mirror : List Archive} {s' : IngestStore setup} {failed : Nat} (h : Sound mirror s)
    (hedges : EdgesApart setup) (hm : setup.contents.Holds m) (hmirror : m.archive ∈ mirror) (hclear : ClearOf req s m)
    (hcovers : s.Takes req m → ∀ d, parsed setup req m = .article d → s.projection.Covers (setup.record d))
    (hresult : processMember req s m = (s', .ok failed)) : Sound mirror s' := by
  have heffect := processMember_effect req s m
  have hframe : ∀ y, setup.contents.Holds y → s'.Done y → y ≠ m → s.Done y := by
    intro y hy hdone hne
    have hrow := @processMember_frame _ _ _ s req m y fun hkey =>
      hne (ArchiveContents.eq_of_path hy hm hkey.1.symm hkey.2.symm)
    rw [hresult] at hrow
    exact (done_congr hrow).mp hdone
  rw [hresult] at heffect
  cases heffect with
  | kept hprojection hdoneOld _ =>
    refine ⟨hprojection ▸ h.numbered, ?_⟩
    intro y hy hdone d hd
    rw [hprojection]
    by_cases hym : y = m
    · exact h.newest y hy (hym ▸ hdoneOld) d hd
    · exact h.newest y hy (hframe y hy hdone hym) d hd
  | noted hparse hprojection _ =>
    refine ⟨hprojection ▸ h.numbered, ?_⟩
    intro y hy hdone d hd
    rw [hprojection]
    by_cases hym : y = m
    · exact absurd (hym ▸ hd) (hparse d)
    · exact h.newest y hy (hframe y hy hdone hym) d hd
  | failed hprojection hfailed =>
    refine ⟨hprojection ▸ h.numbered, ?_⟩
    intro y hy hdone d hd
    rw [hprojection]
    by_cases hym : y = m
    · exact absurd (hym ▸ hdone) hfailed
    · exact h.newest y hy (hframe y hy hdone hym) d hd
  | stored dm htakes hparsed hupserted _ =>
    refine ⟨hupserted.rowsNumbered h.numbered, ?_⟩
    intro y hy hdone d hd
    have hparse := parse_of_parsed hparsed (by simp)
    by_cases hid : setup.documentId dm = setup.documentId d
    · have hstored := hupserted.storedAs h.numbered (edges_own dm) (hcovers htakes dm hparsed)
      refine ⟨m, dm, hm, hmirror, hparse, hid, hstored, ?_⟩
      by_cases hym : y = m
      · exact hym ▸ not_precedes_self m
      · exact hclear htakes dm hparsed y hy (hframe y hy hdone hym) d hd hid.symm
    · have hym : y ≠ m := by
        rintro rfl
        rw [hparse] at hd
        exact hid (congrArg setup.documentId (ParsedMember.article.inj hd))
      obtain ⟨p, d', hp, hpmirror, hpd, hpid, hstored, hprecedes⟩ := h.newest y hy (hframe y hy hdone hym) d hd
      have hne : setup.documentId d' ≠ setup.documentId dm := fun heq => hid (heq.symm.trans hpid)
      have hstays := hupserted.storedAs_other h.numbered (edges_own dm) (hedges d' dm hne) hne hstored
      exact ⟨p, d', hp, hpmirror, hpd, hpid, hstays, hprecedes⟩

theorem key_ne {y : ArchiveMember P} (hm : setup.contents.Holds m) (hy : setup.contents.Holds y)
    (hprecedes : m.Precedes y) : ¬ (m.archive = y.archive ∧ m.path = y.path) := by
  rintro ⟨harchive, hpath⟩
  obtain rfl := ArchiveContents.eq_of_path hm hy harchive hpath
  exact not_precedes_self m hprecedes

theorem ClearOf.next {m' : ArchiveMember P} {s' : IngestStore setup} {failed : Nat} (h : ClearOf req s m')
    (hm : setup.contents.Holds m) (hm' : setup.contents.Holds m') (hprecedes : m.Precedes m')
    (hresult : processMember req s m = (s', .ok failed)) : ClearOf req s' m' := by
  intro htakes d hparsed y hy hdone d' hd' hid
  have hframe := @processMember_frame _ _ _ s req _ _ (key_ne hm hm' hprecedes)
  rw [hresult] at hframe
  by_cases hym : y = m
  · exact hym ▸ hprecedes.asymm
  · have hrow := @processMember_frame _ _ _ s req m y fun hkey =>
      hym (ArchiveContents.eq_of_path hy hm hkey.1.symm hkey.2.symm)
    rw [hresult] at hrow
    exact h ((takes_congr hframe).mp htakes) d hparsed y hy ((done_congr hrow).mp hdone) d' hd' hid

/-- The version of a later member covers what one more member leaves. -/
theorem CoversOlder.next {members : List (ArchiveMember P)} {m' : ArchiveMember P} {s' : IngestStore setup}
    {failed : Nat} (h : CoversOlder req s (m :: members) m') (hm : setup.contents.Holds m)
    (hm' : setup.contents.Holds m') (hprecedes : m.Precedes m')
    (hmembers : ∀ other ∈ members, setup.contents.Holds other ∧ m.Precedes other)
    (hresult : processMember req s m = (s', .ok failed)) : CoversOlder req s' members m' := by
  have hsame : ∀ other, setup.contents.Holds other → m.Precedes other → (s'.Takes req other ↔ s.Takes req other) := by
    intro other hother hbefore
    have hframe := @processMember_frame _ _ _ s req _ _ (key_ne hm hother hbefore)
    rw [hresult] at hframe
    exact takes_congr hframe
  intro htakes d hparsed
  obtain ⟨hcovers, hreplaces⟩ := h ((hsame m' hm' hprecedes).mp htakes) d hparsed
  refine ⟨?_, ?_⟩
  · have heffect := processMember_effect req s m
    rw [hresult] at heffect
    cases heffect with
    | kept hprojection => exact hprojection ▸ hcovers
    | noted _ hprojection => exact hprojection ▸ hcovers
    | failed hprojection => exact hprojection ▸ hcovers
    | stored dm htakesm hparsedm hupserted =>
      exact hupserted.covers (edges_own dm) hcovers fun hid =>
        hreplaces m List.mem_cons_self hprecedes htakesm dm hparsedm hid
  · intro other hother hbefore htakesOther
    obtain ⟨hholds, hafter⟩ := hmembers other hother
    exact hreplaces other (List.mem_cons_of_mem m hother) hbefore ((hsame other hholds hafter).mp htakesOther)

theorem processMembers_frame {members : List (ArchiveMember P)} {committed s' : IngestStore setup} {failed : Nat}
    (h : ∀ m ∈ members, ¬ (m.archive = x.archive ∧ m.path = x.path))
    (hresult : processMembers req committed s members = (s', .ok failed)) :
    latestRow s'.rows x.archive x.path = latestRow s.rows x.archive x.path := by
  induction members generalizing committed s s' failed with
  | nil =>
    cases hresult
    rfl
  | cons m rest ih =>
    have hfirst := @processMember_frame _ _ _ s req m x (h m List.mem_cons_self)
    unfold processMembers at hresult
    split at hresult
    · cases hresult
    next middle failedFirst hmember =>
    rw [hmember] at hfirst
    generalize hrest : processMembers req (if req.endsBatch m.archive m.path then middle else committed) middle rest =
      result at hresult
    obtain ⟨last, outcome⟩ := result
    cases outcome with
    | error e => cases hresult
    | ok failedRest =>
      cases hresult
      exact (ih (fun m' hm' => h m' (List.mem_cons_of_mem m hm')) hrest).trans hfirst

/-- A run over members in plan order keeps the invariant, and if no member fails
they are all done. -/
theorem processMembers_sound {mirror : List Archive} {members : List (ArchiveMember P)} {committed : IngestStore setup}
    (hedges : EdgesApart setup) (hsorted : members.Pairwise Precedes)
    (hholds : ∀ m ∈ members, setup.contents.Holds m ∧ m.archive ∈ mirror) (hcommitted : Sound mirror committed)
    (h : Sound mirror s) (hclear : ∀ m ∈ members, ClearOf req s m ∧ CoversOlder req s members m) :
    Sound mirror (processMembers req committed s members).1 ∧
      ((processMembers req committed s members).2 = .ok 0 →
        ∀ m ∈ members, (processMembers req committed s members).1.Done m) := by
  induction members generalizing committed s with
  | nil => exact ⟨h, by simp⟩
  | cons m rest ih =>
    obtain ⟨hfirst, hrest⟩ := List.pairwise_cons.mp hsorted
    obtain ⟨hm, hmirror⟩ := hholds m List.mem_cons_self
    obtain ⟨hclearFirst, hcoversFirst⟩ := hclear m List.mem_cons_self
    have hlater : ∀ other ∈ rest, setup.contents.Holds other ∧ m.Precedes other := fun other hother =>
      ⟨(hholds other (List.mem_cons_of_mem m hother)).1, hfirst other hother⟩
    unfold processMembers
    split
    · exact ⟨hcommitted, fun hok => by cases hok⟩
    next middle failed hmember =>
    have hmiddle := h.member hedges hm hmirror hclearFirst
      (fun htakes d hparsed => (hcoversFirst htakes d hparsed).1) hmember
    have hclear' : ∀ m' ∈ rest, ClearOf req middle m' ∧ CoversOlder req middle rest m' := by
      intro m' hm'
      obtain ⟨hholds', hprecedes⟩ := hlater m' hm'
      obtain ⟨hclearNext, hcoversNext⟩ := hclear m' (List.mem_cons_of_mem m hm')
      exact ⟨hclearNext.next hm hholds' hprecedes hmember, hcoversNext.next hm hholds' hprecedes hlater hmember⟩
    have hbase : Sound mirror (if req.endsBatch m.archive m.path then middle else committed) := by
      split
      · exact hmiddle
      · exact hcommitted
    have hnext := ih hrest (fun m' hm' => hholds m' (List.mem_cons_of_mem m hm')) hbase hmiddle hclear'
    generalize hresult : processMembers req (if req.endsBatch m.archive m.path then middle else committed) middle rest =
      result at hnext
    obtain ⟨last, outcome⟩ := result
    obtain ⟨hsound, hdone⟩ := hnext
    refine ⟨hsound, fun hzero m' hm' => ?_⟩
    cases outcome with
    | error e => cases hzero
    | ok failedRest =>
      obtain ⟨hfailed, hfailedRest⟩ := Nat.add_eq_zero_iff.mp (Except.ok.inj hzero)
      rcases List.mem_cons.mp hm' with rfl | hm'
      · have hdoneFirst : middle.Done m' := by
          have hdoneMember := @done_of_not_failed _ _ _ s req m'
          rw [hmember, hfailed] at hdoneMember
          exact hdoneMember rfl
        have hframe := processMembers_frame (fun other hother hkey =>
          key_ne hm (hlater other hother).1 (hlater other hother).2 ⟨hkey.1.symm, hkey.2.symm⟩) hresult
        exact (done_congr hframe).mpr hdoneFirst
      · exact hdone (congrArg Except.ok hfailedRest) m' hm'

theorem Sound.backfill {mirror : List Archive} (h : Sound mirror s) (updates : List CanonicalDocument) :
    Sound mirror (s.backfill updates) where
  numbered := h.numbered.backfillHierarchy updates
  newest := by
    intro y hy hdone d hd
    obtain ⟨p, d', hp, hpmirror, hpd, hpid, hstored, hprecedes⟩ := h.newest y hy hdone d hd
    exact ⟨p, d', hp, hpmirror, hpd, hpid, hstored.backfillHierarchy updates, hprecedes⟩

end IngestStore

end CorpusFeed
