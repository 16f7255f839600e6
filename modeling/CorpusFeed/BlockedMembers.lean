import CorpusFeed.ArchiveIngest

/-! Members whose last projection was made under other versions than those of the
run that visits them, over the visits of any sequence of runs. -/

namespace CorpusFeed

variable {P D : Type*}

/-- A run comes to a member, in a batch that it commits. -/
structure MemberVisit (P : Type*) where
  request : IngestRequest
  member : ArchiveMember P

namespace MemberVisit

def SameMember (u v : MemberVisit P) : Prop :=
  u.member.archive = v.member.archive ∧ u.member.path = v.member.path

instance (u v : MemberVisit P) : Decidable (u.SameMember v) := instDecidableAnd

def stamps (setup : IngestSetup P D) (v : MemberVisit P) : IngestCompatibility :=
  IngestStore.compatibility setup v.request v.member

def versions (c : IngestCompatibility) : Text × Text × Text := (c.parserVersion, c.schemaVersion, c.codeVersion)

end MemberVisit

/-- The roots that leave rows: articles, and the metadata of texts and sections. -/
def ParsedMember.isProjected : ParsedMember D → Bool
  | .article _ | .metadata => true
  | .unsupportedRoot | .noText | .invalid => false

namespace IngestStore

variable {setup : IngestSetup P D}

def empty (setup : IngestSetup P D) : IngestStore setup := ⟨[], .empty⟩

def visit (s : IngestStore setup) (v : MemberVisit P) : IngestStore setup := (processMember v.request s v.member).1

def visits (s : IngestStore setup) (history : List (MemberVisit P)) : IngestStore setup := history.foldl visit s

/-- The visit projects the member. -/
def projects (s : IngestStore setup) (v : MemberVisit P) : Bool :=
  ((s.decision v.request v.member).action = .process || (s.decision v.request v.member).action = .retry) &&
    (parsed setup v.request v.member).isProjected

/-- The stamps of the last visit in which the member of `v` was projected. -/
def lastProjection (v : MemberVisit P) : IngestStore setup → Option IngestCompatibility → List (MemberVisit P) →
    Option IngestCompatibility
  | _, last, [] => last
  | s, last, u :: history =>
    lastProjection v (s.visit u) (if u.SameMember v ∧ s.projects u = true then some (u.stamps setup) else last) history

def lastVisit (history : List (MemberVisit P)) (v : MemberVisit P) : Option (MemberVisit P) :=
  (history.filter fun u => u.SameMember v).getLast?

/-- After the history, what is stored of the member was projected under other
versions than those of the visit. -/
def Outdated (setup : IngestSetup P D) (history : List (MemberVisit P)) (v : MemberVisit P) : Prop :=
  ∃ last, lastProjection v (empty setup) none history = some last ∧
    MemberVisit.versions last ≠ MemberVisit.versions (v.stamps setup)

def Blocked (setup : IngestSetup P D) (history : List (MemberVisit P)) (v : MemberVisit P) : Prop :=
  (((empty setup).visits history).decision v.request v.member).action = .blockedIncompatible ∧
    ((empty setup).visits history).projects v = false

theorem processMembers_committed (req : IngestRequest) (committed s : IngestStore setup)
    (members : List (ArchiveMember P)) : (processMembers req committed s members).1 = committed ∨
      ∃ visited, visited <+: members ∧
        (processMembers req committed s members).1 = s.visits (visited.map (MemberVisit.mk req)) := by
  induction members generalizing committed s with
  | nil => exact Or.inr ⟨[], List.prefix_rfl, rfl⟩
  | cons m rest ih =>
    unfold processMembers
    split
    · exact Or.inl rfl
    next middle failed hmember =>
    have hvisit : s.visit ⟨req, m⟩ = middle := congrArg Prod.fst hmember
    rcases ih (if req.endsBatch m.archive m.path then middle else committed) middle with hsame | ⟨visited, hprefix, hrest⟩
    · dsimp only
      rw [hsame]
      split
      · exact Or.inr ⟨[m], List.prefix_append [m] rest, hvisit.symm⟩
      · exact Or.inl rfl
    · refine Or.inr ⟨m :: visited, List.cons_prefix_cons.mpr ⟨rfl, hprefix⟩, ?_⟩
      rw [List.map_cons, visits, List.foldl_cons, hvisit]
      exact hrest

/-- A run leaves what the visits of its committed batches leave. -/
theorem processMembers_visits (req : IngestRequest) (s : IngestStore setup) (members : List (ArchiveMember P)) :
    ∃ visited, visited <+: members ∧
      (processMembers req s s members).1 = s.visits (visited.map (MemberVisit.mk req)) := by
  rcases processMembers_committed req s s members with hnone | hsome
  · exact ⟨[], List.nil_prefix, hnone⟩
  · exact hsome

theorem compatibilityMismatches_eq_nil {actual expected : IngestCompatibility} :
    compatibilityMismatches actual expected = [] ↔ actual = expected := by
  cases actual
  cases expected
  simp [compatibilityMismatches]

variable {s : IngestStore setup} {v u : MemberVisit P} {row : IngestMemberRow}

theorem decision_blocked_iff :
    (s.decision v.request v.member).action = .blockedIncompatible ↔
      ∃ row, latestRow s.rows v.member.archive v.member.path = some row ∧ row.compatibility ≠ v.stamps setup := by
  unfold decision ingestResumeDecision
  cases hrow : latestRow s.rows v.member.archive v.member.path with
  | none => simp
  | some row =>
    by_cases hsame : row.compatibility = v.stamps setup
    · have hnil := compatibilityMismatches_eq_nil.mpr (rfl : v.stamps setup = v.stamps setup)
      rw [MemberVisit.stamps] at hsame hnil
      cases hstatus : row.status <;> simp [hnil, hsame, hstatus, MemberVisit.stamps]
    · have hmismatch := mt compatibilityMismatches_eq_nil.mp hsame
      rw [MemberVisit.stamps] at hsame hmismatch
      simp [hmismatch, hsame, MemberVisit.stamps]

theorem decision_skip (h : (s.decision v.request v.member).action = .skip) :
    ∃ row, latestRow s.rows v.member.archive v.member.path = some row ∧ row.compatibility = v.stamps setup := by
  obtain ⟨row, hrow, _⟩ := done_of_skip h
  by_cases hsame : row.compatibility = v.stamps setup
  · exact ⟨row, hrow, hsame⟩
  · have hblocked := decision_blocked_iff.mpr ⟨row, hrow, hsame⟩
    rw [h] at hblocked
    cases hblocked

theorem record_stamps (s : IngestStore setup) (v : MemberVisit P) (status : IngestMemberStatus) :
    ∃ row, latestRow (s.record v.request v.member status).rows v.member.archive v.member.path = some row ∧
      row.compatibility = v.stamps setup :=
  ⟨_, latestRow_record s.rows ⟨v.request.runId, v.member.archive, v.member.path, status, v.stamps setup⟩, rfl⟩

/-- After a visit the last row of the member has the stamps of the visit, whatever
the visit did. -/
theorem visit_stamps (s : IngestStore setup) (v : MemberVisit P) :
    ∃ row, latestRow (s.visit v).rows v.member.archive v.member.path = some row ∧ row.compatibility = v.stamps setup := by
  unfold visit
  rcases processMember_rows v.request s v.member with ⟨hskip, hrows⟩ | ⟨status, hrows⟩
  · rw [hrows]
    exact decision_skip hskip
  · rw [hrows]
    exact record_stamps s v status

/-- The last row of a member tells the stamps of its last visit. -/
theorem latestRow_visits (history : List (MemberVisit P)) (v : MemberVisit P) :
    (latestRow ((empty setup).visits history).rows v.member.archive v.member.path).map IngestMemberRow.compatibility =
      (lastVisit history v).map (MemberVisit.stamps setup) := by
  induction history using List.reverseRecOn with
  | nil => rfl
  | append_singleton history u ih =>
    have hvisits : (empty setup).visits (history ++ [u]) = ((empty setup).visits history).visit u := by
      rw [visits, List.foldl_append]
      rfl
    rw [hvisits]
    by_cases hsame : u.SameMember v
    · have hlast : lastVisit (history ++ [u]) v = some u := by
        simp [lastVisit, List.filter_append, hsame]
      obtain ⟨row, hrow, hstamps⟩ := visit_stamps ((empty setup).visits history) u
      rw [hsame.1, hsame.2] at hrow
      rw [hlast, hrow, Option.map_some, Option.map_some, hstamps]
    · have hlast : lastVisit (history ++ [u]) v = lastVisit history v := by
        simp [lastVisit, List.filter_append, hsame]
      rw [hlast, ← ih]
      exact congrArg _ (processMember_frame hsame)

theorem visited_of_lastProjection {history : List (MemberVisit P)} {last last' : Option IngestCompatibility}
    (h : lastProjection v s last history = last') (hlast : last' ≠ last) : ∃ u ∈ history, u.SameMember v := by
  induction history generalizing s last with
  | nil => exact absurd h.symm hlast
  | cons u history ih =>
    by_cases hsame : u.SameMember v
    · exact ⟨u, List.mem_cons_self, hsame⟩
    · rw [lastProjection, if_neg fun hboth => hsame hboth.1] at h
      obtain ⟨w, hw, hsame'⟩ := ih h hlast
      exact ⟨w, List.mem_cons_of_mem u hw, hsame'⟩

theorem not_projects_of_blocked (h : (s.decision v.request v.member).action = .blockedIncompatible) :
    s.projects v = false := by
  simp [projects, h]

/-- An outdated member is blocked exactly when its last visit had other stamps. -/
theorem blocked_iff {history : List (MemberVisit P)} (h : Outdated setup history v) :
    Blocked setup history v ↔ ∀ u, lastVisit history v = some u → u.stamps setup ≠ v.stamps setup := by
  have hrows := @latestRow_visits P D setup history v
  constructor
  · intro hblocked u hu hsame
    obtain ⟨row, hrow, hne⟩ := decision_blocked_iff.mp hblocked.1
    rw [hrow, hu, Option.map_some, Option.map_some] at hrows
    exact hne ((Option.some.inj hrows).trans hsame)
  · intro hchanged
    obtain ⟨last, hlast, _⟩ := h
    obtain ⟨u, hu, hsame⟩ := visited_of_lastProjection hlast (by simp)
    have hmem : u ∈ history.filter fun w => w.SameMember v := List.mem_filter.mpr ⟨hu, decide_eq_true hsame⟩
    have hvisited : lastVisit history v = some ((history.filter fun w => w.SameMember v).getLast (List.ne_nil_of_mem hmem)) :=
      List.getLast?_eq_some_getLast _
    rw [hvisited, Option.map_some] at hrows
    obtain ⟨row, hrow, hstamps⟩ := Option.map_eq_some_iff.mp hrows
    have hblocked := decision_blocked_iff.mpr ⟨row, hrow, by rw [hstamps]; exact hchanged _ hvisited⟩
    exact ⟨hblocked, not_projects_of_blocked hblocked⟩

/-- Over every sequence of visits, outdated members stay blocked exactly when none
of them is visited twice in a row under the same versions. -/
theorem outdated_blocked_iff (setup : IngestSetup P D) (history : List (MemberVisit P)) :
    (∀ before v after, history = before ++ v :: after → Outdated setup before v → Blocked setup before v) ↔
      ∀ before v after, history = before ++ v :: after → Outdated setup before v →
        ∀ u, lastVisit before v = some u → u.stamps setup ≠ v.stamps setup := by
  constructor
  · intro h before v after hsplit houtdated
    exact (blocked_iff houtdated).mp (h before v after hsplit houtdated)
  · intro h before v after hsplit houtdated
    exact (blocked_iff houtdated).mpr (h before v after hsplit houtdated)

/-- One article under one hash. -/
def oneText : IngestSetup Unit Text where
  contents := ⟨fun _ => [(['m'], ())], fun _ => List.nodup_singleton _⟩
  payloadHash _ := ['h']
  parse _ := .article ['d']
  document d := .article (articleVersion d)

def visitBy (run version : Char) : MemberVisit Unit :=
  ⟨⟨[run], [version], ['s'], ['c'], ⟨true, none⟩, fun _ _ => false, fun _ _ => true, none, []⟩, ⟨⟨.baseline, 20250101000000⟩, 0, ['m'], ()⟩⟩

/-- The row of the blocked run lets the next run under the same versions project
the member again. -/
theorem second_visit_projects :
    ¬ ∀ before v after, [visitBy '1' 'a', visitBy '2' 'b', visitBy '3' 'b'] = before ++ v :: after →
      Outdated oneText before v → Blocked oneText before v := by
  intro h
  have hblocked := h [visitBy '1' 'a', visitBy '2' 'b'] (visitBy '3' 'b') [] rfl
    ⟨(visitBy '1' 'a').stamps oneText, by decide, by decide⟩
  revert hblocked
  unfold Blocked
  decide

end IngestStore

end CorpusFeed
