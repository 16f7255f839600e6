import CorpusFeed.CatchupBinding

/-! What one fetch of a catch-up can change, and from it when a whole catch-up
is bound to its listing. -/

namespace CorpusFeed

open Database

variable {α : Type*} {packages : List EmbeddedManifest}

/-- An apply changes only the corpus of its package, and a refused one changes
no corpus. -/
structure ApplyEffect (packages : List EmbeddedManifest) (db : Database α) (corpus : Corpus)
    (result : Database α × Except SyncError ApplyOutcome) : Prop where
  labels : LabelInvariant packages result.1
  others : ∀ c, c ≠ corpus → CorpusKept db result.1 c
  refused : ∀ e, result.2 = .error e → ∀ c, CorpusKept db result.1 c

theorem ApplyEffect.unchanged {db : Database α} (h : LabelInvariant packages db) (corpus : Corpus)
    (result : Except SyncError ApplyOutcome) : ApplyEffect packages db corpus (db, result) :=
  ⟨h, fun c _ => CorpusKept.refl db c, fun _ _ c => CorpusKept.refl db c⟩

theorem ApplyEffect.after {db db' : Database α} {corpus : Corpus}
    {result : Database α × Except SyncError ApplyOutcome} (hkept : ∀ c, CorpusKept db db' c)
    (h : ApplyEffect packages db' corpus result) : ApplyEffect packages db corpus result :=
  ⟨h.labels, fun c hc => (hkept c).trans (h.others c hc), fun e he c => (hkept c).trans (h.refused e he c)⟩

theorem LabelInvariant.active_schema_ne {db : Database α} (h : LabelInvariant packages db)
    (hlabels : DistinctLabels packages) {c d : Corpus} {cursor other : CorpusState}
    (hc : db.cursors.find? c = some cursor) (hd : db.cursors.find? d = some other) (hne : d ≠ c) :
    schemaIdentifier other.activeGeneration ≠ schemaIdentifier cursor.activeGeneration := by
  intro heq
  obtain ⟨hcm, hck⟩ := Table.find?_eq_some.mp hc
  obtain ⟨hdm, hdk⟩ := Table.find?_eq_some.mp hd
  obtain ⟨row, hr, hrk, _⟩ := (h.cursor_iff c cursor.activeGeneration).mp ⟨cursor, hcm, hck, rfl⟩
  obtain ⟨row', hr', hrk', _⟩ := (h.cursor_iff d other.activeGeneration).mp ⟨other, hdm, hdk, rfl⟩
  obtain ⟨hrc, hrg⟩ := GenerationRow.key_eq_iff.mp hrk
  obtain ⟨hrc', hrg'⟩ := GenerationRow.key_eq_iff.mp hrk'
  obtain ⟨p, hp, hpg⟩ := h.rows row hr
  obtain ⟨q, hq, hqg⟩ := h.rows row' hr'
  rw [hrg] at hpg
  rw [hrg'] at hqg
  have hcut := schemaIdentifier_eq_iff.mp heq
  have hsame := hlabels q hq p hp other.activeGeneration hqg cursor.activeGeneration (mem_namedLabels_created hpg) hcut
  have hrow : row' = row := h.eq_of_generation_eq hr' hr (hrg'.trans (hsame.trans hrg.symm))
  exact hne (hrc'.symm.trans ((congrArg GenerationRow.corpus hrow).trans hrc))

theorem applyIncremental_effect {env : ClientEnv α} {lockFree : Bool} {db db' : Database α} {artifact : Artifact}
    {signed : Signed EmbeddedManifest} {outcome : ApplyOutcome} (h : LabelInvariant packages db)
    (hlabels : DistinctLabels packages) (hm : artifact.manifest = some signed)
    (hop : applyIncremental env lockFree db artifact = .ok (db', outcome)) :
    ApplyEffect packages db signed.payload.identity.corpus (db', .ok outcome) := by
  obtain ⟨signed', cursor, hm', _, hc, hcase⟩ := applyIncremental_cases hop
  rw [hm, Option.some.injEq] at hm'
  subst hm'
  rcases hcase with ⟨rfl, _⟩ | ⟨_, _, rows, hexists, rfl⟩
  · exact .unchanged h _ _
  · refine ⟨(h.setRows hexists rows).advance_keeps signed.payload, fun d hd => ?_, fun e he => nomatch he⟩
    constructor
    · rw [advanceCorpusCursor_find?]
      change ((db.cursors.find? d).map _) = db.cursors.find? d
      simp [hd]
    · intro other hother
      exact setRows_keeps rows (h.active_schema_ne hlabels hc hother hd)

theorem activation_effect {env : ClientEnv α} {lockFree : Bool} {m : MediaApply} {db db' : Database α}
    (h : LabelInvariant packages db) (hop : mediaStep env lockFree m db .activate = .ok db')
    (outcome : ApplyOutcome) : ApplyEffect packages db m.corpus (db', .ok outcome) := by
  obtain ⟨hactivate, hcursors, _⟩ := mediaStep_activate_cases hop
  obtain ⟨hkept, _⟩ := h.activate_keeps hactivate
  obtain ⟨_, _, _, _, _, hviews⟩ := activateGeneration_cases hactivate
  obtain ⟨_, rfl⟩ := rebuildServerViews_cases hviews
  refine ⟨hkept, fun d hd => ⟨?_, fun _ _ => rfl⟩, fun e he => nomatch he⟩
  rw [hcursors]
  exact (Table.find?_upsert _ _ d).trans (if_neg hd)

/-- Induction on the phases: all but the activation keep what readers see. -/
theorem runMedia_effect (env : ClientEnv α) (lockFree : Bool) {m : MediaApply} {phases : List MediaPhase}
    {db : Database α} (h : LabelInvariant packages db) (hlabels : DistinctLabels packages)
    (hno : MediaPhase.activate ∉ phases) (hrun : RunningApply db packages m (phases ++ [.activate])) :
    ApplyEffect packages db m.corpus (runMedia env lockFree m (phases ++ [.activate]) db) := by
  induction phases generalizing db with
  | nil =>
    simp only [List.nil_append, runMedia]
    cases hs : mediaStep env lockFree m db .activate with
    | error e => exact .unchanged h _ _
    | ok db' => exact activation_effect h hs _
  | cons phase phases ih =>
    have hphase : phase ≠ .activate := fun he => hno (he ▸ List.mem_cons_self)
    have hrest : MediaPhase.activate ∉ phases := fun he => hno (List.mem_cons_of_mem phase he)
    simp only [List.cons_append, runMedia]
    cases hs : mediaStep env lockFree m db phase with
    | error e => exact .unchanged h _ _
    | ok db' =>
      have hk := h.mediaStep_keeps hlabels hrun hphase hs
      have hkept := CorpusKept.of_live (mediaStep_cursors hs hphase) hk.live
      have hnext : RunningApply db' packages m (phases ++ [.activate]) :=
        ⟨hrun.package, hrun.kind, hrun.counter, (List.suffix_cons _ _).trans hrun.phases, hk.owns⟩
      exact (ih hk.labels hrest hnext).after hkept

theorem applyMedia_effect {env : ClientEnv α} {mode : MediaApplyMode} {lockFree : Bool} {db : Database α}
    {artifact : Artifact} {signed : Signed EmbeddedManifest} (h : LabelInvariant packages db)
    (hlabels : DistinctLabels packages) (hm : artifact.manifest = some signed) (hp : signed.payload ∈ packages) :
    ApplyEffect packages db signed.payload.identity.corpus (applyMedia env mode lockFree db artifact) := by
  unfold applyMedia
  split
  · exact .unchanged h _ _
  · exact .unchanged h _ _
  · next m hstart =>
    obtain ⟨signed', hm', hmanifest, hmode, hkind, hcounter⟩ := startMedia_build hstart
    rw [hm, Option.some.injEq] at hm'
    subst hm'
    have hregister : MediaPhase.register ∈ mediaPhases := by decide
    have hrun : RunningApply db packages m mediaPhases :=
      ⟨hmanifest ▸ hp, hmode ▸ hkind, hcounter, List.suffix_rfl, fun hno => absurd hregister hno⟩
    have hno : MediaPhase.activate ∉ [.reset, .register, .clone, .copy, .index, .validate] := by decide
    have heffect := runMedia_effect env lockFree h hlabels hno hrun
    rw [← hmanifest]
    exact heffect

theorem applyMediaAuto_effect {env : ClientEnv α} {lockFree : Bool} {db : Database α} {artifact : Artifact}
    {signed : Signed EmbeddedManifest} (h : LabelInvariant packages db) (hlabels : DistinctLabels packages)
    (hm : artifact.manifest = some signed) (hp : signed.payload ∈ packages) :
    ApplyEffect packages db signed.payload.identity.corpus (applyMediaAuto env lockFree db artifact) := by
  simp only [applyMediaAuto, readManifest, hm]
  cases signed.payload.identity.packageKind with
  | baseline => exact applyMedia_effect h hlabels hm hp
  | rebaseline => exact applyMedia_effect h hlabels hm hp
  | incremental => exact .unchanged h _ _

theorem fetchVerified_eq_ok {fetched : Except SyncError Artifact} {sha256 : Text} {artifact : Artifact} :
    fetchVerified fetched sha256 = .ok artifact ↔
      fetched = .ok artifact ∧ ∃ signed, artifact.manifest = some signed ∧
        signed.payload.integrity.artifactSha256 = sha256 := by
  cases fetched with
  | error e => simp [fetchVerified]
  | ok found =>
    cases hm : found.manifest with
    | none =>
      simp only [fetchVerified, verifyArtifactDigest, readManifest, hm, Except.ok.injEq, reduceCtorEq, false_iff]
      rintro ⟨rfl, signed, hsigned, _⟩
      cases hm.symm.trans hsigned
    | some signed =>
      by_cases hd : signed.payload.integrity.artifactSha256 = sha256
      · have hv : fetchVerified (.ok found) sha256 = .ok found := by
          simp [fetchVerified, verifyArtifactDigest, readManifest, hm, hd]
        rw [hv]
        refine ⟨fun h => ⟨h, ?_⟩, fun h => h.1⟩
        cases h
        exact ⟨signed, hm, hd⟩
      · simp only [fetchVerified, verifyArtifactDigest, readManifest, hm, ne_eq, hd, not_false_iff, if_true,
          Except.ok.injEq, reduceCtorEq, false_iff]
        rintro ⟨rfl, signed', hsigned, hd'⟩
        cases hm.symm.trans hsigned
        exact hd hd'

namespace CatchupCycle

variable {cycle : CatchupCycle α} {fetch : PlannedFetch} {before : Database α} {artifact : Artifact}
  {signed : Signed EmbeddedManifest}

theorem perform_of_verified (before : Database α) (hf : fetch.fetched cycle.source = .ok artifact) (hm : artifact.manifest = some signed)
    (hd : signed.payload.integrity.artifactSha256 = fetch.sha256) :
    cycle.perform before fetch = fetch.apply cycle.env cycle.lockFree before artifact := by
  have hv := fetchVerified_eq_ok.mpr ⟨hf, signed, hm, hd⟩
  simp only [perform, PlannedFetch.perform, hv]

theorem perform_cases (cycle : CatchupCycle α) (fetch : PlannedFetch) (before : Database α) :
    (∃ e, cycle.perform before fetch = (before, .error e)) ∨
      ∃ artifact signed, fetch.fetched cycle.source = .ok artifact ∧ artifact.manifest = some signed ∧
        signed.payload.integrity.artifactSha256 = fetch.sha256 := by
  cases hv : fetchVerified (fetch.fetched cycle.source) fetch.sha256 with
  | error e => exact Or.inl ⟨e, by simp only [perform, PlannedFetch.perform, hv]⟩
  | ok artifact =>
    obtain ⟨hf, signed, hm, hd⟩ := fetchVerified_eq_ok.mp hv
    exact Or.inr ⟨artifact, signed, hf, hm, hd⟩

theorem served_eq (hf : fetch.fetched cycle.source = .ok artifact) (hm : artifact.manifest = some signed) :
    fetch.served cycle.source = some signed.payload := by
  simp only [PlannedFetch.served, hf, hm, Option.map_some]

theorem apply_effect (cycle : CatchupCycle α) (fetch : PlannedFetch) (h : LabelInvariant packages before) (hlabels : DistinctLabels packages)
    (hm : artifact.manifest = some signed) (hp : signed.payload ∈ packages) :
    ApplyEffect packages before signed.payload.identity.corpus
      (fetch.apply cycle.env cycle.lockFree before artifact) := by
  cases fetch with
  | baseline root => exact applyMediaAuto_effect h hlabels hm hp
  | package entry =>
    simp only [PlannedFetch.apply]
    cases ha : applyIncremental cycle.env cycle.lockFree before artifact with
    | error e => exact .unchanged h _ _
    | ok r => exact applyIncremental_effect h hlabels hm ha

/-- Whatever a fetch brings, one corpus alone may change, and none when it
fails. -/
theorem perform_effect (cycle : CatchupCycle α) (h : LabelInvariant packages before) (hlabels : DistinctLabels packages)
    (hpackages : ∀ p ∈ cycle.served, p ∈ packages) (hfetch : fetch ∈ cycle.listed) :
    ∃ corpus, ApplyEffect packages before corpus (cycle.perform before fetch) := by
  rcases perform_cases cycle fetch before with ⟨e, he⟩ | ⟨artifact, signed, hf, hm, hd⟩
  · exact ⟨cycle.manifest.corpus, he ▸ .unchanged h _ _⟩
  · have hp := hpackages _ (served_mem hfetch (served_eq hf hm))
    exact ⟨_, perform_of_verified before hf hm hd ▸ apply_effect cycle fetch h hlabels hm hp⟩

variable {db : Database α}

theorem Performs.labels (hperforms : cycle.Performs db fetch before) (h : LabelInvariant packages db)
    (hlabels : DistinctLabels packages) (hpackages : ∀ p ∈ cycle.served, p ∈ packages) :
    LabelInvariant packages before := by
  refine Performed.keeps hperforms h fun u hu b hb => ?_
  obtain ⟨_, heffect⟩ := perform_effect cycle hb hlabels hpackages (cycle.fetches_listed db u hu)
  exact heffect.labels

theorem Performs.listed (hperforms : cycle.Performs db fetch before) : fetch ∈ cycle.listed :=
  cycle.fetches_listed db fetch (Performed.mem hperforms)

theorem run_labels (h : LabelInvariant packages db) (hlabels : DistinctLabels packages)
    (hpackages : ∀ p ∈ cycle.served, p ∈ packages) : LabelInvariant packages (run db cycle) := by
  rw [run, runCatchup_eq_runTasks]
  refine runTasks_keeps h fun u hu b hb => ?_
  obtain ⟨_, heffect⟩ := perform_effect cycle hb hlabels hpackages (cycle.fetches_listed db u hu)
  exact heffect.labels

theorem Bound.noSubstitute (h : cycle.Bound db) : cycle.NoSubstitute db := by
  intro fetch before artifact signed hperforms hf hm hd
  have hperform := perform_of_verified before hf hm hd
  cases hr : (fetch.apply cycle.env cycle.lockFree before artifact).2 with
  | error e => exact Or.inr ⟨e, rfl⟩
  | ok outcome =>
    obtain ⟨manifest, hserved, hlists⟩ := h.identified fetch before outcome hperforms (by rw [hperform, hr])
    rw [served_eq hf hm, Option.some.injEq] at hserved
    exact Or.inl (hserved ▸ hlists)

theorem NoSubstitute.bound (hno : cycle.NoSubstitute db) (h : LabelInvariant packages db)
    (hlabels : DistinctLabels packages) (hpackages : ∀ p ∈ cycle.served, p ∈ packages) : cycle.Bound db := by
  constructor
  · intro c hc
    rw [run, runCatchup_eq_runTasks]
    refine runTasks_related (fun a b => CorpusKept a b c) (fun a => CorpusKept.refl a c)
      (fun _ _ _ h h' => h.trans h') fun fetch before hperforms => ?_
    change CorpusKept before (cycle.perform before fetch).1 c
    rcases perform_cases cycle fetch before with ⟨e, he⟩ | ⟨artifact, signed, hf, hm, hd⟩
    · rw [he]
      exact CorpusKept.refl before c
    · have hp := hpackages _ (served_mem (Performs.listed hperforms) (served_eq hf hm))
      have hbefore := Performs.labels hperforms h hlabels hpackages
      have heffect := apply_effect cycle fetch hbefore hlabels hm hp
      rw [perform_of_verified before hf hm hd]
      rcases hno fetch before artifact signed hperforms hf hm hd with hlists | ⟨e, he⟩
      · exact heffect.others c fun heq => hc (heq.trans hlists.1)
      · exact heffect.refused e he c
  · intro fetch before outcome hperforms hok
    rcases perform_cases cycle fetch before with ⟨e, he⟩ | ⟨artifact, signed, hf, hm, hd⟩
    · rw [he] at hok
      cases hok
    · rw [perform_of_verified before hf hm hd] at hok
      rcases hno fetch before artifact signed hperforms hf hm hd with hlists | ⟨e, he⟩
      · exact ⟨signed.payload, served_eq hf hm, hlists⟩
      · rw [he] at hok
        cases hok
  · intro fetch before e hperforms he c
    have hbefore := Performs.labels hperforms h hlabels hpackages
    obtain ⟨_, heffect⟩ := perform_effect cycle hbefore hlabels hpackages (Performs.listed hperforms)
    exact heffect.refused e he c

theorem DigestIdentifies.noSubstitute (h : cycle.DigestIdentifies db) : cycle.NoSubstitute db :=
  fun fetch before _ signed hperforms hf hm hd =>
    Or.inl (h fetch before signed.payload hperforms (served_eq hf hm) hd)

theorem reachable_labels {cycles : List (CatchupCycle α)} (hlabels : DistinctLabels packages)
    (hpackages : ∀ c ∈ cycles, ∀ p ∈ c.served, p ∈ packages) :
    LabelInvariant packages (runFrom run (Database.empty : Database α) cycles) := by
  have hmeets : RunMeets run (fun _ c => ∀ p ∈ c.served, p ∈ packages) Database.empty cycles :=
    RunMeets.of_forall fun c hc _ => hpackages c hc
  exact runFrom_keeps (fun _ _ h hc => run_labels h hlabels hc) (LabelInvariant.empty packages) hmeets

end CatchupCycle

/-- After any earlier catch-ups, with labels that stay apart in their schema
names: a catch-up is bound to its listing when no performed fetch is answered by
another package under the listed digest. Where one is, the catch-up is bound only
if the applier refuses that package in the state it meets. -/
theorem catchup_bound (cycles : List (CatchupCycle α)) (cycle : CatchupCycle α)
    (hlabels : DistinctLabels ((cycles ++ [cycle]).flatMap CatchupCycle.served)) :
    (cycle.DigestIdentifies (runFrom CatchupCycle.run Database.empty cycles) →
        cycle.Bound (runFrom CatchupCycle.run Database.empty cycles)) ∧
      (cycle.Bound (runFrom CatchupCycle.run Database.empty cycles) ↔
        cycle.NoSubstitute (runFrom CatchupCycle.run Database.empty cycles)) := by
  have hserved : ∀ c ∈ cycles ++ [cycle], ∀ p ∈ c.served, p ∈ (cycles ++ [cycle]).flatMap CatchupCycle.served :=
    fun c hc p hp => List.mem_flatMap.mpr ⟨c, hc, hp⟩
  have hstate := CatchupCycle.reachable_labels hlabels fun c hc => hserved c (List.mem_append_left _ hc)
  have hlast := hserved cycle (List.mem_append_right _ List.mem_cons_self)
  have hbound := fun hno : cycle.NoSubstitute _ => hno.bound hstate hlabels hlast
  exact ⟨fun h => hbound h.noSubstitute, CatchupCycle.Bound.noSubstitute, hbound⟩

/-- The listing of one baseline and one incremental, from a trusting client. -/
def coreCycle (source : CatchupSource) : CatchupCycle Nat := ⟨plainClient, coreListing 1 2, source, true⟩

theorem coreCycle_digestIdentifies (db : Database Nat) : (coreCycle coreSource).DigestIdentifies db := by
  intro fetch before manifest hperforms hserved _
  have hfetch := CatchupCycle.Performs.listed hperforms
  simp only [CatchupCycle.listed, coreCycle, coreListing, List.map_cons, List.map_nil, List.mem_cons,
    List.not_mem_nil, or_false] at hfetch
  rcases hfetch with rfl | rfl
  · cases hserved
    exact ⟨rfl, rfl, rfl, rfl, rfl⟩
  · cases hserved
    exact ⟨rfl, rfl, rfl, rfl, rfl⟩

/-- A second catch-up, which applies the incremental after the baseline. -/
theorem catchup_bound_core :
    (coreCycle coreSource).Bound (runFrom CatchupCycle.run Database.empty [coreCycle coreSource]) ∧
      cursorSequence (runFrom CatchupCycle.run Database.empty [coreCycle coreSource, coreCycle coreSource])
        coreCorpus = some 2 :=
  ⟨(catchup_bound [coreCycle coreSource] (coreCycle coreSource)
      (distinctLabels_of_shortNames (by decide))).1 (coreCycle_digestIdentifies _), by decide⟩

def annexCorpus : Corpus := ⟨"annex".toList, by decide⟩

/-- A signed media package of another identity over the payload of `core-0`. -/
def reissuedCore (corpus : Corpus) (kind : PackageKind) (packageId : Text) (sequence : Nat) : Artifact :=
  let manifest := plainManifest corpus kind "core-0".toList 0 sequence none
  ⟨some ⟨{ manifest with identity := { manifest.identity with packageId := packageId } }, plainSignature⟩,
    [("documents".toList, "core-0".toList)]⟩

def substituteSource (artifact : Artifact) : CatchupSource := ⟨fun _ => .ok artifact, coreSource.fetchPackage⟩

/-- The condition is not needed where the applier refuses the substitute on its own: an
incremental of another sequence under the listed digest. -/
theorem refused_substitute_bound :
    (coreCycle (substituteSource (reissuedCore coreCorpus .incremental "core-5".toList 5))).Bound Database.empty ∧
      ¬ (coreCycle (substituteSource (reissuedCore coreCorpus .incremental "core-5".toList 5))).DigestIdentifies
        Database.empty := by
  have hfetch : ∀ {fetch before},
      (coreCycle (substituteSource (reissuedCore coreCorpus .incremental "core-5".toList 5))).Performs Database.empty
        fetch before → fetch = .baseline (coreListing 1 2).activeBaseline :=
    fun hperforms => List.mem_singleton.mp (Performed.mem hperforms)
  constructor
  · have hno : (coreCycle (substituteSource (reissuedCore coreCorpus .incremental "core-5".toList 5))).NoSubstitute
        Database.empty := by
      intro fetch before artifact signed hperforms hfetched _ _
      rw [hfetch hperforms] at hfetched ⊢
      cases hfetched
      exact Or.inr ⟨_, rfl⟩
    exact hno.bound (LabelInvariant.empty _) (distinctLabels_of_shortNames (by decide)) fun _ h => h
  · intro h
    obtain ⟨_, hkind, _⟩ := h _ _ _ (.head _ _ _) rfl rfl
    cases hkind

/-- A catch-up of one corpus installs another, and a later re-baseline is
applied for the listed baseline. -/
theorem substitutes_applied :
    ¬ (coreCycle (substituteSource (reissuedCore annexCorpus .baseline "annex-0".toList 1))).Bound Database.empty ∧
      ¬ (coreCycle (substituteSource (reissuedCore coreCorpus .rebaseline "core-5".toList 5))).Bound
        Database.empty := by
  constructor
  · intro h
    have hkept := (h.others annexCorpus (by decide)).cursor
    have hinstalled : ((CatchupCycle.run Database.empty (coreCycle (substituteSource
        (reissuedCore annexCorpus .baseline "annex-0".toList 1)))).cursors.find? annexCorpus).isSome = true := by
      decide
    rw [hkept] at hinstalled
    cases hinstalled
  · intro h
    have hok : ((coreCycle (substituteSource (reissuedCore coreCorpus .rebaseline "core-5".toList 5))).perform
        Database.empty (.baseline (coreListing 1 2).activeBaseline)).2 = .ok (.applied coreCorpus 5) := by decide
    obtain ⟨manifest, hserved, _, _, hsequence, _⟩ := h.identified _ _ _ (.head _ _ _) hok
    cases hserved
    cases hsequence

end CorpusFeed
