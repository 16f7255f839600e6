import CorpusFeed.SnapshotRead

/-! Which reads of a request see the generation that the request resolved. -/

namespace CorpusFeed

variable {α : Type*}

namespace Database

theorem settle_keeps_schema {db : Database α} {result : Except StorageError (Database α)} {identifier : Text}
    (h : (db.schemas.find? identifier).isSome = true)
    (hop : ∀ db', result = .ok db' → (db'.schemas.find? identifier).isSome = true) :
    ((db.settle result).schemas.find? identifier).isSome = true := by
  cases result with
  | ok db' => exact hop db' rfl
  | error e => exact h

theorem cloneSchema_keeps_schema {db db' : Database α} {tables : α} {c : Corpus} {m : UInt32} {identifier : Text}
    (h : (db.schemas.find? identifier).isSome = true) (hop : db.cloneSchema tables c m = .ok db') :
    (db'.schemas.find? identifier).isSome = true := by
  obtain ⟨schemas, hi, rfl⟩ := cloneSchema_cases hop
  rw [Table.find?_insert hi]
  split
  · rfl
  · exact h

theorem dropSchema_keeps_schema {db : Database α} {dropped identifier : Text}
    (h : (db.schemas.find? identifier).isSome = true) (hne : identifier ≠ dropped) :
    ((db.dropSchema dropped).schemas.find? identifier).isSome = true := by
  have hkeeps : (db.dropSchema dropped).schemas.find? identifier = db.schemas.find? identifier := dropSchema_keeps hne
  rw [hkeeps]
  exact h

theorem step_keeps_schema {ready : Database α → Text → Bool} {tables : α} {s : RegistrySystem α}
    {action : RegistryAction α} {identifier : Text} (h : (s.db.schemas.find? identifier).isSome = true)
    (hdropped : droppedIdentifier s.db action ≠ some identifier) :
    ((RegistrySystem.step ready tables s action).db.schemas.find? identifier).isSome = true := by
  cases action with
  | register c m b =>
    cases hop : s.db.registerGeneration c m b with
    | ok db =>
      obtain ⟨registry, _, rfl⟩ := registerGeneration_cases hop
      simpa [RegistrySystem.step, hop] using h
    | error e => simpa [RegistrySystem.step, hop] using h
  | clone c m =>
    by_cases hm : (c, m) ∈ s.pending
    · simpa [RegistrySystem.step, hm] using settle_keeps_schema h fun db' hop => cloneSchema_keeps_schema h hop
    · simpa [RegistrySystem.step, hm] using h
  | abandon c m => exact h
  | create c m b =>
    refine settle_keeps_schema h fun db' hop => ?_
    unfold createGeneration at hop
    split at hop
    · next registered hregister =>
      obtain ⟨registry, _, rfl⟩ := registerGeneration_cases hregister
      have hregistered : (({ s.db with registry := registry }).schemas.find? identifier).isSome = true := h
      exact cloneSchema_keeps_schema hregistered hop
    · cases hop
  | reset c g =>
    refine settle_keeps_schema h fun db' hop => ?_
    rcases resetBuildingGeneration_cases hop with rfl | ⟨row, hr, hk, hs, rfl⟩
    · exact h
    · refine dropSchema_keeps_schema h fun heq => hdropped ?_
      simp [droppedIdentifier, Table.find?_eq_some.mpr ⟨hr, hk⟩, hs, heq]
  | activate l c g stamps guard =>
    refine settle_keeps_schema h fun db' hop => ?_
    obtain ⟨_, _, _, _, _, hv⟩ := activateGeneration_cases hop
    obtain ⟨_, rfl⟩ := rebuildServerViews_cases hv
    exact h
  | dropRetired c g =>
    refine settle_keeps_schema h fun db' hop => ?_
    obtain ⟨row, hr, hk, hs, rfl⟩ := dropRetiredGeneration_cases hop
    refine dropSchema_keeps_schema h fun heq => hdropped ?_
    simp [droppedIdentifier, Table.find?_eq_some.mpr ⟨hr, hk⟩, hs, heq]
  | write other rows =>
    have hfind : ((s.db.writeRows other rows).schemas.find? identifier).isSome = true := by
      rw [writeRows, Table.find?_update, Option.isSome_map]
      exact h
    exact hfind

end Database

namespace ReadSystem

variable {ready : Database α → Text → Bool} {tables : α} {collation : Collation} {s : ReadSystem α}
  {action : ReadAction α}

/-- The corpus whose generation the read is pinned to. -/
def pinnedCorpus (request : ReadRequest α) : ReadAction α → Option ActiveCorpus
  | .readTextForCorpus index => request.corpora[index]?
  | .readText =>
    match request.corpora with
    | [one] => some one
    | _ => none
  | _ => none

/-- A pinned read returns the rows that the snapshot has of the generation. -/
def PinnedReadSound (s : ReadSystem α) (action : ReadAction α) : Prop :=
  ∀ request, s.request = some request → ∀ corpus, pinnedCorpus request action = some corpus →
    ∃ path rows, readPath request action = some path ∧
      request.snapshot.schemas.find? corpus.identifier = some (corpus.identifier, rows) ∧
      s.read request path = .schemaRows [(corpus.identifier, some rows)]

/-- Every active generation has its schema when the request opens, and no drop
reaches the schema of a resolved generation before the request has read it. -/
def Spares (s : ReadSystem α) : ReadAction α → Prop
  | .beginSnapshot => ∀ cursor ∈ s.registry.db.cursors,
    (s.registry.db.schemas.find? (schemaIdentifier cursor.activeGeneration)).isSome = true
  | .registry action => ∀ request, s.request = some request → ∀ corpus ∈ request.corpora,
    corpus.identifier ∉ request.locked → droppedIdentifier s.registry.db action ≠ some corpus.identifier
  | _ => True

/-- The schema of every resolved generation is still the one of the snapshot. -/
def Pinned (s : ReadSystem α) : Prop :=
  ∀ request, s.request = some request → ∀ corpus ∈ request.corpora,
    (s.registry.db.schemas.find? corpus.identifier).isSome = true ∧ corpus.identifier ∉ request.dropped ∧
      (request.snapshot.schemas.find? corpus.identifier).isSome = true

theorem mem_resolve {collation : Collation} {db : Database α} {corpus : ActiveCorpus}
    (h : corpus ∈ resolveActiveCorpora collation db) :
    ∃ cursor ∈ db.cursors, corpus.identifier = schemaIdentifier cursor.activeGeneration := by
  obtain ⟨cursor, hcursor, rfl⟩ := List.mem_map.mp h
  exact ⟨cursor, (List.mem_insertionSort _).mp hcursor, rfl⟩

theorem pinned_begin (h : Spares s .beginSnapshot) : (s.step ready tables collation .beginSnapshot).Pinned := by
  intro request hrequest corpus hcorpus
  obtain rfl := Option.some.inj hrequest
  obtain ⟨cursor, hcursor, hidentifier⟩ := mem_resolve hcorpus
  have hschema := h cursor hcursor
  rw [← hidentifier] at hschema
  exact ⟨hschema, List.not_mem_nil, hschema⟩

theorem not_mem_removed {before after : Database α} {identifier : Text}
    (h : (after.schemas.find? identifier).isSome = true) : identifier ∉ removed before after := by
  intro hmem
  have hnone := (List.mem_filter.mp hmem).2
  simp only [Option.isNone_iff_eq_none] at hnone
  simp [hnone] at h

/-- A locked schema is not dropped, and an unlocked one is spared. -/
theorem Pinned.registry {registryAction : RegistryAction α} (h : s.Pinned) (hspares : Spares s (.registry registryAction)) :
    (s.step ready tables collation (.registry registryAction)).Pinned := by
  intro request' hrequest' corpus hcorpus
  unfold ReadSystem.step at hrequest' ⊢
  by_cases hblocked : (s.request.any fun request => request.blocks s.registry.db registryAction) = true
  · simp only [hblocked, if_true] at hrequest' ⊢
    exact h request' hrequest' corpus hcorpus
  · simp only [hblocked, Bool.false_eq_true, if_false] at hrequest' ⊢
    obtain ⟨request, hrequest, rfl⟩ := Option.map_eq_some_iff.mp hrequest'
    obtain ⟨hlive, hkept, hsnapshot⟩ := h request hrequest corpus hcorpus
    have hdropped : droppedIdentifier s.registry.db registryAction ≠ some corpus.identifier := by
      by_cases hlocked : corpus.identifier ∈ request.locked
      · intro heq
        refine hblocked ?_
        simp [hrequest, ReadRequest.blocks, heq, hlocked]
      · exact hspares request hrequest corpus hcorpus hlocked
    have hafter := @Database.step_keeps_schema _ ready tables s.registry registryAction _ hlive hdropped
    refine ⟨hafter, fun hmem => ?_, hsnapshot⟩
    rcases List.mem_append.mp hmem with hmem | hmem
    · exact not_mem_removed hafter hmem
    · exact hkept hmem

theorem Pinned.read (h : s.Pinned) {request : ReadRequest α} (hrequest : s.request = some request)
    (relations : Relations) : Pinned { s with request := some (request.lock relations) } := by
  intro request' hrequest' corpus hcorpus
  obtain rfl := Option.some.inj hrequest'
  exact h request hrequest corpus hcorpus

theorem Pinned.step (h : s.Pinned) (hspares : Spares s action) : (s.step ready tables collation action).Pinned := by
  cases action with
  | beginSnapshot => exact pinned_begin hspares
  | endSnapshot =>
    intro request hrequest
    cases hrequest
  | registry registryAction => exact h.registry hspares
  | readText =>
    cases hrequest : s.request with
    | none => simpa [ReadSystem.step, hrequest] using h
    | some request => simpa [ReadSystem.step, hrequest, readPath] using h.read hrequest _
  | readTextForCorpus index =>
    cases hrequest : s.request with
    | none => simpa [ReadSystem.step, hrequest] using h
    | some request =>
      cases hcorpus : request.corpora[index]? with
      | none => simpa [ReadSystem.step, hrequest, readPath, hcorpus] using h
      | some corpus => simpa [ReadSystem.step, hrequest, readPath, hcorpus] using h.read hrequest _

/-- The search path of a pinned read starts with the generation. -/
theorem readPath_of_pinned {request : ReadRequest α} {corpus : ActiveCorpus}
    (h : pinnedCorpus request action = some corpus) :
    corpus ∈ request.corpora ∧ readPath request action = some [.generation corpus.identifier, .publicSchema] := by
  cases action with
  | readTextForCorpus index =>
    have hindex : request.corpora[index]? = some corpus := h
    exact ⟨List.mem_of_getElem? hindex, by simp [readPath, hindex]⟩
  | readText =>
    simp only [pinnedCorpus] at h
    split at h
    · next one hone =>
      obtain rfl := Option.some.inj h
      exact ⟨by simp [hone], by simp [readPath, hone, readSearchPath]⟩
    · cases h
  | beginSnapshot => cases h
  | endSnapshot => cases h
  | registry registryAction => cases h

theorem Pinned.readSound (h : s.Pinned) : PinnedReadSound s action := by
  intro request hrequest corpus hpinned
  obtain ⟨hcorpus, hpath⟩ := readPath_of_pinned hpinned
  obtain ⟨hlive, hkept, hsnapshot⟩ := h request hrequest corpus hcorpus
  obtain ⟨⟨identifier, rows⟩, hfind⟩ := Option.isSome_iff_exists.mp hsnapshot
  obtain rfl : identifier = corpus.identifier := (Table.find?_eq_some.mp hfind).2
  refine ⟨_, rows, hpath, hfind, ?_⟩
  simp [ReadSystem.read, findRelations, hlive, ReadRequest.result, Relations.schemas, ReadRequest.visibleRows, hkept, hfind]

/-- In a run that spares the resolved generations every pinned read is sound. -/
theorem pinned_reads_sound (ready : Database α → Text → Bool) (tables : α) (collation : Collation)
    (actions : List (ReadAction α)) (hspares : RunMeets (step ready tables collation) Spares start actions) :
    RunMeets (step ready tables collation) PinnedReadSound start actions :=
  RunMeets.mono (fun (s : ReadSystem α) _ (h : s.Pinned) => h.step) (fun _ _ h _ => h.readSound)
    (fun _ hrequest => by cases hrequest) hspares

def coreLabel (counter : UInt32) : Text := generationName coreCorpus.name counter

def coreStamps (sequence : Int) : ActivationStamps :=
  ⟨sequence, "base".toList, 24, "bge".toList, [], none, none⟩

/-- The first generation of `core` is live when the request opens, and a second
one replaces it. -/
def swapUnderRequest : List (ReadAction Nat) :=
  [.registry (.create coreCorpus 1 none),
    .registry (.activate true coreCorpus (coreLabel 1) (coreStamps 1) .firstBaseline), .beginSnapshot,
    .registry (.create coreCorpus 2 none),
    .registry (.activate true coreCorpus (coreLabel 2) (coreStamps 2) (.rebaselineForward 2))]

def cleanup : ReadAction Nat := .registry (.dropRetired coreCorpus (coreLabel 1))

def tableStep : ReadSystem Nat → ReadAction Nat → ReadSystem Nat := step (fun _ _ => true) 7 codePointCollation

theorem spares_of_no_drop {s : ReadSystem α} {registryAction : RegistryAction α}
    (h : droppedIdentifier s.registry.db registryAction = none) : Spares s (.registry registryAction) :=
  fun _ _ _ _ _ heq => by rw [h] at heq; cases heq

/-- The request reads its generation first, and the cleanup then waits for it. -/
theorem read_before_cleanup :
    RunMeets tableStep PinnedReadSound start (swapUnderRequest ++ [.readTextForCorpus 0, cleanup, .readText]) := by
  refine pinned_reads_sound (fun _ _ => true) 7 codePointCollation _ ?_
  refine ⟨spares_of_no_drop rfl, spares_of_no_drop rfl, ?_, spares_of_no_drop rfl, spares_of_no_drop rfl, trivial, ?_,
    trivial, trivial⟩
  · have hlive : (runFrom tableStep start (swapUnderRequest.take 2)).registry.db.cursors.rows.all (fun cursor =>
        ((runFrom tableStep start (swapUnderRequest.take 2)).registry.db.schemas.find?
          (schemaIdentifier cursor.activeGeneration)).isSome) = true := by decide
    exact fun cursor hcursor => List.all_eq_true.mp hlive cursor hcursor
  · have hlocked : (runFrom tableStep start (swapUnderRequest ++ [.readTextForCorpus 0])).request.all (fun request =>
        request.corpora.all fun corpus => request.locked.contains corpus.identifier) = true := by decide
    intro request hrequest corpus hcorpus hfree
    have hall := (Option.all_eq_true _ _).mp hlocked request hrequest
    exact absurd (List.contains_iff_mem.mp (List.all_eq_true.mp hall corpus hcorpus)) hfree

/-- The cleanup comes first, and the read finds the tables of `public`. -/
theorem read_after_cleanup :
    ¬ RunMeets tableStep PinnedReadSound start (swapUnderRequest ++ [cleanup, .readTextForCorpus 0]) := by
  intro hrun
  obtain ⟨_, _, hread, _⟩ := RunMeets.append_iff.mp hrun
  have hpublic : (runFrom tableStep start (swapUnderRequest ++ [cleanup])).request.bind (fun request =>
      request.corpora[0]?.map fun corpus =>
        decide (findRelations (runFrom tableStep start (swapUnderRequest ++ [cleanup])).registry.db
          [.generation corpus.identifier, .publicSchema] = .publicSchema)) = some true := by decide
  obtain ⟨request, hrequest, hcorpus⟩ := Option.bind_eq_some_iff.mp hpublic
  obtain ⟨corpus, hindex, hfound⟩ := Option.map_eq_some_iff.mp hcorpus
  obtain ⟨path, rows, hpath, _, hresult⟩ := hread request hrequest corpus hindex
  rw [show readPath request (.readTextForCorpus 0) = some [.generation corpus.identifier, .publicSchema] by
    simp [readPath, hindex]] at hpath
  obtain rfl := Option.some.inj hpath
  have hrelations := of_decide_eq_true hfound
  rw [runFrom_append] at hrelations
  have hrows := (congrArg request.result hrelations).symm.trans hresult
  cases hrows

end ReadSystem

end CorpusFeed
