import CorpusFeed.ReadinessStamp

/-! Signatures and topologies. Corpus names and generation labels hold neither
separator, so the signature of a state fixes its entries. -/

namespace CorpusFeed

open Database

variable {α V : Type*}

/-- The entries of a topology, compared as a set. -/
def CorpusState.entry (cursor : CorpusState) : Text × Text × Int :=
  (cursor.corpus.name, cursor.activeGeneration, cursor.sequence)

def SameTopology (db db' : Database α) : Prop :=
  ∀ entry, (∃ cursor ∈ db.cursors, cursor.entry = entry) ↔ ∃ cursor ∈ db'.cursors, cursor.entry = entry

/-- The labels that the appliers admit: a cursor only ever names a registered
generation, and those are made from their corpus and a counter. -/
structure AdmittedLabels (db : Database α) : Prop where
  registered : ∀ row ∈ db.registry, ∃ n, row.generation = generationName row.corpus.name n
  active : ∀ cursor ∈ db.cursors, ∃ n, cursor.activeGeneration = generationName cursor.corpus.name n

theorem corpusChar_generationName {c : Corpus} {n : UInt32} {x : Char} (hx : x ∈ generationName c.name n) :
    corpusChar x = true := by
  simp only [generationName, List.mem_append] at hx
  rcases hx with (hx | hx) | hx
  · exact c.corpusChar_of_mem hx
  · have hg : "_g".toList.all corpusChar = true := by decide
    exact List.all_eq_true.mp hg x hx
  · exact corpusChar_of_isDigit (isDigit_of_mem_padDecimal hx)

theorem signatureEntry_eq (corpus generation : Text) (sequence : Int) :
    signatureEntry corpus generation sequence = corpus ++ ':' :: (generation ++ ':' :: intText sequence) := by
  simp [signatureEntry]

section Entries

variable {db db' : Database α} {cursor cursor' : CorpusState}

theorem AdmittedLabels.not_mem_corpus {x : Char} (hx : corpusChar x = false) : x ∉ cursor.corpus.name := by
  intro hm
  simp [cursor.corpus.corpusChar_of_mem hm] at hx

theorem AdmittedLabels.not_mem_generation (h : AdmittedLabels db) (hc : cursor ∈ db.cursors) {x : Char}
    (hx : corpusChar x = false) : x ∉ cursor.activeGeneration := by
  obtain ⟨n, hn⟩ := h.active cursor hc
  intro hm
  rw [hn] at hm
  simp [corpusChar_generationName hm] at hx

theorem AdmittedLabels.comma_not_mem (h : AdmittedLabels db) (hc : cursor ∈ db.cursors) :
    ',' ∉ signatureEntry cursor.corpus.name cursor.activeGeneration cursor.sequence := by
  have hcorpus : ',' ∉ cursor.corpus.name := not_mem_corpus (by decide)
  have hgeneration := h.not_mem_generation hc (x := ',') (by decide)
  have hsequence : ',' ∉ intText cursor.sequence := not_digit_mem_intText (by decide) (by decide)
  simp [signatureEntry_eq, hcorpus, hgeneration, hsequence]

theorem AdmittedLabels.entry_unique (h : AdmittedLabels db) (h' : AdmittedLabels db') (hc : cursor ∈ db.cursors)
    (hc' : cursor' ∈ db'.cursors)
    (heq : signatureEntry cursor.corpus.name cursor.activeGeneration cursor.sequence =
      signatureEntry cursor'.corpus.name cursor'.activeGeneration cursor'.sequence) : cursor.entry = cursor'.entry := by
  rw [signatureEntry_eq, signatureEntry_eq] at heq
  obtain ⟨hcorpus, hrest⟩ := head_rest_unique (not_mem_corpus (by decide)) (not_mem_corpus (by decide)) heq
  obtain ⟨hgeneration, hsequence⟩ := head_rest_unique (h.not_mem_generation hc (by decide))
    (h'.not_mem_generation hc' (by decide)) hrest
  rw [CorpusState.entry, CorpusState.entry, hcorpus, hgeneration, intText_injective hsequence]

end Entries

section Signature

variable {db db' : Database α} {collation : Collation}

theorem orderedCursors_sorted : (orderedCursors collation db).Pairwise
    fun a b => collation.le a.corpus.name b.corpus.name = true := by
  have htotal : Std.Total fun a b : CorpusState => collation.le a.corpus.name b.corpus.name = true :=
    ⟨fun a b => collation.total _ _⟩
  have htrans : IsTrans CorpusState fun a b => collation.le a.corpus.name b.corpus.name = true :=
    ⟨fun a b c => collation.trans _ _ _⟩
  exact List.pairwise_insertionSort _ _

theorem mem_entries {entry : Text × Text × Int} :
    entry ∈ (orderedCursors collation db).map CorpusState.entry ↔ ∃ cursor ∈ db.cursors, cursor.entry = entry := by
  simp [mem_orderedCursors]

theorem entries_nodup : ((orderedCursors collation db).map CorpusState.entry).Nodup := by
  have hnames : ((db.cursors.rows.map CorpusState.corpus).map Corpus.name).Nodup :=
    db.cursors.nodup.map fun _ _ h => Corpus.ext h
  have hrows : (db.cursors.rows.map CorpusState.entry).Nodup := by
    refine List.Nodup.of_map Prod.fst ?_
    rw [List.map_map] at hnames ⊢
    exact hnames
  exact ((List.perm_insertionSort _ _).map CorpusState.entry).nodup_iff.mpr hrows

theorem entry_eq_of_name_eq {cursor cursor' : CorpusState} (hc : cursor ∈ db.cursors) (hc' : cursor' ∈ db.cursors)
    (hname : cursor.corpus.name = cursor'.corpus.name) : cursor.entry = cursor'.entry := by
  rw [Table.eq_of_key_eq hc hc' (Corpus.ext hname)]

/-- The order of the entries is fixed by the entries. -/
theorem SameTopology.entries_eq (h : SameTopology db db') :
    (orderedCursors collation db).map CorpusState.entry = (orderedCursors collation db').map CorpusState.entry := by
  have hsorted : ∀ d : Database α, ((orderedCursors collation d).map CorpusState.entry).Pairwise
      fun a b => collation.le a.1 b.1 = true := fun d => List.pairwise_map.mpr orderedCursors_sorted
  have hperm : ((orderedCursors collation db).map CorpusState.entry).Perm
      ((orderedCursors collation db').map CorpusState.entry) :=
    (List.perm_ext_iff_of_nodup entries_nodup entries_nodup).mpr fun entry => by
      rw [mem_entries, mem_entries]
      exact h entry
  refine List.Perm.eq_of_pairwise ?_ (hsorted db) (hsorted db') hperm
  intro a b ha hb hab hba
  have hname := collation.antisymm _ _ hab hba
  obtain ⟨cursor, hc, rfl⟩ := mem_entries.mp ha
  obtain ⟨cursor', hc', rfl⟩ := (h b).mpr (mem_entries.mp hb)
  exact entry_eq_of_name_eq hc hc' hname

theorem activeReadSignature_entries : activeReadSignature collation db =
    match (orderedCursors collation db).map CorpusState.entry with
    | [] => "public".toList
    | entries => List.intercalate ",".toList (entries.map fun entry => signatureEntry entry.1 entry.2.1 entry.2.2) := by
  unfold activeReadSignature
  cases orderedCursors collation db with
  | nil => rfl
  | cons cursor rest => simp [CorpusState.entry, Function.comp_def]

theorem SameTopology.signature_eq (h : SameTopology db db') :
    activeReadSignature collation db = activeReadSignature collation db' := by
  rw [activeReadSignature_entries, activeReadSignature_entries, h.entries_eq]

/-- The texts that the signature joins. -/
def signatureEntries (collation : Collation) (db : Database α) : List Text :=
  (orderedCursors collation db).map fun cursor =>
    signatureEntry cursor.corpus.name cursor.activeGeneration cursor.sequence

theorem signatureEntries_eq_nil : signatureEntries collation db = [] ↔ db.cursors.rows = [] := by
  rw [signatureEntries, List.map_eq_nil_iff, orderedCursors, ← List.length_eq_zero_iff, List.length_insertionSort,
    List.length_eq_zero_iff]

theorem activeReadSignature_of_installed (h : db.cursors.rows ≠ []) :
    activeReadSignature collation db = List.intercalate ",".toList (signatureEntries collation db) := by
  have hne : signatureEntries collation db ≠ [] := fun hnil => h (signatureEntries_eq_nil.mp hnil)
  unfold activeReadSignature
  unfold signatureEntries at hne ⊢
  cases hrows : orderedCursors collation db with
  | nil => simp [hrows] at hne
  | cons cursor rest => rfl

theorem activeReadSignature_of_none (h : db.cursors.rows = []) : activeReadSignature collation db = "public".toList := by
  simp [activeReadSignature, orderedCursors, h]

theorem installed_ne_public (h : db.cursors.rows ≠ []) : activeReadSignature collation db ≠ "public".toList := by
  obtain ⟨cursor, hc⟩ := List.exists_mem_of_ne_nil _ h
  have hentry : signatureEntry cursor.corpus.name cursor.activeGeneration cursor.sequence ∈
      signatureEntries collation db := List.mem_map_of_mem (mem_orderedCursors.mpr hc)
  have hcolon : ':' ∈ activeReadSignature collation db := by
    rw [activeReadSignature_of_installed h]
    exact mem_intercalate_of_mem hentry (by simp [signatureEntry_eq])
  intro heq
  rw [heq] at hcolon
  revert hcolon
  decide

theorem AdmittedLabels.comma_free (h : AdmittedLabels db) : ∀ text ∈ signatureEntries collation db, ',' ∉ text := by
  intro text ht
  obtain ⟨cursor, hc, rfl⟩ := List.mem_map.mp ht
  exact h.comma_not_mem (mem_orderedCursors.mp hc)

theorem AdmittedLabels.entry_of_signature (h : AdmittedLabels db) (h' : AdmittedLabels db')
    (heq : signatureEntries collation db = signatureEntries collation db') {cursor : CorpusState}
    (hc : cursor ∈ db.cursors) : ∃ cursor' ∈ db'.cursors, cursor'.entry = cursor.entry := by
  have hentry : signatureEntry cursor.corpus.name cursor.activeGeneration cursor.sequence ∈
      signatureEntries collation db := List.mem_map_of_mem (mem_orderedCursors.mpr hc)
  rw [heq] at hentry
  obtain ⟨cursor', hc', hsame⟩ := List.mem_map.mp hentry
  have hc' := mem_orderedCursors.mp hc'
  exact ⟨cursor', hc', h'.entry_unique h hc' hc hsame⟩

/-- Under admitted labels two states have one signature exactly when they have
one topology. -/
theorem activeReadSignature_eq_iff (h : AdmittedLabels db) (h' : AdmittedLabels db') :
    activeReadSignature collation db = activeReadSignature collation db' ↔ SameTopology db db' := by
  refine ⟨fun heq => ?_, SameTopology.signature_eq⟩
  by_cases hdb : db.cursors.rows = []
  · by_cases hdb' : db'.cursors.rows = []
    · intro entry
      simp [← Table.mem_rows, hdb, hdb']
    · rw [activeReadSignature_of_none hdb] at heq
      exact absurd heq.symm (installed_ne_public hdb')
  · by_cases hdb' : db'.cursors.rows = []
    · rw [activeReadSignature_of_none hdb'] at heq
      exact absurd heq (installed_ne_public hdb)
    · rw [activeReadSignature_of_installed hdb, activeReadSignature_of_installed hdb'] at heq
      have hentries := intercalate_injective h.comma_free h'.comma_free
        (fun hnil => hdb (signatureEntries_eq_nil.mp hnil)) (fun hnil => hdb' (signatureEntries_eq_nil.mp hnil)) heq
      intro entry
      constructor
      · rintro ⟨cursor, hc, rfl⟩
        exact h.entry_of_signature h' hentries hc
      · rintro ⟨cursor, hc, rfl⟩
        exact h'.entry_of_signature h hentries.symm hc

end Signature

end CorpusFeed
