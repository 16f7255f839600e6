import CorpusFeed.CitationLookup

/-! When a free-text article citation is answered with its own article: the
matches of the lookup against the versions that carry the cited number in the
cited code. -/

namespace CorpusFeed

section Counting

variable {R : Type*} {rows : List R} {p : R → Bool}

theorem length_eq_one_iff_existsUnique (h : rows.Nodup) : rows.length = 1 ↔ ∃! r, r ∈ rows := by
  rw [List.length_eq_one_iff]
  constructor
  · rintro ⟨r, rfl⟩
    exact ⟨r, List.mem_singleton_self r, fun s hs => List.mem_singleton.mp hs⟩
  · rintro ⟨r, hr, hunique⟩
    refine ⟨r, ?_⟩
    obtain ⟨first, rest, rfl⟩ := List.append_of_mem hr
    obtain ⟨hr', hothers⟩ := List.nodup_cons.mp (List.nodup_middle.mp h)
    have hnone : first ++ rest = [] := by
      refine List.eq_nil_iff_forall_not_mem.mpr fun s hs => ?_
      have heq := hunique s (List.perm_middle.mem_iff.mpr (List.mem_cons_of_mem r hs))
      exact hr' (heq ▸ hs)
    obtain ⟨rfl, rfl⟩ := List.append_eq_nil_iff.mp hnone
    rfl

theorem countP_eq_one_iff (h : rows.Nodup) : rows.countP p = 1 ↔ ∃! r, r ∈ rows ∧ p r = true := by
  rw [List.countP_eq_length_filter, length_eq_one_iff_existsUnique (h.filter p)]
  simp only [List.mem_filter]

end Counting

theorem btrim_isInfix (t : Text) : btrim t <:+: t :=
  (List.rdropWhile_prefix _ _).isInfix.trans (List.dropWhile_suffix _).isInfix

theorem trim_of_no_space {t : Text} (h : ∀ c ∈ t, isWhiteSpace c = false) : trim t = t := by
  have hfirst : t.dropWhile isWhiteSpace = t := by
    cases t with
    | nil => rfl
    | cons c t => exact List.dropWhile_cons_of_neg (by simp [h c List.mem_cons_self])
  rw [trim, hfirst, List.rdropWhile_eq_self_iff]
  intro hne
  simp [h _ (List.getLast_mem hne)]

theorem title_isInfix {v : DocumentVersion} {title : Text} (h : v.title = some title) : title <:+: v.citationLine := by
  unfold DocumentVersion.citationLine
  rw [h]
  cases v.citation with
  | none => simp [List.reduceOption, List.intercalate]
  | some citation =>
    refine ⟨citation ++ [' '], [], ?_⟩
    simp [List.reduceOption, List.intercalate]

namespace CitationDatabase

variable (db : CitationDatabase) (casing : CaseMapping) (corpus : Table DocumentVersion.documentId)
  (articleNumber : Text) (codeHint : Option Text) (asOf : Text)

/-- A LEGI article whose own title is the label of the number. -/
def titled (v : DocumentVersion) : Bool :=
  v.source == "legi".toList && v.kind == articleKind &&
    v.title.any fun title => db.lowered (btrim title) == articleLabel articleNumber

/-- The line of the version names the code, read like the line of a citation. -/
def namesCode (v : DocumentVersion) : Bool :=
  codeHint.all (containsNormalizedPhrase (casing.normalizeCitationText v.citationLine))

/-- The line has the code as it is written in the parser. -/
def writesCode (v : DocumentVersion) : Bool := codeHint.all fun hint => decide (hint <:+: db.lowered v.citationLine)

/-- The version carries the cited number in the cited code. -/
def carries (v : DocumentVersion) : Bool := db.titled articleNumber v && namesCode casing codeHint v

/-- Fewer matches than the limit come before the version. -/
def withinLimit (v : DocumentVersion) : Bool :=
  decide (corpus.rows.countP (fun w => db.matchOrder.before w v && db.freeTextArticle articleNumber codeHint w) <
    citationLookupLimit)

/-- The version is carrying the citation at the date. -/
def Carrying (v : DocumentVersion) : Prop :=
  v ∈ corpus ∧ v.validOn asOf = true ∧ db.carries casing articleNumber codeHint v = true

/-- The version is a match that the limit leaves, valid at the date. -/
def Found (v : DocumentVersion) : Prop :=
  v ∈ corpus ∧ v.validOn asOf = true ∧ db.freeTextArticle articleNumber codeHint v = true ∧
    db.withinLimit corpus articleNumber codeHint v = true

/-- The answer is `normalized` for a citation of exactly one version, with that
version among the matches, and both lookups match the same versions. -/
structure AnsweredExactly (state : CitationState) (candidates : List CitationMatch) : Prop where
  strict : enforceStrictCitation state true = true ↔ state = .normalized
  normalized : state = .normalized ↔ ∃! v, db.Carrying casing corpus articleNumber codeHint asOf v
  returned : ∀ v, db.Carrying casing corpus articleNumber codeHint asOf v → state = .normalized →
    v ∈ candidates.map CitationMatch.toDocumentVersion
  agree : ∀ v ∈ corpus, v.validOn asOf = true → db.freeTextArticle articleNumber codeHint v =
    db.structuredCitation casing articleNumber codeHint none asOf v

/-- No other valid line has the label and the code in it, and where one version
is found or carries the citation, a titled version within the limit has the code
as it is written in the parser exactly if it names the code. -/
structure Distinguishes : Prop where
  titled : ∀ v ∈ corpus, v.validOn asOf = true → db.freeTextArticle articleNumber codeHint v = true →
    db.titled articleNumber v = true
  named : (∃! v, db.Found corpus articleNumber codeHint asOf v) ∨
      (∃! v, db.Carrying casing corpus articleNumber codeHint asOf v) →
    ∀ v ∈ corpus, v.validOn asOf = true → db.titled articleNumber v = true →
      ((db.writesCode codeHint v && db.withinLimit corpus articleNumber codeHint v) = namesCode casing codeHint v)

variable {db casing corpus articleNumber codeHint asOf} {v : DocumentVersion} {input : Text}

theorem matchOrder_tied {a b : DocumentVersion} (ha : a ∈ corpus) (hb : b ∈ corpus) (h : db.matchOrder.Tied a b) : a = b := by
  obtain ⟨_, h⟩ := h.thenBy
  obtain ⟨_, hid⟩ := h.thenBy
  exact Table.eq_of_key_eq ha hb (KeyOrder.tied_text hid)

theorem corpus_nodup (corpus : Table DocumentVersion.documentId) : corpus.rows.Nodup := List.Nodup.of_map _ corpus.nodup

/-- The rows of the lookup. -/
def lookupRows (db : CitationDatabase) (corpus : Table DocumentVersion.documentId) (articleNumber : Text)
    (codeHint : Option Text) : List DocumentVersion :=
  (db.matchOrder.sort (corpus.rows.filter (db.freeTextArticle articleNumber codeHint))).take citationLookupLimit

theorem mem_lookupRows : v ∈ db.lookupRows corpus articleNumber codeHint ↔
    v ∈ corpus ∧ db.freeTextArticle articleNumber codeHint v = true ∧
      db.withinLimit corpus articleNumber codeHint v = true := by
  have hposition : v ∈ corpus.rows.filter (db.freeTextArticle articleNumber codeHint) →
      (v ∈ db.lookupRows corpus articleNumber codeHint ↔ db.withinLimit corpus articleNumber codeHint v = true) := by
    intro hv
    have htied : ∀ a ∈ corpus.rows.filter (db.freeTextArticle articleNumber codeHint),
        ∀ b ∈ corpus.rows.filter (db.freeTextArticle articleNumber codeHint), db.matchOrder.Tied a b → a = b :=
      fun a ha b hb => matchOrder_tied (List.mem_filter.mp ha).1 (List.mem_filter.mp hb).1
    rw [lookupRows, KeyOrder.mem_take_sort ((corpus_nodup corpus).filter _) htied hv, List.countP_filter, withinLimit,
      decide_eq_true_eq]
  constructor
  · intro h
    have hv := KeyOrder.mem_sort.mp (List.mem_of_mem_take h)
    exact ⟨(List.mem_filter.mp hv).1, (List.mem_filter.mp hv).2, (hposition hv).mp h⟩
  · rintro ⟨hv, hmatch, hwithin⟩
    exact (hposition (List.mem_filter.mpr ⟨hv, hmatch⟩)).mpr hwithin

theorem citationLookup_rows : (db.citationLookup corpus articleNumber codeHint citationLookupLimit).map
    CitationMatch.toDocumentVersion = db.lookupRows corpus articleNumber codeHint := by
  rw [citationLookup, List.map_map]
  exact List.map_id _

theorem lookupRows_nodup : (db.lookupRows corpus articleNumber codeHint).Nodup :=
  (((db.matchOrder.sort_perm _).nodup_iff).mpr ((corpus_nodup corpus).filter _)).sublist (List.take_sublist _ _)

theorem validMatchCount_eq : (db.citationLookup corpus articleNumber codeHint citationLookupLimit).countP
      (fun candidate => candidate.validOn asOf) =
    (db.lookupRows corpus articleNumber codeHint).countP (DocumentVersion.validOn asOf) := by
  rw [← citationLookup_rows, List.countP_map]
  rfl

theorem validMatchCount_eq_one : (db.lookupRows corpus articleNumber codeHint).countP (DocumentVersion.validOn asOf) = 1 ↔
    ∃! v, db.Found corpus articleNumber codeHint asOf v := by
  rw [countP_eq_one_iff lookupRows_nodup]
  refine existsUnique_congr fun v => ?_
  rw [mem_lookupRows, Found]
  tauto

/-- The free-text answer is `normalized` for exactly one valid match. -/
theorem citeState_normalized (requestedAsOf : Option Text) (onlineRequested : Bool) :
    citeState (.freeTextArticle articleNumber codeHint)
        (db.citationLookup corpus articleNumber codeHint citationLookupLimit) asOf requestedAsOf onlineRequested =
      .normalized ↔ ∃! v, db.Found corpus articleNumber codeHint asOf v := by
  rw [← validMatchCount_eq_one, ← validMatchCount_eq]
  generalize db.citationLookup corpus articleNumber codeHint citationLookupLimit = candidates
  cases candidates with
  | nil => cases onlineRequested <;> simp [citeState, classifyCitationState, ParsedCitationTarget.isDecision,
      ParsedCitationTarget.isMalformed]
  | cons first rest =>
    have hstate : citeState (.freeTextArticle articleNumber codeHint) (first :: rest) asOf requestedAsOf onlineRequested =
        stateOfCount .staleVersion .normalized
          ((first :: rest).countP fun candidate => candidate.validOn asOf) := by
      simp [citeState, classifyCitationState, ParsedCitationTarget.isMalformed]
    rw [hstate]
    generalize (first :: rest).countP (fun candidate => candidate.validOn asOf) = count
    match count with
    | 0 => simp [stateOfCount]
    | 1 => simp [stateOfCount]
    | count + 2 => simp [stateOfCount]

/-- No free-text citation is answered as exact. -/
theorem citeState_strict (candidates : List CitationMatch) (requestedAsOf : Option Text) (onlineRequested : Bool) :
    enforceStrictCitation (citeState (.freeTextArticle articleNumber codeHint) candidates asOf requestedAsOf
        onlineRequested) true = true ↔
      citeState (.freeTextArticle articleNumber codeHint) candidates asOf requestedAsOf onlineRequested =
        .normalized := by
  have hcounted : ∀ count, stateOfCount .staleVersion .normalized count ≠ .exact := by
    intro count
    match count with
    | 0 => simp [stateOfCount]
    | 1 => simp [stateOfCount]
    | count + 2 => simp [stateOfCount]
  have hexact : citeState (.freeTextArticle articleNumber codeHint) candidates asOf requestedAsOf onlineRequested ≠
      .exact := by
    unfold citeState classifyCitationState
    split
    · simp
    · split
      · simp
      · exact hcounted _
  simp [enforceStrictCitation, hexact]

theorem label_of_titled (h : db.titled articleNumber v = true) :
    v.kind = articleKind ∧ articleLabel articleNumber <:+: db.lowered v.citationLine := by
  simp only [titled, Bool.and_eq_true, beq_iff_eq, Option.any_eq_true] at h
  obtain ⟨⟨_, hkind⟩, title, htitle, hlabel⟩ := h
  refine ⟨hkind, ?_⟩
  rw [← hlabel]
  exact ((btrim_isInfix title).trans (title_isInfix htitle)).map db.lower

section Parsed

variable (hparsed : casing.parseCitationTarget input = .freeTextArticle articleNumber codeHint)
include hparsed

theorem label_plain : ∀ c ∈ articleLabel articleNumber, isLikeSpecial c = false := by
  have hword : ∀ c ∈ "article ".toList, isLikeSpecial c = false := forall_mem_of_all (by decide)
  intro c hc
  rcases List.mem_append.mp hc with hc | hc
  · exact hword c hc
  · have hnumber := (CaseMapping.freeText_number hparsed c hc).1
    by_contra hspecial
    simp only [isLikeSpecial, Bool.not_eq_false, Bool.or_eq_true, beq_iff_eq] at hspecial
    rcases hspecial with (rfl | rfl) | rfl <;> cases hnumber

theorem hint_plain {hint : Text} (hh : hint ∈ codeHint) :
    (∀ c ∈ hint, isLikeSpecial c = false ∧ c.toNat < 128 ∧ c.toLower = c) ∧ trim hint = hint ∧ isBlank hint = false := by
  have hall : ∀ hint ∈ codeHints,
      (hint.all fun c => decide (isLikeSpecial c = false ∧ c.toNat < 128 ∧ c.toLower = c)) = true ∧
        trim hint = hint ∧ isBlank hint = false := forall_mem_of_all (by decide)
  obtain ⟨hcharacters, hshape⟩ := hall hint (CaseMapping.freeText_hint hparsed hint hh)
  exact ⟨forall_mem_of_all hcharacters, hshape⟩

theorem freeTextArticle_iff : db.freeTextArticle articleNumber codeHint v = true ↔
    v.kind = articleKind ∧ articleLabel articleNumber <:+: db.lowered v.citationLine ∧ db.writesCode codeHint v = true := by
  have hcode : (codeHint.all fun hint => like (anywhere hint) (db.lowered v.citationLine)) = db.writesCode codeHint v := by
    cases hc : codeHint with
    | none => rfl
    | some hint =>
      have hmem : hint ∈ codeHint := hc
      have hplain := hint_plain hparsed hmem
      rw [Bool.eq_iff_iff]
      simp only [Option.all_some, writesCode, decide_eq_true_eq]
      exact like_anywhere fun c hm => (hplain.1 c hm).1
  rw [freeTextArticle, hcode]
  simp only [Bool.and_eq_true, beq_iff_eq, like_anywhere (label_plain hparsed), and_assoc]

theorem freeTextArticle_of_titled (h : db.titled articleNumber v = true) :
    db.freeTextArticle articleNumber codeHint v = db.writesCode codeHint v := by
  obtain ⟨hkind, hlabel⟩ := label_of_titled h
  rw [Bool.eq_iff_iff, freeTextArticle_iff hparsed]
  exact ⟨fun hf => hf.2.2, fun hw => ⟨hkind, hlabel, hw⟩⟩

theorem structuredCitation_eq : db.structuredCitation casing articleNumber codeHint none asOf v =
    (db.titled articleNumber v && db.writesCode codeHint v && v.validOn asOf) := by
  have hnumber : casing.lowercase (trim articleNumber) = articleNumber := by
    have hspace : ∀ c ∈ articleNumber, isWhiteSpace c = false := by
      intro c hc
      have hplain := (CaseMapping.freeText_number hparsed c hc).1
      exact isWhiteSpace_of_number hplain
    rw [trim_of_no_space hspace]
    exact CaseMapping.lowercase_of_settled fun c hc => (CaseMapping.freeText_number hparsed c hc).2
  have hcode : ((codeHint.filter fun hint => !isBlank hint).all fun hint =>
      like (likeContains (casing.lowercase (trim hint))) (db.lowered v.citationLine)) = db.writesCode codeHint v := by
    cases hc : codeHint with
    | none => rfl
    | some hint =>
      have hmem : hint ∈ codeHint := hc
      obtain ⟨hplain, htrim, hblank⟩ := hint_plain hparsed hmem
      have hlower : casing.lowercase hint = hint := CaseMapping.lowercase_of_settled fun c hm => by
        rw [casing.ascii c (hplain c hm).2.1, (hplain c hm).2.2]
      rw [Option.filter_some, if_pos (by simp [hblank]), Bool.eq_iff_iff]
      simp only [Option.all_some, writesCode, decide_eq_true_eq, htrim, hlower, like_likeContains]
  rw [structuredCitation, hnumber, hcode, titled, Option.all_none, Bool.and_true]

theorem agree_iff : (∀ v ∈ corpus, v.validOn asOf = true → db.freeTextArticle articleNumber codeHint v =
      db.structuredCitation casing articleNumber codeHint none asOf v) ↔
    ∀ v ∈ corpus, v.validOn asOf = true → db.freeTextArticle articleNumber codeHint v = true →
      db.titled articleNumber v = true := by
  refine forall₂_congr fun v hv => forall_congr' fun hvalid => ?_
  rw [structuredCitation_eq hparsed, hvalid, Bool.and_true]
  constructor
  · intro hsame hmatch
    rw [hmatch, eq_comm, Bool.and_eq_true] at hsame
    exact hsame.1
  · intro htitled
    by_cases h : db.titled articleNumber v = true
    · rw [freeTextArticle_of_titled hparsed h, h, Bool.true_and]
    · have hno : db.freeTextArticle articleNumber codeHint v = false := by
        by_contra hmatch
        exact h (htitled (by simpa using hmatch))
      rw [hno, Bool.not_eq_true _ |>.mp h, Bool.false_and]

end Parsed

/-- Where one thing is found exactly if one carries, and that one is found, the
found are the carrying. -/
theorem same_of_single {F C : DocumentVersion → Prop} :
    (((∃! v, F v) ↔ ∃! v, C v) ∧ ∀ v, C v → (∃! v, F v) → F v) ↔
      ((∃! v, F v) ∨ (∃! v, C v) → ∀ v, F v ↔ C v) := by
  constructor
  · rintro ⟨hboth, hfound⟩ hone
    have hF : ∃! v, F v := hone.elim id hboth.mpr
    obtain ⟨f, hf, hunique⟩ := hF
    obtain ⟨c, hc, hcunique⟩ := hboth.mp ⟨f, hf, hunique⟩
    have hcf : c = f := hunique c (hfound c hc ⟨f, hf, hunique⟩)
    intro v
    constructor
    · intro hv
      rw [hunique v hv, ← hcf]
      exact hc
    · intro hv
      rw [hcunique v hv, hcf]
      exact hf
  · intro hsame
    refine ⟨⟨fun hF => ?_, fun hC => ?_⟩, fun v hC hF => ((hsame (Or.inl hF)) v).mpr hC⟩
    · exact (existsUnique_congr (hsame (Or.inl hF))).mp hF
    · exact (existsUnique_congr (hsame (Or.inr hC))).mpr hC

/-- A free-text article citation is answered with its own article exactly if the
corpus distinguishes it. -/
theorem free_text_answer_iff
    (hparsed : casing.parseCitationTarget input = .freeTextArticle articleNumber codeHint)
    (requestedAsOf : Option Text) (onlineRequested : Bool) :
    db.AnsweredExactly casing corpus articleNumber codeHint asOf
        (citeState (casing.parseCitationTarget input)
          (db.citationLookup corpus articleNumber codeHint citationLookupLimit) asOf requestedAsOf onlineRequested)
        (db.citationLookup corpus articleNumber codeHint citationLookupLimit) ↔
      db.Distinguishes casing corpus articleNumber codeHint asOf := by
  have hstate : citeState (casing.parseCitationTarget input)
      (db.citationLookup corpus articleNumber codeHint citationLookupLimit) asOf requestedAsOf onlineRequested =
        .normalized ↔ ∃! v, db.Found corpus articleNumber codeHint asOf v := by
    rw [hparsed]
    exact citeState_normalized requestedAsOf onlineRequested
  have hfound : ∀ htitled : (∀ v ∈ corpus, v.validOn asOf = true →
      db.freeTextArticle articleNumber codeHint v = true → db.titled articleNumber v = true),
      (∀ v, db.Found corpus articleNumber codeHint asOf v ↔ db.Carrying casing corpus articleNumber codeHint asOf v) ↔
      ∀ v ∈ corpus, v.validOn asOf = true → db.titled articleNumber v = true →
        ((db.writesCode codeHint v && db.withinLimit corpus articleNumber codeHint v) = namesCode casing codeHint v) := by
    intro htitled
    constructor
    · intro hsame v hv hvalid ht
      have hv' := hsame v
      rw [Found, Carrying, freeTextArticle_of_titled hparsed ht, carries, ht, Bool.true_and] at hv'
      rw [Bool.eq_iff_iff, Bool.and_eq_true]
      constructor
      · exact fun h => (hv'.mp ⟨hv, hvalid, h⟩).2.2
      · exact fun h => (hv'.mpr ⟨hv, hvalid, h⟩).2.2
    · intro hnamed v
      constructor
      · rintro ⟨hv, hvalid, hmatch, hwithin⟩
        have ht := htitled v hv hvalid hmatch
        rw [freeTextArticle_of_titled hparsed ht] at hmatch
        refine ⟨hv, hvalid, ?_⟩
        rw [carries, ht, ← hnamed v hv hvalid ht, hmatch, hwithin]
        rfl
      · rintro ⟨hv, hvalid, hcarries⟩
        rw [carries, Bool.and_eq_true] at hcarries
        have hboth := (hnamed v hv hvalid hcarries.1).trans hcarries.2
        rw [Bool.and_eq_true] at hboth
        exact ⟨hv, hvalid, (freeTextArticle_of_titled hparsed hcarries.1).trans hboth.1, hboth.2⟩
  have hreturned : ∀ v, db.Carrying casing corpus articleNumber codeHint asOf v →
      (v ∈ (db.citationLookup corpus articleNumber codeHint citationLookupLimit).map CitationMatch.toDocumentVersion ↔
        db.Found corpus articleNumber codeHint asOf v) := by
    rintro v ⟨hv, hvalid, _⟩
    rw [citationLookup_rows, mem_lookupRows, Found]
    exact ⟨fun h => ⟨hv, hvalid, h.2⟩, fun h => ⟨hv, h.2.2⟩⟩
  constructor
  · rintro ⟨-, hnormalized, hback, hagree⟩
    have htitled := (agree_iff hparsed).mp hagree
    refine ⟨htitled, fun hone => (hfound htitled).mp (same_of_single.mp ⟨?_, ?_⟩ hone)⟩
    · exact hstate.symm.trans hnormalized
    · exact fun v hv hF => (hreturned v hv).mp (hback v hv (hstate.mpr hF))
  · rintro ⟨htitled, hnamed⟩
    obtain ⟨hboth, hone⟩ := same_of_single.mpr fun hone => (hfound htitled).mpr (hnamed hone)
    have hstrict := @citeState_strict articleNumber codeHint asOf
      (db.citationLookup corpus articleNumber codeHint citationLookupLimit) requestedAsOf onlineRequested
    refine ⟨?_, hstate.trans hboth, fun v hv hs => ?_, (agree_iff hparsed).mpr htitled⟩
    · rw [hparsed]
      exact hstrict
    · exact (hreturned v hv).mpr (hone v hv (hstate.mp hs))

end CitationDatabase

def plainDatabase : CitationDatabase := ⟨Char.toLower, codePointCollation⟩

def article1240 : DocumentVersion where
  documentId := "legi:LEGIARTI000032041571@2016-10-01".toList
  source := "legi".toList
  kind := articleKind
  sourceUid := "LEGIARTI000032041571".toList
  citation := some "Code civil Article 1240".toList
  title := some "Article 1240".toList
  validFrom := some "2016-10-01".toList
  validTo := none

def oneArticle : Table DocumentVersion.documentId := ⟨[article1240], List.nodup_singleton _⟩

namespace CitationDatabase

/-- Article 124 is not stored, and the answer for it is article 1240. -/
theorem sibling_answered :
    asciiCase.parseCitationTarget "Code civil article 124".toList =
        .freeTextArticle "124".toList (some "code civil".toList) ∧
      citeState (asciiCase.parseCitationTarget "Code civil article 124".toList)
        (plainDatabase.citationLookup oneArticle "124".toList (some "code civil".toList) citationLookupLimit)
        "2024-01-01".toList none false = .normalized ∧
      ¬ plainDatabase.AnsweredExactly asciiCase oneArticle "124".toList (some "code civil".toList) "2024-01-01".toList
        (citeState (asciiCase.parseCitationTarget "Code civil article 124".toList)
          (plainDatabase.citationLookup oneArticle "124".toList (some "code civil".toList) citationLookupLimit)
          "2024-01-01".toList none false)
        (plainDatabase.citationLookup oneArticle "124".toList (some "code civil".toList) citationLookupLimit) := by
  have hparsed : asciiCase.parseCitationTarget "Code civil article 124".toList =
      .freeTextArticle "124".toList (some "code civil".toList) := by decide
  have hrows : oneArticle.rows.filter (plainDatabase.freeTextArticle "124".toList (some "code civil".toList)) =
      [article1240] := by decide
  have hlookup : plainDatabase.citationLookup oneArticle "124".toList (some "code civil".toList) citationLookupLimit =
      [⟨article1240, false⟩] := by
    rw [citationLookup, hrows, KeyOrder.sort, List.mergeSort_singleton]
    rfl
  have hstate : citeState (.freeTextArticle "124".toList (some "code civil".toList)) [⟨article1240, false⟩]
      "2024-01-01".toList none false = .normalized := by decide
  rw [hparsed, hlookup]
  refine ⟨rfl, hstate, fun h => ?_⟩
  obtain ⟨v, ⟨hv, _, hcarries⟩, _⟩ := h.normalized.mp hstate
  have hnone : plainDatabase.carries asciiCase "124".toList (some "code civil".toList) article1240 = false := by decide
  rw [List.mem_singleton.mp hv, hnone] at hcarries
  cases hcarries

/-- Article 1240 is answered with itself. -/
theorem article1240_answered :
    plainDatabase.AnsweredExactly asciiCase oneArticle "1240".toList (some "code civil".toList) "2024-01-01".toList
      (citeState (asciiCase.parseCitationTarget "Code civil article 1240".toList)
        (plainDatabase.citationLookup oneArticle "1240".toList (some "code civil".toList) citationLookupLimit)
        "2024-01-01".toList none false)
      (plainDatabase.citationLookup oneArticle "1240".toList (some "code civil".toList) citationLookupLimit) := by
  have hparsed : asciiCase.parseCitationTarget "Code civil article 1240".toList =
      .freeTextArticle "1240".toList (some "code civil".toList) := by decide
  refine (free_text_answer_iff hparsed none false).mpr ⟨fun v hv _ _ => ?_, fun _ v hv _ _ => ?_⟩
  · rw [List.mem_singleton.mp hv]
    decide
  · rw [List.mem_singleton.mp hv]
    decide

end CitationDatabase

end CorpusFeed
