import CorpusFeed.Corpus

/-! Labels of generations and the database identifiers of their schemas. The
database keeps the first 63 bytes of an identifier, and the counter stands at
the end of it. -/

namespace CorpusFeed

def serverViewSchema : Text := "jurisearch_server".toList

def generationName (corpus : Text) (counter : UInt32) : Text :=
  corpus ++ "_g".toList ++ padDecimal 4 counter.toNat

def schemaForGeneration (generation : Text) : Text :=
  serverViewSchema ++ "_".toList ++ generation

def generationSchema (corpus : Text) (counter : UInt32) : Text :=
  schemaForGeneration (generationName corpus counter)

/-- The integer parser of the source, which also accepts a leading plus sign. -/
def parseU32 (t : Text) : Option UInt32 :=
  let digits := match t with
    | '+' :: rest => rest
    | _ => t
  match readDecimal digits with
  | some n => if n < 2 ^ 32 then some (UInt32.ofNat n) else none
  | none => none

def generationCounterOf (corpus generation : Text) : Option UInt32 :=
  let marker := corpus ++ "_g".toList
  if marker.isPrefixOf generation then parseU32 (generation.drop marker.length) else none

def identifierLimit : Nat := 63

def truncateIdentifier (identifier : Text) : Text := identifier.take identifierLimit

def schemaIdentifier (generation : Text) : Text := truncateIdentifier (schemaForGeneration generation)

theorem corpusChar_of_isDigit {c : Char} (h : c.isDigit = true) : corpusChar c = true := by
  simp [corpusChar, h]

theorem generationName_eq (corpus : Text) (counter : UInt32) :
    generationName corpus counter = (corpus ++ ['_']) ++ 'g' :: padDecimal 4 counter.toNat := by
  simp [generationName]

theorem generationName_length (corpus : Text) (counter : UInt32) :
    (generationName corpus counter).length = corpus.length + 2 + (padDecimal 4 counter.toNat).length := by
  simp [generationName]
  omega

theorem padDecimal_counter_length_le (counter : UInt32) : (padDecimal 4 counter.toNat).length ≤ 10 :=
  padDecimal_length_le (by decide) (by decide) (by have := counter.toNat_lt; omega)

theorem generationName_inj {c d : Text} {m n : UInt32} (h : generationName c m = generationName d n) :
    c = d ∧ m = n := by
  rw [generationName_eq, generationName_eq] at h
  have hg : ∀ k, 'g' ∉ padDecimal 4 k := fun k hk => by
    simpa using isDigit_of_mem_padDecimal hk
  obtain ⟨hc, hn⟩ := stem_suffix_unique (hg _) (hg _) h
  exact ⟨List.append_cancel_right hc, UInt32.toNat_inj.mp (padDecimal_injective 4 hn)⟩

theorem parseU32_padDecimal (counter : UInt32) : parseU32 (padDecimal 4 counter.toNat) = some counter := by
  have hplus : ∀ rest, padDecimal 4 counter.toNat ≠ '+' :: rest := fun rest h => by
    have hp : '+' ∈ padDecimal 4 counter.toNat := h ▸ List.mem_cons_self
    simpa using isDigit_of_mem_padDecimal hp
  unfold parseU32
  split
  · next rest h => exact absurd h (hplus rest)
  · simp [readDecimal_padDecimal, counter.toNat_lt]

theorem generationCounterOf_generationName (corpus : Text) (counter : UInt32) :
    generationCounterOf corpus (generationName corpus counter) = some counter := by
  simp [generationCounterOf, generationName, List.isPrefixOf_iff_prefix, parseU32_padDecimal]

theorem not_mem_of_parseU32 {t : Text} {m : UInt32} (h : parseU32 t = some m) : 'g' ∉ t := by
  have hdigits : ∀ digits n, readDecimal digits = some n → 'g' ∉ digits := fun digits n hr hg => by
    simpa using isDigit_of_readDecimal hr hg
  unfold parseU32 at h
  split at h
  · next rest =>
    dsimp only at h
    split at h
    · next n hr => simpa using hdigits rest n hr
    · cases h
  · dsimp only at h
    split at h
    · next n hr => exact hdigits t n hr
    · cases h

/-- A counter parsed from a canonical label is the counter it was made from. -/
theorem generationCounterOf_inj {c d : Text} {m n : UInt32}
    (h : generationCounterOf c (generationName d n) = some m) : c = d ∧ m = n := by
  unfold generationCounterOf at h
  dsimp only at h
  split at h
  · next hprefix =>
    obtain ⟨rest, hrest⟩ := List.isPrefixOf_iff_prefix.mp hprefix
    rw [← hrest, List.drop_left] at h
    have hg : 'g' ∉ rest := not_mem_of_parseU32 h
    have hd : 'g' ∉ padDecimal 4 n.toNat := fun hk => by simpa using isDigit_of_mem_padDecimal hk
    have heq : (c ++ ['_']) ++ 'g' :: rest = (d ++ ['_']) ++ 'g' :: padDecimal 4 n.toNat := by
      rw [← generationName_eq, ← hrest]
      simp
    obtain ⟨hcd, hr⟩ := stem_suffix_unique hg hd heq
    rw [hr, parseU32_padDecimal, Option.some.injEq] at h
    exact ⟨List.append_cancel_right hcd, h.symm⟩
  · cases h

theorem schemaIdentifier_eq (generation : Text) :
    schemaIdentifier generation = serverViewSchema ++ "_".toList ++ generation.take 45 := by
  have hl : (serverViewSchema ++ "_".toList).length = 18 := by decide
  rw [schemaIdentifier, truncateIdentifier, schemaForGeneration, identifierLimit,
    List.take_append, hl, List.take_of_length_le (by rw [hl]; decide)]

theorem schemaIdentifier_eq_iff {g h : Text} :
    schemaIdentifier g = schemaIdentifier h ↔ g.take 45 = h.take 45 := by
  rw [schemaIdentifier_eq, schemaIdentifier_eq]
  exact List.append_right_inj _

theorem schemaIdentifier_inj_of_length {g h : Text} (hg : g.length < 45)
    (heq : schemaIdentifier g = schemaIdentifier h) : g = h :=
  eq_of_take_eq hg (schemaIdentifier_eq_iff.mp heq)

theorem generationName_length_lt {c : Text} (hc : c.length ≤ 32) (m : UInt32) :
    (generationName c m).length < 45 := by
  have hm := padDecimal_counter_length_le m
  rw [generationName_length]
  omega

theorem schemaIdentifier_ne {c d : Text} {m n : UInt32} (hc : c.length ≤ 32)
    (hne : (c, m) ≠ (d, n)) :
    schemaIdentifier (generationName c m) ≠ schemaIdentifier (generationName d n) := by
  intro h
  have hl := schemaIdentifier_inj_of_length (generationName_length_lt hc m) h
  obtain ⟨hcd, hmn⟩ := generationName_inj hl
  exact hne (by rw [hcd, hmn])

/-- From 40 characters on the cut removes the last digit of small counters. -/
theorem schemaIdentifier_counter_collision {c : Text} (hc : 40 ≤ c.length) :
    schemaIdentifier (generationName c 1) = schemaIdentifier (generationName c 2) := by
  have h1 : padDecimal 4 (UInt32.toNat 1) = "000".toList ++ "1".toList := by decide
  have h2 : padDecimal 4 (UInt32.toNat 2) = "000".toList ++ "2".toList := by decide
  have hcut : ∀ last : Text, ((c ++ "_g".toList) ++ ("000".toList ++ last)).take 45 =
      (c ++ "_g".toList ++ "000".toList).take 45 := fun last => by
    rw [← List.append_assoc, List.take_append_of_le_length (by simp; omega)]
  rw [schemaIdentifier_eq_iff, generationName, generationName, h1, h2, hcut, hcut]

/-- Between 33 and 39 characters some counter fills the label to exactly 45
characters, and that label is itself a corpus name. -/
theorem schemaIdentifier_corpus_collision (c : Corpus) (h33 : 33 ≤ c.name.length)
    (h39 : c.name.length ≤ 39) :
    ∃ (d : Corpus) (m : UInt32), c.name ≠ d.name ∧
      ∀ n, schemaIdentifier (generationName c.name m) = schemaIdentifier (generationName d.name n) := by
  have hk : ∃ k : Nat, ∃ m : UInt32, c.name.length + 2 + k = 45 ∧ (padDecimal 4 m.toNat).length = k := by
    obtain h | h | h | h | h | h | h : c.name.length = 33 ∨ c.name.length = 34 ∨ c.name.length = 35 ∨
      c.name.length = 36 ∨ c.name.length = 37 ∨ c.name.length = 38 ∨ c.name.length = 39 := by omega
    · exact ⟨10, 1000000000, by omega, by decide⟩
    · exact ⟨9, 100000000, by omega, by decide⟩
    · exact ⟨8, 10000000, by omega, by decide⟩
    · exact ⟨7, 1000000, by omega, by decide⟩
    · exact ⟨6, 100000, by omega, by decide⟩
    · exact ⟨5, 10000, by omega, by decide⟩
    · exact ⟨4, 1, by omega, by decide⟩
  obtain ⟨k, m, hsum, hk⟩ := hk
  have hlabel : (generationName c.name m).length = 45 := by
    rw [generationName_length]
    omega
  have hsuffix : ∀ x ∈ "_g".toList ++ padDecimal 4 m.toNat, corpusChar x = true := by
    intro x hx
    rcases List.mem_append.mp hx with hx | hx
    · have hg : "_g".toList.all corpusChar = true := by decide
      exact List.all_eq_true.mp hg x hx
    · exact corpusChar_of_isDigit (isDigit_of_mem_padDecimal hx)
  have hvalid : corpusNameValid (generationName c.name m) = true := by
    rw [generationName, List.append_assoc]
    exact c.append_valid hsuffix (by simp; omega)
  refine ⟨⟨generationName c.name m, hvalid⟩, m, ?_, fun n => ?_⟩
  · intro h
    have hl := congrArg List.length h
    simp only [hlabel] at hl
    omega
  · show _ = schemaIdentifier (generationName c.name m ++ "_g".toList ++ padDecimal 4 n.toNat)
    rw [schemaIdentifier_eq_iff, List.append_assoc, List.take_append_of_le_length (by omega)]

end CorpusFeed
