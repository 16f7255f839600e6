import CorpusFeed.VisaCitation

/-! The parser of citations: what a text cites, by identifier or by article
number and code. -/

namespace CorpusFeed

/-- The lower case of a character. -/
structure CaseMapping where
  toLowercase : Char → List Char
  ascii : ∀ c : Char, c.toNat < 128 → toLowercase c = [c.toLower]
  settled : ∀ c, ∀ d ∈ toLowercase c, toLowercase d = [d]

theorem toLower_toLower (c : Char) : c.toLower.toLower = c.toLower := by
  delta Char.toLower
  split
  · split
    · next h h' =>
      simp only [UInt32.le_iff_toNat_le, UInt32.toNat_add, seval] at h h'
      omega
    · rfl
  · rfl

/-- The mapping on texts whose letters are all ASCII. -/
def asciiCase : CaseMapping where
  toLowercase c := [c.toLower]
  ascii _ _ := rfl
  settled c d hd := by
    rw [List.mem_singleton.mp hd, toLower_toLower]

inductive ParsedCitationTarget where
  | documentId (documentId : Text) (sourceUid : Option Text)
  | articleSourceUid (sourceUid : Text)
  | textSourceUid (sourceUid : Text)
  | sectionSourceUid (sourceUid : Text)
  | nor (nor : Text)
  | freeTextArticle (articleNumber : Text) (codeHint : Option Text)
  | decisionDocumentId (documentId : Text) (sourceUid : Option Text)
  | decisionSourceUid (sourceUid : Text)
  | decisionEcli (ecli : Text)
  | decisionPourvoi (pourvoi : Text)
  | malformed (normalized : Text)
deriving DecidableEq

def toAsciiUppercase (t : Text) : Text := t.map Char.toUpper

/-- The text after the first place of `needle`. -/
def afterFirst (needle haystack : Text) : Option Text :=
  (haystack.tails.find? fun t => needle.isPrefixOf t).map (List.drop needle.length)

def extractKnownSourceUid (value start : Text) : Option Text :=
  match afterFirst start (toAsciiUppercase value) with
  | none => none
  | some rest =>
    let digits := (rest.takeWhile Char.isDigit).take 12
    if digits.length = 12 then some (start ++ digits) else none

def articleNumberToken (candidate : Text) : Option Text :=
  if candidate.any Char.isDigit && candidate.all (fun c => c.isAlphanum || c == '-') then some candidate else none

def articlePrefixes : List Text := ["l".toList, "lo".toList, "r".toList, "d".toList]

/-- The number in the words after `article`. -/
def articleNumberIn : List Text → Option Text
  | [] => none
  | candidate :: rest =>
    match articleNumberToken candidate with
    | some number => some number
    | none =>
      if candidate ∈ articlePrefixes then (rest.head?.bind articleNumberToken).map (candidate ++ ·) else none

def articleNumberAmong : List Text → Option Text
  | [] => none
  | token :: rest =>
    if token = "article".toList then (articleNumberIn rest).or (articleNumberAmong rest) else articleNumberAmong rest

def parseArticleNumber (normalized : Text) : Option Text := articleNumberAmong (splitWhitespace normalized)

def codeHints : List Text :=
  ["code civil", "code penal", "code de procedure civile", "code de procedure penale", "code du travail",
    "code de la consommation", "code des assurances", "code de commerce", "code de l environnement",
    "code de la sante publique", "code general des impots"].map String.toList

def containsNormalizedPhrase (normalized phrase : Text) : Bool :=
  decide (' ' :: (phrase ++ [' ']) <:+: ' ' :: (normalized ++ [' ']))

def detectCodeHint (normalized : Text) : Option Text := codeHints.find? (containsNormalizedPhrase normalized)

def looksLikeNor (value : Text) : Bool :=
  value.length == 12 && (value.take 4).all Char.isAlpha && ((value.drop 4).take 7).all Char.isDigit &&
    (value.drop 11).all Char.isAlpha

def parsePourvoi (input : Text) : Option Text :=
  let compact := input.filter fun c => c != '.' && c != ' '
  let left := compact.takeWhile (· != '-')
  match compact.dropWhile (· != '-') with
  | [] => none
  | _ :: right =>
    if left.length = 2 ∧ left.all Char.isDigit ∧ 4 ≤ right.length ∧ right.length ≤ 6 ∧ right.all Char.isDigit then
      some compact
    else none

/-- What a character becomes: without its accent, or nothing for a separator. -/
def foldedCharacter (c : Char) : Text :=
  match c with
  | 'à' | 'â' | 'ä' => ['a']
  | 'ç' => ['c']
  | 'é' | 'è' | 'ê' | 'ë' => ['e']
  | 'î' | 'ï' => ['i']
  | 'ô' | 'ö' => ['o']
  | 'ù' | 'û' | 'ü' => ['u']
  | 'œ' => ['o', 'e']
  | 'æ' => ['a', 'e']
  | '-' => ['-']
  | c => if c.isAlphanum then [c] else []

/-- The loop over the characters, one space for a run of separators. -/
def foldCharacters : Bool → Text → Text
  | _, [] => []
  | previousWasSpace, c :: rest =>
    if (foldedCharacter c).isEmpty then
      if previousWasSpace then foldCharacters true rest else ' ' :: foldCharacters true rest
    else foldedCharacter c ++ foldCharacters false rest

namespace CaseMapping

variable (casing : CaseMapping)

def lowercase (t : Text) : Text := t.flatMap casing.toLowercase

def normalizeCitationText (value : Text) : Text := trim (foldCharacters true (casing.lowercase value))

def decisionPrefixes : List Text := ["cass".toList, "capp".toList, "inca".toList, "jade".toList]

def juriSourceUid (value : Text) : Option Text :=
  (extractKnownSourceUid value "JURITEXT".toList).or (extractKnownSourceUid value "CETATEXT".toList)

/-- The last classes, tried when no identifier stands in the text. -/
def parseCitationText (trimmed : Text) : ParsedCitationTarget :=
  let normalized := casing.normalizeCitationText trimmed
  match parseArticleNumber normalized with
  | some articleNumber => .freeTextArticle articleNumber (detectCodeHint normalized)
  | none =>
    match parsePourvoi trimmed with
    | some pourvoi => .decisionPourvoi pourvoi
    | none =>
      let compactUpper := toAsciiUppercase (trimmed.filter Char.isAlphanum)
      if looksLikeNor compactUpper then .nor compactUpper else .malformed normalized

def parseCitationTarget (input : Text) : ParsedCitationTarget :=
  let trimmed := trim input
  if "legi:".toList.isPrefixOf trimmed then
    .documentId trimmed (extractKnownSourceUid trimmed "LEGIARTI".toList)
  else if trimmed.contains ':' && trimmed.takeWhile (· != ':') ∈ decisionPrefixes then
    .decisionDocumentId trimmed (juriSourceUid trimmed)
  else match extractKnownSourceUid trimmed "LEGIARTI".toList with
  | some sourceUid => .articleSourceUid sourceUid
  | none => match extractKnownSourceUid trimmed "LEGITEXT".toList with
  | some sourceUid => .textSourceUid sourceUid
  | none => match extractKnownSourceUid trimmed "LEGISCTA".toList with
  | some sourceUid => .sectionSourceUid sourceUid
  | none => match juriSourceUid trimmed with
  | some sourceUid => .decisionSourceUid sourceUid
  | none =>
    if "ECLI:".toList.isPrefixOf (toAsciiUppercase trimmed) then .decisionEcli (toAsciiUppercase trimmed)
    else casing.parseCitationText trimmed

end CaseMapping

/-- The characters of article numbers. -/
def isNumberCharacter (c : Char) : Bool := c.isAlphanum || c == '-'

theorem isWhiteSpace_of_number {c : Char} (h : isNumberCharacter c = true) : isWhiteSpace c = false := by
  have hplain : (65 ≤ c.toNat ∧ c.toNat ≤ 90) ∨ (97 ≤ c.toNat ∧ c.toNat ≤ 122) ∨ (48 ≤ c.toNat ∧ c.toNat ≤ 57) ∨
      c.toNat = 45 := by
    delta isNumberCharacter Char.isAlphanum Char.isAlpha Char.isUpper Char.isLower Char.isDigit at h
    simp only [Bool.or_eq_true, Bool.and_eq_true, decide_eq_true_eq, beq_iff_eq, ge_iff_le, UInt32.le_iff_toNat_le] at h
    rcases h with ((h | h) | h) | rfl
    · exact Or.inl h
    · exact Or.inr (Or.inl h)
    · exact Or.inr (Or.inr (Or.inl h))
    · exact Or.inr (Or.inr (Or.inr rfl))
  simp only [isWhiteSpace, Bool.or_eq_false_iff, Bool.and_eq_false_iff, decide_eq_false_iff_not, beq_eq_false_iff_ne]
  omega

section Number

variable {candidate number normalized : Text} {tokens : List Text}

theorem articleNumberToken_some (h : articleNumberToken candidate = some number) :
    number = candidate ∧ ∀ c ∈ number, isNumberCharacter c = true := by
  unfold articleNumberToken at h
  split at h
  · next hall =>
    cases h
    simp only [Bool.and_eq_true, List.all_eq_true] at hall
    exact ⟨rfl, hall.2⟩
  · cases h

theorem articlePrefixes_number : ∀ candidate ∈ articlePrefixes, ∀ c ∈ candidate, isNumberCharacter c = true := by
  have hall : ∀ candidate ∈ articlePrefixes, candidate.all isNumberCharacter = true := forall_mem_of_all (by decide)
  exact fun candidate hcandidate => List.all_eq_true.mp (hall candidate hcandidate)

theorem articleNumberIn_chars (h : articleNumberIn tokens = some number) :
    ∀ c ∈ number, isNumberCharacter c = true ∧ ∃ token ∈ tokens, c ∈ token := by
  cases tokens with
  | nil => cases h
  | cons candidate rest =>
    rw [articleNumberIn] at h
    split at h
    · next own hown =>
      cases h
      obtain ⟨rfl, hall⟩ := articleNumberToken_some hown
      exact fun c hc => ⟨hall c hc, _, List.mem_cons_self, hc⟩
    · split at h
      · next hprefix =>
        obtain ⟨tail, htail, rfl⟩ := Option.map_eq_some_iff.mp h
        obtain ⟨next, hnext, htoken⟩ := Option.bind_eq_some_iff.mp htail
        obtain ⟨rfl, hall⟩ := articleNumberToken_some htoken
        intro c hc
        rcases List.mem_append.mp hc with hc | hc
        · exact ⟨articlePrefixes_number candidate hprefix c hc, candidate, List.mem_cons_self, hc⟩
        · exact ⟨hall c hc, _, List.mem_cons_of_mem candidate (List.mem_of_head? hnext), hc⟩
      · cases h

theorem articleNumberAmong_chars (h : articleNumberAmong tokens = some number) :
    ∀ c ∈ number, isNumberCharacter c = true ∧ ∃ token ∈ tokens, c ∈ token := by
  induction tokens with
  | nil => cases h
  | cons token rest ih =>
    have hlater : ∀ c ∈ number, (isNumberCharacter c = true ∧ ∃ t ∈ rest, c ∈ t) →
        isNumberCharacter c = true ∧ ∃ t ∈ token :: rest, c ∈ t := by
      rintro c _ ⟨hc, t, ht, hm⟩
      exact ⟨hc, t, List.mem_cons_of_mem token ht, hm⟩
    unfold articleNumberAmong at h
    split at h
    · rcases Option.or_eq_some_iff.mp h with h | ⟨_, h⟩
      · exact fun c hc => hlater c hc (articleNumberIn_chars h c hc)
      · exact fun c hc => hlater c hc (ih h c hc)
    · exact fun c hc => hlater c hc (ih h c hc)

theorem mem_of_mem_splitOnP {p : Char → Bool} {t part : Text} {c : Char} (hpart : part ∈ t.splitOnP p) (hc : c ∈ part) :
    c ∈ t := by
  induction t generalizing part with
  | nil => simp_all
  | cons d t ih =>
    rw [List.splitOnP_cons_eq_if_modifyHead] at hpart
    split at hpart
    · rcases List.mem_cons.mp hpart with rfl | hpart
      · cases hc
      · exact List.mem_cons_of_mem d (ih hpart hc)
    · cases hsplit : t.splitOnP p with
      | nil =>
        rw [hsplit] at hpart
        cases hpart
      | cons first others =>
        rw [hsplit, List.modifyHead_cons] at hpart
        rcases List.mem_cons.mp hpart with rfl | hpart
        · rcases List.mem_cons.mp hc with rfl | hc
          · exact List.mem_cons_self
          · exact List.mem_cons_of_mem d (ih (hsplit ▸ List.mem_cons_self) hc)
        · exact List.mem_cons_of_mem d (ih (hsplit ▸ List.mem_cons_of_mem first hpart) hc)

theorem parseArticleNumber_chars (h : parseArticleNumber normalized = some number) :
    ∀ c ∈ number, isNumberCharacter c = true ∧ c ∈ normalized := by
  intro c hc
  obtain ⟨hnumber, token, htoken, hm⟩ := articleNumberAmong_chars h c hc
  exact ⟨hnumber, mem_of_mem_splitOnP (List.mem_filter.mp htoken).1 hm⟩

end Number

theorem mem_foldCharacters {space : Bool} {t : Text} {c : Char} (h : c ∈ foldCharacters space t) :
    c = ' ' ∨ ∃ d ∈ t, c ∈ foldedCharacter d := by
  induction t generalizing space with
  | nil => cases h
  | cons d t ih =>
    have hlater : (c = ' ' ∨ ∃ x ∈ t, c ∈ foldedCharacter x) → c = ' ' ∨ ∃ x ∈ d :: t, c ∈ foldedCharacter x := by
      rintro (rfl | ⟨x, hx, hm⟩)
      · exact Or.inl rfl
      · exact Or.inr ⟨x, List.mem_cons_of_mem d hx, hm⟩
    unfold foldCharacters at h
    split at h
    · split at h
      · exact hlater (ih h)
      · rcases List.mem_cons.mp h with h | h
        · exact Or.inl h
        · exact hlater (ih h)
    · rcases List.mem_append.mp h with h | h
      · exact Or.inr ⟨d, List.mem_cons_self, h⟩
      · exact hlater (ih h)

theorem mem_foldedCharacter {c d : Char} (h : c ∈ foldedCharacter d) :
    c = d ∨ c ∈ ['a', 'c', 'e', 'i', 'o', 'u'] := by
  unfold foldedCharacter at h
  split at h <;> simp_all <;> grind

namespace CaseMapping

variable {casing : CaseMapping} {input articleNumber : Text} {codeHint : Option Text}

theorem normalized_settled {value : Text} {c : Char} (h : c ∈ casing.normalizeCitationText value) :
    casing.toLowercase c = [c] := by
  have hplain : ∀ x ∈ [' ', 'a', 'c', 'e', 'i', 'o', 'u'], x.toNat < 128 ∧ x.toLower = x :=
    forall_mem_of_all (by decide)
  have hascii : ∀ x ∈ [' ', 'a', 'c', 'e', 'i', 'o', 'u'], casing.toLowercase x = [x] := by
    intro x hx
    rw [casing.ascii x (hplain x hx).1, (hplain x hx).2]
  rcases mem_foldCharacters (trim_subset _ c h) with rfl | ⟨d, hd, hfold⟩
  · exact hascii ' ' List.mem_cons_self
  · rcases mem_foldedCharacter hfold with rfl | hletter
    · obtain ⟨x, _, hm⟩ := List.mem_flatMap.mp hd
      exact casing.settled x c hm
    · exact hascii c (List.mem_cons_of_mem ' ' hletter)

theorem parseCitationTarget_freeText
    (h : casing.parseCitationTarget input = .freeTextArticle articleNumber codeHint) :
    parseArticleNumber (casing.normalizeCitationText (trim input)) = some articleNumber ∧
      codeHint = detectCodeHint (casing.normalizeCitationText (trim input)) := by
  have htext : casing.parseCitationText (trim input) = .freeTextArticle articleNumber codeHint := by
    unfold parseCitationTarget at h
    dsimp only at h
    repeat' split at h
    all_goals first | cases h | exact h
  unfold parseCitationText at htext
  dsimp only at htext
  split at htext
  · next number hnumber =>
    cases htext
    exact ⟨hnumber, rfl⟩
  · repeat' split at htext
    all_goals cases htext

theorem lowercase_of_settled {t : Text} (h : ∀ c ∈ t, casing.toLowercase c = [c]) : casing.lowercase t = t := by
  induction t with
  | nil => rfl
  | cons c t ih =>
    have hrest := ih fun d hd => h d (List.mem_cons_of_mem c hd)
    rw [lowercase, List.flatMap_cons, h c List.mem_cons_self]
    exact congrArg (c :: ·) hrest

/-- The number of a parsed citation has no character that lower case, trimming
or a pattern changes. -/
theorem freeText_number (h : casing.parseCitationTarget input = .freeTextArticle articleNumber codeHint) :
    ∀ c ∈ articleNumber, isNumberCharacter c = true ∧ casing.toLowercase c = [c] := by
  intro c hc
  obtain ⟨hnumber, hm⟩ := parseArticleNumber_chars (parseCitationTarget_freeText h).1 c hc
  exact ⟨hnumber, normalized_settled hm⟩

theorem freeText_hint (h : casing.parseCitationTarget input = .freeTextArticle articleNumber codeHint) :
    ∀ hint ∈ codeHint, hint ∈ codeHints := by
  intro hint hm
  rw [(parseCitationTarget_freeText h).2] at hm
  exact List.mem_of_find?_eq_some hm

end CaseMapping

end CorpusFeed
