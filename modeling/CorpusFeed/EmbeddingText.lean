import CorpusFeed.DecimalText
import Mathlib.Algebra.Order.Group.Nat
import Mathlib.Data.List.Infix

/-! The text that is sent to an embedding endpoint: cut to a budget of characters, and
then checked against the limits of the endpoint. -/

namespace CorpusFeed

def usizeMax : ℕ := 2 ^ 64 - 1

structure EmbeddingLimits where
  maxInputChars : Option ℕ
  maxEstimatedTokens : Option ℕ
  estimatedCharsPerToken : ℕ
deriving DecidableEq

/-- How many ids the tokenizer of a configuration encodes a text to. -/
abbrev Tokenizer := Text → Except Text ℕ

inductive EmbeddingTokenCountMethod where
  | estimatedChars
  | tokenizer
deriving DecidableEq

structure EmbeddingInputStats where
  chars : ℕ
  tokens : ℕ
  estimatedTokens : ℕ
  tokenCountMethod : EmbeddingTokenCountMethod
  charsPerToken : ℕ
  maxChars : Option ℕ
  maxEstimatedTokens : Option ℕ
deriving DecidableEq

inductive PreflightError where
  | tokenizerEncode (message : Text)
  | inputTooLong (stats : EmbeddingInputStats)
deriving DecidableEq

def exceeds (limit : Option ℕ) (size : ℕ) : Bool := limit.any fun limit => limit < size

namespace EmbeddingLimits

variable (limits : EmbeddingLimits)

def charsPerToken : ℕ := max limits.estimatedCharsPerToken 1

def tokenCharBudget : Option ℕ := limits.maxEstimatedTokens.map fun tokens => min (tokens * limits.charsPerToken) usizeMax

def embeddingRequestCharBudget : Option ℕ :=
  match limits.maxInputChars, limits.tokenCharBudget with
  | some chars, some tokenChars => some (min chars tokenChars)
  | some chars, none => some chars
  | none, some tokenChars => some tokenChars
  | none, none => none

/-- The text to request, and whether it was cut. -/
def embeddingRequestText (input : Text) : Text × Bool :=
  match limits.embeddingRequestCharBudget with
  | none => (input, false)
  | some maxInputChars =>
    if maxInputChars = 0 then (input, false)
    else if maxInputChars < input.length then (input.take maxInputChars, true)
    else (input, false)

def estimatedTokens (input : Text) : ℕ := (input.length + limits.charsPerToken - 1) / limits.charsPerToken

/-- With a tokenizer the tokens are counted, without one they are estimated. -/
def countTokens (tokenizer : Option Tokenizer) (input : Text) : Except Text (ℕ × EmbeddingTokenCountMethod) :=
  match tokenizer with
  | some encode => (encode input).map fun ids => (ids, .tokenizer)
  | none => .ok (limits.estimatedTokens input, .estimatedChars)

def preflightInputWithTokenizer (tokenizer : Option Tokenizer) (input : Text) :
    Except PreflightError EmbeddingInputStats :=
  match limits.countTokens tokenizer input with
  | .error message => .error (.tokenizerEncode message)
  | .ok (tokens, method) =>
    let stats : EmbeddingInputStats :=
      { chars := input.length, tokens := tokens, estimatedTokens := limits.estimatedTokens input,
        tokenCountMethod := method, charsPerToken := limits.charsPerToken, maxChars := limits.maxInputChars,
        maxEstimatedTokens := limits.maxEstimatedTokens }
    if exceeds limits.maxInputChars input.length || exceeds limits.maxEstimatedTokens tokens then .error (.inputTooLong stats)
    else .ok stats

variable {limits} {tokenizer : Option Tokenizer} {input : Text}

theorem charsPerToken_pos : 0 < limits.charsPerToken := by
  unfold charsPerToken
  omega

@[simp] theorem exceeds_eq_false {limit : Option ℕ} {size : ℕ} :
    exceeds limit size = false ↔ ∀ bound ∈ limit, size ≤ bound := by
  cases limit <;> simp [exceeds]

theorem preflight_ok_iff : (∃ stats, limits.preflightInputWithTokenizer tokenizer input = .ok stats) ↔
    (∀ bound ∈ limits.maxInputChars, input.length ≤ bound) ∧
      ∃ counted, limits.countTokens tokenizer input = .ok counted ∧ ∀ bound ∈ limits.maxEstimatedTokens, counted.1 ≤ bound := by
  unfold preflightInputWithTokenizer
  cases hcount : limits.countTokens tokenizer input with
  | error message => simp
  | ok counted =>
    obtain ⟨tokens, method⟩ := counted
    simp only [Except.ok.injEq, exists_eq_left']
    rw [← exceeds_eq_false, ← exceeds_eq_false, ← Bool.or_eq_false_iff]
    cases exceeds limits.maxInputChars input.length || exceeds limits.maxEstimatedTokens tokens <;> simp

/-- How much of the text the budget leaves. A budget of zero leaves it whole. -/
def keptChars (limits : EmbeddingLimits) (input : Text) : ℕ :=
  match limits.embeddingRequestCharBudget with
  | none | some 0 => input.length
  | some (budget + 1) => budget + 1

theorem embeddingRequestText_eq : (limits.embeddingRequestText input).1 = input.take (limits.keptChars input) := by
  unfold embeddingRequestText keptChars
  match limits.embeddingRequestCharBudget with
  | none => simp
  | some 0 => simp
  | some (budget + 1) =>
    by_cases hlong : budget + 1 < input.length
    · simp [hlong]
    · simp [hlong, List.take_of_length_le (not_lt.mp hlong)]

theorem budget_eq_zero : limits.embeddingRequestCharBudget = some 0 ↔
    limits.maxInputChars = some 0 ∨ limits.maxEstimatedTokens = some 0 := by
  have htokens : ∀ tokens, min (tokens * limits.charsPerToken) usizeMax = 0 ↔ tokens = 0 := by
    intro tokens
    have hpos := @charsPerToken_pos limits
    have hmul : tokens * limits.charsPerToken = 0 ↔ tokens = 0 := by
      rw [Nat.mul_eq_zero]
      omega
    have hmax : 0 < usizeMax := by decide
    omega
  unfold embeddingRequestCharBudget tokenCharBudget
  cases limits.maxInputChars <;> cases limits.maxEstimatedTokens <;> simp [htokens]

theorem budget_le_chars {budget bound : ℕ} (h : limits.embeddingRequestCharBudget = some budget)
    (hbound : limits.maxInputChars = some bound) : budget ≤ bound := by
  unfold embeddingRequestCharBudget at h
  rw [hbound] at h
  cases htokens : limits.tokenCharBudget <;> rw [htokens] at h <;> simp at h <;> omega

theorem budget_le_tokens {budget bound : ℕ} (h : limits.embeddingRequestCharBudget = some budget)
    (hbound : limits.maxEstimatedTokens = some bound) : budget ≤ bound * limits.charsPerToken := by
  unfold embeddingRequestCharBudget tokenCharBudget at h
  rw [hbound] at h
  cases hchars : limits.maxInputChars <;> rw [hchars] at h <;> simp at h <;> omega

theorem budget_isSome (h : limits.embeddingRequestCharBudget = none) :
    limits.maxInputChars = none ∧ limits.maxEstimatedTokens = none := by
  unfold embeddingRequestCharBudget tokenCharBudget at h
  cases hchars : limits.maxInputChars <;> cases htokens : limits.maxEstimatedTokens <;> simp_all

theorem estimatedTokens_le {bound : ℕ} (h : input.length ≤ bound * limits.charsPerToken) :
    limits.estimatedTokens input ≤ bound := by
  have hpos := @charsPerToken_pos limits
  unfold estimatedTokens
  rw [Nat.div_le_iff_le_mul_add_pred hpos]
  rw [Nat.mul_comm]
  omega

theorem estimatedTokens_pos (h : input ≠ []) : 0 < limits.estimatedTokens input := by
  have hpos := @charsPerToken_pos limits
  have hlength := List.length_pos_of_ne_nil h
  exact Nat.div_pos (by omega) hpos

/-- The kept characters are within the limit, unless a budget of zero kept them all. -/
theorem kept_chars_iff : (∀ bound ∈ limits.maxInputChars, (input.take (limits.keptChars input)).length ≤ bound) ↔
    (limits.embeddingRequestCharBudget = some 0 → ∀ bound ∈ limits.maxInputChars, input.length ≤ bound) := by
  unfold keptChars
  match hbudget : limits.embeddingRequestCharBudget with
  | none => simp [budget_isSome hbudget]
  | some 0 => simp
  | some (budget + 1) =>
    refine iff_of_true (fun bound hbound => ?_) (by simp)
    have hle := budget_le_chars hbudget hbound
    simp only [List.length_take]
    omega

/-- Without a tokenizer a budget above zero keeps the estimate within the limit. -/
theorem kept_estimate (h : limits.embeddingRequestCharBudget ≠ some 0) :
    ∀ bound ∈ limits.maxEstimatedTokens, limits.estimatedTokens (input.take (limits.keptChars input)) ≤ bound := by
  intro bound hbound
  unfold keptChars
  match hbudget : limits.embeddingRequestCharBudget with
  | none => simp [budget_isSome hbudget] at hbound
  | some 0 => exact absurd hbudget h
  | some (budget + 1) =>
    have hle := budget_le_tokens hbudget hbound
    refine estimatedTokens_le ?_
    simp only [List.length_take]
    omega

/-- The request text is a prefix of the input, and the preflight accepts it. -/
def RequestTextFits (limits : EmbeddingLimits) (tokenizer : Option Tokenizer) (input : Text) : Prop :=
  (limits.embeddingRequestText input).1 <+: input ∧
    ∃ stats, limits.preflightInputWithTokenizer tokenizer (limits.embeddingRequestText input).1 = .ok stats

/-- Without a tokenizer no limit is zero, or the text is empty. With one it encodes the
characters within the budget to as many ids as are allowed; and if a limit is zero, so
that nothing is cut, the text is short enough as it is. -/
def LimitsMeet (limits : EmbeddingLimits) (tokenizer : Option Tokenizer) (input : Text) : Prop :=
  match tokenizer with
  | none => input = [] ∨ limits.maxInputChars ≠ some 0 ∧ limits.maxEstimatedTokens ≠ some 0
  | some encode =>
    (limits.maxInputChars = some 0 ∨ limits.maxEstimatedTokens = some 0 →
      ∀ bound ∈ limits.maxInputChars, input.length ≤ bound) ∧
    ∃ ids, encode (input.take (limits.keptChars input)) = .ok ids ∧ ∀ bound ∈ limits.maxEstimatedTokens, ids ≤ bound

theorem kept_whole (h : limits.embeddingRequestCharBudget = some 0) : input.take (limits.keptChars input) = input := by
  unfold keptChars
  rw [h]
  exact List.take_length

/-- A text cut to the budget passes the preflight of its configuration exactly when the
limits meet: the truncation counts characters, the preflight the tokens. -/
theorem request_text_fits_iff (limits : EmbeddingLimits) (tokenizer : Option Tokenizer) (input : Text) :
    limits.RequestTextFits tokenizer input ↔ limits.LimitsMeet tokenizer input := by
  unfold RequestTextFits
  rw [preflight_ok_iff, embeddingRequestText_eq, and_iff_right (List.take_prefix _ _), kept_chars_iff]
  cases tokenizer with
  | some encode =>
    rw [LimitsMeet, ← budget_eq_zero]
    refine and_congr_right fun _ => ?_
    cases hencode : encode (input.take (limits.keptChars input)) with
    | error message => simp [countTokens, hencode, Except.map]
    | ok ids => simp [countTokens, hencode, Except.map]
  | none =>
    simp only [countTokens, Except.ok.injEq, exists_eq_left']
    rw [LimitsMeet, ← not_or, ← budget_eq_zero]
    by_cases hzero : limits.embeddingRequestCharBudget = some 0
    · rw [kept_whole hzero]
      constructor
      · rintro ⟨hchars, htokens⟩
        refine Or.inl (by_contra fun hne => ?_)
        rcases budget_eq_zero.mp hzero with h | h
        · have hle := hchars hzero 0 h
          exact hne (List.length_eq_zero_iff.mp (Nat.le_zero.mp hle))
        · have hle := htokens 0 h
          have hpos := @estimatedTokens_pos limits input hne
          omega
      · rintro (rfl | h)
        · exact ⟨fun _ _ _ => Nat.zero_le _, fun _ _ => estimatedTokens_le (Nat.zero_le _)⟩
        · exact absurd hzero h
    · exact iff_of_true ⟨fun h => absurd h hzero, kept_estimate hzero⟩ (Or.inr hzero)

/-- A tokenizer may find a token in every character, where one in four is estimated. -/
theorem dense_text_rejected :
    ¬ RequestTextFits ⟨none, some 2, 4⟩ (some fun input => .ok input.length) "abcdefghijkl".toList := by
  rintro ⟨_, stats, hstats⟩
  have hrejected : preflightInputWithTokenizer ⟨none, some 2, 4⟩ (some fun input => .ok input.length)
      (embeddingRequestText ⟨none, some 2, 4⟩ "abcdefghijkl".toList).1 =
      .error (.inputTooLong ⟨8, 8, 2, .tokenizer, 4, none, some 2⟩) := rfl
  rw [hrejected] at hstats
  cases hstats

end EmbeddingLimits

end CorpusFeed
