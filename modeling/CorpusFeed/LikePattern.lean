import CorpusFeed.DecimalText
import Mathlib.Data.List.Infix

/-! `LIKE` patterns with the backslash as escape, and the patterns that look for
a text anywhere. -/

namespace CorpusFeed

inductive LikeToken where
  | percent
  | underscore
  | literal (c : Char)
deriving DecidableEq

/-- The tokens of a pattern. A lone backslash at its end is an error of the
database and occurs in no pattern here. -/
def likeTokens : Text → List LikeToken
  | [] => []
  | '\\' :: c :: rest => .literal c :: likeTokens rest
  | c :: rest =>
    (if c = '%' then .percent else if c = '_' then .underscore else .literal c) :: likeTokens rest

def matchTokens : List LikeToken → Text → Bool
  | [], t => t.isEmpty
  | .percent :: tokens, t => t.tails.any (matchTokens tokens)
  | .underscore :: tokens, _ :: t => matchTokens tokens t
  | .literal c :: tokens, d :: t => c == d && matchTokens tokens t
  | _ :: _, [] => false

def like (pattern t : Text) : Bool := matchTokens (likeTokens pattern) t

def isLikeSpecial (c : Char) : Bool := c == '\\' || c == '%' || c == '_'

def likeEscape (value : Text) : Text := value.flatMap fun c => if isLikeSpecial c then ['\\', c] else [c]

section Match

variable {value t : Text} {tokens : List LikeToken}

theorem matchTokens_literals : matchTokens (value.map LikeToken.literal ++ tokens) t = true ↔
    ∃ rest, t = value ++ rest ∧ matchTokens tokens rest = true := by
  induction value generalizing t with
  | nil => simp
  | cons c value ih =>
    cases t with
    | nil => simp [matchTokens]
    | cons d t =>
      simp only [List.map_cons, List.cons_append, matchTokens, Bool.and_eq_true, beq_iff_eq, ih, List.cons.injEq]
      constructor
      · rintro ⟨rfl, rest, rfl, h⟩
        exact ⟨rest, ⟨rfl, rfl⟩, h⟩
      · rintro ⟨rest, ⟨rfl, rfl⟩, h⟩
        exact ⟨rfl, rest, rfl, h⟩

theorem matchTokens_percent : matchTokens [.percent] t = true :=
  List.any_eq_true.mpr ⟨[], (List.mem_tails _ _).mpr List.nil_suffix, rfl⟩

theorem matchTokens_anywhere :
    matchTokens (.percent :: (value.map LikeToken.literal ++ [.percent])) t = true ↔ value <:+: t := by
  rw [matchTokens, List.any_eq_true, List.infix_iff_prefix_suffix]
  refine exists_congr fun u => ?_
  rw [List.mem_tails, matchTokens_literals, and_comm]
  refine and_congr_left fun _ => ⟨?_, ?_⟩
  · rintro ⟨rest, rfl, _⟩
    exact List.prefix_append value rest
  · rintro ⟨rest, rfl⟩
    exact ⟨rest, rfl, matchTokens_percent⟩

theorem likeTokens_cons {c : Char} (hc : isLikeSpecial c = false) : likeTokens (c :: t) = .literal c :: likeTokens t := by
  simp only [isLikeSpecial, Bool.or_eq_false_iff, beq_eq_false_iff_ne] at hc
  obtain ⟨⟨hescape, hpercent⟩, hunderscore⟩ := hc
  rw [likeTokens, if_neg hpercent, if_neg hunderscore]
  rintro _ _ rfl _
  exact hescape rfl

theorem likeTokens_plain (h : ∀ c ∈ value, isLikeSpecial c = false) :
    likeTokens (value ++ t) = value.map LikeToken.literal ++ likeTokens t := by
  induction value with
  | nil => rfl
  | cons c value ih =>
    rw [List.cons_append, likeTokens_cons (h c List.mem_cons_self),
      ih fun d hd => h d (List.mem_cons_of_mem c hd)]
    rfl

theorem likeTokens_escape : likeTokens (likeEscape value ++ t) = value.map LikeToken.literal ++ likeTokens t := by
  induction value with
  | nil => rfl
  | cons c value ih =>
    have hsplit : likeEscape (c :: value) = (if isLikeSpecial c then ['\\', c] else [c]) ++ likeEscape value := rfl
    rw [hsplit, List.append_assoc]
    by_cases hc : isLikeSpecial c = true
    · rw [if_pos hc, List.cons_append, List.cons_append, List.nil_append, likeTokens, ih]
      rfl
    · rw [if_neg hc, List.cons_append, List.nil_append, likeTokens_cons (by simpa using hc), ih]
      rfl

end Match

/-- `%value%` as it is written into a statement. -/
def anywhere (value : Text) : Text := '%' :: (value ++ ['%'])

/-- `%value%` with the special characters of the value escaped. -/
def likeContains (value : Text) : Text := anywhere (likeEscape value)

section Anywhere

variable {value t : Text}

theorem like_anywhere (h : ∀ c ∈ value, isLikeSpecial c = false) : like (anywhere value) t = true ↔ value <:+: t := by
  have htokens : likeTokens (anywhere value) = .percent :: (value.map LikeToken.literal ++ [.percent]) :=
    congrArg (LikeToken.percent :: ·) (likeTokens_plain h)
  rw [like, htokens, matchTokens_anywhere]

theorem like_likeContains : like (likeContains value) t = true ↔ value <:+: t := by
  have htokens : likeTokens (likeContains value) = .percent :: (value.map LikeToken.literal ++ [.percent]) :=
    congrArg (LikeToken.percent :: ·) likeTokens_escape
  rw [like, htokens, matchTokens_anywhere]

end Anywhere

end CorpusFeed
