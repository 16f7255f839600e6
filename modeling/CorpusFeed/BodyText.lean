import CorpusFeed.SeparatedText
import CorpusFeed.VisaCitation
import Mathlib.Data.List.Chain

/-! The text of a body while its character data is read: white space is collapsed,
and a block ends with a line feed. -/

namespace CorpusFeed

def appendXmlChar (buffer : Text) (character : Char) : Text :=
  if isWhiteSpace character then
    if !buffer.isEmpty && !buffer.getLast?.any isWhiteSpace then buffer ++ [' '] else buffer
  else buffer ++ [character]

def appendXmlContent (buffer value : Text) : Text := value.foldl appendXmlChar buffer

def appendBlockBoundary (buffer : Text) : Text :=
  let trimmed := trimEndMatches [' '] buffer
  if !trimmed.isEmpty && trimmed.getLast? != some '\n' then trimmed ++ ['\n'] else trimmed

def collapseWs (value : Text) : Text := joinSpaces (splitWhitespace value)

def finishBody (buffer : Text) : Text :=
  ['\n'].intercalate (((buffer.splitOn '\n').map collapseWs).filter fun line => !line.isEmpty)

theorem appendXmlContent_append (buffer value more : Text) :
    appendXmlContent buffer (value ++ more) = appendXmlContent (appendXmlContent buffer value) more :=
  List.foldl_append

/-- White space stands alone, between other characters or at the end. -/
structure Collapsed (t : Text) : Prop where
  head : ∀ c, t.head? = some c → isWhiteSpace c = false
  plain : ∀ c ∈ t, isWhiteSpace c = true → c = ' ' ∨ c = '\n'
  apart : t.IsChain fun a b => isWhiteSpace a = false ∨ isWhiteSpace b = false

/-- A collapsed text with no white space at its end. -/
structure Tidy (t : Text) : Prop extends Collapsed t where
  last : ∀ c, t.getLast? = some c → isWhiteSpace c = false

namespace Collapsed

variable {t s : Text} {c : Char}

theorem nil : Collapsed [] := ⟨by simp, by simp, List.IsChain.nil⟩

theorem prefix_of (h : Collapsed t) (hs : s <+: t) : Collapsed s := by
  obtain ⟨rest, rfl⟩ := hs
  refine ⟨fun c hc => h.head c ?_, fun c hc => h.plain c (List.mem_append_left rest hc),
    (List.isChain_append.mp h.apart).1⟩
  cases s with
  | nil => simp at hc
  | cons d s => simpa using hc

theorem concat (h : Collapsed t) (hc : isWhiteSpace c = false ∨
    (c = ' ' ∨ c = '\n') ∧ ∃ d, t.getLast? = some d ∧ isWhiteSpace d = false) : Collapsed (t ++ [c]) := by
  refine ⟨fun d hd => ?_, fun d hd hwhite => ?_, ?_⟩
  · cases t with
    | nil =>
      have hdc : c = d := by simpa using hd
      rcases hc with hc | ⟨_, e, he, _⟩
      · exact hdc ▸ hc
      · simp at he
    | cons e t => exact h.head d (by simpa using hd)
  · rcases List.mem_append.mp hd with hd | hd
    · exact h.plain d hd hwhite
    · rw [List.mem_singleton.mp hd] at hwhite ⊢
      rcases hc with hc | hc
      · rw [hc] at hwhite
        cases hwhite
      · exact hc.1
  · refine List.isChain_append.mpr ⟨h.apart, List.IsChain.singleton c, fun x hx y hy => ?_⟩
    have hyc : c = y := by simpa using hy
    rcases hc with hc | ⟨_, d, hd, hdark⟩
    · exact Or.inr (hyc ▸ hc)
    · have hxd : d = x := Option.some.inj (hd.symm.trans hx)
      exact Or.inl (hxd ▸ hdark)

theorem appendXmlChar (h : Collapsed t) (c : Char) : Collapsed (appendXmlChar t c) := by
  unfold CorpusFeed.appendXmlChar
  by_cases hc : isWhiteSpace c = true
  · rw [if_pos hc]
    split
    · next hroom =>
      refine h.concat (Or.inr ⟨Or.inl rfl, ?_⟩)
      rw [Bool.and_eq_true] at hroom
      cases hlast : t.getLast? with
      | none => simp [List.getLast?_eq_none_iff.mp hlast] at hroom
      | some d => exact ⟨d, rfl, by simpa [hlast] using hroom.2⟩
    · exact h
  · rw [if_neg hc]
    exact h.concat (Or.inl (by simpa using hc))

theorem appendXmlContent (h : Collapsed t) (value : Text) : Collapsed (appendXmlContent t value) := by
  induction value generalizing t with
  | nil => exact h
  | cons c value ih => exact ih (h.appendXmlChar c)

theorem appendBlockBoundary (h : Collapsed t) : Collapsed (appendBlockBoundary t) := by
  have htrimmed : Collapsed (trimEndMatches [' '] t) := h.prefix_of (List.rdropWhile_prefix _ t)
  unfold CorpusFeed.appendBlockBoundary
  dsimp only
  split
  · next hopen =>
    refine htrimmed.concat (Or.inr ⟨Or.inr rfl, ?_⟩)
    rw [Bool.and_eq_true] at hopen
    have hne : trimEndMatches [' '] t ≠ [] := by simpa using hopen.1
    refine ⟨_, List.getLast?_eq_some_getLast hne, ?_⟩
    have hspace := List.rdropWhile_last_not _ t hne
    have hfeed : (trimEndMatches [' '] t).getLast hne ≠ '\n' := by
      have hlast := hopen.2
      rw [List.getLast?_eq_some_getLast hne] at hlast
      simpa using hlast
    rw [Bool.eq_false_iff]
    intro hwhite
    rcases htrimmed.plain _ (List.getLast_mem hne) hwhite with heq | heq
    · exact hspace (by simpa [trimEndMatches] using heq)
    · exact hfeed heq
  · exact htrimmed

theorem trim (h : Collapsed t) : Tidy (trim t) := by
  have hdrop : t.dropWhile isWhiteSpace = t := by
    cases t with
    | nil => rfl
    | cons c t => exact List.dropWhile_cons_of_neg (by simp [h.head c rfl])
  have hcollapsed : Collapsed (CorpusFeed.trim t) := by
    rw [CorpusFeed.trim, hdrop]
    exact h.prefix_of (List.rdropWhile_prefix _ t)
  refine ⟨hcollapsed, fun c hc => ?_⟩
  rw [CorpusFeed.trim, hdrop] at hc
  have hne : t.rdropWhile isWhiteSpace ≠ [] := fun he => by simp [he] at hc
  have hlast := List.rdropWhile_last_not isWhiteSpace t hne
  rw [List.getLast?_eq_some_getLast hne, Option.some.injEq] at hc
  simpa [hc] using hlast

end Collapsed

namespace Tidy

variable {t : Text}

theorem nil : Tidy [] := ⟨Collapsed.nil, by simp⟩

theorem trim_eq (h : Tidy t) : CorpusFeed.trim t = t := by
  have hdrop : t.dropWhile isWhiteSpace = t := by
    cases t with
    | nil => rfl
    | cons c t => exact List.dropWhile_cons_of_neg (by simp [h.head c rfl])
  rw [CorpusFeed.trim, hdrop, List.rdropWhile_eq_self_iff]
  intro hne
  simp [h.last _ (List.getLast?_eq_some_getLast hne)]

theorem not_blank (h : Tidy t) (hne : t ≠ []) : isBlank t = false := by
  rw [isBlank, h.trim_eq]
  simpa using hne

theorem parts {parts : List Text} (h : Tidy (['\n'].intercalate parts)) (hne : ['\n'].intercalate parts ≠ []) :
    ∀ part ∈ parts, part ≠ [] ∧ Tidy part := by
  induction parts with
  | nil => simp
  | cons first rest ih =>
    cases rest with
    | nil => simpa using ⟨by simpa using hne, by simpa using h⟩
    | cons second rest =>
      rw [List.intercalate_cons_cons, List.append_assoc, List.singleton_append] at h
      generalize hinner : ['\n'].intercalate (second :: rest) = inner at h ih
      have hfeed : isWhiteSpace '\n' = true := by decide
      have hfirst : first ≠ [] := by
        intro he
        have hhead := h.head '\n' (by simp [he])
        rw [hfeed] at hhead
        cases hhead
      have hinnerne : inner ≠ [] := by
        intro he
        have hlast := h.last '\n' (by simp [he])
        rw [hfeed] at hlast
        cases hlast
      obtain ⟨happart, hrest, hjoin⟩ := List.isChain_append.mp h.apart
      have htidyFirst : Tidy first := by
        refine ⟨h.toCollapsed.prefix_of (List.prefix_append _ _), fun c hc => ?_⟩
        rcases hjoin c hc '\n' rfl with hdark | hdark
        · exact hdark
        · rw [hfeed] at hdark
          cases hdark
      have htidyInner : Tidy inner := by
        refine ⟨⟨fun c hc => ?_, fun c hc => h.plain c (by simp [hc]), ?_⟩, fun c hc => h.last c ?_⟩
        · cases inner with
          | nil => simp at hc
          | cons d inner =>
            have hdc : d = c := by simpa using hc
            rcases (List.isChain_cons_cons.mp hrest).1 with hdark | hdark
            · rw [hfeed] at hdark
              cases hdark
            · exact hdc ▸ hdark
        · exact hrest.tail
        · rw [List.getLast?_append, List.getLast?_cons, hc]
          rfl
      intro part hpart
      rcases List.mem_cons.mp hpart with rfl | hpart
      · exact ⟨hfirst, htidyFirst⟩
      · exact ih htidyInner hinnerne part hpart

theorem append_space {word : Text} (h : Tidy t) (hne : t ≠ []) (hword : word ≠ [])
    (hdark : ∀ c ∈ word, isWhiteSpace c = false) : Tidy (word ++ ' ' :: t) := by
  have hchain : word.IsChain fun a b => isWhiteSpace a = false ∨ isWhiteSpace b = false :=
    List.Pairwise.isChain (List.pairwise_of_forall_mem_list fun a ha b _ => Or.inl (hdark a ha))
  refine ⟨⟨fun c hc => ?_, fun c hc hwhite => ?_, List.isChain_append.mpr ⟨hchain, ?_, fun x hx y hy => ?_⟩⟩,
    fun c hc => h.last c ?_⟩
  · cases word with
    | nil => exact absurd rfl hword
    | cons d word =>
      have hdc : d = c := by simpa using hc
      exact hdc ▸ hdark d List.mem_cons_self
  · rcases List.mem_append.mp hc with hc | hc
    · rw [hdark c hc] at hwhite
      cases hwhite
    · rcases List.mem_cons.mp hc with hc | hc
      · exact Or.inl hc
      · exact h.plain c hc hwhite
  · cases t with
    | nil => exact absurd rfl hne
    | cons d t => exact List.isChain_cons_cons.mpr ⟨Or.inr (h.head d rfl), h.apart⟩
  · exact Or.inl (hdark x (List.mem_of_getLast? hx))
  · obtain ⟨d, hd⟩ : ∃ d, t.getLast? = some d := ⟨_, List.getLast?_eq_some_getLast hne⟩
    rw [List.getLast?_append, List.getLast?_cons, hd] at hc
    rw [hd]
    simpa using hc

end Tidy

theorem tidy_joinSpaces {words : List Text} (hwords : ∀ word ∈ words, word ≠ [] ∧ ∀ c ∈ word, isWhiteSpace c = false) :
    Tidy (joinSpaces words) ∧ (words ≠ [] → joinSpaces words ≠ []) ∧ '\n' ∉ joinSpaces words := by
  have hfeed : ∀ word ∈ words, '\n' ∉ word := fun word hw hmem => absurd ((hwords word hw).2 _ hmem) (by decide)
  induction words with
  | nil => exact ⟨Tidy.nil, fun h => absurd rfl h, by simp [joinSpaces]⟩
  | cons word rest ih =>
    obtain ⟨hne, hdark⟩ := hwords word List.mem_cons_self
    cases rest with
    | nil =>
      have hjoin : joinSpaces [word] = word := by simp [joinSpaces]
      rw [hjoin]
      refine ⟨⟨⟨fun c hc => hdark c (List.mem_of_mem_head? hc), fun c hc hwhite => ?_, ?_⟩,
        fun c hc => hdark c (List.mem_of_getLast? hc)⟩, fun _ => hne, hfeed word List.mem_cons_self⟩
      · rw [hdark c hc] at hwhite
        cases hwhite
      · exact List.Pairwise.isChain (List.pairwise_of_forall_mem_list fun a ha b _ => Or.inl (hdark a ha))
    | cons second rest =>
      obtain ⟨htidy, hinner, hfree⟩ := ih (fun w hw => hwords w (List.mem_cons_of_mem word hw))
        fun w hw => hfeed w (List.mem_cons_of_mem word hw)
      have hjoin : joinSpaces (word :: second :: rest) = word ++ ' ' :: joinSpaces (second :: rest) := by
        simp [joinSpaces, List.intercalate_cons_cons]
      rw [hjoin]
      refine ⟨htidy.append_space (hinner (by simp)) hne hdark, by simp, fun hmem => ?_⟩
      rcases List.mem_append.mp hmem with hmem | hmem
      · exact hfeed word List.mem_cons_self hmem
      · rcases List.mem_cons.mp hmem with hmem | hmem
        · exact absurd hmem (by decide)
        · exact hfree hmem

theorem mem_splitWhitespace {value word : Text} (h : word ∈ splitWhitespace value) :
    word ≠ [] ∧ ∀ c ∈ word, isWhiteSpace c = false := by
  obtain ⟨hword, hne⟩ := List.mem_filter.mp h
  exact ⟨by simpa using hne, dark_of_mem_splitOnP hword⟩

theorem tidy_collapseWs (value : Text) : Tidy (collapseWs value) :=
  (tidy_joinSpaces fun _ => mem_splitWhitespace).1

theorem not_mem_collapseWs (value : Text) : '\n' ∉ collapseWs value :=
  (tidy_joinSpaces fun _ => mem_splitWhitespace).2.2

end CorpusFeed
