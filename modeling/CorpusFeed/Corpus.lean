import CorpusFeed.DecimalText

/-! Corpus names and the attribution of sources to corpora. A corpus carries
the proof that its name was accepted, so no other name reaches a schema. -/

namespace CorpusFeed

inductive AttributionError where
  | unknownSource (sourceName : Text)
  | invalidCorpus (name : Text)
deriving DecidableEq

def corpusChar (c : Char) : Bool :=
  c.isLower || c.isDigit || c == '_'

def corpusNameValid (name : Text) : Bool :=
  !name.isEmpty && decide (name.length ≤ 48) && name.all corpusChar && (name.head?.any Char.isLower)

structure Corpus where
  name : Text
  valid : corpusNameValid name = true
deriving DecidableEq

def Corpus.new (name : Text) : Except AttributionError Corpus :=
  if h : corpusNameValid name = true then .ok ⟨name, h⟩ else .error (.invalidCorpus name)

theorem Corpus.ext {c d : Corpus} (h : c.name = d.name) : c = d := by
  cases c
  cases d
  simpa using h

theorem Corpus.length_pos (c : Corpus) : 0 < c.name.length := by
  have h := c.valid
  simp only [corpusNameValid, Bool.and_eq_true, Bool.not_eq_true', List.isEmpty_eq_false_iff] at h
  exact List.length_pos_iff.mpr h.1.1.1

theorem Corpus.corpusChar_of_mem (c : Corpus) {x : Char} (hx : x ∈ c.name) : corpusChar x = true := by
  have h := c.valid
  simp only [corpusNameValid, Bool.and_eq_true] at h
  exact List.all_eq_true.mp h.1.2 x hx

theorem Corpus.append_valid (c : Corpus) {suffix : Text} (hs : ∀ x ∈ suffix, corpusChar x = true)
    (hl : c.name.length + suffix.length ≤ 48) : corpusNameValid (c.name ++ suffix) = true := by
  have h := c.valid
  have hne := List.length_pos_iff.mp c.length_pos
  simp only [corpusNameValid, Bool.and_eq_true, Bool.not_eq_true', List.isEmpty_eq_false_iff,
    decide_eq_true_eq] at h ⊢
  refine ⟨⟨⟨by simp [hne], by simpa using hl⟩, ?_⟩, ?_⟩
  · rw [List.all_append, Bool.and_eq_true]
    exact ⟨h.1.2, List.all_eq_true.mpr hs⟩
  · rw [List.head?_append_of_ne_nil _ hne]
    exact h.2

def coreCorpus : Corpus := ⟨"core".toList, by decide⟩

end CorpusFeed
