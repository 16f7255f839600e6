import CorpusFeed.ChunkBuilders
import CorpusFeed.FirstDeepest

/-! Hierarchy paths of articles: the section version that a candidate list
gives, the path it stands for, and the article enriched with it. -/

namespace CorpusFeed

/-- A `SECTION_TA` row with the fields of its canonical record. -/
structure SectionTa where
  metadataKey : Text
  sourceUid : Option Text
  title : Text
  validFrom : Option Text
  validTo : Option Text
  hierarchyPath : List Text
deriving DecidableEq

structure TextStructLink where
  sourceTag : Text
  targetSourceUid : Option Text
  level : Option Int
  text : Option Text
  attributes : List GraphEdgeAttribute
deriving DecidableEq

/-- A `TEXTELR` row with its structure links. -/
structure TextStruct where
  metadataKey : Text
  sourceUid : Text
  structureLinks : List TextStructLink
deriving DecidableEq

/-- One row of the candidate query. A direct edge has rank 0, and a `TEXTELR`
pairing has rank 1 and carries the section links before it. -/
structure HierarchyCandidate where
  document : CanonicalDocument
  edgeAttributes : List GraphEdgeAttribute
  root : SectionTa
  textSectionLinks : Option (List TextStructLink)
  sourceRank : Nat
  tieBreaker : Text
deriving DecidableEq

def isIsoDate (value : Text) : Bool :=
  (value.zipIdx.all fun entry => if entry.2 = 4 ∨ entry.2 = 7 then entry.1 == '-' else entry.1.isDigit) &&
    value.length == 10

/-- The `debut` of the edge, or else the start of the article's validity. -/
def hierarchyBackfillAnchor (edgeAttributes : List GraphEdgeAttribute) (documentValidFrom : Option Text) : Option Text :=
  ((edgeAttributes.find? fun entry => entry.key == "debut".toList && isIsoDate entry.value).map
    GraphEdgeAttribute.value).or (documentValidFrom.filter isIsoDate)

def sectionValidityContains (anchor : Text) (validFrom validTo : Option Text) : Bool :=
  isIsoDate anchor && validFrom.all (fun date => isIsoDate date && decide (date ≤ anchor)) &&
    validTo.all (fun date => isIsoDate date && decide (anchor < date))

def HierarchyCandidate.containsAnchor (candidate : HierarchyCandidate) : Bool :=
  (hierarchyBackfillAnchor candidate.edgeAttributes (some candidate.document.validFrom)).any fun anchor =>
    sectionValidityContains anchor candidate.root.validFrom candidate.root.validTo

/-- The first candidate whose section is valid at its anchor, or else the first. -/
def selectHierarchyBackfillCandidate (candidates : List HierarchyCandidate) : Option HierarchyCandidate :=
  (candidates.find? HierarchyCandidate.containsAnchor).or candidates.head?

/-- The loop over the ordered candidates, which closes a group when the
document changes. -/
def selectHierarchyBackfillCandidates (current : List HierarchyCandidate) :
    List HierarchyCandidate → List HierarchyCandidate
  | [] => (selectHierarchyBackfillCandidate current).toList
  | candidate :: rest =>
    if current.head?.any fun first => first.document.documentId != candidate.document.documentId then
      (selectHierarchyBackfillCandidate current).toList ++ selectHierarchyBackfillCandidates [candidate] rest
    else selectHierarchyBackfillCandidates (current ++ [candidate]) rest

def sectionHierarchy (root : SectionTa) : List Text :=
  if root.hierarchyPath.getLast? = some root.title then root.hierarchyPath else root.hierarchyPath ++ [root.title]

def nonEmptyText (text : Option Text) : Option Text := (text.map trim).filter fun title => !title.isEmpty

/-- One link of the `TEXTELR` stack: its level cuts the stack back, and its
title is pushed unless it is on top already. -/
def pushLink (stack : List Text) (link : TextStructLink) : List Text :=
  match nonEmptyText link.text with
  | none => stack
  | some title =>
    let kept := match link.level.filter fun level => decide (0 < level) with
      | some level => stack.take (level.toNat - 1)
      | none => stack
    if kept.getLast? = some title then kept else kept ++ [title]

/-- The suffix without the longest part of it that ends the base. -/
def mergeHierarchyWithOverlap (base suffix : List Text) : List Text :=
  let overlap := ((List.range (min base.length suffix.length + 1)).reverse.find? fun overlap =>
    base.drop (base.length - overlap) == suffix.take overlap).getD 0
  base ++ suffix.drop overlap

def textStructHierarchy (root : SectionTa) (links : List TextStructLink) : Option (List Text) :=
  let stack := links.foldl pushLink []
  if stack = [] then none
  else
    let base := sectionHierarchy root
    some (mergeHierarchyWithOverlap (if base.getLast? = some root.title then base.dropLast else base) stack)

/-- The path that a candidate offers: a deeper `TEXTELR` branch wins over the
labels of the section. -/
def HierarchyCandidate.path (candidate : HierarchyCandidate) : List Text :=
  let sectionPath := sectionHierarchy candidate.root
  match candidate.textSectionLinks.bind (textStructHierarchy candidate.root) with
  | some textPath => if sectionPath.length < textPath.length then textPath else sectionPath
  | none => sectionPath

def contextualizedArticleBody (hierarchy : List Text) (title : Option Text) (body : Text) : Text :=
  contextualized (" > ".toList.intercalate (hierarchy ++ title.toList)) body

def CanonicalDocument.withHierarchy (document : CanonicalDocument) (hierarchy : List Text) : CanonicalDocument :=
  { document with
    hierarchyPath := hierarchy
    chunks := document.chunks.map fun chunk =>
      { chunk with
        hierarchyPath := hierarchy
        contextualizedBody := contextualizedArticleBody hierarchy document.title chunk.body } }

/-- `none` leaves the article as it is. -/
def enrichedArticleHierarchy (candidate : HierarchyCandidate) : Option CanonicalDocument :=
  let hierarchy := candidate.path
  let current := candidate.document.hierarchyPath
  if hierarchy = [] ∨ hierarchy = current ∨ hierarchy.length ≤ current.length then none
  else some (candidate.document.withHierarchy hierarchy)

section WithHierarchy

variable {document : CanonicalDocument} {hierarchy : List Text}

@[simp] theorem withHierarchy_documentId : (document.withHierarchy hierarchy).documentId = document.documentId := rfl

@[simp] theorem withHierarchy_hierarchyPath : (document.withHierarchy hierarchy).hierarchyPath = hierarchy := rfl

@[simp] theorem withHierarchy_sourceUid : (document.withHierarchy hierarchy).sourceUid = document.sourceUid := rfl

@[simp] theorem withHierarchy_validFrom : (document.withHierarchy hierarchy).validFrom = document.validFrom := rfl

@[simp] theorem withHierarchy_withHierarchy (other : List Text) :
    (document.withHierarchy hierarchy).withHierarchy other = document.withHierarchy other := by
  simp [CanonicalDocument.withHierarchy, Function.comp_def]

end WithHierarchy

/-- Only a strictly deeper path is taken, so the other two tests of the guard
never decide. -/
theorem enrichedArticleHierarchy_eq (candidate : HierarchyCandidate) :
    enrichedArticleHierarchy candidate =
      if candidate.document.hierarchyPath.length < candidate.path.length then
        some (candidate.document.withHierarchy candidate.path)
      else none := by
  unfold enrichedArticleHierarchy
  dsimp only
  by_cases hdeeper : candidate.document.hierarchyPath.length < candidate.path.length
  · have hne : candidate.path ≠ [] := by
      intro hnil
      simp [hnil] at hdeeper
    have hother : candidate.path ≠ candidate.document.hierarchyPath := by
      intro heq
      rw [heq] at hdeeper
      omega
    rw [if_pos hdeeper, if_neg]
    rintro (h | h | h)
    · exact hne h
    · exact hother h
    · omega
  · rw [if_neg hdeeper, if_pos]
    exact Or.inr (Or.inr (by omega))

/-- The article after its backfills: the deepest of the offered paths. -/
def CanonicalDocument.rebased (document : CanonicalDocument) (hierarchy : List Text) : CanonicalDocument :=
  if hierarchy = document.hierarchyPath then document else document.withHierarchy hierarchy

@[simp] theorem rebased_hierarchyPath (document : CanonicalDocument) (hierarchy : List Text) :
    (document.rebased hierarchy).hierarchyPath = hierarchy := by
  unfold CanonicalDocument.rebased
  split
  · next h => exact h.symm
  · rfl

theorem rebased_self (document : CanonicalDocument) : document.rebased document.hierarchyPath = document := if_pos rfl

end CorpusFeed
