import CorpusFeed.ArchiveFiles
import CorpusFeed.ArchivePlan

/-! The plan of a directory: which archive goes where, that nothing is dropped
or listed twice, and that the order of the paths does not matter. -/

namespace CorpusFeed.ArchiveFiles

section Lists

variable {α β γ κ : Type*}

theorem nodup_map_filterMap {f : α → Option κ} {g : α → Option β} {key : β → κ}
    (hkey : ∀ x y, g x = some y → f x = some (key y)) {xs : List α} (h : (xs.filterMap f).Nodup) :
    ((xs.filterMap g).map key).Nodup := by
  have hsub : ((xs.filterMap g).map key).Sublist (xs.filterMap f) := by
    induction xs with
    | nil => exact List.Sublist.refl _
    | cons x xs ih =>
      cases hg : g x with
      | none =>
        have hrest : (xs.filterMap f).Sublist ((x :: xs).filterMap f) :=
          (List.sublist_cons_self x xs).filterMap f
        rw [List.filterMap_cons_none hg]
        exact (ih (h.sublist hrest)).trans hrest
      | some y =>
        have hf := hkey x y hg
        rw [List.filterMap_cons_some hf] at h ⊢
        rw [List.filterMap_cons_some hg, List.map_cons]
        exact (ih (List.nodup_cons.mp h).2).cons_cons (key y)
  exact h.sublist hsub

/-- Elements that go to exactly one of two lists are split between them. -/
theorem filterMap_split {f : α → Option β} {g : α → Option γ} {key : α → κ} {fkey : β → κ} {gkey : γ → κ} {xs : List α}
    (h : ∀ x ∈ xs, (∃ y, f x = some y ∧ fkey y = key x ∧ g x = none) ∨
      (∃ z, g x = some z ∧ gkey z = key x ∧ f x = none)) :
    ((xs.filterMap f).map fkey ++ (xs.filterMap g).map gkey).Perm (xs.map key) := by
  induction xs with
  | nil => exact List.Perm.refl _
  | cons x xs ih =>
    have hrest := ih fun y hy => h y (List.mem_cons_of_mem x hy)
    rcases h x List.mem_cons_self with ⟨y, hf, hkey, hg⟩ | ⟨z, hg, hkey, hf⟩
    · rw [List.filterMap_cons_some hf, List.filterMap_cons_none hg, List.map_cons, List.map_cons, List.cons_append, hkey]
      exact hrest.cons _
    · rw [List.filterMap_cons_some hg, List.filterMap_cons_none hf, List.map_cons, List.map_cons, hkey]
      exact List.perm_middle.trans (hrest.cons _)

end Lists

variable {P : Type*}

/-- A loop that puts every element on one of the two lists, or on none. -/
theorem foldl_listing {α : Type*} {step : Listing P → α → Listing P} {f : α → Option (PlannedArchive P)}
    {g : α → Option (SkippedArchive P)}
    (hstep : ∀ listing x, step listing x = ⟨listing.archives ++ (f x).toList, listing.skipped ++ (g x).toList⟩)
    (xs : List α) (listing : Listing P) :
    xs.foldl step listing = ⟨listing.archives ++ xs.filterMap f, listing.skipped ++ xs.filterMap g⟩ := by
  induction xs generalizing listing with
  | nil => simp
  | cons x xs ih =>
    rw [List.foldl_cons, ih, hstep]
    cases hf : f x <;> cases hg : g x <;> simp [hf, hg]

section Plan

variable {digit : Char → Bool} {fileName : P → Option Text} {source : ArchiveSource}

variable (digit fileName source) in
def plannedOf (path : P) : Option (PlannedArchive P) :=
  match parsePath digit fileName source path with
  | .ok parsed => some ⟨parsed.source, parsed.kind, parsed.timestamp, parsed.fileName, path⟩
  | .error _ => none

variable (digit fileName source) in
def refusalOf (path : P) : Option (SkippedArchive P) :=
  match parsePath digit fileName source path with
  | .ok _ => none
  | .error (.unrecognized _ _) => some ⟨path, "unrecognized_filename".toList⟩
  | .error error => some ⟨path, error.toText⟩

def deltaOf (baseline archive : PlannedArchive P) : Option (PlannedArchive P) :=
  if archive.kind = .delta ∧ archive.newerThan baseline = true then some archive else none

def demotedOf (baseline archive : PlannedArchive P) : Option (SkippedArchive P) :=
  match archive.kind with
  | .baseline => if archive.fileName ≠ baseline.fileName then some ⟨archive.path, "older_baseline".toList⟩ else none
  | .delta =>
    if archive.newerThan baseline then none else some ⟨archive.path, "delta_not_after_selected_baseline".toList⟩

theorem recognize_eq (listing : Listing P) (path : P) :
    recognize digit fileName source listing path =
      ⟨listing.archives ++ (plannedOf digit fileName source path).toList,
        listing.skipped ++ (refusalOf digit fileName source path).toList⟩ := by
  unfold recognize plannedOf refusalOf
  cases parsePath digit fileName source path with
  | ok parsed => simp [Listing.plan]
  | error error => cases error <;> simp [Listing.skip]

theorem distribute_eq (baseline : PlannedArchive P) (listing : Listing P) (archive : PlannedArchive P) :
    distribute baseline listing archive =
      ⟨listing.archives ++ (deltaOf baseline archive).toList, listing.skipped ++ (demotedOf baseline archive).toList⟩ := by
  unfold distribute deltaOf demotedOf
  cases hkind : archive.kind with
  | baseline => by_cases hname : archive.fileName = baseline.fileName <;> simp [hname, Listing.skip]
  | delta => by_cases hnewer : archive.newerThan baseline = true <;> simp [hnewer, Listing.plan, Listing.skip]

theorem plannedOf_path {path : P} {archive : PlannedArchive P} (h : plannedOf digit fileName source path = some archive) :
    archive.path = path := by
  unfold plannedOf at h
  split at h
  · cases h
    rfl
  · cases h

theorem plannedOf_fileName {path : P} {archive : PlannedArchive P}
    (h : plannedOf digit fileName source path = some archive) : fileName path = some archive.fileName := by
  unfold plannedOf parsePath at h
  cases hname : fileName path with
  | none =>
    rw [hname] at h
    cases h
  | some name =>
    rw [hname] at h
    split at h
    · next parsed hparsed =>
      cases h
      exact congrArg some (parseFileName_fileName hparsed).symm
    · cases h

theorem refusalOf_path {path : P} {skipped : SkippedArchive P}
    (h : refusalOf digit fileName source path = some skipped) : skipped.path = path := by
  unfold refusalOf at h
  split at h <;> cases h <;> rfl

theorem refusalOf_eq_none {path : P} :
    refusalOf digit fileName source path = none ↔ ∃ archive, plannedOf digit fileName source path = some archive := by
  unfold refusalOf plannedOf
  cases parsePath digit fileName source path with
  | ok parsed => simp
  | error error => cases error <;> simp

theorem demotedOf_path {baseline archive : PlannedArchive P} {skipped : SkippedArchive P}
    (h : demotedOf baseline archive = some skipped) : skipped.path = archive.path := by
  unfold demotedOf at h
  split at h <;> split at h <;> cases h <;> rfl

theorem deltaOf_eq_some {baseline archive delta : PlannedArchive P} :
    deltaOf baseline archive = some delta ↔ archive = delta ∧ delta.kind = .delta ∧ delta.newerThan baseline = true := by
  unfold deltaOf
  constructor
  · intro h
    split at h
    · next hdelta =>
      cases h
      exact ⟨rfl, hdelta⟩
    · cases h
  · rintro ⟨rfl, hdelta⟩
    rw [if_pos hdelta]

/-- An archive other than the selected baseline is a delta of the plan or is
skipped. -/
theorem delta_or_demoted {baseline archive : PlannedArchive P}
    (hname : archive.fileName = baseline.fileName → archive.kind = .delta) :
    (deltaOf baseline archive = some archive ∧ demotedOf baseline archive = none) ∨
      (∃ skipped, demotedOf baseline archive = some skipped ∧ deltaOf baseline archive = none) := by
  unfold deltaOf demotedOf
  cases hkind : archive.kind with
  | baseline =>
    have hother : archive.fileName ≠ baseline.fileName := by
      intro heq
      rw [hname heq] at hkind
      cases hkind
    simp [hother]
  | delta => by_cases hnewer : archive.newerThan baseline = true <;> simp [hnewer]

section Recognized

variable (digit fileName source) in
/-- The archives of the directory, in order. -/
def recognizedOf (paths : List P) : List (PlannedArchive P) :=
  chronological.sort (paths.filterMap (plannedOf digit fileName source))

variable {paths : List P}

theorem mem_recognizedOf {archive : PlannedArchive P} :
    archive ∈ recognizedOf digit fileName source paths ↔
      archive.path ∈ paths ∧ plannedOf digit fileName source archive.path = some archive := by
  rw [recognizedOf, KeyOrder.mem_sort, List.mem_filterMap]
  constructor
  · rintro ⟨path, hpath, hplanned⟩
    have heq := plannedOf_path hplanned
    exact ⟨heq ▸ hpath, heq ▸ hplanned⟩
  · rintro ⟨hpath, hplanned⟩
    exact ⟨_, hpath, hplanned⟩

theorem recognized_names_nodup (hdistinct : (paths.filterMap fileName).Nodup) :
    ((recognizedOf digit fileName source paths).map PlannedArchive.fileName).Nodup := by
  have hnodup : ((paths.filterMap (plannedOf digit fileName source)).map PlannedArchive.fileName).Nodup :=
    nodup_map_filterMap (fun _ _ => plannedOf_fileName) hdistinct
  exact ((chronological.sort_perm _).map _).nodup_iff.mpr hnodup

theorem recognized_eq_of_fileName (hdistinct : (paths.filterMap fileName).Nodup) {a b : PlannedArchive P}
    (ha : a ∈ recognizedOf digit fileName source paths) (hb : b ∈ recognizedOf digit fileName source paths)
    (h : a.fileName = b.fileName) : a = b :=
  List.inj_on_of_nodup_map (recognized_names_nodup hdistinct) ha hb h

theorem tied_fileName {a b : PlannedArchive P} (h : chronological.Tied a b) : a.fileName = b.fileName :=
  KeyOrder.tied_text h.thenBy.2

theorem recognizedOf_congr {paths' : List P} (hdistinct : (paths.filterMap fileName).Nodup) (h : paths.Perm paths') :
    recognizedOf digit fileName source paths = recognizedOf digit fileName source paths' := by
  refine chronological.sort_congr (h.filterMap _) fun a ha b hb htied => ?_
  exact recognized_eq_of_fileName hdistinct (KeyOrder.mem_sort.mpr ha) (KeyOrder.mem_sort.mpr hb) (tied_fileName htied)

end Recognized

section Entries

variable {paths : List P}

/-- What a skipped entry of the plan says is fixed by its path. -/
def entryOf (digit : Char → Bool) (fileName : P → Option Text) (source : ArchiveSource) (baseline : PlannedArchive P)
    (path : P) : Option (SkippedArchive P) :=
  match plannedOf digit fileName source path with
  | some archive => demotedOf baseline archive
  | none => refusalOf digit fileName source path

def bySkippedPath [LinearOrder P] : KeyOrder (SkippedArchive P) := KeyOrder.natural.on SkippedArchive.path

variable (digit fileName source) in
def skippedOf (baseline : PlannedArchive P) (paths : List P) : List (SkippedArchive P) :=
  paths.filterMap (refusalOf digit fileName source) ++
    (recognizedOf digit fileName source paths).filterMap (demotedOf baseline)

theorem entryOf_of_mem {baseline : PlannedArchive P} {skipped : SkippedArchive P}
    (h : skipped ∈ skippedOf digit fileName source baseline paths) :
    entryOf digit fileName source baseline skipped.path = some skipped := by
  rcases List.mem_append.mp h with h | h
  · obtain ⟨path, _, hrefused⟩ := List.mem_filterMap.mp h
    have hpath := refusalOf_path hrefused
    have hnone : plannedOf digit fileName source path = none := by
      by_contra hsome
      obtain ⟨archive, harchive⟩ := Option.ne_none_iff_exists'.mp hsome
      rw [refusalOf_eq_none.mpr ⟨archive, harchive⟩] at hrefused
      cases hrefused
    simp [entryOf, hpath, hnone, hrefused]
  · obtain ⟨archive, hmem, hdemoted⟩ := List.mem_filterMap.mp h
    have hplanned := (mem_recognizedOf.mp hmem).2
    simp [entryOf, demotedOf_path hdemoted, hplanned, hdemoted]

/-- Every archive of the directory but the baseline is a delta or is skipped. -/
theorem recognized_split (hdistinct : (paths.filterMap fileName).Nodup) {baseline : PlannedArchive P}
    (hmem : baseline ∈ recognizedOf digit fileName source paths) (hkind : baseline.kind = .baseline) :
    (baseline.path :: (((recognizedOf digit fileName source paths).filterMap (deltaOf baseline)).map PlannedArchive.path ++
      ((recognizedOf digit fileName source paths).filterMap (demotedOf baseline)).map SkippedArchive.path)).Perm
      ((recognizedOf digit fileName source paths).map PlannedArchive.path) := by
  have hnames : ((recognizedOf digit fileName source paths).map PlannedArchive.fileName).Nodup :=
    recognized_names_nodup hdistinct
  obtain ⟨first, rest, heq⟩ := List.append_of_mem hmem
  rw [heq] at hnames ⊢
  have hothers : ∀ archive ∈ first ++ rest, archive.fileName ≠ baseline.fileName := by
    intro archive harchive hname
    rw [List.map_append, List.map_cons, List.nodup_middle, List.nodup_cons, ← List.map_append] at hnames
    exact hnames.1 (hname ▸ List.mem_map_of_mem harchive)
  have hdelta : deltaOf baseline baseline = none := by simp [deltaOf, hkind]
  have hdemoted : demotedOf baseline baseline = none := by simp [demotedOf, hkind]
  have hsplit : (((first ++ rest).filterMap (deltaOf baseline)).map PlannedArchive.path ++
      ((first ++ rest).filterMap (demotedOf baseline)).map SkippedArchive.path).Perm
      ((first ++ rest).map PlannedArchive.path) := filterMap_split fun archive harchive => by
    rcases delta_or_demoted fun hname => absurd hname (hothers archive harchive) with ⟨hd, hs⟩ | ⟨skipped, hs, hd⟩
    · exact Or.inl ⟨archive, hd, rfl, hs⟩
    · exact Or.inr ⟨skipped, hs, demotedOf_path hs, hd⟩
  have hmiddle : (first ++ baseline :: rest).Perm (baseline :: (first ++ rest)) := List.perm_middle
  have hdeltas : (first ++ baseline :: rest).filterMap (deltaOf baseline) = (first ++ rest).filterMap (deltaOf baseline) := by
    rw [List.filterMap_append, List.filterMap_cons_none hdelta, ← List.filterMap_append]
  have hskips : (first ++ baseline :: rest).filterMap (demotedOf baseline) =
      (first ++ rest).filterMap (demotedOf baseline) := by
    rw [List.filterMap_append, List.filterMap_cons_none hdemoted, ← List.filterMap_append]
  rw [hdeltas, hskips]
  exact (hsplit.cons _).trans (hmiddle.map _).symm

theorem recognized_or_refused :
    ((recognizedOf digit fileName source paths).map PlannedArchive.path ++
      (paths.filterMap (refusalOf digit fileName source)).map SkippedArchive.path).Perm paths := by
  have hsorted : ((recognizedOf digit fileName source paths).map PlannedArchive.path).Perm
      ((paths.filterMap (plannedOf digit fileName source)).map PlannedArchive.path) :=
    (chronological.sort_perm _).map _
  have hsplit : ((paths.filterMap (plannedOf digit fileName source)).map PlannedArchive.path ++
      (paths.filterMap (refusalOf digit fileName source)).map SkippedArchive.path).Perm (paths.map id) := by
    refine filterMap_split fun path _ => ?_
    cases hplanned : plannedOf digit fileName source path with
    | some archive => exact Or.inl ⟨archive, rfl, plannedOf_path hplanned, refusalOf_eq_none.mpr ⟨archive, hplanned⟩⟩
    | none =>
      cases hrefused : refusalOf digit fileName source path with
      | some skipped => exact Or.inr ⟨skipped, rfl, refusalOf_path hrefused, rfl⟩
      | none =>
        obtain ⟨archive, harchive⟩ := refusalOf_eq_none.mp hrefused
        rw [hplanned] at harchive
        cases harchive
  rw [List.map_id] at hsplit
  exact (hsorted.append_right _).trans hsplit

theorem mem_deltasOf {baseline archive : PlannedArchive P} :
    archive ∈ chronological.sort ((recognizedOf digit fileName source paths).filterMap (deltaOf baseline)) ↔
      archive ∈ recognizedOf digit fileName source paths ∧ archive.kind = .delta ∧ archive.newerThan baseline = true := by
  simp only [KeyOrder.mem_sort, List.mem_filterMap, deltaOf_eq_some]
  constructor
  · rintro ⟨_, hin, rfl, hdelta⟩
    exact ⟨hin, hdelta⟩
  · rintro ⟨hin, hdelta⟩
    exact ⟨archive, hin, rfl, hdelta⟩

theorem deltasOf_strict (hdistinct : (paths.filterMap fileName).Nodup) {baseline : PlannedArchive P} :
    (chronological.sort ((recognizedOf digit fileName source paths).filterMap (deltaOf baseline))).Pairwise
      fun a b => chronological.before a b = true := by
  have hrecognized : (recognizedOf digit fileName source paths).Nodup := (recognized_names_nodup hdistinct).of_map
  have hdeltas : ((recognizedOf digit fileName source paths).filterMap (deltaOf baseline)).Nodup := by
    refine hrecognized.filterMap fun a b c ha hb => ?_
    exact (deltaOf_eq_some.mp ha).1.trans (deltaOf_eq_some.mp hb).1.symm
  have hnodup := (chronological.sort_perm _).nodup_iff.mpr hdeltas
  refine List.Pairwise.imp_of_mem ?_ ((chronological.sort_pairwise _).and hnodup)
  rintro a b ha hb ⟨hle, hne⟩
  have hnot : chronological.le b a ≠ true := by
    intro hge
    have hname : a.fileName = b.fileName := tied_fileName ⟨hle, hge⟩
    exact hne (recognized_eq_of_fileName hdistinct (mem_deltasOf.mp ha).1 (mem_deltasOf.mp hb).1 hname)
  simp [KeyOrder.before, hle, hnot]

end Entries

section Exact

variable [LinearOrder P] {paths : List P}

theorem planFromPaths_eq (paths : List P) :
    planFromPaths digit fileName source paths =
      match chronological.max ((recognizedOf digit fileName source paths).filter isBaselineArchive) with
      | none => .error (.missingBaseline source)
      | some baseline => .ok
        { source := source
          baseline := baseline
          deltas := chronological.sort ((recognizedOf digit fileName source paths).filterMap (deltaOf baseline))
          skipped := bySkippedPath.sort (skippedOf digit fileName source baseline paths) } := by
  unfold planFromPaths
  rw [foldl_listing recognize_eq]
  simp only [List.nil_append]
  rw [← recognizedOf]
  cases chronological.max ((recognizedOf digit fileName source paths).filter isBaselineArchive) with
  | none => rfl
  | some baseline =>
    simp only [foldl_listing (distribute_eq baseline), List.nil_append]
    rfl

/-- What the plan of a list of paths is. -/
structure PlanExact (digit : Char → Bool) (fileName : P → Option Text) (source : ArchiveSource) (paths : List P)
    (plan : ArchivePlan P) : Prop where
  split : (plan.baseline.path :: (plan.deltas.map PlannedArchive.path ++ plan.skipped.map SkippedArchive.path)).Perm paths
  baseline_read : plannedOf digit fileName source plan.baseline.path = some plan.baseline
  baseline_kind : plan.baseline.kind = .baseline
  baseline_newest : ∀ path ∈ paths, ∀ archive, plannedOf digit fileName source path = some archive →
    archive.kind = .baseline → chronological.le archive plan.baseline = true
  mem_deltas : ∀ archive, archive ∈ plan.deltas ↔
    archive.path ∈ paths ∧ plannedOf digit fileName source archive.path = some archive ∧ archive.kind = .delta ∧
      archive.newerThan plan.baseline = true
  deltas_sorted : plan.deltas.Pairwise fun a b => chronological.before a b = true
  skipped_entry : ∀ skipped ∈ plan.skipped,
    entryOf digit fileName source plan.baseline skipped.path = some skipped
  skipped_sorted : plan.skipped.Pairwise fun a b => a.path ≤ b.path

theorem planFromPaths_isOk {path : P} {archive : PlannedArchive P} (hpath : path ∈ paths)
    (hplanned : plannedOf digit fileName source path = some archive) (hkind : archive.kind = .baseline) :
    ∃ plan, planFromPaths digit fileName source paths = .ok plan := by
  have hmem : archive ∈ (recognizedOf digit fileName source paths).filter isBaselineArchive := by
    have heq := plannedOf_path hplanned
    have hrecognized := mem_recognizedOf.mpr ⟨heq ▸ hpath, heq ▸ hplanned⟩
    exact List.mem_filter.mpr ⟨hrecognized, by simp [isBaselineArchive, hkind]⟩
  obtain ⟨baseline, hbaseline⟩ := chronological.max_isSome hmem
  rw [planFromPaths_eq, hbaseline]
  exact ⟨_, rfl⟩

theorem planFromPaths_perm {paths' : List P} (hdistinct : (paths.filterMap fileName).Nodup) (h : paths.Perm paths') :
    planFromPaths digit fileName source paths = planFromPaths digit fileName source paths' := by
  have hrecognized : recognizedOf digit fileName source paths = recognizedOf digit fileName source paths' :=
    recognizedOf_congr hdistinct h
  rw [planFromPaths_eq, planFromPaths_eq, ← hrecognized]
  cases chronological.max ((recognizedOf digit fileName source paths).filter isBaselineArchive) with
  | none => rfl
  | some baseline =>
    have hskipped : (skippedOf digit fileName source baseline paths).Perm
        (skippedOf digit fileName source baseline paths') := by
      rw [skippedOf, skippedOf, ← hrecognized]
      exact (h.filterMap _).append_right _
    have hsort := bySkippedPath.sort_congr hskipped fun a ha b hb htied => by
      have hpath : a.path = b.path := le_antisymm (by simpa [bySkippedPath, KeyOrder.on, KeyOrder.natural] using htied.1)
        (by simpa [bySkippedPath, KeyOrder.on, KeyOrder.natural] using htied.2)
      have hentry := entryOf_of_mem ha
      rw [hpath, entryOf_of_mem hb] at hentry
      exact (Option.some.inj hentry).symm
    simp only [hsort]

theorem planFromPaths_exact (hdistinct : (paths.filterMap fileName).Nodup) {plan : ArchivePlan P}
    (h : planFromPaths digit fileName source paths = .ok plan) : PlanExact digit fileName source paths plan := by
  rw [planFromPaths_eq] at h
  split at h
  · cases h
  next baseline hmax =>
  cases h
  obtain ⟨hmem, hnewest⟩ := KeyOrder.max_eq_some hmax
  have hrecognized := (List.mem_filter.mp hmem).1
  have hkind : baseline.kind = .baseline := by simpa [isBaselineArchive] using (List.mem_filter.mp hmem).2
  constructor
  · have hskipped := (bySkippedPath.sort_perm (skippedOf digit fileName source baseline paths)).map SkippedArchive.path
    have hdeltas := (chronological.sort_perm
      ((recognizedOf digit fileName source paths).filterMap (deltaOf baseline))).map PlannedArchive.path
    rw [skippedOf, List.map_append] at hskipped
    refine ((hdeltas.append (hskipped.trans List.perm_append_comm)).cons _).trans ?_
    rw [← List.append_assoc, ← List.cons_append]
    exact ((recognized_split hdistinct hrecognized hkind).append_right _).trans recognized_or_refused
  · exact (mem_recognizedOf.mp hrecognized).2
  · exact hkind
  · intro path hpath archive hplanned hbaseline
    have heq := plannedOf_path hplanned
    have hin := mem_recognizedOf.mpr ⟨heq ▸ hpath, heq ▸ hplanned⟩
    exact hnewest archive (List.mem_filter.mpr ⟨hin, by simp [isBaselineArchive, hbaseline]⟩)
  · intro archive
    rw [mem_deltasOf, mem_recognizedOf, and_assoc]
  · exact deltasOf_strict hdistinct
  · intro skipped hskipped
    exact entryOf_of_mem (KeyOrder.mem_sort.mp hskipped)
  · exact (bySkippedPath.sort_pairwise _).imp fun hle => by
      simpa [bySkippedPath, KeyOrder.on, KeyOrder.natural] using hle

end Exact

/-- The deltas from a moment on are the last of the plan. -/
theorem since_suffix {plan : ArchivePlan P} (hsorted : plan.deltas.Pairwise fun a b => chronological.before a b = true)
    (since : Option Text) :
    plan.deltas.filter (fun delta => !passesSince since delta) ++ selectArchivesToProcess plan ⟨true, since⟩ =
      plan.deltas := by
  have hle : plan.deltas.Pairwise fun a b => chronological.le a b = true :=
    hsorted.imp fun h => (Bool.and_eq_true_iff.mp h).1
  refine KeyOrder.filter_suffix hle fun a b hab hpass => ?_
  cases since with
  | none => rfl
  | some since =>
    have hstamp : codePointCollation.le a.timestamp.compact b.timestamp.compact = true := (Bool.and_eq_true_iff.mp hab).1
    exact codePointCollation.trans _ _ _ hpass hstamp

section Refinement

/-- The archive as the plan over timestamps sees it. -/
def PlannedArchive.toArchive (archive : PlannedArchive P) : Archive := ⟨archive.kind, archive.timestamp.value⟩

variable (digit fileName source) in
def mirrorOf (paths : List P) : List Archive :=
  (paths.filterMap (plannedOf digit fileName source)).map PlannedArchive.toArchive

theorem newerThan_iff {archive baseline : PlannedArchive P} :
    archive.newerThan baseline = true ↔ baseline.toArchive.timestamp < archive.toArchive.timestamp := by
  rw [PlannedArchive.newerThan, Collation.lt_iff, ArchiveTimestamp.le_iff]
  exact Nat.not_le

theorem map_deltaOf {baseline : PlannedArchive P} (archives : List (PlannedArchive P)) :
    (archives.filterMap (deltaOf baseline)).map PlannedArchive.toArchive =
      (archives.map PlannedArchive.toArchive).filter (isDeltaAfter baseline.toArchive.timestamp) := by
  induction archives with
  | nil => rfl
  | cons archive archives ih =>
    by_cases hdelta : archive.kind = .delta ∧ archive.newerThan baseline = true
    · have hafter : isDeltaAfter baseline.toArchive.timestamp archive.toArchive = true :=
        Bool.and_eq_true_iff.mpr ⟨decide_eq_true hdelta.1, decide_eq_true (newerThan_iff.mp hdelta.2)⟩
      have hof : deltaOf baseline archive = some archive := if_pos hdelta
      rw [List.filterMap_cons_some hof, List.map_cons, List.map_cons, List.filter_cons_of_pos hafter, ih]
    · have hafter : ¬ isDeltaAfter baseline.toArchive.timestamp archive.toArchive = true := by
        intro hafter
        obtain ⟨hkind, hnewer⟩ := Bool.and_eq_true_iff.mp hafter
        exact hdelta ⟨of_decide_eq_true hkind, newerThan_iff.mpr (of_decide_eq_true hnewer)⟩
      have hof : deltaOf baseline archive = none := if_neg hdelta
      rw [List.filterMap_cons_none hof, List.map_cons, List.filter_cons_of_neg hafter, ih]

variable [LinearOrder P] {paths : List P}

theorem planFromPaths_deltas {plan : ArchivePlan P} (h : planFromPaths digit fileName source paths = .ok plan) :
    plan.deltas = chronological.sort ((recognizedOf digit fileName source paths).filterMap (deltaOf plan.baseline)) := by
  rw [planFromPaths_eq] at h
  split at h
  · cases h
  · cases h
    rfl

/-- The plan over the files is the plan over their kinds and timestamps. -/
theorem planFromPaths_refines (hdistinct : (paths.filterMap fileName).Nodup) {plan : ArchivePlan P}
    (h : planFromPaths digit fileName source paths = .ok plan) :
    ∃ abstract, CorpusFeed.planFromPaths (mirrorOf digit fileName source paths) = some abstract ∧
      abstract.baseline = plan.baseline.toArchive ∧ abstract.deltas = plan.deltas.map PlannedArchive.toArchive := by
  have hexact := planFromPaths_exact hdistinct h
  have hmem : ∀ archive, archive ∈ mirrorOf digit fileName source paths ↔
      ∃ path ∈ paths, ∃ planned, plannedOf digit fileName source path = some planned ∧ planned.toArchive = archive := by
    intro archive
    simp only [mirrorOf, List.mem_map, List.mem_filterMap]
    constructor
    · rintro ⟨planned, ⟨path, hpath, hplanned⟩, heq⟩
      exact ⟨path, hpath, planned, hplanned, heq⟩
    · rintro ⟨path, hpath, planned, hplanned, heq⟩
      exact ⟨planned, ⟨path, hpath, hplanned⟩, heq⟩
  have hbaseline : plan.baseline.toArchive ∈ mirrorOf digit fileName source paths :=
    (hmem _).mpr ⟨_, hexact.split.mem_iff.mp List.mem_cons_self, _, hexact.baseline_read, rfl⟩
  obtain ⟨abstract, habstract⟩ := planFromPaths_isSome hbaseline hexact.baseline_kind
  have hof := planFromPaths_cases habstract
  have hsame : abstract.baseline = plan.baseline.toArchive := by
    obtain ⟨path, hpath, planned, hplanned, heq⟩ := (hmem _).mp hof.baseline_mem
    have hkind : planned.kind = .baseline := (congrArg Archive.kind heq).trans hof.baseline_kind
    have hle := hexact.baseline_newest path hpath planned hplanned hkind
    have hstamp : planned.timestamp.value ≤ plan.baseline.timestamp.value :=
      ArchiveTimestamp.le_iff.mp (Bool.and_eq_true_iff.mp hle).1
    have hge : plan.baseline.timestamp.value ≤ abstract.baseline.timestamp :=
      hof.baseline_newest _ hbaseline hexact.baseline_kind
    have heqStamp : planned.timestamp.value = abstract.baseline.timestamp := congrArg Archive.timestamp heq
    have hvalue : abstract.baseline.timestamp = plan.baseline.timestamp.value := by omega
    calc abstract.baseline = ⟨abstract.baseline.kind, abstract.baseline.timestamp⟩ := rfl
      _ = ⟨plan.baseline.kind, plan.baseline.timestamp.value⟩ := by rw [hof.baseline_kind, hexact.baseline_kind, hvalue]
  refine ⟨abstract, habstract, hsame, ?_⟩
  -- both lists hold the deltas after the baseline, by timestamp
  have hperm : abstract.deltas.Perm (plan.deltas.map PlannedArchive.toArchive) := by
    refine (CorpusFeed.planFromPaths_deltas habstract).trans ?_
    rw [hsame, planFromPaths_deltas h, mirrorOf, ← map_deltaOf]
    have hsorted := (chronological.sort_perm (paths.filterMap (plannedOf digit fileName source))).symm
    exact ((hsorted.filterMap _).trans (chronological.sort_perm _).symm).map _
  have hsorted : (plan.deltas.map PlannedArchive.toArchive).Pairwise fun a b => a.timestamp ≤ b.timestamp := by
    refine List.pairwise_map.mpr (hexact.deltas_sorted.imp fun hbefore => ?_)
    have hle := (Bool.and_eq_true_iff.mp hbefore).1
    exact ArchiveTimestamp.le_iff.mp (Bool.and_eq_true_iff.mp hle).1
  refine hperm.eq_of_pairwise (fun a b ha hb hab hba => ?_) hof.deltas_sorted hsorted
  have hdelta : a.kind = .delta := ((hof.mem_deltas a).mp ha).2.1
  have hdelta' : b.kind = .delta := ((hof.mem_deltas b).mp (hperm.mem_iff.mpr hb)).2.1
  have hstamp : a.timestamp = b.timestamp := Nat.le_antisymm hab hba
  calc a = ⟨a.kind, a.timestamp⟩ := rfl
    _ = ⟨b.kind, b.timestamp⟩ := by rw [hdelta, hdelta', hstamp]

end Refinement

end Plan

section Planned

variable [LinearOrder P] {digit : Char → Bool} {fileName : P → Option Text} {source : ArchiveSource} {paths : List P}

/-- A directory with a baseline and with distinct names is split into the newest
baseline, the deltas after it and the skipped files, whatever the order of its
listing, and a moment cuts the deltas in two. -/
theorem directory_planned (hdistinct : (paths.filterMap fileName).Nodup)
    (hbaseline : ∃ path ∈ paths, ∃ archive, plannedOf digit fileName source path = some archive ∧
      archive.kind = .baseline) :
    ∃ plan, planFromPaths digit fileName source paths = .ok plan ∧ PlanExact digit fileName source paths plan ∧
      (∀ paths', paths.Perm paths' → planFromPaths digit fileName source paths' = .ok plan) ∧
      ∀ since : Option Text,
        (∃ older, plan.deltas = older ++ selectArchivesToProcess plan ⟨true, since⟩ ∧
          ∀ delta ∈ older, passesSince since delta = false) ∧
        (∀ delta ∈ selectArchivesToProcess plan ⟨true, since⟩, passesSince since delta = true) ∧
        selectArchivesToProcess plan ⟨false, since⟩ = plan.baseline :: selectArchivesToProcess plan ⟨true, since⟩ := by
  obtain ⟨path, hpath, archive, hplanned, hkind⟩ := hbaseline
  obtain ⟨plan, hplan⟩ := planFromPaths_isOk hpath hplanned hkind
  have hexact := planFromPaths_exact hdistinct hplan
  refine ⟨plan, hplan, hexact, fun paths' hperm => ?_, fun since => ⟨⟨_, (since_suffix hexact.deltas_sorted since).symm, ?_⟩, ?_, rfl⟩⟩
  · rw [← planFromPaths_perm hdistinct hperm]
    exact hplan
  · intro delta hdelta
    simpa using (List.mem_filter.mp hdelta).2
  · intro delta hdelta
    exact (List.mem_filter.mp hdelta).2

/-- The files of a directory in the order of their paths. -/
def legiDirectory : List Text :=
  ["Freemium_legi_global_20250713-140000.tar.gz".toList, "LEGI_20250712-000000.tar.gz".toList,
    "LEGI_20250714-000000.tar.gz".toList, "LEGI_20250715-060000.tar.gz".toList, "notes.txt".toList]

theorem legi_directory_planned :
    ∃ plan, planFromPaths Char.isDigit (legiDirectory[·]?) .legi [3, 4, 0, 1, 2] = .ok plan ∧
      PlanExact Char.isDigit (legiDirectory[·]?) .legi [3, 4, 0, 1, 2] plan := by
  have hbaseline : ∃ path ∈ [3, 4, 0, 1, 2], ∃ archive,
      plannedOf Char.isDigit (legiDirectory[·]?) .legi path = some archive ∧ archive.kind = .baseline :=
    ⟨0, by decide, _, rfl, rfl⟩
  obtain ⟨plan, hplan, hexact, _⟩ := directory_planned (by decide) hbaseline
  exact ⟨plan, hplan, hexact⟩

end Planned

end CorpusFeed.ArchiveFiles
