import CorpusFeed.ZoneUnitPass

/-! The keyset of a pass: each page lies after the one before it, so a pass visits
its decisions in increasing order and runs out of them. -/

namespace CorpusFeed

open ZoneSetup

namespace ZoneSystem

variable {setup : ZoneSetup} {s : ZoneSystem} {pass : ZonePass} {actions : List ZoneAction}

/-- The documents after the cursor of a pass. -/
def documentsAfter (setup : ZoneSetup) (cursor : Option Text) : List ZonedDocument :=
  setup.documents.rows.filter fun document => cursor.all fun key => setup.collation.lt key document.documentId

theorem mem_documentsAfter {cursor : Option Text} {document : ZonedDocument} :
    document ∈ documentsAfter setup cursor ↔
      document ∈ setup.documents ∧ ∀ key ∈ cursor, setup.collation.lt key document.documentId = true := by
  rw [documentsAfter, List.mem_filter, Option.all_eq_true]
  exact Iff.rfl

theorem documentsAfter_nodup (cursor : Option Text) :
    ((documentsAfter setup cursor).map ZonedDocument.documentId).Nodup :=
  (List.Sublist.map _ List.filter_sublist).nodup setup.documents.nodup

theorem page_document {builderVersion : Text} {rebuild : Bool} {cursor : Option Text} {limit : Nat}
    {candidate : ZoneCandidate}
    (hc : candidate ∈ setup.loadDerivableDecisionZones s.store builderVersion rebuild cursor limit) :
    candidate.documentId ∈ (documentsAfter setup cursor).map ZonedDocument.documentId := by
  obtain ⟨row, _, hselected, rfl⟩ := mem_load hc
  obtain ⟨document, hfind⟩ := Option.isSome_iff_exists.mp (eligible_document (selected_eligible hselected))
  obtain ⟨hd, hid⟩ := Table.find?_eq_some.mp hfind
  refine List.mem_map.mpr ⟨document, mem_documentsAfter.mpr ⟨hd, ?_⟩, hid⟩
  rw [hid]
  exact selected_after hselected

/-- A page uses up as many documents as it has candidates. -/
theorem documentsAfter_page {builderVersion : Text} {rebuild : Bool} {cursor : Option Text} {limit : Nat}
    {last : ZoneCandidate}
    (hlast : (setup.loadDerivableDecisionZones s.store builderVersion rebuild cursor limit).getLast? = some last) :
    (documentsAfter setup (some last.documentId)).length +
        (setup.loadDerivableDecisionZones s.store builderVersion rebuild cursor limit).length ≤
      (documentsAfter setup cursor).length := by
  have hbound : ∀ candidate ∈ setup.loadDerivableDecisionZones s.store builderVersion rebuild cursor limit,
      setup.collation.le candidate.documentId last.documentId = true := fun candidate hc => load_le_last hc hlast
  have hpage : ∀ candidate ∈ setup.loadDerivableDecisionZones s.store builderVersion rebuild cursor limit,
      candidate.documentId ∈ (documentsAfter setup cursor).map ZonedDocument.documentId := fun _ => page_document
  have hsorted := @load_sorted setup s.store builderVersion rebuild cursor limit
  generalize setup.loadDerivableDecisionZones s.store builderVersion rebuild cursor limit = page at *
  have hlastmem : last ∈ page := List.mem_of_getLast? hlast
  have hafter : ∀ key ∈ cursor, setup.collation.lt key last.documentId = true := by
    obtain ⟨document, hd, hid⟩ := List.mem_map.mp (hpage last hlastmem)
    exact hid ▸ (mem_documentsAfter.mp hd).2
  have hids : (page.map ZoneCandidate.documentId).Nodup := by
    rw [List.Nodup, List.pairwise_map]
    refine hsorted.imp fun {a b} hlt heq => ?_
    rw [heq, Collation.lt_irrefl] at hlt
    cases hlt
  have hdisjoint : ((documentsAfter setup (some last.documentId)).map ZonedDocument.documentId).Disjoint
      (page.map ZoneCandidate.documentId) := by
    rw [List.disjoint_left]
    intro id hid hid'
    obtain ⟨document, hd, rfl⟩ := List.mem_map.mp hid
    obtain ⟨candidate, hc, heq⟩ := List.mem_map.mp hid'
    have hlt := (mem_documentsAfter.mp hd).2 last.documentId rfl
    rw [← heq] at hlt
    exact Collation.lt_iff.mp hlt (hbound candidate hc)
  have hsubset : (documentsAfter setup (some last.documentId)).map ZonedDocument.documentId ++
      page.map ZoneCandidate.documentId ⊆ (documentsAfter setup cursor).map ZonedDocument.documentId := by
    intro id hid
    rcases List.mem_append.mp hid with hid | hid
    · obtain ⟨document, hd, rfl⟩ := List.mem_map.mp hid
      obtain ⟨hdocument, hlt⟩ := mem_documentsAfter.mp hd
      refine List.mem_map_of_mem (mem_documentsAfter.mpr ⟨hdocument, fun key hk => ?_⟩)
      exact Collation.lt_of_lt_of_le (hafter key hk) (Collation.le_of_lt (hlt _ rfl))
    · obtain ⟨candidate, hc, rfl⟩ := List.mem_map.mp hid
      exact hpage candidate hc
  have hnodup := List.nodup_append'.mpr ⟨documentsAfter_nodup (some last.documentId), hids, hdisjoint⟩
  have hlength := (List.subperm_of_subset hnodup hsubset).length_le
  simpa using hlength

/-- Bounds the steps that a pass still takes. -/
def remaining (setup : ZoneSetup) (pass : ZonePass) : Nat :=
  pass.pending.length + 2 * (documentsAfter setup pass.cursor).length + 1

theorem passStep_remaining (hpass : s.pass = some pass) : (s.passStep setup).pass = none ∨
    ∃ next, (s.passStep setup).pass = some next ∧ remaining setup next < remaining setup pass := by
  unfold passStep
  rw [hpass]
  cases hpending : pass.pending with
  | cons candidate rest =>
    simp only [hpending, deriveCandidate]
    by_cases hempty : candidate.documentId.isEmpty = true
    · rw [if_pos hempty]
      exact Or.inr ⟨_, rfl, by simp [remaining, hpending]⟩
    · rw [if_neg hempty]
      split
      · exact Or.inl rfl
      · refine Or.inr ⟨_, rfl, ?_⟩
        dsimp only [remaining]
        rw [hpending]
        split <;> simp
  | nil =>
    simp only [hpending, loadPage]
    split
    · exact Or.inl rfl
    next limit _ =>
    split
    · exact Or.inl rfl
    next last hlast =>
    have hpage := documentsAfter_page hlast
    have hne : 0 < (setup.loadDerivableDecisionZones s.store zoneUnitBuilderVersion pass.rebuild pass.cursor limit).length :=
      List.length_pos_of_mem (List.mem_of_getLast? hlast)
    refine Or.inr ⟨_, rfl, ?_⟩
    simp only [remaining, hpending, List.length_nil]
    omega

theorem step_pass {a : ZoneAction} (ha : a.isPassStep = false) (hbegin : a.isBegin = false) :
    (s.step setup a).pass = s.pass := by
  cases a with
  | upsert row emit =>
    simp only [step]
    split <;> rfl
  | elapse seconds => rfl
  | beginPass rebuild limit => simp [ZoneAction.isBegin] at hbegin
  | passStep => simp [ZoneAction.isPassStep] at ha

theorem idle_pass (hbegin : ∀ a ∈ actions, a.isBegin = false) (hnone : s.pass = none) :
    (runFrom (step setup) s actions).pass = none ∧ visits setup s actions = [] := by
  induction actions generalizing s with
  | nil => exact ⟨hnone, rfl⟩
  | cons a actions ih =>
    have hstep : (s.step setup a).pass = none := by
      by_cases ha : a.isPassStep = true
      · cases a <;> simp_all [ZoneAction.isPassStep, step, passStep]
      · rw [step_pass (by simpa using ha) (hbegin a List.mem_cons_self)]
        exact hnone
    have hvisit : s.visit a = none := by
      cases a <;> simp [visit, hnone]
    obtain ⟨hrun, hvisits⟩ := ih (fun b hb => hbegin b (List.mem_cons_of_mem a hb)) hstep
    exact ⟨hrun, by simp [visits, hvisit, hvisits]⟩

/-- Whatever else happens, a pass ends after as many steps as it may take. -/
theorem pass_ends (hbegin : ∀ a ∈ actions, a.isBegin = false) (hpass : s.pass = some pass)
    (hcount : remaining setup pass ≤ actions.countP ZoneAction.isPassStep) :
    (runFrom (step setup) s actions).pass = none := by
  induction actions generalizing s pass with
  | nil => simp [remaining] at hcount
  | cons a actions ih =>
    have hrest : ∀ b ∈ actions, b.isBegin = false := fun b hb => hbegin b (List.mem_cons_of_mem a hb)
    by_cases ha : a.isPassStep = true
    · rw [List.countP_cons_of_pos ha] at hcount
      have hstep : s.step setup a = s.passStep setup := by
        cases a <;> simp_all [ZoneAction.isPassStep, step]
      rw [runFrom_cons, hstep]
      rcases @passStep_remaining setup s pass hpass with hnone | ⟨next, hnext, hlt⟩
      · exact (idle_pass hrest hnone).1
      · exact ih hrest hnext (by omega)
    · rw [List.countP_cons_of_neg ha] at hcount
      have hstep := @step_pass setup s a (by simpa using ha) (hbegin a List.mem_cons_self)
      exact ih hrest (hstep.trans hpass) hcount

/-- The candidates of a page are in order, and not after its last key. -/
structure Keyset (setup : ZoneSetup) (pass : ZonePass) : Prop where
  sorted : pass.pending.Pairwise fun a b => setup.collation.lt a.documentId b.documentId = true
  bounded : ∀ candidate ∈ pass.pending, ∃ key, pass.cursor = some key ∧
    setup.collation.le candidate.documentId key = true

/-- The decisions that are still to come are pending, or after the cursor. -/
def Ahead (setup : ZoneSetup) (pass : ZonePass) (documentId : Text) : Prop :=
  documentId ∈ pass.pending.map ZoneCandidate.documentId ∨ ∀ key ∈ pass.cursor, setup.collation.lt key documentId = true

theorem passStep_keyset (hpass : s.pass = some pass) (hkeyset : Keyset setup pass) {next : ZonePass}
    (hnext : (s.passStep setup).pass = some next) : Keyset setup next ∧
      (∀ id, Ahead setup next id → Ahead setup pass id) ∧
      ∀ id, s.visit .passStep = some id → ∀ later, Ahead setup next later → setup.collation.lt id later = true := by
  have hvisit : s.visit .passStep = pass.pending.head?.map ZoneCandidate.documentId := by simp [visit, hpass]
  have hrest : ∀ candidate rest tail, pass.pending = candidate :: rest → tail <:+ rest → ∀ next : ZonePass,
      next.pending = tail → next.cursor = pass.cursor → Keyset setup next ∧
      (∀ id, Ahead setup next id → Ahead setup pass id) ∧
      ∀ id, s.visit .passStep = some id → ∀ later, Ahead setup next later → setup.collation.lt id later = true := by
    intro candidate rest tail hpending htail next hnext hcursor
    have hsorted := hkeyset.sorted
    rw [hpending] at hsorted
    obtain ⟨hfirst, hsorted⟩ := List.pairwise_cons.mp hsorted
    have htailmem : ∀ c ∈ tail, c ∈ pass.pending := fun c hc =>
      hpending ▸ List.mem_cons_of_mem candidate (htail.subset hc)
    refine ⟨⟨hnext ▸ hsorted.sublist htail.sublist, ?_⟩, ?_, ?_⟩
    · rw [hnext, hcursor]
      exact fun c hc => hkeyset.bounded c (htailmem c hc)
    · rintro id (hid | hid)
      · rw [hnext] at hid
        obtain ⟨c, hc, rfl⟩ := List.mem_map.mp hid
        exact Or.inl (List.mem_map_of_mem (htailmem c hc))
      · exact Or.inr (hcursor ▸ hid)
    · intro id hid later hlater
      rw [hvisit, hpending] at hid
      obtain rfl : candidate.documentId = id := by simpa using hid
      rcases hlater with hlater | hlater
      · rw [hnext] at hlater
        obtain ⟨c, hc, rfl⟩ := List.mem_map.mp hlater
        exact hfirst c (htail.subset hc)
      · rw [hcursor] at hlater
        obtain ⟨key, hkey, hle⟩ := hkeyset.bounded candidate (hpending ▸ List.mem_cons_self)
        exact Collation.lt_of_le_of_lt hle (hlater key hkey)
  unfold passStep at hnext
  rw [hpass] at hnext
  cases hpending : pass.pending with
  | cons candidate rest =>
    simp only [hpending, deriveCandidate] at hnext
    split at hnext
    · obtain rfl := Option.some.inj hnext
      exact hrest candidate rest rest hpending List.suffix_rfl _ rfl rfl
    split at hnext
    · cases hnext
    next store _ =>
    obtain rfl := Option.some.inj hnext
    split
    · exact hrest candidate rest [] hpending List.nil_suffix _ rfl rfl
    · exact hrest candidate rest rest hpending List.suffix_rfl _ rfl rfl
  | nil =>
    simp only [hpending, loadPage] at hnext
    split at hnext
    · cases hnext
    next limit _ =>
    split at hnext
    · cases hnext
    next last hlast =>
    obtain rfl := Option.some.inj hnext
    have hafter : ∀ id, (∃ candidate ∈ setup.loadDerivableDecisionZones s.store zoneUnitBuilderVersion pass.rebuild
        pass.cursor limit, candidate.documentId = id) → ∀ key ∈ pass.cursor, setup.collation.lt key id = true := by
      rintro id ⟨candidate, hc, rfl⟩
      obtain ⟨row, _, hselected, rfl⟩ := mem_load hc
      exact selected_after hselected
    refine ⟨⟨load_sorted, fun c hc => ⟨_, rfl, load_le_last hc hlast⟩⟩, ?_, ?_⟩
    · rintro id (hid | hid)
      · obtain ⟨c, hc, rfl⟩ := List.mem_map.mp hid
        exact Or.inr (hafter _ ⟨c, hc, rfl⟩)
      · refine Or.inr fun key hk => ?_
        have hkey := hafter last.documentId ⟨last, List.mem_of_getLast? hlast, rfl⟩ key hk
        exact Collation.lt_of_lt_of_le hkey (Collation.le_of_lt (hid _ rfl))
    · intro id hid
      simp [hvisit, hpending] at hid

/-- A pass visits its decisions in increasing order, so none of them twice. -/
theorem visits_increase (hbegin : ∀ a ∈ actions, a.isBegin = false) (hpass : s.pass = some pass)
    (hkeyset : Keyset setup pass) :
    (visits setup s actions).Pairwise (fun a b => setup.collation.lt a b = true) ∧
      ∀ id ∈ visits setup s actions, Ahead setup pass id := by
  induction actions generalizing s pass with
  | nil => exact ⟨List.Pairwise.nil, by simp [visits]⟩
  | cons a actions ih =>
    have hrest : ∀ b ∈ actions, b.isBegin = false := fun b hb => hbegin b (List.mem_cons_of_mem a hb)
    by_cases ha : a.isPassStep = true
    · obtain rfl : a = .passStep := by cases a <;> simp_all [ZoneAction.isPassStep]
      have hfirst : ∀ id, s.visit .passStep = some id → Ahead setup pass id := by
        intro id hid
        obtain ⟨candidate, hc, rfl⟩ : ∃ candidate, pass.pending.head? = some candidate ∧ candidate.documentId = id := by
          simpa [visit, hpass] using hid
        exact Or.inl (List.mem_map_of_mem (List.mem_of_head? hc))
      rw [visits]
      cases hnext : (s.step setup .passStep).pass with
      | none =>
        rw [(idle_pass hrest hnext).2, List.append_nil]
        cases hvisit : s.visit .passStep with
        | none => simp
        | some id => simpa using hfirst id hvisit
      | some next =>
        obtain ⟨hkeys, hahead, hbefore⟩ := passStep_keyset hpass hkeyset hnext
        obtain ⟨hsorted, hvisits⟩ := ih hrest hnext hkeys
        refine ⟨List.pairwise_append.mpr ⟨?_, hsorted, ?_⟩, ?_⟩
        · cases s.visit .passStep <;> simp
        · intro id hid later hlater
          exact hbefore id (by simpa using hid) later (hvisits later hlater)
        · intro id hid
          rcases List.mem_append.mp hid with hid | hid
          · exact hfirst id (by simpa using hid)
          · exact hahead id (hvisits id hid)
    · have hvisit : s.visit a = none := by
        cases a <;> simp_all [ZoneAction.isPassStep, visit]
      have hstep := @step_pass setup s a (by simpa using ha) (hbegin a List.mem_cons_self)
      simp only [visits, hvisit, Option.toList_none, List.nil_append]
      exact ih hrest (hstep.trans hpass) hkeyset

end ZoneSystem

end CorpusFeed
