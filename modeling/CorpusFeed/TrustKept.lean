import CorpusFeed.BootstrapPlan
import CorpusFeed.LicensedApply

/-! What bootstrap runs keep of a site's trust: a key gives way only to a key that
another writer put in its place after the run had read the anchors. -/

namespace CorpusFeed

section Events

variable {ι : Type*}

/-- The run has read the anchors of this purpose and is not over. -/
def BootstrapPhase.HasRead (purpose : Text) : BootstrapPhase → Prop
  | .reading _ purposes => purpose ∉ purposes.map TrustPurpose.asStr
  | .installing _ _ _ => True
  | _ => False

/-- The anchors that the run may still write. -/
def BootstrapPhase.MayInstall (run : BootstrapRun) (identity : AnchorIdentity) : BootstrapPhase → Prop
  | .reading installed purposes =>
    identity ∈ run.identities ∧ identity.purpose ∉ purposes.map TrustPurpose.asStr ∧
      ∀ existing ∈ installed, existing.name ≠ identity.name
  | .installing _ rest _ => .install identity ∈ rest
  | _ => False

/-- What is left of a plan is configured, each anchor once. -/
def BootstrapPhase.RestPlanned (run : BootstrapRun) : BootstrapPhase → Prop
  | .installing _ rest _ =>
    (∀ identity, .install identity ∈ rest → identity ∈ run.identities) ∧
      rest.Pairwise fun a b => ∀ x y, a = .install x → b = .install y → x.name ≠ y.name
  | _ => True

/-- The row that an event writes. -/
def TrustSystem.written (s : TrustSystem ι) : TrustEvent ι → Option TrustAnchorRow
  | .next i =>
    match s.phase i with
    | .installing _ (.install identity :: _) _ => some identity.row
    | _ => none
  | .installAnchor anchor purpose => some (anchorRow anchor purpose.asStr)
  | _ => none

/-- Every configured epoch is one that the table can hold. -/
def BootstrapRun.EpochsFit (run : BootstrapRun) : Prop := ∀ identity ∈ run.identities, identity.keyEpoch < 2 ^ 31

theorem AnchorIdentity.row_name {identity : AnchorIdentity} (h : identity.keyEpoch < 2 ^ 31) :
    identity.row.name = identity.name := by
  have hepoch : (storedEpoch identity.keyEpoch).toNat = identity.keyEpoch := by
    rw [storedEpoch]
    omega
  exact congrArg (identity.keyId, ·, identity.purpose) hepoch

theorem identity_purpose {run : BootstrapRun} {identity : AnchorIdentity} (h : identity ∈ run.identities) :
    ∃ purpose : TrustPurpose, identity.purpose = purpose.asStr := by
  obtain ⟨anchor, _, rfl⟩ := List.mem_map.mp h
  exact ⟨anchor.purpose, rfl⟩

theorem MayInstall.hasRead {run : BootstrapRun} {identity : AnchorIdentity} {phase : BootstrapPhase}
    (h : phase.MayInstall run identity) : phase.HasRead identity.purpose := by
  cases phase with
  | reading installed purposes => exact h.2.1
  | installing plan rest installed => trivial
  | ended result => exact h
  | crashed => exact h

/-- The table has the anchor as the run would write it, or not at all. -/
def Unopposed (s : TrustSystem ι) (identity : AnchorIdentity) : Prop :=
  ∀ row ∈ s.site.anchors, row.key = identity.row.key → row = identity.row

/-- An anchor that no row is read as. -/
theorem unopposed_of_read {Key Sig : Type} {env : TrustEnv Key Sig} {s : TrustSystem ι} {identity : AnchorIdentity}
    {purpose : TrustPurpose} (hepoch : identity.keyEpoch < 2 ^ 31) (hpurpose : identity.purpose = purpose.asStr)
    (h : ∀ existing ∈ s.site.installedIdentities env purpose, existing.name ≠ identity.name) :
    Unopposed s identity := by
  intro row hrow hkey
  have hname : row.name = identity.name := by rw [TrustAnchorRow.name_of_key hkey, AnchorIdentity.row_name hepoch]
  have hown : row.purpose = purpose.asStr := by
    rw [← hpurpose]
    exact congrArg (fun name => name.2.2) hname
  have hload : row.anchor ∈ (s.site.store env).loadTrustAnchors purpose.asStr :=
    mem_loadTrustAnchors.mpr ⟨row, hrow, hown, rfl⟩
  have hread := h _ (List.mem_map.mpr ⟨row.anchor, hload, rfl⟩)
  rw [← hname, TrustAnchorRow.name, hown] at hread
  exact absurd rfl hread

end Events

section Step

variable {Key Sig : Type} {ι : Type*} [DecidableEq ι] {env : TrustEnv Key Sig} {runs : ι → BootstrapRun}
  {s : TrustSystem ι} {event : TrustEvent ι} {i : ι} {run : BootstrapRun} {site : TrustSite} {phase : BootstrapPhase}

theorem installLicense_anchors {plan : List AnchorAction} {installed : ℕ} :
    (installLicense env run site plan installed).1.anchors = site.anchors := by
  rw [installLicense]
  cases run.license with
  | none => rfl
  | some license =>
    cases hcontent : license.content with
    | none => simp only [hcontent]
    | some json =>
      simp only [hcontent]
      cases hinstall : site.installVerifiedLicenseToken env json with
      | error e => rfl
      | ok other =>
        rw [TrustSite.installVerifiedLicenseToken] at hinstall
        repeat' split at hinstall
        all_goals cases hinstall
        rfl

theorem step_unwritten (h : s.written event = none) : (s.step env runs event).site.anchors = s.site.anchors := by
  cases event with
  | next i =>
    show (nextBootstrap env (runs i) s.site (s.phase i)).1.anchors = _
    rw [TrustSystem.written] at h
    cases hphase : s.phase i with
    | reading installed purposes =>
      cases purposes with
      | nil => rfl
      | cons purpose purposes => rfl
    | installing plan rest installed =>
      cases rest with
      | nil => exact installLicense_anchors
      | cons action rest =>
        cases action with
        | install identity =>
          rw [hphase] at h
          cases h
        | _ => rfl
    | ended result => rfl
    | crashed => rfl
  | fail i connecting message =>
    rw [TrustSystem.step]
    cases failedBootstrap (runs i) connecting message (s.phase i) with
    | none => rfl
    | some e => rfl
  | crash i =>
    rw [TrustSystem.step]
    cases s.phase i with
    | _ => rfl
  | installAnchor anchor purpose => cases h

theorem step_written {row : TrustAnchorRow} (h : s.written event = some row) :
    (s.step env runs event).site.anchors = s.site.anchors.upsert row := by
  cases event with
  | next i =>
    show (nextBootstrap env (runs i) s.site (s.phase i)).1.anchors = _
    rw [TrustSystem.written] at h
    split at h
    next hphase =>
      rw [hphase, ← Option.some.inj h]
      rfl
    next => cases h
  | fail i connecting message => cases h
  | crash i => cases h
  | installAnchor anchor purpose =>
    rw [← Option.some.inj h]
    rfl

theorem step_phase (h : event ≠ .next i) : (s.step env runs event).phase i = s.phase i ∨
    (∃ e, (s.step env runs event).phase i = .ended (.error e)) ∨ (s.step env runs event).phase i = .crashed := by
  cases event with
  | next j =>
    have hij : i ≠ j := by
      rintro rfl
      exact h rfl
    exact Or.inl (Function.update_of_ne hij _ _)
  | fail j connecting message =>
    rw [TrustSystem.step]
    cases failedBootstrap (runs j) connecting message (s.phase j) with
    | none => exact Or.inl rfl
    | some e =>
      by_cases hij : i = j
      · subst hij
        exact Or.inr (Or.inl ⟨e, Function.update_self _ _ _⟩)
      · exact Or.inl (Function.update_of_ne hij _ _)
  | crash j =>
    by_cases hij : i = j
    · subst hij
      rw [TrustSystem.step]
      split
      · exact Or.inl rfl
      · exact Or.inr (Or.inr (Function.update_self _ _ _))
    · rw [TrustSystem.step]
      split
      · exact Or.inl rfl
      · exact Or.inl (Function.update_of_ne hij _ _)
  | installAnchor anchor purpose => exact Or.inl rfl

theorem step_next : (s.step env runs (.next i)).phase i = (nextBootstrap env (runs i) s.site (s.phase i)).2 :=
  Function.update_self _ _ _

end Step

section Runs

variable {Key Sig : Type} {ι : Type*} [DecidableEq ι] (env : TrustEnv Key Sig) (runs : ι → BootstrapRun)
  (site : TrustSite)

/-- Another writer has put a different row in the place of the anchor since the run
read the anchors of its purpose. -/
def RacedSince (events : List (TrustEvent ι)) (i : ι) (identity : AnchorIdentity) : Prop :=
  ∃ before event rest, events = before ++ event :: rest ∧
    ((TrustSystem.after env runs site before).phase i).HasRead identity.purpose ∧ event ≠ .next i ∧
    ∃ row, (TrustSystem.after env runs site before).written event = some row ∧ row.key = identity.row.key ∧
      row ≠ identity.row

variable {env runs site} {events : List (TrustEvent ι)} {event : TrustEvent ι} {i : ι} {identity : AnchorIdentity}

theorem after_event : TrustSystem.after env runs site (events ++ [event]) =
    (TrustSystem.after env runs site events).step env runs event := by
  rw [TrustSystem.after, runFrom_append]
  rfl

theorem RacedSince.append (h : RacedSince env runs site events i identity) (rest : List (TrustEvent ι)) :
    RacedSince env runs site (events ++ rest) i identity := by
  obtain ⟨before, event, middle, rfl, hfound⟩ := h
  exact ⟨before, event, middle ++ rest, by rw [List.append_assoc, List.cons_append], hfound⟩

theorem restPlanned (events : List (TrustEvent ι)) (i : ι) :
    ((TrustSystem.after env runs site events).phase i).RestPlanned (runs i) := by
  induction events using List.reverseRecOn with
  | nil => trivial
  | append_singleton events event ih =>
    rw [after_event]
    generalize TrustSystem.after env runs site events = s at ih
    by_cases hown : event = .next i
    · subst hown
      rw [step_next]
      cases hphase : s.phase i with
      | reading installed purposes =>
        cases purposes with
        | nil =>
          show (planned (runs i) installed).RestPlanned (runs i)
          rw [planned]
          split
          · trivial
          · exact ⟨fun identity h => (planAnchorInstalls_install h).1, planAnchorInstalls_distinct⟩
        | cons purpose purposes => trivial
      | installing plan rest installed =>
        rw [hphase] at ih
        cases rest with
        | nil =>
          show (installLicense env (runs i) s.site plan installed).2.RestPlanned (runs i)
          rw [installLicense]
          repeat' split
          all_goals trivial
        | cons action rest =>
          have hrest : BootstrapPhase.RestPlanned (runs i) (.installing plan rest installed) :=
            ⟨fun identity h => ih.1 identity (List.mem_cons_of_mem action h), (List.pairwise_cons.mp ih.2).2⟩
          cases action with
          | _ => exact hrest
      | ended result => trivial
      | crashed => trivial
    · rcases @step_phase _ _ _ _ env runs s event i hown with hphase | ⟨e, hphase⟩ | hphase
      · rw [hphase]
        exact ih
      · rw [hphase]
        trivial
      · rw [hphase]
        trivial

theorem Unopposed.step {s : TrustSystem ι} (h : Unopposed s identity)
    (hwritten : ∀ row, s.written event = some row → row.key = identity.row.key → row = identity.row) :
    Unopposed (s.step env runs event) identity := by
  intro row hrow hkey
  cases hevent : s.written event with
  | none =>
    rw [step_unwritten hevent] at hrow
    exact h row hrow hkey
  | some new =>
    rw [step_written hevent] at hrow
    rcases Table.mem_upsert.mp hrow with rfl | ⟨hold, _⟩
    · exact hwritten row hevent hkey
    · exact h row hold hkey

/-- A step of the run leaves what it may still write after it as it was before, or
has just read it. -/
theorem next_mayInstall {s : TrustSystem ι} (hfit : (runs i).EpochsFit) (hplanned : (s.phase i).RestPlanned (runs i))
    (h : ((s.step env runs (.next i)).phase i).MayInstall (runs i) identity) :
    (Unopposed s identity ∨ (s.phase i).MayInstall (runs i) identity) ∧
      ∀ row, s.written (.next i) = some row → row.key ≠ identity.row.key := by
  rw [step_next] at h
  rw [TrustSystem.written]
  cases hphase : s.phase i with
  | reading installed purposes =>
    rw [hphase] at h
    refine ⟨?_, by simp⟩
    cases purposes with
    | nil =>
      replace h : (planned (runs i) installed).MayInstall (runs i) identity := h
      rw [planned] at h
      split at h
      · exact h.elim
      · obtain ⟨hmem, hfree, _⟩ := planAnchorInstalls_install h
        exact Or.inr ⟨hmem, by simp, hfree⟩
    | cons purpose purposes =>
      obtain ⟨hmem, hnot, hfree⟩ := h
      by_cases hpurpose : identity.purpose = purpose.asStr
      · have hread : ∀ existing ∈ s.site.installedIdentities env purpose, existing.name ≠ identity.name :=
          fun existing hexisting => hfree existing (List.mem_append_right _ hexisting)
        exact Or.inl (unopposed_of_read (hfit identity hmem) hpurpose hread)
      · refine Or.inr ⟨hmem, ?_, fun existing hexisting => hfree existing (List.mem_append_left _ hexisting)⟩
        rw [List.map_cons, List.mem_cons, not_or]
        exact ⟨hpurpose, hnot⟩
  | installing plan rest installed =>
    rw [hphase] at h hplanned
    cases rest with
    | nil =>
      replace h : (installLicense env (runs i) s.site plan installed).2.MayInstall (runs i) identity := h
      rw [installLicense] at h
      repeat' split at h
      all_goals exact h.elim
    | cons action rest =>
      have hrest : .install identity ∈ rest := by
        cases action with
        | _ => exact h
      refine ⟨Or.inr (List.mem_cons_of_mem action hrest), ?_⟩
      intro row hrow hkey
      cases action with
      | install other =>
        have hne := (List.pairwise_cons.mp hplanned.2).1 _ hrest other identity rfl rfl
        have hother := hfit other (hplanned.1 other List.mem_cons_self)
        have hown := hfit identity (hplanned.1 identity (List.mem_cons_of_mem _ hrest))
        rw [← Option.some.inj hrow] at hkey
        have hname := TrustAnchorRow.name_of_key hkey
        rw [AnchorIdentity.row_name hother, AnchorIdentity.row_name hown] at hname
        exact hne hname
      | _ => cases hrow
  | ended result =>
    rw [hphase] at h
    exact h.elim
  | crashed =>
    rw [hphase] at h
    exact h.elim

/-- What a run may still write is unopposed, or was raced for. -/
theorem unopposed_or_raced (hfit : (runs i).EpochsFit) (events : List (TrustEvent ι)) :
    ∀ identity, ((TrustSystem.after env runs site events).phase i).MayInstall (runs i) identity →
      Unopposed (TrustSystem.after env runs site events) identity ∨ RacedSince env runs site events i identity := by
  induction events using List.reverseRecOn with
  | nil =>
    intro identity h
    obtain ⟨hmem, hpurpose, _⟩ := h
    obtain ⟨purpose, heq⟩ := identity_purpose hmem
    have hall : purpose.asStr ∈ [TrustPurpose.package, TrustPurpose.license].map TrustPurpose.asStr := by
      cases purpose with
      | package => exact List.mem_cons_self
      | license => exact List.mem_cons_of_mem _ List.mem_cons_self
    rw [heq] at hpurpose
    exact absurd hall hpurpose
  | append_singleton events event ih =>
    intro identity h
    rw [after_event] at h ⊢
    by_cases hown : event = .next i
    · subst hown
      obtain ⟨hbefore, hwritten⟩ := next_mayInstall hfit (restPlanned events i) h
      rcases hbefore.elim Or.inl (ih identity) with hfree | hraced
      · exact Or.inl (hfree.step fun row hrow hkey => absurd hkey (hwritten row hrow))
      · exact Or.inr (hraced.append _)
    · have hphase : ((TrustSystem.after env runs site events).phase i).MayInstall (runs i) identity := by
        rcases @step_phase _ _ _ _ env runs (TrustSystem.after env runs site events) event i hown with
          hphase | ⟨e, hphase⟩ | hphase
        · rwa [hphase] at h
        · rw [hphase] at h
          exact h.elim
        · rw [hphase] at h
          exact h.elim
      rcases ih identity hphase with hfree | hraced
      · by_cases hrace : ∃ row, (TrustSystem.after env runs site events).written event = some row ∧
            row.key = identity.row.key ∧ row ≠ identity.row
        · exact Or.inr ⟨events, event, [], rfl, MayInstall.hasRead hphase, hown, hrace⟩
        · refine Or.inl (hfree.step ?_)
          intro row hrow hkey
          by_contra hne
          exact hrace ⟨row, hrow, hkey, hne⟩
      · exact Or.inr (hraced.append _)

/-- The rows stay at a step of a run, except the one that the run was raced for. -/
theorem next_keeps_or_raced (hfit : (runs i).EpochsFit) {row : TrustAnchorRow}
    (hrow : row ∈ (TrustSystem.after env runs site events).site.anchors) :
    row ∈ (TrustSystem.after env runs site (events ++ [.next i])).site.anchors ∨
      ∃ identity ∈ (runs i).identities, identity.row.key = row.key ∧ RacedSince env runs site events i identity := by
  rw [after_event]
  cases hwritten : (TrustSystem.after env runs site events).written (.next i) with
  | none =>
    rw [step_unwritten hwritten]
    exact Or.inl hrow
  | some new =>
    rw [step_written hwritten]
    rw [TrustSystem.written] at hwritten
    split at hwritten
    next plan identity rest installed hphase =>
      obtain rfl := Option.some.inj hwritten
      have hmay : ((TrustSystem.after env runs site events).phase i).MayInstall (runs i) identity := by
        rw [hphase]
        exact List.mem_cons_self
      by_cases hkey : row.key = identity.row.key
      · rcases unopposed_or_raced hfit events identity hmay with hfree | hraced
        · exact Or.inl (Table.mem_upsert.mpr (Or.inl (hfree row hrow hkey)))
        · have hplanned := @restPlanned _ _ _ _ env runs site events i
          rw [hphase] at hplanned
          exact Or.inr ⟨identity, hplanned.1 identity List.mem_cons_self, hkey.symm, hraced⟩
      · exact Or.inl (Table.mem_upsert.mpr (Or.inr ⟨hrow, hkey⟩))
    next => cases hwritten

variable (env runs site) in
/-- No anchor is installed by hand, and no two runs that overlap install different
keys as one anchor. -/
structure Undisturbed (events : List (TrustEvent ι)) : Prop where
  fits : ∀ i, (runs i).EpochsFit
  unforced : ∀ anchor purpose, .installAnchor anchor purpose ∉ events
  apart : ∀ i, ∀ identity ∈ (runs i).identities, ¬ RacedSince env runs site events i identity

theorem Undisturbed.of_append {rest : List (TrustEvent ι)} (h : Undisturbed env runs site (events ++ rest)) :
    Undisturbed env runs site events where
  fits := h.fits
  unforced anchor purpose hmem := h.unforced anchor purpose (List.mem_append_left rest hmem)
  apart i identity hmem hraced := h.apart i identity hmem (hraced.append rest)

theorem Undisturbed.keeps (h : Undisturbed env runs site (events ++ [event])) {row : TrustAnchorRow}
    (hrow : row ∈ (TrustSystem.after env runs site events).site.anchors) :
    row ∈ (TrustSystem.after env runs site (events ++ [event])).site.anchors := by
  cases event with
  | next i =>
    rcases next_keeps_or_raced (h.fits i) hrow with hkept | ⟨identity, hmem, _, hraced⟩
    · exact hkept
    · exact absurd (hraced.append _) (h.apart i identity hmem)
  | installAnchor anchor purpose =>
    exact absurd (List.mem_append_right _ List.mem_cons_self) (h.unforced anchor purpose)
  | _ =>
    rw [after_event, step_unwritten rfl]
    exact hrow

theorem Undisturbed.rows (h : Undisturbed env runs site events) :
    ∀ row ∈ site.anchors, row ∈ (TrustSystem.after env runs site events).site.anchors := by
  induction events using List.reverseRecOn with
  | nil => exact fun row hrow => hrow
  | append_singleton events event ih => exact fun row hrow => h.keeps (ih h.of_append row hrow)

theorem Undisturbed.origin (h : Undisturbed env runs site events) :
    ∀ row ∈ (TrustSystem.after env runs site events).site.anchors,
      row ∈ site.anchors ∨ ∃ i, ∃ identity ∈ (runs i).identities, row = identity.row := by
  induction events using List.reverseRecOn with
  | nil => exact fun row hrow => Or.inl hrow
  | append_singleton events event ih =>
    intro row hrow
    rw [after_event] at hrow
    cases hwritten : (TrustSystem.after env runs site events).written event with
    | none =>
      rw [step_unwritten hwritten] at hrow
      exact ih h.of_append row hrow
    | some new =>
      rw [step_written hwritten] at hrow
      rcases Table.mem_upsert.mp hrow with rfl | ⟨hold, _⟩
      · cases event with
        | next i =>
          rw [TrustSystem.written] at hwritten
          split at hwritten
          next plan identity rest installed hphase =>
            have hplanned := @restPlanned _ _ _ _ env runs site events i
            rw [hphase] at hplanned
            exact Or.inr ⟨i, identity, hplanned.1 identity List.mem_cons_self, (Option.some.inj hwritten).symm⟩
          next => cases hwritten
        | installAnchor anchor purpose =>
          exact absurd (List.mem_append_right _ List.mem_cons_self) (h.unforced anchor purpose)
        | _ => cases hwritten
      · exact ih h.of_append row hold

/-- The anchor is in the table with the configured key. -/
def Installed (site : TrustSite) (identity : AnchorIdentity) : Prop :=
  ∃ row ∈ site.anchors, row.name = identity.name ∧ sameKey row.publicKeyHex identity.publicKeyHex = true

/-- What the run has read is in the table, and its anchors are there or still to be
installed. -/
def AnchorsCovered (run : BootstrapRun) (site : TrustSite) : BootstrapPhase → Prop
  | .reading read _ => ∀ existing ∈ read, ∃ row ∈ site.anchors, row.name = existing.name ∧
      row.publicKeyHex = existing.publicKeyHex
  | .installing _ rest _ => ∀ identity ∈ run.identities, HasKey (toInstall rest) identity ∨ Installed site identity
  | .ended (.ok _) => ∀ identity ∈ run.identities, Installed site identity
  | _ => True

theorem Installed.mono {site' : TrustSite} (h : Installed site identity)
    (hrows : ∀ row ∈ site.anchors, row ∈ site'.anchors) :
    Installed site' identity := by
  obtain ⟨row, hrow, hfound⟩ := h
  exact ⟨row, hrows row hrow, hfound⟩

theorem AnchorsCovered.mono {run : BootstrapRun} {site' : TrustSite} {phase : BootstrapPhase}
    (h : AnchorsCovered run site phase) (hrows : ∀ row ∈ site.anchors, row ∈ site'.anchors) :
    AnchorsCovered run site' phase := by
  cases phase with
  | reading read purposes =>
    intro existing hexisting
    obtain ⟨row, hrow, hfound⟩ := h existing hexisting
    exact ⟨row, hrows row hrow, hfound⟩
  | installing plan rest installed => exact fun identity hmem => (h identity hmem).imp_right fun hown => hown.mono hrows
  | ended result =>
    cases result with
    | error e => trivial
    | ok outcome => exact fun identity hmem => (h identity hmem).mono hrows
  | crashed => trivial

theorem covered_installLicense {run : BootstrapRun} {plan : List AnchorAction} {installed : ℕ}
    (h : ∀ identity ∈ run.identities, Installed site identity) :
    AnchorsCovered run (installLicense env run site plan installed).1
      (installLicense env run site plan installed).2 := by
  have hrows : ∀ row ∈ site.anchors, row ∈ (installLicense env run site plan installed).1.anchors := by
    rw [installLicense_anchors]
    exact fun row hrow => hrow
  have hall : ∀ identity ∈ run.identities, Installed (installLicense env run site plan installed).1 identity :=
    fun identity hmem => (h identity hmem).mono hrows
  generalize (installLicense env run site plan installed).1 = site' at hall
  rw [installLicense]
  repeat' split
  all_goals first | exact hall | trivial

theorem covered_planned {run : BootstrapRun} {read : List AnchorIdentity} {purposes : List TrustPurpose}
    (h : AnchorsCovered run site (.reading read purposes)) : AnchorsCovered run site (planned run read) := by
  rw [planned]
  split
  · trivial
  next hclear =>
    intro identity hmem
    rcases planAnchorInstalls_covers (by simpa using hclear) hmem with
      ⟨prior, hprior, _⟩ | ⟨existing, hexisting, hname, hkey⟩ | hplan
    · cases hprior
    · obtain ⟨row, hrow, hsame, hsameKey⟩ := h existing hexisting
      exact Or.inr ⟨row, hrow, hsame.trans hname, by rwa [hsameKey]⟩
    · exact Or.inl hplan

theorem covered_next {run : BootstrapRun} {phase : BootstrapPhase} (hfit : run.EpochsFit)
    (hplanned : phase.RestPlanned run)
    (hrows : ∀ row ∈ site.anchors, row ∈ (nextBootstrap env run site phase).1.anchors)
    (h : AnchorsCovered run site phase) :
    AnchorsCovered run (nextBootstrap env run site phase).1 (nextBootstrap env run site phase).2 := by
  cases phase with
  | reading read purposes =>
    cases purposes with
    | nil => exact covered_planned h
    | cons purpose purposes =>
      intro existing hexisting
      rcases List.mem_append.mp hexisting with hread | hnew
      · exact h existing hread
      · obtain ⟨anchor, hanchor, rfl⟩ := List.mem_map.mp hnew
        obtain ⟨row, hrow, hpurpose, rfl⟩ := mem_loadTrustAnchors.mp hanchor
        exact ⟨row, hrow, congrArg (row.keyId, row.keyEpoch.toNat, ·) hpurpose, rfl⟩
  | installing plan rest installed =>
    cases rest with
    | nil =>
      apply covered_installLicense
      intro identity hmem
      rcases h identity hmem with ⟨entry, hentry, _⟩ | hown
      · cases hentry
      · exact hown
    | cons action rest =>
      cases action with
      | install other =>
        intro identity hmem
        rcases h identity hmem with ⟨entry, hentry, hname, hkey⟩ | hown
        · rcases List.mem_cons.mp hentry with rfl | hrest
          · have hepoch := hfit entry (hplanned.1 entry List.mem_cons_self)
            refine Or.inr ⟨entry.row, ?_, (AnchorIdentity.row_name hepoch).trans hname, hkey⟩
            exact Table.mem_upsert.mpr (Or.inl rfl)
          · exact Or.inl ⟨entry, hrest, hname, hkey⟩
        · exact Or.inr (hown.mono hrows)
      | _ => exact h
  | ended result => exact h
  | crashed => trivial

theorem Undisturbed.covered (h : Undisturbed env runs site events) (i : ι) :
    AnchorsCovered (runs i) (TrustSystem.after env runs site events).site
      ((TrustSystem.after env runs site events).phase i) := by
  induction events using List.reverseRecOn with
  | nil =>
    intro existing hexisting
    cases hexisting
  | append_singleton events event ih =>
    have hrows := fun row => @Undisturbed.keeps _ _ _ _ env runs site events event h row
    have hbefore := ih h.of_append
    have hplanned := @restPlanned _ _ _ _ env runs site events i
    rw [after_event] at hrows ⊢
    by_cases hown : event = .next i
    · subst hown
      rw [step_next]
      exact covered_next (h.fits i) hplanned hrows hbefore
    · rcases @step_phase _ _ _ _ env runs (TrustSystem.after env runs site events) event i hown with
        hphase | ⟨e, hphase⟩ | hphase
      · rw [hphase]
        exact hbefore.mono hrows
      · rw [hphase]
        trivial
      · rw [hphase]
        trivial

variable (env runs site) in
/-- What the runs leave: every anchor there was and none that is not configured, all
those of each run that succeeded, and verifiers that accept what they accepted as
long as they can be built, which takes a key in each anchor. -/
structure TrustKept (s : TrustSystem ι) : Prop where
  rows : ∀ row ∈ site.anchors, row ∈ s.site.anchors
  origin : ∀ row ∈ s.site.anchors, row ∈ site.anchors ∨ ∃ i, ∃ anchor ∈ (runs i).anchors, row = anchor.identity.row
  installed : ∀ i outcome, s.phase i = .ended (.ok outcome) →
    ∀ anchor ∈ (runs i).anchors, Installed s.site anchor.identity
  usable : ∀ purpose, ((s.site.store env).buildVerifier purpose).isOk = true ↔
    ((site.store env).buildVerifier purpose).isOk = true ∧
      ∀ row ∈ s.site.anchors, row ∉ site.anchors → row.purpose = purpose → (anchorKey env.scheme row.anchor).isOk = true
  verifies : ∀ purpose keys keys' canonical signature, (site.store env).buildVerifier purpose = .ok keys →
    (s.site.store env).buildVerifier purpose = .ok keys' →
    verifyBytes env.scheme keys canonical signature = .ok () → verifyBytes env.scheme keys' canonical signature = .ok ()

theorem Undisturbed.trustKept (h : Undisturbed env runs site events) :
    TrustKept env runs site (TrustSystem.after env runs site events) where
  rows := h.rows
  origin := by
    intro row hrow
    rcases h.origin row hrow with hold | ⟨i, identity, hmem, rfl⟩
    · exact Or.inl hold
    · obtain ⟨anchor, hanchor, rfl⟩ := List.mem_map.mp hmem
      exact Or.inr ⟨i, anchor, hanchor, rfl⟩
  installed := by
    intro i outcome hphase anchor hanchor
    have hcovered := h.covered i
    rw [hphase] at hcovered
    exact hcovered anchor.identity (List.mem_map.mpr ⟨anchor, hanchor, rfl⟩)
  usable := by
    intro purpose
    rw [buildVerifier_isOk_iff, buildVerifier_isOk_iff]
    constructor
    · intro hall
      exact ⟨fun row hrow => hall row (h.rows row hrow), fun row hrow _ => hall row hrow⟩
    · rintro ⟨hold, hnew⟩ row hrow
      by_cases hmem : row ∈ site.anchors
      · exact hold row hmem
      · exact hnew row hrow hmem
  verifies _ _ _ _ _ hkeys hkeys' hverify := verifies_of_subset h.rows hkeys hkeys' hverify

/-- Runs whose configurations agree on the anchors that they share do not disturb each
other, in whatever order their steps come. -/
theorem undisturbed_of_agree (hfit : ∀ i, (runs i).EpochsFit)
    (hunforced : ∀ anchor purpose, .installAnchor anchor purpose ∉ events)
    (hagree : ∀ i j, ∀ x ∈ (runs i).identities, ∀ y ∈ (runs j).identities, x.row.key = y.row.key → x.row = y.row) :
    Undisturbed env runs site events where
  fits := hfit
  unforced := hunforced
  apart := by
    rintro i identity hmem ⟨before, event, rest, rfl, _, _, row, hwritten, hkey, hne⟩
    cases event with
    | next j =>
      have hplanned := @restPlanned _ _ _ _ env runs site before j
      rw [TrustSystem.written] at hwritten
      split at hwritten
      next plan other rest installed hphase =>
        rw [hphase] at hplanned
        rw [← Option.some.inj hwritten] at hkey hne
        exact hne (hagree j i other (hplanned.1 other List.mem_cons_self) identity hmem hkey)
      next => cases hwritten
    | installAnchor anchor purpose =>
      exact hunforced anchor purpose (List.mem_append_right before List.mem_cons_self)
    | _ => cases hwritten

/-- However bootstrap runs interleave, fail and crash, a step of one replaces no
anchor, unless another writer put a different one there since the run read the
anchors; and where that does not happen, trust only grows. -/
theorem bootstrap_keeps_trust (env : TrustEnv Key Sig) (runs : ι → BootstrapRun) (site : TrustSite)
    (events : List (TrustEvent ι)) :
    (∀ before i rest, events = before ++ .next i :: rest → (runs i).EpochsFit →
      ∀ row ∈ (TrustSystem.after env runs site before).site.anchors,
        row ∈ (TrustSystem.after env runs site (before ++ [.next i])).site.anchors ∨
          ∃ identity ∈ (runs i).identities, identity.row.key = row.key ∧ RacedSince env runs site before i identity) ∧
      (Undisturbed env runs site events → TrustKept env runs site (TrustSystem.after env runs site events)) :=
  ⟨fun _ _ _ _ hfit _ hrow => next_keeps_or_raced hfit hrow, fun h => h.trustKept⟩

end Runs

section Sample

def plainTrustEnv : TrustEnv Bytes Bytes :=
  ⟨knownScheme, codePointCollation, fun _ => .error "not a token", fun _ => none⟩

def emptyTrustSite : TrustSite := ⟨Table.empty, Table.empty, by simp⟩

def firstAnchor : TrustAnchorConfig := ⟨.package, ['k'], 1, publicKeyHex, ed25519Algorithm⟩

def rotatedAnchor : TrustAnchorConfig := ⟨.package, ['k'], 2, publicKeyHex.reverse, ed25519Algorithm⟩

/-- The configuration before and after the key is rotated. -/
def rotationRuns (rotated : Bool) : BootstrapRun :=
  if rotated then ⟨[firstAnchor, rotatedAnchor], none⟩ else ⟨[firstAnchor], none⟩

/-- Both plan before either installs. -/
def overlappingRuns : List (TrustEvent Bool) :=
  [.next false, .next false, .next false, .next true, .next true, .next true, .next false, .next true, .next true,
    .next false, .next true]

theorem bootstrap_keeps_trust_rotation : TrustKept plainTrustEnv rotationRuns emptyTrustSite
    (TrustSystem.after plainTrustEnv rotationRuns emptyTrustSite overlappingRuns) := by
  apply (bootstrap_keeps_trust plainTrustEnv rotationRuns emptyTrustSite overlappingRuns).2
  apply undisturbed_of_agree
  · have hfit : ∀ i, ∀ identity ∈ (rotationRuns i).identities, identity.keyEpoch < 2 ^ 31 := by decide +kernel
    exact hfit
  · intro anchor purpose h
    simp [overlappingRuns] at h
  · decide +kernel

example : (TrustSystem.after plainTrustEnv rotationRuns emptyTrustSite overlappingRuns).site.anchors.rows =
    [rotatedAnchor.identity.row, firstAnchor.identity.row] := by decide +kernel

/-- Another key for the same anchor. -/
def opposedRuns (other : Bool) : BootstrapRun :=
  ⟨[{ firstAnchor with publicKeyHex := if other then publicKeyHex.reverse else publicKeyHex }], none⟩

example : (TrustSystem.after plainTrustEnv opposedRuns emptyTrustSite overlappingRuns).site.anchors.rows =
    [{ firstAnchor.identity.row with publicKeyHex := publicKeyHex.reverse }] := by decide +kernel

end Sample

end CorpusFeed
