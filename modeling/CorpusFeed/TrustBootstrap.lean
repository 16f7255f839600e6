import CorpusFeed.Collation
import CorpusFeed.KeyedTable
import CorpusFeed.LicenseTokens
import CorpusFeed.Runs
import CorpusFeed.SyncDaemon

/-! The bootstrap of a site's trust: any number of runs, each of which reads the
installed anchors, plans and installs one anchor after the other, beside
installations by hand. Every statement commits on its own. -/

namespace CorpusFeed

inductive TrustPurpose where
  | package
  | license
deriving DecidableEq

def TrustPurpose.asStr : TrustPurpose → Text
  | .package => "package".toList
  | .license => licensePurpose

/-- One `[[trust.anchor]]` of a configuration. -/
structure TrustAnchorConfig where
  purpose : TrustPurpose
  keyId : Text
  keyEpoch : ℕ
  publicKeyHex : Text
  algorithm : Text
deriving DecidableEq

structure AnchorIdentity where
  keyId : Text
  keyEpoch : ℕ
  purpose : Text
  publicKeyHex : Text
deriving DecidableEq

/-- What makes two anchors the same one, whatever their keys. -/
def AnchorIdentity.name (identity : AnchorIdentity) : Text × ℕ × Text :=
  (identity.keyId, identity.keyEpoch, identity.purpose)

def TrustAnchorConfig.identity (anchor : TrustAnchorConfig) : AnchorIdentity :=
  ⟨anchor.keyId, anchor.keyEpoch, anchor.purpose.asStr, anchor.publicKeyHex⟩

inductive AnchorAction where
  | install (identity : AnchorIdentity)
  | unchanged (identity : AnchorIdentity)
  | conflict (identity : AnchorIdentity) (installedKey : Text)
  | duplicateConfig (identity : AnchorIdentity) (firstKey : Text)
deriving DecidableEq

/-- `eq_ignore_ascii_case` of two keys. -/
def sameKey (a b : Text) : Bool := a.map Char.toLower = b.map Char.toLower

def planAnchor (installed : List AnchorIdentity) (identity : AnchorIdentity) : AnchorAction :=
  match installed.find? fun existing => existing.name = identity.name with
  | none => .install identity
  | some existing =>
    if sameKey existing.publicKeyHex identity.publicKeyHex then .unchanged identity
    else .conflict identity existing.publicKeyHex

/-- The actions for the configured anchors, after those that `seen` came from. -/
def planAnchorInstalls (installed seen : List AnchorIdentity) : List AnchorIdentity → List AnchorAction
  | [] => []
  | identity :: configured =>
    match seen.find? fun prior => prior.name = identity.name with
    | some first =>
      if sameKey first.publicKeyHex identity.publicKeyHex then planAnchorInstalls installed seen configured
      else .duplicateConfig identity first.publicKeyHex :: planAnchorInstalls installed seen configured
    | none => planAnchor installed identity :: planAnchorInstalls installed (seen ++ [identity]) configured

def AnchorAction.isConflict : AnchorAction → Bool
  | .conflict _ _ => true
  | .duplicateConfig _ _ => true
  | _ => false

def AnchorAction.isUnchanged : AnchorAction → Bool
  | .unchanged _ => true
  | _ => false

def AnchorAction.install? : AnchorAction → Option AnchorIdentity
  | .install identity => some identity
  | _ => none

/-- The identities that will be installed. -/
def toInstall (plan : List AnchorAction) : List AnchorIdentity := plan.filterMap AnchorAction.install?

def hasConflict (plan : List AnchorAction) : Bool := plan.any AnchorAction.isConflict

structure Diagnostic where
  code : String
  message : String
  suggestion : String
deriving DecidableEq

inductive DeployError where
  | read (path : Text)
  | validation (diagnostics : List Diagnostic)
deriving DecidableEq

def redactKey (hex : Text) : String := String.ofList (hex.take 8 ++ ['…'])

def AnchorAction.diagnostic? : AnchorAction → Option Diagnostic
  | .conflict identity installedKey => some
      { code := "trust.anchor.silent_replace_refused"
        message := s!"trust anchor key_id={String.ofList identity.keyId} epoch={identity.keyEpoch} " ++
          s!"purpose={String.ofList identity.purpose} is already installed with a DIFFERENT public key " ++
          s!"(installed `{redactKey installedKey}`, config `{redactKey identity.publicKeyHex}`); " ++
          "a trust root is NEVER silently replaced"
        suggestion := "key rotation must ADD a new [[trust.anchor]] with a new key_id/epoch — to deliberately " ++
          "replace this exact anchor, remove the installed row out-of-band first" }
  | .duplicateConfig identity firstKey => some
      { code := "trust.anchor.duplicate_config"
        message := s!"site.toml configures trust anchor key_id={String.ofList identity.keyId} " ++
          s!"epoch={identity.keyEpoch} purpose={String.ofList identity.purpose} TWICE with DIFFERENT public keys " ++
          s!"(`{redactKey firstKey}` vs `{redactKey identity.publicKeyHex}`); " ++
          "a trust root is never silently chosen between two config rows"
        suggestion := "remove the duplicate [[trust.anchor]] or fix its public_key_hex — key rotation must use " ++
          "a NEW key_id/epoch" }
  | _ => none

def conflictError (plan : List AnchorAction) : DeployError := .validation (plan.filterMap AnchorAction.diagnostic?)

def storageErr (code message : String) : DeployError :=
  .validation [⟨code, message, "check the [database] connection + writer role"⟩]

def syncErr (code message : String) : DeployError :=
  .validation [⟨code, message, "check trust anchors + the license token input"⟩]

/-- `[license]`, with what its file holds unless it cannot be read. -/
structure LicenseConfig where
  tokenJson : Text
  content : Option Text

/-- The configuration of one run. -/
structure BootstrapRun where
  anchors : List TrustAnchorConfig
  license : Option LicenseConfig

def BootstrapRun.identities (run : BootstrapRun) : List AnchorIdentity := run.anchors.map TrustAnchorConfig.identity

structure BootstrapOutcome where
  installed : ℕ
  unchanged : ℕ
  licenseInstalled : Bool
deriving DecidableEq

def TrustAnchorRow.key (row : TrustAnchorRow) : Text × Int × Text := (row.keyId, row.keyEpoch, row.purpose)

def LicenseTokenRow.key (row : LicenseTokenRow) : Text × Text × Int × Text :=
  (row.corpus, row.tier, row.licenseEpoch, row.audience)

/-- Epochs are written from unsigned ones only. -/
structure TrustSite where
  anchors : Table TrustAnchorRow.key
  tokens : Table LicenseTokenRow.key
  epochs : ∀ row ∈ anchors, 0 ≤ row.keyEpoch

/-- What a site's trust depends on beside its tables: the signature scheme, the
order of texts in the database, the reading of tokens and the clock. -/
structure TrustEnv (Key Sig : Type) where
  scheme : Ed25519 Key Sig
  collation : Collation
  parseToken : Text → Except String (Signed LicenseToken)
  notAfterInFuture : Text → Option Bool

/-- `ORDER BY key_id, key_epoch`. -/
def anchorRowLe (collation : Collation) (a b : TrustAnchorRow) : Prop :=
  collation.lt a.keyId b.keyId = true ∨ a.keyId = b.keyId ∧ a.keyEpoch ≤ b.keyEpoch

instance (collation : Collation) : DecidableRel (anchorRowLe collation) :=
  fun _ _ => inferInstanceAs (Decidable (_ ∨ _))

/-- An epoch is stored as an `i32`. -/
def storedEpoch (epoch : ℕ) : Int := min (epoch : Int) (2 ^ 31 - 1)

def anchorRow (anchor : TrustAnchor) (purpose : Text) : TrustAnchorRow :=
  ⟨anchor.keyId, storedEpoch anchor.keyEpoch, anchor.algorithm, anchor.publicKeyHex, purpose⟩

def AnchorIdentity.row (identity : AnchorIdentity) : TrustAnchorRow :=
  anchorRow ⟨identity.keyId, identity.keyEpoch, ed25519Algorithm, identity.publicKeyHex⟩ identity.purpose

theorem storedEpoch_nonneg (epoch : ℕ) : 0 ≤ storedEpoch epoch := by
  rw [storedEpoch]
  omega

def tokenRow (token : LicenseToken) (json : Text) : LicenseTokenRow :=
  ⟨token.entitlementCorpus.name, token.tier, storedEpoch token.licenseEpoch, token.audience.getD [],
    token.notAfter, json⟩

namespace TrustSite

variable {Key Sig : Type} (env : TrustEnv Key Sig) (site : TrustSite)

/-- The tables as queries read them. -/
def store : TrustStore Key Sig where
  scheme := env.scheme
  anchors := site.anchors.rows.insertionSort (anchorRowLe env.collation)
  tokens := site.tokens.rows
  parseToken := fun json => (env.parseToken json).toOption
  notAfterInFuture := env.notAfterInFuture

def installTrustAnchor (anchor : TrustAnchor) (purpose : Text) : TrustSite :=
  { site with
    anchors := site.anchors.upsert (anchorRow anchor purpose)
    epochs := by
      intro row hrow
      rcases Table.mem_upsert.mp hrow with rfl | ⟨hold, _⟩
      · exact storedEpoch_nonneg anchor.keyEpoch
      · exact site.epochs row hold }

def installedIdentities (purpose : TrustPurpose) : List AnchorIdentity :=
  ((site.store env).loadTrustAnchors purpose.asStr).map fun anchor =>
    ⟨anchor.keyId, anchor.keyEpoch, purpose.asStr, anchor.publicKeyHex⟩

def installVerifiedLicenseToken (json : Text) : Except SyncError TrustSite :=
  match (site.store env).buildVerifier licensePurpose with
  | .error e => .error e
  | .ok keys =>
    match env.parseToken json with
    | .error message => .error (.json message)
    | .ok signed =>
      match verifyBytes env.scheme keys signed.payload.canonicalBytes signed.signature with
      | .error e => .error (.reject .signatureInvalid s!"license token signature invalid: {e.show}")
      | .ok () => .ok { site with tokens := site.tokens.upsert (tokenRow signed.payload json) }

end TrustSite

/-- Where a run is: what it has read and has still to read, what it has still to
do, or how it ended. -/
inductive BootstrapPhase where
  | reading (installed : List AnchorIdentity) (purposes : List TrustPurpose)
  | installing (plan rest : List AnchorAction) (installed : ℕ)
  | ended (result : Except DeployError BootstrapOutcome)
  | crashed

def planned (run : BootstrapRun) (installed : List AnchorIdentity) : BootstrapPhase :=
  let plan := planAnchorInstalls installed [] run.identities
  if hasConflict plan then .ended (.error (conflictError plan)) else .installing plan plan 0

section Step

variable {Key Sig : Type} (env : TrustEnv Key Sig)

def installLicense (run : BootstrapRun) (site : TrustSite) (plan : List AnchorAction) (installed : ℕ) :
    TrustSite × BootstrapPhase :=
  let outcome := fun license => BootstrapPhase.ended (.ok ⟨installed, plan.countP AnchorAction.isUnchanged, license⟩)
  match run.license with
  | none => (site, outcome false)
  | some license =>
    match license.content with
    | none => (site, .ended (.error (.read license.tokenJson)))
    | some json =>
      match site.installVerifiedLicenseToken env json with
      | .error e => (site, .ended (.error (syncErr "license.install" e.text)))
      | .ok site => (site, outcome true)

/-- One query of a run, or what it does between two of them. -/
def nextBootstrap (run : BootstrapRun) (site : TrustSite) : BootstrapPhase → TrustSite × BootstrapPhase
  | .reading installed (purpose :: purposes) =>
    (site, .reading (installed ++ site.installedIdentities env purpose) purposes)
  | .reading installed [] => (site, planned run installed)
  | .installing plan (.install identity :: rest) installed =>
    (site.installTrustAnchor ⟨identity.keyId, identity.keyEpoch, ed25519Algorithm, identity.publicKeyHex⟩
        identity.purpose,
      .installing plan rest (installed + 1))
  | .installing plan (_ :: rest) installed => (site, .installing plan rest installed)
  | .installing plan [] installed => installLicense env run site plan installed
  | .ended result => (site, .ended result)
  | .crashed => (site, .crashed)

/-- The error of a run whose connection or statement fails, if it has one under way. -/
def failedBootstrap (run : BootstrapRun) (connecting : Bool) (message : String) : BootstrapPhase → Option DeployError
  | .reading _ (_ :: _) => some (storageErr (if connecting then "trust.read.connect" else "trust.read") message)
  | .installing _ (.install _ :: _) _ => some (syncErr "trust.install" message)
  | .installing _ [] _ => run.license.map fun _ => syncErr "license.install" message
  | _ => none

end Step

/-- The tables of a site and the runs on them. -/
structure TrustSystem (ι : Type*) where
  site : TrustSite
  phase : ι → BootstrapPhase

inductive TrustEvent (ι : Type*) where
  | next (i : ι)
  | fail (i : ι) (connecting : Bool) (message : String)
  | crash (i : ι)
  /-- The command that installs one anchor, and asks nothing. -/
  | installAnchor (anchor : TrustAnchor) (purpose : TrustPurpose)
deriving DecidableEq

namespace TrustSystem

variable {Key Sig : Type} {ι : Type*} [DecidableEq ι] (env : TrustEnv Key Sig) (runs : ι → BootstrapRun)

def step (s : TrustSystem ι) : TrustEvent ι → TrustSystem ι
  | .next i =>
    let result := nextBootstrap env (runs i) s.site (s.phase i)
    ⟨result.1, Function.update s.phase i result.2⟩
  | .fail i connecting message =>
    match failedBootstrap (runs i) connecting message (s.phase i) with
    | none => s
    | some e => ⟨s.site, Function.update s.phase i (.ended (.error e))⟩
  | .crash i =>
    match s.phase i with
    | .ended _ => s
    | _ => ⟨s.site, Function.update s.phase i .crashed⟩
  | .installAnchor anchor purpose => ⟨s.site.installTrustAnchor anchor purpose.asStr, s.phase⟩

/-- No run has read anything yet. -/
def start (site : TrustSite) : TrustSystem ι := ⟨site, fun _ => .reading [] [.package, .license]⟩

def after (site : TrustSite) (events : List (TrustEvent ι)) : TrustSystem ι :=
  runFrom (step env runs) (start site) events

end TrustSystem

end CorpusFeed
