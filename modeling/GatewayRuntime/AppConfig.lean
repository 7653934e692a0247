import Mathlib.Data.Rat.Defs
import GatewayRuntime.Lib.GoUrlParse
import GatewayRuntime.SessionActivity
import GatewayRuntime.StorageReadiness

/-!
# The configuration of the process

`Config` of `internal/app`, as far as `Config.Validate` reads it, and the checks that it
makes in their order.  `LoadConfig` returns no configuration that does not pass them, so
what `Validate` accepts is what the rest of the program is started with.

A map that `Validate` ranges over is a list of entries with different keys: the loop
visits them in the order of the list, and every order of the same entries is a
configuration.
-/

namespace GatewayRuntime
namespace App

open GoText GoUrl

section Runtime

/-- The capabilities that a role may have (`allowed` of `internal/runtimecfg`). -/
def allowed : Storage.Role → List String
  | .rebff => ["oidc", "session", "token-refresh", "csrf", "user-context", "api-proxy",
      "coarse-authz", "audit", "trace-propagation"]
  | .storage => ["upload", "download", "multipart", "presign", "metadata", "audit"]
  | .streaming => ["playback", "manifest", "token", "origin-select", "audit"]
  | .webSocket => ["connect", "publish", "subscribe", "presence", "heartbeat", "audit"]

/-- `runtimecfg.Selection`; `ParseRoles` has refused the names of other roles. -/
structure Selection where
  roles : List Storage.Role
  capabilities : AList fun _ : Storage.Role => List String

/-- The capabilities of a role, none when it has no entry. -/
def Selection.capabilitiesOf (sel : Selection) (role : Storage.Role) : List String :=
  (sel.capabilities.lookup role).getD []

/-- `Selection.HasRole`. -/
def Selection.hasRole (sel : Selection) (role : Storage.Role) : Bool :=
  sel.roles.contains role

/-- A check that fails with a message. -/
def refuseIf (bad : Bool) (message : String) : Except String Unit :=
  if bad then .error message else .ok ()

/-- The loop of `runtimecfg.Validate` over the roles, with those it has seen. -/
def checkRoles (sel : Selection) : List Storage.Role → List Storage.Role → Except String Unit
  | _, [] => .ok ()
  | seen, role :: rest => do
      refuseIf (seen.contains role) ("duplicate runtime role " ++ quote role.name)
      refuseIf (sel.capabilitiesOf role).isEmpty
        ("role " ++ quote role.name ++ " requires at least one capability")
      (sel.capabilitiesOf role).forM fun c =>
        refuseIf (!(allowed role).contains c)
          ("unsupported capability " ++ quote c ++ " for role " ++ quote role.name)
      checkRoles sel (role :: seen) rest

/-- `runtimecfg.Validate`. -/
def Selection.validate (sel : Selection) : Except String Unit := do
  refuseIf sel.roles.isEmpty "at least one runtime role is required"
  checkRoles sel [] sel.roles
  sel.capabilities.keys.forM fun role =>
    refuseIf (!sel.roles.contains role)
      ("capabilities configured for unselected role " ++ quote role.name)

end Runtime

section Sections

structure HTTPConfig where
  addr : String
  basePath : String
  publicURL : String

structure LimitsConfig where
  maxRequestBodyBytes : Int
  maxConcurrency : Int
  ratePerSecond : ℚ
  rateBurst : Int
  rateMaxEntries : Int
  authRatePerSecond : ℚ
  authRateBurst : Int

structure OIDCConfig where
  issuer : String
  clientID : String

structure StoreConfig where
  backend : String
  redisURL : String

structure StorageProviderConfig where
  signerBaseURL : String

structure StorageWorkloadAuthConfig where
  mode : String
  issuer : String
  audience : String
  required : Bool

structure StorageRoleConfig where
  signerBaseURL : String
  signerTimeout : Duration
  providers : AList fun _ : String => StorageProviderConfig
  defaultTTL : Duration
  maxTTL : Duration
  targets : AList fun _ : String => Storage.Target
  accessPolicyURL : String
  accessPolicyTimeout : Duration
  subjectHeader : String
  workloadAuth : StorageWorkloadAuthConfig

/-- `Config`; the settings of the telemetry are not checked. -/
structure Config where
  runtime : Selection
  http : HTTPConfig
  limits : LimitsConfig
  oidc : OIDCConfig
  store : StoreConfig
  policyProvider : String
  session : Session.Lifecycle
  storage : StorageRoleConfig

end Sections

section BasePath

/-- `normalizeBasePath`. -/
def normalizeBasePath (v : String) : Except String String :=
  if v = "" ∨ v = "/" then .ok ""
  else if hasPrefix v "/" = false then .error "http base path must start with /"
  else if (split v '/').any fun segment => segment == ".." || segment == "." then
    .error "http base path must not contain dot segments"
  else if GoPath.clean v = "." ∨ GoPath.clean v = "/" then .ok ""
  else .ok (trimRight (GoPath.clean v) '/')

/-- `HTTPConfig.NormalizedBasePath`. -/
def HTTPConfig.normalizedBasePath (c : HTTPConfig) : String :=
  match normalizeBasePath c.basePath with
  | .ok p => p
  | .error _ => ""

end BasePath

section Validate

/-- A URL with a scheme and a host. -/
def isAbsolute (v : String) : Bool :=
  match parse v with
  | none => false
  | some u => u.scheme != "" && u.host != ""

def HTTPConfig.validate (c : HTTPConfig) : Except String Unit := do
  refuseIf (c.addr == "") "http addr is required"
  let _ ← normalizeBasePath c.basePath
  match parse c.publicURL with
  | none => .error "http public URL must be absolute"
  | some u => do
      refuseIf (u.scheme == "" || u.host == "") "http public URL must be absolute"
      refuseIf (u.rawQuery != "" || u.fragment != "")
        "http public URL must not contain query or fragment"

def LimitsConfig.validate (c : LimitsConfig) : Except String Unit := do
  refuseIf (c.maxRequestBodyBytes < 0) "max request body bytes must be >= 0"
  refuseIf (c.maxConcurrency < 0 || c.ratePerSecond < 0 || c.rateBurst < 0 ||
    c.rateMaxEntries < 0 || c.authRatePerSecond < 0 || c.authRateBurst < 0) "limits must be >= 0"

def OIDCConfig.validate (c : OIDCConfig) : Except String Unit :=
  refuseIf ((trimSpace c.issuer != "") != (trimSpace c.clientID != ""))
    "oidc issuer and client id must be configured together"

def StoreConfig.validate (c : StoreConfig) : Except String Unit :=
  if c.backend = "memory" then .ok ()
  else if c.backend = "redis" then
    refuseIf (trimSpace c.redisURL == "") "redis URL is required when store backend is redis"
  else .error ("unsupported store backend " ++ quote c.backend)

def StorageWorkloadAuthConfig.validate (c : StorageWorkloadAuthConfig) : Except String Unit :=
  if c.mode = "" ∨ c.mode = "disabled" then
    refuseIf c.required "storage workload auth cannot be required when mode is disabled"
  else if c.mode = "oidc" then do
    refuseIf (trimSpace c.issuer == "" || trimSpace c.audience == "")
      "storage workload OIDC issuer and audience are required"
    refuseIf (!isAbsolute c.issuer) "storage workload OIDC issuer must be absolute"
  else .error ("unsupported storage workload auth mode " ++ quote c.mode)

/-- The test for settings of the storage role. -/
def Config.storageConfigured (c : Config) : Bool :=
  c.runtime.hasRole .storage || c.storage.signerBaseURL != "" ||
    c.storage.providers.entries.length != 0 || c.storage.signerTimeout != 0 ||
    c.storage.defaultTTL != 0 || c.storage.maxTTL != 0 ||
    c.storage.targets.entries.length != 0 || c.storage.accessPolicyURL != ""

/-- The loop over the providers. -/
def StorageRoleConfig.checkProviders (c : StorageRoleConfig) : Except String Unit :=
  c.providers.entries.forM fun entry => do
    let name := trimSpace entry.1
    refuseIf (name == "") "storage provider name is required"
    refuseIf (!isAbsolute (trimSpace entry.2.signerBaseURL))
      ("storage provider " ++ quote name ++ " signer base URL must be absolute")

/-- The loop over the targets, which is made when there are providers. -/
def StorageRoleConfig.checkTargets (c : StorageRoleConfig) : Except String Unit :=
  if c.providers.entries.length = 0 then .ok ()
  else
    c.targets.entries.forM fun entry =>
      refuseIf ((c.providers.lookup entry.2.provider).isNone)
        ("storage target " ++ quote entry.1 ++ " references unconfigured provider " ++
          quote entry.2.provider)

def StorageRoleConfig.validate (c : StorageRoleConfig) : Except String Unit := do
  refuseIf (c.signerTimeout ≤ 0) "storage signer timeout must be positive"
  refuseIf (c.defaultTTL ≤ 0 || c.maxTTL ≤ 0 || c.maxTTL < c.defaultTTL)
    "storage presign TTLs must be positive and default <= max"
  refuseIf (c.signerBaseURL != "" && !isAbsolute c.signerBaseURL)
    "storage signer base URL must be absolute"
  c.checkProviders
  c.checkTargets
  refuseIf (c.accessPolicyTimeout ≤ 0) "storage access policy timeout must be positive"
  refuseIf (trimSpace c.subjectHeader == "") "storage subject header is required"
  refuseIf (c.targets.entries.length != 0 && c.accessPolicyURL == "")
    "storage access policy URL is required when storage targets are configured"
  refuseIf (c.accessPolicyURL != "" && !isAbsolute c.accessPolicyURL)
    "storage access policy URL must be absolute"
  c.workloadAuth.validate

/-- The first check of `Config.Validate`, made when a role is selected. -/
def Config.validateRuntime (c : Config) : Except String Unit :=
  if c.runtime.roles.length = 0 then .ok ()
  else c.runtime.validate.mapError fun e => "runtime selection: " ++ e

/-- The checks on the storage role, made when something of it is configured. -/
def Config.validateStorage (c : Config) : Except String Unit :=
  if c.storageConfigured then c.storage.validate else .ok ()

/-- `Config.Validate`. -/
def Config.validate (c : Config) : Except String Unit := do
  c.validateRuntime
  c.http.validate
  c.limits.validate
  c.oidc.validate
  c.store.validate
  c.session.validate
  c.validateStorage
  refuseIf (c.policyProvider != "" && c.policyProvider != "static")
    ("unsupported policy provider " ++ quote c.policyProvider)

end Validate

section Wiring

/-- The `roleruntime.Config` that `RunWith` starts the storage role with, given the clients
it has made. -/
def Config.roleConfig (c : Config) (signer : Option Storage.StorageSigner)
    (providers : Storage.ProviderRegistry) (policy : Option Storage.Evaluator)
    (verifier : Option Storage.Verifier) : Storage.Config where
  selection := ⟨c.runtime.roles, c.runtime.capabilitiesOf⟩
  storageSigner := signer
  storageProviders := providers
  storageDefaultTTL := c.storage.defaultTTL
  storageMaxTTL := c.storage.maxTTL
  storageTargets := c.storage.targets.toFinmap
  storageAccessPolicy := policy
  storageSubjectHeader := c.storage.subjectHeader
  workloadVerifier := verifier
  workloadAuthRequired := c.storage.workloadAuth.required

end Wiring

section Spec

theorem refuseIf_ok {bad : Bool} {message : String} (h : refuseIf bad message = .ok ()) :
    bad = false := by
  cases bad with
  | false =>
      rfl
  | true =>
      cases h

theorem ok_of_bind
    {α : Type} {first : Except String Unit} {next : Except String α} {a : α}
    (h : (do first; next) = .ok a) :
    first = .ok () ∧ next = .ok a := by
  obtain ⟨u, hfirst, hnext⟩ := exists_of_bind_ok h
  exact ⟨hfirst, hnext⟩

/-- What `HTTPConfig.Validate` checks of an accepted configuration. -/
theorem HTTPConfig.validate_ok
    {c : HTTPConfig} (h : c.validate = .ok ()) :
    normalizeBasePath c.basePath = .ok c.normalizedBasePath ∧
      ∃ url, parse c.publicURL = some url ∧ url.host ≠ "" ∧ url.rawQuery = "" ∧
        url.fragment = "" := by
  unfold HTTPConfig.validate at h
  obtain ⟨-, h⟩ := ok_of_bind h
  obtain ⟨base, hbase, h⟩ := exists_of_bind_ok h
  refine ⟨by simp [HTTPConfig.normalizedBasePath, hbase], ?_⟩
  cases hparse : parse c.publicURL with
  | none =>
      rw [hparse] at h
      cases h
  | some url =>
      rw [hparse] at h
      obtain ⟨habsolute, h⟩ := ok_of_bind h
      have hhost := refuseIf_ok habsolute
      have hrest := refuseIf_ok h
      simp only [Bool.or_eq_false_iff, beq_eq_false_iff_ne, bne_eq_false_iff_eq] at hhost hrest
      exact ⟨url, rfl, hhost.2, hrest⟩

/-- Every section of an accepted configuration is accepted. -/
theorem validate_sections
    {c : Config} (h : c.validate = .ok ()) :
    c.http.validate = .ok () ∧ c.session.validate = .ok () ∧
      (c.storageConfigured = true → c.storage.validate = .ok ()) := by
  unfold Config.validate at h
  obtain ⟨-, h⟩ := ok_of_bind h
  obtain ⟨hhttp, h⟩ := ok_of_bind h
  obtain ⟨-, h⟩ := ok_of_bind h
  obtain ⟨-, h⟩ := ok_of_bind h
  obtain ⟨-, h⟩ := ok_of_bind h
  obtain ⟨hsession, h⟩ := ok_of_bind h
  obtain ⟨hstorage, -⟩ := ok_of_bind h
  refine ⟨hhttp, hsession, ?_⟩
  intro hconfigured
  rwa [Config.validateStorage, if_pos hconfigured] at hstorage

/-- The default lifetime of an accepted configuration is unset, or positive and at most the
maximum. -/
theorem defaultTTL_of_validate
    {c : Config} (h : c.validate = .ok ()) :
    c.storage.defaultTTL = 0 ∨
      0 < c.storage.defaultTTL ∧ c.storage.defaultTTL ≤ c.storage.maxTTL := by
  by_cases hunset : c.storage.defaultTTL = 0
  · exact Or.inl hunset
  · have hconfigured : c.storageConfigured = true := by
      simp [Config.storageConfigured, hunset]
    have hstorage := (validate_sections h).2.2 hconfigured
    unfold StorageRoleConfig.validate at hstorage
    obtain ⟨-, hstorage⟩ := ok_of_bind hstorage
    obtain ⟨httl, -⟩ := ok_of_bind hstorage
    have hbad := refuseIf_ok httl
    simp only [Bool.or_eq_false_iff, decide_eq_false_iff_not, Int64.not_le, Int64.not_lt] at hbad
    exact Or.inr ⟨hbad.1.1, hbad.2⟩

end Spec

end App
end GatewayRuntime
