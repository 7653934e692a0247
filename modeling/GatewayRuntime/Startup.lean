import GatewayRuntime.ManagedItemPath
import GatewayRuntime.RemoteSigner
import GatewayRuntime.StorageRegistries

/-!
# Starting the specialised roles

The part of `RunWith` that sets up a process without the role `rebff`: it makes the clients
of the remote signers, the verifier of workload tokens and the client of the access policy,
and hands them to `roleruntime.Run`.  `Run` itself, which mounts the handlers below the base
path and listens, comes after what is modelled here.

What `Config.Validate` accepts is enough for the set-up: no client can fail to be made, only
the discovery of the workload issuer can, and the readiness handler reports the role ready as
soon as it has a signer for what it serves (`accepted_config_ready_iff`).

What a remote service answers once the process runs is arbitrary.  `storage.RemoteSigner`
has the methods of all three signer interfaces.
-/

namespace GatewayRuntime
namespace App

open GoText GoUrl
open Storage (StorageSigner MultipartMethods Provider ProviderRegistry ProviderRange Principal
  Verifier Evaluator)

section Model

/-- `claims` of `internal/workloadauth`. -/
structure WorkloadClaims where
  subject : String
  issuer : String
  clientID : String
  azp : String

/-- The service that a workload token names. -/
def WorkloadClaims.service (c : WorkloadClaims) : String :=
  if trimSpace c.clientID ≠ "" then trimSpace c.clientID
  else if trimSpace c.azp ≠ "" then trimSpace c.azp
  else trimSpace c.subject

/-- `OIDCVerifier.Verify`, given what the verifier of the library makes of a token: an error, or
its claims, which may fail to decode. -/
def verifyWorkload (verify : String → Except String (Except String WorkloadClaims)) : Verifier :=
  fun rawToken =>
    if trimSpace rawToken = "" then .error "workload token is required"
    else
      match verify (trimSpace rawToken) with
      | .error e => .error ("verify workload token: " ++ e)
      | .ok (.error e) => .error ("decode workload claims: " ++ e)
      | .ok (.ok c) =>
          if c.service = "" then .error "workload token missing service identity"
          else .ok ⟨c.service, trimSpace c.subject, trimSpace c.issuer⟩

/-- The methods of a `storage.RemoteSigner`. -/
structure RemoteMethods where
  presignPut : Storage.PresignedRequest → Except String Storage.PresignedOperation
  presignGet : Storage.PresignedRequest → Except String Storage.PresignedOperation
  multipart : MultipartMethods
  getMetadata : Storage.StorageMetadataRequest → Except String Storage.StorageMetadata

/-- `storage.RemoteSigner` as a signer. -/
def RemoteMethods.signer (m : RemoteMethods) : StorageSigner where
  presignPut := m.presignPut
  presignGet := m.presignGet
  multipart := some m.multipart
  metadata := some m.getMetadata

/-- The services around the process: what is behind a client, and what the discovery of an
issuer gives, a verifier for every audience. -/
structure Outside where
  signer : Outbound.Client → RemoteMethods
  policy : Outbound.Client → Evaluator
  discover : String → Except Err (String → String → Except String (Except String WorkloadClaims))

/-- `outbound.New`, with the context that `RunWith` adds to an error. -/
def newClient (context baseURL : String) : Except Err Outbound.Client :=
  (Outbound.newClient DomainApi.parseBase baseURL).mapError (.wrap context "")

/-- `workloadauth.NewOIDC`. -/
def newOIDC (out : Outside) (issuer audience : String) : Except Err Verifier :=
  if trimSpace issuer = "" ∨ trimSpace audience = "" then
    .error (.text "workload oidc issuer and audience are required")
  else
    match out.discover (trimRight (trimSpace issuer) '/') with
    | .error e => .error (.wrap "workload oidc discovery: " "" e)
    | .ok provider => .ok (verifyWorkload (provider (trimSpace audience)))

variable (out : Outside) (c : Config)

def startSigner : Except Err (Option StorageSigner) :=
  if c.runtime.hasRole .storage && c.storage.signerBaseURL != "" then
    (newClient "initialize storage signer client: " c.storage.signerBaseURL).map fun client =>
      some (out.signer client).signer
  else .ok none

/-- One round of the loop over the providers. -/
def startProvider (registry : ProviderRegistry) (entry : Sigma fun _ : String => StorageProviderConfig) :
    Except Err ProviderRegistry :=
  (newClient ("initialize storage provider " ++ quote entry.1 ++ " signer client: ")
    entry.2.signerBaseURL).map fun client =>
      registry.insert entry.1 ⟨some (out.signer client).signer⟩

def startProviders : Except Err ProviderRegistry :=
  if c.runtime.hasRole .storage then c.storage.providers.entries.foldlM (startProvider out) ∅
  else .ok ∅

def startVerifier : Except Err (Option Verifier) :=
  if c.runtime.hasRole .storage && c.storage.workloadAuth.mode == "oidc" then
    ((newOIDC out c.storage.workloadAuth.issuer c.storage.workloadAuth.audience).mapError
      (.wrap "initialize storage workload verifier: " "")).map some
  else .ok none

def startPolicy : Except Err (Option Evaluator) :=
  if c.runtime.hasRole .storage && c.storage.accessPolicyURL != "" then
    (newClient "initialize storage access policy client: " c.storage.accessPolicyURL).map
      fun client => some (out.policy client)
  else .ok none

/-- The first branch of `RunWith`, up to `roleruntime.Run`. -/
def startRole : Except Err Storage.Config := do
  let signer ← startSigner out c
  let providers ← startProviders out c
  let verifier ← startVerifier out c
  let policy ← startPolicy out c
  .ok (c.roleConfig signer providers policy verifier)

end Model

section Accepted

/-- What `Config.Validate` checks of the storage role. -/
structure StorageRoleConfig.Checked (c : StorageRoleConfig) : Prop where
  signer : c.signerBaseURL ≠ "" → isAbsolute c.signerBaseURL = true
  providers : ∀ entry ∈ c.providers.entries, isAbsolute (trimSpace entry.2.signerBaseURL) = true
  targets : c.providers.entries.length ≠ 0 →
    ∀ entry ∈ c.targets.entries, (c.providers.lookup entry.2.provider).isSome = true
  policy_set : c.targets.entries.length ≠ 0 → c.accessPolicyURL ≠ ""
  policy : c.accessPolicyURL ≠ "" → isAbsolute c.accessPolicyURL = true
  workload : c.workloadAuth.required = true → c.workloadAuth.mode = "oidc"
  oidc : c.workloadAuth.mode = "oidc" →
    trimSpace c.workloadAuth.issuer ≠ "" ∧ trimSpace c.workloadAuth.audience ≠ ""

theorem StorageRoleConfig.checked_of_validate
    {c : StorageRoleConfig}
    (h : c.validate = .ok ()) :
    c.Checked := by
  unfold StorageRoleConfig.validate at h
  obtain ⟨-, h⟩ := ok_of_bind h
  obtain ⟨-, h⟩ := ok_of_bind h
  obtain ⟨hsigner, h⟩ := ok_of_bind h
  obtain ⟨hproviders, h⟩ := ok_of_bind h
  obtain ⟨htargets, h⟩ := ok_of_bind h
  obtain ⟨-, h⟩ := ok_of_bind h
  obtain ⟨-, h⟩ := ok_of_bind h
  obtain ⟨hpolicySet, h⟩ := ok_of_bind h
  obtain ⟨hpolicy, hworkload⟩ := ok_of_bind h
  have hsigner := refuseIf_ok hsigner
  have hpolicySet := refuseIf_ok hpolicySet
  have hpolicy := refuseIf_ok hpolicy
  simp only [Bool.and_eq_false_iff, bne_eq_false_iff_eq, Bool.not_eq_false',
    beq_eq_false_iff_ne] at hsigner hpolicySet hpolicy
  exact {
    signer := hsigner.resolve_left
    providers := by
      intro entry hentry
      have hround := forM_eq_ok_iff.mp hproviders entry hentry
      obtain ⟨-, hurl⟩ := ok_of_bind hround
      simpa using refuseIf_ok hurl
    targets := by
      intro hlength entry hentry
      unfold StorageRoleConfig.checkTargets at htargets
      rw [if_neg hlength] at htargets
      simpa [Option.isSome_iff_ne_none] using
        refuseIf_ok (forM_eq_ok_iff.mp htargets entry hentry)
    policy_set := hpolicySet.resolve_left
    policy := hpolicy.resolve_left
    workload := by
      intro hrequired
      unfold StorageWorkloadAuthConfig.validate at hworkload
      split_ifs at hworkload with hdisabled hoidc
      · rw [hrequired] at hworkload
        cases hworkload
      · exact hoidc
    oidc := by
      intro hoidc
      unfold StorageWorkloadAuthConfig.validate at hworkload
      rw [if_neg (by simp [hoidc]), if_pos hoidc] at hworkload
      obtain ⟨hset, -⟩ := ok_of_bind hworkload
      simpa using refuseIf_ok hset }

/-- The names and the addresses that `parseStorageProviders` returns are trimmed. -/
theorem trimmed_of_parseStorageProviders
    {text name : String} {providers : Finmap fun _ : String => StorageProviderConfig}
    {provider : StorageProviderConfig}
    (h : ParseStorageProviders text (.ok providers))
    (hlookup : providers.lookup name = some provider) :
    trimSpace name = name ∧ trimSpace provider.signerBaseURL = provider.signerBaseURL := by
  cases h with
  | blank _ => simp at hlookup
  | @ranged decoded _ _ _ hruns =>
      rw [providerRound_eq] at hruns
      have hresult := MapRange.Normaliser.runs_ok hruns
      have hname : trimSpace name = name := by
        by_contra hne
        have hnone := hresult.spelling name hne
        rw [hlookup] at hnone
        cases hnone
      refine ⟨hname, ?_⟩
      have houtcome := hresult.normal name hname
      rw [hlookup] at houtcome
      obtain ⟨old, hfix⟩ := houtcome.fixed
      obtain ⟨-, rfl⟩ := providerNormaliser_fix_inv hfix
      exact trimSpace_trimSpace _

end Accepted

section Clients

/-- A URL that `Config.Validate` takes for absolute is one for `outbound.New`. -/
theorem newClient_of_isAbsolute
    (context : String) {baseURL : String}
    (h : isAbsolute baseURL = true) :
    ∃ client, newClient context baseURL = .ok client := by
  unfold isAbsolute at h
  cases hparse : parse baseURL with
  | none =>
      rw [hparse] at h
      cases h
  | some ref =>
      simp only [hparse, Bool.and_eq_true, bne_iff_ne, ne_eq] at h
      obtain ⟨ref', hparse', hscheme, hhost⟩ := parse_trimRight hparse h.1 h.2
      refine ⟨⟨⟨ref'.scheme, ref'.host, ref'.url.path⟩, false, 1, 1048576⟩, ?_⟩
      simp only [newClient, Outbound.newClient, DomainApi.parseBase, hparse', Option.map_some]
      rw [if_neg (by rw [hscheme, hhost]; exact not_or.mpr h)]
      rfl

/-- The registry that the loop over the providers has built: a signer for each name. -/
structure Registered (names : List String) (registry : ProviderRegistry) : Prop where
  found : ∀ name ∈ names, ∃ methods : RemoteMethods,
    registry.lookup name = some ⟨some methods.signer⟩
  only : ∀ name provider, registry.lookup name = some provider → name ∈ names

theorem Registered.insert
    {names : List String} {registry : ProviderRegistry}
    (h : Registered names registry) (name : String) (methods : RemoteMethods) :
    Registered (name :: names) (registry.insert name ⟨some methods.signer⟩) where
  found := by
    intro other hother
    by_cases hsame : other = name
    · subst hsame
      exact ⟨methods, Finmap.lookup_insert _⟩
    · rw [Finmap.lookup_insert_of_ne _ hsame]
      exact h.found other ((List.mem_cons.mp hother).resolve_left hsame)
  only := by
    intro other provider hlookup
    by_cases hsame : other = name
    · exact List.mem_cons.mpr (Or.inl hsame)
    · rw [Finmap.lookup_insert_of_ne _ hsame] at hlookup
      exact List.mem_cons_of_mem _ (h.only other provider hlookup)

/-- The loop over the providers makes a client for each of them. -/
theorem foldlM_startProvider
    {out : Outside} {entries : List (Sigma fun _ : String => StorageProviderConfig)}
    {names : List String} {registry : ProviderRegistry}
    (hregistry : Registered names registry)
    (habsolute : ∀ entry ∈ entries, isAbsolute entry.2.signerBaseURL = true) :
    ∃ registry' names', entries.foldlM (startProvider out) registry = .ok registry' ∧
      Registered names' registry' ∧ ∀ name, name ∈ names' ↔ name ∈ names ∨ name ∈ entries.keys := by
  induction entries generalizing names registry with
  | nil => exact ⟨registry, names, rfl, hregistry, by simp [List.keys]⟩
  | cons entry entries ih =>
      obtain ⟨client, hclient⟩ := newClient_of_isAbsolute
        ("initialize storage provider " ++ quote entry.1 ++ " signer client: ")
        (habsolute entry List.mem_cons_self)
      obtain ⟨registry', names', hfold, hregistered, hnames⟩ :=
        ih (hregistry.insert entry.1 (out.signer client))
          fun e he => habsolute e (List.mem_cons_of_mem _ he)
      have hround : startProvider out registry entry =
          .ok (registry.insert entry.1 ⟨some (out.signer client).signer⟩) := by
        rw [startProvider, hclient]
        rfl
      refine ⟨registry', names', ?_, hregistered, fun name => ?_⟩
      · rw [List.foldlM_cons, hround]
        exact hfold
      · rw [hnames, List.mem_cons, List.keys_cons, List.mem_cons]
        exact or_assoc.trans or_left_comm

end Clients

section Started

variable {out : Outside} {c : Config} {text : String}

/-- The storage role of an accepted configuration is checked. -/
theorem checked_of_validate
    (h : c.validate = .ok ())
    (hrole : c.runtime.hasRole .storage = true) :
    c.storage.Checked :=
  StorageRoleConfig.checked_of_validate
    ((validate_sections h).2.2 (by simp [Config.storageConfigured, hrole]))

/-- The parts of a storage role that has been started. -/
structure Parts (c : Config) (cfg : Storage.Config) : Prop where
  targets : cfg.storageTargets = c.storage.targets.toFinmap
  required : cfg.workloadAuthRequired = c.storage.workloadAuth.required
  signer : cfg.storageSigner.isSome = true ↔ c.storage.signerBaseURL ≠ ""
  signer_remote : ∀ s, cfg.storageSigner = some s → ∃ methods : RemoteMethods, s = methods.signer
  providers : ∃ names, Registered names cfg.storageProviders ∧
    ∀ name, name ∈ names ↔ name ∈ c.storage.providers
  verifier : c.storage.workloadAuth.mode = "oidc" → cfg.workloadVerifier.isSome = true
  policy : c.storage.accessPolicyURL ≠ "" → cfg.storageAccessPolicy.isSome = true

/-- The client of the signer is made when there is an address for it. -/
theorem startSigner_of_checked
    (hrole : c.runtime.hasRole .storage = true) (h : c.storage.Checked) :
    ∃ signer, startSigner out c = .ok signer ∧
      (signer.isSome = true ↔ c.storage.signerBaseURL ≠ "") ∧
      ∀ s, signer = some s → ∃ methods : RemoteMethods, s = methods.signer := by
  unfold startSigner
  by_cases hurl : c.storage.signerBaseURL = ""
  · exact ⟨none, by simp [hurl], by simp [hurl], by simp⟩
  · obtain ⟨client, hclient⟩ :=
      newClient_of_isAbsolute "initialize storage signer client: " (h.signer hurl)
    refine ⟨some (out.signer client).signer, ?_, by simp [hurl], ?_⟩
    · simp [hrole, hurl, hclient, Except.map]
    · rintro s ⟨⟩
      exact ⟨_, rfl⟩

theorem startProviders_of_checked
    (hrole : c.runtime.hasRole .storage = true) (h : c.storage.Checked)
    (hparse : ParseStorageProviders text (.ok c.storage.providers.toFinmap)) :
    ∃ registry names, startProviders out c = .ok registry ∧ Registered names registry ∧
      ∀ name, name ∈ names ↔ name ∈ c.storage.providers := by
  have habsolute : ∀ entry ∈ c.storage.providers.entries,
      isAbsolute entry.2.signerBaseURL = true := by
    rintro ⟨name, provider⟩ hentry
    have hlookup : c.storage.providers.toFinmap.lookup name = some provider :=
      Finmap.lookup_eq_some_iff.mpr hentry
    have htrimmed := (trimmed_of_parseStorageProviders hparse hlookup).2
    have hchecked := h.providers _ hentry
    rwa [htrimmed] at hchecked
  have hempty : Registered [] (∅ : ProviderRegistry) := ⟨by simp, by simp⟩
  obtain ⟨registry, names, hfold, hregistered, hnames⟩ :=
    @foldlM_startProvider out _ _ _ hempty habsolute
  refine ⟨registry, names, ?_, hregistered, fun name => ?_⟩
  · rw [startProviders, if_pos hrole, hfold]
  · rw [hnames, AList.mem_keys, AList.keys]
    simp

theorem startPolicy_of_checked
    (hrole : c.runtime.hasRole .storage = true) (h : c.storage.Checked) :
    ∃ policy, startPolicy out c = .ok policy ∧
      (c.storage.accessPolicyURL ≠ "" → policy.isSome = true) := by
  unfold startPolicy
  by_cases hurl : c.storage.accessPolicyURL = ""
  · exact ⟨none, by simp [hurl], fun hne => absurd hurl hne⟩
  · obtain ⟨client, hclient⟩ :=
      newClient_of_isAbsolute "initialize storage access policy client: " (h.policy hurl)
    exact ⟨some (out.policy client), by simp [hrole, hurl, hclient, Except.map], fun _ => rfl⟩

/-- The verifier of workload tokens is made, unless the discovery of its issuer fails. -/
theorem startVerifier_of_checked
    (hrole : c.runtime.hasRole .storage = true) (h : c.storage.Checked) :
    (∃ verifier, startVerifier out c = .ok verifier ∧
      (c.storage.workloadAuth.mode = "oidc" → verifier.isSome = true)) ∨
    c.storage.workloadAuth.mode = "oidc" ∧ ∃ cause,
      out.discover (trimRight (trimSpace c.storage.workloadAuth.issuer) '/') = .error cause ∧
      startVerifier out c = .error (.wrap "initialize storage workload verifier: " ""
        (.wrap "workload oidc discovery: " "" cause)) := by
  unfold startVerifier
  by_cases hmode : c.storage.workloadAuth.mode = "oidc"
  · rw [if_pos (by simp [hrole, hmode]), newOIDC, if_neg (not_or.mpr (h.oidc hmode))]
    cases hdiscover : out.discover (trimRight (trimSpace c.storage.workloadAuth.issuer) '/') with
    | error cause => exact Or.inr ⟨hmode, cause, rfl, rfl⟩
    | ok provider => exact Or.inl ⟨_, rfl, fun _ => rfl⟩
  · exact Or.inl ⟨none, by simp [hmode], fun h => absurd h hmode⟩

/-- The storage role of an accepted configuration has all its parts once it is started, and
only the discovery of the workload issuer keeps it from being started. -/
theorem startRole_of_checked
    (hrole : c.runtime.hasRole .storage = true) (h : c.storage.Checked)
    (hparse : ParseStorageProviders text (.ok c.storage.providers.toFinmap)) :
    (∃ cfg, startRole out c = .ok cfg ∧ Parts c cfg) ∨
    c.storage.workloadAuth.mode = "oidc" ∧ ∃ cause,
      out.discover (trimRight (trimSpace c.storage.workloadAuth.issuer) '/') = .error cause ∧
      startRole out c = .error (.wrap "initialize storage workload verifier: " ""
        (.wrap "workload oidc discovery: " "" cause)) := by
  obtain ⟨signer, hsigner, hsome, hremote⟩ := @startSigner_of_checked out c hrole h
  obtain ⟨registry, names, hproviders, hregistered, hnames⟩ :=
    @startProviders_of_checked out c text hrole h hparse
  obtain ⟨policy, hpolicy, hpolicySome⟩ := @startPolicy_of_checked out c hrole h
  rcases @startVerifier_of_checked out c hrole h with
    ⟨verifier, hverifier, hverifierSome⟩ | ⟨hmode, cause, hdiscover, hverifier⟩
  · refine Or.inl ⟨c.roleConfig signer registry policy verifier, ?_, ?_⟩
    · rw [startRole, hsigner, hproviders, hverifier, hpolicy]
      rfl
    · exact ⟨rfl, rfl, hsome, hremote, ⟨names, hregistered, hnames⟩, hverifierSome, hpolicySome⟩
  · refine Or.inr ⟨hmode, cause, hdiscover, ?_⟩
    rw [startRole, hsigner, hproviders, hverifier]
    rfl

/-- A process that is started has the roles and the capabilities that are selected. -/
theorem selection_of_startRole
    {cfg : Storage.Config} (h : startRole out c = .ok cfg) :
    cfg.selection = ⟨c.runtime.roles, c.runtime.capabilitiesOf⟩ := by
  obtain ⟨_, -, h⟩ := exists_of_bind_ok h
  obtain ⟨_, -, h⟩ := exists_of_bind_ok h
  obtain ⟨_, -, h⟩ := exists_of_bind_ok h
  obtain ⟨_, -, h⟩ := exists_of_bind_ok h
  cases h
  rfl

/-- A process without the storage role needs nothing. -/
theorem startRole_of_not_hasRole
    (hrole : c.runtime.hasRole .storage = false) :
    startRole out c = .ok (c.roleConfig none ∅ none none) := by
  simp only [startRole, startSigner, startProviders, startVerifier, startPolicy, hrole,
    Bool.false_and, Bool.false_eq_true, if_false]
  rfl

end Started

section Ready

variable {out : Outside} {c : Config} {cfg : Storage.Config} {text : String}

/-- The process has the storage role, with a capability that needs a signer. -/
def Config.Signs (c : Config) : Prop :=
  c.runtime.hasRole .storage = true ∧
    Storage.storageProviderRequired ⟨c.runtime.roles, c.runtime.capabilitiesOf⟩ = true

/-- There is a signer for what the storage role serves: the one without a name, or, with named
providers, that of every target, or the default one when there are no targets. -/
def Config.HasSigner (c : Config) : Prop :=
  if c.storage.providers.entries.length = 0 then c.storage.signerBaseURL ≠ ""
  else c.storage.targets.entries.length ≠ 0 ∨ "default" ∈ c.storage.providers

/-- A remote signer passes every type assertion. -/
theorem checkInterfaces_remote (cfg : Storage.Config) (methods : RemoteMethods) :
    Storage.checkInterfaces cfg methods.signer = .ok () := by
  simp [Storage.checkInterfaces, RemoteMethods.signer]

/-- The loop of the readiness check finds a signer under every configured name. -/
theorem checkProvider_of_mem
    (hparse : ParseStorageProviders text (.ok c.storage.providers.toFinmap))
    (hparts : Parts c cfg)
    {name : String} (hname : name ∈ c.storage.providers) :
    Storage.checkProvider cfg name = .ok () := by
  obtain ⟨names, hregistered, hnames⟩ := hparts.providers
  obtain ⟨methods, hlookup⟩ := hregistered.found name ((hnames name).mpr hname)
  obtain ⟨provider, hprovider⟩ := Finmap.mem_iff.mp
    (show name ∈ c.storage.providers.toFinmap from hname)
  have hresolve : cfg.storageProviders.resolve name = some ⟨some methods.signer⟩ := by
    rw [ProviderRegistry.resolve, (trimmed_of_parseStorageProviders hparse hprovider).1]
    exact hlookup
  rw [Storage.checkProvider, hresolve]
  exact checkInterfaces_remote cfg methods

theorem mem_of_checkProvider
    (hparts : Parts c cfg)
    {name : String} (htrimmed : trimSpace name = name)
    (h : Storage.checkProvider cfg name = .ok ()) :
    name ∈ c.storage.providers := by
  obtain ⟨names, hregistered, hnames⟩ := hparts.providers
  obtain ⟨signer, hsigner, -⟩ := Storage.checkProvider_ok h
  obtain ⟨provider, hprovider, -⟩ := Option.bind_eq_some_iff.mp hsigner
  rw [ProviderRegistry.resolve, htrimmed] at hprovider
  exact (hnames name).mp (hregistered.only name provider hprovider)

/-- The registry is empty when no provider is configured, and only then. -/
theorem Parts.mapLen_providers
    (hparts : Parts c cfg) :
    Storage.mapLen cfg.storageProviders = 0 ↔ c.storage.providers.entries.length = 0 := by
  obtain ⟨names, hregistered, hnames⟩ := hparts.providers
  constructor
  · intro hempty
    by_contra hlength
    obtain ⟨entry, hentry⟩ := List.exists_mem_of_length_pos (Nat.pos_of_ne_zero hlength)
    have hmem : entry.1 ∈ c.storage.providers :=
      AList.mem_keys.mpr (List.mem_map_of_mem hentry)
    obtain ⟨methods, hlookup⟩ := hregistered.found entry.1 ((hnames _).mpr hmem)
    exact Storage.mapLen_ne_zero hlookup hempty
  · intro hlength
    by_contra hempty
    obtain ⟨entry, hentry⟩ := Multiset.card_pos_iff_exists_mem.mp (Nat.pos_of_ne_zero hempty)
    have hname := (hnames _).mp
      (hregistered.only entry.1 entry.2 (Finmap.lookup_eq_some_iff.mpr hentry))
    rw [AList.mem_keys, AList.keys, List.length_eq_zero_iff.mp hlength] at hname
    exact absurd hname List.not_mem_nil

/-- The readiness check of the providers passes when there is a signer for what is served. -/
theorem Parts.validateStorageProvidersReady_iff
    (hparse : ParseStorageProviders text (.ok c.storage.providers.toFinmap))
    (h : c.storage.Checked) (hparts : Parts c cfg) (range : ProviderRange cfg) :
    Storage.validateStorageProvidersReady cfg range = .ok () ↔ c.HasSigner := by
  unfold Storage.validateStorageProvidersReady Config.HasSigner
  by_cases hproviders : c.storage.providers.entries.length = 0
  · rw [if_pos (hparts.mapLen_providers.mpr hproviders), if_pos hproviders, ← hparts.signer]
    cases hsigner : cfg.storageSigner with
    | none => simp
    | some signer =>
        obtain ⟨methods, rfl⟩ := hparts.signer_remote signer hsigner
        simp [checkInterfaces_remote]
  rw [if_neg fun hempty => hproviders (hparts.mapLen_providers.mp hempty), if_neg hproviders]
  have htargets : Storage.mapLen cfg.storageTargets = c.storage.targets.entries.length := by
    rw [hparts.targets]
    rfl
  by_cases hlength : c.storage.targets.entries.length = 0
  · -- Without targets the loop visits the default name only.
    have hnames : Storage.providerNames cfg = {"default"} := by
      rw [Storage.providerNames, if_pos (htargets.trans hlength)]
    constructor
    · intro hready
      have hvisited := Storage.mem_visited range (hnames ▸ Finset.mem_singleton_self "default")
      exact Or.inr
        (mem_of_checkProvider hparts (by decide) (forM_eq_ok_iff.mp hready _ hvisited))
    · intro hmem
      refine forM_eq_ok_iff.mpr fun name hname => ?_
      rw [← Multiset.mem_coe, range.order, hnames, Finset.mem_val, Finset.mem_singleton] at hname
      subst hname
      exact checkProvider_of_mem hparse hparts (hmem.resolve_left (not_not.mpr hlength))
  · -- The provider of every target is configured, as `Config.Validate` has checked.
    refine iff_of_true (forM_eq_ok_iff.mpr fun name hname => ?_) (Or.inl hlength)
    rw [← Multiset.mem_coe, range.order, Finset.mem_val, Storage.providerNames,
      if_neg (htargets.trans_ne hlength), Multiset.mem_toFinset, Multiset.mem_map, hparts.targets]
      at hname
    obtain ⟨entry, hentry, rfl⟩ := hname
    exact checkProvider_of_mem hparse hparts
      (AList.lookup_isSome.mp (h.targets hproviders entry hentry))

/-- The readiness endpoint of a storage role that has all its parts. -/
theorem Parts.healthReady_iff
    (hparse : ParseStorageProviders text (.ok c.storage.providers.toFinmap))
    (h : c.storage.Checked) (hparts : Parts c cfg) (range : ProviderRange cfg)
    (hrole : cfg.selection.hasRole .storage = true) :
    (Storage.healthReady cfg range).status = 200 ↔
      (Storage.storageProviderRequired cfg.selection = true → c.HasSigner) := by
  have hverifier : (cfg.workloadAuthRequired && cfg.workloadVerifier.isNone) = false := by
    by_contra hmissing
    obtain ⟨hrequired, hnone⟩ := Bool.and_eq_true_iff.mp (Bool.not_eq_false _ ▸ hmissing)
    have hsome := hparts.verifier (h.workload (hparts.required ▸ hrequired))
    simp [Option.isNone_iff_eq_none.mp hnone] at hsome
  have hpolicy : (decide (0 < Storage.mapLen cfg.storageTargets) &&
      cfg.storageAccessPolicy.isNone) = false := by
    by_contra hmissing
    obtain ⟨htargets, hnone⟩ := Bool.and_eq_true_iff.mp (Bool.not_eq_false _ ▸ hmissing)
    rw [decide_eq_true_eq, hparts.targets] at htargets
    have hsome := hparts.policy (h.policy_set (Nat.ne_of_gt htargets))
    simp [Option.isNone_iff_eq_none.mp hnone] at hsome
  rw [Storage.healthReady, Bool.and_assoc, hverifier, Bool.and_assoc, hpolicy, hrole,
    ← hparts.validateStorageProvidersReady_iff hparse h range]
  cases Storage.storageProviderRequired cfg.selection with
  | false => simp [Storage.Readiness.status]
  | true =>
      cases Storage.validateStorageProvidersReady cfg range with
      | error reason => simp [Storage.Readiness.status]
      | ok => simp [Storage.Readiness.status]

/-- **An accepted configuration is set up, and is ready once it has a signer.**  Only the
discovery of the workload issuer keeps `RunWith` from its call of `roleruntime.Run`.  With what
is handed over there, the readiness handler reports the role ready exactly when its storage
role, if it has to sign anything, has a signer for what it serves. -/
theorem accepted_config_ready_iff
    (out : Outside) (c : Config) (text : String)
    (hparse : ParseStorageProviders text (.ok c.storage.providers.toFinmap))
    (hvalid : c.validate = .ok ()) :
    (∀ e, startRole out c = .error e →
      c.runtime.hasRole .storage = true ∧ c.storage.workloadAuth.mode = "oidc" ∧
      ∃ cause, out.discover (trimRight (trimSpace c.storage.workloadAuth.issuer) '/') =
          .error cause ∧
        e = .wrap "initialize storage workload verifier: " ""
          (.wrap "workload oidc discovery: " "" cause)) ∧
    ∀ cfg, startRole out c = .ok cfg → ∀ range : ProviderRange cfg,
      (Storage.healthReady cfg range).status = 200 ↔ (c.Signs → c.HasSigner) := by
  cases hrole : c.runtime.hasRole .storage with
  | false =>
      rw [startRole_of_not_hasRole hrole]
      refine ⟨fun e h => (nomatch h), fun cfg h range => ?_⟩
      cases h
      have hselection : (c.roleConfig none ∅ none none).selection.hasRole .storage = false := hrole
      simp [Storage.healthReady, hselection, Storage.Readiness.status, Config.Signs, hrole]
  | true =>
      have hchecked := checked_of_validate hvalid hrole
      rcases @startRole_of_checked out c text hrole hchecked hparse with
        ⟨started, hstarted, hparts⟩ | ⟨hmode, cause, hdiscover, hstarted⟩
      · refine ⟨fun e h => ?_, fun cfg h range => ?_⟩
        · rw [hstarted] at h
          cases h
        · have hselection := selection_of_startRole h
          rw [hstarted] at h
          cases h
          have hselected : started.selection.hasRole .storage = true := by
            rw [hselection]
            exact hrole
          rw [hparts.healthReady_iff hparse hchecked range hselected, hselection, Config.Signs,
            hrole]
          simp only [true_and]
      · refine ⟨fun e h => ?_, fun cfg h => ?_⟩
        · rw [hstarted] at h
          cases h
          exact ⟨rfl, hmode, cause, hdiscover, rfl⟩
        · rw [hstarted] at h
          cases h

/-- One provider, which is not the default one. -/
def namedProviders : String :=
  "\x7b\"s3\":\x7b\"signer_base_url\":\" http://s3:19002/ \"\x7d\x7d"

/-- A storage role that presigns with that provider and has no targets. -/
def namedProviderConfig : Config :=
  let base := RemoteSigner.presigningConfig 900000000000
  { base with
    storage := { base.storage with
      signerBaseURL := ""
      providers := AList.singleton "s3" ⟨"http://s3:19002/"⟩ } }

/-- Services that answer nothing. -/
def silentOutside : Outside where
  signer _ := ⟨fun _ => .error "down", fun _ => .error "down",
    ⟨fun _ => .error "down", fun _ => .error "down", fun _ => .error "down",
      fun _ => .error "down"⟩, fun _ => .error "down"⟩
  policy _ := fun _ => .error "down"
  discover _ := .error (.text "down")

theorem parse_namedProviders :
    ParseStorageProviders namedProviders (.ok namedProviderConfig.storage.providers.toFinmap) := by
  have hdecoded : decodeProviders namedProviders =
      some (Finmap.singleton "s3" ⟨" http://s3:19002/ "⟩) := by rfl
  refine .ranged (by decide +kernel) hdecoded ?_
  have hround : providerRound "s3" ⟨" http://s3:19002/ "⟩ =
      .ok [.set "s3" ⟨"http://s3:19002/"⟩] := by rfl
  exact .next (Finset.mem_union_left _ (Finset.mem_singleton_self "s3"))
    Finmap.lookup_singleton_eq hround (.done rfl)

/-- A configuration that is accepted and started and never ready: requests without a target
go to the provider `default`, which is not there. -/
theorem accepted_config_never_ready :
    namedProviderConfig.validate = .ok () ∧
      ∃ cfg, startRole silentOutside namedProviderConfig = .ok cfg ∧
        ∀ range : ProviderRange cfg, (Storage.healthReady cfg range).status ≠ 200 := by
  have hvalid : namedProviderConfig.validate = .ok () := by
    decide +kernel
  obtain ⟨herror, hready⟩ := accepted_config_ready_iff silentOutside namedProviderConfig
    namedProviders parse_namedProviders hvalid
  cases hstart : startRole silentOutside namedProviderConfig with
  | error e => exact absurd (herror e hstart).2.1 (by decide)
  | ok cfg =>
      refine ⟨hvalid, cfg, rfl, fun range hstatus => ?_⟩
      have hsigner := (hready cfg hstart range).mp hstatus ⟨by decide, by decide⟩
      rcases hsigner with htargets | hdefault
      · exact htargets rfl
      · exact absurd hdefault (by decide)

end Ready

end App
end GatewayRuntime
