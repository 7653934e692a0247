import GatewayRuntime.Lib.JsonText
import GatewayRuntime.Lib.MapRange
import GatewayRuntime.AppConfig

/-!
# Parsing the storage registries

`storagetarget.Parse` reads the targets of `STORAGE_TARGETS_JSON` and
`parseStorageProviders` of `internal/app` the providers of
`STORAGE_PROVIDERS_JSON`.  Both decode a JSON object into a map and then rewrite
that map while ranging over it, so one text may have several results: `Parse` and
`ParseStorageProviders` relate a text to each of them.

Both loop bodies are `MapRange.Normaliser`s, whose names are normalised by
`strings.TrimSpace`.  The loop over the providers deletes an entry that it moves;
the loop over the targets leaves it where it was.
-/

namespace GatewayRuntime

open GoText GoJson MapRange

section Registries

/-- Why a registry is refused; the text of a JSON error is left out. -/
inductive RegistryError where
  | json (context : String)
  | refused (message : String)
deriving DecidableEq

/-- A decoded map: the last entry of a name counts, and a nil map has none. -/
def mapOfEntries {α : Type} (entries : Option (List (String × α))) :
    Finmap fun _ : String => α :=
  (entries.getD []).foldl (fun m entry => m.insert entry.1 entry.2) ∅

variable {α : Type}

/-- What both parsers do with a text, given what it decodes to: a blank text is
an empty registry, and `round` is the body of the loop.  A nil registry is an
empty one. -/
inductive RegistryParse (blank : Prop) (decoded : Option (Finmap fun _ : String => α))
    (context : String) (round : String → α → Except RegistryError (List (Edit String α))) :
    Except RegistryError (Finmap fun _ : String => α) → Prop
  | blank :
      blank →
      RegistryParse blank decoded context round (.ok ∅)
  | malformed :
      ¬ blank →
      decoded = none →
      RegistryParse blank decoded context round (.error (.json context))
  | ranged {m : Finmap fun _ : String => α}
      {r : Except RegistryError (Finmap fun _ : String => α)} :
      ¬ blank →
      decoded = some m →
      Runs round (Loop.start m) r →
      RegistryParse blank decoded context round r

variable {blank : Prop} {decoded : Option (Finmap fun _ : String => α)} {context : String}
variable {round : String → α → Except RegistryError (List (Edit String α))}

/-- The results of a text that is not blank and decodes to `m`. -/
theorem RegistryParse.iff_runs
    {m : Finmap fun _ : String => α}
    (hblank : ¬ blank)
    (hdecoded : decoded = some m)
    (r : Except RegistryError (Finmap fun _ : String => α)) :
    RegistryParse blank decoded context round r ↔ Runs round (Loop.start m) r := by
  constructor
  · intro h
    cases h with
    | blank h => exact absurd h hblank
    | malformed _ h => rw [hdecoded] at h; cases h
    | ranged _ h hruns =>
        rw [hdecoded] at h
        cases h
        exact hruns
  · exact .ranged hblank hdecoded

/-- Which accepted texts have one result, for a normalising loop. -/
theorem RegistryParse.order_free_iff
    {N : Normaliser String α RegistryError} {registry : Finmap fun _ : String => α}
    (hround : round = N.body)
    (h : RegistryParse blank decoded context round (.ok registry)) :
    (∀ r, RegistryParse blank decoded context round r → r = .ok registry) ↔
      ∀ m, ¬ blank → decoded = some m → N.Checks m ∧ N.Agrees m := by
  subst hround
  cases h with
  | blank hblank =>
      constructor
      · intro _ m hnot
        exact absurd hblank hnot
      · intro _ r hr
        cases hr with
        | blank _ => rfl
        | malformed hnot _ => exact absurd hblank hnot
        | ranged hnot _ _ => exact absurd hblank hnot
  | @ranged m _ hblank hdecoded hruns =>
      simp only [RegistryParse.iff_runs hblank hdecoded]
      rw [Normaliser.order_free_iff hruns]
      constructor
      · intro h m' _ hdecoded'
        rw [hdecoded] at hdecoded'
        cases hdecoded'
        exact h
      · intro h
        exact h m hblank hdecoded

/-- A spelling that is visited last decides what its name means. -/
theorem RegistryParse.exists_last
    {N : Normaliser String α RegistryError} {m : Finmap fun _ : String => α}
    {n k : String} {a : α}
    (hround : round = N.body)
    (hblank : ¬ blank)
    (hdecoded : decoded = some m)
    (hc : N.Checks m)
    (hs : N.Spells n k)
    (ha : m.lookup k = some a) :
    ∃ registry b, RegistryParse blank decoded context round (.ok registry) ∧
      N.fix n a = .ok b ∧ registry.lookup n = some b := by
  obtain ⟨registry, b, hruns, hfix, hlookup⟩ := Normaliser.exists_run_last hc hs ha
  exact ⟨registry, b, .ranged hblank hdecoded (by rwa [hround]), hfix, hlookup⟩

end Registries

namespace Storage

section Targets

/-- A `Target` from its JSON value. -/
def decodeTarget : Json → Option Target :=
  decodeStruct ⟨"", "", false⟩ fun target name value =>
    if equalFold name "provider" then
      (stringField target.provider value).map fun s => { target with provider := s }
    else if equalFold name "bucket" then
      (stringField target.bucket value).map fun s => { target with bucket := s }
    else if equalFold name "read_only" then
      (boolField target.readOnly value).map fun b => { target with readOnly := b }
    else some target

/-- `json.Unmarshal` into a `Registry`. -/
def decodeTargets (text : String) : Option TargetRegistry :=
  (parseText text).bind fun value => (decodeMap decodeTarget value).map mapOfEntries

/-- The body of the loop of `Parse`. -/
def targetRound (name : String) (target : Target) :
    Except RegistryError (List (Edit String Target)) :=
  let name := trimSpace name
  let target :=
    { target with bucket := trimSpace target.bucket, provider := trimSpace target.provider }
  if name = "" ∨ target.bucket = "" then
    .error (.refused "storage target name and bucket are required")
  else
    let target := if target.provider = "" then { target with provider := "default" } else target
    .ok [.set name target]

/-- `storagetarget.Parse`, with every result that some iteration order gives. -/
def Parse (raw : String) : Except RegistryError TargetRegistry → Prop :=
  RegistryParse (trimSpace raw = "") (decodeTargets (trimSpace raw)) "parse storage targets"
    targetRound

/-- A target as the loop stores it. -/
def Target.normalised (target : Target) : Target where
  provider := if trimSpace target.provider = "" then "default" else trimSpace target.provider
  bucket := trimSpace target.bucket
  readOnly := target.readOnly

/-- Every target of the text has a name and a bucket. -/
def TargetsComplete (decoded : TargetRegistry) : Prop :=
  ∀ name target, decoded.lookup name = some target →
    trimSpace name ≠ "" ∧ trimSpace target.bucket ≠ ""

/-- Padded spellings of one name describe the same target. -/
def TargetsAgree (decoded : TargetRegistry) : Prop :=
  ∀ name name' target target', trimSpace name ≠ name → trimSpace name' ≠ name' →
    trimSpace name = trimSpace name' →
    decoded.lookup name = some target → decoded.lookup name' = some target' →
    target.normalised = target'.normalised

/-- The text leaves no choice to the iteration order. -/
def TargetsUnambiguous (raw : String) : Prop :=
  ∀ decoded, trimSpace raw ≠ "" → decodeTargets (trimSpace raw) = some decoded →
    TargetsComplete decoded ∧ TargetsAgree decoded

theorem trimSpace_default : trimSpace "default" = "default" := by
  decide

theorem Target.normalised_normalised (target : Target) :
    target.normalised.normalised = target.normalised := by
  by_cases h : trimSpace target.provider = ""
  · simp [Target.normalised, h, trimSpace_default]
  · simp [Target.normalised, h]

/-- The loop of `Parse` as a normalising loop. -/
def targetNormaliser : Normaliser String Target RegistryError where
  name := trimSpace
  fix name target :=
    if name = "" ∨ trimSpace target.bucket = "" then
      .error (.refused "storage target name and bucket are required")
    else .ok target.normalised
  replace := false
  name_name := trimSpace_trimSpace
  fix_fix := by
    intro name target target' h
    split_ifs at h with hbad
    have htarget : target.normalised = target' := Except.ok.inj h
    subst htarget
    have hbucket : trimSpace target.normalised.bucket = trimSpace target.bucket :=
      trimSpace_trimSpace _
    rw [hbucket, if_neg hbad, Target.normalised_normalised]

theorem targetRound_eq : targetRound = targetNormaliser.body := by
  funext name target
  by_cases hbad : trimSpace name = "" ∨ trimSpace target.bucket = ""
  · simp [targetRound, Normaliser.body, targetNormaliser, hbad, Except.map]
  · by_cases hprovider : trimSpace target.provider = ""
    · simp [targetRound, Normaliser.body, Normaliser.edits, targetNormaliser, hbad, hprovider,
        Except.map, Target.normalised]
    · simp [targetRound, Normaliser.body, Normaliser.edits, targetNormaliser, hbad, hprovider,
        Except.map, Target.normalised]

theorem targetNormaliser_fix
    (name : String) (target : Target)
    (h : name ≠ "" ∧ trimSpace target.bucket ≠ "") :
    targetNormaliser.fix name target = .ok target.normalised :=
  if_neg (not_or.mpr h)

theorem targetNormaliser_fix_inv
    {name : String} {target target' : Target}
    (h : targetNormaliser.fix name target = .ok target') :
    (name ≠ "" ∧ trimSpace target.bucket ≠ "") ∧ target.normalised = target' := by
  by_cases hbad : name = "" ∨ trimSpace target.bucket = ""
  · have herror : targetNormaliser.fix name target = .error _ := if_pos hbad
    rw [herror] at h
    cases h
  · have hgood := not_or.mp hbad
    rw [targetNormaliser_fix name target hgood] at h
    exact ⟨hgood, Except.ok.inj h⟩

/-- For an accepted text, every order gives the same registry exactly when the
text is unambiguous. -/
theorem parse_order_free_iff
    {raw : String} {registry : TargetRegistry}
    (h : Parse raw (.ok registry)) :
    (∀ r, Parse raw r → r = .ok registry) ↔ TargetsUnambiguous raw := by
  refine (RegistryParse.order_free_iff targetRound_eq h).trans ?_
  refine forall_congr' fun decoded => imp_congr_right fun _ => imp_congr_right fun _ => ?_
  exact Normaliser.checks_and_agrees_iff targetNormaliser_fix
    fun _ _ _ hfix => (targetNormaliser_fix_inv hfix).1

/-- A padded name that is visited last decides what the trimmed name means. -/
theorem parse_last
    {raw name : String} {decoded : TargetRegistry} {target : Target}
    (hraw : trimSpace raw ≠ "")
    (hdecoded : decodeTargets (trimSpace raw) = some decoded)
    (hcomplete : TargetsComplete decoded)
    (hpadded : trimSpace name ≠ name)
    (hlookup : decoded.lookup name = some target) :
    ∃ registry, Parse raw (.ok registry) ∧
      registry.lookup (trimSpace name) = some target.normalised := by
  have hchecks : targetNormaliser.Checks decoded := fun k t h =>
    ⟨t.normalised, targetNormaliser_fix _ _ (hcomplete k t h)⟩
  obtain ⟨registry, target', hparse, hfix, hlast⟩ :=
    RegistryParse.exists_last targetRound_eq hraw hdecoded hchecks ⟨rfl, hpadded.symm⟩ hlookup
  exact ⟨registry, hparse, (targetNormaliser_fix_inv hfix).2 ▸ hlast⟩

end Targets

section Entries

/-- Bucket and provider of a target are trimmed and not empty. -/
structure Target.Normal (target : Target) : Prop where
  bucket_ne : target.bucket ≠ ""
  bucket_trimmed : trimSpace target.bucket = target.bucket
  provider_ne : target.provider ≠ ""
  provider_trimmed : trimSpace target.provider = target.provider

/-- Every entry of the registry is normalised, its name included. -/
structure TargetRegistry.Normalised (registry : TargetRegistry) : Prop where
  name_ne : ∀ name ∈ registry, name ≠ ""
  name_trimmed : ∀ name ∈ registry, trimSpace name = name
  target : ∀ name target, registry.lookup name = some target → target.Normal

/-- No name of the text is padded. -/
def NamesTrimmed (raw : String) : Prop :=
  ∀ decoded, trimSpace raw ≠ "" → decodeTargets (trimSpace raw) = some decoded →
    ∀ name ∈ decoded, trimSpace name = name

theorem Target.normalised_normal
    {target : Target}
    (h : trimSpace target.bucket ≠ "") :
    target.normalised.Normal where
  bucket_ne := h
  bucket_trimmed := trimSpace_trimSpace _
  provider_ne := by
    by_cases hp : trimSpace target.provider = ""
    · simp [Target.normalised, hp]
    · simp [Target.normalised, hp]
  provider_trimmed := by
    by_cases hp : trimSpace target.provider = ""
    · simp [Target.normalised, hp, trimSpace_default]
    · simp [Target.normalised, hp]

/-- The entries under trimmed names are normalised in every result. -/
theorem result_normal_entry
    {decoded registry : TargetRegistry} {name : String} {target : Target}
    (h : targetNormaliser.Result decoded registry)
    (hname : trimSpace name = name)
    (hlookup : registry.lookup name = some target) :
    name ≠ "" ∧ target.Normal := by
  have houtcome := h.normal name hname
  rw [hlookup] at houtcome
  obtain ⟨old, hfix⟩ := houtcome.fixed
  obtain ⟨⟨hne, hbucket⟩, rfl⟩ := targetNormaliser_fix_inv hfix
  exact ⟨hne, Target.normalised_normal hbucket⟩

/-- A result is normalised exactly when no name of the text is padded: the loop
leaves a padded entry as the text has it. -/
theorem parse_normalised_iff
    {raw : String} {registry : TargetRegistry}
    (h : Parse raw (.ok registry)) :
    registry.Normalised ↔ NamesTrimmed raw := by
  cases h with
  | blank hblank =>
      constructor
      · intro _ decoded hnot
        exact absurd hblank hnot
      · intro _
        refine ⟨?_, ?_, ?_⟩
        · intro name hname
          exact absurd hname Finmap.notMem_empty
        · intro name hname
          exact absurd hname Finmap.notMem_empty
        · intro name target hlookup
          exact absurd (Finmap.mem_of_lookup_eq_some hlookup) Finmap.notMem_empty
  | @ranged decoded _ hblank hdecoded hruns =>
      rw [targetRound_eq] at hruns
      have hresult := Normaliser.runs_ok hruns
      have hnames := hresult.names_normal_iff rfl
      constructor
      · intro hnormal decoded' _ hdecoded'
        rw [hdecoded] at hdecoded'
        cases hdecoded'
        exact hnames.mp hnormal.name_trimmed
      · intro htrimmed
        have hreg := hnames.mpr (htrimmed decoded hblank hdecoded)
        refine ⟨?_, hreg, ?_⟩
        · intro name hname
          obtain ⟨target, hlookup⟩ := Finmap.mem_iff.mp hname
          exact (result_normal_entry hresult (hreg name hname) hlookup).1
        · intro name target hlookup
          have hname := Finmap.mem_of_lookup_eq_some hlookup
          exact (result_normal_entry hresult (hreg name hname) hlookup).2

theorem TargetRegistry.Normalised.mem_providerNames
    {cfg : Config}
    (h : cfg.storageTargets.Normalised) :
    ∀ name ∈ providerNames cfg, name ≠ "" ∧ trimSpace name = name := by
  intro name hname
  unfold Storage.providerNames at hname
  split_ifs at hname with hempty
  · rw [Finset.mem_singleton.mp hname]
    exact ⟨by decide, trimSpace_default⟩
  · obtain ⟨entry, hentry, rfl⟩ := Multiset.mem_map.mp (Multiset.mem_toFinset.mp hname)
    have hnormal := h.target entry.1 entry.2 (Finmap.lookup_eq_some_iff.mpr hentry)
    exact ⟨hnormal.provider_ne, hnormal.provider_trimmed⟩

theorem TargetRegistry.Normalised.mem_entries
    {targets : AList fun _ : String => Target}
    (h : TargetRegistry.Normalised targets.toFinmap) :
    ∀ entry ∈ targets.entries,
      entry.1 ≠ "" ∧ trimSpace entry.1 = entry.1 ∧ entry.2.Normal := by
  intro entry hentry
  have hlookup : targets.toFinmap.lookup entry.1 = some entry.2 :=
    Finmap.lookup_eq_some_iff.mpr hentry
  have hmem := Finmap.mem_of_lookup_eq_some hlookup
  exact ⟨h.name_ne _ hmem, h.name_trimmed _ hmem, h.target _ _ hlookup⟩

/-- The entries of a parsed registry are normalised exactly when no name of the
text is padded, and then the loops of `Config.Validate` and of
`validateStorageProvidersReady` meet normalised targets only. -/
theorem parsed_registry_normalised_iff
    (raw : String) (registry : TargetRegistry)
    (h : Parse raw (.ok registry)) :
    (registry.Normalised ↔ NamesTrimmed raw) ∧
      (registry.Normalised →
        (∀ cfg : Config, cfg.storageTargets = registry →
          ∀ name ∈ providerNames cfg, name ≠ "" ∧ trimSpace name = name) ∧
        ∀ c : App.StorageRoleConfig, c.targets.toFinmap = registry →
          ∀ entry ∈ c.targets.entries,
            entry.1 ≠ "" ∧ trimSpace entry.1 = entry.1 ∧ entry.2.Normal) := by
  refine ⟨parse_normalised_iff h, fun hnormal => ⟨?_, ?_⟩⟩
  · rintro cfg rfl
    exact hnormal.mem_providerNames
  · rintro c rfl
    exact hnormal.mem_entries

/-- One target under a trimmed name. -/
def plainTargets : String :=
  "\x7b\"photos\":\x7b\"bucket\":\" b \"\x7d\x7d"

/-- One target under a padded name. -/
def paddedTargets : String :=
  "\x7b\" photos\":\x7b\"bucket\":\"b\"\x7d\x7d"

theorem decode_plainTargets :
    decodeTargets (trimSpace plainTargets) =
      some (Finmap.singleton "photos" ⟨"", " b ", false⟩) := by
  decide +kernel

theorem decode_paddedTargets :
    decodeTargets (trimSpace paddedTargets) =
      some (Finmap.singleton " photos" ⟨"", "b", false⟩) := by
  decide +kernel

theorem parse_plainTargets :
    Parse plainTargets (.ok (Finmap.singleton "photos" ⟨"default", "b", false⟩)) := by
  refine .ranged (by decide +kernel) decode_plainTargets ?_
  have hround : targetRound "photos" ⟨"", " b ", false⟩ =
      .ok [.set "photos" ⟨"default", "b", false⟩] := by rfl
  exact .next (Finset.mem_union_left _ (Finset.mem_singleton_self "photos"))
    Finmap.lookup_singleton_eq hround (.done rfl)

theorem parsed_registry_normalised_plainTargets :
    ∃ registry, Parse plainTargets (.ok registry) ∧ registry.Normalised := by
  refine ⟨_, parse_plainTargets, (parsed_registry_normalised_iff _ _ parse_plainTargets).1.mpr ?_⟩
  intro decoded _ hdecoded name hname
  rw [decode_plainTargets] at hdecoded
  cases hdecoded
  rw [(Finmap.mem_singleton _ _ _).mp hname]
  decide

/-- A padded name keeps the entry of the text in every result. -/
theorem parse_padded
    {raw name : String} {decoded registry : TargetRegistry}
    (hraw : trimSpace raw ≠ "")
    (hdecoded : decodeTargets (trimSpace raw) = some decoded)
    (h : Parse raw (.ok registry))
    (hpadded : trimSpace name ≠ name) :
    registry.lookup name = decoded.lookup name := by
  have hruns := (RegistryParse.iff_runs hraw hdecoded _).mp h
  rw [targetRound_eq] at hruns
  exact (Normaliser.runs_ok hruns).spelling name hpadded

theorem mapLen_ne_zero
    {α : Type} {m : Finmap fun _ : String => α} {name : String} {a : α}
    (h : m.lookup name = some a) :
    mapLen m ≠ 0 := by
  intro hlen
  have hentry := Finmap.lookup_eq_some_iff.mp h
  rw [Multiset.card_eq_zero.mp hlen] at hentry
  exact absurd hentry (Multiset.notMem_zero _)

/-- A target whose provider is not configured makes `Config.Validate` fail. -/
theorem checkTargets_error
    {c : App.StorageRoleConfig} {name : String} {target : Target}
    (hlookup : c.targets.toFinmap.lookup name = some target)
    (hproviders : c.providers.entries.length ≠ 0)
    (hnone : c.providers.lookup target.provider = none) :
    ∃ message, c.checkTargets = .error message := by
  cases hcheck : c.checkTargets with
  | error message => exact ⟨message, rfl⟩
  | ok u =>
      unfold App.StorageRoleConfig.checkTargets at hcheck
      rw [if_neg hproviders] at hcheck
      have hentry := forM_eq_ok_iff.mp hcheck ⟨name, target⟩ (Finmap.lookup_eq_some_iff.mp hlookup)
      have hsome := App.refuseIf_ok hentry
      rw [hnone] at hsome
      cases hsome

/-- A target whose provider is not configured makes the readiness check fail. -/
theorem validateStorageProvidersReady_error
    {cfg : Config} {name : String} {target : Target}
    (hlookup : cfg.storageTargets.lookup name = some target)
    (hproviders : mapLen cfg.storageProviders ≠ 0)
    (hnone : cfg.storageProviders.resolve target.provider = none)
    (range : ProviderRange cfg) :
    ∃ reason, validateStorageProvidersReady cfg range = .error reason := by
  cases hready : validateStorageProvidersReady cfg range with
  | error reason => exact ⟨reason, rfl⟩
  | ok u =>
      unfold validateStorageProvidersReady at hready
      rw [if_neg hproviders] at hready
      have hmem := provider_mem_providerNames (mapLen_ne_zero hlookup) hlookup
      obtain ⟨signer, hsigner, -⟩ :=
        checkProvider_ok (forM_eq_ok_iff.mp hready _ (mem_visited range hmem))
      rw [hnone] at hsigner
      cases hsigner

/-- The padded text: `Resolve` finds the normalised target, the padded entry is
still there without a provider, and both loops over the registry refuse it
although the provider `default` is configured. -/
theorem padded_entry_kept :
    ∃ registry, Parse paddedTargets (.ok registry) ∧
      registry.resolve "photos" = some ⟨"default", "b", false⟩ ∧
      registry.lookup " photos" = some ⟨"", "b", false⟩ ∧
      ¬ registry.Normalised ∧
      (∀ c : App.StorageRoleConfig, c.targets.toFinmap = registry →
        c.providers = AList.singleton "default" ⟨"https://signer.example"⟩ →
        ∃ message, c.checkTargets = .error message) ∧
      ∀ (cfg : Config) (range : ProviderRange cfg) (provider : Provider),
        cfg.storageTargets = registry →
        cfg.storageProviders = Finmap.singleton "default" provider →
        ∃ reason, validateStorageProvidersReady cfg range = .error reason := by
  have hraw : trimSpace paddedTargets ≠ "" := by decide +kernel
  have hpadded : trimSpace " photos" ≠ " photos" := by decide
  have hcomplete : TargetsComplete (Finmap.singleton " photos" ⟨"", "b", false⟩) := by
    intro name target hlookup
    obtain ⟨rfl, rfl⟩ := eq_of_lookup_singleton hlookup
    decide
  obtain ⟨registry, hparse, hlast⟩ :=
    parse_last hraw decode_paddedTargets hcomplete hpadded Finmap.lookup_singleton_eq
  have hkept : registry.lookup " photos" = some ⟨"", "b", false⟩ :=
    (parse_padded hraw decode_paddedTargets hparse hpadded).trans Finmap.lookup_singleton_eq
  refine ⟨registry, hparse, hlast, hkept, ?_, ?_, ?_⟩
  · intro hnormal
    exact (hnormal.target _ _ hkept).provider_ne rfl
  · intro c htargets hproviders
    refine checkTargets_error (htargets ▸ hkept) ?_ ?_
    · rw [hproviders]
      decide
    · rw [hproviders]
      rfl
  · intro cfg range provider htargets hproviders
    refine validateStorageProvidersReady_error (htargets ▸ hkept) ?_ ?_ range
    · rw [hproviders]
      exact Nat.one_ne_zero
    · rw [hproviders]
      rfl

end Entries

end Storage

namespace App

section Providers

/-- A `StorageProviderConfig` from its JSON value. -/
def decodeProvider : Json → Option StorageProviderConfig :=
  decodeStruct ⟨""⟩ fun provider name value =>
    if equalFold name "signer_base_url" then
      (stringField provider.signerBaseURL value).map fun s => ⟨s⟩
    else some provider

/-- `json.Unmarshal` into the map of providers. -/
def decodeProviders (text : String) : Option (Finmap fun _ : String => StorageProviderConfig) :=
  (parseText text).bind fun value => (decodeMap decodeProvider value).map mapOfEntries

/-- The body of the loop of `parseStorageProviders`. -/
def providerRound (name : String) (provider : StorageProviderConfig) :
    Except RegistryError (List (Edit String StorageProviderConfig)) :=
  let trimmed := trimSpace name
  if trimmed = "" then .error (.refused "storage provider name is required")
  else
    let provider : StorageProviderConfig := ⟨trimSpace provider.signerBaseURL⟩
    if provider.signerBaseURL = "" then
      .error (.refused ("storage provider " ++ quote trimmed ++ " signer_base_url is required"))
    else if trimmed ≠ name then .ok [.delete name, .set trimmed provider]
    else .ok [.set name provider]

/-- `parseStorageProviders`, with every result that some iteration order gives. -/
def ParseStorageProviders (v : String) :
    Except RegistryError (Finmap fun _ : String => StorageProviderConfig) → Prop :=
  RegistryParse (trimSpace v = "") (decodeProviders v) "parse storage providers" providerRound

/-- Every provider of the text has a name and a signer. -/
def ProvidersComplete (decoded : Finmap fun _ : String => StorageProviderConfig) : Prop :=
  ∀ name provider, decoded.lookup name = some provider →
    trimSpace name ≠ "" ∧ trimSpace provider.signerBaseURL ≠ ""

/-- Padded spellings of one name have the same signer. -/
def ProvidersAgree (decoded : Finmap fun _ : String => StorageProviderConfig) : Prop :=
  ∀ name name' provider provider', trimSpace name ≠ name → trimSpace name' ≠ name' →
    trimSpace name = trimSpace name' →
    decoded.lookup name = some provider → decoded.lookup name' = some provider' →
    trimSpace provider.signerBaseURL = trimSpace provider'.signerBaseURL

/-- The text leaves no choice to the iteration order. -/
def ProvidersUnambiguous (v : String) : Prop :=
  ∀ decoded, trimSpace v ≠ "" → decodeProviders v = some decoded →
    ProvidersComplete decoded ∧ ProvidersAgree decoded

/-- The loop of `parseStorageProviders` as a normalising loop. -/
def providerNormaliser : Normaliser String StorageProviderConfig RegistryError where
  name := trimSpace
  fix name provider :=
    if name = "" then .error (.refused "storage provider name is required")
    else if trimSpace provider.signerBaseURL = "" then
      .error (.refused ("storage provider " ++ quote name ++ " signer_base_url is required"))
    else .ok ⟨trimSpace provider.signerBaseURL⟩
  replace := true
  name_name := trimSpace_trimSpace
  fix_fix := by
    intro name provider provider' h
    split_ifs at h with hname hurl
    have hprovider : (⟨trimSpace provider.signerBaseURL⟩ : StorageProviderConfig) = provider' :=
      Except.ok.inj h
    subst hprovider
    simp [hname, hurl]

theorem providerRound_eq : providerRound = providerNormaliser.body := by
  funext name provider
  by_cases hname : trimSpace name = ""
  · simp [providerRound, Normaliser.body, providerNormaliser, hname, Except.map]
  · by_cases hurl : trimSpace provider.signerBaseURL = ""
    · simp [providerRound, Normaliser.body, providerNormaliser, hname, hurl, Except.map]
    · by_cases hpadded : trimSpace name = name
      · rw [hpadded] at hname
        simp [providerRound, Normaliser.body, Normaliser.edits, providerNormaliser, hname, hurl,
          hpadded, Except.map]
      · simp [providerRound, Normaliser.body, Normaliser.edits, providerNormaliser, hname, hurl,
          hpadded, Except.map]

theorem providerNormaliser_fix
    (name : String) (provider : StorageProviderConfig)
    (h : name ≠ "" ∧ trimSpace provider.signerBaseURL ≠ "") :
    providerNormaliser.fix name provider = .ok ⟨trimSpace provider.signerBaseURL⟩ := by
  simp [providerNormaliser, h.1, h.2]

theorem providerNormaliser_fix_inv
    {name : String} {provider provider' : StorageProviderConfig}
    (h : providerNormaliser.fix name provider = .ok provider') :
    (name ≠ "" ∧ trimSpace provider.signerBaseURL ≠ "") ∧
      ⟨trimSpace provider.signerBaseURL⟩ = provider' := by
  simp only [providerNormaliser] at h
  split_ifs at h with hname hurl
  exact ⟨⟨hname, hurl⟩, Except.ok.inj h⟩

/-- For an accepted text, every order gives the same providers exactly when the
text is unambiguous. -/
theorem parseStorageProviders_order_free_iff
    {v : String} {providers : Finmap fun _ : String => StorageProviderConfig}
    (h : ParseStorageProviders v (.ok providers)) :
    (∀ r, ParseStorageProviders v r → r = .ok providers) ↔ ProvidersUnambiguous v := by
  refine (RegistryParse.order_free_iff providerRound_eq h).trans ?_
  refine forall_congr' fun decoded => imp_congr_right fun _ => imp_congr_right fun _ => ?_
  refine (Normaliser.checks_and_agrees_iff providerNormaliser_fix
    fun _ _ _ hfix => (providerNormaliser_fix_inv hfix).1).trans ?_
  simp only [StorageProviderConfig.mk.injEq]
  exact Iff.rfl

/-- A padded name that is visited last decides what the trimmed name means. -/
theorem parseStorageProviders_last
    {v name : String} {decoded : Finmap fun _ : String => StorageProviderConfig}
    {provider : StorageProviderConfig}
    (hv : trimSpace v ≠ "")
    (hdecoded : decodeProviders v = some decoded)
    (hcomplete : ProvidersComplete decoded)
    (hpadded : trimSpace name ≠ name)
    (hlookup : decoded.lookup name = some provider) :
    ∃ providers, ParseStorageProviders v (.ok providers) ∧
      providers.lookup (trimSpace name) = some ⟨trimSpace provider.signerBaseURL⟩ := by
  have hchecks : providerNormaliser.Checks decoded := fun k p h =>
    ⟨_, providerNormaliser_fix _ p (hcomplete k p h)⟩
  obtain ⟨providers, provider', hparse, hfix, hlast⟩ :=
    RegistryParse.exists_last providerRound_eq hv hdecoded hchecks ⟨rfl, hpadded.symm⟩ hlookup
  exact ⟨providers, hparse, (providerNormaliser_fix_inv hfix).2 ▸ hlast⟩

end Providers

end App

section Orders

/-- For every accepted text, all iteration orders give the same registry exactly
when each entry passes its check by itself and the padded spellings of one name
agree. -/
theorem registries_order_free_iff
    (raw v : String) (registry : Storage.TargetRegistry)
    (providers : Finmap fun _ : String => App.StorageProviderConfig) :
    (Storage.Parse raw (.ok registry) →
      ((∀ r, Storage.Parse raw r → r = .ok registry) ↔ Storage.TargetsUnambiguous raw)) ∧
    (App.ParseStorageProviders v (.ok providers) →
      ((∀ r, App.ParseStorageProviders v r → r = .ok providers) ↔ App.ProvidersUnambiguous v)) :=
  ⟨Storage.parse_order_free_iff, App.parseStorageProviders_order_free_iff⟩

/-- Two spellings of one target, which are the same once normalised. -/
def agreeingTargets : String :=
  "\x7b\" a\":\x7b\"bucket\":\"x\"\x7d,\"a \":\x7b\"bucket\":\" x \",\"provider\":\"default\"\x7d\x7d"

/-- Two spellings of one provider, which are the same once normalised. -/
def agreeingProviders : String :=
  "\x7b\" s\":\x7b\"signer_base_url\":\"http://x\"\x7d," ++
    "\"s \":\x7b\"signer_base_url\":\" http://x \"\x7d\x7d"

def agreeingTargetMap : Storage.TargetRegistry :=
  (Finmap.singleton " a" ⟨"", "x", false⟩).insert "a " ⟨"default", " x ", false⟩

def agreeingProviderMap : Finmap fun _ : String => App.StorageProviderConfig :=
  (Finmap.singleton " s" ⟨"http://x"⟩).insert "s " ⟨" http://x "⟩

theorem decode_agreeingTargets :
    Storage.decodeTargets (trimSpace agreeingTargets) = some agreeingTargetMap := by
  decide +kernel

theorem decode_agreeingProviders :
    App.decodeProviders agreeingProviders = some agreeingProviderMap := by
  rfl

theorem agreeingTargets_unambiguous : Storage.TargetsUnambiguous agreeingTargets := by
  have hall (name : String) (target : Storage.Target)
      (hlookup : agreeingTargetMap.lookup name = some target) :
      (trimSpace name ≠ "" ∧ trimSpace target.bucket ≠ "") ∧
        target.normalised = ⟨"default", "x", false⟩ := by
    rcases Storage.eq_of_lookup_pair hlookup with ⟨rfl, rfl⟩ | ⟨rfl, rfl⟩ <;> decide
  intro decoded _ hdecoded
  rw [decode_agreeingTargets] at hdecoded
  cases hdecoded
  constructor
  · intro name target hlookup
    exact (hall name target hlookup).1
  · intro name name' target target' _ _ _ hlookup hlookup'
    exact (hall name target hlookup).2.trans (hall name' target' hlookup').2.symm

theorem agreeingProviders_unambiguous : App.ProvidersUnambiguous agreeingProviders := by
  have hall (name : String) (provider : App.StorageProviderConfig)
      (hlookup : agreeingProviderMap.lookup name = some provider) :
      trimSpace name ≠ "" ∧ trimSpace provider.signerBaseURL = "http://x" := by
    rcases Storage.eq_of_lookup_pair hlookup with ⟨rfl, rfl⟩ | ⟨rfl, rfl⟩ <;> decide
  intro decoded _ hdecoded
  rw [decode_agreeingProviders] at hdecoded
  cases hdecoded
  constructor
  · intro name provider hlookup
    obtain ⟨hname, hurl⟩ := hall name provider hlookup
    exact ⟨hname, hurl ▸ by decide⟩
  · intro name name' provider provider' _ _ _ hlookup hlookup'
    exact (hall name provider hlookup).2.trans (hall name' provider' hlookup').2.symm

/-- Two spellings of one name in either text: every order gives the target and the provider
that both describe. -/
theorem registries_order_free_agreeing :
    (∃ registry, Storage.Parse agreeingTargets (.ok registry) ∧
      registry.resolve "a" = some ⟨"default", "x", false⟩ ∧
      ∀ r, Storage.Parse agreeingTargets r → r = .ok registry) ∧
    ∃ providers, App.ParseStorageProviders agreeingProviders (.ok providers) ∧
      providers.lookup "s" = some ⟨"http://x"⟩ ∧
      ∀ r, App.ParseStorageProviders agreeingProviders r → r = .ok providers := by
  have hraw : trimSpace agreeingTargets ≠ "" := by decide +kernel
  have hv : trimSpace agreeingProviders ≠ "" := by decide +kernel
  have htarget : agreeingTargetMap.lookup " a" = some ⟨"", "x", false⟩ := rfl
  have hprovider : agreeingProviderMap.lookup " s" = some ⟨"http://x"⟩ := rfl
  obtain ⟨registry, hparse, hlast⟩ := Storage.parse_last hraw decode_agreeingTargets
    (agreeingTargets_unambiguous _ hraw decode_agreeingTargets).1 (by decide) htarget
  obtain ⟨providers, hparse', hlast'⟩ := App.parseStorageProviders_last hv
    decode_agreeingProviders (agreeingProviders_unambiguous _ hv decode_agreeingProviders).1
    (by decide) hprovider
  have hfree := registries_order_free_iff agreeingTargets agreeingProviders registry providers
  exact ⟨⟨registry, hparse, hlast, (hfree.1 hparse).mpr agreeingTargets_unambiguous⟩,
    providers, hparse', hlast', (hfree.2 hparse').mpr agreeingProviders_unambiguous⟩

/-- Two targets whose names collide once trimmed. -/
def collidingTargets : String :=
  "\x7b\" a\":\x7b\"bucket\":\"x\"\x7d,\"a \":\x7b\"bucket\":\"y\"\x7d\x7d"

/-- Two providers whose names collide once trimmed. -/
def collidingProviders : String :=
  "\x7b\" s\":\x7b\"signer_base_url\":\"http://x\"\x7d," ++
    "\"s \":\x7b\"signer_base_url\":\"http://y\"\x7d\x7d"

def decodedTargets : Storage.TargetRegistry :=
  (Finmap.singleton " a" ⟨"", "x", false⟩).insert "a " ⟨"", "y", false⟩

def decodedProviders : Finmap fun _ : String => App.StorageProviderConfig :=
  (Finmap.singleton " s" ⟨"http://x"⟩).insert "s " ⟨"http://y"⟩

theorem decode_collidingTargets :
    Storage.decodeTargets (trimSpace collidingTargets) = some decodedTargets := by
  decide +kernel

theorem decode_collidingProviders :
    App.decodeProviders collidingProviders = some decodedProviders := by
  rfl

theorem decodedTargets_complete : Storage.TargetsComplete decodedTargets := by
  intro name target hlookup
  rcases Storage.eq_of_lookup_pair hlookup with ⟨rfl, rfl⟩ | ⟨rfl, rfl⟩ <;> decide

theorem decodedProviders_complete : App.ProvidersComplete decodedProviders := by
  intro name provider hlookup
  rcases Storage.eq_of_lookup_pair hlookup with ⟨rfl, rfl⟩ | ⟨rfl, rfl⟩ <;> decide

/-- One text each, with two orders: the trimmed name resolves to two buckets, or
to two signers. -/
theorem colliding_names_ambiguous :
    (∃ r r', Storage.Parse collidingTargets (.ok r) ∧ Storage.Parse collidingTargets (.ok r') ∧
      r.resolve "a" = some ⟨"default", "x", false⟩ ∧
      r'.resolve "a" = some ⟨"default", "y", false⟩) ∧
    ∃ p p', App.ParseStorageProviders collidingProviders (.ok p) ∧
      App.ParseStorageProviders collidingProviders (.ok p') ∧
      p.lookup "s" = some ⟨"http://x"⟩ ∧ p'.lookup "s" = some ⟨"http://y"⟩ := by
  constructor
  · have hraw : trimSpace collidingTargets ≠ "" := by decide +kernel
    have hleft : decodedTargets.lookup " a" = some ⟨"", "x", false⟩ := rfl
    have hright : decodedTargets.lookup "a " = some ⟨"", "y", false⟩ := rfl
    obtain ⟨r, hparse, hlast⟩ :=
      Storage.parse_last hraw decode_collidingTargets decodedTargets_complete (by decide) hleft
    obtain ⟨r', hparse', hlast'⟩ :=
      Storage.parse_last hraw decode_collidingTargets decodedTargets_complete (by decide) hright
    exact ⟨r, r', hparse, hparse', hlast, hlast'⟩
  · have hv : trimSpace collidingProviders ≠ "" := by decide +kernel
    have hleft : decodedProviders.lookup " s" = some ⟨"http://x"⟩ := rfl
    have hright : decodedProviders.lookup "s " = some ⟨"http://y"⟩ := rfl
    obtain ⟨p, hparse, hlast⟩ := App.parseStorageProviders_last hv decode_collidingProviders
      decodedProviders_complete (by decide) hleft
    obtain ⟨p', hparse', hlast'⟩ := App.parseStorageProviders_last hv decode_collidingProviders
      decodedProviders_complete (by decide) hright
    exact ⟨p, p', hparse, hparse', hlast, hlast'⟩

end Orders

end GatewayRuntime
