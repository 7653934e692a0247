import GatewayRuntime.Lib.Distinct
import GatewayRuntime.Lib.LiteralPattern
import GatewayRuntime.RuntimeSelection

/-!
# Mounting a parsed selection

`Run` of `internal/roleruntime` registers the routes of the system and those of
every selected capability in one mux, which panics when a pattern is registered
twice.  What `ParseRoles` and `ParseCapabilities` return is accepted by
`Validate`, and its patterns are all different (`parsed_selection_mounts`).

The role `rebff` is not served by `Run`.
-/

namespace GatewayRuntime
namespace App

open GoText Distinct

section Validity

variable {roles : List Storage.Role} {raw : String} {caps : Capabilities}

theorem lookup_foldl_defaults
    (roles : List Storage.Role) (role : Storage.Role) :
    ∀ out : Capabilities,
      (roles.foldl (fun out role => out.insert role (defaults role)) out).lookup role =
        if role ∈ roles then some (defaults role) else out.lookup role := by
  induction roles with
  | nil =>
      intro out
      simp
  | cons r rest ih =>
      intro out
      rw [List.foldl_cons, ih]
      by_cases hr : role = r
      · subst hr
        simp
      · simp [hr, AList.lookup_insert_ne hr]

/-- The entries of a parsed map: one for each selected role, with a list of
supported capabilities. -/
structure CapabilitiesOk (roles : List Storage.Role) (caps : Capabilities) : Prop where
  entry : ∀ role list, caps.lookup role = some list → role ∈ roles ∧ CapList role list
  selected : ∀ role ∈ roles, ∃ list, caps.lookup role = some list

theorem capabilitiesOk_defaults (roles : List Storage.Role) :
    CapabilitiesOk roles (roles.foldl (fun out role => out.insert role (defaults role)) ∅) where
  entry := by
    intro role list h
    rw [lookup_foldl_defaults] at h
    by_cases hmem : role ∈ roles
    · rw [if_pos hmem] at h
      cases h
      exact ⟨hmem, defaults_capList role⟩
    · rw [if_neg hmem] at h
      cases h
  selected := by
    intro role hmem
    exact ⟨_, by rw [lookup_foldl_defaults, if_pos hmem]⟩

theorem capabilitiesOk_single
    {role : Storage.Role} {list : List String}
    (h : CapList role list) :
    CapabilitiesOk [role] ((∅ : Capabilities).insert role list) where
  entry := by
    intro role' list' hlookup
    by_cases hrole : role' = role
    · subst hrole
      rw [AList.lookup_insert] at hlookup
      cases hlookup
      exact ⟨List.mem_singleton_self _, h⟩
    · rw [AList.lookup_insert_ne hrole] at hlookup
      cases hlookup
  selected := by
    intro role' hmem
    rw [List.mem_singleton.mp hmem]
    exact ⟨list, AList.lookup_insert _⟩

theorem capabilitiesOk_groups
    {groups : List String} {out : Capabilities}
    (h : readGroups roles ∅ groups = .ok out) :
    CapabilitiesOk roles (fillDefaults roles out) := by
  -- before the defaults every entry comes from a group
  have hread : ∀ role list, out.lookup role = some list → role ∈ roles ∧ CapList role list := by
    intro role list hlookup
    rcases readGroups_lookup role h with
      ⟨hnone, -⟩ | ⟨_, _, _, list', _, hlookup', hmem, hlist, _⟩
    · rw [hnone] at hlookup
      cases hlookup
    · rw [hlookup] at hlookup'
      cases hlookup'
      exact ⟨hmem, hlist⟩
  constructor
  · intro role list hlookup
    rw [fillDefaults_lookup] at hlookup
    split_ifs at hlookup with hfill
    · cases hlookup
      exact ⟨hfill.1, defaults_capList role⟩
    · exact hread role list hlookup
  · intro role hmem
    rw [fillDefaults_lookup]
    by_cases hempty : (out.lookup role).getD [] = []
    · exact ⟨_, if_pos ⟨hmem, hempty⟩⟩
    · rw [if_neg fun hfill => hempty hfill.2]
      cases hlookup : out.lookup role with
      | none =>
          rw [hlookup] at hempty
          exact absurd rfl hempty
      | some list => exact ⟨list, rfl⟩

/-- A parsed map is in order. -/
theorem parseCapabilities_ok
    (h : parseCapabilities roles raw = .ok caps) :
    CapabilitiesOk roles caps := by
  unfold parseCapabilities at h
  split_ifs at h with hblank
  · cases h
    exact capabilitiesOk_defaults roles
  · split at h
    · obtain ⟨list, hlist, h⟩ := exists_of_bind_ok h
      cases h
      exact capabilitiesOk_single (parseCapList_ok hlist).1
    · obtain ⟨out, hout, h⟩ := exists_of_bind_ok h
      cases h
      exact capabilitiesOk_groups hout

theorem CapabilitiesOk.capList
    (h : CapabilitiesOk roles caps)
    {role : Storage.Role} (hmem : role ∈ roles) :
    CapList role (Selection.capabilitiesOf ⟨roles, caps⟩ role) := by
  obtain ⟨list, hlist⟩ := h.selected role hmem
  rw [Selection.capabilitiesOf, hlist]
  exact (h.entry role list hlist).2

theorem checkRoles_ok
    {sel : Selection} {rest seen : List Storage.Role}
    (hfresh : Fresh id seen rest)
    (hlists : ∀ role ∈ rest, CapList role (sel.capabilitiesOf role)) :
    checkRoles sel seen rest = .ok () := by
  induction rest generalizing seen with
  | nil =>
      rfl
  | cons role rest ih =>
      obtain ⟨hnew, hfresh⟩ := fresh_cons.mp hfresh
      obtain ⟨hlist, hlists⟩ := List.forall_mem_cons.mp hlists
      have hcaps : (sel.capabilitiesOf role).forM (fun c =>
          refuseIf (!(allowed role).contains c)
            ("unsupported capability " ++ quote c ++ " for role " ++ quote role.name)) =
          .ok () := by
        apply forM_eq_ok_iff.mpr
        intro c hc
        simp [refuseIf, hlist.supported c hc]
      have hempty : (sel.capabilitiesOf role).isEmpty = false := by
        simpa using hlist.ne_nil
      have hcontains : seen.contains role = false := by
        simpa using hnew
      rw [checkRoles, hcontains, hempty, hcaps]
      exact ih hfresh hlists

/-- `Validate` accepts what the parsers return. -/
theorem validate_of_parse
    (hnodup : roles.Nodup)
    (hne : roles ≠ [])
    (h : CapabilitiesOk roles caps) :
    Selection.validate ⟨roles, caps⟩ = .ok () := by
  have hroles : checkRoles ⟨roles, caps⟩ [] roles = .ok () :=
    checkRoles_ok (fresh_nil_iff.mpr (by simpa using hnodup)) fun role hmem => h.capList hmem
  have hkeys : caps.keys.forM (fun role => refuseIf (!roles.contains role)
      ("capabilities configured for unselected role " ++ quote role.name)) = .ok () := by
    apply forM_eq_ok_iff.mpr
    intro role hrole
    obtain ⟨list, hlist⟩ := Option.isSome_iff_exists.mp
      (AList.lookup_isSome.mpr (AList.mem_keys.mpr hrole))
    simp [refuseIf, (h.entry role list hlist).1]
  have hempty : roles.isEmpty = false := by simpa using hne
  rw [Selection.validate, hempty, hroles, hkeys]
  rfl

end Validity

section Mounting

/-- The patterns of `registerSystem`. -/
def systemPatterns : List String :=
  ["GET /health/live", "GET /health/ready", "GET /runtime"]

/-- `routePattern`. -/
def routePattern : Storage.Role → String → String
  | .storage, "upload" => "POST /storage/upload"
  | .storage, "download" => "GET /storage/download"
  | .storage, "multipart" => "POST /storage/multipart"
  | .storage, "presign" => "POST /storage/presign"
  | .storage, "metadata" => "GET /storage/metadata"
  | .streaming, "playback" => "POST /streaming/playback"
  | .streaming, "manifest" => "GET /streaming/manifest"
  | .streaming, "token" => "POST /streaming/token"
  | .streaming, "origin-select" => "POST /streaming/origin-select"
  | .webSocket, "connect" => "GET /websocket/connect"
  | .webSocket, "publish" => "POST /websocket/publish"
  | .webSocket, "subscribe" => "POST /websocket/subscribe"
  | .webSocket, "presence" => "GET /websocket/presence"
  | .webSocket, "heartbeat" => "POST /websocket/heartbeat"
  | _, _ => ""

/-- `registerUnavailableCapability`. -/
def registerUnavailableCapability (role : Storage.Role) (capability : String) : List String :=
  if routePattern role capability = "" then [] else [routePattern role capability]

/-- The patterns that `registerRole` registers for one capability. -/
def registerCapability (role : Storage.Role) (capability : String) : List String :=
  match role with
  | .storage => (Storage.registerStorageCapability capability).map Storage.Route.pattern
  | _ => registerUnavailableCapability role capability

/-- `registerRole`. -/
def registerRole (role : Storage.Role) (caps : List String) : List String :=
  caps.flatMap (registerCapability role)

/-- The patterns that `Run` registers, in order. -/
def registeredPatterns (sel : Selection) : List String :=
  systemPatterns ++ sel.roles.flatMap fun role => registerRole role (sel.capabilitiesOf role)

/-- The roles that `Run` serves, with the capabilities they may have. -/
def servedCapabilities : List (Storage.Role × String) :=
  [.storage, .streaming, .webSocket].flatMap fun role => (allowed role).map (role, ·)

/-- Every pattern that some selection registers. -/
def allPatterns : List String :=
  systemPatterns ++ servedCapabilities.flatMap fun entry => registerCapability entry.1 entry.2

theorem allPatterns_nodup : allPatterns.Nodup := by
  decide +kernel

theorem allPatterns_literal : ∀ p ∈ allPatterns, ServeMux.isLiteral p = true := by
  decide +kernel

/-- The selected capabilities, role by role. -/
def selectedCapabilities (sel : Selection) : List (Storage.Role × String) :=
  sel.roles.flatMap fun role => (sel.capabilitiesOf role).map (role, ·)

theorem registeredPatterns_eq (sel : Selection) :
    registeredPatterns sel =
      systemPatterns ++
        (selectedCapabilities sel).flatMap fun entry => registerCapability entry.1 entry.2 := by
  rw [registeredPatterns, selectedCapabilities, List.flatMap_assoc]
  simp only [registerRole, List.flatMap_map]

theorem mem_servedCapabilities
    {role : Storage.Role} {capability : String}
    (hrole : role ≠ .rebff)
    (hcap : capability ∈ allowed role) :
    (role, capability) ∈ servedCapabilities := by
  refine List.mem_flatMap.mpr ⟨role, ?_, List.mem_map.mpr ⟨capability, hcap, rfl⟩⟩
  cases role with
  | rebff => exact absurd rfl hrole
  | storage => decide
  | streaming => decide
  | webSocket => decide

theorem selectedCapabilities_nodup
    {roles : List Storage.Role} {caps : Capabilities}
    (hnodup : roles.Nodup)
    (h : CapabilitiesOk roles caps) :
    (selectedCapabilities ⟨roles, caps⟩).Nodup := by
  refine List.nodup_flatMap.mpr ⟨?_, ?_⟩
  · intro role hmem
    exact (h.capList hmem).nodup.map fun _ _ heq => congrArg Prod.snd heq
  · refine hnodup.imp ?_
    intro role role' hne entry hentry hentry'
    obtain ⟨_, -, rfl⟩ := List.mem_map.mp hentry
    obtain ⟨_, -, heq⟩ := List.mem_map.mp hentry'
    exact hne (congrArg Prod.fst heq).symm

/-- No pattern is registered twice. -/
theorem registeredPatterns_nodup
    {roles : List Storage.Role} {caps : Capabilities}
    (hnodup : roles.Nodup)
    (hrebff : Storage.Role.rebff ∉ roles)
    (h : CapabilitiesOk roles caps) :
    (registeredPatterns ⟨roles, caps⟩).Nodup ∧
      ∀ p ∈ registeredPatterns ⟨roles, caps⟩, p ∈ allPatterns := by
  have hserved : ∀ entry ∈ selectedCapabilities ⟨roles, caps⟩, entry ∈ servedCapabilities := by
    intro entry hentry
    obtain ⟨role, hrole, hentry⟩ := List.mem_flatMap.mp hentry
    obtain ⟨capability, hcap, rfl⟩ := List.mem_map.mp hentry
    refine mem_servedCapabilities ?_ ((h.capList hrole).supported capability hcap)
    rintro rfl
    exact hrebff hrole
  obtain ⟨hsystem, hroutes, hdisjoint⟩ := List.nodup_append'.mp allPatterns_nodup
  obtain ⟨hinner, hpairwise⟩ := List.nodup_flatMap.mp hroutes
  rw [registeredPatterns_eq]
  refine ⟨List.nodup_append'.mpr ⟨hsystem, List.nodup_flatMap.mpr ⟨?_, ?_⟩, ?_⟩, ?_⟩
  · intro entry hentry
    exact hinner entry (hserved entry hentry)
  · -- distinct served capabilities have disjoint patterns
    refine (selectedCapabilities_nodup hnodup h).imp_of_mem ?_
    intro entry entry' hentry hentry' hne
    have hsymm : Std.Symm (Function.onFun List.Disjoint
        fun entry : Storage.Role × String => registerCapability entry.1 entry.2) :=
      ⟨fun _ _ hd => List.Disjoint.symm hd⟩
    exact hpairwise.forall (hserved entry hentry) (hserved entry' hentry') hne
  · intro p hp hp'
    obtain ⟨entry, hentry, hp'⟩ := List.mem_flatMap.mp hp'
    exact hdisjoint hp (List.mem_flatMap.mpr ⟨entry, hserved entry hentry, hp'⟩)
  · intro p hp
    rcases List.mem_append.mp hp with hp | hp
    · exact List.mem_append_left _ hp
    · obtain ⟨entry, hentry, hp⟩ := List.mem_flatMap.mp hp
      exact List.mem_append_right _ (List.mem_flatMap.mpr ⟨entry, hserved entry hentry, hp⟩)

/-- **A selection that parses is valid and can be mounted.** -/
theorem parsed_selection_mounts
    (rawRoles rawCaps : String) (roles : List Storage.Role) (caps : Capabilities)
    (hroles : parseRoles rawRoles = .ok roles)
    (hcaps : parseCapabilities roles rawCaps = .ok caps) :
    Selection.validate ⟨roles, caps⟩ = .ok () ∧
      (∀ role ∈ roles, Selection.capabilitiesOf ⟨roles, caps⟩ role ≠ [] ∧
        (Selection.capabilitiesOf ⟨roles, caps⟩ role).Nodup) ∧
      (Storage.Role.rebff ∉ roles →
        (registeredPatterns ⟨roles, caps⟩).Nodup ∧
        ((registeredPatterns ⟨roles, caps⟩).map ServeMux.parsePattern).Nodup ∧
        ∀ p ∈ registeredPatterns ⟨roles, caps⟩, (ServeMux.parsePattern p).isSome = true) := by
  obtain ⟨hnodup, hne⟩ := parseRoles_ok hroles
  have hok := parseCapabilities_ok hcaps
  refine ⟨validate_of_parse hnodup hne hok, ?_, ?_⟩
  · intro role hmem
    exact ⟨(hok.capList hmem).ne_nil, (hok.capList hmem).nodup⟩
  · intro hrebff
    obtain ⟨hpatterns, hall⟩ := registeredPatterns_nodup hnodup hrebff hok
    have hliteral : ∀ p ∈ registeredPatterns ⟨roles, caps⟩, ServeMux.isLiteral p = true :=
      fun p hp => allPatterns_literal p (hall p hp)
    exact ⟨hpatterns, ServeMux.nodup_map_parsePattern hliteral hpatterns,
      fun p hp => ServeMux.parsePattern_isSome_of_literal (hliteral p hp)⟩

theorem parsed_selection_mounts_two_roles :
    ∃ caps, parseCapabilities [.storage, .streaming] "storage:upload|upload;streaming:token" =
        .ok caps ∧
      Selection.validate ⟨[.storage, .streaming], caps⟩ = .ok () ∧
      (registeredPatterns ⟨[.storage, .streaming], caps⟩).Nodup := by
  have hroles : parseRoles "Storage, streaming,storage" = .ok [.storage, .streaming] := by
    decide +kernel
  have hcaps : parseCapabilities [.storage, .streaming] "storage:upload|upload;streaming:token" =
      .ok (((∅ : Capabilities).insert Storage.Role.storage ["upload"]).insert
        Storage.Role.streaming ["token"]) := by rfl
  obtain ⟨hvalid, -, hmounts⟩ := parsed_selection_mounts _ _ _ _ hroles hcaps
  exact ⟨_, hcaps, hvalid, (hmounts (by decide)).1⟩

end Mounting

end App
end GatewayRuntime
