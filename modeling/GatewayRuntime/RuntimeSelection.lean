import GatewayRuntime.AppConfig

/-!
# Roles and capabilities of a deployment

`ParseRoles` and `ParseCapabilities` of `internal/runtimecfg` read the selection
of a deployment from two strings.

The capabilities are written as a plain list when one role is selected, and
otherwise in groups `role:cap|cap` separated by semicolons.  `namedGroups` is
what the groups of a string name, read off the string alone.  A later group of a
role replaces an earlier one, so every role has the capabilities that its groups
name exactly when these agree (`capabilities_exact_iff`).

An error names the word that was refused; runes of it above ASCII are written as
`GoText` has them, and not always as Go does.
-/

namespace GatewayRuntime
namespace App

open GoText

/-- `map[Role][]string`. -/
abbrev Capabilities := AList fun _ : Storage.Role => List String

section Parse

/-- `defaults` of `internal/runtimecfg`. -/
def defaults : Storage.Role → List String
  | .rebff => ["oidc", "session", "token-refresh", "csrf", "user-context", "api-proxy",
      "coarse-authz", "audit", "trace-propagation"]
  | .storage => ["upload", "download", "multipart", "presign", "metadata", "audit"]
  | .streaming => ["playback", "manifest", "token", "origin-select", "audit"]
  | .webSocket => ["connect", "publish", "subscribe", "presence", "heartbeat", "audit"]

/-- The keys of `allowed`. -/
def supportedRoles : List Storage.Role :=
  [.rebff, .storage, .streaming, .webSocket]

/-- `strings.ToLower(strings.TrimSpace(s))`. -/
def normalizeWord (s : String) : String :=
  toLower (trimSpace s)

/-- The role of a name, among `roles`. -/
def findRole (roles : List Storage.Role) (name : String) : Option Storage.Role :=
  roles.find? fun role => role.name == name

/-- The loop of `ParseRoles`. -/
def collectRoles : List Storage.Role → List String → Except String (List Storage.Role)
  | out, [] => .ok out
  | out, part :: rest =>
      match findRole supportedRoles (normalizeWord part) with
      | none => .error ("unsupported runtime role " ++ quote (normalizeWord part))
      | some role => collectRoles (if out.contains role then out else out ++ [role]) rest

/-- `ParseRoles`. -/
def parseRoles (raw : String) : Except String (List Storage.Role) :=
  if trimSpace raw = "" then .ok [.rebff]
  else do
    let out ← collectRoles [] (split raw ',')
    if out = [] then .error "at least one runtime role is required" else .ok out

/-- The loop of `parseCapList`. -/
def collectCaps (role : Storage.Role) : List String → List String → Except String (List String)
  | out, [] => .ok out
  | out, part :: rest =>
      let cap := normalizeWord part
      if cap = "" then collectCaps role out rest
      else if (allowed role).contains cap = false then
        .error ("unsupported capability " ++ quote cap ++ " for role " ++ quote role.name)
      else collectCaps role (if out.contains cap then out else out ++ [cap]) rest

/-- `parseCapList`. -/
def parseCapList (role : Storage.Role) (raw : String) : Except String (List String) := do
  let out ← collectCaps role [] (split raw ',')
  if out = [] then .error ("role " ++ quote role.name ++ " requires at least one capability")
  else .ok out

/-- `strings.ReplaceAll(s, "|", ",")`. -/
def barsToCommas (s : String) : String :=
  String.ofList (s.toList.map fun c => if c = '|' then ',' else c)

/-- One group: nothing when it is blank, else its role and the list of it. -/
def readGroup (roles : List Storage.Role) (group : String) :
    Except String (Option (Storage.Role × List String)) :=
  let group := trimSpace group
  if group = "" then .ok none
  else
    match cut group ':' with
    | none => .error "multi-role capabilities must use role:capability|capability syntax"
    | some (name, list) =>
        match findRole roles (normalizeWord name) with
        | none =>
            .error ("capabilities configured for unselected role " ++ quote (normalizeWord name))
        | some role => do
            let caps ← parseCapList role (barsToCommas list)
            .ok (some (role, caps))

/-- The loop of `ParseCapabilities` over the groups. -/
def readGroups (roles : List Storage.Role) :
    Capabilities → List String → Except String Capabilities
  | out, [] => .ok out
  | out, group :: rest => do
      match ← readGroup roles group with
      | none => readGroups roles out rest
      | some (role, caps) => readGroups roles (out.insert role caps) rest

/-- The last loop of `ParseCapabilities`. -/
def fillDefaults (roles : List Storage.Role) (out : Capabilities) : Capabilities :=
  roles.foldl
    (fun out role =>
      if (out.lookup role).getD [] = [] then out.insert role (defaults role) else out)
    out

/-- `ParseCapabilities`. -/
def parseCapabilities (roles : List Storage.Role) (raw : String) :
    Except String Capabilities :=
  if trimSpace raw = "" then
    .ok (roles.foldl (fun out role => out.insert role (defaults role)) ∅)
  else
    match roles, contains raw ":" with
    | [role], false => do
        let caps ← parseCapList role (barsToCommas raw)
        .ok ((∅ : Capabilities).insert role caps)
    | _, _ => do
        let out ← readGroups roles ∅ (split raw ';')
        .ok (fillDefaults roles out)

end Parse

section Lists

/-- The capabilities that a list names. -/
def capNames (raw : String) : List String :=
  ((split raw ',').map normalizeWord).filter (· ≠ "")

theorem findRole_name
    {roles : List Storage.Role} {name : String} {role : Storage.Role}
    (h : findRole roles name = some role) :
    role ∈ roles ∧ role.name = name := by
  have hname := List.find?_some h
  exact ⟨List.mem_of_find?_eq_some h, beq_iff_eq.mp hname⟩

theorem nodup_collect
    {α : Type} [DecidableEq α] {out : List α} {a : α}
    (h : out.Nodup) :
    (if out.contains a then out else out ++ [a]).Nodup := by
  split_ifs with hmem
  · exact h
  · refine List.Nodup.append h (List.nodup_singleton a) ?_
    intro b hb hba
    rw [List.mem_singleton.mp hba] at hb
    exact hmem (List.contains_iff_mem.mpr hb)

theorem mem_collect
    {α : Type} [DecidableEq α] {out : List α} {a b : α} :
    b ∈ (if out.contains a then out else out ++ [a]) ↔ b ∈ out ∨ b = a := by
  split_ifs with hmem
  · constructor
    · exact Or.inl
    · rintro (h | rfl)
      · exact h
      · exact List.contains_iff_mem.mp hmem
  · simp

theorem collectRoles_nodup
    {parts : List String} :
    ∀ {out roles : List Storage.Role}, out.Nodup →
      collectRoles out parts = .ok roles → roles.Nodup := by
  induction parts with
  | nil =>
      intro out roles hout h
      cases h
      exact hout
  | cons part rest ih =>
      intro out roles hout h
      unfold collectRoles at h
      split at h
      · cases h
      · exact ih (nodup_collect hout) h

/-- A parsed list of roles. -/
theorem parseRoles_ok
    {raw : String} {roles : List Storage.Role}
    (h : parseRoles raw = .ok roles) :
    roles.Nodup ∧ roles ≠ [] := by
  unfold parseRoles at h
  split_ifs at h with hblank
  · cases h
    decide
  · obtain ⟨out, hout, h⟩ := exists_of_bind_ok h
    split_ifs at h with hempty
    cases h
    exact ⟨collectRoles_nodup List.nodup_nil hout, hempty⟩

/-- The loop over a list adds what it names. -/
theorem collectCaps_ok
    {role : Storage.Role} {parts : List String} :
    ∀ {out caps : List String}, out.Nodup → (∀ c ∈ out, c ∈ allowed role) →
      collectCaps role out parts = .ok caps →
      caps.Nodup ∧ (∀ c ∈ caps, c ∈ allowed role) ∧
        ∀ c, c ∈ caps ↔ c ∈ out ∨ c ∈ (parts.map normalizeWord).filter (· ≠ "") := by
  induction parts with
  | nil =>
      intro out caps hnodup hallowed h
      cases h
      exact ⟨hnodup, hallowed, by simp⟩
  | cons part rest ih =>
      intro out caps hnodup hallowed h
      simp only [collectCaps] at h
      by_cases hblank : normalizeWord part = ""
      · rw [if_pos hblank] at h
        obtain ⟨hn, ha, hmem⟩ := ih hnodup hallowed h
        refine ⟨hn, ha, fun c => ?_⟩
        rw [hmem, List.map_cons, List.filter_cons_of_neg (by simp [hblank])]
      · rw [if_neg hblank] at h
        by_cases hcap : (allowed role).contains (normalizeWord part) = false
        · rw [if_pos hcap] at h
          cases h
        · rw [if_neg hcap] at h
          have hallowed' : ∀ c ∈ (if out.contains (normalizeWord part) then out
              else out ++ [normalizeWord part]), c ∈ allowed role := by
            intro c hc
            rcases mem_collect.mp hc with hc | rfl
            · exact hallowed c hc
            · simpa using hcap
          obtain ⟨hn, ha, hmem⟩ := ih (nodup_collect hnodup) hallowed' h
          refine ⟨hn, ha, fun c => ?_⟩
          rw [hmem, mem_collect, List.map_cons, List.filter_cons_of_pos (by simp [hblank]),
            List.mem_cons, or_assoc]

/-- What is known of a list of capabilities for a role. -/
structure CapList (role : Storage.Role) (caps : List String) : Prop where
  ne_nil : caps ≠ []
  nodup : caps.Nodup
  supported : ∀ c ∈ caps, c ∈ allowed role

theorem parseCapList_ok
    {role : Storage.Role} {raw : String} {caps : List String}
    (h : parseCapList role raw = .ok caps) :
    CapList role caps ∧ caps.toFinset = (capNames raw).toFinset := by
  unfold parseCapList at h
  obtain ⟨out, hout, h⟩ := exists_of_bind_ok h
  split_ifs at h with hempty
  cases h
  obtain ⟨hnodup, hallowed, hmem⟩ := collectCaps_ok List.nodup_nil (by simp) hout
  refine ⟨⟨hempty, hnodup, hallowed⟩, ?_⟩
  ext c
  rw [List.mem_toFinset, List.mem_toFinset, hmem, capNames]
  simp

theorem defaults_capList (role : Storage.Role) : CapList role (defaults role) := by
  cases role <;> exact ⟨by decide, by decide, by decide⟩

end Lists

section Groups

/-- The role name and the capabilities that a group names. -/
def namedGroup (group : String) : Option (String × List String) :=
  (cut (trimSpace group) ':').map fun (name, list) =>
    (normalizeWord name, capNames (barsToCommas list))

/-- What the groups of a string name. -/
def namedGroups (raw : String) : List (String × List String) :=
  (split raw ';').filterMap namedGroup

/-- The string is read as groups: it is not the shorthand of a single role. -/
def Grouped (roles : List Storage.Role) (raw : String) : Prop :=
  roles.length ≠ 1 ∨ contains raw ":" = true

/-- The set of capabilities enabled for a role. -/
def enabled (caps : Capabilities) (role : Storage.Role) : Finset String :=
  ((caps.lookup role).getD []).toFinset

variable {roles : List Storage.Role} {raw : String}

theorem role_name_injective {role role' : Storage.Role} (h : role.name = role'.name) :
    role = role' := by
  cases role <;> cases role' <;> first | rfl | exact absurd h (by decide)

/-- What an accepted group stands for. -/
theorem readGroup_ok
    {group : String} {r : Option (Storage.Role × List String)}
    (h : readGroup roles group = .ok r) :
    (r = none ∧ namedGroup group = none) ∨
      ∃ role caps names, r = some (role, caps) ∧ role ∈ roles ∧
        namedGroup group = some (role.name, names) ∧ CapList role caps ∧
        caps.toFinset = names.toFinset := by
  simp only [readGroup] at h
  by_cases hblank : trimSpace group = ""
  · rw [if_pos hblank] at h
    cases h
    exact Or.inl ⟨rfl, by rw [namedGroup, hblank]; rfl⟩
  · rw [if_neg hblank] at h
    cases hcut : cut (trimSpace group) ':' with
    | none =>
        rw [hcut] at h
        cases h
    | some pair =>
        obtain ⟨name, list⟩ := pair
        rw [hcut] at h
        cases hrole : findRole roles (normalizeWord name) with
        | none =>
            simp only [hrole] at h
            cases h
        | some role =>
            simp only [hrole] at h
            obtain ⟨caps, hcaps, h⟩ := exists_of_bind_ok h
            cases h
            obtain ⟨hmem, hname⟩ := findRole_name hrole
            obtain ⟨hlist, hset⟩ := parseCapList_ok hcaps
            refine Or.inr ⟨role, caps, _, rfl, hmem, ?_, hlist, hset⟩
            rw [namedGroup, hcut, Option.map_some, hname]

theorem readGroups_cons_none
    {out : Capabilities} {group : String} {rest : List String}
    (h : readGroup roles group = .ok none) :
    readGroups roles out (group :: rest) = readGroups roles out rest := by
  rw [readGroups, h]
  rfl

theorem readGroups_cons_some
    {out : Capabilities} {group : String} {rest : List String} {role : Storage.Role}
    {caps : List String}
    (h : readGroup roles group = .ok (some (role, caps))) :
    readGroups roles out (group :: rest) = readGroups roles (out.insert role caps) rest := by
  rw [readGroups, h]
  rfl

/-- The groups are accepted one by one. -/
theorem readGroups_isOk_iff
    {groups : List String} :
    ∀ out : Capabilities, (∃ caps, readGroups roles out groups = .ok caps) ↔
      ∀ group ∈ groups, ∃ r, readGroup roles group = .ok r := by
  induction groups with
  | nil =>
      intro out
      exact ⟨by simp, fun _ => ⟨out, rfl⟩⟩
  | cons group rest ih =>
      intro out
      rw [List.forall_mem_cons]
      cases hgroup : readGroup roles group with
      | error e =>
          constructor
          · rintro ⟨caps, h⟩
            rw [readGroups, hgroup] at h
            cases h
          · rintro ⟨⟨r, h⟩, -⟩
            cases h
      | ok r =>
          cases r with
          | none => simp [readGroups_cons_none hgroup, ih]
          | some pair => simp [readGroups_cons_some hgroup, ih]

theorem readGroups_append
    {groups rest : List String} :
    ∀ {out caps : Capabilities}, readGroups roles out groups = .ok caps →
      readGroups roles out (groups ++ rest) = readGroups roles caps rest := by
  induction groups with
  | nil =>
      intro out caps h
      cases h
      rfl
  | cons group groups ih =>
      intro out caps h
      cases hgroup : readGroup roles group with
      | error e =>
          rw [readGroups, hgroup] at h
          cases h
      | ok r =>
          cases r with
          | none =>
              rw [readGroups_cons_none hgroup] at h
              rw [List.cons_append, readGroups_cons_none hgroup, ih h]
          | some pair =>
              rw [readGroups_cons_some hgroup] at h
              rw [List.cons_append, readGroups_cons_some hgroup, ih h]

/-- The entry of a role after the loop: untouched when no group names the role,
else what one of the groups names. -/
theorem readGroups_lookup
    {groups : List String} (role : Storage.Role) :
    ∀ {out caps : Capabilities}, readGroups roles out groups = .ok caps →
      (caps.lookup role = out.lookup role ∧
        ∀ group ∈ groups, ∀ names, namedGroup group ≠ some (role.name, names)) ∨
      ∃ group ∈ groups, ∃ names list, namedGroup group = some (role.name, names) ∧
        caps.lookup role = some list ∧ role ∈ roles ∧ CapList role list ∧
        list.toFinset = names.toFinset := by
  induction groups with
  | nil =>
      intro out caps h
      cases h
      exact Or.inl ⟨rfl, by simp⟩
  | cons group rest ih =>
      intro out caps h
      cases hgroup : readGroup roles group with
      | error e =>
          rw [readGroups, hgroup] at h
          cases h
      | ok r =>
          rcases readGroup_ok hgroup with
            ⟨rfl, hnone⟩ | ⟨role', list, names, rfl, hmem, hnamed, hlist, hset⟩
          · rw [readGroups_cons_none hgroup] at h
            rcases ih h with ⟨hlookup, hall⟩ | ⟨g, hg, hrest⟩
            · refine Or.inl ⟨hlookup, List.forall_mem_cons.mpr ⟨?_, hall⟩⟩
              simp [hnone]
            · exact Or.inr ⟨g, List.mem_cons_of_mem _ hg, hrest⟩
          · rw [readGroups_cons_some hgroup] at h
            rcases ih h with ⟨hlookup, hall⟩ | ⟨g, hg, hrest⟩
            · by_cases hrole : role = role'
              · subst hrole
                rw [AList.lookup_insert] at hlookup
                exact Or.inr ⟨group, List.mem_cons_self, names, list, hnamed, hlookup, hmem,
                  hlist, hset⟩
              · rw [AList.lookup_insert_ne hrole] at hlookup
                refine Or.inl ⟨hlookup, List.forall_mem_cons.mpr ⟨?_, hall⟩⟩
                intro names' hnamed'
                rw [hnamed] at hnamed'
                exact hrole (role_name_injective (congrArg Prod.fst (Option.some.inj hnamed'))).symm
            · exact Or.inr ⟨g, List.mem_cons_of_mem _ hg, hrest⟩

/-- The last loop gives a selected role without capabilities its defaults. -/
theorem fillDefaults_lookup
    (roles : List Storage.Role) (role : Storage.Role) :
    ∀ out : Capabilities, (fillDefaults roles out).lookup role =
      if role ∈ roles ∧ (out.lookup role).getD [] = [] then some (defaults role)
      else out.lookup role := by
  induction roles with
  | nil =>
      intro out
      simp [fillDefaults]
  | cons r rest ih =>
      intro out
      have hstep : fillDefaults (r :: rest) out = fillDefaults rest
          (if (out.lookup r).getD [] = [] then out.insert r (defaults r) else out) := rfl
      rw [hstep, ih]
      have hdefaults : defaults r ≠ [] := (defaults_capList r).ne_nil
      by_cases hr : role = r
      · subst hr
        by_cases hempty : (out.lookup role).getD [] = []
        · simp [hempty, hdefaults]
        · simp [hempty]
      · by_cases hempty : (out.lookup r).getD [] = []
        · simp [hempty, hr, AList.lookup_insert_ne hr]
        · simp [hempty, hr]

theorem contains_colon_iff (raw : String) : contains raw ":" = true ↔ ':' ∈ raw.toList := by
  rw [contains, decide_eq_true_eq]
  exact List.singleton_infix_iff _ _

theorem parseCapabilities_grouped
    (hraw : trimSpace raw ≠ "")
    (hgrouped : Grouped roles raw) :
    parseCapabilities roles raw =
      (readGroups roles ∅ (split raw ';')).map (fillDefaults roles) := by
  unfold parseCapabilities
  rw [if_neg hraw]
  have hbind : ∀ x : Except String Capabilities,
      (do let out ← x; .ok (fillDefaults roles out)) = x.map (fillDefaults roles) := by
    intro x
    cases x <;> rfl
  split
  · rename_i role hcontains
    rcases hgrouped with h | h
    · exact absurd rfl h
    · rw [h] at hcontains
      cases hcontains
  · exact hbind _

/-- What `ParseCapabilities` has read when it accepts groups. -/
theorem readGroups_of_parse
    {caps : Capabilities}
    (hraw : trimSpace raw ≠ "")
    (hgrouped : Grouped roles raw)
    (h : parseCapabilities roles raw = .ok caps) :
    ∃ out, readGroups roles ∅ (split raw ';') = .ok out ∧ fillDefaults roles out = caps := by
  rw [parseCapabilities_grouped hraw hgrouped] at h
  cases hread : readGroups roles ∅ (split raw ';') with
  | error e =>
      rw [hread] at h
      cases h
  | ok out =>
      rw [hread] at h
      exact ⟨out, rfl, Except.ok.inj h⟩

/-- A list that one of the groups gave a role is what the role ends up with. -/
theorem enabled_fillDefaults
    {out : Capabilities} {role : Storage.Role} {list : List String}
    (hlookup : out.lookup role = some list)
    (hne : list ≠ []) :
    enabled (fillDefaults roles out) role = list.toFinset := by
  rw [enabled, fillDefaults_lookup, hlookup, if_neg (by simp [hne])]
  rfl

theorem mem_namedGroups
    {group name : String} {names : List String}
    (hgroup : group ∈ split raw ';')
    (hnamed : namedGroup group = some (name, names)) :
    (name, names) ∈ namedGroups raw :=
  List.mem_filterMap.mpr ⟨group, hgroup, hnamed⟩

/-- A role is left without a group, or one of its groups says what it has. -/
theorem enabled_cases
    {caps : Capabilities} (role : Storage.Role)
    (hraw : trimSpace raw ≠ "")
    (hgrouped : Grouped roles raw)
    (h : parseCapabilities roles raw = .ok caps) :
    ((∀ g ∈ namedGroups raw, g.1 ≠ role.name) ∧
      enabled caps role = if role ∈ roles then (defaults role).toFinset else ∅) ∨
    ∃ g ∈ namedGroups raw, g.1 = role.name ∧ enabled caps role = g.2.toFinset := by
  obtain ⟨out, hread, rfl⟩ := readGroups_of_parse hraw hgrouped h
  rcases readGroups_lookup role hread with
    ⟨hlookup, hall⟩ | ⟨group, hgroup, names, list, hnamed, hlookup, -, hlist, hset⟩
  · refine Or.inl ⟨?_, ?_⟩
    · rintro ⟨name, names⟩ hg rfl
      obtain ⟨group, hgroup, hnamed⟩ := List.mem_filterMap.mp hg
      exact hall group hgroup names hnamed
    · rw [enabled, fillDefaults_lookup, hlookup]
      by_cases hmem : role ∈ roles
      · simp [hmem]
      · simp [hmem]
  · refine Or.inr ⟨_, mem_namedGroups hgroup hnamed, rfl, ?_⟩
    rw [enabled_fillDefaults hlookup hlist.ne_nil, hset]

end Groups

section Exactness

variable {roles : List Storage.Role} {raw : String} {caps : Capabilities}

/-- Every role that a group names has what its groups name together. -/
def UnionLaw (raw : String) (caps : Capabilities) : Prop :=
  ∀ role : Storage.Role, (∃ g ∈ namedGroups raw, g.1 = role.name) →
    ∀ c, c ∈ enabled caps role ↔ ∃ g ∈ namedGroups raw, g.1 = role.name ∧ c ∈ g.2

/-- The groups may be permuted. -/
def PermutationLaw (roles : List Storage.Role) (raw : String) (caps : Capabilities) : Prop :=
  ∀ raw', (split raw' ';').Perm (split raw ';') →
    ∃ caps', parseCapabilities roles raw' = .ok caps' ∧
      ∀ role, enabled caps' role = enabled caps role

/-- Groups of one role name the same capabilities. -/
def GroupsAgree (raw : String) : Prop :=
  ∀ g ∈ namedGroups raw, ∀ g' ∈ namedGroups raw, g.1 = g'.1 → g.2.toFinset = g'.2.toFinset

theorem unionLaw_of_agree
    (hraw : trimSpace raw ≠ "")
    (hgrouped : Grouped roles raw)
    (h : parseCapabilities roles raw = .ok caps)
    (hagree : GroupsAgree raw) :
    UnionLaw raw caps := by
  intro role ⟨g, hg, hname⟩ c
  rcases enabled_cases role hraw hgrouped h with ⟨hnone, -⟩ | ⟨g', hg', hname', hset⟩
  · exact absurd hname (hnone g hg)
  · rw [hset]
    constructor
    · intro hc
      exact ⟨g', hg', hname', List.mem_toFinset.mp hc⟩
    · rintro ⟨g'', hg'', hname'', hc⟩
      rw [← hagree g'' hg'' g' hg' (hname''.trans hname'.symm)]
      exact List.mem_toFinset.mpr hc

/-- Permuted groups are still groups. -/
theorem grouped_of_perm
    {raw' : String}
    (hperm : (split raw' ';').Perm (split raw ';'))
    (hgrouped : Grouped roles raw) :
    Grouped roles raw' := by
  refine hgrouped.imp_right fun hcontains => ?_
  rw [contains_colon_iff, ← exists_mem_split_iff (show ':' ≠ ';' by decide)] at hcontains ⊢
  obtain ⟨piece, hpiece, hmem⟩ := hcontains
  exact ⟨piece, hperm.mem_iff.mpr hpiece, hmem⟩

/-- Permuted groups are not blank: a single group stays as it is, and several are
separated by a semicolon. -/
theorem nonblank_of_perm
    {raw' : String}
    (hperm : (split raw' ';').Perm (split raw ';'))
    (hraw : trimSpace raw ≠ "") :
    trimSpace raw' ≠ "" := by
  intro hblank
  have hsemi : ';' ∉ raw'.toList := by
    intro hmem
    have hspace := isSpace_of_trimSpace_eq hblank ';' hmem
    revert hspace
    decide
  rw [split_of_not_mem hsemi] at hperm
  have hsingle : split raw ';' = [raw'] := (List.singleton_perm.mp hperm).symm
  have heq : raw = raw' := by
    rw [← joinWith_split raw ';', ← joinWith_split raw' ';', hsingle, split_of_not_mem hsemi]
  exact hraw (heq ▸ hblank)

/-- Permuted groups are accepted. -/
theorem parse_of_perm
    {raw' : String}
    (hraw : trimSpace raw ≠ "")
    (hgrouped : Grouped roles raw)
    (h : parseCapabilities roles raw = .ok caps)
    (hperm : (split raw' ';').Perm (split raw ';')) :
    ∃ caps', parseCapabilities roles raw' = .ok caps' := by
  obtain ⟨out, hread, -⟩ := readGroups_of_parse hraw hgrouped h
  have hall := (readGroups_isOk_iff _).mp ⟨out, hread⟩
  obtain ⟨out', hread'⟩ := (readGroups_isOk_iff ∅).mpr
    fun group hgroup => hall group (hperm.mem_iff.mp hgroup)
  refine ⟨fillDefaults roles out', ?_⟩
  rw [parseCapabilities_grouped (nonblank_of_perm hperm hraw) (grouped_of_perm hperm hgrouped),
    hread']
  rfl

theorem permutationLaw_of_agree
    (hraw : trimSpace raw ≠ "")
    (hgrouped : Grouped roles raw)
    (h : parseCapabilities roles raw = .ok caps)
    (hagree : GroupsAgree raw) :
    PermutationLaw roles raw caps := by
  intro raw' hperm
  obtain ⟨caps', h'⟩ := parse_of_perm hraw hgrouped h hperm
  refine ⟨caps', h', fun role => ?_⟩
  have hmem : ∀ g, g ∈ namedGroups raw' ↔ g ∈ namedGroups raw := fun g =>
    (hperm.filterMap namedGroup).mem_iff
  have hcases := enabled_cases role (nonblank_of_perm hperm hraw)
    (grouped_of_perm hperm hgrouped) h'
  simp only [hmem] at hcases
  rcases hcases with ⟨hnone', hset'⟩ | ⟨g', hg', hname', hset'⟩
  · rcases enabled_cases role hraw hgrouped h with ⟨-, hset⟩ | ⟨g, hg, hname, -⟩
    · rw [hset, hset']
    · exact absurd hname (hnone' g hg)
  · rcases enabled_cases role hraw hgrouped h with ⟨hnone, -⟩ | ⟨g, hg, hname, hset⟩
    · exact absurd hname' (hnone g' hg')
    · rw [hset, hset', hagree g' hg' g hg (hname'.trans hname.symm)]

/-- The group that comes last decides what its role has. -/
theorem enabled_last
    {pieces : List String} {group : String} {role : Storage.Role} {names : List String}
    (hraw : trimSpace raw ≠ "")
    (hgrouped : Grouped roles raw)
    (h : parseCapabilities roles raw = .ok caps)
    (hsplit : split raw ';' = pieces ++ [group])
    (hnamed : namedGroup group = some (role.name, names)) :
    enabled caps role = names.toFinset := by
  obtain ⟨out, hread, rfl⟩ := readGroups_of_parse hraw hgrouped h
  rw [hsplit] at hread
  have hall := (readGroups_isOk_iff _).mp ⟨out, hread⟩
  obtain ⟨before, hbefore⟩ := (readGroups_isOk_iff ∅).mpr
    fun g hg => hall g (List.mem_append_left _ hg)
  rw [readGroups_append hbefore] at hread
  rcases readGroups_lookup role hread with
    ⟨-, hnot⟩ | ⟨g, hg, names', list, hnamed', hlookup, -, hlist, hset⟩
  · exact absurd hnamed (hnot group (List.mem_singleton_self group) names)
  · rw [List.mem_singleton.mp hg, hnamed] at hnamed'
    cases hnamed'
    rw [enabled_fillDefaults hlookup hlist.ne_nil, hset]

/-- A group that may come last says what its role has in every order. -/
theorem enabled_of_permutationLaw
    (hraw : trimSpace raw ≠ "")
    (hgrouped : Grouped roles raw)
    (h : parseCapabilities roles raw = .ok caps)
    (hlaw : PermutationLaw roles raw caps)
    {g : String × List String}
    (hg : g ∈ namedGroups raw) :
    ∃ role : Storage.Role, role.name = g.1 ∧ enabled caps role = g.2.toFinset := by
  obtain ⟨group, hgroup, hnamed⟩ := List.mem_filterMap.mp hg
  obtain ⟨out, hread, -⟩ := readGroups_of_parse hraw hgrouped h
  obtain ⟨r, hr⟩ := (readGroups_isOk_iff _).mp ⟨out, hread⟩ group hgroup
  rcases readGroup_ok hr with ⟨-, hnone⟩ | ⟨role, list, names, -, -, hnamed', -, -⟩
  · rw [hnone] at hnamed
    cases hnamed
  · rw [hnamed] at hnamed'
    cases hnamed'
    -- the same groups with this one at the end
    have hperm : ((split raw ';').erase group ++ [group]).Perm (split raw ';') :=
      (List.perm_append_singleton _ _).trans (List.perm_cons_erase hgroup).symm
    have hsplit := split_joinWith
      (fun piece hpiece => not_mem_of_mem_split (hperm.mem_iff.mp hpiece)) (by simp)
    rw [← hsplit] at hperm
    obtain ⟨caps', h', hsame⟩ := hlaw _ hperm
    refine ⟨role, rfl, ?_⟩
    rw [← hsame role]
    exact enabled_last (nonblank_of_perm hperm hraw) (grouped_of_perm hperm hgrouped) h' hsplit
      hnamed

theorem agree_of_permutationLaw
    (hraw : trimSpace raw ≠ "")
    (hgrouped : Grouped roles raw)
    (h : parseCapabilities roles raw = .ok caps)
    (hlaw : PermutationLaw roles raw caps) :
    GroupsAgree raw := by
  intro g hg g' hg' hname
  obtain ⟨role, hrole, hset⟩ := enabled_of_permutationLaw hraw hgrouped h hlaw hg
  obtain ⟨role', hrole', hset'⟩ := enabled_of_permutationLaw hraw hgrouped h hlaw hg'
  have hsame : role = role' := role_name_injective (hrole.trans (hname.trans hrole'.symm))
  rw [← hset, ← hset', hsame]

/-- For every accepted string of groups: each role has exactly what its groups
name, in whatever order the groups stand, if and only if the groups of each role
agree. -/
theorem capabilities_exact_iff
    (rawRoles raw : String) (roles : List Storage.Role) (caps : Capabilities)
    (_ : parseRoles rawRoles = .ok roles)
    (hraw : trimSpace raw ≠ "")
    (hgrouped : Grouped roles raw)
    (h : parseCapabilities roles raw = .ok caps) :
    (UnionLaw raw caps ∧ PermutationLaw roles raw caps) ↔ GroupsAgree raw :=
  ⟨fun hlaws => agree_of_permutationLaw hraw hgrouped h hlaws.2,
    fun hagree => ⟨unionLaw_of_agree hraw hgrouped h hagree,
      permutationLaw_of_agree hraw hgrouped h hagree⟩⟩

theorem capabilities_exact_two_roles :
    ∃ caps, parseCapabilities [.storage, .streaming] "storage:upload|download;streaming:token" =
        .ok caps ∧
      UnionLaw "storage:upload|download;streaming:token" caps := by
  have hroles : parseRoles "storage,streaming" = .ok [.storage, .streaming] := by decide +kernel
  have hraw : trimSpace "storage:upload|download;streaming:token" ≠ "" := by decide +kernel
  have hgroups : namedGroups "storage:upload|download;streaming:token" =
      [("storage", ["upload", "download"]), ("streaming", ["token"])] := by decide +kernel
  have hcaps : parseCapabilities [.storage, .streaming] "storage:upload|download;streaming:token" =
      .ok (((∅ : Capabilities).insert Storage.Role.storage ["upload", "download"]).insert
        Storage.Role.streaming ["token"]) := by rfl
  refine ⟨_, hcaps, ?_⟩
  refine ((capabilities_exact_iff _ _ _ _ hroles hraw (Or.inl (by decide)) hcaps).mpr ?_).1
  rw [GroupsAgree, hgroups]
  decide

/-- Two groups of one role: the first one is dropped, and the other order drops
the other one. -/
theorem second_group_replaces :
    parseRoles "storage" = .ok [.storage] ∧
      namedGroups "storage:upload;storage:download" =
        [("storage", ["upload"]), ("storage", ["download"])] ∧
      parseCapabilities [.storage] "storage:upload;storage:download" =
        .ok ((∅ : Capabilities).insert .storage ["download"]) ∧
      parseCapabilities [.storage] "storage:download;storage:upload" =
        .ok ((∅ : Capabilities).insert .storage ["upload"]) := by
  refine ⟨?_, ?_, ?_, ?_⟩
  · decide +kernel
  · decide +kernel
  · rfl
  · rfl

end Exactness

end App
end GatewayRuntime
