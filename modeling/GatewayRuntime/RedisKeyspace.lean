import GatewayRuntime.RefreshOwnership
import GatewayRuntime.StoreEquivalence
import GatewayRuntime.UserContextCache

/-!
# The keys of a Redis database

The stores of `internal/store/redis` keep sessions, token sets, login flows, cached user contexts
and refresh locks in one flat database.  A key is the prefix of the deployment, a kind and an
identifier, joined by colons; nothing is escaped, and a session identifier comes from a cookie.

The five kinds of one deployment never meet, whatever the identifiers are, so the database
behaves as five separate stores.  Several deployments may share a database.  They are separate
as well unless the prefix of one continues the prefix of another by a kind, and in that case
every key of the one is a key of the other.
-/

namespace GatewayRuntime
namespace RedisStore

open GoText UserContext Token

section Keys

/-- What a key is for. -/
inductive Kind where
  | session
  | token
  | cache
  | flow
  | lock
deriving DecidableEq

/-- The parts of a key between the prefix and the identifier. -/
def Kind.parts : Kind → List String
  | .session => ["session"]
  | .token => ["token"]
  | .cache => ["cache"]
  | .flow => ["auth", "flow"]
  | .lock => ["lock"]

/-- The prefix of the client that `New` returns. -/
def newPrefix (configured : String) : String :=
  let chosen := if configured = "" then "rebff" else configured
  if hasSuffix chosen ":" then String.ofList chosen.toList.dropLast else chosen

/-- `Client.key` of the client with the prefix. -/
def key (root : String) (parts : List String) : String :=
  (RefreshLocker.Client.mk root).key parts

/-- An identifier of a kind. -/
abbrev Slot := Kind × String

/-- The key of an identifier. -/
def slotKey (root : String) (slot : Slot) : String :=
  key root (slot.1.parts ++ [slot.2])

/-- The parts of a kind, each with the colon after it. -/
def Kind.text (kind : Kind) : List Char :=
  (kind.parts.map fun part => part.toList ++ [':']).flatten

theorem slotKey_toList (root : String) (slot : Slot) :
    (slotKey root slot).toList = root.toList ++ ':' :: (slot.1.text ++ slot.2.toList) := by
  obtain ⟨kind, id⟩ := slot
  cases kind <;> simp [slotKey, key, RefreshLocker.Client.key, Kind.parts, Kind.text]

/-- The first letters of the kinds are different. -/
theorem Kind.eq_of_text_append
    {kind kind' : Kind} {rest rest' : List Char}
    (h : kind.text ++ rest = kind'.text ++ rest') :
    kind = kind' := by
  cases kind <;> cases kind' <;> first | rfl | simp [Kind.text, Kind.parts] at h

theorem slotKey_injective (root : String) :
    Function.Injective (slotKey root) := by
  rintro ⟨kind, id⟩ ⟨kind', id'⟩ h
  have htext := congrArg String.toList h
  rw [slotKey_toList, slotKey_toList] at htext
  have hrest := List.cons_injective (List.append_cancel_left htext)
  obtain rfl := Kind.eq_of_text_append hrest
  exact congrArg _ (String.toList_injective (List.append_cancel_left hrest))

/-- The prefix `other` continues the prefix `root` by the kind, and ends there or goes on after a
colon. -/
def Continues (kind : Kind) (root other : String) : Prop :=
  root.toList ++ ':' :: kind.text <+: other.toList ++ [':']

instance (kind : Kind) (root other : String) : Decidable (Continues kind root other) :=
  inferInstanceAs (Decidable (_ <+: _))

/-- A colon in the text of a kind ends it or stands before `flow`. -/
theorem Kind.text_eq_append_colon
    {kind : Kind} {front back : List Char}
    (h : kind.text = front ++ ':' :: back) :
    back = [] ∨ back = "flow:".toList := by
  have hmem : (front, back) ∈ (List.range kind.text.length).filterMap fun n =>
      if kind.text[n]? = some ':' then some (kind.text.take n, kind.text.drop (n + 1)) else none := by
    refine List.mem_filterMap.mpr ⟨front.length, ?_, ?_⟩
    · rw [List.mem_range, h]
      simp
    · simp [h]
  cases kind <;> revert hmem <;> simp [Kind.text, Kind.parts, List.range_succ] <;> grind

/-- A key of a prefix that is a key of a longer prefix. -/
theorem continues_of_append
    {root other : String} {rest : List Char} {slot slot' : Slot}
    (hother : other.toList = root.toList ++ rest) (hrest : rest ≠ [])
    (h : ':' :: (slot.1.text ++ slot.2.toList) = rest ++ ':' :: (slot'.1.text ++ slot'.2.toList)) :
    Continues slot.1 root other := by
  obtain ⟨first, tail, rfl⟩ := List.exists_cons_of_ne_nil hrest
  obtain ⟨rfl, htail⟩ := List.cons.inj h
  rw [Continues, hother, List.append_assoc, List.prefix_append_right_inj, List.cons_append,
    List.prefix_cons_inj]
  rcases List.append_eq_append_iff.mp htail with ⟨more, rfl, -⟩ | ⟨more, htext, hmore⟩
  · exact ⟨more ++ [':'], by simp⟩
  · -- The longer prefix ends inside the kind; what is left of the kind is the colon.
    rcases more with _ | ⟨letter, more⟩
    · exact ⟨[':'], by simp [htext]⟩
    · obtain ⟨rfl, hmore⟩ := List.cons.inj hmore
      rcases Kind.text_eq_append_colon htext with rfl | rfl
      · exact ⟨[], by simp [htext]⟩
      · exfalso
        obtain ⟨kind', id'⟩ := slot'
        cases kind' <;> simp [Kind.text, Kind.parts] at hmore

/-- Two prefixes have a key in common only if one continues the other by a kind. -/
theorem continues_of_slotKey_eq
    {root other : String} {slot slot' : Slot}
    (hne : root ≠ other) (h : slotKey root slot = slotKey other slot') :
    Continues slot.1 root other ∨ Continues slot'.1 other root := by
  have htext := congrArg String.toList h
  rw [slotKey_toList, slotKey_toList] at htext
  have hnil {a b : String} {rest : List Char} (hab : a ≠ b) (hb : b.toList = a.toList ++ rest) :
      rest ≠ [] := by
    rintro rfl
    exact hab (String.toList_injective (by simpa using hb.symm))
  rcases List.append_eq_append_iff.mp htext with ⟨rest, hother, hrest⟩ | ⟨rest, hroot, hrest⟩
  · exact Or.inl (continues_of_append hother (hnil hne hother) hrest)
  · exact Or.inr (continues_of_append hroot (hnil hne.symm hroot) hrest)

/-- If a prefix continues another by a kind, all its keys are keys of that kind. -/
theorem Continues.slotKey
    {kind : Kind} {root other : String} (h : Continues kind root other) :
    ∃ front : String, ∀ slot : Slot,
      RedisStore.slotKey other slot =
        RedisStore.slotKey root (kind, front ++ String.ofList slot.1.text ++ slot.2) := by
  obtain ⟨back, hback⟩ := h
  refine ⟨String.ofList back, fun slot => String.toList_injective ?_⟩
  have hmove : other.toList ++ ':' :: (slot.1.text ++ slot.2.toList) =
      (other.toList ++ [':']) ++ (slot.1.text ++ slot.2.toList) := by
    simp
  rw [slotKey_toList, slotKey_toList, hmove, ← hback]
  simp

end Keys

section Database

/-- The text that a key holds, by the store that wrote it. -/
inductive Item where
  | session (v : Session)
  | token (x : TokenSet)
  | cached (b : Body)
  | flow (f : Flow)
  | lock (owner : Nat)

/-- A text under a key, and the instant at which its time to live ends. -/
structure Entry where
  item : Item
  deadline : Int

/-- A Redis database. -/
abbrev Database := Table String Entry

/-- What `json.Unmarshal` makes of a text.  Of the texts of other stores nothing is known. -/
structure Decoder where
  session : Item → Except Err Session
  token : Item → Except Err TokenSet
  cached : Item → Except Err Body
  flow : Item → Except Err Flow
  session_own : ∀ v, session (.session v) = .ok v
  token_own : ∀ x, token (.token x) = .ok x
  cached_own : ∀ b, cached (.cached b) = .ok b
  flow_own : ∀ f, flow (.flow f) = .ok f

/-- `GET`: a key whose time to live has ended is absent. -/
def Entry.live (now : Int) (e : Option Entry) : Option Item :=
  e.bind fun e => if now < e.deadline then some e.item else none

/-- `SET` with a time to live. -/
def Entry.lasting (now : Int) (item : Item) (ttl : Duration) : Entry :=
  ⟨item, now + redisExpiry ttl⟩

/-- A call of one of the stores.  `CachedResolver` never sets an entry without a time to live. -/
inductive Call where
  | store (call : Backends.Call)
  | cacheGet (k : String)
  | cacheSet (k : String) (b : Body) (ttl : Duration) (hpos : 0 < ttl)
  | cacheDelete (k : String)
  | tryLock (k : String) (handle : Nat) (ttl : Duration)
  | unlock (k : String) (handle : Nat)

/-- What a call returns. -/
inductive Answer where
  | store (answer : Backends.Answer)
  | cached (r : Except Err (Option Body))
  | done (r : Except Err Unit)
  | locked (ok : Bool)

variable (dec : Decoder) (root : String) (d : Database) (now : Int)

/-- `SessionStore.Get`. -/
def sessionGet (sid : String) : Database × Except Err Session :=
  let k := key root ["session", sid]
  match Entry.live now (d.find k) with
  | none => (d, .error Session.errNotFound)
  | some item =>
      match dec.session item with
      | .error e => (d, .error e)
      | .ok v =>
          if !GoTime.isZero v.expiresAt && !GoTime.after v.expiresAt now then
            (d.erase k, .error Session.errNotFound)
          else (d, .ok v)

/-- `SessionStore.Put`. -/
def sessionPut (v : Session) : Database × Except Err Unit :=
  if Session.marshalable v = false then (d, .error Session.errMarshal)
  else
    let ttl := GoTime.sub v.expiresAt now
    if ttl ≤ 0 then (d, .error Session.errNotFound)
    else (d.set (key root ["session", v.id]) (.lasting now (.session v) ttl), .ok ())

/-- `TokenStore.Get`. -/
def tokenGet (sid : String) : Except Err TokenSet :=
  match Entry.live now (d.find (key root ["token", sid])) with
  | none => .error Token.errNotFound
  | some item => dec.token item

/-- `TokenStore.Put`. -/
def tokenPut (sid : String) (x : TokenSet) (expiresAt : Int) : Database × Except Err Unit :=
  let ttl := GoTime.sub expiresAt now
  if ttl ≤ 0 then (d, .error Token.errNotFound)
  else (d.set (key root ["token", sid]) (.lasting now (.token x) ttl), .ok ())

/-- `FlowStore.Put`. -/
def flowPut (f : Flow) : Database × Except Err Unit :=
  if Session.marshalableTime f.expiresAt = false then (d, .error Session.errMarshal)
  else
    let ttl := GoTime.sub f.expiresAt now
    if ttl ≤ 0 then (d, .error Flow.errNotFound)
    else (d.set (key root ["auth", "flow", f.state]) (.lasting now (.flow f) ttl), .ok ())

/-- `FlowStore.Take`. -/
def flowTake (state : String) : Database × Except Err Flow :=
  let k := key root ["auth", "flow", state]
  (d.erase k,
    match Entry.live now (d.find k) with
    | none => .error Flow.errNotFound
    | some item =>
        match dec.flow item with
        | .error e => .error e
        | .ok f => if GoTime.after f.expiresAt now then .ok f else .error Flow.errNotFound)

/-- `Cache.Get`. -/
def cacheGet (k : String) : Except Err (Option Body) :=
  match Entry.live now (d.find (key root ["cache", k])) with
  | none => .ok none
  | some item => (dec.cached item).map some

/-- One `SETNX` of `RefreshLocker.Lock`, and whether it took the lock. -/
def tryLock (k : String) (handle : Nat) (ttl : Duration) : Database × Bool :=
  let ttl := if ttl ≤ 0 then 10 * Duration.second else ttl
  let k := key root ["lock", k]
  match Entry.live now (d.find k) with
  | some _ => (d, false)
  | none => (d.set k (.lasting now (.lock handle) ttl), true)

/-- The script that gives a lock back.  Only the text of a lock can be the value of a handle. -/
def unlock (k : String) (handle : Nat) : Database :=
  let k := key root ["lock", k]
  match Entry.live now (d.find k) with
  | some (.lock owner) => if owner = handle then d.erase k else d
  | _ => d

/-- One call of a deployment. -/
def run : Call → Database × Answer
  | .store (.sessionPut v) =>
      ((sessionPut root d now v).1, .store (.done (sessionPut root d now v).2))
  | .store (.sessionGet sid) =>
      ((sessionGet dec root d now sid).1, .store (.session (sessionGet dec root d now sid).2))
  | .store (.sessionDelete sid) => (d.erase (key root ["session", sid]), .store (.done (.ok ())))
  | .store (.tokenPut sid x expiresAt) =>
      ((tokenPut root d now sid x expiresAt).1,
        .store (.done (tokenPut root d now sid x expiresAt).2))
  | .store (.tokenGet sid) => (d, .store (.token (tokenGet dec root d now sid)))
  | .store (.tokenDelete sid) => (d.erase (key root ["token", sid]), .store (.done (.ok ())))
  | .store (.flowPut f) => ((flowPut root d now f).1, .store (.done (flowPut root d now f).2))
  | .store (.flowTake state) =>
      ((flowTake dec root d now state).1, .store (.flow (flowTake dec root d now state).2))
  | .cacheGet k => (d, .cached (cacheGet dec root d now k))
  | .cacheSet k b ttl _ =>
      (d.set (key root ["cache", k]) (.lasting now (.cached b) ttl), .done (.ok ()))
  | .cacheDelete k => (d.erase (key root ["cache", k]), .done (.ok ()))
  | .tryLock k handle ttl =>
      ((tryLock root d now k handle ttl).1, .locked (tryLock root d now k handle ttl).2)
  | .unlock k handle => (unlock root d now k handle, .done (.ok ()))

end Database

section Separate

/-- The stores of one deployment, each with a database of its own. -/
structure Stores where
  stores : Backends.redis.State
  cache : Table String CacheEntry
  locks : Table String RedisLock

/-- Nothing is stored. -/
def Stores.empty : Stores where
  stores := ⟨Session.RedisState.empty, Table.empty, Flow.RedisState.empty⟩
  cache := Table.empty
  locks := Table.empty

/-- The locks without the one whose time to live has ended. -/
def expireLock (locks : Table String RedisLock) (now : Int) (k : String) : Table String RedisLock :=
  (redisLocker.expire locks now k).getD locks

/-- One call on separate stores. -/
def Stores.run (s : Stores) (now : Int) : Call → Stores × Answer
  | .store call =>
      ({ s with stores := (Backends.redis.run s.stores now call).1 },
        .store (Backends.redis.run s.stores now call).2)
  | .cacheGet k => (s, .cached (redisCache.get s.cache now k).2)
  | .cacheSet k b ttl _ =>
      ({ s with cache := (redisCache.set s.cache now k b ttl).1 },
        .done (redisCache.set s.cache now k b ttl).2)
  | .cacheDelete k => ({ s with cache := redisCache.delete s.cache k }, .done (.ok ()))
  | .tryLock k handle ttl =>
      match redisLocker.acquire (expireLock s.locks now k) now ttl k handle with
      | none => (s, .locked false)
      | some locks => ({ s with locks := locks }, .locked true)
  | .unlock k handle =>
      -- A lock that has ended is not there to be given back.
      match redisLocker.expire s.locks now k with
      | some _ => (s, .done (.ok ()))
      | none =>
          ({ s with locks := (redisLocker.release s.locks k handle).getD s.locks }, .done (.ok ()))

/-- What the stores keep under the identifiers of a kind. -/
def Stores.contents (s : Stores) : Kind → String → Option Entry
  | .session, name => (s.stores.sessions.data.find name).map fun e => ⟨.session e.value, e.deadline⟩
  | .token, name => (Table.find s.stores.tokens name).map fun e => ⟨.token e.set, e.deadline⟩
  | .cache, name => (s.cache.find name).map fun e => ⟨.cached e.data, e.expiresAt⟩
  | .flow, name => (s.stores.flows.data.find name).map fun e => ⟨.flow e.value, e.deadline⟩
  | .lock, name => (s.locks.find name).map fun e => ⟨.lock e.owner, e.deadline⟩

theorem Stores.contents_empty (kind : Kind) (name : String) :
    Stores.empty.contents kind name = none := by
  cases kind <;> rfl

theorem find_map_set {α : Type} (t : Table String α) (f : α → Entry) (k : String) (a : α) :
    (fun name => ((t.set k a).find name).map f) =
      Function.update (fun name => (t.find name).map f) k (some (f a)) := by
  rw [Table.find_set]
  exact Function.comp_update (Option.map f) t.find k (some a)

theorem find_map_erase {α : Type} (t : Table String α) (f : α → Entry) (k : String) :
    (fun name => ((t.erase k).find name).map f) =
      Function.update (fun name => (t.find name).map f) k none := by
  rw [Table.find_erase]
  exact Function.comp_update (Option.map f) t.find k none

variable {s s' : Stores} {kind : Kind}

/-- A write under an identifier of a kind, seen on all identifiers. -/
theorem Stores.contents_write
    {name : String} {e : Option Entry}
    (hkind : s'.contents kind = Function.update (s.contents kind) name e)
    (hother : ∀ kind', kind' ≠ kind → s'.contents kind' = s.contents kind') :
    Function.uncurry s'.contents = Function.update (Function.uncurry s.contents) (kind, name) e := by
  funext slot
  obtain ⟨kind', name'⟩ := slot
  by_cases hk : kind' = kind
  · subst hk
    by_cases hn : name' = name
    · subst hn
      simp [Function.uncurry, hkind]
    · have hslot : (kind', name') ≠ (kind', name) := fun h => hn (Prod.mk.inj h).2
      rw [Function.update_of_ne hslot, Function.uncurry, hkind, Function.update_of_ne hn]
      rfl
  · have hslot : (kind', name') ≠ (kind, name) := fun h => hk (Prod.mk.inj h).1
    rw [Function.update_of_ne hslot, Function.uncurry, hother kind' hk]
    rfl

end Separate

section Refinement

variable {ι : Type} [DecidableEq ι] {root : ι → String} {d : Database} {deployed : ι → Stores}
variable {dec : Decoder} {now : Int}

/-- The database holds what the separate stores of the deployments hold, under their keys. -/
def Represents (root : ι → String) (d : Database) (deployed : ι → Stores) : Prop :=
  ∀ i kind name, d.find (slotKey (root i) (kind, name)) = (deployed i).contents kind name

/-- No two deployments have a key in common. -/
def Apart (root : ι → String) : Prop :=
  ∀ i j, i ≠ j → root i ≠ root j ∧ ∀ kind, ¬ Continues kind (root i) (root j)

omit [DecidableEq ι] in
/-- Keys of different deployments or identifiers are different. -/
theorem Apart.slotKey_injective (h : Apart root) :
    Function.Injective fun place : ι × Slot => slotKey (root place.1) place.2 := by
  rintro ⟨i, slot⟩ ⟨j, slot'⟩ heq
  by_cases hij : i = j
  · subst hij
    exact congrArg _ (RedisStore.slotKey_injective _ heq)
  · rcases continues_of_slotKey_eq (h i j hij).1 heq with hcont | hcont
    · exact ((h i j hij).2 _ hcont).elim
    · exact ((h j i (Ne.symm hij)).2 _ hcont).elim

/-- The same write under a key and in the store of the key. -/
theorem Represents.write
    (hrep : Represents root d deployed) (hapart : Apart root)
    {i : ι} {kind : Kind} {name : String} {e : Option Entry} {d' : Database} {s' : Stores}
    (hd : d'.find = Function.update d.find (slotKey (root i) (kind, name)) e)
    (hs : Function.uncurry s'.contents =
      Function.update (Function.uncurry (deployed i).contents) (kind, name) e) :
    Represents root d' (Function.update deployed i s') := by
  intro j kind' name'
  rw [hd]
  by_cases hji : j = i
  · subst hji
    rw [Function.update_self]
    have hcontents : s'.contents kind' name' = _ := congrFun hs (kind', name')
    rw [hcontents]
    by_cases hslot : (kind', name') = (kind, name)
    · rw [hslot, Function.update_self, Function.update_self]
    · have hkey : slotKey (root j) (kind', name') ≠ slotKey (root j) (kind, name) :=
        (RedisStore.slotKey_injective _).ne hslot
      rw [Function.update_of_ne hkey, Function.update_of_ne hslot]
      exact hrep j kind' name'
  · have hplace : (j, (kind', name')) ≠ (i, (kind, name)) := fun h => hji (Prod.mk.inj h).1
    have hkey := hapart.slotKey_injective.ne hplace
    rw [Function.update_of_ne hji, Function.update_of_ne hkey]
    exact hrep j kind' name'

/-- A call that writes nothing. -/
theorem Represents.keep (hrep : Represents root d deployed) (i : ι) :
    Represents root d (Function.update deployed i (deployed i)) := by
  rwa [Function.update_eq_self]

/-- A call on the database and on the stores of deployment `i`: the answers are the same, and
the database holds what the stores hold then. -/
def After (root : ι → String) (deployed : ι → Stores) (i : ι) (flat : Database × Answer)
    (separate : Stores × Answer) : Prop :=
  flat.2 = separate.2 ∧ Represents root flat.1 (Function.update deployed i separate.1)

variable {i : ι}

section Places

variable (hrep : Represents root d deployed) (hapart : Apart root)
include hrep hapart

theorem Represents.sessions
    (next : Session.RedisState) {name : String} {e : Option Entry} {d' : Database}
    (hd : d'.find = Function.update d.find (slotKey (root i) (.session, name)) e)
    (hs : (fun n => (next.data.find n).map fun e => (⟨.session e.value, e.deadline⟩ : Entry)) =
      Function.update ((deployed i).contents .session) name e) :
    Represents root d' (Function.update deployed i
      { deployed i with stores := { (deployed i).stores with sessions := next } }) := by
  refine hrep.write hapart hd (Stores.contents_write hs ?_)
  intro kind hkind
  cases kind <;> first | rfl | contradiction

theorem Represents.tokens
    (next : Token.RedisState) {name : String} {e : Option Entry} {d' : Database}
    (hd : d'.find = Function.update d.find (slotKey (root i) (.token, name)) e)
    (hs : (fun n => (Table.find next n).map fun e => (⟨.token e.set, e.deadline⟩ : Entry)) =
      Function.update ((deployed i).contents .token) name e) :
    Represents root d' (Function.update deployed i
      { deployed i with stores := { (deployed i).stores with tokens := next } }) := by
  refine hrep.write hapart hd (Stores.contents_write hs ?_)
  intro kind hkind
  cases kind <;> first | rfl | contradiction

theorem Represents.flows
    (next : Flow.RedisState) {name : String} {e : Option Entry} {d' : Database}
    (hd : d'.find = Function.update d.find (slotKey (root i) (.flow, name)) e)
    (hs : (fun n => (next.data.find n).map fun e => (⟨.flow e.value, e.deadline⟩ : Entry)) =
      Function.update ((deployed i).contents .flow) name e) :
    Represents root d' (Function.update deployed i
      { deployed i with stores := { (deployed i).stores with flows := next } }) := by
  refine hrep.write hapart hd (Stores.contents_write hs ?_)
  intro kind hkind
  cases kind <;> first | rfl | contradiction

theorem Represents.cache
    (next : Table String CacheEntry) {name : String} {e : Option Entry} {d' : Database}
    (hd : d'.find = Function.update d.find (slotKey (root i) (.cache, name)) e)
    (hs : (fun n => (next.find n).map fun e => (⟨.cached e.data, e.expiresAt⟩ : Entry)) =
      Function.update ((deployed i).contents .cache) name e) :
    Represents root d' (Function.update deployed i
      { deployed i with cache := next }) := by
  refine hrep.write hapart hd (Stores.contents_write hs ?_)
  intro kind hkind
  cases kind <;> first | rfl | contradiction

theorem Represents.locks
    (next : Table String RedisLock) {name : String} {e : Option Entry} {d' : Database}
    (hd : d'.find = Function.update d.find (slotKey (root i) (.lock, name)) e)
    (hs : (fun n => (next.find n).map fun e => (⟨.lock e.owner, e.deadline⟩ : Entry)) =
      Function.update ((deployed i).contents .lock) name e) :
    Represents root d' (Function.update deployed i
      { deployed i with locks := next }) := by
  refine hrep.write hapart hd (Stores.contents_write hs ?_)
  intro kind hkind
  cases kind <;> first | rfl | contradiction

end Places

section Calls

variable (hrep : Represents root d deployed) (hapart : Apart root)
include hrep hapart

theorem Represents.sessionPut (v : Session) :
    After root deployed i (run dec (root i) d now (.store (.sessionPut v)))
      ((deployed i).run now (.store (.sessionPut v))) := by
  unfold After run Stores.run Backends.Backend.run Backends.redis Session.redisStore
  simp only [RedisStore.sessionPut, Session.RedisState.put]
  split_ifs
  · exact ⟨rfl, hrep.keep i⟩
  · exact ⟨rfl, hrep.keep i⟩
  · exact ⟨rfl, hrep.sessions hapart _ (Table.find_set _ _ _) (find_map_set _ _ _ _)⟩

theorem Represents.sessionGet (sid : String) :
    After root deployed i (run dec (root i) d now (.store (.sessionGet sid)))
      ((deployed i).run now (.store (.sessionGet sid))) := by
  have hfind : d.find (key (root i) ["session", sid]) = _ := hrep i .session sid
  unfold After run Stores.run Backends.Backend.run Backends.redis Session.redisStore
  simp only [RedisStore.sessionGet, Session.RedisState.get, hfind, Stores.contents]
  cases hentry : (deployed i).stores.sessions.data.find sid with
  | none =>
      exact ⟨rfl, hrep.keep i⟩
  | some e =>
      by_cases hlive : now < e.deadline
      · simp only [Option.map_some, Entry.live, Option.bind_some, hlive, if_true, dec.session_own,
          not_le.mpr hlive, if_false]
        split_ifs
        · exact ⟨rfl, hrep.sessions hapart _ (Table.find_erase _ _) (find_map_erase _ _ _)⟩
        · exact ⟨rfl, hrep.keep i⟩
      · simp only [Option.map_some, Entry.live, Option.bind_some, hlive, not_lt.mp hlive, if_true,
          if_false]
        exact ⟨trivial, hrep.keep i⟩

theorem Represents.sessionDelete (sid : String) :
    After root deployed i (run dec (root i) d now (.store (.sessionDelete sid)))
      ((deployed i).run now (.store (.sessionDelete sid))) :=
  ⟨rfl, hrep.sessions hapart (Session.RedisState.delete (deployed i).stores.sessions sid)
    (Table.find_erase _ _) (find_map_erase _ _ _)⟩

theorem Represents.tokenPut (sid : String) (x : TokenSet) (expiresAt : Int) :
    After root deployed i (run dec (root i) d now (.store (.tokenPut sid x expiresAt)))
      ((deployed i).run now (.store (.tokenPut sid x expiresAt))) := by
  unfold After run Stores.run Backends.Backend.run Backends.redis Token.redisStore
  simp only [RedisStore.tokenPut, Token.RedisState.put]
  split_ifs
  · exact ⟨rfl, hrep.keep i⟩
  · exact ⟨rfl, hrep.tokens hapart _ (Table.find_set _ _ _) (find_map_set _ _ _ _)⟩

theorem Represents.tokenDelete (sid : String) :
    After root deployed i (run dec (root i) d now (.store (.tokenDelete sid)))
      ((deployed i).run now (.store (.tokenDelete sid))) :=
  ⟨rfl, hrep.tokens hapart (Table.erase (deployed i).stores.tokens sid)
    (Table.find_erase _ _) (find_map_erase _ _ _)⟩

theorem Represents.flowPut (f : Flow) :
    After root deployed i (run dec (root i) d now (.store (.flowPut f)))
      ((deployed i).run now (.store (.flowPut f))) := by
  unfold After run Stores.run Backends.Backend.run Backends.redis Flow.redisStore
  simp only [RedisStore.flowPut, Flow.RedisState.put]
  split_ifs
  · exact ⟨rfl, hrep.keep i⟩
  · exact ⟨rfl, hrep.keep i⟩
  · exact ⟨rfl, hrep.flows hapart _ (Table.find_set _ _ _) (find_map_set _ _ _ _)⟩

theorem Represents.flowTake (state : String) :
    After root deployed i (run dec (root i) d now (.store (.flowTake state)))
      ((deployed i).run now (.store (.flowTake state))) := by
  have hfind : d.find (key (root i) ["auth", "flow", state]) = _ := hrep i .flow state
  refine ⟨?_, hrep.flows hapart (Flow.RedisState.consume (deployed i).stores.flows now state).1
    (Table.find_erase _ _) (find_map_erase _ _ _)⟩
  unfold run Stores.run Backends.Backend.run Backends.redis Flow.redisStore
  simp only [RedisStore.flowTake, Flow.Store.take, Flow.RedisState.consume, hfind, Stores.contents]
  cases hentry : (deployed i).stores.flows.data.find state with
  | none =>
      rfl
  | some e =>
      by_cases hlive : now < e.deadline <;>
        simp [Entry.live, hlive, dec.flow_own, Flow.check]

omit hapart in
theorem Represents.tokenGet (sid : String) :
    After root deployed i (run dec (root i) d now (.store (.tokenGet sid)))
      ((deployed i).run now (.store (.tokenGet sid))) := by
  have hfind : d.find (key (root i) ["token", sid]) = _ := hrep i .token sid
  refine ⟨?_, hrep.keep i⟩
  unfold run Stores.run Backends.Backend.run Backends.redis Token.redisStore
  simp only [RedisStore.tokenGet, Token.RedisState.value, hfind, Stores.contents]
  cases hentry : Table.find (deployed i).stores.tokens sid with
  | none =>
      rfl
  | some e =>
      by_cases hlive : now < e.deadline <;> simp [Entry.live, hlive, dec.token_own, found]

omit hapart in
theorem Represents.cacheGet (k : String) :
    After root deployed i (run dec (root i) d now (.cacheGet k))
      ((deployed i).run now (.cacheGet k)) := by
  have hfind : d.find (key (root i) ["cache", k]) = _ := hrep i .cache k
  refine ⟨?_, hrep.keep i⟩
  simp only [run, Stores.run, RedisStore.cacheGet, redisCache, hfind, Stores.contents]
  cases hentry : (deployed i).cache.find k with
  | none =>
      rfl
  | some e =>
      by_cases hlive : now < e.expiresAt
      · simp [Entry.live, hlive, not_le.mpr hlive, dec.cached_own, Except.map]
      · simp [Entry.live, hlive, not_lt.mp hlive]

theorem Represents.cacheSet (k : String) (b : Body) (ttl : Duration) (hpos : 0 < ttl) :
    After root deployed i (run dec (root i) d now (.cacheSet k b ttl hpos))
      ((deployed i).run now (.cacheSet k b ttl hpos)) :=
  ⟨rfl, hrep.cache hapart ((deployed i).cache.set k ⟨b, now + redisExpiry ttl⟩)
    (Table.find_set _ _ _) (find_map_set _ _ _ _)⟩

theorem Represents.cacheDelete (k : String) :
    After root deployed i (run dec (root i) d now (.cacheDelete k))
      ((deployed i).run now (.cacheDelete k)) :=
  ⟨rfl, hrep.cache hapart ((deployed i).cache.erase k) (Table.find_erase _ _)
    (find_map_erase _ _ _)⟩

theorem Represents.tryLock (k : String) (handle : Nat) (ttl : Duration) :
    After root deployed i (run dec (root i) d now (.tryLock k handle ttl))
      ((deployed i).run now (.tryLock k handle ttl)) := by
  have hfind : d.find (key (root i) ["lock", k]) = _ := hrep i .lock k
  unfold After
  simp only [run, Stores.run, RedisStore.tryLock, hfind, Stores.contents]
  cases hentry : (deployed i).locks.find k with
  | none =>
      have hexpire : expireLock (deployed i).locks now k = (deployed i).locks := by
        simp [expireLock, redisLocker, hentry]
      simp only [hexpire, redisLocker, Table.has, hentry, Option.map_none, Entry.live,
        Option.bind_none, Option.isSome_none, Bool.false_eq_true, if_false]
      exact ⟨trivial, hrep.locks hapart _ (Table.find_set _ _ _) (find_map_set _ _ _ _)⟩
  | some lock =>
      by_cases hlive : now < lock.deadline
      · have hexpire : expireLock (deployed i).locks now k = (deployed i).locks := by
          simp [expireLock, redisLocker, hentry, not_le.mpr hlive]
        simp only [hexpire, redisLocker, Table.has, hentry, Option.map_some, Entry.live,
          Option.bind_some, hlive, if_true, Option.isSome_some]
        exact ⟨trivial, hrep.keep i⟩
      · -- The lock that has ended is dropped, and the new one is written over it.
        have hexpire : expireLock (deployed i).locks now k = (deployed i).locks.erase k := by
          simp [expireLock, redisLocker, hentry, not_lt.mp hlive]
        simp only [hexpire, redisLocker, Table.has_erase_self, Option.map_some, Entry.live,
          Option.bind_some, hlive, Bool.false_eq_true, if_false]
        refine ⟨trivial, hrep.locks hapart _ (Table.find_set _ _ _) ?_⟩
        rw [find_map_set, find_map_erase, Function.update_idem]
        rfl

theorem Represents.unlock (k : String) (handle : Nat) :
    After root deployed i (run dec (root i) d now (.unlock k handle))
      ((deployed i).run now (.unlock k handle)) := by
  have hfind : d.find (key (root i) ["lock", k]) = _ := hrep i .lock k
  unfold After
  simp only [run, Stores.run, RedisStore.unlock, hfind, Stores.contents]
  cases hentry : (deployed i).locks.find k with
  | none =>
      simp only [redisLocker, hentry, Option.map_none, Entry.live, Option.bind_none]
      exact ⟨trivial, hrep.keep i⟩
  | some lock =>
      by_cases hlive : now < lock.deadline
      · simp only [redisLocker, hentry, Option.map_some, Entry.live, Option.bind_some, hlive,
          not_le.mpr hlive, if_true, if_false]
        split_ifs
        · exact ⟨trivial, hrep.locks hapart _ (Table.find_erase _ _) (find_map_erase _ _ _)⟩
        · exact ⟨trivial, hrep.keep i⟩
      · simp only [redisLocker, hentry, Option.map_some, Entry.live, Option.bind_some, hlive,
          not_lt.mp hlive, if_true, if_false]
        exact ⟨trivial, hrep.keep i⟩

/-- **One call** of a deployment on the shared database does what it does on separate stores. -/
theorem Represents.run (call : Call) :
    After root deployed i (RedisStore.run dec (root i) d now call) ((deployed i).run now call) := by
  cases call with
  | store call =>
      cases call with
      | sessionPut v => exact hrep.sessionPut hapart v
      | sessionGet sid => exact hrep.sessionGet hapart sid
      | sessionDelete sid => exact hrep.sessionDelete hapart sid
      | tokenPut sid x expiresAt => exact hrep.tokenPut hapart sid x expiresAt
      | tokenGet sid => exact hrep.tokenGet sid
      | tokenDelete sid => exact hrep.tokenDelete hapart sid
      | flowPut f => exact hrep.flowPut hapart f
      | flowTake state => exact hrep.flowTake hapart state
  | cacheGet k => exact hrep.cacheGet k
  | cacheSet k b ttl hpos => exact hrep.cacheSet hapart k b ttl hpos
  | cacheDelete k => exact hrep.cacheDelete hapart k
  | tryLock k handle ttl => exact hrep.tryLock hapart k handle ttl
  | unlock k handle => exact hrep.unlock hapart k handle

end Calls

end Refinement

section Results

variable {ι : Type} [DecidableEq ι]

/-- The answers to the calls of some deployments on a shared database, each at its time. -/
def runAll (dec : Decoder) (root : ι → String) : Database → List (ι × Int × Call) → List Answer
  | _, [] => []
  | d, (i, now, call) :: rest =>
      (run dec (root i) d now call).2 :: runAll dec root (run dec (root i) d now call).1 rest

/-- The answers to the calls when each deployment has stores of its own. -/
def runSeparately : (ι → Stores) → List (ι × Int × Call) → List Answer
  | _, [] => []
  | deployed, (i, now, call) :: rest =>
      ((deployed i).run now call).2 ::
        runSeparately (Function.update deployed i ((deployed i).run now call).1) rest

/-- **A run** on the shared database has the answers of separate stores. -/
theorem Represents.runAll
    {dec : Decoder} {root : ι → String} (hapart : Apart root)
    {d : Database} {deployed : ι → Stores} (hrep : Represents root d deployed)
    (calls : List (ι × Int × Call)) :
    RedisStore.runAll dec root d calls = runSeparately deployed calls := by
  induction calls generalizing d deployed with
  | nil =>
      rfl
  | cons head rest ih =>
      obtain ⟨i, now, call⟩ := head
      have hafter : After root deployed i (RedisStore.run dec (root i) d now call)
          ((deployed i).run now call) :=
        hrep.run hapart call
      obtain ⟨hanswer, hnext⟩ := hafter
      rw [RedisStore.runAll, runSeparately, hanswer, ih hnext]

/-- **Deployments on one database.**  If no prefix is another one or continues it by a kind,
deployments that share a database get, in every run, the answers of separate stores. -/
theorem shared_database_separate
    (dec : Decoder) (configured : ι → String)
    (hapart : Apart fun i => newPrefix (configured i))
    (calls : List (ι × Int × Call)) :
    runAll dec (fun i => newPrefix (configured i)) Table.empty calls =
      runSeparately (fun _ => Stores.empty) calls := by
  have hstart : Represents (fun i => newPrefix (configured i)) Table.empty
      fun _ => Stores.empty := by
    intro i kind name
    exact (Stores.contents_empty kind name).symm
  exact hstart.runAll hapart calls

/-- A decoder that refuses the texts of other stores. -/
def strictDecoder : Decoder where
  session
    | .session v => .ok v
    | _ => .error (.text "unexpected text")
  token
    | .token x => .ok x
    | _ => .error (.text "unexpected text")
  cached
    | .cached b => .ok b
    | _ => .error (.text "unexpected text")
  flow
    | .flow f => .ok f
    | _ => .error (.text "unexpected text")
  session_own _ := rfl
  token_own _ := rfl
  cached_own _ := rfl
  flow_own _ := rfl

/-- The prefixes of two deployments, one of which begins with the other. -/
def twoPrefixes (second : Bool) : String :=
  if second then "rebff:eu" else ""

/-- One deployment takes a lock that the other one holds for itself. -/
def twoDeployments : List (Bool × Int × Call) :=
  [(false, 1, .tryLock "refresh:s1" 0 Duration.second),
    (true, 2, .tryLock "refresh:s1" 1 Duration.second),
    (false, 3, .tryLock "refresh:s1" 2 Duration.second),
    (true, 4, .unlock "refresh:s1" 1),
    (true, 5, .tryLock "refresh:s1" 3 Duration.second)]

/-- The second deployment is not kept waiting by the lock of the first. -/
theorem shared_database_separate_two :
    (runAll strictDecoder (fun i => newPrefix (twoPrefixes i)) Table.empty twoDeployments).map
        (fun | .locked ok => some ok | _ => none) =
        [some true, some true, some false, none, some true] ∧
      runAll strictDecoder (fun i => newPrefix (twoPrefixes i)) Table.empty twoDeployments =
        runSeparately (fun _ => Stores.empty) twoDeployments :=
  ⟨by decide +kernel,
    shared_database_separate strictDecoder twoPrefixes
      (by
        intro i j hij
        refine ⟨?_, fun kind => ?_⟩
        · revert i j
          decide +kernel
        · revert kind
          cases i <;> cases j <;> first | contradiction | (intro kind; cases kind <;> decide +kernel))
      twoDeployments⟩

/-- What a `Put` of a session that succeeds writes. -/
theorem sessionPut_ok
    {root : String} {d d' : Database} {now : Int} {v : Session}
    (h : sessionPut root d now v = (d', .ok ())) :
    now < v.expiresAt ∧
      d' = d.set (key root ["session", v.id])
        (.lasting now (.session v) (GoTime.sub v.expiresAt now)) := by
  unfold sessionPut at h
  simp only at h
  split_ifs at h with hyear httl
  · cases (Prod.mk.inj h).2
  · cases (Prod.mk.inj h).2
  · refine ⟨?_, (Prod.mk.inj h).1.symm⟩
    have hpos := Int64.lt_iff_toInt_lt.mp (Int64.not_le.mp httl)
    rw [GoTime.toInt_sub, Int64.toInt_zero] at hpos
    omega

/-- A session under the key that another prefix gives it. -/
theorem sessionGet_of_put
    {root other : String} {dec : Decoder} {d d' : Database} {now : Int} {v : Session} {sid : String}
    (hkey : slotKey other (.session, v.id) = slotKey root (.session, sid))
    (h : sessionPut other d now v = (d', .ok ())) :
    (sessionGet dec root d' now sid).2 = .ok v := by
  obtain ⟨hlater, rfl⟩ := sessionPut_ok h
  have hfind : (d.set (key other ["session", v.id])
      (.lasting now (.session v) (GoTime.sub v.expiresAt now))).find (key root ["session", sid]) =
        some (.lasting now (.session v) (GoTime.sub v.expiresAt now)) := by
    rw [show key root ["session", sid] = key other ["session", v.id] from hkey.symm]
    exact Table.find_set_self _ _ _
  have hlive : Entry.live now (some (.lasting now (.session v) (GoTime.sub v.expiresAt now))) =
      some (.session v) :=
    if_pos (lt_add_of_pos_right now (redisExpiry_pos _))
  simp [sessionGet, hfind, hlive, dec.session_own, not_le.mpr hlater]

/-- **Shared keys.**  Different prefixes have a key in common if and only if one continues the
other by a kind.  Then every key of the longer prefix is a key of the shorter one, and if the
kind is that of the sessions, the shorter deployment finds the sessions of the longer one. -/
theorem prefixes_share_keys_iff
    (root other : String) (hne : root ≠ other) :
    ((∃ slot slot', slotKey root slot = slotKey other slot') ↔
        ∃ kind, Continues kind root other ∨ Continues kind other root) ∧
      (∀ kind, Continues kind root other → ∀ slot, ∃ name,
        slotKey other slot = slotKey root (kind, name)) ∧
      (Continues .session root other → ∃ front : String, ∀ dec d d' now v,
        sessionPut other d now v = (d', .ok ()) →
          (sessionGet dec root d' now (front ++ "session:" ++ v.id)).2 = .ok v) := by
  refine ⟨⟨?_, ?_⟩, ?_, ?_⟩
  · rintro ⟨slot, slot', h⟩
    rcases continues_of_slotKey_eq hne h with hcont | hcont
    · exact ⟨_, Or.inl hcont⟩
    · exact ⟨_, Or.inr hcont⟩
  · rintro ⟨kind, hcont | hcont⟩
    · obtain ⟨front, hfront⟩ := hcont.slotKey
      exact ⟨_, (.session, ""), (hfront _).symm⟩
    · obtain ⟨front, hfront⟩ := hcont.slotKey
      exact ⟨(.session, ""), _, hfront _⟩
  · intro kind hcont slot
    obtain ⟨front, hfront⟩ := hcont.slotKey
    exact ⟨_, hfront slot⟩
  · intro hcont
    obtain ⟨front, hfront⟩ := hcont.slotKey
    refine ⟨front, fun dec d d' now v hput => sessionGet_of_put ?_ hput⟩
    exact hfront (.session, v.id)

/-- The prefix of one deployment is that of another with a kind after it. -/
theorem prefixes_share_keys_iff_nested :
    Continues .session (newPrefix "") (newPrefix "rebff:session:") ∧
      ∃ front : String, ∀ dec d d' now v,
        sessionPut (newPrefix "rebff:session:") d now v = (d', .ok ()) →
          (sessionGet dec (newPrefix "") d' now (front ++ "session:" ++ v.id)).2 = .ok v :=
  have hcont : Continues .session (newPrefix "") (newPrefix "rebff:session:") := by
    decide +kernel
  ⟨hcont, (prefixes_share_keys_iff _ _ (by decide +kernel)).2.2 hcont⟩

end Results

end RedisStore
end GatewayRuntime
