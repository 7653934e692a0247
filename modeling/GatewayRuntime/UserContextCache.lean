import GatewayRuntime.Lib.Run
import GatewayRuntime.SessionLifecycle
import GatewayRuntime.UserContext

/-!
# The cache of user contexts is transparent

A context is cached under the identifier of its session for a minute, and survives the
session when a logout fails to delete it, or when the session expires.  Neither shows:
`Handler.me` looks the session up first, and the identity of a session does not change, so
that what the cache holds for it is what the session resolver would answer.

`Linked` is the invariant: for every identifier, the session that the store holds and the
body that the cache holds are those of the login that the identifier was made for.  It is
kept by each call that a request makes, and so by every run of logins, requests, logouts
and ticks, with any failures of the cache (`user_context_transparent`).
-/

namespace GatewayRuntime
namespace UserContext

open Session

section Caches

/-- A cache of bodies: the operations, the bodies that it holds, and what the operations do to
them.  An entry may go at any time, and comes only by a `Set`. -/
structure Cache where
  State : Type
  get : State → (now : Int) → String → State × Except Err (Option Body)
  set : State → (now : Int) → String → Body → Duration → State × Except Err Unit
  delete : State → String → State
  holds : State → String → Body → Prop
  holds_of_get_ok :
    ∀ {s now k b}, (get s now k).2 = .ok (some b) → holds s k b
  holds_of_get :
    ∀ {s now k k' b}, holds (get s now k).1 k' b → holds s k' b
  holds_of_set :
    ∀ {s now k k' b b' ttl}, holds (set s now k b ttl).1 k' b' → (k' = k ∧ b' = b) ∨ holds s k' b'
  holds_of_delete :
    ∀ {s k k' b}, holds (delete s k) k' b → holds s k' b

/-- A body with the instant at which it expires. -/
structure CacheEntry where
  data : Body
  expiresAt : Int

/-- The entries hold a body under a key, whether or not it has expired. -/
def EntryHolds (data : Table String CacheEntry) (key : String) (b : Body) : Prop :=
  ∃ entry, data.find key = some entry ∧ entry.data = b

theorem EntryHolds.of_erase
    {data : Table String CacheEntry} {k k' : String} {b : Body}
    (h : EntryHolds (data.erase k) k' b) : EntryHolds data k' b := by
  obtain ⟨entry, hfind, hdata⟩ := h
  exact ⟨entry, (Table.find_erase_cases hfind).2, hdata⟩

theorem EntryHolds.of_set
    {data : Table String CacheEntry} {k k' : String} {b : Body} {entry : CacheEntry}
    (h : EntryHolds (data.set k entry) k' b) :
    (k' = k ∧ b = entry.data) ∨ EntryHolds data k' b := by
  obtain ⟨entry', hfind, hdata⟩ := h
  rcases Table.find_set_cases hfind with ⟨rfl, rfl⟩ | ⟨-, hold⟩
  · exact Or.inl ⟨rfl, hdata.symm⟩
  · exact Or.inr ⟨entry', hold, hdata⟩

/-- `Memory.Get`, without the decoding. -/
def memoryGet (data : Table String CacheEntry) (now : Int) (key : String) :
    Table String CacheEntry × Except Err (Option Body) :=
  match data.find key with
  | none => (data, .ok none)
  | some entry =>
      if !GoTime.isZero entry.expiresAt && !GoTime.after entry.expiresAt now then
        (data.erase key, .ok none)
      else (data, .ok (some entry.data))

/-- `cache.Memory`. -/
def memoryCache : Cache where
  State := Table String CacheEntry
  get := memoryGet
  set data now key b ttl := (data.set key ⟨b, GoTime.add now ttl⟩, .ok ())
  delete data key := data.erase key
  holds := EntryHolds
  holds_of_get_ok {s now k b} h := by
    unfold memoryGet at h
    cases hfind : s.find k with
    | none =>
        rw [hfind] at h
        cases h
    | some entry =>
        rw [hfind] at h
        simp only at h
        split at h
        · cases h
        · cases h
          exact ⟨entry, hfind, rfl⟩
  holds_of_get {s now k k' b} h := by
    unfold memoryGet at h
    split at h
    · exact h
    · split at h
      · exact h.of_erase
      · exact h
  holds_of_set := EntryHolds.of_set
  holds_of_delete := EntryHolds.of_erase

/-- `redisstore.Cache`, on its keys: a body has a time to live. -/
def redisCache : Cache where
  State := Table String CacheEntry
  get data now key :=
    (data, .ok ((data.find key).bind fun entry =>
      if entry.expiresAt ≤ now then none else some entry.data))
  set data now key b ttl := (data.set key ⟨b, now + redisExpiry ttl⟩, .ok ())
  delete data key := data.erase key
  holds := EntryHolds
  holds_of_get_ok h := by
    obtain ⟨entry, hfind, hentry⟩ := Option.bind_eq_some_iff.mp (Except.ok.inj h)
    split at hentry
    · cases hentry
    · exact ⟨entry, hfind, Option.some.inj hentry⟩
  holds_of_get h := h
  holds_of_set := EntryHolds.of_set
  holds_of_delete := EntryHolds.of_erase

/-- What happens to a call of the cache on its way. -/
inductive Fate where
  | answered
  | lostRequest (e : Err)
  | lostReply (e : Err)

/-- A call with a fate, on a state. -/
def Fate.apply {σ α : Type} (fate : Fate) (w : σ) (call : σ × Except Err α) : σ × Except Err α :=
  match fate with
  | .answered => call
  | .lostRequest e => (w, .error e)
  | .lostReply e => (call.1, .error e)

end Caches

section System

variable (next : ValueStore) (cache : Cache)

/-- The two stores, the clock, and the session that each identifier was issued for. -/
structure World where
  sessions : next.State
  cached : cache.State
  clock : Int
  issued : Table String Session

/-- The settings of the program. -/
structure Settings where
  lifecycle : Lifecycle
  policy : Policy.Static
  ttl : Duration
  cookieName : String

variable {next cache} (cfg : Settings)

/-- `Sessions.Get` on the world. -/
def getSession (w : World next cache) (sid : String) : World next cache × Except Err Session :=
  let got := cfg.lifecycle.get next.toStore w.sessions w.clock sid
  ({ w with sessions := got.1 }, got.2)

/-- `Cache.Get` on the world, with the decoding. -/
def getCached (w : World next cache) (key : String) :
    World next cache × Except Err (Option Context) :=
  let found := cache.get w.cached w.clock key
  ({ w with cached := found.1 }, found.2.map fun b => b.map decode)

/-- `Cache.Set` on the world. -/
def setCached (w : World next cache) (key : String) (c : Context) (ttl : Duration) :
    World next cache × Except Err Unit :=
  let set := cache.set w.cached w.clock key (encode c) ttl
  ({ w with cached := set.1 }, set.2)

/-- The backends of a request whose calls of the cache have given fates. -/
def backends (get set : Fate) : Backends (World next cache) where
  sessionGet := getSession cfg
  policy := some fun w subject => (w, .ok (cfg.policy.evaluate subject))
  cache := some
    { get := fun w key => get.apply w (getCached w key)
      set := fun w key c ttl => set.apply w (setCached w key c ttl) }
  ttl := cfg.ttl

/-- The handler that `RunWith` makes. -/
def handler (get set : Fate) : Handler (World next cache) :=
  ⟨backends cfg get set, true, cfg.cookieName⟩

/-- How `Service.Logout` ends: before it deletes the session, after it, or without an error. -/
inductive LogoutEnd where
  | early
  | late
  | success (delete : Fate)

inductive Event where
  | login (v : Session) (complete : Bool)
  | me (r : Core.Request) (get set : Fate)
  | logout (r : Core.Request) (ending : LogoutEnd)
  | evict (key : String)
  | tick (t : Int)

/-- `Sessions.Put` of a login; when the tokens cannot be stored, the session is deleted. -/
def login (w : World next cache) (v : Session) (complete : Bool) : World next cache :=
  let sessions := (cfg.lifecycle.put next.toStore w.sessions w.clock v).1
  { w with
    sessions := if complete then sessions else next.delete sessions v.id
    issued := w.issued.set v.id v }

/-- `Cache.Delete` of a logout. -/
def deleteCached (w : World next cache) (sid : String) : Fate → World next cache
  | .lostRequest _ => w
  | _ => { w with cached := cache.delete w.cached (cacheKey sid) }

/-- `Handler.logout` for the session of the cookie, which it looks up first. -/
def logoutFor (w : World next cache) (sid : String) (ending : LogoutEnd) : World next cache :=
  let w₁ := (getSession cfg w sid).1
  if sid = "" then w₁
  else
    match ending with
    | .early => w₁
    | .late => { w₁ with sessions := next.delete w₁.sessions sid }
    | .success delete => deleteCached { w₁ with sessions := next.delete w₁.sessions sid } sid delete

/-- One event.  A login gets a new identifier, and the clock does not run backwards. -/
def step (w : World next cache) : Event → Option (World next cache)
  | .login v complete => if w.issued.has v.id then none else some (login cfg w v complete)
  | .me r get set => some ((handler cfg get set).me w r).state
  | .logout r ending =>
      match r.cookie (cookieNameOr cfg.cookieName) with
      | none => some w
      | some sid => some (logoutFor cfg w sid ending)
  | .evict key => some { w with cached := cache.delete w.cached key }
  | .tick t => if t < w.clock then none else some { w with clock := t }

end System

section Invariant

variable {next : ValueStore} {cache : Cache} {cfg : Settings} {w : World next cache}

/-- The context of a session under a policy. -/
def contextFor (p : Policy.Static) (v : Session) : Context :=
  contextOf v (some (p.evaluate (subjectOf v)))

/-- What the two stores hold under an identifier is what the login gave it. -/
structure Linked (cfg : Settings) (w : World next cache) : Prop where
  stored : ∀ sid v, next.holds w.sessions sid v →
    ∃ u, w.issued.find sid = some u ∧ contextFor cfg.policy v = contextFor cfg.policy u
  cached : ∀ sid b, cache.holds w.cached (cacheKey sid) b →
    ∃ u, w.issued.find sid = some u ∧ b = encode (contextFor cfg.policy u)

/-- A state that a call has led to: the link is kept, and no identifier is issued. -/
structure Kept (cfg : Settings) (w w' : World next cache) : Prop where
  linked : Linked cfg w'
  issued : w'.issued = w.issued

theorem Kept.trans
    {w₁ w₂ : World next cache} (h : Kept cfg w w₁) (h' : Kept cfg w₁ w₂) : Kept cfg w w₂ :=
  ⟨h'.linked, h'.issued.trans h.issued⟩

theorem cacheKey_inj
    {sid sid' : String} (h : cacheKey sid' = cacheKey sid) : sid' = sid := by
  have hlist := congrArg String.toList h
  simp only [cacheKey, String.toList_append] at hlist
  exact String.toList_inj.mp (List.append_cancel_left hlist)

/-- What a store holds after a `Get` was held before, up to `LastSeen`. -/
theorem held_of_get
    {s : next.State} {now : Int} {sid sid' : String} {v : Session} {lifecycle : Lifecycle}
    (h : next.holds (lifecycle.get next.toStore s now sid).1 sid' v) :
    ∃ u, next.holds s sid' u ∧ v = { u with lastSeen := v.lastSeen } := by
  rcases Lifecycle.get_cases lifecycle next.toStore s now sid with
    ⟨e, -, hget⟩ | ⟨u, hu, ⟨-, hget⟩ | ⟨u', hcheck, hget⟩ | ⟨-, hget⟩⟩
  · rw [hget] at h
    exact ⟨v, next.holds_of_get h, rfl⟩
  · rw [hget] at h
    exact ⟨v, next.holds_of_get (next.holds_of_delete h).2, rfl⟩
  · rw [hget] at h
    obtain ⟨rfl, -⟩ := Lifecycle.check_touch hcheck
    cases hput : (next.put (next.get s now sid).1 now { u with lastSeen := now }).2 with
    | error e =>
        exact ⟨v, next.holds_of_get (next.holds_of_put_error hput h), rfl⟩
    | ok _ =>
        rcases next.holds_of_put_ok hput h with ⟨hsid, rfl⟩ | ⟨-, hold⟩
        · have hid : u.id = sid := next.get_ok_id hu
          have hsame : sid' = sid := hsid.trans hid
          exact ⟨u, hsame ▸ next.holds_of_get_ok hu, rfl⟩
        · exact ⟨v, next.holds_of_get hold, rfl⟩
  · rw [hget] at h
    exact ⟨v, next.holds_of_get h, rfl⟩

theorem Linked.getSession (h : Linked cfg w) (sid : String) :
    Kept cfg w (getSession cfg w sid).1 := by
  refine ⟨⟨?_, h.cached⟩, rfl⟩
  intro sid' v hv
  obtain ⟨u, hu, hv'⟩ := held_of_get hv
  obtain ⟨issued, hissued, hcontext⟩ := h.stored sid' u hu
  refine ⟨issued, hissued, ?_⟩
  rw [hv', ← hcontext]
  rfl

/-- A session that is found has the context of the login. -/
theorem Linked.context_of_getSession
    (h : Linked cfg w) {sid : String} {v : Session}
    (hget : (UserContext.getSession cfg w sid).2 = .ok v) :
    ∃ u, w.issued.find sid = some u ∧ contextFor cfg.policy v = contextFor cfg.policy u := by
  obtain ⟨u, hu, hv, -, -⟩ := Lifecycle.get_ok hget
  obtain ⟨issued, hissued, hcontext⟩ := h.stored sid u (next.holds_of_get_ok hu)
  refine ⟨issued, hissued, ?_⟩
  rw [hv, ← hcontext]
  rfl

theorem Linked.getCached (h : Linked cfg w) (key : String) :
    Kept cfg w (getCached w key).1 :=
  ⟨⟨h.stored, fun sid b hb => h.cached sid b (cache.holds_of_get hb)⟩, rfl⟩

/-- A context that is found in the cache is written as that of the login. -/
theorem Linked.context_of_getCached
    (h : Linked cfg w) {sid : String} {c : Context}
    (hget : (UserContext.getCached w (cacheKey sid)).2 = .ok (some c)) :
    ∃ u, w.issued.find sid = some u ∧ encode c = encode (contextFor cfg.policy u) := by
  unfold UserContext.getCached at hget
  cases hfound : (cache.get w.cached w.clock (cacheKey sid)).2 with
  | error e =>
      simp [hfound, Except.map] at hget
  | ok found =>
      simp only [hfound, Except.map, Except.ok.injEq, Option.map_eq_some_iff] at hget
      obtain ⟨b, rfl, rfl⟩ := hget
      obtain ⟨u, hu, rfl⟩ := h.cached sid b (cache.holds_of_get_ok hfound)
      exact ⟨u, hu, encode_decode_encode _⟩

theorem Linked.setCached
    (h : Linked cfg w) {sid : String} {u : Session} (hu : w.issued.find sid = some u)
    (ttl : Duration) :
    Kept cfg w (setCached w (cacheKey sid) (contextFor cfg.policy u) ttl).1 := by
  refine ⟨⟨h.stored, ?_⟩, rfl⟩
  intro sid' b hb
  rcases cache.holds_of_set hb with ⟨hkey, rfl⟩ | hold
  · rw [cacheKey_inj hkey]
    exact ⟨u, hu, rfl⟩
  · exact h.cached sid' b hold

/-- Whatever happens to a call on its way, it has its effect or none. -/
theorem Fate.kept
    {α : Type} {call : World next cache × Except Err α} (fate : Fate)
    (h : Linked cfg w) (hcall : Kept cfg w call.1) :
    Kept cfg w (fate.apply w call).1 := by
  cases fate with
  | answered =>
      exact hcall
  | lostRequest e =>
      exact ⟨h, rfl⟩
  | lostReply e =>
      exact hcall

theorem Fate.eq_of_ok
    {σ α : Type} {w : σ} {call : σ × Except Err α} {fate : Fate} {a : α}
    (h : (fate.apply w call).2 = .ok a) :
    call.2 = .ok a := by
  cases fate with
  | answered =>
      exact h
  | lostRequest e =>
      cases h
  | lostReply e =>
      cases h

end Invariant

section Requests

variable {next : ValueStore} {cache : Cache} {cfg : Settings} {w : World next cache}

/-- The session resolver answers with the context of the session it finds. -/
theorem sessionResolve_backends
    (cfg : Settings) (get set : Fate) (w : World next cache) (sid : String) :
    (sessionResolve (backends cfg get set) w sid).state = (getSession cfg w sid).1 ∧
      (sessionResolve (backends cfg get set) w sid).answer =
        (getSession cfg w sid).2.map (contextFor cfg.policy) := by
  rcases sessionResolve_cases (backends cfg get set) w sid with
    ⟨e, hget, hresolve⟩ | ⟨s, hget, ⟨hpolicy, -⟩ | ⟨evaluate, decided, hpolicy, hdecided, hresolve⟩⟩
  · have hget' : (getSession cfg w sid).2 = .error e := hget
    rw [hresolve, hget']
    exact ⟨rfl, rfl⟩
  · cases hpolicy
  · have hget' : (getSession cfg w sid).2 = .ok s := hget
    rw [hresolve, hget']
    cases hpolicy
    cases hdecided
    exact ⟨rfl, rfl⟩

/-- Without the cache the context is that of the login, and it is put into the cache. -/
theorem Linked.resolveAndCache
    (h : Linked cfg w) (get set : Fate) (sid : String) (calls : CacheCalls (World next cache))
    (hcalls : (backends cfg get set).cache = some calls) :
    Kept cfg w (resolveAndCache (backends cfg get set) w sid calls).state ∧
      ∀ c, (resolveAndCache (backends cfg get set) w sid calls).answer = .ok c →
        ∃ u, w.issued.find sid = some u ∧ encode c = encode (contextFor cfg.policy u) := by
  obtain ⟨hstate, hanswer⟩ := sessionResolve_backends cfg get set w sid
  have hkept := h.getSession sid
  cases hcalls
  unfold UserContext.resolveAndCache
  cases hget : (UserContext.getSession cfg w sid).2 with
  | error e =>
      rw [hget] at hanswer
      simp only [hanswer, Except.map, hstate]
      exact ⟨hkept, fun c hc => by cases hc⟩
  | ok v =>
      rw [hget] at hanswer
      obtain ⟨u, hu, hcontext⟩ := h.context_of_getSession hget
      simp only [hanswer, Except.map, hstate, hcontext]
      refine ⟨hkept.trans (set.kept hkept.linked (hkept.linked.setCached hu _)), ?_⟩
      intro c hc
      cases hc
      exact ⟨u, hu, rfl⟩

/-- With the cache the context is written as that of the login. -/
theorem Linked.cachedResolve (h : Linked cfg w) (get set : Fate) (sid : String) :
    Kept cfg w (cachedResolve (backends cfg get set) w sid).state ∧
      ∀ c, (cachedResolve (backends cfg get set) w sid).answer = .ok c →
        ∃ u, w.issued.find sid = some u ∧ encode c = encode (contextFor cfg.policy u) := by
  have hfound := get.kept h (h.getCached (cacheKey sid))
  obtain ⟨hkept, hanswer⟩ := hfound.linked.resolveAndCache get set sid _ rfl
  rw [hfound.issued] at hanswer
  rw [UserContext.cachedResolve, show (backends cfg get set).cache = some _ from rfl]
  rcases hget : (get.apply w (UserContext.getCached w (cacheKey sid))).2 with e | _ | c
  · simp only [hget]
    exact ⟨hfound.trans hkept, hanswer⟩
  · simp only [hget]
    exact ⟨hfound.trans hkept, hanswer⟩
  · simp only [hget]
    refine ⟨hfound, ?_⟩
    intro c' hc'
    cases hc'
    exact h.context_of_getCached (Fate.eq_of_ok hget)

/-- A request keeps the link, and an answer with a context is that of the session found at its
start. -/
theorem Linked.meFor (h : Linked cfg w) (get set : Fate) (sid : String) :
    Kept cfg w (meFor (backends cfg get set) w sid).state ∧
      ∀ body, (meFor (backends cfg get set) w sid).answer = .context body →
        ∃ v, (UserContext.getSession cfg w sid).2 = .ok v ∧
          body = encode (contextFor cfg.policy v) := by
  have hfirst := h.getSession sid
  rcases meFor_cases (backends cfg get set) w sid with
    ⟨e, -, hme⟩ | ⟨v, resolved, hget, hresolved, hme⟩
  · rw [hme]
    refine ⟨hfirst, ?_⟩
    intro body hbody
    simp only at hbody
    split at hbody <;> cases hbody
  · obtain ⟨hkept, hanswer⟩ := hfirst.linked.cachedResolve get set sid
    rw [hfirst.issued] at hanswer
    have hresolved' : UserContext.cachedResolve (backends cfg get set)
        (UserContext.getSession cfg w sid).1 sid = resolved := hresolved
    rw [hresolved'] at hkept hanswer
    rw [hme]
    refine ⟨hfirst.trans hkept, ?_⟩
    intro body hbody
    cases hc : resolved.answer with
    | error e =>
        simp [hc, answerOf] at hbody
    | ok c =>
        simp only [hc, answerOf, Answer.context.injEq] at hbody
        obtain ⟨u, hu, hcontext⟩ := hanswer c hc
        obtain ⟨u', hu', hsession⟩ := h.context_of_getSession hget
        obtain rfl : u = u' := Option.some.inj (hu.symm.trans hu')
        exact ⟨v, hget, by rw [← hbody, hcontext, hsession]⟩

theorem Linked.me (h : Linked cfg w) (get set : Fate) (r : Core.Request) :
    Kept cfg w ((handler cfg get set).me w r).state := by
  unfold Handler.me
  cases r.cookie (handler cfg get set).sessionCookie with
  | none =>
      exact ⟨h, rfl⟩
  | some sid =>
      exact (h.meFor get set sid).1

end Requests

section Runs

variable {next : ValueStore} {cache : Cache} {cfg : Settings} {w : World next cache}

/-- A login under a new identifier. -/
theorem Linked.login
    (h : Linked cfg w) {v : Session} (hnew : w.issued.has v.id = false) (complete : Bool) :
    Linked cfg (login cfg w v complete) := by
  have hold : ∀ sid u, w.issued.find sid = some u → (w.issued.set v.id v).find sid = some u := by
    intro sid u hu
    rw [Table.find_set_of_ne]
    · exact hu
    · rintro rfl
      rw [Table.has_of_find hu] at hnew
      cases hnew
  have hput : ∀ sid u,
      next.holds (cfg.lifecycle.put next.toStore w.sessions w.clock v).1 sid u →
        ∃ u', (w.issued.set v.id v).find sid = some u' ∧
          contextFor cfg.policy u = contextFor cfg.policy u' := by
    intro sid u hu
    have hbefore : next.holds w.sessions sid u →
        ∃ u', (w.issued.set v.id v).find sid = some u' ∧
          contextFor cfg.policy u = contextFor cfg.policy u' := by
      intro hu
      obtain ⟨u', hu', hcontext⟩ := h.stored sid u hu
      exact ⟨u', hold sid u' hu', hcontext⟩
    cases hanswer : (cfg.lifecycle.put next.toStore w.sessions w.clock v).2 with
    | error e =>
        exact hbefore (next.holds_of_put_error hanswer hu)
    | ok _ =>
        rcases next.holds_of_put_ok hanswer hu with ⟨rfl, rfl⟩ | ⟨-, hu⟩
        · exact ⟨v, Table.find_set_self _ _ _, rfl⟩
        · exact hbefore hu
  refine ⟨?_, ?_⟩
  · intro sid u hu
    unfold UserContext.login at hu
    cases complete with
    | false =>
        exact hput sid u (next.holds_of_delete hu).2
    | true =>
        exact hput sid u hu
  · intro sid b hb
    obtain ⟨u, hu, hbody⟩ := h.cached sid b hb
    exact ⟨u, hold sid u hu, hbody⟩

theorem Linked.delete (h : Linked cfg w) (sid : String) :
    Linked cfg { w with sessions := next.delete w.sessions sid } :=
  ⟨fun sid' v hv => h.stored sid' v (next.holds_of_delete hv).2, h.cached⟩

theorem Linked.evict (h : Linked cfg w) (key : String) :
    Linked cfg { w with cached := cache.delete w.cached key } :=
  ⟨h.stored, fun sid b hb => h.cached sid b (cache.holds_of_delete hb)⟩

theorem Linked.logoutFor (h : Linked cfg w) (sid : String) (ending : LogoutEnd) :
    Linked cfg (logoutFor cfg w sid ending) := by
  have hfirst := (h.getSession sid).linked
  unfold UserContext.logoutFor
  simp only
  split
  · exact hfirst
  · cases ending with
    | early =>
        exact hfirst
    | late =>
        exact hfirst.delete sid
    | success delete =>
        cases delete with
        | answered =>
            exact (hfirst.delete sid).evict (cacheKey sid)
        | lostRequest e =>
            exact hfirst.delete sid
        | lostReply e =>
            exact (hfirst.delete sid).evict (cacheKey sid)

/-- Every event keeps the link. -/
theorem Linked.step
    {w' : World next cache} {e : Event} (h : Linked cfg w) (hstep : step cfg w e = some w') :
    Linked cfg w' := by
  cases e with
  | login v complete =>
      simp only [UserContext.step] at hstep
      split at hstep
      · cases hstep
      · rename_i hnew
        cases hstep
        exact h.login (by simpa using hnew) complete
  | me r get set =>
      cases hstep
      exact (h.me get set r).linked
  | logout r ending =>
      simp only [UserContext.step] at hstep
      split at hstep
      · cases hstep
        exact h
      · cases hstep
        exact h.logoutFor _ ending
  | evict key =>
      cases hstep
      exact h.evict key
  | tick t =>
      simp only [UserContext.step] at hstep
      split at hstep
      · cases hstep
      · cases hstep
        exact ⟨h.stored, h.cached⟩

/-- Nothing is stored and no identifier is issued. -/
structure Empty (w : World next cache) : Prop where
  sessions : ∀ sid v, ¬next.holds w.sessions sid v
  cached : ∀ key b, ¬cache.holds w.cached key b
  issued : w.issued = Table.empty

theorem Empty.linked (h : Empty w) : Linked cfg w :=
  ⟨fun sid v hv => absurd hv (h.sessions sid v), fun _ b hb => absurd hb (h.cached _ b)⟩

/-- **The cache of user contexts is transparent.**  After any run, a request that is answered
with a context finds its session in the session store at its start, and the answer is what
the session resolver gives there. -/
theorem user_context_transparent
    (cfg : Settings) (start : World next cache) (hstart : Empty start)
    (es : List Event) (w : World next cache) (hrun : Run.exec (step cfg) start es = some w)
    (r : Core.Request) (get set : Fate) (body : Body)
    (hanswer : ((handler cfg get set).me w r).answer = .context body) :
    ∃ sid c, r.cookie (cookieNameOr cfg.cookieName) = some sid ∧
      (getSession cfg w sid).2.isOk = true ∧
      (sessionResolve (backends cfg get set) w sid).answer = .ok c ∧
      body = encode c := by
  have hlinked : Linked cfg w :=
    Run.exec_invariant (I := Linked cfg) (fun _ _ _ h hstep => h.step hstep) hstart.linked hrun
  unfold Handler.me at hanswer
  cases hcookie : r.cookie (handler cfg get set : Handler (World next cache)).sessionCookie with
  | none =>
      rw [hcookie] at hanswer
      cases hanswer
  | some sid =>
      rw [hcookie] at hanswer
      obtain ⟨v, hget, hbody⟩ := (hlinked.meFor get set sid).2 body hanswer
      refine ⟨sid, contextFor cfg.policy v, hcookie, by rw [hget]; rfl, ?_, hbody⟩
      rw [(sessionResolve_backends cfg get set w sid).2, hget]
      rfl

/-- Viewers may read assets, contexts are cached for a minute. -/
def viewerSettings : Settings where
  lifecycle := exampleLifecycle
  policy := ⟨fun role => if role = "viewer" then some ["asset.read"] else none, Table.empty⟩
  ttl := 60000000000
  cookieName := ""

/-- The two stores in memory, with nothing in them. -/
def memoryStart : World memoryValues memoryCache :=
  ⟨MemoryState.empty, Table.empty, 1, Table.empty⟩

theorem memoryStart_empty : Empty memoryStart where
  sessions _ _ h := by cases h
  cached _ _ h := by
    obtain ⟨entry, hentry, -⟩ := h
    cases hentry
  issued := rfl

/-- A viewer without a name. -/
def viewerBody : Body :=
  ⟨"ann", none, none, none, some ["viewer"], some ["asset.read"], none, none,
    some "authenticated", none⟩

/-- A login, and a request that fills the cache. -/
def viewerRun : List Event :=
  [.login ⟨"sid", "ann", "iss", "", "", "", ["viewer"], 0, 0, 0⟩ true,
    .me meRequest .answered .answered, .tick 2]

/-- The next request is answered by the cache. -/
theorem user_context_transparent_cached :
    ∃ w : World memoryValues memoryCache,
      Run.exec (step viewerSettings) memoryStart viewerRun = some w ∧
        ((handler viewerSettings .answered .answered).me w meRequest).answer =
          .context viewerBody ∧
        ∃ sid c, meRequest.cookie "__Host-bff_session" = some sid ∧
          (getSession viewerSettings w sid).2.isOk = true ∧
          (sessionResolve (backends viewerSettings .answered .answered) w sid).answer = .ok c ∧
          viewerBody = encode c := by
  refine ⟨_, rfl, rfl, ?_⟩
  exact user_context_transparent viewerSettings memoryStart memoryStart_empty viewerRun _ rfl
    meRequest .answered .answered viewerBody rfl

end Runs

end UserContext
end GatewayRuntime
