import GatewayRuntime.FlowStore
import GatewayRuntime.Lib.Run
import GatewayRuntime.SessionLifecycle
import GatewayRuntime.TokenStore

/-!
# The two backends

The gateway keeps its sessions, token sets and login flows either in memory or
in Redis.  The backends encode expiry differently.  The memory stores keep the
expiry with the value and compare it with the clock on a read.  The Redis stores
turn it into the time to live of the key, in whole milliseconds and saturated at
the longest duration; sessions and flows are compared with the clock as well,
token sets are not.

Both backends are driven by the same calls at the same times.  The two answers
to a call differ at most while a key has ended before its value expires
(`EndsEarly`), or, for a token set, has not ended although it has expired
(`EndsLate`): `same_answer_unless_window`.  With lifetimes of whole milliseconds
there are no such windows (`same_answer_of_whole_milliseconds`).
-/

namespace GatewayRuntime
namespace Backends

section Model

/-- What a call is about. -/
inductive Key where
  | session (sid : String)
  | token (sid : String)
  | flow (state : String)
deriving DecidableEq

/-- A call on one of the three stores. -/
inductive Call where
  | sessionPut (v : Session)
  | sessionGet (sid : String)
  | sessionDelete (sid : String)
  | tokenPut (sid : String) (x : Token.TokenSet) (expiresAt : Int)
  | tokenGet (sid : String)
  | tokenDelete (sid : String)
  | flowPut (f : Flow)
  | flowTake (state : String)
deriving DecidableEq

/-- What a call returns. -/
inductive Answer where
  | done (r : Except Err Unit)
  | session (r : Except Err Session)
  | token (r : Except Err Token.TokenSet)
  | flow (r : Except Err Flow)

/-- The three stores of a backend. -/
structure Backend where
  sessions : Session.Store
  tokens : Token.Store
  flows : Flow.Store

structure Backend.State (B : Backend) where
  sessions : B.sessions.State
  tokens : B.tokens.State
  flows : B.flows.State

/-- One call. -/
def Backend.run (B : Backend) (s : B.State) (now : Int) : Call → B.State × Answer
  | .sessionPut v =>
      ({ s with sessions := (B.sessions.put s.sessions now v).1 },
        .done (B.sessions.put s.sessions now v).2)
  | .sessionGet sid =>
      ({ s with sessions := (B.sessions.get s.sessions now sid).1 },
        .session (B.sessions.get s.sessions now sid).2)
  | .sessionDelete sid =>
      ({ s with sessions := B.sessions.delete s.sessions sid }, .done (.ok ()))
  | .tokenPut sid x expiresAt =>
      ({ s with tokens := (B.tokens.put s.tokens now sid x expiresAt).1 },
        .done (B.tokens.put s.tokens now sid x expiresAt).2)
  | .tokenGet sid =>
      ({ s with tokens := (B.tokens.get s.tokens now sid).1 },
        .token (B.tokens.get s.tokens now sid).2)
  | .tokenDelete sid =>
      ({ s with tokens := B.tokens.delete s.tokens sid }, .done (.ok ()))
  | .flowPut f =>
      ({ s with flows := (B.flows.put s.flows now f).1 }, .done (B.flows.put s.flows now f).2)
  | .flowTake k =>
      ({ s with flows := (B.flows.take s.flows now k).1 },
        .flow (B.flows.take s.flows now k).2)

/-- The stores of `internal/session`, `internal/token` and `internal/auth`. -/
def memory : Backend :=
  ⟨Session.memoryStore, Token.memoryStore, Flow.memoryStore⟩

/-- The stores of `internal/store/redis`; their keys have different prefixes. -/
def redis : Backend :=
  ⟨Session.redisStore, Token.redisStore, Flow.redisStore⟩

/-- Both backends after the same calls, the clock, and for each key the time and
the expiry of the `Put` that wrote it. -/
structure World where
  memory : memory.State
  redis : redis.State
  clock : Int
  written : Key → Option (Int × Int)

/-- Both backends are empty. -/
def World.start (clock : Int) : World where
  memory := ⟨Session.MemoryState.empty, Table.empty, Flow.MemoryState.empty⟩
  redis := ⟨Session.RedisState.empty, Table.empty, Flow.RedisState.empty⟩
  clock := clock
  written _ := none

/-- The key that a call writes or clears, and what is known about it then. -/
def Call.records (now : Int) : Call → Option (Key × Option (Int × Int))
  | .sessionPut v => some (.session v.id, some (now, v.expiresAt))
  | .sessionDelete sid => some (.session sid, none)
  | .tokenPut sid _ expiresAt => some (.token sid, some (now, expiresAt))
  | .tokenDelete sid => some (.token sid, none)
  | .flowPut f => some (.flow f.state, some (now, f.expiresAt))
  | .flowTake k => some (.flow k, none)
  | _ => none

/-- The same call on both backends; the clock does not run backwards. -/
def step (w : World) (call : Int × Call) : Option World :=
  if call.1 < w.clock then none
  else
    some
      { memory := (memory.run w.memory call.1 call.2).1
        redis := (redis.run w.redis call.1 call.2).1
        clock := call.1
        written :=
          match call.2.records call.1 with
          | none => w.written
          | some (k, note) => Function.update w.written k note }

/-- A `Put` has an expiry after the call, and a value that `encoding/json` can
write. -/
def Storable (now : Int) : Call → Prop
  | .sessionPut v => now < v.expiresAt ∧ Session.marshalable v = true
  | .tokenPut _ _ expiresAt => now < expiresAt
  | .flowPut f => now < f.expiresAt ∧ Session.marshalableTime f.expiresAt = true
  | _ => True

/-- The condition on a call: the clock has not run backwards, and what is put can
be stored. -/
def Admissible (w : World) (call : Int × Call) : Prop :=
  w.clock ≤ call.1 ∧ Storable call.1 call.2

/-- Both backends give the same answer. -/
def SameAnswer (w : World) (call : Int × Call) : Prop :=
  (memory.run w.memory call.1 call.2).2 = (redis.run w.redis call.1 call.2).2

end Model

section Windows

/-- The instant at which a key written at `now` ends. -/
def deadline (now expiresAt : Int) : Int :=
  now + redisExpiry (GoTime.sub expiresAt now)

/-- A value has not expired; a session or token set without an expiry never
does. -/
def unexpired (k : Key) (expiresAt t : Int) : Prop :=
  match k with
  | .flow _ => t < expiresAt
  | _ => expiresAt = 0 ∨ t < expiresAt

/-- The key has ended although its value has not expired. -/
def EndsEarly (w : World) (k : Key) (t : Int) : Prop :=
  ∃ now expiresAt,
    w.written k = some (now, expiresAt) ∧ unexpired k expiresAt t ∧ deadline now expiresAt ≤ t

/-- The value has expired although its key has not ended. -/
def EndsLate (w : World) (k : Key) (t : Int) : Prop :=
  ∃ now expiresAt,
    w.written k = some (now, expiresAt) ∧ ¬unexpired k expiresAt t ∧ t < deadline now expiresAt

/-- The windows in which a read may be answered differently. -/
def Window (w : World) (call : Int × Call) : Prop :=
  match call.2 with
  | .sessionGet sid => EndsEarly w (.session sid) call.1
  | .tokenGet sid => EndsEarly w (.token sid) call.1 ∨ EndsLate w (.token sid) call.1
  | .flowTake k => EndsEarly w (.flow k) call.1
  | _ => False

/-- A lifetime of whole milliseconds ends exactly. -/
theorem deadline_of_whole_milliseconds
    {now expiresAt : Int}
    (hlt : now < expiresAt) (hfits : expiresAt - now < 2 ^ 63)
    (hwhole : (expiresAt - now) % 1000000 = 0) :
    deadline now expiresAt = expiresAt := by
  have hms : Duration.millisecond.toInt = 1000000 := by
    decide
  simp only [deadline, redisExpiry, GoTime.toInt_sub, hms]
  omega

end Windows

section Relation

/-- An entry is there, or it has been dropped because it is gone anyway. -/
def Carries {α : Type} (found : Option α) (entry : α) (gone : Prop) : Prop :=
  found = some entry ∨ (found = none ∧ gone)

theorem Carries.mono
    {α : Type} {found : Option α} {entry : α} {gone gone' : Prop}
    (h : Carries found entry gone) (himp : gone → gone') :
    Carries found entry gone' := by
  rcases h with h | ⟨h, hgone⟩
  · exact Or.inl h
  · exact Or.inr ⟨h, himp hgone⟩

/-- The entries of a session in both backends at time `c`. -/
def SessionsAgree (c : Int) (m : Option Session) (r : Option Session.RedisEntry) :
    Option (Int × Int) → Prop
  | none => m = none ∧ r = none
  | some (now, expiresAt) =>
      ∃ v, v.expiresAt = expiresAt ∧
        Carries m v (Session.MemoryState.expired v c = true) ∧
        Carries r ⟨v, deadline now expiresAt⟩ (Session.MemoryState.expired v c = true)

/-- The entries of a token set in both backends at time `c`. -/
def TokensAgree (c : Int) (m : Option Token.MemoryEntry) (r : Option Token.RedisEntry) :
    Option (Int × Int) → Prop
  | none => m = none ∧ r = none
  | some (now, expiresAt) =>
      ∃ x, Carries m ⟨x, expiresAt⟩ (Token.MemoryEntry.live ⟨x, expiresAt⟩ c = false) ∧
        r = some ⟨x, deadline now expiresAt⟩

/-- The entries of a flow in both backends. -/
def FlowsAgree (m : Option Flow) (r : Option Flow.RedisEntry) : Option (Int × Int) → Prop
  | none => m = none ∧ r = none
  | some (now, expiresAt) =>
      ∃ f, f.expiresAt = expiresAt ∧ m = some f ∧ r = some ⟨f, deadline now expiresAt⟩

/-- **The simulation relation** between the backends. -/
structure Agree (w : World) : Prop where
  sessions :
    ∀ sid, SessionsAgree w.clock (Table.find (Session.MemoryState.data w.memory.sessions) sid)
      (Table.find (Session.RedisState.data w.redis.sessions) sid) (w.written (.session sid))
  tokens :
    ∀ sid, TokensAgree w.clock (Table.find w.memory.tokens sid) (Table.find w.redis.tokens sid)
      (w.written (.token sid))
  flows :
    ∀ k, FlowsAgree (Table.find (Flow.MemoryState.data w.memory.flows) k)
      (Table.find (Flow.RedisState.data w.redis.flows) k) (w.written (.flow k))

theorem expired_later
    {v : Session} {t t' : Int} (hle : t ≤ t')
    (h : Session.MemoryState.expired v t = true) :
    Session.MemoryState.expired v t' = true := by
  simp only [Session.MemoryState.expired, Bool.and_eq_true, Bool.not_eq_true',
    GoTime.after_eq_false_iff] at h ⊢
  exact ⟨h.1, by omega⟩

theorem not_live_later
    {e : Token.MemoryEntry} {t t' : Int} (hle : t ≤ t')
    (h : e.live t = false) :
    e.live t' = false := by
  by_contra hne
  rw [Token.MemoryState.live_earlier hle (Bool.of_not_eq_false hne)] at h
  cases h

theorem SessionsAgree.later
    {c c' : Int} {m : Option Session} {r : Option Session.RedisEntry} {note : Option (Int × Int)}
    (hle : c ≤ c')
    (h : SessionsAgree c m r note) :
    SessionsAgree c' m r note := by
  cases note with
  | none =>
      exact h
  | some entry =>
      obtain ⟨v, hv, hm, hr⟩ := h
      exact ⟨v, hv, hm.mono (expired_later hle), hr.mono (expired_later hle)⟩

theorem TokensAgree.later
    {c c' : Int} {m : Option Token.MemoryEntry} {r : Option Token.RedisEntry}
    {note : Option (Int × Int)}
    (hle : c ≤ c')
    (h : TokensAgree c m r note) :
    TokensAgree c' m r note := by
  cases note with
  | none =>
      exact h
  | some entry =>
      obtain ⟨x, hm, hr⟩ := h
      exact ⟨x, hm.mono (not_live_later hle), hr⟩

theorem agree_start (clock : Int) : Agree (World.start clock) :=
  ⟨fun _ => ⟨rfl, rfl⟩, fun _ => ⟨rfl, rfl⟩, fun _ => ⟨rfl, rfl⟩⟩

end Relation

section Sessions

open Session

variable {s : MemoryState} {r : RedisState} {t : Int} {sid k : String}

theorem Carries.drop
    {α : Type} {found found' : Option α} {entry : α} {gone : Prop}
    (h : Carries found entry gone)
    (hdrop : found' = found ∨ (found' = none ∧ (found = some entry → gone))) :
    Carries found' entry gone := by
  rcases hdrop with rfl | ⟨hnone, hgone⟩
  · exact h
  · rcases h with hsome | ⟨-, hgone'⟩
    · exact Or.inr ⟨hnone, hgone hsome⟩
    · exact Or.inr ⟨hnone, hgone'⟩

/-- A `Get` of the memory store leaves an entry alone or drops it as expired. -/
theorem memory_find_get (s : MemoryState) (t : Int) (sid k : String) :
    (s.get t sid).1.data.find k = s.data.find k ∨
      ((s.get t sid).1.data.find k = none ∧
        ∀ v, s.data.find k = some v → MemoryState.expired v t = true) := by
  rcases MemoryState.get_cases s t sid with ⟨-, hget⟩ | ⟨v, hv, hexp, hget⟩ | ⟨v, -, -, hget⟩
  · exact Or.inl (by rw [hget])
  · rw [hget]
    exact Table.find_erase_same_or_gone hv hexp k
  · exact Or.inl (by rw [hget])

/-- The same for the store on Redis. -/
theorem redis_find_get (r : RedisState) (t : Int) (sid k : String) :
    (r.get t sid).1.data.find k = r.data.find k ∨
      ((r.get t sid).1.data.find k = none ∧
        ∀ e, r.data.find k = some e → MemoryState.expired e.value t = true) := by
  unfold RedisState.get
  cases hfind : r.data.find sid with
  | none =>
      exact Or.inl rfl
  | some e =>
      simp only
      split_ifs with hgone hexp
      · exact Or.inl rfl
      · have hexpired : MemoryState.expired e.value t = true := hexp
        exact Table.find_erase_same_or_gone
          (P := fun e => MemoryState.expired e.value t = true) hfind hexpired k
      · exact Or.inl rfl

/-- A `Get` keeps the entries related. -/
theorem SessionsAgree.get
    {note : Option (Int × Int)} (sid : String)
    (h : SessionsAgree t (s.data.find k) (r.data.find k) note) :
    SessionsAgree t ((s.get t sid).1.data.find k) ((r.get t sid).1.data.find k) note := by
  have hm := memory_find_get s t sid k
  have hr := redis_find_get r t sid k
  cases note with
  | none =>
      obtain ⟨hmem, hred⟩ := h
      refine ⟨?_, ?_⟩
      · rcases hm with heq | ⟨hnone, -⟩
        · rw [heq, hmem]
        · exact hnone
      · rcases hr with heq | ⟨hnone, -⟩
        · rw [heq, hred]
        · exact hnone
  | some entry =>
      obtain ⟨v, hv, hmem, hred⟩ := h
      refine ⟨v, hv, hmem.drop ?_, hred.drop ?_⟩
      · exact hm.imp_right fun hdrop => ⟨hdrop.1, fun hsome => hdrop.2 v hsome⟩
      · exact hr.imp_right fun hdrop => ⟨hdrop.1, fun hsome => hdrop.2 _ hsome⟩

theorem memory_get_expired
    (h : ∀ v, s.data.find sid = some v → MemoryState.expired v t = true) :
    (s.get t sid).2 = .error errNotFound := by
  rcases MemoryState.get_cases s t sid with ⟨-, hget⟩ | ⟨v, -, -, hget⟩ | ⟨v, hv, hexp, hget⟩
  · rw [hget]
  · rw [hget]
  · rw [h v hv] at hexp
    cases hexp

theorem redis_get_expired
    (h : ∀ e, r.data.find sid = some e → MemoryState.expired e.value t = true) :
    (r.get t sid).2 = .error errNotFound := by
  unfold RedisState.get
  cases hfind : r.data.find sid with
  | none =>
      rfl
  | some e =>
      have hexp : (!GoTime.isZero e.value.expiresAt && !GoTime.after e.value.expiresAt t) = true :=
        h e hfind
      simp only [hexp, if_true]
      split_ifs <;> rfl

theorem memory_get_unexpired
    {v : Session}
    (hfind : s.data.find sid = some v) (hexp : MemoryState.expired v t = false) :
    (s.get t sid).2 = .ok v := by
  simp [MemoryState.get, hfind, hexp]

theorem redis_get_unexpired
    {e : RedisEntry}
    (hfind : r.data.find sid = some e) (hexp : MemoryState.expired e.value t = false)
    (hlive : t < e.deadline) :
    (r.get t sid).2 = .ok e.value := by
  have htest : (!GoTime.isZero e.value.expiresAt && !GoTime.after e.value.expiresAt t) = false :=
    hexp
  have hpresent : ¬e.deadline ≤ t := by omega
  simp [RedisState.get, hfind, htest, hpresent]

/-- Related entries give the same answer to a `Get`, unless the key has ended
early. -/
theorem SessionsAgree.get_same
    {note : Option (Int × Int)}
    (h : SessionsAgree t (s.data.find sid) (r.data.find sid) note)
    (hwindow : ∀ now expiresAt, note = some (now, expiresAt) →
      expiresAt = 0 ∨ t < expiresAt → t < deadline now expiresAt) :
    (s.get t sid).2 = (r.get t sid).2 := by
  cases note with
  | none =>
      obtain ⟨hmem, hred⟩ := h
      rw [memory_get_expired (by simp [hmem]), redis_get_expired (by simp [hred])]
  | some entry =>
      obtain ⟨now, expiresAt⟩ := entry
      obtain ⟨v, rfl, hmem, hred⟩ := h
      cases hexp : MemoryState.expired v t with
      | true =>
          have hm : (s.get t sid).2 = .error errNotFound := by
            refine memory_get_expired ?_
            rcases hmem with hmem | ⟨hmem, -⟩ <;> simp [hmem, hexp]
          have hr : (r.get t sid).2 = .error errNotFound := by
            refine redis_get_expired ?_
            rcases hred with hred | ⟨hred, -⟩ <;> simp [hred, hexp]
          rw [hm, hr]
      | false =>
          simp only [Carries, hexp, Bool.false_eq_true, and_false, or_false] at hmem hred
          have hlive := hwindow now v.expiresAt rfl (expired_eq_false hexp)
          rw [memory_get_unexpired hmem hexp, redis_get_unexpired hred hexp hlive]

end Sessions

section Tokens

open Token

variable {s : Token.MemoryState} {r : Token.RedisState} {t : Int} {sid k : String}

/-- A `Get` of the memory store leaves an entry alone or drops it as expired. -/
theorem token_find_get (s : Token.MemoryState) (t : Int) (sid k : String) :
    Table.find (Token.MemoryState.get s t sid).1 k = Table.find s k ∨
      (Table.find (Token.MemoryState.get s t sid).1 k = none ∧
        ∀ e, Table.find s k = some e → e.live t = false) := by
  unfold Token.MemoryState.get
  cases hfind : Table.find s sid with
  | none =>
      exact Or.inl rfl
  | some e =>
      simp only
      split_ifs with hlive
      · exact Or.inl rfl
      · exact Table.find_erase_same_or_gone (P := fun e => e.live t = false) hfind
          (by simpa using hlive) k

/-- A `Get` keeps the entries related. -/
theorem TokensAgree.get
    {note : Option (Int × Int)} (sid : String)
    (h : TokensAgree t (Table.find s k) (Table.find r k) note) :
    TokensAgree t (Table.find (Token.MemoryState.get s t sid).1 k) (Table.find r k) note := by
  have hm := token_find_get s t sid k
  cases note with
  | none =>
      refine ⟨?_, h.2⟩
      rcases hm with heq | ⟨hnone, -⟩
      · rw [heq, h.1]
      · exact hnone
  | some entry =>
      obtain ⟨x, hmem, hred⟩ := h
      refine ⟨x, hmem.drop ?_, hred⟩
      exact hm.imp_right fun hdrop => ⟨hdrop.1, fun hsome => hdrop.2 _ hsome⟩

/-- Related entries give the same answer to a `Get` while the key has ended
exactly if the token set has expired. -/
theorem TokensAgree.get_same
    {note : Option (Int × Int)}
    (h : TokensAgree t (Table.find s sid) (Table.find r sid) note)
    (hwindow : ∀ now expiresAt, note = some (now, expiresAt) →
      (expiresAt = 0 ∨ t < expiresAt ↔ t < deadline now expiresAt)) :
    (Token.MemoryState.get s t sid).2 = found (Token.RedisState.value r t sid) := by
  rw [Token.MemoryState.get_result]
  congr 1
  cases note with
  | none =>
      obtain ⟨hmem, hred⟩ := h
      simp [Token.MemoryState.value, Token.RedisState.value, hmem, hred]
  | some entry =>
      obtain ⟨now, expiresAt⟩ := entry
      obtain ⟨x, hmem, hred⟩ := h
      have hiff := hwindow now expiresAt rfl
      have hlive : MemoryEntry.live ⟨x, expiresAt⟩ t = true ↔ t < deadline now expiresAt := by
        rw [← hiff]
        simp [MemoryEntry.live]
      cases hvalue : MemoryEntry.live ⟨x, expiresAt⟩ t with
      | true =>
          simp only [Carries, hvalue, Bool.true_eq_false, and_false, or_false] at hmem
          simp [Token.MemoryState.value, Token.RedisState.value, hmem, hred, hvalue,
            hlive.mp hvalue]
      | false =>
          have hended : ¬t < deadline now expiresAt := by
            rw [← hlive, hvalue]
            simp
          rcases hmem with hmem | ⟨hmem, -⟩ <;>
            simp [Token.MemoryState.value, Token.RedisState.value, hmem, hred, hvalue, hended]

end Tokens

section Flows

variable {s : Flow.MemoryState} {r : Flow.RedisState} {t : Int} {k : String}

/-- Related entries give the same answer to a `Take`, unless the key has ended
early. -/
theorem FlowsAgree.take_same
    {note : Option (Int × Int)}
    (h : FlowsAgree (s.data.find k) (r.data.find k) note)
    (hwindow : ∀ now expiresAt, note = some (now, expiresAt) →
      t < expiresAt → t < deadline now expiresAt) :
    Flow.check t (s.consume k).2 = Flow.check t (r.consume t k).2 := by
  cases note with
  | none =>
      obtain ⟨hmem, hred⟩ := h
      simp [Flow.MemoryState.consume, Flow.RedisState.consume, hmem, hred]
  | some entry =>
      obtain ⟨now, expiresAt⟩ := entry
      obtain ⟨f, rfl, hmem, hred⟩ := h
      by_cases hlive : t < f.expiresAt
      · have hpresent := hwindow now f.expiresAt rfl hlive
        simp [Flow.MemoryState.consume, Flow.RedisState.consume, hmem, hred, hpresent]
      · have hexp : GoTime.after f.expiresAt t = false := by
          simpa using hlive
        by_cases hpresent : t < deadline now f.expiresAt
        · simp [Flow.MemoryState.consume, Flow.RedisState.consume, hmem, hred, hpresent]
        · simp [Flow.MemoryState.consume, Flow.RedisState.consume, hmem, hred, hpresent,
            Flow.check, hexp]

end Flows

section Steps

variable {w w' : World} {t : Int}

theorem session_put_ok
    {r : Session.RedisState} {v : Session}
    (hlt : t < v.expiresAt) (hjson : Session.marshalable v = true) :
    r.put t v = (r.set t v (GoTime.sub v.expiresAt t), .ok ()) := by
  have hpos := Int64.not_le.mpr (GoTime.sub_pos hlt)
  simp [Session.RedisState.put, hjson, hpos]

theorem token_put_ok
    {r : Token.RedisState} {sid : String} {x : Token.TokenSet} {expiresAt : Int}
    (hlt : t < expiresAt) :
    Token.RedisState.put r t sid x expiresAt =
      (r.set sid ⟨x, deadline t expiresAt⟩, .ok ()) := by
  have hpos := Int64.not_le.mpr (GoTime.sub_pos hlt)
  simp [Token.RedisState.put, hpos, deadline]

theorem flow_put_ok
    {r : Flow.RedisState} {f : Flow}
    (hlt : t < f.expiresAt) (hjson : Session.marshalableTime f.expiresAt = true) :
    r.put t f = (r.set t f (GoTime.sub f.expiresAt t), .ok ()) := by
  have hpos := Int64.not_le.mpr (GoTime.sub_pos hlt)
  simp [Flow.RedisState.put, hjson, hpos]

/-- The notes about another key. -/
theorem written_of_ne
    {k k' : Key} (note : Option (Int × Int)) (hk : k' ≠ k) :
    Function.update w.written k note k' = w.written k' :=
  Function.update_of_ne hk _ _

/-- The relation at a later time. -/
theorem Agree.later
    (h : Agree w) (hle : w.clock ≤ t) :
    Agree { w with clock := t } :=
  ⟨fun sid => (h.sessions sid).later hle, fun sid => (h.tokens sid).later hle, h.flows⟩

theorem sessionPut_agree
    {v : Session}
    (h : Agree { w with clock := t }) (hcall : Storable t (.sessionPut v))
    (hstep : step w (t, .sessionPut v) = some w') :
    Agree w' := by
  obtain ⟨hlt, hjson⟩ := hcall
  simp only [step] at hstep
  split_ifs at hstep
  cases hstep
  refine ⟨?_, h.tokens, h.flows⟩
  have hredis :
      (redis.run w.redis t (.sessionPut v)).1.sessions =
        Session.RedisState.set w.redis.sessions t v (GoTime.sub v.expiresAt t) :=
    congrArg Prod.fst (session_put_ok hlt hjson)
  rw [hredis]
  refine Table.forall_set
    (P := fun k m r => SessionsAgree t m r (Function.update w.written (.session v.id) (some (t, v.expiresAt)) (.session k)))
    ?_ ?_
  · simp only [Function.update_self]
    exact ⟨v, rfl, Or.inl rfl, Or.inl rfl⟩
  · intro sid hsid
    rw [written_of_ne _ (show Key.session sid ≠ .session v.id by simpa using hsid)]
    exact h.sessions sid

theorem sessionDelete_agree
    {sid : String}
    (h : Agree { w with clock := t })
    (hstep : step w (t, .sessionDelete sid) = some w') :
    Agree w' := by
  simp only [step] at hstep
  split_ifs at hstep
  cases hstep
  refine ⟨?_, h.tokens, h.flows⟩
  refine Table.forall_erase
    (P := fun k m r => SessionsAgree t m r (Function.update w.written (.session sid) none (.session k)))
    ?_ ?_
  · simp only [Function.update_self]
    exact ⟨rfl, rfl⟩
  · intro k hk
    rw [written_of_ne _ (show Key.session k ≠ .session sid by simpa using hk)]
    exact h.sessions k

theorem sessionGet_agree
    {sid : String}
    (h : Agree { w with clock := t })
    (hstep : step w (t, .sessionGet sid) = some w') :
    Agree w' := by
  simp only [step] at hstep
  split_ifs at hstep
  cases hstep
  exact ⟨fun k => (h.sessions k).get sid, h.tokens, h.flows⟩

theorem tokenPut_agree
    {sid : String} {x : Token.TokenSet} {expiresAt : Int}
    (h : Agree { w with clock := t }) (hcall : Storable t (.tokenPut sid x expiresAt))
    (hstep : step w (t, .tokenPut sid x expiresAt) = some w') :
    Agree w' := by
  simp only [step] at hstep
  split_ifs at hstep
  cases hstep
  refine ⟨h.sessions, ?_, h.flows⟩
  have hredis :
      (redis.run w.redis t (.tokenPut sid x expiresAt)).1.tokens =
        Table.set w.redis.tokens sid ⟨x, deadline t expiresAt⟩ :=
    congrArg Prod.fst (token_put_ok hcall)
  rw [hredis]
  refine Table.forall_set
    (P := fun k m r => TokensAgree t m r (Function.update w.written (.token sid) (some (t, expiresAt)) (.token k)))
    ?_ ?_
  · simp only [Function.update_self]
    exact ⟨x, Or.inl rfl, rfl⟩
  · intro k hk
    rw [written_of_ne _ (show Key.token k ≠ .token sid by simpa using hk)]
    exact h.tokens k

theorem tokenDelete_agree
    {sid : String}
    (h : Agree { w with clock := t })
    (hstep : step w (t, .tokenDelete sid) = some w') :
    Agree w' := by
  simp only [step] at hstep
  split_ifs at hstep
  cases hstep
  refine ⟨h.sessions, ?_, h.flows⟩
  refine Table.forall_erase
    (P := fun k m r => TokensAgree t m r (Function.update w.written (.token sid) none (.token k)))
    ?_ ?_
  · simp only [Function.update_self]
    exact ⟨rfl, rfl⟩
  · intro k hk
    rw [written_of_ne _ (show Key.token k ≠ .token sid by simpa using hk)]
    exact h.tokens k

theorem tokenGet_agree
    {sid : String}
    (h : Agree { w with clock := t })
    (hstep : step w (t, .tokenGet sid) = some w') :
    Agree w' := by
  simp only [step] at hstep
  split_ifs at hstep
  cases hstep
  exact ⟨h.sessions, fun k => (h.tokens k).get sid, h.flows⟩

theorem flowPut_agree
    {f : Flow}
    (h : Agree { w with clock := t }) (hcall : Storable t (.flowPut f))
    (hstep : step w (t, .flowPut f) = some w') :
    Agree w' := by
  obtain ⟨hlt, hjson⟩ := hcall
  simp only [step] at hstep
  split_ifs at hstep
  cases hstep
  refine ⟨h.sessions, h.tokens, ?_⟩
  have hredis :
      (redis.run w.redis t (.flowPut f)).1.flows =
        Flow.RedisState.set w.redis.flows t f (GoTime.sub f.expiresAt t) :=
    congrArg Prod.fst (flow_put_ok hlt hjson)
  rw [hredis]
  refine Table.forall_set
    (P := fun k m r => FlowsAgree m r (Function.update w.written (.flow f.state) (some (t, f.expiresAt)) (.flow k)))
    ?_ ?_
  · simp only [Function.update_self]
    exact ⟨f, rfl, rfl, rfl⟩
  · intro k hk
    rw [written_of_ne _ (show Key.flow k ≠ .flow f.state by simpa using hk)]
    exact h.flows k

theorem flowTake_agree
    {k : String}
    (h : Agree { w with clock := t })
    (hstep : step w (t, .flowTake k) = some w') :
    Agree w' := by
  simp only [step] at hstep
  split_ifs at hstep
  cases hstep
  refine ⟨h.sessions, h.tokens, ?_⟩
  refine Table.forall_erase
    (P := fun k' m r => FlowsAgree m r (Function.update w.written (.flow k) none (.flow k')))
    ?_ ?_
  · simp only [Function.update_self]
    exact ⟨rfl, rfl⟩
  · intro k' hk
    rw [written_of_ne _ (show Key.flow k' ≠ .flow k by simpa using hk)]
    exact h.flows k'

/-- **One call keeps the backends related.** -/
theorem step_agree
    {call : Int × Call}
    (h : Agree w) (hcall : Admissible w call)
    (hstep : step w call = some w') :
    Agree w' := by
  obtain ⟨t, op⟩ := call
  obtain ⟨hle, hcall⟩ := hcall
  have hlater := h.later hle
  cases op with
  | sessionPut v =>
      exact sessionPut_agree hlater hcall hstep
  | sessionGet sid =>
      exact sessionGet_agree hlater hstep
  | sessionDelete sid =>
      exact sessionDelete_agree hlater hstep
  | tokenPut sid x expiresAt =>
      exact tokenPut_agree hlater hcall hstep
  | tokenGet sid =>
      exact tokenGet_agree hlater hstep
  | tokenDelete sid =>
      exact tokenDelete_agree hlater hstep
  | flowPut f =>
      exact flowPut_agree hlater hcall hstep
  | flowTake k =>
      exact flowTake_agree hlater hstep

/-- Related backends give the same answer outside the windows. -/
theorem same_of_agree
    {op : Call}
    (h : Agree { w with clock := t }) (hcall : Storable t op)
    (hwindow : ¬Window w (t, op)) :
    SameAnswer w (t, op) := by
  cases op with
  | sessionPut v =>
      obtain ⟨hlt, hjson⟩ := hcall
      have hput := congrArg Prod.snd (session_put_ok (r := w.redis.sessions) hlt hjson)
      exact congrArg Answer.done hput.symm
  | sessionGet sid =>
      refine congrArg Answer.session ((h.sessions sid).get_same ?_)
      intro now expiresAt hnote hlive
      by_contra hended
      exact hwindow ⟨now, expiresAt, hnote, hlive, Int.not_lt.mp hended⟩
  | sessionDelete sid =>
      rfl
  | tokenPut sid x expiresAt =>
      have hput : (Token.RedisState.put w.redis.tokens t sid x expiresAt).2 = .ok () :=
        congrArg Prod.snd (token_put_ok hcall)
      exact congrArg Answer.done hput.symm
  | tokenGet sid =>
      refine congrArg Answer.token ((h.tokens sid).get_same ?_)
      intro now expiresAt hnote
      refine ⟨?_, ?_⟩
      · intro hlive
        by_contra hended
        exact hwindow (Or.inl ⟨now, expiresAt, hnote, hlive, Int.not_lt.mp hended⟩)
      · intro hpresent
        by_contra hexpired
        exact hwindow (Or.inr ⟨now, expiresAt, hnote, hexpired, hpresent⟩)
  | tokenDelete sid =>
      rfl
  | flowPut f =>
      obtain ⟨hlt, hjson⟩ := hcall
      have hput := congrArg Prod.snd (flow_put_ok (r := w.redis.flows) hlt hjson)
      exact congrArg Answer.done hput.symm
  | flowTake k =>
      refine congrArg Answer.flow ((h.flows k).take_same ?_)
      intro now expiresAt hnote hlive
      by_contra hended
      exact hwindow ⟨now, expiresAt, hnote, hlive, Int.not_lt.mp hended⟩

end Steps

section Result

/-- **The backends answer alike outside the windows.**  Over any calls at
nondecreasing times in which every `Put` has an expiry after the call, the two
backends give the same answer to every call, unless it reads a key that has
ended before its value expires, or a token set that has expired before its key
ends. -/
theorem same_answer_unless_window
    (clock : Int) (calls : List (Int × Call))
    (hcalls : Run.Guarded step Admissible (World.start clock) calls) :
    Run.Guarded step (fun w call => Window w call ∨ SameAnswer w call)
      (World.start clock) calls := by
  refine hcalls.imp_of_invariant (I := Agree) ?_ ?_ (agree_start clock)
  · intro w call w' hagree hcall hstep
    exact step_agree hagree hcall hstep
  · intro w call hagree hcall
    by_cases hwindow : Window w call
    · exact Or.inl hwindow
    · exact Or.inr (same_of_agree (hagree.later hcall.1) hcall.2 hwindow)

/-- Every lifetime is a whole number of milliseconds that fits a duration. -/
def WholeMilliseconds (_ : World) (call : Int × Call) : Prop :=
  ∀ k now expiresAt, call.2.records call.1 = some (k, some (now, expiresAt)) →
    expiresAt ≠ 0 ∧ expiresAt - now < 2 ^ 63 ∧ (expiresAt - now) % 1000000 = 0

/-- The keys end exactly when their values expire. -/
def Exact (w : World) : Prop :=
  ∀ k now expiresAt, w.written k = some (now, expiresAt) →
    expiresAt ≠ 0 ∧ deadline now expiresAt = expiresAt

theorem records_lt
    {t now expiresAt : Int} {op : Call} {k : Key}
    (hcall : Storable t op)
    (h : op.records t = some (k, some (now, expiresAt))) :
    now < expiresAt := by
  cases op with
  | sessionPut v =>
      cases h
      exact hcall.1
  | tokenPut sid x expiresAt =>
      cases h
      exact hcall
  | flowPut f =>
      cases h
      exact hcall.1
  | sessionGet sid =>
      cases h
  | sessionDelete sid =>
      cases h
  | tokenGet sid =>
      cases h
  | tokenDelete sid =>
      cases h
  | flowTake k =>
      cases h

theorem step_exact
    {w w' : World} {call : Int × Call}
    (hexact : Exact w) (hcall : Storable call.1 call.2) (hwhole : WholeMilliseconds w call)
    (hstep : step w call = some w') :
    Exact w' := by
  simp only [step] at hstep
  split_ifs at hstep
  cases hstep
  intro k now expiresAt hwritten
  simp only at hwritten
  cases hrec : call.2.records call.1 with
  | none =>
      rw [hrec] at hwritten
      exact hexact k now expiresAt hwritten
  | some record =>
      obtain ⟨k', note⟩ := record
      rw [hrec] at hwritten
      simp only at hwritten
      by_cases hk : k = k'
      · subst hk
        rw [Function.update_self] at hwritten
        subst hwritten
        obtain ⟨hne, hfits, hms⟩ := hwhole k now expiresAt hrec
        exact ⟨hne, deadline_of_whole_milliseconds (records_lt hcall hrec) hfits hms⟩
      · rw [Function.update_of_ne hk] at hwritten
        exact hexact k now expiresAt hwritten

theorem no_window_of_exact
    {w : World} (hexact : Exact w) (call : Int × Call) :
    ¬Window w call := by
  have hearly : ∀ k t, ¬EndsEarly w k t := by
    rintro k t ⟨now, expiresAt, hwritten, hlive, hended⟩
    obtain ⟨hne, hdeadline⟩ := hexact k now expiresAt hwritten
    rw [hdeadline] at hended
    cases k <;> simp only [unexpired] at hlive <;> omega
  have hlate : ∀ k t, ¬EndsLate w k t := by
    rintro k t ⟨now, expiresAt, hwritten, hexpired, hpresent⟩
    obtain ⟨hne, hdeadline⟩ := hexact k now expiresAt hwritten
    rw [hdeadline] at hpresent
    cases k <;> simp only [unexpired] at hexpired <;> omega
  obtain ⟨t, op⟩ := call
  cases op <;> simp [Window, hearly, hlate]

/-- With lifetimes of whole milliseconds the backends are interchangeable. -/
theorem same_answer_of_whole_milliseconds
    (clock : Int) (calls : List (Int × Call))
    (hcalls : Run.Guarded step Admissible (World.start clock) calls)
    (hwhole : Run.Guarded step WholeMilliseconds (World.start clock) calls) :
    Run.Guarded step SameAnswer (World.start clock) calls := by
  refine (hcalls.and hwhole).imp_of_invariant (I := fun w => Agree w ∧ Exact w) ?_ ?_
    ⟨agree_start clock, fun _ _ _ h => by cases h⟩
  · rintro w call w' ⟨hagree, hexact⟩ ⟨hcall, hms⟩ hstep
    exact ⟨step_agree hagree hcall hstep, step_exact hexact hcall.2 hms hstep⟩
  · rintro w call ⟨hagree, hexact⟩ ⟨hcall, -⟩
    exact same_of_agree (hagree.later hcall.1) hcall.2 (no_window_of_exact hexact call)

/-- A session put for an hour and read twice. -/
theorem same_answer_hour :
    Run.Guarded step (fun w call => Window w call ∨ SameAnswer w call) (World.start 0)
      [(1, .sessionPut { Session.exampleSession with expiresAt := 3600000000001 }),
        (1800000000000, .sessionGet "sid"), (3600000000001, .sessionGet "sid")] :=
  same_answer_unless_window 0 _
    ⟨⟨by decide, by decide, by decide⟩, fun w hw => by
      cases hw
      exact ⟨⟨by decide, trivial⟩, fun w hw => by
        cases hw
        exact ⟨⟨by decide, trivial⟩, fun _ _ => trivial⟩⟩⟩

/-- A session put for one and a half milliseconds is found after 1.2
milliseconds in memory, and not on Redis. -/
theorem redis_forgets_session_early :
    ∃ w,
      Run.exec step (World.start 0)
          [(1, .sessionPut { Session.exampleSession with expiresAt := 1500001 })] = some w ∧
        Run.Guarded step Admissible (World.start 0)
          [(1, .sessionPut { Session.exampleSession with expiresAt := 1500001 }),
            (1200001, .sessionGet "sid")] ∧
        ¬SameAnswer w (1200001, .sessionGet "sid") := by
  refine ⟨_, rfl, ?_, ?_⟩
  · refine ⟨⟨by decide, by decide, by decide⟩, ?_⟩
    intro w hw
    cases hw
    exact ⟨⟨by decide, trivial⟩, fun _ _ => trivial⟩
  · intro hsame
    cases hsame

end Result

end Backends
end GatewayRuntime
