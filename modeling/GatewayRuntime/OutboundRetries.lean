import GatewayRuntime.BreakerFailures

/-!
# Responses and retries of the outbound client

`handleResponse` reads one byte more than the limit allows, so that it can tell a body that
is too long from one that fits.  The sum is taken in 64-bit arithmetic: at the largest
limit it is negative, nothing is read, and every body counts as an empty one
(`response_size_guard_iff`).

`DoJSON` makes the attempts one after the other.  `attemptLoop_effect` says how one attempt
can end: without a request, with the call, or in the next attempt.  From it the law of the
whole call follows by induction on the attempts left.
-/

namespace GatewayRuntime
namespace Outbound

section Responses

variable {c : Client} {env : Env} {call : Call} {resp : Response}

theorem bodyLimit_pos (c : Client) :
    0 < (bodyLimit c).toInt := by
  unfold bodyLimit
  split_ifs with h
  · decide
  · rw [Int64.not_le] at h
    exact Int64.lt_iff_toInt_lt.mp h

/-- The limit is the largest number only when it is configured. -/
theorem bodyLimit_ne_max (h : c.maxBodyBytes ≠ Int64.maxValue) :
    bodyLimit c ≠ Int64.maxValue := by
  unfold bodyLimit
  split_ifs
  · decide
  · exact h

/-- Below the largest number the sum does not wrap. -/
theorem toInt_add_one {n : Int64} (hpos : 0 < n.toInt) (h : n ≠ Int64.maxValue) :
    (n + 1).toInt = n.toInt + 1 := by
  have hlt : n.toInt < 2 ^ 63 - 1 := by
    refine lt_of_le_of_ne (by have := n.toInt_lt; omega) ?_
    intro heq
    exact h (Int64.toInt_inj.mp heq)
  have hone : (1 : Int64).toInt = 1 := by decide
  rw [Int64.toInt_add, hone, Int.bmod_eq_of_le (by omega) (by omega)]

variable (resp) in
/-- Where the sum does not wrap, reading tells a long body from one that fits. -/
theorem readLimited_eq (h : c.maxBodyBytes ≠ Int64.maxValue) :
    readLimited resp (bodyLimit c + 1) =
      if (bodyLimit c).toInt < resp.body.length then
        .ok (resp.body.take ((bodyLimit c).toInt.toNat + 1))
      else
        match resp.readError with
        | some e => .error e
        | none => .ok resp.body := by
  have hsum := toInt_add_one (bodyLimit_pos c) (bodyLimit_ne_max h)
  have hpos := bodyLimit_pos c
  unfold readLimited
  rw [hsum]
  split_ifs with hle hlt
  · rw [Int.toNat_add (by omega) (by decide)]
    rfl
  · omega
  · omega
  · rfl

/-- What `handleResponse` does with a body that was read as a whole. -/
def decodeWhole (call : Call) (body : Bytes) : Traced Action Err (Option Err) :=
  match call.out with
  | none => .done none
  | some decode =>
      if body.length = 0 then .done none
      else ⟨[.decode body], .ok ((decode body).map (.wrap "decode outbound response: " ""))⟩

variable (env call resp) in
/-- `handleResponse`, where the sum does not wrap. -/
theorem handleResponse_eq (h : c.maxBodyBytes ≠ Int64.maxValue) :
    handleResponse c env call resp =
      if (bodyLimit c).toInt < resp.body.length then
        .done (some (.text
          ("outbound response exceeds " ++ toString (bodyLimit c).toInt ++ " bytes")))
      else
        match resp.readError with
        | some e => .done (some e)
        | none =>
            if resp.status < 200 ∨ 300 ≤ resp.status then
              .done (some (.leaf
                (.outbound (normalizeStatus resp.status) resp.status (env.statusText resp.status))))
            else decodeWhole call resp.body := by
  have hpos := bodyLimit_pos c
  unfold handleResponse
  rw [readLimited_eq resp h]
  by_cases hlong : (bodyLimit c).toInt < resp.body.length
  · rw [if_pos hlong, if_pos hlong]
    have htaken : (bodyLimit c).toInt <
        (resp.body.take ((bodyLimit c).toInt.toNat + 1)).length := by
      rw [List.length_take]
      omega
    dsimp only
    rw [if_pos htaken]
  · rw [if_neg hlong, if_neg hlong]
    cases resp.readError with
    | some e =>
        rfl
    | none =>
        dsimp only
        rw [if_neg hlong]
        rfl

/-- What the size guard promises for a response: a body that is too long is refused, a body that
fits is decoded as a whole, no part of a body is decoded, and no body counts as a success that
was not read. -/
structure GuardsSize (c : Client) (env : Env) (call : Call) (resp : Response) : Prop where
  tooLong : (bodyLimit c).toInt < resp.body.length →
    ∃ e, handleResponse c env call resp = .done (some e)
  whole : resp.body.length ≤ (bodyLimit c).toInt → resp.readError = none →
    handleResponse c env call resp = decodeWhole call resp.body
  decoded : ∀ body, .decode body ∈ (handleResponse c env call resp).calls → body = resp.body
  read : (handleResponse c env call resp).result = .ok none → resp.body ≠ [] →
    readLimited resp (bodyLimit c + 1) = .ok resp.body

theorem mem_decodeWhole
    {body body' : Bytes} (h : .decode body' ∈ (decodeWhole call body).calls) :
    body' = body := by
  unfold decodeWhole at h
  split at h
  · simp [Traced.done] at h
  · split_ifs at h
    · simp [Traced.done] at h
    · simpa using h

theorem guardsSize_of_ne_max
    (h : c.maxBodyBytes ≠ Int64.maxValue)
    (hstatus : 200 ≤ resp.status ∧ resp.status < 300) :
    GuardsSize c env call resp := by
  have heq := handleResponse_eq env call resp h
  have hread := readLimited_eq resp h
  have hok : ¬(resp.status < 200 ∨ 300 ≤ resp.status) := by omega
  rw [if_neg hok] at heq
  by_cases hlong : (bodyLimit c).toInt < resp.body.length
  · rw [if_pos hlong] at heq
    refine ⟨fun _ => ⟨_, heq⟩, fun hfits => absurd hfits (by omega), ?_, ?_⟩
    · simp [heq, Traced.done]
    · simp [heq, Traced.done]
  · rw [if_neg hlong] at heq hread
    cases herror : resp.readError with
    | some e =>
        rw [herror] at heq
        refine ⟨fun hlt => absurd hlt hlong, fun _ hnone => ?_, ?_, ?_⟩
        · rw [herror] at hnone
          cases hnone
        · simp [heq, Traced.done]
        · simp [heq, Traced.done]
    | none =>
        rw [herror] at heq hread
        refine ⟨fun hlt => absurd hlt hlong, fun _ _ => heq, ?_, fun _ _ => hread⟩
        intro body hbody
        rw [heq] at hbody
        exact mem_decodeWhole hbody

/-- A response with a body of two bytes. -/
def braces : Response :=
  ⟨200, [123, 125], none⟩

/-- An upstream that answers every request with it. -/
def bracesEnv : Env :=
  ⟨"", "", fun _ _ => none, fun _ => "", fun _ => ⟨.ok "", .ok braces, none, none⟩⟩

/-- At the largest limit nothing is read. -/
theorem readLimited_max (h : c.maxBodyBytes = Int64.maxValue) :
    readLimited braces (bodyLimit c + 1) = .ok [] := by
  have hlimit : bodyLimit c = Int64.maxValue := by
    unfold bodyLimit
    rw [h]
    decide
  rw [hlimit]
  rfl

theorem handleResponse_max (h : c.maxBodyBytes = Int64.maxValue) :
    handleResponse c env call braces = .done none := by
  have hpos := bodyLimit_pos c
  unfold handleResponse
  rw [readLimited_max h]
  dsimp only
  rw [if_neg (by simpa using hpos.le), if_neg (by decide)]
  cases call.out <;> rfl

/-- **The size guard** is exact for every limit but the largest one. -/
theorem response_size_guard_iff (c : Client) :
    (∀ env call resp, 200 ≤ resp.status ∧ resp.status < 300 → GuardsSize c env call resp) ↔
      c.maxBodyBytes ≠ Int64.maxValue := by
  constructor
  · intro h hmax
    have hread := (h bracesEnv ⟨"", "GET", "/", none, none⟩ braces (by decide)).read
    rw [handleResponse_max hmax, readLimited_max hmax] at hread
    exact absurd (hread rfl (by decide)) (by decide)
  · intro h env call resp hstatus
    exact guardsSize_of_ne_max h hstatus

/-- The client with the largest limit. -/
def unlimitedClient : Client :=
  ⟨⟨"https", "api.example", ""⟩, false, 1, Int64.maxValue⟩

/-- It reports a success for a body of two bytes that it has neither read nor decoded. -/
theorem response_unread_at_max :
    handleResponse unlimitedClient bracesEnv ⟨"", "GET", "/", none, some fun _ => none⟩ braces =
        .done none ∧
      braces.body.length ≤ (bodyLimit unlimitedClient).toInt ∧
      readLimited braces (bodyLimit unlimitedClient + 1) = .ok [] :=
  ⟨handleResponse_max rfl, by decide, readLimited_max rfl⟩

end Responses

section Retries

/-- The request of an action. -/
def Action.sent : Action → Option Request
  | .send req => some req
  | _ => none

/-- The requests that a call has sent. -/
def sends (t : Traced Action Err Unit) : List Request :=
  t.calls.filterMap Action.sent

/-- An attempt after which another one may be made. -/
def Exchange.Retryable (x : Exchange) : Prop :=
  match x.answer with
  | .error _ => x.contextError = none
  | .ok resp => retryableResponse resp.status = true

/-- A response is a success: its body is within the limit and can be decoded, if that is asked for
and there is one. -/
def Response.Accepted (c : Client) (call : Call) (resp : Response) : Prop :=
  (200 ≤ resp.status ∧ resp.status < 300) ∧ resp.readError = none ∧
    resp.body.length ≤ (bodyLimit c).toInt ∧
    ∀ decode, call.out = some decode → resp.body ≠ [] → decode resp.body = none

/-- An attempt that ends the call with a success. -/
def Exchange.Accepted (c : Client) (call : Call) (x : Exchange) : Prop :=
  ∃ resp, x.answer = .ok resp ∧ resp.Accepted c call

/-- The law of the attempts from `n` on, with `remaining` of them left. -/
structure RetryLaw (c : Client) (env : Env) (call : Call) (body : Bytes) (remaining n : Nat)
    (t : Traced Action Err Unit) : Prop where
  bounded : (sends t).length ≤ remaining
  again : ∀ i, i + 1 < (sends t).length →
    (env.exchange (n + i)).Retryable ∧ (env.exchange (n + i)).backoff = none
  same : ∀ req ∈ sends t,
    req.method = call.method ∧ req.path = requestPath c call.path ∧ req.body = body
  success : t.result = .ok () ↔
    ∃ i, (sends t).length = i + 1 ∧ (env.exchange (n + i)).Accepted c call
  written : ∀ before body' after, t.calls = before ++ .decode body' :: after →
    after = [] ∧ ∃ i resp, (sends t).length = i + 1 ∧
      (env.exchange (n + i)).answer = .ok resp ∧ body' = resp.body

variable {c : Client} {env : Env} {call : Call} {body : Bytes} {resp : Response} {n : Nat}

variable (c env call body n) in
theorem newRequest_quiet (a : Action) (h : a ∈ (newRequest c env call body n).calls) :
    a = .token call.sessionID := by
  unfold newRequest at h
  split at h
  · simp [Traced.stop] at h
  · dsimp only at h
    split_ifs at h
    · cases htoken : (env.exchange n).token <;> simpa [htoken, Traced.stop, Traced.done] using h
    · simp [Traced.done] at h

theorem newRequest_carries
    {req : Request} (h : (newRequest c env call body n).result = .ok req) :
    req.method = call.method ∧ req.path = requestPath c call.path ∧ req.body = body := by
  unfold newRequest at h
  split at h
  · simp [Traced.stop] at h
  · dsimp only at h
    split_ifs at h
    · cases htoken : (env.exchange n).token with
      | error e =>
          simp [htoken, Traced.stop] at h
      | ok token =>
          simp only [htoken, Traced.call_bind, Traced.lift_ok_bind, Traced.done] at h
          obtain rfl := Except.ok.inj h
          exact ⟨rfl, rfl, rfl⟩
    · obtain rfl := Except.ok.inj h
      exact ⟨rfl, rfl, rfl⟩

variable (env call resp) in
/-- `handleResponse` goes on with no error exactly for a success, and calls at most the decoder. -/
theorem handleResponse_spec (h : c.maxBodyBytes ≠ Int64.maxValue) :
    ∃ err, (handleResponse c env call resp).result = .ok err ∧
      (err = none ↔ resp.Accepted c call) ∧
      ((handleResponse c env call resp).calls = [] ∨
        (handleResponse c env call resp).calls = [.decode resp.body] ∧
          200 ≤ resp.status ∧ resp.status < 300) := by
  rw [handleResponse_eq env call resp h]
  unfold Response.Accepted
  by_cases hlong : (bodyLimit c).toInt < resp.body.length
  · rw [if_pos hlong]
    exact ⟨_, rfl, by simp; omega, .inl rfl⟩
  rw [if_neg hlong]
  cases hread : resp.readError with
  | some e =>
      exact ⟨_, rfl, by simp, .inl rfl⟩
  | none =>
      by_cases hstatus : resp.status < 200 ∨ 300 ≤ resp.status
      · rw [if_pos hstatus]
        exact ⟨_, rfl, by simp; omega, .inl rfl⟩
      rw [if_neg hstatus]
      have hok : 200 ≤ resp.status ∧ resp.status < 300 := by omega
      have hfits : resp.body.length ≤ (bodyLimit c).toInt := by omega
      unfold decodeWhole
      cases hout : call.out with
      | none =>
          exact ⟨_, rfl, by simp [hok, hfits], .inl rfl⟩
      | some decode =>
          dsimp only
          split_ifs with hempty
          · refine ⟨_, rfl, ?_, .inl rfl⟩
            simp [hok, List.eq_nil_of_length_eq_zero hempty, (bodyLimit_pos c).le]
          · have hne : resp.body ≠ [] := fun hnil => hempty (by rw [hnil]; rfl)
            refine ⟨_, rfl, ?_, .inr ⟨rfl, hok⟩⟩
            simp [hok, hfits, hne]

/-- How one attempt goes: no request is built, or the attempt ends the call, or the loop goes on. -/
inductive AttemptEffect (c : Client) (env : Env) (call : Call) (body : Bytes) (remaining n : Nat) :
    Traced Action Err Unit → Prop
  | unbuilt {asked : List Action} {e : Err}
      (hasked : ∀ a ∈ asked, a = .token call.sessionID) :
      AttemptEffect c env call body remaining n ⟨asked, .error e⟩
  | ended {asked decoded : List Action} {req : Request} {result : Except Err Unit}
      (hasked : ∀ a ∈ asked, a = .token call.sessionID)
      (hreq : req.method = call.method ∧ req.path = requestPath c call.path ∧ req.body = body)
      (hresult : result = .ok () ↔ (env.exchange n).Accepted c call)
      (hdecoded : decoded = [] ∨
        ∃ resp, (env.exchange n).answer = .ok resp ∧ decoded = [.decode resp.body]) :
      AttemptEffect c env call body remaining n ⟨asked ++ .send req :: decoded, result⟩
  | again {asked : List Action} {req : Request} {e : Err}
      (hasked : ∀ a ∈ asked, a = .token call.sessionID)
      (hreq : req.method = call.method ∧ req.path = requestPath c call.path ∧ req.body = body)
      (hretry : (env.exchange n).Retryable) (hbackoff : (env.exchange n).backoff = none)
      (hremaining : 0 < remaining) :
      AttemptEffect c env call body remaining n
        ⟨asked ++ .send req :: (attemptLoop c env call body remaining (n + 1) (some e)).calls,
          (attemptLoop c env call body remaining (n + 1) (some e)).result⟩

theorem not_accepted_of_error {e : Err} (h : (env.exchange n).answer = .error e) :
    ¬(env.exchange n).Accepted c call := by
  rintro ⟨resp, hresp, -⟩
  rw [h] at hresp
  cases hresp

theorem accepted_iff_of_ok (h : (env.exchange n).answer = .ok resp) :
    (env.exchange n).Accepted c call ↔ resp.Accepted c call := by
  unfold Exchange.Accepted
  simp [h]

theorem not_accepted_of_retryable (h : (env.exchange n).Retryable) :
    ¬(env.exchange n).Accepted c call := by
  unfold Exchange.Retryable at h
  cases hanswer : (env.exchange n).answer with
  | error e =>
      exact not_accepted_of_error hanswer
  | ok resp =>
      rw [accepted_iff_of_ok hanswer]
      rw [hanswer] at h
      rintro ⟨hstatus, -⟩
      simp only [retryableResponse, Bool.or_eq_true, beq_iff_eq] at h
      omega

theorem attemptLoop_effect
    (h : c.maxBodyBytes ≠ Int64.maxValue) (remaining : Nat) (lastErr : Option Err) :
    AttemptEffect c env call body remaining n
      (attemptLoop c env call body (remaining + 1) n lastErr) := by
  have hasked := newRequest_quiet c env call body n
  unfold attemptLoop
  cases hbuilt : (newRequest c env call body n).result with
  | error e =>
      rw [Traced.bind_of_error hbuilt]
      exact .unbuilt hasked
  | ok req =>
      have hreq := newRequest_carries hbuilt
      rw [Traced.bind_of_ok hbuilt, Traced.call_bind]
      cases hanswer : (env.exchange n).answer with
      | error e =>
          have hfailed : ∀ e', AttemptEffect c env call body remaining n
              ⟨(newRequest c env call body n).calls ++ [.send req], .error e'⟩ :=
            fun e' => .ended hasked hreq
              (iff_of_false (by simp) (not_accepted_of_error hanswer)) (.inl rfl)
          cases hcontext : (env.exchange n).contextError with
          | some e' =>
              exact hfailed _
          | none =>
              by_cases hremaining : 0 < remaining
              · simp only [if_pos hremaining]
                cases hbackoff : (env.exchange n).backoff with
                | some e' =>
                    exact hfailed _
                | none =>
                    refine .again hasked hreq ?_ hbackoff hremaining
                    simpa [Exchange.Retryable, hanswer] using hcontext
              · simp only [if_neg hremaining]
                exact hfailed _
      | ok resp =>
          obtain ⟨err, hhandled, hnone, hcalls⟩ := handleResponse_spec env call resp h
          have hended : ∀ result : Except Err Unit, (result = .ok () ↔ err = none) →
              AttemptEffect c env call body remaining n
                ⟨(newRequest c env call body n).calls ++
                    .send req :: ((handleResponse c env call resp).calls ++ []), result⟩ := by
            intro result hresult
            rw [List.append_nil]
            refine .ended hasked hreq ?_ ?_
            · rw [hresult, hnone, accepted_iff_of_ok hanswer]
            · exact hcalls.imp id fun hdecode => ⟨resp, hanswer, hdecode.1⟩
          dsimp only
          rw [Traced.bind_of_ok hhandled]
          cases err with
          | none =>
              exact hended (.ok ()) (by simp)
          | some e =>
              by_cases hstop : remaining = 0 ∨ retryableResponse resp.status = false
              · simp only [if_pos hstop]
                exact hended (.error e) (by simp)
              · simp only [if_neg hstop]
                cases hbackoff : (env.exchange n).backoff with
                | some e' =>
                    exact hended (.error e') (by simp)
                | none =>
                    -- the decoder is called for 2xx only, so nothing was decoded here
                    have hretry : retryableResponse resp.status = true := by simp_all
                    have hcalls' : (handleResponse c env call resp).calls = [] := by
                      refine hcalls.resolve_right ?_
                      rintro ⟨-, hstatus⟩
                      simp only [retryableResponse, Bool.or_eq_true, beq_iff_eq] at hretry
                      omega
                    rw [hcalls', List.nil_append]
                    refine .again hasked hreq ?_ hbackoff (by omega)
                    simpa [Exchange.Retryable, hanswer] using hretry

section Sends

variable {asked rest : List Action} {req : Request} {result : Except Err Unit}

theorem filterMap_sent_asked (hasked : ∀ a ∈ asked, a = .token call.sessionID) :
    asked.filterMap Action.sent = [] := by
  rw [List.filterMap_eq_nil_iff]
  intro a ha
  rw [hasked a ha]
  rfl

theorem sends_asked (hasked : ∀ a ∈ asked, a = .token call.sessionID) :
    sends ⟨asked, result⟩ = [] :=
  filterMap_sent_asked hasked

theorem sends_send (hasked : ∀ a ∈ asked, a = .token call.sessionID) :
    sends ⟨asked ++ .send req :: rest, result⟩ = req :: sends ⟨rest, result⟩ := by
  unfold sends
  rw [List.filterMap_append, filterMap_sent_asked hasked, List.nil_append]
  rfl

/-- What is decoded is decoded after the request. -/
theorem split_decode
    {before after : List Action} {body' : Bytes}
    (hasked : ∀ a ∈ asked, a = .token call.sessionID)
    (h : asked ++ .send req :: rest = before ++ .decode body' :: after) :
    ∃ before', rest = before' ++ .decode body' :: after := by
  have hnot : Action.decode body' ∉ asked ++ [.send req] := by
    simp only [List.mem_append, List.mem_singleton, reduceCtorEq, or_false]
    intro hmem
    cases hasked _ hmem
  rw [List.append_cons] at h
  obtain ⟨before', -, hrest⟩ := Traced.split_of_notMem hnot h
  exact ⟨before', hrest⟩

end Sends

/-- A call that has sent nothing and failed. -/
theorem RetryLaw.of_unsent
    {asked : List Action} {e : Err} {remaining : Nat}
    (hasked : ∀ a ∈ asked, a = .token call.sessionID) :
    RetryLaw c env call body remaining n ⟨asked, .error e⟩ where
  bounded := by simp [sends_asked hasked]
  again := by simp [sends_asked hasked]
  same := by simp [sends_asked hasked]
  success := by simp [sends_asked hasked]
  written := by
    intro before body' after hcalls
    have hmem : .decode body' ∈ asked := by
      rw [show asked = _ from hcalls]
      simp
    cases hasked _ hmem

/-- A call that ends with its first request. -/
theorem RetryLaw.of_ended
    {asked decoded : List Action} {req : Request} {result : Except Err Unit} {remaining : Nat}
    (hasked : ∀ a ∈ asked, a = .token call.sessionID)
    (hreq : req.method = call.method ∧ req.path = requestPath c call.path ∧ req.body = body)
    (hresult : result = .ok () ↔ (env.exchange n).Accepted c call)
    (hdecoded : decoded = [] ∨
      ∃ resp, (env.exchange n).answer = .ok resp ∧ decoded = [.decode resp.body]) :
    RetryLaw c env call body (remaining + 1) n ⟨asked ++ .send req :: decoded, result⟩ := by
  have hsends : sends ⟨asked ++ .send req :: decoded, result⟩ = [req] := by
    rw [sends_send hasked]
    rcases hdecoded with rfl | ⟨resp, -, rfl⟩ <;> rfl
  refine ⟨by simp [hsends], by simp [hsends], by simpa [hsends] using hreq, ?_, ?_⟩
  · simpa [hsends] using hresult
  · intro before body' after hcalls
    obtain ⟨before', hrest⟩ := split_decode hasked hcalls
    rcases hdecoded with rfl | ⟨resp, hanswer, rfl⟩
    · simp at hrest
    · obtain ⟨rfl, hbody, rfl⟩ : before' = [] ∧ resp.body = body' ∧ after = [] := by
        cases before' <;> simp_all
      exact ⟨rfl, 0, resp, by simp [hsends], hanswer, hbody.symm⟩

/-- One attempt more before a call that keeps the law. -/
theorem RetryLaw.of_again
    {asked : List Action} {req : Request} {t : Traced Action Err Unit} {remaining : Nat}
    (hasked : ∀ a ∈ asked, a = .token call.sessionID)
    (hreq : req.method = call.method ∧ req.path = requestPath c call.path ∧ req.body = body)
    (hretry : (env.exchange n).Retryable) (hbackoff : (env.exchange n).backoff = none)
    (ht : RetryLaw c env call body remaining (n + 1) t) :
    RetryLaw c env call body (remaining + 1) n ⟨asked ++ .send req :: t.calls, t.result⟩ := by
  have hsends : sends ⟨asked ++ .send req :: t.calls, t.result⟩ = req :: sends t :=
    sends_send hasked
  have hshift : ∀ i, n + 1 + i = n + (i + 1) := by omega
  constructor
  case bounded =>
    rw [hsends]
    exact Nat.succ_le_succ ht.bounded
  case again =>
    intro i hi
    rw [hsends] at hi
    cases i with
    | zero =>
        exact ⟨hretry, hbackoff⟩
    | succ i =>
        rw [← hshift]
        exact ht.again i (Nat.lt_of_succ_lt_succ hi)
  case same =>
    rw [hsends, List.forall_mem_cons]
    exact ⟨hreq, ht.same⟩
  case success =>
    rw [ht.success, hsends]
    constructor
    · rintro ⟨i, hlength, haccepted⟩
      exact ⟨i + 1, by rw [List.length_cons, hlength], hshift i ▸ haccepted⟩
    · rintro ⟨i, hlength, haccepted⟩
      cases i with
      | zero =>
          exact absurd haccepted (not_accepted_of_retryable hretry)
      | succ i =>
          exact ⟨i, Nat.succ.inj hlength, (hshift i).symm ▸ haccepted⟩
  case written =>
    intro before body' after hcalls
    obtain ⟨before', hrest⟩ := split_decode hasked hcalls
    obtain ⟨hafter, i, resp, hlength, hanswer, hbody⟩ := ht.written _ _ _ hrest
    refine ⟨hafter, i + 1, resp, ?_, ?_, hbody⟩
    · rw [hsends, List.length_cons, hlength]
    · rw [← hshift]
      exact hanswer

/-- An attempt keeps the law if the attempts after it do. -/
theorem RetryLaw.of_effect
    {t : Traced Action Err Unit} {remaining : Nat}
    (heffect : AttemptEffect c env call body remaining n t)
    (hnext : 0 < remaining → ∀ lastErr, RetryLaw c env call body remaining (n + 1)
      (attemptLoop c env call body remaining (n + 1) lastErr)) :
    RetryLaw c env call body (remaining + 1) n t := by
  cases heffect with
  | unbuilt hasked =>
      exact .of_unsent hasked
  | ended hasked hreq hresult hdecoded =>
      exact .of_ended hasked hreq hresult hdecoded
  | again hasked hreq hretry hbackoff hremaining =>
      exact .of_again hasked hreq hretry hbackoff (hnext hremaining _)

/-- The law of the loop, by induction on the attempts left. -/
theorem attemptLoop_law
    (h : c.maxBodyBytes ≠ Int64.maxValue) (remaining : Nat) (lastErr : Option Err) :
    RetryLaw c env call body (remaining + 1) n
      (attemptLoop c env call body (remaining + 1) n lastErr) := by
  induction remaining generalizing n lastErr with
  | zero =>
      exact .of_effect (attemptLoop_effect h 0 lastErr) fun hlt => absurd hlt (lt_irrefl 0)
  | succ remaining ih =>
      exact .of_effect (attemptLoop_effect h (remaining + 1) lastErr) fun _ lastErr' => ih lastErr'

/-- The attempts that a client may make, without the bound of `int`. -/
def maxAttempts (c : Client) (method : String) : Nat :=
  if isIdempotent method then 1 + c.maxRetries.toInt.toNat else 1

theorem maxAttempts_eq_add_one (c : Client) (method : String) :
    maxAttempts c method = (maxAttempts c method - 1) + 1 := by
  unfold maxAttempts
  split_ifs <;> omega

theorem attempts_eq
    {method : String} (hnonneg : 0 ≤ c.maxRetries) (hlt : c.maxRetries < Int64.maxValue) :
    (attempts c method).toInt.toNat = maxAttempts c method := by
  have hnonneg' : 0 ≤ c.maxRetries.toInt := Int64.le_iff_toInt_le.mp hnonneg
  unfold attempts maxAttempts
  cases isIdempotent method with
  | false =>
      rfl
  | true =>
      simp only [Bool.true_and, decide_eq_true_eq, if_true]
      split_ifs with hpos
      · have hpos' : 0 < c.maxRetries.toInt := Int64.lt_iff_toInt_lt.mp hpos
        rw [Int64.add_comm, toInt_add_one hpos' (Int64.ne_of_lt hlt)]
        omega
      · have hzero : ¬0 < c.maxRetries.toInt := fun h => hpos (Int64.lt_iff_toInt_lt.mpr h)
        rw [show c.maxRetries.toInt.toNat = 0 by omega]
        rfl

/-- The body of every request of a call. -/
def Call.payload (call : Call) : Bytes :=
  match call.input with
  | some (.ok body) => body
  | _ => []

/-- **Retries are bounded and safe**, whatever the upstream answers and wherever the context
ends. -/
theorem doJSON_retries
    (c : Client) (env : Env) (call : Call)
    (hnonneg : 0 ≤ c.maxRetries) (hlt : c.maxRetries < Int64.maxValue)
    (hbody : c.maxBodyBytes < Int64.maxValue) :
    RetryLaw c env call call.payload (maxAttempts c call.method) 0 (doJSON c env call) := by
  unfold doJSON Call.payload
  rw [attempts_eq hnonneg hlt, maxAttempts_eq_add_one]
  cases call.input with
  | none =>
      exact attemptLoop_law (Int64.ne_of_lt hbody) _ _
  | some marshalled =>
      cases marshalled with
      | error e =>
          exact .of_unsent (by simp)
      | ok body =>
          exact attemptLoop_law (Int64.ne_of_lt hbody) _ _

/-- A client with one retry meets a 503, then an empty 204. -/
theorem doJSON_retries_once :
    let c : Client := ⟨⟨"https", "api.example", ""⟩, false, 1, 1048576⟩
    let busy : Exchange := ⟨.ok "", .ok ⟨503, [], none⟩, none, none⟩
    let served : Exchange := ⟨.ok "", .ok ⟨204, [], none⟩, none, none⟩
    let env : Env := ⟨"", "", fun _ _ => none, fun _ => "", fun n => if n = 0 then busy else served⟩
    let call : Call := ⟨"", "GET", "/items", none, none⟩
    (sends (doJSON c env call)).length = 2 ∧
      RetryLaw c env call call.payload 2 0 (doJSON c env call) :=
  ⟨by decide, doJSON_retries _ _ _ (by decide) (by decide) (by decide)⟩

end Retries

section SingleAttempt

variable {c : Client} {env : Env} {call : Call} {body : Bytes}

/-- The request of a call that asks for no token. -/
def plainRequest (c : Client) (env : Env) (call : Call) (body : Bytes) : Request :=
  ⟨call.method, requestPath c call.path, requestHeaders env body, body⟩

/-- What a call makes of the error that `handleResponse` returned. -/
def outcome (handled : Traced Action Err (Option Err)) : Except Err Unit :=
  match handled.result with
  | .error e => .error e
  | .ok (some e) => .error e
  | .ok none => .ok ()

/-- A call that is not repeated and asks for no token: one request, and its response. -/
theorem doJSON_single
    (hmethod : isIdempotent call.method = false) (htoken : usesToken c call = false)
    (hinput : call.input = some (.ok body)) :
    doJSON c env call =
      match env.buildError call.method (requestPath c call.path) with
      | some e => .stop e
      | none =>
          match (env.exchange 0).answer with
          | .error e =>
              ⟨[.send (plainRequest c env call body)],
                .error (requestError ((env.exchange 0).contextError.getD e))⟩
          | .ok resp =>
              ⟨.send (plainRequest c env call body) :: (handleResponse c env call resp).calls,
                outcome (handleResponse c env call resp)⟩ := by
  have hattempts : (attempts c call.method).toInt.toNat = 1 := by
    rw [attempts, hmethod]
    rfl
  unfold doJSON
  rw [hinput]
  dsimp only
  rw [hattempts, attemptLoop, newRequest]
  cases env.buildError call.method (requestPath c call.path) with
  | some e => rfl
  | none =>
      have hbuilt : (Traced.done (plainRequest c env call body) :
          Traced Action Err Request).result = .ok (plainRequest c env call body) := rfl
      simp only [htoken, Bool.false_eq_true, if_false]
      rw [← plainRequest, Traced.bind_of_ok hbuilt, Traced.call_bind]
      cases (env.exchange 0).answer with
      | error e =>
          cases (env.exchange 0).contextError <;> rfl
      | ok resp =>
          dsimp only
          cases hhandled : (handleResponse c env call resp).result with
          | error e =>
              rw [Traced.bind_of_error hhandled, outcome, hhandled]
              rfl
          | ok err =>
              rw [Traced.bind_of_ok hhandled, outcome, hhandled]
              cases err <;> simp [Traced.done, Traced.stop]

end SingleAttempt

end Outbound
end GatewayRuntime
