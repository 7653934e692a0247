import GatewayRuntime.Lib.JsonWire
import GatewayRuntime.OutboundRetries
import GatewayRuntime.StorageTypes

/-!
# The access policy

`accesspolicy.Remote`, which asks a policy service for a decision, and the service that the
deployment under `deploy/compose/access-policy` runs.

The question travels as a JSON body that `json.Marshal` writes and `json.loads` reads, and the
decision as one that `json.dumps` writes and `json.Unmarshal` reads.  Whatever is in the
question, the service decides about exactly that question: nothing in a subject can pass for
another field.  The network may lose a message or cut a response off, but what it delivers is
what was sent (`Delivers`).

`Service.textOf` is what `str` makes of a number, an array or an object; no question has one.
-/

namespace GatewayRuntime
namespace AccessPolicy

open GoJson GoText
open Outbound (Bytes Client)
open Storage (AccessRequest Decision StringMap)

section Service

/-- The characters that `str.strip` removes. -/
def isPythonSpace (c : Char) : Bool :=
  isSpace c || (decide (0x1C ≤ c.toNat) && decide (c.toNat ≤ 0x1F))

/-- `str.strip`. -/
def strip (s : String) : String :=
  String.ofList ((s.toList.dropWhile isPythonSpace).rdropWhile isPythonSpace)

/-- The service, with `SUBJECT_ROLES` and `ROLE_RULES`. -/
structure Service where
  subjectRoles : Finmap fun _ : String => List String
  roleRules : Finmap fun _ : String => List String
  textOf : Json → String

/-- A response of the service. -/
structure Answer where
  status : Int
  body : Bytes

/-- `send_json`. -/
def sendJson (status : Int) (payload : List (String × Json)) : Answer :=
  ⟨status, encodeBody dumpsStyle (.object payload)⟩

variable (svc : Service)

/-- `str`. -/
def Service.str : Json → String
  | .string s => s
  | .null => "None"
  | .bool true => "True"
  | .bool false => "False"
  | v => svc.textOf v

/-- The test of `is_allowed` for the rules of one role. -/
def Service.roleAllows (action target role : String) : Bool :=
  let rules := (svc.roleRules.lookup role).getD []
  rules.contains (action ++ ":" ++ target) || rules.contains (action ++ ":*") ||
    rules.contains ("*:" ++ target) || rules.contains "*:*"

/-- `is_allowed`: the first role of the subject that allows it. -/
def Service.isAllowed (subject action target : String) : Option String :=
  ((svc.subjectRoles.lookup subject).getD []).find? (svc.roleAllows action target)

/-- `str(body.get(name, "")).strip()`; of repeated names the last one counts. -/
def Service.field (members : List (String × Json)) (name : String) : String :=
  strip (svc.str ((members.reverse.lookup name).getD (.string "")))

/-- The answer to a body that is an object. -/
def Service.decide (members : List (String × Json)) : Answer :=
  let subject := svc.field members "subject"
  let action := svc.field members "action"
  let target := svc.field members "target"
  if subject = "" ∨ action = "" ∨ target = "" then
    sendJson 400 [("error", .string "invalid_request")]
  else
    match svc.isAllowed subject action target with
    | some role =>
        sendJson 200 [("allow", .bool true), ("reason", .string ("allowed_by_role:" ++ role))]
    | none => sendJson 200 [("allow", .bool false), ("reason", .string "target_not_allowed")]

/-- `do_POST`; an exception is answered with 500. -/
def Service.doPost (path : String) (body : Bytes) : Answer :=
  if path ≠ "/v1/authorize" then sendJson 404 [("error", .string "not_found")]
  else
    match if body.length = 0 then some (.object []) else decodeBody body with
    | some (.object members) => svc.decide members
    | _ => sendJson 500 [("error", .string "policy_error")]

end Service

section Remote

/-- `accesspolicy.Remote`, with the errors of `json.Unmarshal`. -/
structure Remote where
  http : Option Client
  jsonError : Bytes → Err

/-- The members of a map in the order of `json.Marshal`. -/
def mapMembers (m : StringMap) : List (String × Json) :=
  (m.keys.sort (· ≤ ·)).map fun key => (key, .string ((m.lookup key).getD ""))

/-- The members of the JSON object of a `Request`. -/
def requestMembers (req : AccessRequest) : List (String × Json) :=
  ("subject", .string req.subject) :: ("action", .string req.action) ::
    ("target", .string req.target) ::
      if Storage.mapLen req.context = 0 then []
      else [("context", .object (mapMembers req.context))]

/-- A `Decision` from its JSON value. -/
def decodeDecision : Json → Option Decision :=
  decodeStruct ⟨false, ""⟩ fun decision name value =>
    if equalFold name "allow" then
      (boolField decision.allow value).map fun b => { decision with allow := b }
    else if equalFold name "reason" then
      (stringField decision.reason value).map fun s => { decision with reason := s }
    else some decision

/-- `json.Unmarshal` of a body into a `Decision`. -/
def readDecision (body : Bytes) : Option Decision :=
  (decodeBody body).bind decodeDecision

/-- The call of `DoJSON` for a question. -/
def Remote.call (r : Remote) (req : AccessRequest) : Outbound.Call where
  sessionID := ""
  method := "POST"
  path := "/v1/authorize"
  input := some (.ok (encodeBody marshalStyle (.object (requestMembers req))))
  out := some fun body => if (readDecision body).isSome then none else some (r.jsonError body)

/-- The `Decision` that a call has left in `out`. -/
def decided (calls : List Outbound.Action) : Decision :=
  match calls.getLast? with
  | some (.decode body) => (readDecision body).getD ⟨false, ""⟩
  | _ => ⟨false, ""⟩

/-- The question as it is asked. -/
def trimmed (req : AccessRequest) : AccessRequest :=
  { req with
    subject := trimSpace req.subject
    action := trimSpace req.action
    target := trimSpace req.target }

/-- `Remote.Authorize`. -/
def Remote.authorize (r : Remote) (env : Outbound.Env) (req : AccessRequest) :
    Traced Outbound.Action Err Decision :=
  match r.http with
  | none => .stop (.text "access policy client is not configured")
  | some client =>
      let req := trimmed req
      if req.subject = "" ∨ req.action = "" ∨ req.target = "" then
        .stop (.text "subject, action and target are required")
      else
        let t := Outbound.doJSON client env (r.call req)
        ⟨t.calls, t.result.map fun _ => decided t.calls⟩

end Remote

section Rules

variable (svc : Service)

/-- What the rules say: a role of the subject has a rule for the action and the target, where
the rule may have a star for either. -/
def Service.Grants (subject action target : String) : Prop :=
  ∃ role ∈ (svc.subjectRoles.lookup subject).getD [],
    ∃ a ∈ [action, "*"], ∃ t ∈ [target, "*"],
      a ++ ":" ++ t ∈ (svc.roleRules.lookup role).getD []

variable {svc} {subject action target : String}

theorem Service.roleAllows_iff {role : String} :
    svc.roleAllows action target role = true ↔
      ∃ a ∈ [action, "*"], ∃ t ∈ [target, "*"],
        a ++ ":" ++ t ∈ (svc.roleRules.lookup role).getD [] := by
  have hstar : action ++ ":*" = action ++ ":" ++ "*" := by
    rw [String.append_assoc]
    rfl
  simp only [Service.roleAllows, hstar, Bool.or_eq_true, List.contains_iff_mem, List.mem_cons,
    List.not_mem_nil, or_false, exists_eq_or_imp, exists_eq_left, or_assoc]
  rfl

/-- `is_allowed` finds a role exactly when the rules grant the request. -/
theorem Service.isAllowed_isSome_iff :
    (svc.isAllowed subject action target).isSome = true ↔ svc.Grants subject action target := by
  rw [Service.isAllowed, List.find?_isSome]
  exact exists_congr fun role => and_congr_right fun _ => svc.roleAllows_iff

end Rules

section Question

theorem memberDepth_mapMembers (m : StringMap) : memberDepth (mapMembers m) = 0 := by
  unfold mapMembers
  induction m.keys.sort (· ≤ ·) with
  | nil => rfl
  | cons key keys ih =>
      rw [List.map_cons, memberDepth, ih]
      rfl

theorem depth_requestMembers (req : AccessRequest) :
    depth (.object (requestMembers req)) ≤ maxNestingDepth := by
  have hdepth : depth (.object (requestMembers req)) ≤ 2 := by
    unfold requestMembers
    split_ifs <;> simp [depth, memberDepth, memberDepth_mapMembers]
  exact hdepth.trans (by decide)

theorem encodeBody_ne_nil
    (style : Style) {v : Json} (h : depth v ≤ maxNestingDepth) :
    encodeBody style v ≠ [] := by
  intro hnil
  have hread := decodeBody_encodeBody style h
  rw [hnil] at hread
  cases hread

/-- The service finds the fields of the question in its body. -/
theorem field_requestMembers (svc : Service) (req : AccessRequest) :
    svc.field (requestMembers req) "subject" = strip req.subject ∧
      svc.field (requestMembers req) "action" = strip req.action ∧
      svc.field (requestMembers req) "target" = strip req.target := by
  unfold Service.field requestMembers
  split_ifs <;> exact ⟨rfl, rfl, rfl⟩

/-- The service decides about the question that was asked. -/
theorem doPost_request (svc : Service) (req : AccessRequest) :
    svc.doPost "/v1/authorize" (encodeBody marshalStyle (.object (requestMembers req))) =
      svc.decide (requestMembers req) := by
  have hdepth := depth_requestMembers req
  have hbody : ¬(encodeBody marshalStyle (.object (requestMembers req))).length = 0 :=
    fun hlength => encodeBody_ne_nil marshalStyle hdepth (List.length_eq_zero_iff.mp hlength)
  rw [Service.doPost, if_neg (by simp), if_neg hbody, decodeBody_encodeBody marshalStyle hdepth]

/-- The runtime reads the decision that was sent. -/
theorem readDecision_sendJson (allow : Bool) (reason : String) :
    readDecision (sendJson 200 [("allow", .bool allow), ("reason", .string reason)]).body =
      some ⟨allow, reason⟩ := by
  have hdepth : depth (.object [("allow", .bool allow), ("reason", .string reason)]) ≤
      maxNestingDepth := by
    simp [depth, memberDepth, maxNestingDepth]
  have hallow : equalFold "allow" "allow" = true := by decide
  have hother : equalFold "reason" "allow" = false := by decide
  have hreason : equalFold "reason" "reason" = true := by decide
  rw [readDecision, sendJson, decodeBody_encodeBody dumpsStyle hdepth]
  simp [decodeDecision, decodeStruct, hallow, hother, hreason, boolField, stringField]

/-- The service allows the question. -/
structure Service.Allows (svc : Service) (req : AccessRequest) : Prop where
  subject : strip req.subject ≠ ""
  action : strip req.action ≠ ""
  target : strip req.target ≠ ""
  granted : svc.Grants (strip req.subject) (strip req.action) (strip req.target)

/-- The answer to a question carries a decision, and the decision is what the rules say. -/
theorem decide_requestMembers (svc : Service) (req : AccessRequest) :
    (∃ allow reason, (allow = true ↔ svc.Allows req) ∧ svc.decide (requestMembers req) =
        sendJson 200 [("allow", .bool allow), ("reason", .string reason)]) ∨
      ¬svc.Allows req ∧ svc.decide (requestMembers req) =
        sendJson 400 [("error", .string "invalid_request")] := by
  obtain ⟨hsubject, haction, htarget⟩ := field_requestMembers svc req
  unfold Service.decide
  rw [hsubject, haction, htarget]
  by_cases hblank : strip req.subject = "" ∨ strip req.action = "" ∨ strip req.target = ""
  · refine Or.inr ⟨?_, if_pos hblank⟩
    rintro ⟨hs, ha, ht, -⟩
    rcases hblank with h | h | h
    · exact hs h
    · exact ha h
    · exact ht h
  · left
    rw [not_or, not_or] at hblank
    have hallowed := @Service.isAllowed_isSome_iff svc (strip req.subject) (strip req.action)
      (strip req.target)
    simp only [hblank.1, hblank.2.1, hblank.2.2, or_self, if_false]
    cases hrole : svc.isAllowed (strip req.subject) (strip req.action) (strip req.target) with
    | some role =>
        rw [hrole] at hallowed
        exact ⟨true, _, iff_of_true rfl ⟨hblank.1, hblank.2.1, hblank.2.2, hallowed.mp rfl⟩, rfl⟩
    | none =>
        rw [hrole] at hallowed
        exact ⟨false, _, iff_of_false (by simp) fun h => by simpa using hallowed.mpr h.granted, rfl⟩

end Question

section Asking

variable {svc : Service} {r : Remote} {client : Client} {env : Outbound.Env} {req : AccessRequest}

/-- The network around a call: a response that it delivers is the answer of the service to the
request for `path` with `body`, unless it is cut off. -/
def Delivers (svc : Service) (path : String) (body : Bytes) (env : Outbound.Env) : Prop :=
  ∀ resp, (env.exchange 0).answer = .ok resp →
    resp.status = (svc.doPost path body).status ∧
      (resp.readError = none → resp.body = (svc.doPost path body).body)

/-- The body of a question. -/
def requestBody (req : AccessRequest) : Bytes :=
  encodeBody marshalStyle (.object (requestMembers (trimmed req)))

/-- The request for a decision. -/
def Remote.request (r : Remote) (client : Client) (env : Outbound.Env) (req : AccessRequest) :
    Outbound.Request :=
  Outbound.plainRequest client env (r.call (trimmed req)) (requestBody req)

theorem doJSON_call :
    Outbound.doJSON client env (r.call (trimmed req)) =
      match env.buildError "POST" (Outbound.requestPath client "/v1/authorize") with
      | some e => .stop e
      | none =>
          match (env.exchange 0).answer with
          | .error e =>
              ⟨[.send (r.request client env req)],
                .error (Outbound.requestError ((env.exchange 0).contextError.getD e))⟩
          | .ok resp =>
              ⟨.send (r.request client env req) ::
                  (Outbound.handleResponse client env (r.call (trimmed req)) resp).calls,
                Outbound.outcome (Outbound.handleResponse client env (r.call (trimmed req)) resp)⟩ :=
  Outbound.doJSON_single rfl rfl rfl

/-- A response that carries a decision. -/
structure Carries (client : Client) (resp : Outbound.Response) (d : Decision) : Prop where
  status : 200 ≤ resp.status ∧ resp.status < 300
  whole : resp.readError = none
  size : resp.body.length ≤ (Outbound.bodyLimit client).toInt
  read : readDecision resp.body = some d

/-- The response to a question is not decoded, or it is a whole success that is. -/
theorem handleResponse_cases
    (hlimit : client.maxBodyBytes ≠ Int64.maxValue) (resp : Outbound.Response) :
    (∃ err, Outbound.handleResponse client env (r.call (trimmed req)) resp = .done err) ∨
      ((200 ≤ resp.status ∧ resp.status < 300) ∧ resp.readError = none ∧
        resp.body.length ≤ (Outbound.bodyLimit client).toInt) ∧
      Outbound.handleResponse client env (r.call (trimmed req)) resp =
        ⟨[.decode resp.body], .ok (if (readDecision resp.body).isSome then none
          else some (.wrap "decode outbound response: " "" (r.jsonError resp.body)))⟩ := by
  rw [Outbound.handleResponse_eq env _ resp hlimit]
  by_cases hlong : (Outbound.bodyLimit client).toInt < resp.body.length
  · exact Or.inl ⟨_, if_pos hlong⟩
  rw [if_neg hlong]
  cases hread : resp.readError with
  | some e => exact Or.inl ⟨_, rfl⟩
  | none =>
      by_cases hstatus : resp.status < 200 ∨ 300 ≤ resp.status
      · exact Or.inl ⟨_, if_pos hstatus⟩
      by_cases hempty : resp.body.length = 0
      · exact Or.inl ⟨none, by simp [hstatus, Outbound.decodeWhole, Remote.call, hempty]⟩
      · refine Or.inr ⟨⟨by omega, rfl, by omega⟩, ?_⟩
        simp only [hstatus, if_false, Outbound.decodeWhole, Remote.call, hempty]
        cases (readDecision resp.body).isSome <;> rfl

/-- **A decision that allows has been read** from the response to one request. -/
theorem authorize_allow
    (hlimit : ∀ client, r.http = some client → client.maxBodyBytes ≠ Int64.maxValue)
    {d : Decision} (h : (r.authorize env req).result = .ok d) (hallow : d.allow = true) :
    ∃ client resp, r.http = some client ∧ (env.exchange 0).answer = .ok resp ∧
      Carries client resp d ∧
      (r.authorize env req).calls = [.send (r.request client env req), .decode resp.body] := by
  unfold Remote.authorize at h ⊢
  cases hhttp : r.http with
  | none =>
      rw [hhttp] at h
      cases h
  | some client =>
      rw [hhttp] at h
      dsimp only at h ⊢
      split_ifs at h ⊢ with hblank
      · cases h
      · rw [doJSON_call] at h ⊢
        cases hbuild : env.buildError "POST" (Outbound.requestPath client "/v1/authorize") with
        | some e =>
            rw [hbuild] at h
            cases h
        | none =>
            rw [hbuild] at h
            cases hanswer : (env.exchange 0).answer with
            | error e =>
                rw [hanswer] at h
                cases h
            | ok resp =>
                rw [hanswer] at h
                dsimp only at h ⊢
                rcases @handleResponse_cases r client env req (hlimit client hhttp) resp with
                  ⟨err, hhandled⟩ | ⟨⟨hstatus, hwhole, hsize⟩, hhandled⟩
                · -- What was not decoded is the decision that `Authorize` starts with.
                  rw [hhandled] at h
                  cases err with
                  | some e => cases h
                  | none =>
                      cases h
                      cases hallow
                · rw [hhandled] at h ⊢
                  cases hdecision : readDecision resp.body with
                  | none =>
                      rw [hdecision] at h
                      cases h
                  | some d' =>
                      have hdecided : decided
                          [.send (r.request client env req), .decode resp.body] = d' := by
                        simp [decided, hdecision]
                      rw [hdecision] at h
                      obtain rfl : d' = d := hdecided.symm.trans (Except.ok.inj h)
                      exact ⟨client, resp, rfl, rfl, ⟨hstatus, hwhole, hsize, hdecision⟩, rfl⟩

/-- A response that carries a decision makes it the outcome. -/
theorem authorize_of_carries
    (hhttp : r.http = some client) (hlimit : client.maxBodyBytes ≠ Int64.maxValue)
    (hasked : trimSpace req.subject ≠ "" ∧ trimSpace req.action ≠ "" ∧ trimSpace req.target ≠ "")
    (hbuild : env.buildError "POST" (Outbound.requestPath client "/v1/authorize") = none)
    {resp : Outbound.Response} (hanswer : (env.exchange 0).answer = .ok resp)
    {d : Decision} (hd : Carries client resp d) :
    r.authorize env req = ⟨[.send (r.request client env req), .decode resp.body], .ok d⟩ := by
  have hbody : ¬resp.body.length = 0 := by
    intro hlength
    have hread := hd.read
    rw [List.length_eq_zero_iff.mp hlength] at hread
    cases hread
  have hhandled : Outbound.handleResponse client env (r.call (trimmed req)) resp =
      ⟨[.decode resp.body], .ok none⟩ := by
    rw [Outbound.handleResponse_eq env _ resp hlimit, if_neg (not_lt.mpr hd.size), hd.whole]
    dsimp only
    rw [if_neg (by have := hd.status; omega), Outbound.decodeWhole]
    simp [Remote.call, hbody, hd.read]
  unfold Remote.authorize
  rw [hhttp]
  dsimp only
  rw [if_neg (by simpa [trimmed] using hasked), doJSON_call, hbuild, hanswer]
  dsimp only
  rw [hhandled]
  simp [Outbound.outcome, Except.map, decided, hd.read]

/-- A response that was delivered carries a decision that allows only when the rules say so. -/
theorem Delivers.allows
    {path : String} {resp : Outbound.Response} {d : Decision}
    (hnet : Delivers svc path (requestBody req) env)
    (hanswer : (env.exchange 0).answer = .ok resp) (hd : Carries client resp d)
    (hallow : d.allow = true) :
    svc.Allows (trimmed req) := by
  obtain ⟨hstatus, hbody⟩ := hnet resp hanswer
  have hread := hd.read
  have hsuccess := hd.status
  rw [hstatus] at hsuccess
  rw [hbody hd.whole] at hread
  by_cases hpath : path = "/v1/authorize"
  · subst hpath
    rw [requestBody, doPost_request] at hread hsuccess
    rcases decide_requestMembers svc (trimmed req) with
      ⟨allow, reason, hallows, hanswered⟩ | ⟨-, hanswered⟩
    · rw [hanswered, readDecision_sendJson] at hread
      cases hread
      exact hallows.mp hallow
    · rw [hanswered] at hsuccess
      exact absurd hsuccess.2 (by decide)
  · have hmissing : (svc.doPost path (requestBody req)).status = 404 := by
      rw [Service.doPost, if_pos hpath]
      rfl
    omega

/-- **Only what the rules grant is allowed**, whatever the network loses. -/
theorem allows_of_authorize
    {path : String} {d : Decision}
    (hlimit : ∀ client, r.http = some client → client.maxBodyBytes ≠ Int64.maxValue)
    (hnet : Delivers svc path (requestBody req) env)
    (h : (r.authorize env req).result = .ok d) (hallow : d.allow = true) :
    svc.Allows (trimmed req) := by
  obtain ⟨client, resp, -, hanswer, hd, -⟩ := authorize_allow hlimit h hallow
  exact hnet.allows hanswer hd hallow

/-- The network around a call that loses nothing: the request is built, and the answer of the
service comes back whole and within the limit. -/
structure Reliable (svc : Service) (client : Client) (req : AccessRequest) (env : Outbound.Env) :
    Prop where
  built : env.buildError "POST" (Outbound.requestPath client "/v1/authorize") = none
  answered : (env.exchange 0).answer =
    .ok ⟨(svc.doPost "/v1/authorize" (requestBody req)).status,
      (svc.doPost "/v1/authorize" (requestBody req)).body, none⟩
  fits : (svc.doPost "/v1/authorize" (requestBody req)).body.length ≤
    (Outbound.bodyLimit client).toInt

/-- **Everything that the rules grant is allowed** over a network that loses nothing. -/
theorem authorize_of_allows
    (hhttp : r.http = some client) (hlimit : client.maxBodyBytes ≠ Int64.maxValue)
    (hnet : Reliable svc client req env) (h : svc.Allows (trimmed req)) :
    ∃ d, (r.authorize env req).result = .ok d ∧ d.allow = true := by
  have hnonblank : ∀ s : String, strip s ≠ "" → s ≠ "" := by
    rintro s hs rfl
    exact hs rfl
  have hasked : trimSpace req.subject ≠ "" ∧ trimSpace req.action ≠ "" ∧
      trimSpace req.target ≠ "" :=
    ⟨hnonblank _ h.subject, hnonblank _ h.action, hnonblank _ h.target⟩
  have hfits := hnet.fits
  have hanswered := hnet.answered
  rw [requestBody, doPost_request] at hfits hanswered
  rcases decide_requestMembers svc (trimmed req) with
    ⟨allow, reason, hallows, hdecided⟩ | ⟨hnot, -⟩
  · rw [hdecided] at hfits hanswered
    have hsuccess : (200 : Int) ≤ 200 ∧ (200 : Int) < 300 := by decide
    have hcarries : Carries client ⟨200, (sendJson 200 [("allow", .bool allow),
        ("reason", .string reason)]).body, none⟩ ⟨allow, reason⟩ :=
      ⟨hsuccess, rfl, hfits, readDecision_sendJson allow reason⟩
    refine ⟨⟨allow, reason⟩, ?_, hallows.mpr h⟩
    rw [authorize_of_carries hhttp hlimit hasked hnet.built hanswered hcarries]
  · exact absurd h hnot

end Asking

end AccessPolicy
end GatewayRuntime
