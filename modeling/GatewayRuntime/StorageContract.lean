import GatewayRuntime.PresignTtl
import GatewayRuntime.StorageAuthorization

/-!
# Object keys and references of the storage contract

The rule for object keys is written twice: in `validateStorageRequest`, before a
key is signed, and in `validateObjectKey` of `internal/storagecontract`, which
intents, verifications and references go through.  The second one looks for two
backslashes in a row, so a single backslash passes it (`one_key_rule_iff`).

Two routes hand out a `StorageReference` made from what a provider reported.
`GET /storage/references/metadata` validates it and does not ask whether the
object exists; `POST /storage/intents/verify` asks and does not validate
(`references_usable_iff`).
-/

namespace GatewayRuntime
namespace Storage

open GoText

section ObjectKeys

/-- The part of the rule that both functions have: the trimmed key is not empty, does
not start with a slash and does not contain two dots in a row. -/
def plainKey (k : String) : Bool :=
  !decide (trimSpace k = "") && !hasPrefix (trimSpace k) "/" && !contains (trimSpace k) ".."

theorem contains_backslash_of_two
    {s : String} (h : contains s "\\\\" = true) : contains s "\\" = true := by
  have htwo : ['\\', '\\'] <:+: s.toList := of_decide_eq_true h
  have hone : ['\\'] <:+: ['\\', '\\'] := ⟨['\\'], [], rfl⟩
  exact decide_eq_true (hone.trans htwo)

theorem validateObjectKey_ok_iff (k : String) :
    validateObjectKey k = .ok () ↔
      plainKey k = true ∧ contains (trimSpace k) "\\\\" = false := by
  unfold validateObjectKey plainKey
  generalize trimSpace k = key
  by_cases hempty : key = ""
  · simp [hempty]
  · cases hslash : hasPrefix key "/" <;> cases hdots : contains key ".." <;>
      cases htwo : contains key "\\\\" <;> simp [hempty, hslash, hdots, htwo]

theorem requestKey_ok_iff (input : StorageRequest) (key : String) :
    requestKey input = .ok key ↔
      key = trimSpace input.objectKey ∧ plainKey input.objectKey = true ∧
        contains (trimSpace input.objectKey) "\\" = false := by
  unfold requestKey plainKey
  generalize trimSpace input.objectKey = trimmed
  by_cases hempty : trimmed = ""
  · simp [hempty]
  · cases hslash : hasPrefix trimmed "/" <;> cases hdots : contains trimmed ".." <;>
      cases hone : contains trimmed "\\" <;> simp [hempty, hslash, hdots, hone]
    exact eq_comm

/-- The contract accepts every key that is signed. -/
theorem validateObjectKey_of_requestKey
    {input : StorageRequest} {key : String} (h : requestKey input = .ok key) :
    validateObjectKey key = .ok () := by
  obtain ⟨rfl, hplain, hone⟩ := (requestKey_ok_iff input key).mp h
  rw [validateObjectKey_ok_iff]
  refine ⟨by simpa [plainKey] using hplain, ?_⟩
  rw [trimSpace_trimSpace, ← Bool.not_eq_true]
  intro htwo
  rw [contains_backslash_of_two htwo] at hone
  cases hone

/-- With valid other fields a storage request is accepted if its key is. -/
theorem validateStorageRequest_ok_iff
    {input : StorageRequest} {cfg : Config} {bucket : String} {ttl : Duration}
    (hbucket : requestBucket input cfg = .ok bucket)
    (httl : requestTTL input cfg = .ok ttl) :
    (∃ req, validateStorageRequest input cfg = .ok req) ↔ ∃ key, requestKey input = .ok key := by
  constructor
  · rintro ⟨req, hreq⟩
    exact ⟨_, (validateStorageRequest_ok hreq).2.1⟩
  · rintro ⟨key, hkey⟩
    refine ⟨⟨bucket, key, trimSpace input.contentType, ttl⟩, ?_⟩
    unfold validateStorageRequest
    rw [hbucket, hkey, httl]
    rfl

/-- The storage role accepts the key in a request whose other fields are valid. -/
def SignedKey (k : String) : Prop :=
  ∀ (input : StorageRequest) (cfg : Config) (bucket : String) (ttl : Duration),
    input.objectKey = k →
    requestBucket input cfg = .ok bucket →
    requestTTL input cfg = .ok ttl →
    ∃ req, validateStorageRequest input cfg = .ok req

/-- Both functions judge the key alike; and no intent, verification or reference with
this key is valid unless the key is signed. -/
structure OneKeyRule (k : String) : Prop where
  same : ∀ (input : StorageRequest) (cfg : Config) (bucket : String) (ttl : Duration),
    input.objectKey = k →
    requestBucket input cfg = .ok bucket →
    requestTTL input cfg = .ok ttl →
    (validateObjectKey k = .ok () ↔ ∃ req, validateStorageRequest input cfg = .ok req)
  intent : ∀ target expiresIn, validateIntent target k expiresIn = .ok () → SignedKey k
  verification : ∀ (i : UploadVerificationIntent) (range : MapRange),
    i.objectKey = k → i.validate range = .ok () → SignedKey k
  reference : ∀ ref : StorageReference, ref.objectKey = k → ref.validate = .ok () → SignedKey k

/-- The key is refused for another reason, or has no backslash, or has two in a row. -/
def JudgedAlike (k : String) : Prop :=
  plainKey k = true → contains (trimSpace k) "\\" = true → contains (trimSpace k) "\\\\" = true

/-- A request with valid other fields, for any key. -/
theorem bucketInput_others (k : String) :
    requestBucket { bucketInput 60 with objectKey := k } bucketConfig = .ok "bucket-a" ∧
      requestTTL { bucketInput 60 with objectKey := k } bucketConfig =
        .ok (60 * Duration.second) := by
  have hbucket : requestBucket (bucketInput 60) bucketConfig = .ok "bucket-a" := rfl
  have httl : requestTTL (bucketInput 60) bucketConfig = .ok (60 * Duration.second) := rfl
  exact ⟨hbucket, httl⟩

theorem signedKey_iff (k : String) :
    SignedKey k ↔ plainKey k = true ∧ contains (trimSpace k) "\\" = false := by
  constructor
  · intro h
    obtain ⟨hbucket, httl⟩ := bucketInput_others k
    obtain ⟨req, hreq⟩ := h _ _ _ _ rfl hbucket httl
    exact ((requestKey_ok_iff _ _).mp (validateStorageRequest_ok hreq).2.1).2
  · rintro hkey input cfg bucket ttl rfl hbucket httl
    rw [validateStorageRequest_ok_iff hbucket httl]
    exact ⟨_, (requestKey_ok_iff input _).mpr ⟨rfl, hkey⟩⟩

/-- What an intent, a verification and a reference have in common: the target is checked, and
then the key. -/
theorem validateObjectKey_of_check
    (target : String) {k : String} {check : Except String Unit}
    (h : check = .ok ())
    (hrefused : ∀ e, validateObjectKey k = .error e →
      check = if trimSpace target = "" then .error "target is required" else .error e) :
    validateObjectKey k = .ok () := by
  cases hkey : validateObjectKey k with
  | error e =>
      rw [hrefused e hkey] at h
      split at h
      · cases h
      · cases h
  | ok _ =>
      rfl

/-- **When there is one rule for a key**: exactly if the key is judged alike, that is,
unless its only fault is a backslash without another one beside it. -/
theorem one_key_rule_iff (k : String) : OneKeyRule k ↔ JudgedAlike k := by
  constructor
  · intro hrule hplain hone
    by_contra htwo
    have hvalid : validateObjectKey k = .ok () :=
      (validateObjectKey_ok_iff k).mpr ⟨hplain, by simpa using htwo⟩
    have hsigned : SignedKey k := fun input cfg bucket ttl hk hbucket httl =>
      (hrule.same input cfg bucket ttl hk hbucket httl).mp hvalid
    rw [((signedKey_iff k).mp hsigned).2] at hone
    cases hone
  · intro halike
    have hsigned : validateObjectKey k = .ok () → SignedKey k := by
      intro hvalid
      obtain ⟨hplain, htwo⟩ := (validateObjectKey_ok_iff k).mp hvalid
      refine (signedKey_iff k).mpr ⟨hplain, ?_⟩
      rw [← Bool.not_eq_true]
      intro hone
      rw [halike hplain hone] at htwo
      cases htwo
    refine ⟨?_, ?_, ?_, ?_⟩
    · rintro input cfg bucket ttl rfl hbucket httl
      refine ⟨fun hvalid => hsigned hvalid input cfg bucket ttl rfl hbucket httl, ?_⟩
      intro haccepted
      obtain ⟨key, hkey⟩ := (validateStorageRequest_ok_iff hbucket httl).mp haccepted
      obtain ⟨rfl, hplain, hone⟩ := (requestKey_ok_iff input key).mp hkey
      have hvalid := (validateObjectKey_ok_iff _).mp (validateObjectKey_of_requestKey hkey)
      rw [trimSpace_trimSpace] at hvalid
      exact (validateObjectKey_ok_iff _).mpr ⟨hplain, hvalid.2⟩
    · intro target expiresIn h
      refine hsigned (validateObjectKey_of_check target h fun e hkey => ?_)
      simp only [validateIntent, hkey]
    · rintro i range rfl h
      refine hsigned (validateObjectKey_of_check i.target h fun e hkey => ?_)
      simp only [UploadVerificationIntent.validate, hkey]
    · rintro ref rfl h
      refine hsigned (validateObjectKey_of_check ref.target h fun e hkey => ?_)
      simp only [StorageReference.validate, hkey]

/-- The contract accepts `a\b` and the storage role does not sign it. -/
theorem one_key_rule_broken :
    validateObjectKey "a\\b" = .ok () ∧
      validateStorageRequest { bucketInput 60 with objectKey := "a\\b" } bucketConfig =
        .error "object_key is invalid" ∧
      ¬OneKeyRule "a\\b" := by
  have hvalid : validateObjectKey "a\\b" = .ok () := by decide
  have hrefused : validateStorageRequest { bucketInput 60 with objectKey := "a\\b" } bucketConfig =
      .error "object_key is invalid" := rfl
  refine ⟨hvalid, hrefused, fun hrule => ?_⟩
  obtain ⟨req, hreq⟩ := (hrule.same { bucketInput 60 with objectKey := "a\\b" } bucketConfig
    "bucket-a" (60 * Duration.second) rfl rfl rfl).mp hvalid
  rw [hrefused] at hreq
  cases hreq

end ObjectKeys

section References

variable {env : Env} {cfg : Config} {r : Request}

/-- The metadata that the provider reports, when the request for it is authorized and
the signer of the target implements `StorageMetadataProvider`. -/
def providerMetadata (cfg : Config) (r : Request) (target : String)
    (q : StorageMetadataRequest) : Option StorageMetadata :=
  match (authorizeStorage cfg r target "storage.metadata" false).result with
  | .error _ => none
  | .ok () =>
      (storageSignerForTarget cfg target).bind fun signer =>
        signer.metadata.bind fun getMetadata => (getMetadata q).toOption

/-- What the provider reports for a request to `GET /storage/references/metadata`, with
the target of the request. -/
def referencesAnswer (cfg : Config) (r : Request) : Option (String × StorageMetadata) :=
  match storageRequestFromQuery r cfg with
  | .error _ => none
  | .ok (req, target) =>
      (providerMetadata cfg r target ⟨req.bucket, req.objectKey⟩).map fun m => (target, m)

/-- What the provider reports for a request to `POST /storage/intents/verify`, with the
intent of the request. -/
def verifyAnswer (env : Env) (cfg : Config) (r : Request) :
    Option (UploadVerificationIntent × StorageMetadata) :=
  match env.json.verificationRequest (256 * 1024) r.body with
  | none => none
  | some input =>
      match (verificationIntent input).validate env.ranges.validate with
      | .error _ => none
      | .ok () =>
          match validateStorageRequest
              ⟨(verificationIntent input).target, "", "", (verificationIntent input).objectKey,
                "", 0⟩ cfg with
          | .error _ => none
          | .ok base =>
              (providerMetadata cfg r (verificationIntent input).target
                ⟨base.bucket, base.objectKey⟩).map fun m => (verificationIntent input, m)

/-- A response that hands out a reference: a 200 answer with one, or with a
verification whose result is that the upload is verified. -/
def HandsOut (resp : Response) (ref : StorageReference) : Prop :=
  resp.status = 200 ∧
    (resp.payload = .reference ref ∨
      ∃ mismatches, resp.payload = .verification ⟨true, ref, mismatches⟩)

/-- The references that a response hands out pass `Validate` and come from metadata in
which the provider reported that the object exists. -/
def HandsOutUsable (resp : Response) (reported : Option (String × StorageMetadata)) : Prop :=
  ∀ ref, HandsOut resp ref →
    ref.validate = .ok () ∧
      ∃ target m, reported = some (target, m) ∧ ref = referenceFromMetadata target m ∧
        m.present = true

/-- The metadata meets the expectations of an intent. -/
def MeetsExpectations (ranges : Ranges) (i : UploadVerificationIntent) (m : StorageMetadata) :
    Prop :=
  sizeMismatch i m = [] ∧ contentTypeMismatch ranges.letters i m = [] ∧
    ∀ kv ∈ ranges.expected i.expectedChecksums,
      checksumMismatch ranges.letters (ranges.actual kv.1 m.checksums) kv.1 kv.2 = []

theorem not_handsOut_of_error
    {resp : Response} (h : 400 ≤ resp.status) (ref : StorageReference) : ¬HandsOut resp ref := by
  rintro ⟨hok, -⟩
  omega

/-- A request that `authorizeStorage` refuses is answered with an error. -/
theorem status_of_authorizeStorage
    {target action : String} {write : Bool} {resp : Response}
    (h : (authorizeStorage cfg r target action write).result = .error resp) :
    400 ≤ resp.status := by
  rcases Nat.eq_zero_or_pos (mapLen cfg.storageTargets) with hreg | hreg
  · rw [authorizeStorage_of_no_registry hreg] at h
    cases h
  · rcases authorizeStorage_cases r hreg target action write with ⟨⟨resp', hresp, hstatus⟩, -⟩ | ⟨hok, -⟩
    · rw [hresp] at h
      cases h
      exact hstatus
    · rw [hok] at h
      cases h

/-- The answer of a route that asks a metadata provider. -/
theorem answer_callSigner_metadata
    {capability target action : String} {write : Bool} {q : StorageMetadataRequest}
    {reply : StorageMetadata → Response} {signer : StorageSigner}
    {getMetadata : StorageMetadataRequest → Except String StorageMetadata}
    (hsigner : storageSignerForTarget cfg target = some signer)
    (hmetadata : signer.metadata = some getMetadata) :
    answer (callSigner cfg capability ⟨target, action, write, .getMetadata q, reply⟩) =
      match getMetadata q with
      | .error _ => storageProviderError
      | .ok m => reply m := by
  have hinvoke : signer.invoke (.getMetadata q) = some (getMetadata q) := by
    rw [StorageSigner.invoke, hmetadata]
    rfl
  unfold callSigner
  simp only [hsigner, hinvoke]
  cases getMetadata q <;> rfl

/-- A handler that asks for metadata answers with what it makes of the provider's
report, and with an error if there is none. -/
theorem answer_serve_metadata
    (cfg : Config) (r : Request) (capability target : String) (q : StorageMetadataRequest)
    (reply : StorageMetadata → Response) :
    (∃ m, providerMetadata cfg r target q = some m ∧
        answer (serve cfg r capability
          (.ok ⟨target, "storage.metadata", false, .getMetadata q, reply⟩)) = reply m) ∨
      (providerMetadata cfg r target q = none ∧
        400 ≤ (answer (serve cfg r capability
          (.ok ⟨target, "storage.metadata", false, .getMetadata q, reply⟩))).status) := by
  unfold serve providerMetadata
  simp only
  cases hauth : (authorizeStorage cfg r target "storage.metadata" false).result with
  | error resp =>
      right
      rw [Traced.bind_of_error hauth]
      exact ⟨rfl, status_of_authorizeStorage hauth⟩
  | ok _ =>
      rw [Traced.bind_of_ok hauth]
      change (∃ m, _ ∧ answer (callSigner cfg capability _) = _) ∨
        _ ∧ 400 ≤ (answer (callSigner cfg capability _)).status
      cases hsigner : storageSignerForTarget cfg target with
      | none =>
          right
          refine ⟨rfl, ?_⟩
          simp only [callSigner, hsigner]
          exact Nat.le_of_ble_eq_true rfl
      | some signer =>
          cases hmetadata : signer.metadata with
          | none =>
              right
              refine ⟨by simp [hmetadata], ?_⟩
              have hinvoke : signer.invoke (.getMetadata q) = none := by
                rw [StorageSigner.invoke, hmetadata]
                rfl
              simp only [callSigner, hsigner, hinvoke]
              exact Nat.le_of_ble_eq_true rfl
          | some getMetadata =>
              rw [answer_callSigner_metadata hsigner hmetadata]
              simp only [Option.bind_some, hmetadata]
              cases getMetadata q with
              | error e =>
                  exact Or.inr ⟨rfl, Nat.le_of_ble_eq_true rfl⟩
              | ok m =>
                  exact Or.inl ⟨m, rfl, rfl⟩

theorem handsOut_referenceReply_iff
    (target : String) (m : StorageMetadata) (ref : StorageReference) :
    HandsOut (referenceReply target m) ref ↔
      ref = referenceFromMetadata target m ∧ ref.validate = .ok () := by
  simp only [referenceReply]
  cases hvalid : (referenceFromMetadata target m).validate with
  | error e =>
      refine iff_of_false (not_handsOut_of_error (Nat.le_of_ble_eq_true rfl) ref) ?_
      rintro ⟨rfl, hok⟩
      rw [hvalid] at hok
      cases hok
  | ok _ =>
      simp only [HandsOut, okNoStore, Payload.reference.injEq, reduceCtorEq, exists_false, or_false,
        true_and]
      constructor
      · rintro rfl
        exact ⟨rfl, hvalid⟩
      · rintro ⟨rfl, -⟩
        rfl

theorem verified_iff
    {ranges : Ranges} {i : UploadVerificationIntent} {m : StorageMetadata}
    {result : UploadVerificationResult}
    (h : verifyUpload ranges i m = .ok result) :
    result.reference = referenceFromMetadata i.target m ∧
      (result.verified = true ↔ m.present = true ∧ MeetsExpectations ranges i m) := by
  unfold verifyUpload at h
  cases hvalid : i.validate ranges.revalidate with
  | error e =>
      rw [hvalid] at h
      cases h
  | ok _ =>
      rw [hvalid] at h
      simp only at h
      split_ifs at h with hpresent
      · cases h
        exact ⟨rfl, by simp [hpresent]⟩
      · cases h
        refine ⟨rfl, ?_⟩
        simp only [Bool.not_eq_false] at hpresent
        simp [hpresent, MeetsExpectations, List.isEmpty_iff]

theorem handsOut_verificationReply_iff
    (env : Env) (i : UploadVerificationIntent) (m : StorageMetadata) (ref : StorageReference) :
    HandsOut (verificationReply env i m) ref ↔
      ref = referenceFromMetadata i.target m ∧ i.validate env.ranges.revalidate = .ok () ∧
        m.present = true ∧ MeetsExpectations env.ranges i m := by
  unfold verificationReply
  cases hverify : verifyUpload env.ranges i m with
  | error e =>
      refine iff_of_false (not_handsOut_of_error (Nat.le_of_ble_eq_true rfl) ref) ?_
      rintro ⟨-, hvalid, -⟩
      unfold verifyUpload at hverify
      rw [hvalid] at hverify
      simp only at hverify
      split_ifs at hverify
  | ok result =>
      have hvalid : i.validate env.ranges.revalidate = .ok () := by
        unfold verifyUpload at hverify
        cases hvalid : i.validate env.ranges.revalidate with
        | error e =>
            rw [hvalid] at hverify
            cases hverify
        | ok _ =>
            rfl
      obtain ⟨href, hverified⟩ := verified_iff hverify
      obtain ⟨verified, reference, mismatches⟩ := result
      simp only at href hverified
      subst href
      simp only [HandsOut, okNoStore, reduceCtorEq, Payload.verification.injEq, false_or,
        true_and, hvalid, UploadVerificationResult.mk.injEq, ← hverified]
      constructor
      · rintro ⟨mismatches', hv, hr, -⟩
        exact ⟨hr.symm, hv⟩
      · rintro ⟨hr, hv⟩
        exact ⟨mismatches, hv, hr.symm, rfl⟩

/-- An invalid request hands out nothing. -/
theorem not_handsOut_of_plan_error
    {env : Env} {route : Route} {e : String} (hplan : route.plan env cfg r = .error e)
    (ref : StorageReference) :
    ¬HandsOut (answer (handle env cfg route r)) ref := by
  refine not_handsOut_of_error ?_ ref
  rw [handle_of_plan_error hplan]
  exact Nat.le_refl 400

/-- The references route: what it hands out is what the provider reported, if valid. -/
theorem handsOut_references_iff (env : Env) (cfg : Config) (r : Request) (ref : StorageReference) :
    HandsOut (answer (handle env cfg .referencesMetadata r)) ref ↔
      ∃ target m, referencesAnswer cfg r = some (target, m) ∧
        ref = referenceFromMetadata target m ∧ ref.validate = .ok () := by
  cases hquery : storageRequestFromQuery r cfg with
  | error e =>
      have hplan : Route.plan env cfg r .referencesMetadata = .error e := by
        simp [Route.plan, referencesMetadataPlan, hquery, bind, Except.bind]
      refine iff_of_false (not_handsOut_of_plan_error hplan ref) ?_
      simp [referencesAnswer, hquery]
  | ok found =>
      obtain ⟨req, target⟩ := found
      unfold handle referencesAnswer
      simp only [Route.plan, referencesMetadataPlan, hquery]
      rcases answer_serve_metadata cfg r "metadata" target ⟨req.bucket, req.objectKey⟩
        (referenceReply target) with ⟨m, hm, hanswer⟩ | ⟨hnone, hstatus⟩
      · have hreply := handsOut_referenceReply_iff target m ref
        rw [← hanswer] at hreply
        refine hreply.trans ?_
        simp [hm]
      · refine iff_of_false (not_handsOut_of_error hstatus ref) ?_
        simp [hnone]

/-- The verify route: what it hands out as verified is what the provider reported, if
the object exists and meets the expectations. -/
theorem handsOut_verify_iff (env : Env) (cfg : Config) (r : Request) (ref : StorageReference) :
    HandsOut (answer (handle env cfg .intentsVerify r)) ref ↔
      ∃ i m, verifyAnswer env cfg r = some (i, m) ∧
        ref = referenceFromMetadata i.target m ∧ i.validate env.ranges.revalidate = .ok () ∧
          m.present = true ∧ MeetsExpectations env.ranges i m := by
  have hrefused {e : String} (hplan : Route.plan env cfg r .intentsVerify = .error e)
      (hnone : verifyAnswer env cfg r = none) :
      HandsOut (answer (handle env cfg .intentsVerify r)) ref ↔
        ∃ i m, verifyAnswer env cfg r = some (i, m) ∧
          ref = referenceFromMetadata i.target m ∧ i.validate env.ranges.revalidate = .ok () ∧
            m.present = true ∧ MeetsExpectations env.ranges i m := by
    refine iff_of_false (not_handsOut_of_plan_error hplan ref) ?_
    simp [hnone]
  cases hbody : env.json.verificationRequest (256 * 1024) r.body with
  | none =>
      refine hrefused (e := "invalid_request") ?_ ?_
      · simp [Route.plan, intentsVerifyPlan, hbody]
      · simp [verifyAnswer, hbody]
  | some input =>
      cases hvalid : (verificationIntent input).validate env.ranges.validate with
      | error e =>
          refine hrefused (e := e) ?_ ?_
          · simp [Route.plan, intentsVerifyPlan, hbody, hvalid, bind, Except.bind]
          · simp [verifyAnswer, hbody, hvalid]
      | ok _ =>
          cases hbase : validateStorageRequest
              ⟨(verificationIntent input).target, "", "", (verificationIntent input).objectKey,
                "", 0⟩ cfg with
          | error e =>
              refine hrefused (e := e) ?_ ?_
              · simp [Route.plan, intentsVerifyPlan, hbody, hvalid, hbase, bind, Except.bind]
              · simp [verifyAnswer, hbody, hvalid, hbase]
          | ok base =>
              unfold handle verifyAnswer
              simp only [Route.plan, intentsVerifyPlan, hbody, hvalid, hbase]
              rcases answer_serve_metadata cfg r "metadata" (verificationIntent input).target
                ⟨base.bucket, base.objectKey⟩ (verificationReply env (verificationIntent input)) with
                ⟨m, hm, hanswer⟩ | ⟨hno, hstatus⟩
              · have hreply := handsOut_verificationReply_iff env (verificationIntent input) m ref
                rw [← hanswer] at hreply
                refine hreply.trans ?_
                simp [hm]
              · refine iff_of_false (not_handsOut_of_error hstatus ref) ?_
                simp [hno]

/-- **When the references handed out are usable.**  Those of
`GET /storage/references/metadata` are exactly if the provider, whenever its report
makes a valid reference, has reported that the object exists; those of
`POST /storage/intents/verify` exactly if the report, whenever it is of an existing
object that meets the expectations, makes a valid reference. -/
theorem references_usable_iff (env : Env) (cfg : Config) (r : Request) :
    (HandsOutUsable (answer (handle env cfg .referencesMetadata r)) (referencesAnswer cfg r) ↔
      ∀ target m, referencesAnswer cfg r = some (target, m) →
        (referenceFromMetadata target m).validate = .ok () →
        m.present = true) ∧
      (HandsOutUsable (answer (handle env cfg .intentsVerify r))
          ((verifyAnswer env cfg r).map fun (i, m) => (i.target, m)) ↔
        ∀ i m, verifyAnswer env cfg r = some (i, m) →
          i.validate env.ranges.revalidate = .ok () →
          m.present = true →
          MeetsExpectations env.ranges i m →
          (referenceFromMetadata i.target m).validate = .ok ()) := by
  constructor
  · constructor
    · intro husable target m hanswer hvalid
      obtain ⟨-, target', m', hanswer', -, hpresent⟩ :=
        husable _ ((handsOut_references_iff env cfg r _).mpr ⟨target, m, hanswer, rfl, hvalid⟩)
      rw [hanswer] at hanswer'
      cases hanswer'
      exact hpresent
    · intro hpresent ref hout
      obtain ⟨target, m, hanswer, rfl, hvalid⟩ := (handsOut_references_iff env cfg r ref).mp hout
      exact ⟨hvalid, target, m, hanswer, rfl, hpresent target m hanswer hvalid⟩
  · constructor
    · intro husable i m hanswer hintent hpresent hmeets
      exact (husable _ ((handsOut_verify_iff env cfg r _).mpr
        ⟨i, m, hanswer, rfl, hintent, hpresent, hmeets⟩)).1
    · intro hvalid ref hout
      obtain ⟨i, m, hanswer, rfl, hintent, hpresent, hmeets⟩ :=
        (handsOut_verify_iff env cfg r ref).mp hout
      exact ⟨hvalid i m hanswer hintent hpresent hmeets, i.target, m, by simp [hanswer], rfl,
        hpresent⟩

/-- The photos behind a signer that reports the given metadata for every object. -/
def reportingConfig (m : StorageMetadata) : Config :=
  { workloadConfig photos with
    selection := ⟨[.storage], fun _ => ["metadata"]⟩
    storageSigner := some { fixedSigner with metadata := some fun _ => .ok m } }

/-- What a provider reports about an object that it does not have. -/
def missingObject : StorageMetadata :=
  ⟨false, "bucket-a", "a/b", 0, "", "", "", 0, ∅, ∅⟩

/-- A report about an object that leaves the key out. -/
def namelessObject : StorageMetadata :=
  ⟨true, "bucket-a", "", 3, "", "", "", 0, ∅, ∅⟩

/-- A request for the reference of an object. -/
def referenceRequest : Request :=
  { signedRequest with query := [("target", "photos"), ("object_key", "a/b")] }

/-- An environment in which every body decodes to a verification without
expectations. -/
def verifyEnv : Env where
  json := ⟨fun _ _ => none, fun _ _ => some ⟨"photos", "a/b", none, "", ∅⟩, fun _ _ => none⟩
  ranges := ⟨fun _ => [], fun _ => [], fun _ => [], fun _ _ => [], ⟨lowerRune, foldRune⟩⟩

/-- A reference to an object that does not exist is handed out with status 200, and an
upload is verified with a reference that has no key. -/
theorem references_unusable :
    ¬HandsOutUsable
        (answer (handle verifyEnv (reportingConfig missingObject) .referencesMetadata
          referenceRequest))
        (referencesAnswer (reportingConfig missingObject) referenceRequest) ∧
      ¬HandsOutUsable
        (answer (handle verifyEnv (reportingConfig namelessObject) .intentsVerify signedRequest))
        ((verifyAnswer verifyEnv (reportingConfig namelessObject) signedRequest).map
          fun (i, m) => (i.target, m)) := by
  refine ⟨fun husable => ?_, fun husable => ?_⟩
  · obtain ⟨-, target, m, hanswer, -, hpresent⟩ :=
      husable (referenceFromMetadata "photos" missingObject) ⟨rfl, Or.inl rfl⟩
    have hm : some ("photos", missingObject) = some (target, m) := hanswer
    cases hm
    cases hpresent
  · obtain ⟨hvalid, -⟩ :=
      husable (referenceFromMetadata "photos" namelessObject) ⟨rfl, Or.inr ⟨[], rfl⟩⟩
    have herror : (referenceFromMetadata "photos" namelessObject).validate =
        .error "object_key is required" := rfl
    rw [herror] at hvalid
    cases hvalid

end References

end Storage
end GatewayRuntime
