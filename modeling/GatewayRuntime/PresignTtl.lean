import GatewayRuntime.AppApi
import GatewayRuntime.StorageRequest

/-!
# The lifetime of presigned URLs

A client asks for a lifetime in seconds, a signed 64-bit number.  Both presign
routes turn it into a `time.Duration` with a product that wraps modulo `2 ^ 64`
and compare the wrapped product with the configured maximum.

`TtlExact` says that a request is accepted exactly when the exact product is at
most the maximum, and then with the exact product.  `presign_ttl_exact_iff` says
for which numbers of seconds the two routes are exact.
-/

namespace GatewayRuntime

section Exactness

/-- Requests for `e` seconds are accepted exactly up to the maximum, and with the
lifetime asked for. -/
def TtlExact (accepts : Duration → Prop) (max : Duration) (e : Int64) : Prop :=
  ((∃ ttl, accepts ttl) ↔ e.toInt * 1000000000 ≤ max.toInt) ∧
    ∀ ttl, accepts ttl → ttl.toInt = e.toInt * 1000000000

/-- The product of `e` seconds, wrapped to a signed 64-bit number. -/
def wrappedNanoseconds (e : Int64) : Int :=
  (e.toInt * 1000000000).bmod (2 ^ 64)

theorem toInt_mul_second (e : Int64) :
    (e * Duration.second).toInt = wrappedNanoseconds e := by
  rw [Int64.toInt_mul, Duration.toInt_second]
  rfl

theorem wrappedNanoseconds_of_fits
    {e : Int64} (he : 0 < e) (hfits : e.toInt * 1000000000 < 2 ^ 63) :
    wrappedNanoseconds e = e.toInt * 1000000000 := by
  have hpos : 0 < e.toInt := by
    simpa using Int64.lt_iff_toInt_lt.mp he
  unfold wrappedNanoseconds
  rw [Int.bmod_eq_of_le (by omega) (by omega)]

/-- A test on one candidate lifetime is exact if the product does not wrap, and
otherwise exactly if it refuses. -/
theorem ttlExact_iff
    {accepts : Duration → Prop} {max ttl : Duration} {ok : Prop} {e : Int64}
    (haccepts : ∀ d, accepts d ↔ d = ttl ∧ ok)
    (hfits : e.toInt * 1000000000 < 2 ^ 63 →
      ttl.toInt = e.toInt * 1000000000 ∧ (ok ↔ ttl ≤ max)) :
    TtlExact accepts max e ↔ e.toInt * 1000000000 < 2 ^ 63 ∨ ¬ok := by
  have hmax := Int64.toInt_lt max
  have hexists : (∃ d, accepts d) ↔ ok := by
    constructor
    · rintro ⟨d, hd⟩
      exact ((haccepts d).mp hd).2
    · intro hok
      exact ⟨ttl, (haccepts ttl).mpr ⟨rfl, hok⟩⟩
  unfold TtlExact
  rw [hexists]
  by_cases hlt : e.toInt * 1000000000 < 2 ^ 63
  · obtain ⟨hexact, hok⟩ := hfits hlt
    refine iff_of_true ⟨?_, ?_⟩ (Or.inl hlt)
    · rw [hok, Int64.le_iff_toInt_le, hexact]
    · intro d hd
      rw [((haccepts d).mp hd).1, hexact]
  · have hlong : ¬e.toInt * 1000000000 ≤ max.toInt := by omega
    constructor
    · rintro ⟨hiff, -⟩
      exact Or.inr (fun hok => hlong (hiff.mp hok))
    · rintro (hlt' | hok)
      · exact absurd hlt' hlt
      · refine ⟨iff_of_false hok hlong, ?_⟩
        intro d hd
        exact absurd ((haccepts d).mp hd).2 hok

end Exactness

section Routes

/-- The storage role accepts a request with a lifetime. -/
def storageAccepts (input : Storage.StorageRequest) (cfg : Storage.Config) (ttl : Duration) :
    Prop :=
  ∃ req, Storage.validateStorageRequest input cfg = .ok req ∧ req.expiresIn = ttl

/-- The application API hands a request with a lifetime to the signer. -/
def uploadAccepts (h : AppApi.Handler) (input : AppApi.UploadRequest) (ttl : Duration) : Prop :=
  ∃ req, AppApi.Action.presignPut req ∈ (AppApi.presignUpload h (some input)).calls ∧
    req.expiresIn = ttl

/-- The test of the storage role on the lifetime asked for. -/
theorem requestTTL_eq_ok_iff
    {input : Storage.StorageRequest} {cfg : Storage.Config} {ttl : Duration}
    (hpos : 0 < input.expiresInSeconds) :
    Storage.requestTTL input cfg = .ok ttl ↔
      ttl = input.expiresInSeconds * Duration.second ∧
        0 < wrappedNanoseconds input.expiresInSeconds ∧
        wrappedNanoseconds input.expiresInSeconds ≤ (Storage.effectiveMaxTTL cfg).toInt := by
  unfold Storage.requestTTL
  simp only [hpos, if_true, Bool.or_eq_true, decide_eq_true_eq, Int64.le_iff_toInt_le,
    Int64.lt_iff_toInt_lt (x := Storage.effectiveMaxTTL cfg), toInt_mul_second, Int64.toInt_zero]
  split_ifs with hbad
  · refine iff_of_false (by simp) ?_
    rintro ⟨-, hlow, hhigh⟩
    omega
  · constructor
    · intro hok
      cases hok
      exact ⟨rfl, by omega, by omega⟩
    · rintro ⟨rfl, -⟩
      rfl

/-- What the storage role accepts when the other fields are valid. -/
theorem storageAccepts_iff
    {input : Storage.StorageRequest} {cfg : Storage.Config} {bucket key : String}
    (hpos : 0 < input.expiresInSeconds)
    (hbucket : Storage.requestBucket input cfg = .ok bucket)
    (hkey : Storage.requestKey input = .ok key)
    (ttl : Duration) :
    storageAccepts input cfg ttl ↔
      ttl = input.expiresInSeconds * Duration.second ∧
        0 < wrappedNanoseconds input.expiresInSeconds ∧
        wrappedNanoseconds input.expiresInSeconds ≤ (Storage.effectiveMaxTTL cfg).toInt := by
  rw [← requestTTL_eq_ok_iff hpos]
  constructor
  · rintro ⟨req, hreq, rfl⟩
    exact (Storage.validateStorageRequest_ok hreq).2.2.2
  · intro httl
    refine ⟨⟨bucket, key, GoText.trimSpace input.contentType, ttl⟩, ?_, rfl⟩
    unfold Storage.validateStorageRequest
    rw [hbucket, hkey, httl]
    rfl

/-- What the application API accepts when the other fields are valid. -/
theorem uploadAccepts_iff
    {h : AppApi.Handler} {input : AppApi.UploadRequest} {key : String}
    (hkey : AppApi.validateObjectKey input.objectKey h.uploadPrefixes = some key)
    (hbucket : GoText.trimSpace h.uploadBucket ≠ "")
    (ttl : Duration) :
    uploadAccepts h input ttl ↔
      ttl = AppApi.uploadTTL input ∧ AppApi.uploadTTL input ≤ h.effectiveMaxTTL := by
  unfold uploadAccepts AppApi.presignUpload
  simp only [hkey, hbucket, if_false]
  split_ifs with hlong
  · refine iff_of_false ?_ ?_
    · rintro ⟨req, hreq, -⟩
      exact AppApi.presignPut_notMem_deny _ _ _ hreq
    · rintro ⟨-, hle⟩
      exact absurd hlong (Int64.not_lt.mpr hle)
  · simp only [AppApi.presignPut_mem_iff]
    constructor
    · rintro ⟨req, rfl, rfl⟩
      exact ⟨rfl, Int64.not_lt.mp hlong⟩
    · rintro ⟨rfl, -⟩
      exact ⟨_, rfl, rfl⟩

/-- The lifetime the application API uses for a wrapped product. -/
def uploadNanoseconds (e : Int64) : Int :=
  if wrappedNanoseconds e ≤ 0 then 300000000000 else wrappedNanoseconds e

theorem toInt_uploadTTL (input : AppApi.UploadRequest) :
    (AppApi.uploadTTL input).toInt = uploadNanoseconds input.expiresIn := by
  unfold AppApi.uploadTTL uploadNanoseconds
  simp only [Int64.le_iff_toInt_le, toInt_mul_second, Int64.toInt_zero]
  split_ifs
  · decide
  · exact toInt_mul_second _

/-- **When the lifetime of a presigned URL is exact.**  With valid other fields,
the storage role is exact if and only if the product does not wrap, or wraps to a
number outside the accepted range; and the application API if and only if the
product does not wrap, or the lifetime it then uses is longer than the maximum. -/
theorem presign_ttl_exact_iff (e : Int64) (he : 0 < e) :
    (∀ (input : Storage.StorageRequest) (cfg : Storage.Config) (bucket key : String),
      input.expiresInSeconds = e →
      Storage.requestBucket input cfg = .ok bucket →
      Storage.requestKey input = .ok key →
      (TtlExact (storageAccepts input cfg) (Storage.effectiveMaxTTL cfg) e ↔
        e.toInt * 1000000000 < 2 ^ 63 ∨
          ¬(0 < wrappedNanoseconds e ∧
            wrappedNanoseconds e ≤ (Storage.effectiveMaxTTL cfg).toInt))) ∧
      ∀ (h : AppApi.Handler) (input : AppApi.UploadRequest) (key : String),
        input.expiresIn = e →
        AppApi.validateObjectKey input.objectKey h.uploadPrefixes = some key →
        GoText.trimSpace h.uploadBucket ≠ "" →
        (TtlExact (uploadAccepts h input) h.effectiveMaxTTL e ↔
          e.toInt * 1000000000 < 2 ^ 63 ∨
            ¬uploadNanoseconds e ≤ h.effectiveMaxTTL.toInt) := by
  have hpos : 0 < e.toInt := by
    simpa using Int64.lt_iff_toInt_lt.mp he
  refine ⟨?_, ?_⟩
  · rintro input cfg bucket key rfl hbucket hkey
    apply ttlExact_iff (storageAccepts_iff he hbucket hkey)
    intro hfits
    rw [toInt_mul_second, Int64.le_iff_toInt_le, toInt_mul_second,
      wrappedNanoseconds_of_fits he hfits]
    refine ⟨rfl, ?_⟩
    omega
  · rintro h input key rfl hkey hbucket
    rw [← toInt_uploadTTL, ← Int64.le_iff_toInt_le]
    apply ttlExact_iff (uploadAccepts_iff hkey hbucket)
    intro hfits
    refine ⟨?_, Iff.rfl⟩
    rw [toInt_uploadTTL, uploadNanoseconds, wrappedNanoseconds_of_fits he hfits]
    exact if_neg (by omega)

/-- A storage role in bucket mode with the default lifetimes. -/
def bucketConfig : Storage.Config where
  selection := ⟨[.storage], fun _ => ["upload"]⟩
  storageSigner := none
  storageProviders := ∅
  storageDefaultTTL := 0
  storageMaxTTL := 0
  storageTargets := ∅
  storageAccessPolicy := none
  storageSubjectHeader := ""
  workloadVerifier := none
  workloadAuthRequired := false

def bucketInput (e : Int64) : Storage.StorageRequest :=
  ⟨"", "", "bucket-a", "users/1.png", "image/png", e⟩

/-- An application API with the default lifetimes. -/
def uploadHandler : AppApi.Handler where
  domain _ _ := .error (.leaf .sessionNotFound)
  storage req := .ok ⟨req.objectKey, "PUT", 0, ∅⟩
  hasAudit := true
  uploadBucket := "bucket-a"
  uploadPrefixes := ["users"]
  maxPresignTTL := 0

def uploadInput (e : Int64) : AppApi.UploadRequest :=
  ⟨"users/1.png", "image/png", e⟩

theorem uploadInput_key (e : Int64) :
    AppApi.validateObjectKey (uploadInput e).objectKey uploadHandler.uploadPrefixes =
      some "users/1.png" := by
  have hkey : AppApi.validateObjectKey "users/1.png" ["users"] = some "users/1.png" := by
    decide +kernel
  exact hkey

/-- Both routes are exact for a minute. -/
theorem presign_ttl_exact_minute :
    TtlExact (storageAccepts (bucketInput 60) bucketConfig)
        (Storage.effectiveMaxTTL bucketConfig) 60 ∧
      TtlExact (uploadAccepts uploadHandler (uploadInput 60)) uploadHandler.effectiveMaxTTL 60 := by
  obtain ⟨hstorage, hupload⟩ := presign_ttl_exact_iff 60 (by decide)
  refine ⟨?_, ?_⟩
  · exact (hstorage (bucketInput 60) bucketConfig "bucket-a" "users/1.png" rfl rfl rfl).mpr
      (Or.inl (by decide))
  · exact (hupload uploadHandler (uploadInput 60) _ rfl (uploadInput_key _) (by decide)).mpr
      (Or.inl (by decide))

/-- 18446744074 seconds, about 584 years, are accepted by both routes as a little
under 0.3 seconds; and 9223372037 seconds are accepted by the application API as
five minutes. -/
theorem presign_ttl_wraps :
    storageAccepts (bucketInput 18446744074) bucketConfig 290448384 ∧
      ¬TtlExact (storageAccepts (bucketInput 18446744074) bucketConfig)
        (Storage.effectiveMaxTTL bucketConfig) 18446744074 ∧
      uploadAccepts uploadHandler (uploadInput 18446744074) 290448384 ∧
      uploadAccepts uploadHandler (uploadInput 9223372037) (5 * Duration.minute) ∧
      ¬TtlExact (uploadAccepts uploadHandler (uploadInput 18446744074))
        uploadHandler.effectiveMaxTTL 18446744074 := by
  have hstorage : storageAccepts (bucketInput 18446744074) bucketConfig 290448384 :=
    ⟨⟨"bucket-a", "users/1.png", "image/png", 290448384⟩, rfl, rfl⟩
  have hupload : uploadAccepts uploadHandler (uploadInput 18446744074) 290448384 :=
    (uploadAccepts_iff (uploadInput_key _) (by decide) _).mpr ⟨rfl, by decide⟩
  have hdefault :
      uploadAccepts uploadHandler (uploadInput 9223372037) (5 * Duration.minute) :=
    (uploadAccepts_iff (uploadInput_key _) (by decide) _).mpr ⟨rfl, by decide⟩
  refine ⟨hstorage, ?_, hupload, hdefault, ?_⟩
  · rintro ⟨-, hexact⟩
    exact absurd (hexact _ hstorage) (by decide)
  · rintro ⟨-, hexact⟩
    exact absurd (hexact _ hupload) (by decide)

end Routes

end GatewayRuntime
