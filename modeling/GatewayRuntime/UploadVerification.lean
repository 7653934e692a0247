import GatewayRuntime.StorageRequest

/-!
# What a verified upload means

`VerifyUpload` compares the metadata of an object with the expectations of a
validated intent.  `Conforms` says what the intent asks for, in terms of the two
maps of checksums; `verifyUpload_sound_complete` compares the answer with it for
all orders in which the maps may be visited.

The loop over the expected checksums takes the value of the first entry that it
meets under an algorithm name.  A missing entry counts as the empty value, so it is
a mismatch because `Validate` refuses blank values.  Entries whose names differ in
case or in surrounding space denote one algorithm: when their values differ, the
order decides (`verifyUpload_order_free_iff`).
-/

namespace GatewayRuntime
namespace Storage

open GoText

section Orders

/-- The pass visits every entry of the map once, in some order. -/
def IsOrder (range : MapRange) : Prop :=
  ∀ m : StringMap, (range m : Multiset (String × String)) = m.entries.map fun e => (e.1, e.2)

/-- Every pass made while a request is served is an order of the entries. -/
structure Ranges.Orders (ranges : Ranges) : Prop where
  validate : IsOrder ranges.validate
  revalidate : IsOrder ranges.revalidate
  expected : IsOrder ranges.expected
  actual : ∀ algorithm, IsOrder (ranges.actual algorithm)

theorem IsOrder.mem_iff
    {range : MapRange}
    (h : IsOrder range) (m : StringMap) (kv : String × String) :
    kv ∈ range m ↔ m.lookup kv.1 = some kv.2 := by
  rw [← Multiset.mem_coe, h m, Multiset.mem_map, Finmap.lookup_eq_some_iff]
  constructor
  · rintro ⟨entry, hentry, rfl⟩
    exact hentry
  · intro hentry
    exact ⟨⟨kv.1, kv.2⟩, hentry, rfl⟩

end Orders

section Validate

/-- The intents that `Validate` accepts. -/
structure UploadVerificationIntent.Valid (i : UploadVerificationIntent) : Prop where
  target : trimSpace i.target ≠ ""
  objectKey : validateObjectKey i.objectKey = .ok ()
  size : ∀ n, i.expectedSize = some n → ¬ n < 0
  checksums : ∀ algorithm value, i.expectedChecksums.lookup algorithm = some value →
    trimSpace algorithm ≠ "" ∧ trimSpace value ≠ ""

/-- `Validate` does not depend on the order of its loop. -/
theorem validate_iff
    {range : MapRange} (horder : IsOrder range) (i : UploadVerificationIntent) :
    i.validate range = .ok () ↔ i.Valid := by
  have hchecksums : (range i.expectedChecksums).any
      (fun kv => trimSpace kv.1 = "" || trimSpace kv.2 = "") = false ↔
      ∀ algorithm value, i.expectedChecksums.lookup algorithm = some value →
        trimSpace algorithm ≠ "" ∧ trimSpace value ≠ "" := by
    simp only [List.any_eq_false, horder.mem_iff, Prod.forall, Bool.or_eq_true, decide_eq_true_eq,
      not_or, ne_eq]
  have hsize : i.expectedSize.any (fun n => n < 0) = false ↔
      ∀ n, i.expectedSize = some n → ¬ n < 0 := by
    cases i.expectedSize <;> simp
  unfold UploadVerificationIntent.validate
  by_cases htarget : trimSpace i.target = ""
  · rw [if_pos htarget]
    exact iff_of_false (by simp) fun h => h.target htarget
  · rw [if_neg htarget]
    cases hkey : validateObjectKey i.objectKey with
    | error e =>
        refine iff_of_false (by simp) fun h => ?_
        rw [h.objectKey] at hkey
        cases hkey
    | ok u =>
        dsimp only
        split_ifs with hneg hblank
        · refine iff_of_false (by simp) fun h => ?_
          rw [hsize.mpr h.size] at hneg
          cases hneg
        · refine iff_of_false (by simp) fun h => ?_
          rw [hchecksums.mpr h.checksums] at hblank
          cases hblank
        · simp only [true_iff]
          exact ⟨htarget, hkey, hsize.mp (Bool.not_eq_true _ ▸ hneg),
            hchecksums.mp (Bool.not_eq_true _ ▸ hblank)⟩

end Validate

section Verification

variable (letters : CaseTables) (i : UploadVerificationIntent) (m : StorageMetadata)

/-- Two algorithm names that count as the same. -/
def SameAlgorithm (algorithm algorithm' : String) : Prop :=
  letters.toLower (trimSpace algorithm') = letters.toLower (trimSpace algorithm)

/-- What a verification asks of the metadata. -/
structure Conforms : Prop where
  present : m.present = true
  size : ∀ n, i.expectedSize = some n → m.size = n
  contentType : trimSpace i.expectedContentType ≠ "" →
    letters.equalFold (trimSpace i.expectedContentType) (trimSpace m.contentType) = true
  checksums : ∀ algorithm value, i.expectedChecksums.lookup algorithm = some value →
    trimSpace value ≠ "" ∧
      ∃ algorithm' value', m.checksums.lookup algorithm' = some value' ∧
        SameAlgorithm letters algorithm algorithm' ∧ trimSpace value' = trimSpace value

/-- Every reported checksum of a requested algorithm has the expected value. -/
def ChecksumsAgree : Prop :=
  ∀ algorithm value, i.expectedChecksums.lookup algorithm = some value →
    ∀ algorithm' value', m.checksums.lookup algorithm' = some value' →
      SameAlgorithm letters algorithm algorithm' → trimSpace value' = trimSpace value

variable {letters i m}

theorem sizeMismatch_eq_nil_iff :
    sizeMismatch i m = [] ↔ ∀ n, i.expectedSize = some n → m.size = n := by
  unfold sizeMismatch
  cases i.expectedSize with
  | none => simp
  | some n => simp

theorem field_of_sizeMismatch
    {x : VerificationMismatch} (h : x ∈ sizeMismatch i m) :
    x.field = "size" := by
  unfold sizeMismatch at h
  cases hexpected : i.expectedSize with
  | none =>
      simp [hexpected] at h
  | some n =>
      simp only [hexpected] at h
      split_ifs at h
      · rw [List.mem_singleton.mp h]
      · simp at h

theorem contentTypeMismatch_eq_nil_iff :
    contentTypeMismatch letters i m = [] ↔
      (trimSpace i.expectedContentType ≠ "" →
        letters.equalFold (trimSpace i.expectedContentType) (trimSpace m.contentType) = true) := by
  unfold contentTypeMismatch
  dsimp only
  split_ifs with h
  · simp [h.1, h.2]
  · simp only [true_iff]
    intro hne
    by_contra hfold
    exact h ⟨hne, Bool.not_eq_true _ ▸ hfold⟩

/-- The value that the inner loop finds under an algorithm name. -/
def foundValue (letters : CaseTables) (entries : List (String × String)) (algorithm : String) :
    String :=
  match entries.find?
      (fun kv => letters.toLower (trimSpace kv.1) == letters.toLower (trimSpace algorithm)) with
  | none => ""
  | some kv => trimSpace kv.2

theorem checksumMismatch_eq
    (letters : CaseTables) (entries : List (String × String)) (algorithm value : String) :
    checksumMismatch letters entries algorithm value =
      if trimSpace value ≠ foundValue letters entries algorithm then
        [⟨"checksum." ++ letters.toLower (trimSpace algorithm), trimSpace value,
          foundValue letters entries algorithm⟩]
      else [] :=
  rfl

theorem mem_checksumMismatch
    {entries : List (String × String)} {algorithm value : String} {x : VerificationMismatch} :
    x ∈ checksumMismatch letters entries algorithm value ↔
      trimSpace value ≠ foundValue letters entries algorithm ∧
        x = ⟨"checksum." ++ letters.toLower (trimSpace algorithm), trimSpace value,
          foundValue letters entries algorithm⟩ := by
  rw [checksumMismatch_eq]
  split_ifs with h
  · rw [List.mem_singleton, and_iff_right h]
  · simp [h]

theorem field_of_contentTypeMismatch
    {x : VerificationMismatch} (h : x ∈ contentTypeMismatch letters i m) :
    x.field = "content_type" := by
  unfold contentTypeMismatch at h
  dsimp only at h
  split_ifs at h
  · rw [List.mem_singleton.mp h]
  · simp at h

variable (letters m) in
/-- It is the value of some entry of the algorithm, or empty when there is none. -/
theorem foundValue_cases
    {range : MapRange} (horder : IsOrder range) (algorithm : String) :
    (∃ algorithm' value', m.checksums.lookup algorithm' = some value' ∧
        SameAlgorithm letters algorithm algorithm' ∧
        foundValue letters (range m.checksums) algorithm = trimSpace value') ∨
      (∀ algorithm' value', m.checksums.lookup algorithm' = some value' →
        ¬ SameAlgorithm letters algorithm algorithm') ∧
        foundValue letters (range m.checksums) algorithm = "" := by
  unfold foundValue
  cases hfind : (range m.checksums).find?
      (fun kv => letters.toLower (trimSpace kv.1) == letters.toLower (trimSpace algorithm)) with
  | none =>
      refine Or.inr ⟨?_, rfl⟩
      intro algorithm' value' hlookup hsame
      have hnot := List.find?_eq_none.mp hfind (algorithm', value')
        ((horder.mem_iff _ _).mpr hlookup)
      exact hnot (beq_iff_eq.mpr hsame)
  | some kv =>
      have hkey := List.find?_some hfind
      exact Or.inl ⟨kv.1, kv.2, (horder.mem_iff _ _).mp (List.mem_of_find?_eq_some hfind),
        beq_iff_eq.mp hkey, rfl⟩

theorem checksumMismatch_eq_nil_iff
    {entries : List (String × String)} {algorithm value : String} :
    checksumMismatch letters entries algorithm value = [] ↔
      foundValue letters entries algorithm = trimSpace value := by
  rw [checksumMismatch_eq]
  split_ifs with h
  · simp [Ne.symm h]
  · simpa [eq_comm] using h

/-- The mismatches of `VerifyUpload`, as a set, on a validated intent. -/
theorem mem_mismatches
    {ranges : Ranges} (horders : ranges.Orders) (hvalid : i.Valid) :
    ∃ result, verifyUpload ranges i m = .ok result ∧
      result.verified = result.mismatches.isEmpty ∧
      ∀ x, x ∈ result.mismatches ↔
        if m.present = false then x = ⟨"object", "exists", "not_found"⟩
        else
          x ∈ sizeMismatch i m ∨ x ∈ contentTypeMismatch ranges.letters i m ∨
            ∃ algorithm value, i.expectedChecksums.lookup algorithm = some value ∧
              x ∈ checksumMismatch ranges.letters (ranges.actual algorithm m.checksums)
                algorithm value := by
  unfold verifyUpload
  rw [(validate_iff horders.revalidate i).mpr hvalid]
  dsimp only
  split_ifs with hpresent
  · exact ⟨_, rfl, rfl, by simp⟩
  · refine ⟨_, rfl, rfl, ?_⟩
    intro x
    simp only [List.mem_append, List.mem_flatMap, horders.expected.mem_iff, Prod.exists, or_assoc]

/-- When there are none. -/
theorem verifyUpload_eq
    {ranges : Ranges} (horders : ranges.Orders) (hvalid : i.Valid) :
    ∃ result, verifyUpload ranges i m = .ok result ∧
      result.verified = result.mismatches.isEmpty ∧
      (result.mismatches = [] ↔
        m.present = true ∧ sizeMismatch i m = [] ∧ contentTypeMismatch ranges.letters i m = [] ∧
          ∀ algorithm value, i.expectedChecksums.lookup algorithm = some value →
            checksumMismatch ranges.letters (ranges.actual algorithm m.checksums) algorithm value =
              []) := by
  obtain ⟨result, hresult, hverified, hmem⟩ := mem_mismatches (m := m) horders hvalid
  refine ⟨result, hresult, hverified, ?_⟩
  simp only [List.eq_nil_iff_forall_not_mem, hmem]
  cases m.present with
  | false =>
      simp
  | true =>
      simp only [Bool.true_eq_false, if_false, not_or, not_exists, not_and, true_and]
      constructor
      · intro h
        exact ⟨fun x => (h x).1, fun x => (h x).2.1,
          fun algorithm value hlookup x => (h x).2.2 algorithm value hlookup⟩
      · intro h x
        exact ⟨h.1 x, h.2.1 x, fun algorithm value hlookup => h.2.2 algorithm value hlookup x⟩

/-- **`VerifyUpload` is sound and complete**, for every validated intent, all
metadata and all iteration orders. -/
theorem verifyUpload_sound_complete
    (ranges : Ranges) (horders : ranges.Orders)
    (i : UploadVerificationIntent) (m : StorageMetadata)
    (hvalid : i.validate ranges.validate = .ok ()) :
    ∃ result, verifyUpload ranges i m = .ok result ∧
      (result.verified = true → Conforms ranges.letters i m) ∧
      (Conforms ranges.letters i m → ChecksumsAgree ranges.letters i m →
        result.verified = true ∧ result.mismatches = []) ∧
      (result.verified = false ↔ result.mismatches ≠ []) := by
  have hi := (validate_iff horders.validate i).mp hvalid
  obtain ⟨result, hresult, hverified, hmismatches⟩ := verifyUpload_eq (m := m) horders hi
  refine ⟨result, hresult, ?_, ?_, ?_⟩
  · intro htrue
    rw [hverified, List.isEmpty_iff] at htrue
    obtain ⟨hpresent, hsize, htype, hchecksums⟩ := hmismatches.mp htrue
    refine ⟨hpresent, sizeMismatch_eq_nil_iff.mp hsize, contentTypeMismatch_eq_nil_iff.mp htype, ?_⟩
    intro algorithm value hlookup
    have hne := (hi.checksums algorithm value hlookup).2
    refine ⟨hne, ?_⟩
    have hfound := checksumMismatch_eq_nil_iff.mp (hchecksums algorithm value hlookup)
    rcases foundValue_cases ranges.letters m (horders.actual algorithm) algorithm with
      ⟨algorithm', value', hlookup', hsame, hvalue⟩ | ⟨-, hempty⟩
    · exact ⟨algorithm', value', hlookup', hsame, hvalue.symm.trans hfound⟩
    · -- without an entry the empty value is compared, which `Validate` excludes
      exact absurd (hfound.symm.trans hempty) hne
  · intro hconforms hagree
    have hnil : result.mismatches = [] := by
      refine hmismatches.mpr ⟨hconforms.present, sizeMismatch_eq_nil_iff.mpr hconforms.size,
        contentTypeMismatch_eq_nil_iff.mpr hconforms.contentType, ?_⟩
      intro algorithm value hlookup
      rw [checksumMismatch_eq_nil_iff]
      rcases foundValue_cases ranges.letters m (horders.actual algorithm) algorithm with
        ⟨algorithm', value', hlookup', hsame, hvalue⟩ | ⟨hnone, -⟩
      · exact hvalue.trans (hagree algorithm value hlookup algorithm' value' hlookup' hsame)
      · obtain ⟨-, algorithm', value', hlookup', hsame, -⟩ :=
          hconforms.checksums algorithm value hlookup
        exact absurd hsame (hnone algorithm' value' hlookup')
    exact ⟨by rw [hverified, hnil]; rfl, hnil⟩
  · rw [hverified]
    cases result.mismatches <;> simp

/-- An order of the entries of every map. -/
noncomputable def someOrder : MapRange :=
  fun m => (m.entries.map fun e => (e.1, e.2)).toList

theorem someOrder_isOrder : IsOrder someOrder := fun _ => Multiset.coe_toList _

noncomputable def someRanges : Ranges :=
  ⟨someOrder, someOrder, someOrder, fun _ => someOrder, ⟨lowerRune, foldRune⟩⟩

/-- A checksum under another spelling of its algorithm. -/
def checkedIntent : UploadVerificationIntent :=
  ⟨"photos", "a/b", some 3, "Text/Plain", Finmap.singleton "SHA256" " abc "⟩

theorem checkedIntent_valid :
    checkedIntent.Valid := by
  refine ⟨by decide, by decide, ?_, ?_⟩
  · intro n hn
    obtain rfl := Option.some.inj hn
    decide
  · intro algorithm value hlookup
    obtain ⟨rfl, rfl⟩ := eq_of_lookup_singleton hlookup
    decide

def checkedObject : StorageMetadata :=
  ⟨true, "bucket-a", "a/b", 3, "text/plain", "", "", 0, Finmap.singleton " sha256" "abc", ∅⟩

theorem verifyUpload_sound_complete_checked :
    ∃ result, verifyUpload someRanges checkedIntent checkedObject = .ok result ∧
      result.verified = true := by
  have horders : someRanges.Orders :=
    ⟨someOrder_isOrder, someOrder_isOrder, someOrder_isOrder, fun _ => someOrder_isOrder⟩
  have hvalid : checkedIntent.validate someRanges.validate = .ok () :=
    (validate_iff someOrder_isOrder _).mpr checkedIntent_valid
  obtain ⟨result, hresult, -, hcomplete, -⟩ :=
    verifyUpload_sound_complete someRanges horders checkedIntent checkedObject hvalid
  refine ⟨result, hresult, (hcomplete ⟨rfl, ?_, fun _ => by decide +kernel, ?_⟩ ?_).1⟩
  · intro n hn
    exact Option.some.inj hn
  · intro algorithm value hlookup
    obtain ⟨rfl, rfl⟩ := eq_of_lookup_singleton hlookup
    exact ⟨by decide, " sha256", "abc", Finmap.lookup_singleton_eq, by unfold SameAlgorithm; decide,
      by decide⟩
  · intro algorithm value hlookup algorithm' value' hlookup' _
    obtain ⟨rfl, rfl⟩ := eq_of_lookup_singleton hlookup
    obtain ⟨rfl, rfl⟩ := eq_of_lookup_singleton hlookup'
    decide

end Verification

section OneAnswer

variable (letters : CaseTables) (i : UploadVerificationIntent) (m : StorageMetadata)

/-- All orders of the maps give the same flag and the same set of mismatches. -/
def OneAnswer : Prop :=
  ∃ (verified : Bool) (mismatches : Set VerificationMismatch), ∀ ranges : Ranges,
    ranges.Orders → ranges.letters = letters →
      ∃ result, verifyUpload ranges i m = .ok result ∧ result.verified = verified ∧
        ∀ x, x ∈ result.mismatches ↔ x ∈ mismatches

/-- The reported checksums of a requested algorithm have one value. -/
def ChecksumsUnambiguous : Prop :=
  ∀ algorithm value, i.expectedChecksums.lookup algorithm = some value →
    ∀ a v a' v', m.checksums.lookup a = some v → m.checksums.lookup a' = some v' →
      SameAlgorithm letters algorithm a → SameAlgorithm letters algorithm a' →
        trimSpace v = trimSpace v'

variable {letters i m}

/-- Without ambiguity the inner loop finds the same value in every order. -/
theorem foundValue_order_free
    {algorithm value : String}
    (hone : ChecksumsUnambiguous letters i m)
    (hlookup : i.expectedChecksums.lookup algorithm = some value)
    {range range' : MapRange} (horder : IsOrder range) (horder' : IsOrder range') :
    foundValue letters (range m.checksums) algorithm =
      foundValue letters (range' m.checksums) algorithm := by
  rcases foundValue_cases letters m horder algorithm with
    ⟨a, v, ha, hsame, hv⟩ | ⟨hnone, hempty⟩
  · rcases foundValue_cases letters m horder' algorithm with
      ⟨a', v', ha', hsame', hv'⟩ | ⟨hnone', -⟩
    · rw [hv, hv']
      exact hone algorithm value hlookup a v a' v' ha ha' hsame hsame'
    · exact absurd hsame (hnone' a v ha)
  · rcases foundValue_cases letters m horder' algorithm with
      ⟨a', v', ha', hsame', -⟩ | ⟨-, hempty'⟩
    · exact absurd hsame' (hnone a' v' ha')
    · rw [hempty, hempty']

/-- The entry is visited first in the maps that have it. -/
noncomputable def visitFirst (kv : String × String) : MapRange :=
  fun m => if kv ∈ someOrder m then kv :: (someOrder m).erase kv else someOrder m

theorem visitFirst_isOrder (kv : String × String) :
    IsOrder (visitFirst kv) := by
  intro m
  rw [← someOrder_isOrder m, visitFirst]
  split_ifs with hmem
  · exact Multiset.coe_eq_coe.mpr (List.perm_cons_erase hmem).symm
  · rfl

theorem foundValue_visitFirst
    {algorithm a v : String}
    (hlookup : m.checksums.lookup a = some v) (hsame : SameAlgorithm letters algorithm a) :
    foundValue letters (visitFirst (a, v) m.checksums) algorithm = trimSpace v := by
  have hmem : (a, v) ∈ someOrder m.checksums :=
    (someOrder_isOrder.mem_iff _ _).mpr hlookup
  have hkey : (letters.toLower (trimSpace a) == letters.toLower (trimSpace algorithm)) = true :=
    beq_iff_eq.mpr hsame
  rw [foundValue, visitFirst, if_pos hmem]
  simp only [List.find?_cons, hkey]

/-- Passes that look for a checksum at this entry first. -/
noncomputable def lookingAt (letters : CaseTables) (kv : String × String) : Ranges :=
  ⟨someOrder, someOrder, someOrder, fun _ => visitFirst kv, letters⟩

theorem lookingAt_orders (letters : CaseTables) (kv : String × String) :
    (lookingAt letters kv).Orders :=
  ⟨someOrder_isOrder, someOrder_isOrder, someOrder_isOrder, fun _ => visitFirst_isOrder kv⟩

/-- The field of a checksum is no other one. -/
theorem field_ne_checksum (key : String) :
    "size" ≠ "checksum." ++ key ∧ "content_type" ≠ "checksum." ++ key := by
  constructor
  · intro h
    have htake := congrArg (fun s => s.toList.take 2) h
    simp at htake
  · intro h
    have htake := congrArg (fun s => s.toList.take 2) h
    simp at htake

/-- A mismatch that is reported when the loop meets one entry first is not reported when it
meets an entry with another value first. -/
theorem not_mem_of_other_value
    (hvalid : i.Valid) (hpresent : m.present = true)
    {algorithm value a v a' v' : String}
    (ha : m.checksums.lookup a = some v) (ha' : m.checksums.lookup a' = some v')
    (hexpected : i.expectedChecksums.lookup algorithm = some value)
    (hsame : SameAlgorithm letters algorithm a) (hsame' : SameAlgorithm letters algorithm a')
    (hne : trimSpace v ≠ trimSpace v') (hvalue : trimSpace value ≠ trimSpace v) :
    ¬OneAnswer letters i m := by
  rintro ⟨verified, mismatches, hone⟩
  have hmem (kv : String × String) (y : VerificationMismatch) :
      y ∈ mismatches ↔ y ∈ sizeMismatch i m ∨ y ∈ contentTypeMismatch letters i m ∨
        ∃ algorithm value, i.expectedChecksums.lookup algorithm = some value ∧
          y ∈ checksumMismatch letters (visitFirst kv m.checksums) algorithm value := by
    obtain ⟨result, hresult, -, hiff⟩ := hone (lookingAt letters kv) (lookingAt_orders _ _) rfl
    obtain ⟨result', hresult', -, hiff'⟩ :=
      mem_mismatches (m := m) (lookingAt_orders letters kv) hvalid
    obtain rfl : result = result' := Except.ok.inj (hresult.symm.trans hresult')
    rw [← hiff, hiff', if_neg (by simp [hpresent])]
    rfl
  let x : VerificationMismatch :=
    ⟨"checksum." ++ letters.toLower (trimSpace algorithm), trimSpace value, trimSpace v⟩
  have hx : x ∈ mismatches := by
    refine (hmem (a, v) x).mpr (Or.inr (Or.inr ⟨algorithm, value, hexpected, ?_⟩))
    rw [mem_checksumMismatch, foundValue_visitFirst ha hsame]
    exact ⟨hvalue, rfl⟩
  have hfield := field_ne_checksum (letters.toLower (trimSpace algorithm))
  rcases (hmem (a', v') x).mp hx with hsize | htype | ⟨algorithm', value', -, hchecksum⟩
  · exact hfield.1 (field_of_sizeMismatch hsize).symm
  · exact hfield.2 (field_of_contentTypeMismatch htype).symm
  · -- the same field means the same algorithm, and there the other value is found
    obtain ⟨-, hx'⟩ := mem_checksumMismatch.mp hchecksum
    have hkey : letters.toLower (trimSpace algorithm) = letters.toLower (trimSpace algorithm') :=
      String.append_right_inj _ |>.mp (congrArg VerificationMismatch.field hx')
    have hfound := congrArg VerificationMismatch.actual hx'
    rw [foundValue_visitFirst ha' (hsame'.trans hkey)] at hfound
    exact hne hfound

/-- **One answer per input.**  `VerifyUpload` gives one answer for all orders exactly when the
object is missing or each requested algorithm has one reported value. -/
theorem verifyUpload_order_free_iff
    (letters : CaseTables) (i : UploadVerificationIntent) (m : StorageMetadata)
    (range : MapRange) (horder : IsOrder range) (hvalid : i.validate range = .ok ()) :
    OneAnswer letters i m ↔ (m.present = true → ChecksumsUnambiguous letters i m) := by
  have hi := (validate_iff horder i).mp hvalid
  constructor
  · intro hone hpresent algorithm value hexpected a v a' v' ha ha' hsame hsame'
    by_contra hne
    by_cases hvalue : trimSpace value = trimSpace v
    · refine not_mem_of_other_value hi hpresent ha' ha hexpected hsame' hsame (Ne.symm hne) ?_ hone
      rwa [hvalue]
    · exact not_mem_of_other_value hi hpresent ha ha' hexpected hsame hsame' hne hvalue hone
  · intro hunambiguous
    obtain ⟨result₀, -, hverified₀, hmem₀⟩ :=
      mem_mismatches (m := m) (lookingAt_orders letters ("", "")) hi
    refine ⟨result₀.verified, {x | x ∈ result₀.mismatches}, ?_⟩
    rintro ranges horders rfl
    obtain ⟨result, hresult, hverified, hmem⟩ := mem_mismatches (m := m) horders hi
    have hsame (x : VerificationMismatch) : x ∈ result.mismatches ↔ x ∈ result₀.mismatches := by
      rw [hmem, hmem₀]
      split_ifs with hmissing
      · exact Iff.rfl
      · have hone := hunambiguous (by simpa using hmissing)
        have hchecksums (algorithm value : String)
            (hexpected : i.expectedChecksums.lookup algorithm = some value) :
            x ∈ checksumMismatch ranges.letters (ranges.actual algorithm m.checksums)
                algorithm value ↔
              x ∈ checksumMismatch ranges.letters (visitFirst ("", "") m.checksums)
                algorithm value := by
          rw [mem_checksumMismatch, mem_checksumMismatch, foundValue_order_free hone hexpected
            (horders.actual algorithm) (visitFirst_isOrder ("", ""))]
        refine or_congr_right (or_congr_right (exists₂_congr fun algorithm value => ?_))
        exact and_congr_right (hchecksums algorithm value)
    refine ⟨result, hresult, ?_, hsame⟩
    rw [hverified, hverified₀, Bool.eq_iff_iff, List.isEmpty_iff, List.isEmpty_iff,
      List.eq_nil_iff_forall_not_mem, List.eq_nil_iff_forall_not_mem]
    simp only [hsame]

/-- Two spellings of one algorithm, with one value. -/
def agreeingObject : StorageMetadata :=
  { checkedObject with checksums := (Finmap.singleton "sha256" "abc").insert "SHA256" " abc " }

/-- Whichever of the two entries the loop meets first, the answer is the same. -/
theorem verifyUpload_order_free_agreeing :
    SameAlgorithm ⟨lowerRune, foldRune⟩ "SHA256" "sha256" ∧
      agreeingObject.checksums.lookup "sha256" ≠ agreeingObject.checksums.lookup "SHA256" ∧
      OneAnswer ⟨lowerRune, foldRune⟩ checkedIntent agreeingObject := by
  have hvalid : checkedIntent.validate someOrder = .ok () :=
    (validate_iff someOrder_isOrder _).mpr checkedIntent_valid
  have hall (a v : String) (hlookup : agreeingObject.checksums.lookup a = some v) :
      trimSpace v = "abc" := by
    rcases eq_of_lookup_pair hlookup with ⟨-, rfl⟩ | ⟨-, rfl⟩ <;> decide
  refine ⟨by unfold SameAlgorithm; decide +kernel, by decide +kernel,
    (verifyUpload_order_free_iff _ _ _ someOrder someOrder_isOrder hvalid).mpr ?_⟩
  intro _ algorithm value _ a v a' v' ha ha' _ _
  exact (hall a v ha).trans (hall a' v' ha').symm

/-- Two spellings of one algorithm, with different values. -/
def ambiguousObject : StorageMetadata :=
  { checkedObject with checksums := (Finmap.singleton "sha256" "abc").insert "SHA256" "xyz" }

/-- The answer about this object depends on its one checksum. -/
theorem verifyUpload_ambiguousObject (letters : CaseTables) (kv : String × String) :
    ∃ reference, verifyUpload (lookingAt letters kv) checkedIntent ambiguousObject =
      let mismatches := contentTypeMismatch letters checkedIntent ambiguousObject ++
        checksumMismatch letters (visitFirst kv ambiguousObject.checksums) "SHA256" " abc "
      .ok ⟨mismatches.isEmpty, reference, mismatches⟩ := by
  have hvalid : checkedIntent.validate (lookingAt letters kv).revalidate = .ok () :=
    (validate_iff someOrder_isOrder _).mpr checkedIntent_valid
  have hexpected : (lookingAt letters kv).expected checkedIntent.expectedChecksums =
      [("SHA256", " abc ")] := by
    simp [lookingAt, someOrder, checkedIntent, Finmap.singleton]
  refine ⟨referenceFromMetadata checkedIntent.target ambiguousObject, ?_⟩
  rw [verifyUpload, hvalid]
  dsimp only
  rw [hexpected, if_neg (by decide)]
  have hsize : sizeMismatch checkedIntent ambiguousObject = [] := by decide
  simp only [hsize, List.nil_append, List.flatMap_cons, List.flatMap_nil, List.append_nil]
  rfl

/-- The same object is verified or not, depending on the entry that the loop meets first. -/
theorem verifyUpload_two_answers :
    checkedIntent.validate someOrder = .ok () ∧
      (∀ kv, (lookingAt ⟨lowerRune, foldRune⟩ kv).Orders) ∧
      (∃ result, verifyUpload (lookingAt ⟨lowerRune, foldRune⟩ ("sha256", "abc")) checkedIntent
        ambiguousObject = .ok result ∧ result.verified = true) ∧
      ∃ result, verifyUpload (lookingAt ⟨lowerRune, foldRune⟩ ("SHA256", "xyz")) checkedIntent
        ambiguousObject = .ok result ∧ result.verified = false ∧
          result.mismatches = [⟨"checksum.sha256", "abc", "xyz"⟩] := by
  have htype : contentTypeMismatch ⟨lowerRune, foldRune⟩ checkedIntent ambiguousObject = [] := by
    decide +kernel
  have hname : SameAlgorithm ⟨lowerRune, foldRune⟩ "SHA256" "sha256" := by
    unfold SameAlgorithm
    decide +kernel
  have hname' : SameAlgorithm ⟨lowerRune, foldRune⟩ "SHA256" "SHA256" := rfl
  refine ⟨(validate_iff someOrder_isOrder _).mpr checkedIntent_valid, lookingAt_orders _, ?_, ?_⟩
  · obtain ⟨reference, hanswer⟩ :=
      verifyUpload_ambiguousObject ⟨lowerRune, foldRune⟩ ("sha256", "abc")
    have hnil : checksumMismatch ⟨lowerRune, foldRune⟩
        (visitFirst ("sha256", "abc") ambiguousObject.checksums) "SHA256" " abc " = [] := by
      rw [checksumMismatch_eq_nil_iff, foundValue_visitFirst (by rfl) hname]
      decide +kernel
    exact ⟨_, hanswer, by rw [htype, hnil]; rfl⟩
  · obtain ⟨reference, hanswer⟩ :=
      verifyUpload_ambiguousObject ⟨lowerRune, foldRune⟩ ("SHA256", "xyz")
    have hfound : foundValue ⟨lowerRune, foldRune⟩
        (visitFirst ("SHA256", "xyz") ambiguousObject.checksums) "SHA256" = trimSpace "xyz" :=
      foundValue_visitFirst (by rfl) hname'
    have hone : checksumMismatch ⟨lowerRune, foldRune⟩
        (visitFirst ("SHA256", "xyz") ambiguousObject.checksums) "SHA256" " abc " =
          [⟨"checksum.sha256", "abc", "xyz"⟩] := by
      rw [checksumMismatch_eq, hfound]
      decide +kernel
    exact ⟨_, hanswer, by rw [htype, hone]; rfl, by rw [htype, hone]; rfl⟩

end OneAnswer

end Storage
end GatewayRuntime
