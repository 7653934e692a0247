import GatewayRuntime.Lib.Distinct
import GatewayRuntime.StorageRequest

/-!
# Completed parts

`validateCompletedParts` of `internal/roleruntime/server.go` checks the parts that a client
lists when it completes a multipart upload.  Its loop has three early exits beside the two
tests of the length, and it keeps the part numbers it has met.

The loop body collects distinct parts in the sense of `Distinct.Collects`, so a list is
accepted exactly when it is well formed, and it is passed on with trimmed ETags
(`validateCompletedParts_eq_ok_iff`).  Trimming keeps a list well formed and does nothing the
second time (`completed_parts_accepted`).
-/

namespace GatewayRuntime
namespace Storage

open GoText Distinct

section Parts

/-- A part number that storage providers accept. -/
def validPartNumber (n : Int64) : Prop :=
  1 ≤ n ∧ n ≤ 10000

/-- A part as it is passed on: with the trimmed ETag. -/
def CompletedPart.trimmed (part : CompletedPart) : CompletedPart :=
  ⟨part.partNumber, trimSpace part.etag⟩

/-- The checks of the loop that look at one part only. -/
def CompletedPart.Valid (part : CompletedPart) : Prop :=
  validPartNumber part.partNumber ∧ trimSpace part.etag ≠ ""

/-- A list of completed parts as a client should send it. -/
structure WellFormedParts (parts : List CompletedPart) : Prop where
  nonempty : 1 ≤ parts.length
  bounded : parts.length ≤ 10000
  valid : ∀ part ∈ parts, part.Valid
  distinct : (parts.map CompletedPart.partNumber).Nodup

@[simp] theorem etag_trimmed (part : CompletedPart) :
    part.trimmed.etag = trimSpace part.etag :=
  rfl

@[simp] theorem trimmed_trimmed (part : CompletedPart) :
    part.trimmed.trimmed = part.trimmed := by
  simp [CompletedPart.trimmed]

theorem CompletedPart.Valid.trimmed {part : CompletedPart} (h : part.Valid) :
    part.trimmed.Valid := by
  refine ⟨h.1, ?_⟩
  rw [etag_trimmed, trimSpace_trimSpace]
  exact h.2

theorem map_partNumber_trimmed (parts : List CompletedPart) :
    (parts.map CompletedPart.trimmed).map CompletedPart.partNumber =
      parts.map CompletedPart.partNumber := by
  rw [List.map_map]
  rfl

/-- Trimmed parts are well formed. -/
theorem WellFormedParts.trimmed {parts : List CompletedPart} (h : WellFormedParts parts) :
    WellFormedParts (parts.map CompletedPart.trimmed) where
  nonempty := by
    rw [List.length_map]
    exact h.nonempty
  bounded := by
    rw [List.length_map]
    exact h.bounded
  valid := List.forall_mem_map.mpr fun part hpart => (h.valid part hpart).trimmed
  distinct := by
    rw [map_partNumber_trimmed]
    exact h.distinct

end Parts

section Validation

/-- One round of the loop. -/
theorem validatePart_collects :
    Collects validatePart CompletedPart.Valid CompletedPart.partNumber CompletedPart.trimmed := by
  intro seen done part acc
  have hrange : (decide (part.partNumber < 1) || decide (10000 < part.partNumber)) = true ↔
      ¬validPartNumber part.partNumber := by
    rw [validPartNumber, not_and_or, Int64.not_le, Int64.not_le]
    simp
  unfold validatePart
  by_cases hnumber : validPartNumber part.partNumber
  · rw [if_neg fun h => hrange.mp h hnumber]
    by_cases hetag : trimSpace part.etag = ""
    · rw [if_pos hetag]
      refine iff_of_false (by simp) ?_
      rintro ⟨hvalid, -, -⟩
      exact hvalid.2 hetag
    · rw [if_neg hetag]
      by_cases hseen : part.partNumber ∈ seen
      · rw [if_pos hseen]
        refine iff_of_false (by simp) ?_
        rintro ⟨-, hnew, -⟩
        exact hnew hseen
      · rw [if_neg hseen]
        constructor
        · intro h
          exact ⟨⟨hnumber, hetag⟩, hseen, (Except.ok.inj h).symm⟩
        · rintro ⟨-, -, rfl⟩
          rfl
  · rw [if_pos (hrange.mpr hnumber)]
    refine iff_of_false (by simp) ?_
    rintro ⟨hvalid, -, -⟩
    exact hnumber hvalid.1

/-- The loop from its start. -/
theorem collectParts_eq_ok_iff (sent parts : List CompletedPart) :
    (sent.foldlM validatePart ([], [])).map Prod.snd = .ok parts ↔
      (∀ part ∈ sent, part.Valid) ∧ (sent.map CompletedPart.partNumber).Nodup ∧
        parts = sent.map CompletedPart.trimmed := by
  have hloop := validatePart_collects.foldlM_eq_ok_iff sent [] []
  rw [← fresh_nil_iff]
  constructor
  · intro h
    cases hrun : sent.foldlM validatePart ([], []) with
    | error e =>
        rw [hrun] at h
        cases h
    | ok acc =>
        rw [hrun] at h
        obtain ⟨hvalid, hfresh, rfl⟩ := (hloop acc).mp hrun
        exact ⟨hvalid, hfresh, (Except.ok.inj h).symm⟩
  · rintro ⟨hvalid, hfresh, rfl⟩
    rw [(hloop _).mpr ⟨hvalid, hfresh, rfl⟩]
    rfl

/-- What is accepted, and what is passed on. -/
theorem validateCompletedParts_eq_ok_iff (sent parts : List CompletedPart) :
    validateCompletedParts sent = .ok parts ↔
      WellFormedParts sent ∧ parts = sent.map CompletedPart.trimmed := by
  unfold validateCompletedParts
  by_cases hempty : sent.length = 0
  · rw [if_pos hempty]
    refine iff_of_false (by simp) ?_
    rintro ⟨hwell, -⟩
    have hnonempty := hwell.nonempty
    omega
  by_cases hmany : 10000 < sent.length
  · rw [if_neg hempty, if_pos hmany]
    refine iff_of_false (by simp) ?_
    rintro ⟨hwell, -⟩
    have hbounded := hwell.bounded
    omega
  rw [if_neg hempty, if_neg hmany, collectParts_eq_ok_iff]
  constructor
  · rintro ⟨hvalid, hdistinct, hparts⟩
    exact ⟨⟨by omega, by omega, hvalid, hdistinct⟩, hparts⟩
  · rintro ⟨hwell, hparts⟩
    exact ⟨hwell.valid, hwell.distinct, hparts⟩

/-- What holds of the parts that are passed on. -/
structure PassedOn (sent parts : List CompletedPart) : Prop where
  length : parts.length = sent.length
  numbers : parts.map CompletedPart.partNumber = sent.map CompletedPart.partNumber
  etags : parts.map CompletedPart.etag = sent.map fun part => trimSpace part.etag
  again : validateCompletedParts parts = .ok parts

/-- **Completed parts** are accepted exactly when they are well formed; they keep their order
and their numbers, and a second validation changes nothing. -/
theorem completed_parts_accepted (sent : List CompletedPart) :
    ((∃ parts, validateCompletedParts sent = .ok parts) ↔
        1 ≤ sent.length ∧ sent.length ≤ 10000 ∧
          (∀ part ∈ sent, validPartNumber part.partNumber) ∧
          (∀ part ∈ sent, trimSpace part.etag ≠ "") ∧
          (sent.map CompletedPart.partNumber).Pairwise (· ≠ ·)) ∧
      ∀ parts, validateCompletedParts sent = .ok parts → PassedOn sent parts := by
  refine ⟨⟨?_, ?_⟩, ?_⟩
  · rintro ⟨parts, hparts⟩
    obtain ⟨hwell, -⟩ := (validateCompletedParts_eq_ok_iff sent parts).mp hparts
    exact ⟨hwell.nonempty, hwell.bounded, fun part hpart => (hwell.valid part hpart).1,
      fun part hpart => (hwell.valid part hpart).2, hwell.distinct⟩
  · rintro ⟨hnonempty, hbounded, hnumbers, hetags, hdistinct⟩
    have hwell : WellFormedParts sent :=
      ⟨hnonempty, hbounded, fun part hpart => ⟨hnumbers part hpart, hetags part hpart⟩, hdistinct⟩
    exact ⟨_, (validateCompletedParts_eq_ok_iff sent _).mpr ⟨hwell, rfl⟩⟩
  · intro parts hparts
    obtain ⟨hwell, rfl⟩ := (validateCompletedParts_eq_ok_iff sent parts).mp hparts
    refine ⟨List.length_map _, map_partNumber_trimmed sent, ?_, ?_⟩
    · rw [List.map_map]
      rfl
    · rw [validateCompletedParts_eq_ok_iff, List.map_map]
      refine ⟨hwell.trimmed, ?_⟩
      exact List.map_congr_left fun part _ => (trimmed_trimmed part).symm

-- the numbers need not be in order, and a blank around an ETag is dropped
example :
    validateCompletedParts [⟨3, " b"⟩, ⟨1, "a "⟩] = .ok [⟨3, "b"⟩, ⟨1, "a"⟩] := by
  decide +kernel

end Validation

end Storage
end GatewayRuntime
