import GatewayRuntime.Lib.GoText

/-!
# The bytes of a string

A Go string is a sequence of bytes, and packages that work on bytes see the UTF-8 encoding of
a text.  The bytes are written as runes here, each with the number of its byte.

ASCII runes stand for themselves, and the bytes of other runes are not ASCII.  So a search for
an ASCII byte finds the same runes in the text and in its bytes.
-/

namespace GatewayRuntime
namespace GoText

/-- The bytes of a rune. -/
def runeBytes (c : Char) : List Char :=
  (String.utf8EncodeChar c).map fun b => Char.ofNat b.toNat

/-- The bytes of a string. -/
def bytesOf (s : String) : String :=
  String.ofList (s.toList.flatMap runeBytes)

/-- A text of ASCII runes. -/
def isASCII (s : String) : Bool :=
  s.toList.all fun c => decide (c.toNat < 128)

theorem isASCII_iff (s : String) :
    isASCII s = true ↔ ∀ c ∈ s.toList, c.toNat < 128 := by
  simp [isASCII]

theorem toNat_ofNat_byte (b : UInt8) :
    (Char.ofNat b.toNat).toNat = b.toNat := by
  have hvalid : b.toNat.isValidChar := Or.inl (b.toNat_lt.trans (by decide))
  rw [Char.ofNat, dif_pos hvalid]
  rfl

theorem runeBytes_of_ascii {c : Char} (h : c.toNat < 128) :
    runeBytes c = [c] := by
  have hval : c.val.toNat ≤ 127 := Nat.le_of_lt_succ h
  have hmod : c.val.toNat % 256 = c.val.toNat := by omega
  simp only [runeBytes, String.utf8EncodeChar, hval, if_true, List.map_cons, List.map_nil]
  rw [UInt8.toNat_ofNat', hmod]
  simp

theorem runeBytes_of_not_ascii {c b : Char} (h : 128 ≤ c.toNat) (hb : b ∈ runeBytes c) :
    128 ≤ b.toNat := by
  obtain ⟨byte, hbyte, rfl⟩ := List.mem_map.mp hb
  rw [toNat_ofNat_byte]
  have hval : ¬c.val.toNat ≤ 127 := by
    rw [not_le]
    exact h
  simp only [String.utf8EncodeChar, hval, if_false] at hbyte
  split_ifs at hbyte <;> simp only [List.mem_cons, List.not_mem_nil, or_false] at hbyte
  · rcases hbyte with rfl | rfl <;> rw [UInt8.toNat_ofNat'] <;> omega
  · rcases hbyte with rfl | rfl | rfl <;> rw [UInt8.toNat_ofNat'] <;> omega
  · rcases hbyte with rfl | rfl | rfl | rfl <;> rw [UInt8.toNat_ofNat'] <;> omega

theorem runeBytes_ne_nil (c : Char) :
    runeBytes c ≠ [] := by
  unfold runeBytes String.utf8EncodeChar
  dsimp only
  split_ifs <;> simp

/-- An ASCII rune is among the bytes exactly if it is in the text. -/
theorem mem_bytesOf_iff {c : Char} (hc : c.toNat < 128) (s : String) :
    c ∈ (bytesOf s).toList ↔ c ∈ s.toList := by
  simp only [bytesOf, String.toList_ofList, List.mem_flatMap]
  constructor
  · rintro ⟨d, hd, hcd⟩
    by_cases hascii : d.toNat < 128
    · rw [runeBytes_of_ascii hascii, List.mem_singleton] at hcd
      rwa [hcd]
    · have hhigh := runeBytes_of_not_ascii (not_lt.mp hascii) hcd
      omega
  · intro hmem
    exact ⟨c, hmem, by simp [runeBytes_of_ascii hc]⟩

theorem bytesOf_append (s t : String) :
    bytesOf (s ++ t) = bytesOf s ++ bytesOf t := by
  simp [bytesOf]

theorem bytesOf_of_isASCII {s : String} (h : isASCII s = true) :
    bytesOf s = s := by
  rw [isASCII_iff] at h
  have hmap : s.toList.flatMap runeBytes = s.toList.flatMap fun c => [c] :=
    List.flatMap_congr fun c hc => runeBytes_of_ascii (h c hc)
  rw [bytesOf, hmap]
  simp

/-- A text is an ASCII text exactly if its bytes are. -/
theorem bytesOf_eq_iff {t : String} (ht : isASCII t = true) (s : String) :
    bytesOf s = t ↔ s = t := by
  constructor
  · intro h
    have hascii : isASCII s = true := by
      rw [isASCII_iff] at ht ⊢
      intro c hc
      by_contra hhigh
      obtain ⟨b, hb⟩ := List.exists_mem_of_ne_nil _ (runeBytes_ne_nil c)
      have hmem : b ∈ t.toList := by
        rw [← h, bytesOf, String.toList_ofList]
        exact List.mem_flatMap.mpr ⟨c, hc, hb⟩
      have hlow := ht b hmem
      have hhigh' := runeBytes_of_not_ascii (not_lt.mp hhigh) hb
      omega
    rw [← h, bytesOf_of_isASCII hascii]
  · rintro rfl
    exact bytesOf_of_isASCII ht

end GoText
end GatewayRuntime
