import SimpleVpn.Concrete.Utils

/-!
# What `verify_checksum` detects

A buffer in which one aligned word was replaced keeps its checksum only when the
word went from `0x0000` to `0xffff` or back: these are the two representations
of zero.  A single changed byte is always detected.
-/

namespace SimpleVpn.ErrorDetection

open SimpleVpn.TracedMemory SimpleVpn.HostWords SimpleVpn.OnesComplement
open SimpleVpn.Utils

/-- The big-endian word at `start`. -/
def wordAt (block : Block) (start : ℕ) : UInt16 :=
  word16 (block.byte start) (block.byte (start + 1))

/-- The buffers differ in the bytes of one aligned word and nowhere else.  The
last word of a buffer of odd length has one byte. -/
structure WordChanged (original changed : Block) (buf len word : ℕ) : Prop where
  inside : 2 * word < len
  agree : ∀ index < len, index / 2 ≠ word →
    changed.byte (buf + index) = original.byte (buf + index)
  differ : ∃ index < len, index / 2 = word ∧
    changed.byte (buf + index) ≠ original.byte (buf + index)

/-- The buffers differ in one byte and nowhere else. -/
structure ByteChanged (original changed : Block) (buf len position : ℕ) :
    Prop where
  inside : position < len
  agree : ∀ index < len, index ≠ position →
    changed.byte (buf + index) = original.byte (buf + index)
  differ : changed.byte (buf + position) ≠ original.byte (buf + position)

/-- A full word went from one representation of zero to the other. -/
def ZeroFlipped (original changed : Block) (buf len word : ℕ) : Prop :=
  2 * word + 1 < len ∧
    ((wordAt original (buf + 2 * word) = 0x0000 ∧
        wordAt changed (buf + 2 * word) = 0xffff) ∨
      (wordAt original (buf + 2 * word) = 0xffff ∧
        wordAt changed (buf + 2 * word) = 0x0000))

/-- What a word contributes to the sum; an odd last byte is padded. -/
def paddedWord (block : Block) (buf len word : ℕ) : ℕ :=
  wordSum (block.slice (buf + 2 * word) (min 2 (len - 2 * word)))

section Padded

variable (block : Block) (buf : ℕ) {len word : ℕ}

theorem paddedWord_full (hfull : 2 * word + 1 < len) :
    paddedWord block buf len word = (wordAt block (buf + 2 * word)).toNat := by
  rw [paddedWord, Nat.min_eq_left (by omega), wordAt, toNat_word16]
  simp only [Block.slice_succ, Block.slice_zero, wordSum, Nat.add_zero]

theorem paddedWord_last (hlast : len = 2 * word + 1) :
    paddedWord block buf len word =
      (block.byte (buf + 2 * word)).toNat * 256 := by
  rw [paddedWord, hlast, Nat.add_sub_cancel_left, Nat.min_eq_right (by omega)]
  simp only [Block.slice_succ, Block.slice_zero, wordSum]

theorem paddedWord_le : paddedWord block buf len word ≤ 65535 := by
  have hle := wordSum_le (block.slice (buf + 2 * word) (min 2 (len - 2 * word)))
  rw [Block.length_slice] at hle
  rw [paddedWord]
  omega

/-- The sum of a buffer, with one word taken out. -/
theorem wordSum_slice_word (hinside : 2 * word < len) :
    wordSum (block.slice buf len) =
      wordSum (block.slice buf (2 * word)) + (paddedWord block buf len word +
        wordSum (block.slice (buf + 2 * word + min 2 (len - 2 * word))
          (len - (2 * word + min 2 (len - 2 * word))))) := by
  have hsplit : block.slice buf len = block.slice buf (2 * word) ++
      (block.slice (buf + 2 * word) (min 2 (len - 2 * word)) ++
        block.slice (buf + 2 * word + min 2 (len - 2 * word))
          (len - (2 * word + min 2 (len - 2 * word)))) := by
    rw [← Block.slice_add, ← Block.slice_add]
    congr 1
    omega
  rw [hsplit, wordSum_append _ (by rw [Block.length_slice]; omega), paddedWord]
  congr 1
  rcases Nat.lt_or_ge (2 * word + 1) len with hfull | hlast
  · apply wordSum_append
    rw [Block.length_slice, Nat.min_eq_left (by omega)]
  · rw [show len - (2 * word + min 2 (len - 2 * word)) = 0 by omega,
      Block.slice_zero, List.append_nil]
    rfl

end Padded

section Changed

variable {original changed : Block} {buf len word : ℕ}
variable (hchanged : WordChanged original changed buf len word)

include hchanged

/-- The sums of both buffers have everything but the changed word in common. -/
theorem WordChanged.exists_rest :
    ∃ rest,
      wordSum (original.slice buf len) =
        rest + paddedWord original buf len word ∧
      wordSum (changed.slice buf len) = rest + paddedWord changed buf len word := by
  have hinside := hchanged.inside
  have hbefore : changed.slice buf (2 * word) = original.slice buf (2 * word) := by
    apply Block.slice_congr
    intro index hindex
    exact hchanged.agree index (by omega) (by omega)
  have hafter : changed.slice (buf + 2 * word + min 2 (len - 2 * word))
      (len - (2 * word + min 2 (len - 2 * word))) =
        original.slice (buf + 2 * word + min 2 (len - 2 * word))
          (len - (2 * word + min 2 (len - 2 * word))) := by
    apply Block.slice_congr
    intro index hindex
    have hagree := hchanged.agree (2 * word + 2 + index) (by omega) (by omega)
    rwa [Nat.min_eq_left (by omega), Nat.add_assoc, Nat.add_assoc,
      ← Nat.add_assoc (2 * word)]
  refine ⟨wordSum (original.slice buf (2 * word)) +
    wordSum (original.slice (buf + 2 * word + min 2 (len - 2 * word))
      (len - (2 * word + min 2 (len - 2 * word)))), ?_, ?_⟩
  · rw [wordSum_slice_word original buf hinside]
    ring
  · rw [wordSum_slice_word changed buf hinside, hbefore, hafter]
    ring

/-- Different bytes make different words. -/
theorem WordChanged.paddedWord_ne :
    paddedWord changed buf len word ≠ paddedWord original buf len word := by
  intro heq
  obtain ⟨index, hindex, hword, hdiffer⟩ := hchanged.differ
  have hinside := hchanged.inside
  rcases Nat.lt_or_ge (2 * word + 1) len with hfull | hlast
  · rw [paddedWord_full changed buf hfull, paddedWord_full original buf hfull,
      UInt16.toNat_inj] at heq
    have hhigh := congrArg hi16 heq
    have hlow := congrArg lo16 heq
    simp only [wordAt, hi16_word16, lo16_word16] at hhigh hlow
    have hcases : index = 2 * word ∨ index = 2 * word + 1 := by omega
    rcases hcases with rfl | rfl
    · exact hdiffer hhigh
    · exact hdiffer hlow
  · rw [paddedWord_last changed buf (by omega),
      paddedWord_last original buf (by omega)] at heq
    obtain rfl : index = 2 * word := by omega
    exact hdiffer (UInt8.toNat_inj.mp (by omega))

/-- The words are the two representations of zero. -/
theorem WordChanged.zeroFlipped_iff :
    ((paddedWord original buf len word = 0 ∧
        paddedWord changed buf len word = 65535) ∨
      (paddedWord original buf len word = 65535 ∧
        paddedWord changed buf len word = 0)) ↔
      ZeroFlipped original changed buf len word := by
  have hinside := hchanged.inside
  rcases Nat.lt_or_ge (2 * word + 1) len with hfull | hlast
  · rw [paddedWord_full changed buf hfull, paddedWord_full original buf hfull,
      ZeroFlipped]
    simp only [← UInt16.toNat_inj]
    simp [hfull]
  · have hbound : ∀ block : Block, paddedWord block buf len word ≠ 65535 := by
      intro block
      rw [paddedWord_last block buf (by omega)]
      omega
    simp only [hbound, and_false, false_and, or_false, ZeroFlipped, false_iff]
    omega

end Changed

section Detection

variable (order : ByteOrder) {original changed : Block} {buf len : ℕ}
variable (hlen : len ≤ 131074)

include hlen

/-- A replaced word is missed only between the two representations of zero. -/
theorem WordChanged.verifyChecksum_eq_zero_iff {word : ℕ}
    (hchanged : WordChanged original changed buf len word) :
    (verifyChecksum order changed buf len
        (cksum order original buf len).value).value = 0 ↔
      ZeroFlipped original changed buf len word := by
  obtain ⟨rest, horiginal, hsum⟩ := hchanged.exists_rest
  rw [Utils.verifyChecksum_eq_zero_iff, value_cksum order _ _ _ hlen,
    value_cksum order _ _ _ hlen, (htons_injective order).eq_iff,
    checksum_eq_iff, horiginal, hsum,
    add_modEq_add_iff rest (paddedWord_le original buf)
      (paddedWord_le changed buf),
    ← hchanged.zeroFlipped_iff]
  exact or_iff_right hchanged.paddedWord_ne

/-- A changed byte changes its word, and not between the representations of
zero. -/
theorem ByteChanged.verifyChecksum_eq_neg_one {position : ℕ}
    (hchanged : ByteChanged original changed buf len position) :
    (verifyChecksum order changed buf len
        (cksum order original buf len).value).value = -1 := by
  have hinside := hchanged.inside
  have hword : WordChanged original changed buf len (position / 2) := by
    refine ⟨by omega, fun index hindex hother => ?_, position, hinside, rfl,
      hchanged.differ⟩
    exact hchanged.agree index hindex fun heq => hother (by rw [heq])
  rw [verifyChecksum_eq_neg_one_iff, Ne,
    hword.verifyChecksum_eq_zero_iff order hlen]
  rintro ⟨hfull, hflipped⟩
  -- the byte that did not change would have to be both zero and 255
  have hkept : ∃ index, (index = 2 * (position / 2) ∨
      index = 2 * (position / 2) + 1) ∧
      changed.byte (buf + index) = original.byte (buf + index) := by
    by_cases heven : position = 2 * (position / 2)
    · exact ⟨2 * (position / 2) + 1, Or.inr rfl,
        hchanged.agree _ hfull (by omega)⟩
    · exact ⟨2 * (position / 2), Or.inl rfl,
        hchanged.agree _ (by omega) (by omega)⟩
  obtain ⟨index, hindex, hsame⟩ := hkept
  have hbytes : ∀ block : Block, ∀ word,
      wordAt block (buf + 2 * (position / 2)) = word →
        block.byte (buf + index) =
          if index = 2 * (position / 2) then hi16 word else lo16 word := by
    rintro block word rfl
    rcases hindex with rfl | rfl
    · simp [wordAt]
    · simp [wordAt, Nat.add_assoc]
  rcases hflipped with ⟨hzero, hones⟩ | ⟨hones, hzero⟩
  all_goals
    rw [hbytes _ _ hzero, hbytes _ _ hones] at hsame
    revert hsame
    split <;> decide

/-- A corrupted word is reported unless it went from one representation of zero
to the other, and a corrupted byte is always reported. -/
theorem verifyChecksum_detects :
    (∀ word, WordChanged original changed buf len word →
      ((verifyChecksum order changed buf len
          (cksum order original buf len).value).value = 0 ↔
        ZeroFlipped original changed buf len word)) ∧
    ∀ position, ByteChanged original changed buf len position →
      (verifyChecksum order changed buf len
        (cksum order original buf len).value).value = -1 :=
  ⟨fun _ hchanged => hchanged.verifyChecksum_eq_zero_iff order hlen,
    fun _ hchanged => hchanged.verifyChecksum_eq_neg_one order hlen⟩

end Detection

/-- In a buffer of three bytes the first word goes from zero to `0xffff`
unnoticed, and a change of the last byte is reported. -/
theorem verifyChecksum_detects_three :
    (verifyChecksum .little (ofBytes [0xff, 0xff, 7]) 0 3
        (cksum .little (ofBytes [0, 0, 7]) 0 3).value).value = 0 ∧
      (verifyChecksum .little (ofBytes [0, 0, 8]) 0 3
        (cksum .little (ofBytes [0, 0, 7]) 0 3).value).value = -1 :=
  ⟨((verifyChecksum_detects .little (by decide)).1 0
      ⟨by decide, by decide, 0, by decide, rfl, by decide⟩).mpr
      ⟨by decide, Or.inl ⟨rfl, rfl⟩⟩,
    (verifyChecksum_detects .little (by decide)).2 2
      ⟨by decide, by decide, by decide⟩⟩

end SimpleVpn.ErrorDetection
