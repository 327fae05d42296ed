import Mathlib.Algebra.BigOperators.Fin
import SimpleVpn.Concrete.ErrorDetection

/-!
# Bursts and permutations

`verify_checksum` sees a buffer through the sum of its words.  So it never notices
that words were put in another order, and it notices every change of at most 16
consecutive bits, wherever they begin, unless all of them were zero and became one
or the other way round.
-/

namespace SimpleVpn.Bursts

open SimpleVpn.TracedMemory SimpleVpn.HostWords SimpleVpn.OnesComplement
open SimpleVpn.Utils SimpleVpn.ErrorDetection

section Words

variable (block : Block) (buf : ℕ) {len : ℕ}

theorem paddedWord_of_le {word : ℕ} (hword : len ≤ 2 * word) :
    paddedWord block buf len word = 0 := by
  rw [paddedWord, Nat.sub_eq_zero_of_le hword, Nat.min_zero, Block.slice_zero]
  rfl

/-- The first words of a buffer. -/
theorem wordSum_words (count : ℕ) :
    wordSum (block.slice buf (min len (2 * count))) =
      ∑ word ∈ Finset.range count, paddedWord block buf len word := by
  induction count with
  | zero => simp [wordSum]
  | succ count ih =>
      rw [Finset.sum_range_succ, ← ih]
      rcases Nat.lt_or_ge (2 * count) len with hlt | hge
      · rw [Nat.min_eq_right hlt.le, show min len (2 * (count + 1)) =
          2 * count + min 2 (len - 2 * count) by omega, Block.slice_add,
          wordSum_append _ (by rw [Block.length_slice]; omega), paddedWord]
      · rw [paddedWord_of_le block buf hge, Nat.min_eq_left hge,
          Nat.min_eq_left (by omega)]
        exact (Nat.add_zero _).symm

/-- Words behind the end of the buffer add nothing. -/
theorem wordSum_eq_sum {count : ℕ} (hcount : len ≤ 2 * count) :
    wordSum (block.slice buf len) =
      ∑ word ∈ Finset.range count, paddedWord block buf len word := by
  rw [← wordSum_words, Nat.min_eq_left hcount]

end Words

/-- A bit of a buffer; the first bit of a byte is its highest. -/
def bitAt (block : Block) (buf position : ℕ) : Bool :=
  (block.byte (buf + position / 8)).toNat.testBit (7 - position % 8)

/-- The same, with zeros behind the end of the buffer. -/
def paddedBit (block : Block) (buf len position : ℕ) : Bool :=
  decide (position < 8 * len) && bitAt block buf position

theorem testBit_high (high low : UInt8) (index : ℕ) :
    (high.toNat * 256 + low.toNat).testBit index =
      if index < 8 then low.toNat.testBit index
      else high.toNat.testBit (index - 8) := by
  rw [Nat.mul_comm, show 256 = 2 ^ 8 from rfl,
    Nat.testBit_two_pow_mul_add _ low.toNat_lt]

/-- The bits of a word are those of its place in the buffer. -/
theorem testBit_paddedWord (block : Block) (buf len word : ℕ) {index : ℕ}
    (hindex : index < 16) :
    (paddedWord block buf len word).testBit index =
      paddedBit block buf len (16 * word + (15 - index)) := by
  rw [paddedBit, bitAt]
  rcases Nat.lt_or_ge (2 * word + 1) len with hfull | hle
  · have hinside : 16 * word + (15 - index) < 8 * len := by omega
    rw [paddedWord_full block buf hfull, wordAt, toNat_word16, testBit_high,
      decide_eq_true hinside, Bool.true_and]
    split
    next hlow =>
      rw [show (16 * word + (15 - index)) / 8 = 2 * word + 1 by omega,
        show 7 - (16 * word + (15 - index)) % 8 = index by omega, Nat.add_assoc]
    next hhigh =>
      rw [show (16 * word + (15 - index)) / 8 = 2 * word by omega,
        show 7 - (16 * word + (15 - index)) % 8 = index - 8 by omega]
  · rcases Nat.lt_or_ge (2 * word) len with hlast | hbehind
    · have hbits := testBit_high (block.byte (buf + 2 * word)) 0 index
      rw [show (0 : UInt8).toNat = 0 from rfl, Nat.add_zero,
        Nat.zero_testBit] at hbits
      rw [paddedWord_last block buf (by omega), hbits]
      split
      next hlow => rw [decide_eq_false (by omega), Bool.false_and]
      next hhigh =>
        have hinside : 16 * word + (15 - index) < 8 * len := by omega
        rw [decide_eq_true hinside, Bool.true_and,
          show (16 * word + (15 - index)) / 8 = 2 * word by omega,
          show 7 - (16 * word + (15 - index)) % 8 = index - 8 by omega]
    · rw [paddedWord_of_le block buf hbehind, Nat.zero_testBit,
        decide_eq_false (by omega), Bool.false_and]

/-- The buffers differ at most in 16 consecutive bits from `first` on. -/
def BurstFrom (original changed : Block) (buf len first : ℕ) : Prop :=
  ∀ position < 8 * len, position < first ∨ first + 16 ≤ position →
    bitAt changed buf position = bitAt original buf position

instance (original changed : Block) (buf len first : ℕ) :
    Decidable (BurstFrom original changed buf len first) :=
  inferInstanceAs (Decidable (∀ position < 8 * len,
    position < first ∨ first + 16 ≤ position →
      bitAt changed buf position = bitAt original buf position))

/-- Sixteen consecutive bits went from zero to one, or back. -/
def Flipped (original changed : Block) (buf len first : ℕ) : Prop :=
  first + 16 ≤ 8 * len ∧
    ((∀ index < 16, bitAt original buf (first + index) = false ∧
        bitAt changed buf (first + index) = true) ∨
      ∀ index < 16, bitAt original buf (first + index) = true ∧
        bitAt changed buf (first + index) = false)

/-- The window of a burst, as a word. -/
def windowAt (block : Block) (buf len first : ℕ) : ℕ :=
  window (16 - first % 16) (paddedWord block buf len (first / 16))
    (paddedWord block buf len (first / 16 + 1))

section Windows

variable (block : Block) (buf len first : ℕ)

theorem windowAt_le : windowAt block buf len first ≤ 65535 :=
  window_le (paddedWord_le block buf) (paddedWord_le block buf)

omit block buf len in
/-- Where the window has a bit of the burst. -/
def turned (index : ℕ) : ℕ :=
  if index < 16 - first % 16 then 15 - first % 16 - index
  else 31 - first % 16 - index

omit block buf len in
theorem forall_turned_iff {property : ℕ → Prop} :
    (∀ index < 16, property (turned first index)) ↔
      ∀ index < 16, property index := by
  have hlt : ∀ index < 16, turned first index < 16 := by
    intro index hindex
    rw [turned]
    split <;> omega
  have hback : ∀ index < 16, turned first (turned first index) = index := by
    intro index hindex
    unfold turned
    split <;> split <;> omega
  constructor
  · intro hall index hindex
    rw [← hback index hindex]
    exact hall _ (hlt index hindex)
  · exact fun hall index hindex => hall _ (hlt index hindex)

/-- The window has the bits of the burst. -/
theorem testBit_windowAt {index : ℕ} (hindex : index < 16) :
    (windowAt block buf len first).testBit (turned first index) =
      paddedBit block buf len (first + index) := by
  rw [windowAt, testBit_window, turned]
  by_cases hfront : index < 16 - first % 16
  · rw [if_pos hfront, if_pos (by omega),
      testBit_paddedWord block buf len _ (by omega)]
    congr 1
    omega
  · rw [if_neg hfront, if_neg (by omega),
      testBit_paddedWord block buf len _ (by omega)]
    congr 1
    omega

end Windows

section Burst

variable {original changed : Block} {buf len first : ℕ}

/-- The window as a value. -/
theorem windowAt_eq_iff :
    windowAt changed buf len first = windowAt original buf len first ↔
      ∀ index < 16, paddedBit changed buf len (first + index) =
        paddedBit original buf len (first + index) := by
  rw [eq_iff_testBit (windowAt_le _ _ _ _) (windowAt_le _ _ _ _),
    ← forall_turned_iff first]
  refine forall₂_congr fun index hindex => ?_
  rw [testBit_windowAt _ _ _ _ hindex, testBit_windowAt _ _ _ _ hindex]

theorem windowAt_eq_zero_iff (block : Block) :
    windowAt block buf len first = 0 ↔
      ∀ index < 16, paddedBit block buf len (first + index) = false := by
  rw [eq_zero_iff_testBit (windowAt_le _ _ _ _), ← forall_turned_iff first]
  refine forall₂_congr fun index hindex => ?_
  rw [testBit_windowAt _ _ _ _ hindex]

theorem windowAt_eq_ones_iff (block : Block) :
    windowAt block buf len first = 65535 ↔
      ∀ index < 16, paddedBit block buf len (first + index) = true := by
  rw [eq_ones_iff_testBit (windowAt_le _ _ _ _), ← forall_turned_iff first]
  refine forall₂_congr fun index hindex => ?_
  rw [testBit_windowAt _ _ _ _ hindex]

/-- All bits of a window are set only inside the buffer. -/
theorem paddedBit_ones_iff (block : Block) :
    (∀ index < 16, paddedBit block buf len (first + index) = true) ↔
      first + 16 ≤ 8 * len ∧
        ∀ index < 16, bitAt block buf (first + index) = true := by
  simp only [paddedBit, Bool.and_eq_true, decide_eq_true_iff]
  constructor
  · intro hall
    have hlast := (hall 15 (by decide)).1
    exact ⟨by omega, fun index hindex => (hall index hindex).2⟩
  · rintro ⟨hinside, hall⟩ index hindex
    exact ⟨by omega, hall index hindex⟩

/-- The window went from one representation of zero to the other. -/
theorem flipped_iff :
    ((windowAt original buf len first = 0 ∧
        windowAt changed buf len first = 65535) ∨
      (windowAt original buf len first = 65535 ∧
        windowAt changed buf len first = 0)) ↔
      Flipped original changed buf len first := by
  have hzero : ∀ block, first + 16 ≤ 8 * len →
      ((∀ index < 16, paddedBit block buf len (first + index) = false) ↔
        ∀ index < 16, bitAt block buf (first + index) = false) := by
    intro block hinside
    refine forall₂_congr fun index hindex => ?_
    rw [paddedBit, decide_eq_true (show first + index < 8 * len by omega),
      Bool.true_and]
  simp only [windowAt_eq_zero_iff, windowAt_eq_ones_iff, paddedBit_ones_iff,
    Flipped]
  constructor
  · rintro (⟨hfirst, hinside, hsecond⟩ | ⟨⟨hinside, hfirst⟩, hsecond⟩)
    · rw [hzero _ hinside] at hfirst
      exact ⟨hinside, Or.inl fun index hindex =>
        ⟨hfirst index hindex, hsecond index hindex⟩⟩
    · rw [hzero _ hinside] at hsecond
      exact ⟨hinside, Or.inr fun index hindex =>
        ⟨hfirst index hindex, hsecond index hindex⟩⟩
  · rintro ⟨hinside, hboth | hboth⟩
    · refine Or.inl ⟨(hzero _ hinside).mpr fun index hindex =>
        (hboth index hindex).1, hinside, fun index hindex =>
          (hboth index hindex).2⟩
    · refine Or.inr ⟨⟨hinside, fun index hindex => (hboth index hindex).1⟩,
        (hzero _ hinside).mpr fun index hindex => (hboth index hindex).2⟩

end Burst

section Detection

variable {original changed : Block} {buf len first : ℕ}
variable (hburst : BurstFrom original changed buf len first)

include hburst

theorem BurstFrom.paddedBit_eq {position : ℕ}
    (hplace : position < first ∨ first + 16 ≤ position) :
    paddedBit changed buf len position = paddedBit original buf len position := by
  rw [paddedBit, paddedBit]
  by_cases hinside : position < 8 * len
  · rw [hburst position hinside hplace]
  · rw [decide_eq_false hinside, Bool.false_and, Bool.false_and]

theorem BurstFrom.testBit_eq {word index : ℕ} (hindex : index < 16)
    (hplace : 16 * word + (15 - index) < first ∨
      first + 16 ≤ 16 * word + (15 - index)) :
    (paddedWord changed buf len word).testBit index =
      (paddedWord original buf len word).testBit index := by
  rw [testBit_paddedWord _ _ _ _ hindex, testBit_paddedWord _ _ _ _ hindex,
    hburst.paddedBit_eq hplace]

/-- The other words are as they were. -/
theorem BurstFrom.paddedWord_eq {word : ℕ} (hfirst : word ≠ first / 16)
    (hsecond : word ≠ first / 16 + 1) :
    paddedWord changed buf len word = paddedWord original buf len word := by
  rw [eq_iff_testBit (paddedWord_le _ _) (paddedWord_le _ _)]
  intro index hindex
  exact hburst.testBit_eq hindex (by omega)

/-- So are the bits of the two words outside the window. -/
theorem BurstFrom.outsideWindow_eq :
    outsideWindow (16 - first % 16) (paddedWord changed buf len (first / 16))
        (paddedWord changed buf len (first / 16 + 1)) =
      outsideWindow (16 - first % 16) (paddedWord original buf len (first / 16))
        (paddedWord original buf len (first / 16 + 1)) := by
  apply outsideWindow_congr
  · intro index hindex
    rcases Nat.lt_or_ge index 16 with hlt | hge
    · exact hburst.testBit_eq hlt (by omega)
    · rw [testBit_of_le (paddedWord_le _ _) hge,
        testBit_of_le (paddedWord_le _ _) hge]
  · intro index hindex
    exact hburst.testBit_eq (by omega) (by omega)

omit hburst in
/-- The sum of a buffer, with the window taken out. -/
theorem wordSum_windowAt (block : Block) (buf len first : ℕ) :
    wordSum (block.slice buf len) =
      outsideWindow (16 - first % 16) (paddedWord block buf len (first / 16))
          (paddedWord block buf len (first / 16 + 1)) +
        ∑ word ∈ ((Finset.range (len + first / 16 + 2)).erase
            (first / 16)).erase (first / 16 + 1),
          paddedWord block buf len word +
        windowAt block buf len first := by
  have hwindow := outsideWindow_add_window (16 - first % 16)
    (paddedWord block buf len (first / 16))
    (paddedWord block buf len (first / 16 + 1))
  have hfirst : first / 16 ∈ Finset.range (len + first / 16 + 2) :=
    Finset.mem_range.mpr (by omega)
  have hsecond : first / 16 + 1 ∈
      (Finset.range (len + first / 16 + 2)).erase (first / 16) :=
    Finset.mem_erase.mpr ⟨by omega, Finset.mem_range.mpr (by omega)⟩
  rw [wordSum_eq_sum block buf (show len ≤ 2 * (len + first / 16 + 2) by omega),
    ← Finset.add_sum_erase _ _ hfirst, ← Finset.add_sum_erase _ _ hsecond,
    ← Nat.add_assoc, ← hwindow, windowAt]
  ring

theorem BurstFrom.exists_rest :
    ∃ rest,
      wordSum (original.slice buf len) =
        rest + windowAt original buf len first ∧
      wordSum (changed.slice buf len) =
        rest + windowAt changed buf len first := by
  refine ⟨_, wordSum_windowAt original buf len first, ?_⟩
  rw [wordSum_windowAt changed buf len first, hburst.outsideWindow_eq]
  congr 2
  apply Finset.sum_congr rfl
  intro word hmem
  rw [Finset.mem_erase, Finset.mem_erase] at hmem
  exact hburst.paddedWord_eq hmem.2.1 hmem.1

/-- Outside the window nothing changed, so nothing changed at all when the window
did not. -/
theorem BurstFrom.windowAt_eq_iff :
    windowAt changed buf len first = windowAt original buf len first ↔
      ∀ position < 8 * len, bitAt changed buf position =
        bitAt original buf position := by
  rw [Bursts.windowAt_eq_iff]
  constructor
  · intro hall position hposition
    by_cases hplace : position < first ∨ first + 16 ≤ position
    · exact hburst position hposition hplace
    · have hbit := hall (position - first) (by omega)
      rwa [show first + (position - first) = position by omega, paddedBit,
        paddedBit, decide_eq_true hposition, Bool.true_and,
        Bool.true_and] at hbit
  · intro hall index _
    rw [paddedBit, paddedBit]
    by_cases hinside : first + index < 8 * len
    · rw [hall _ hinside]
    · rw [decide_eq_false hinside, Bool.false_and, Bool.false_and]

/-- A burst of at most 16 bits, wherever it begins, is reported unless it turned 16
zeros into ones or back. -/
theorem verifyChecksum_burst_iff (order : ByteOrder) (hlen : len ≤ 131074) :
    (verifyChecksum order changed buf len
        (cksum order original buf len).value).value = 0 ↔
      (∀ position < 8 * len, bitAt changed buf position =
        bitAt original buf position) ∨
      Flipped original changed buf len first := by
  obtain ⟨rest, horiginal, hsum⟩ := hburst.exists_rest
  rw [Utils.verifyChecksum_eq_zero_iff, value_cksum order _ _ _ hlen,
    value_cksum order _ _ _ hlen, (htons_injective order).eq_iff,
    checksum_eq_iff, horiginal, hsum,
    add_modEq_add_iff rest (windowAt_le _ _ _ _) (windowAt_le _ _ _ _),
    hburst.windowAt_eq_iff, flipped_iff]

end Detection

/-- Three bytes in which the sixteen bits in the middle went from zero to one keep
their checksum. -/
theorem verifyChecksum_burst_iff_three :
    (verifyChecksum .little (ofBytes [0x0f, 0xff, 0xf0]) 0 3
      (cksum .little (ofBytes [0, 0, 0]) 0 3).value).value = 0 := by
  have hburst : BurstFrom (ofBytes [0, 0, 0]) (ofBytes [0x0f, 0xff, 0xf0]) 0 3 4 := by
    decide
  exact (verifyChecksum_burst_iff hburst .little (by decide)).mpr
    (Or.inr ⟨by decide, Or.inl (by decide)⟩)

/-- The words of one buffer in the order of another's. -/
def Permuted (original changed : Block) (buf words : ℕ)
    (place : Equiv.Perm (Fin words)) : Prop :=
  ∀ word : Fin words, wordAt changed (buf + 2 * word.val) =
    wordAt original (buf + 2 * (place word).val)

/-- A buffer of whole words. -/
theorem wordSum_whole (block : Block) (buf words : ℕ) :
    wordSum (block.slice buf (2 * words)) =
      ∑ word : Fin words, (wordAt block (buf + 2 * word.val)).toNat := by
  rw [wordSum_eq_sum block buf (show 2 * words ≤ 2 * words from le_rfl),
    Finset.sum_range]
  refine Finset.sum_congr rfl fun word _ => ?_
  have hword := word.isLt
  exact paddedWord_full block buf (by omega)

/-- Words in another order are never reported. -/
theorem verifyChecksum_of_permuted (order : ByteOrder) {original changed : Block}
    {buf words : ℕ} (hwords : words ≤ 65537) {place : Equiv.Perm (Fin words)}
    (hpermuted : Permuted original changed buf words place) :
    (verifyChecksum order changed buf (2 * words)
        (cksum order original buf (2 * words)).value).value = 0 := by
  have hlen : 2 * words ≤ 131074 := by omega
  have hsum : wordSum (changed.slice buf (2 * words)) =
      wordSum (original.slice buf (2 * words)) := by
    rw [wordSum_whole, wordSum_whole,
      ← Equiv.sum_comp place fun word =>
        (wordAt original (buf + 2 * word.val)).toNat]
    exact Finset.sum_congr rfl fun word _ => by rw [hpermuted word]
  rw [Utils.verifyChecksum_eq_zero_iff, value_cksum order _ _ _ hlen,
    value_cksum order _ _ _ hlen, checksum, checksum, hsum]

theorem verifyChecksum_of_permuted_two :
    (verifyChecksum .little (ofBytes [3, 4, 1, 2]) 0 (2 * 2)
      (cksum .little (ofBytes [1, 2, 3, 4]) 0 (2 * 2)).value).value = 0 := by
  have hpermuted : Permuted (ofBytes [1, 2, 3, 4]) (ofBytes [3, 4, 1, 2]) 0 2
      (Equiv.swap 0 1) := by
    change ∀ word : Fin 2, _ = _
    decide
  exact verifyChecksum_of_permuted .little (by decide) hpermuted

end SimpleVpn.Bursts
