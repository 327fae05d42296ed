import Mathlib.Data.Nat.ModEq
import Mathlib.Data.Nat.Bitwise
import Mathlib.Data.List.Basic
import Mathlib.Tactic.Ring
import Mathlib.Tactic.NormNum

/-!
# Ones' complement sums

The Internet checksum adds the big-endian 16-bit words of a byte string, folds
the carries back in and complements the result.  Folding keeps the sum modulo
65535, so the result depends on the bytes only through their sum modulo 65535.
-/

namespace SimpleVpn.OnesComplement

/-- The sum of the big-endian 16-bit words of a byte string.  An odd last byte
is the high byte of a word with a zero low byte. -/
def wordSum : List UInt8 → ℕ
  | [] => 0
  | [high] => high.toNat * 256
  | high :: low :: rest => high.toNat * 256 + low.toNat + wordSum rest

theorem wordSum_le (bytes : List UInt8) :
    wordSum bytes ≤ 65535 * ((bytes.length + 1) / 2) := by
  induction bytes using wordSum.induct with
  | case1 => exact Nat.zero_le _
  | case2 high =>
      have hhigh := high.toNat_lt
      simp only [wordSum, List.length_singleton]
      omega
  | case3 high low rest ih =>
      have hhigh := high.toNat_lt
      have hlow := low.toNat_lt
      simp only [wordSum, List.length_cons]
      omega

/-- One step of carry folding. -/
def foldOnce (sum : ℕ) : ℕ := sum / 65536 + sum % 65536

theorem foldOnce_modEq (sum : ℕ) : foldOnce sum ≡ sum [MOD 65535] := by
  unfold Nat.ModEq foldOnce
  omega

theorem foldOnce_lt {sum : ℕ} (hsum : 65535 < sum) : foldOnce sum < sum := by
  unfold foldOnce
  omega

/-- The checksum of a sum: the integer from 1 to 65535 that brings the sum to 0
modulo 65535. -/
def complement (sum : ℕ) : ℕ := 65535 - sum % 65535

theorem complement_le (sum : ℕ) : complement sum ≤ 65535 := by
  unfold complement
  omega

theorem complement_congr_iff (left right : ℕ) :
    complement left = complement right ↔ left ≡ right [MOD 65535] := by
  unfold complement Nat.ModEq
  omega

/-- The checksum is the only such integer. -/
theorem eq_complement_iff (candidate sum : ℕ) :
    (1 ≤ candidate ∧ candidate ≤ 65535 ∧ (candidate + sum) % 65535 = 0) ↔
      candidate = complement sum := by
  unfold complement
  omega

/-- A sum folded to 16 bits and complemented is the checksum, up to the two
representations of zero. -/
theorem complement_of_folded {sum folded : ℕ} (hfolded : folded ≤ 65535)
    (hmod : folded ≡ sum [MOD 65535]) :
    complement sum = if 65535 - folded = 0 then 65535 else 65535 - folded := by
  unfold complement
  unfold Nat.ModEq at hmod
  split <;> omega

/-- A string of whole words contributes its own sum. -/
theorem wordSum_append {left : List UInt8} (right : List UInt8)
    (heven : left.length % 2 = 0) :
    wordSum (left ++ right) = wordSum left + wordSum right := by
  induction left using wordSum.induct with
  | case1 => exact (Nat.zero_add _).symm
  | case2 high => simp at heven
  | case3 high low rest ih =>
      have hrest : rest.length % 2 = 0 := by
        simpa [Nat.add_assoc] using heven
      simp only [List.cons_append, wordSum, ih hrest, Nat.add_assoc]

/-- Replacing one word keeps the sum modulo 65535 only between the two
representations of zero. -/
theorem add_modEq_add_iff {before after : ℕ} (rest : ℕ) (hbefore : before ≤ 65535)
    (hafter : after ≤ 65535) :
    rest + after ≡ rest + before [MOD 65535] ↔
      after = before ∨ (before = 0 ∧ after = 65535) ∨
        (before = 65535 ∧ after = 0) := by
  unfold Nat.ModEq
  omega

/-- The low bits of one word and the high bits of the next, as one word: the
window of 16 bits that begins in the first word, turned around. -/
def window (low first second : ℕ) : ℕ := 2 ^ low * (second / 2 ^ low) + first % 2 ^ low

/-- What two words have outside the window. -/
def outsideWindow (low first second : ℕ) : ℕ :=
  2 ^ low * (first / 2 ^ low) + second % 2 ^ low

theorem outsideWindow_add_window (low first second : ℕ) :
    outsideWindow low first second + window low first second = first + second := by
  have hfirst := Nat.div_add_mod first (2 ^ low)
  have hsecond := Nat.div_add_mod second (2 ^ low)
  rw [outsideWindow, window]
  omega

theorem testBit_window (low first second index : ℕ) :
    (window low first second).testBit index =
      if index < low then first.testBit index else second.testBit index := by
  have hlow : first % 2 ^ low < 2 ^ low := Nat.mod_lt _ (Nat.two_pow_pos low)
  rw [window, Nat.testBit_two_pow_mul_add _ hlow]
  split
  next hlow => rw [Nat.testBit_mod_two_pow, decide_eq_true hlow, Bool.true_and]
  next hhigh => rw [Nat.testBit_div_two_pow, Nat.sub_add_cancel (by omega)]

theorem outsideWindow_congr {low first second otherFirst otherSecond : ℕ}
    (hfirst : ∀ index, low ≤ index →
      first.testBit index = otherFirst.testBit index)
    (hsecond : ∀ index < low, second.testBit index = otherSecond.testBit index) :
    outsideWindow low first second = outsideWindow low otherFirst otherSecond := by
  have hhigh : first / 2 ^ low = otherFirst / 2 ^ low := by
    apply Nat.eq_of_testBit_eq
    intro index
    rw [Nat.testBit_div_two_pow, Nat.testBit_div_two_pow]
    exact hfirst _ (Nat.le_add_left _ _)
  have hlow : second % 2 ^ low = otherSecond % 2 ^ low := by
    apply Nat.eq_of_testBit_eq
    intro index
    rw [Nat.testBit_mod_two_pow, Nat.testBit_mod_two_pow]
    by_cases hindex : index < low
    · rw [hsecond index hindex]
    · rw [decide_eq_false hindex, Bool.false_and, Bool.false_and]
  rw [outsideWindow, outsideWindow, hhigh, hlow]

/-- A word of 16 bits. -/
theorem le_of_testBit {word : ℕ}
    (hbits : ∀ index, 16 ≤ index → word.testBit index = false) :
    word ≤ 65535 :=
  Nat.le_of_lt_succ (Nat.lt_pow_two_of_testBit word hbits)

theorem testBit_of_le {word index : ℕ} (hword : word ≤ 65535)
    (hindex : 16 ≤ index) : word.testBit index = false := by
  have hpow : 2 ^ 16 ≤ 2 ^ index := Nat.pow_le_pow_right Nat.two_pos hindex
  exact Nat.testBit_lt_two_pow ((Nat.lt_succ_of_le hword).trans_le hpow)

theorem eq_iff_testBit {left right : ℕ} (hleft : left ≤ 65535)
    (hright : right ≤ 65535) :
    left = right ↔ ∀ index < 16, left.testBit index = right.testBit index := by
  constructor
  · rintro rfl index _
    rfl
  · intro hbits
    apply Nat.eq_of_testBit_eq
    intro index
    rcases Nat.lt_or_ge index 16 with hlt | hge
    · exact hbits index hlt
    · rw [testBit_of_le hleft hge, testBit_of_le hright hge]

theorem eq_zero_iff_testBit {word : ℕ} (hword : word ≤ 65535) :
    word = 0 ↔ ∀ index < 16, word.testBit index = false := by
  simp only [eq_iff_testBit hword (Nat.zero_le _), Nat.zero_testBit]

theorem eq_ones_iff_testBit {word : ℕ} (hword : word ≤ 65535) :
    word = 65535 ↔ ∀ index < 16, word.testBit index = true := by
  rw [eq_iff_testBit hword le_rfl]
  refine forall₂_congr fun index hindex => ?_
  rw [show 65535 = 2 ^ 16 - 1 from rfl, Nat.testBit_two_pow_sub_one,
    decide_eq_true hindex]

theorem window_le {low first second : ℕ} (hfirst : first ≤ 65535)
    (hsecond : second ≤ 65535) : window low first second ≤ 65535 := by
  apply le_of_testBit
  intro index hindex
  rw [testBit_window]
  split
  next => exact testBit_of_le hfirst hindex
  next => exact testBit_of_le hsecond hindex

end SimpleVpn.OnesComplement
