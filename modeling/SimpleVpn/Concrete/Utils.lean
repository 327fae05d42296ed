import SimpleVpn.Core.HostWords
import SimpleVpn.Core.Loops
import SimpleVpn.Algebra.OnesComplement

/-!
# The checksum (`utils.c`)

`cksum` adds the big-endian words of a buffer in 32 bits, folds the carries,
complements the sum and passes it through `htons`.  As long as the 32-bit sum
does not wrap, the result is the ones' complement checksum of the buffer.
-/

namespace SimpleVpn.Utils

open StateTransition
open SimpleVpn.TracedMemory SimpleVpn.HostWords SimpleVpn.OnesComplement
open SimpleVpn.Loops

/-- The summing loop of `cksum`, with `len` bytes left from `data` on. -/
def cksumWords (block : Block) : ℕ → ℕ → UInt32 → Traced UInt32
  | len + 2, data, sum => do
      let high ← load block data
      let low ← load block (data + 1)
      cksumWords block len (data + 2) (sum + (high.toUInt32 <<< 8 ||| low.toUInt32))
  | 1, data, sum => do
      let high ← load block data
      pure (sum + high.toUInt32 <<< 8)
  | 0, _, sum => pure sum

theorem toNat_foldStep (sum : UInt32) :
    ((sum >>> 16) + (sum &&& 0xffff)).toNat = foldOnce sum.toNat := by
  have hsum := sum.toNat_lt
  have hhigh : (sum >>> 16).toNat = sum.toNat / 65536 := by
    rw [UInt32.toNat_shiftRight, show (16 : UInt32).toNat % 32 = 16 from rfl,
      Nat.shiftRight_eq_div_pow]
  have hlow : (sum &&& 0xffff).toNat = sum.toNat % 65536 := by
    rw [UInt32.toNat_and, show (0xffff : UInt32).toNat = 2 ^ 16 - 1 from rfl,
      Nat.and_two_pow_sub_one_eq_mod]
  rw [UInt32.toNat_add, hhigh, hlow, foldOnce]
  omega

/-- `while (sum > 0xffff)`: every round makes the sum smaller. -/
def foldCarries (sum : UInt32) : UInt32 :=
  if 0xffff < sum then foldCarries ((sum >>> 16) + (sum &&& 0xffff)) else sum
termination_by sum.toNat
decreasing_by
  rw [toNat_foldStep]
  have hlt := UInt32.lt_iff_toNat_lt.mp ‹0xffff < sum›
  exact foldOnce_lt hlt

/-- `sum = htons(~sum); return sum ? sum : 0xffff;`. -/
def finishCksum (order : ByteOrder) (sum : UInt32) : UInt16 :=
  let sum := (htons order (~~~sum).toUInt16).toUInt32
  if sum ≠ 0 then sum.toUInt16 else 0xffff

def cksum (order : ByteOrder) (block : Block) (data len : ℕ) :
    Traced UInt16 := do
  let sum ← cksumWords block len data 0
  pure (finishCksum order (foldCarries sum))

/-- `verify_checksum`: 0 when the checksum of the buffer is the old one. -/
def verifyChecksum (order : ByteOrder) (block : Block) (buf len : ℕ)
    (oldCksum : UInt16) : Traced ℤ := do
  let sum ← cksum order block buf len
  pure (if sum = oldCksum then 0 else -1)

theorem toNat_bigEndianWord (high low : UInt8) :
    (high.toUInt32 <<< 8 ||| low.toUInt32).toNat =
      high.toNat * 256 + low.toNat := by
  have hhigh := high.toNat_lt
  have hlow := low.toNat_lt
  have hshift : (high.toUInt32 <<< 8).toNat = high.toNat <<< 8 := by
    rw [UInt32.toNat_shiftLeft, show (8 : UInt32).toNat % 32 = 8 from rfl,
      UInt8.toNat_toUInt32]
    apply Nat.mod_eq_of_lt
    rw [Nat.shiftLeft_eq]
    omega
  rw [UInt32.toNat_or, hshift, UInt8.toNat_toUInt32,
    ← Nat.shiftLeft_add_eq_or_of_lt hlow, Nat.shiftLeft_eq]

theorem toNat_bigEndianHigh (high : UInt8) :
    (high.toUInt32 <<< 8).toNat = high.toNat * 256 := by
  have hword := toNat_bigEndianWord high 0
  rwa [show (0 : UInt8).toUInt32 = 0 from rfl, UInt32.or_zero,
    show (0 : UInt8).toNat = 0 from rfl, Nat.add_zero] at hword

/-- The summing loop adds the word sum of the bytes left, modulo `2 ^ 32`. -/
theorem toNat_cksumWords (block : Block) (len data : ℕ) (sum : UInt32) :
    (cksumWords block len data sum).value.toNat =
      (sum.toNat + wordSum (block.slice data len)) % 2 ^ 32 := by
  have hsum := sum.toNat_lt
  induction len using Nat.strongRecOn generalizing data sum with
  | ind len ih =>
      match len with
      | 0 =>
          rw [cksumWords, Traced.value_pure]
          exact (Nat.mod_eq_of_lt hsum).symm
      | 1 =>
          rw [cksumWords, Traced.value_bind, value_load, Traced.value_pure,
            UInt32.toNat_add, toNat_bigEndianHigh, Block.slice_succ]
          rfl
      | len + 2 =>
          rw [cksumWords, Traced.value_bind, value_load, Traced.value_bind,
            value_load, ih len (by omega) _ _ (UInt32.toNat_lt _),
            UInt32.toNat_add, toNat_bigEndianWord, Block.slice_succ, Block.slice_succ,
            wordSum, Nat.mod_add_mod]
          congr 1
          rw [show data + 1 + 1 = data + 2 from rfl]
          ring

theorem inBounds_cksumWords (block : Block) (len data : ℕ) (sum : UInt32) :
    (cksumWords block len data sum).InBounds ↔
      ∀ index < len, data + index < block.size := by
  induction len using Nat.strongRecOn generalizing data sum with
  | ind len ih =>
      match len with
      | 0 => simp [cksumWords]
      | 1 => simp [cksumWords]
      | len + 2 =>
          rw [cksumWords, Traced.inBounds_bind, Traced.inBounds_bind,
            inBounds_load, inBounds_load, value_load, value_load,
            ih len (by omega)]
          constructor
          · rintro ⟨hfirst, hsecond, hrest⟩ index hindex
            rcases Nat.lt_or_ge index 2 with hlt | hge
            · omega
            · have hshift := hrest (index - 2) (by omega)
              omega
          · intro hall
            refine ⟨hall 0 (by omega), hall 1 (by omega), ?_⟩
            intro index hindex
            have hshift := hall (index + 2) (by omega)
            omega

/-- Folding ends with 16 bits and keeps the sum modulo 65535. -/
theorem foldCarries_spec (sum : UInt32) :
    (foldCarries sum).toNat ≤ 65535 ∧
      (foldCarries sum).toNat ≡ sum.toNat [MOD 65535] := by
  induction sum using foldCarries.induct with
  | case1 sum hsum ih =>
      rw [foldCarries, if_pos hsum]
      refine ⟨ih.1, ih.2.trans ?_⟩
      rw [toNat_foldStep]
      exact foldOnce_modEq sum.toNat
  | case2 sum hsum =>
      rw [foldCarries, if_neg hsum]
      exact ⟨UInt32.le_iff_toNat_le.mp (UInt32.not_lt.mp hsum), rfl⟩

/-- The checksum of a byte string, as a word in host order. -/
def checksum (bytes : List UInt8) : UInt16 :=
  UInt16.ofNat (complement (wordSum bytes))

theorem toNat_checksum (bytes : List UInt8) :
    (checksum bytes).toNat = complement (wordSum bytes) := by
  have hle := complement_le (wordSum bytes)
  rw [checksum, UInt16.toNat_ofNat']
  omega

theorem checksum_eq_iff (left right : List UInt8) :
    checksum left = checksum right ↔
      wordSum left ≡ wordSum right [MOD 65535] := by
  rw [← complement_congr_iff, ← toNat_checksum, ← toNat_checksum,
    UInt16.toNat_inj]

/-- The two bytes of a checksum are equal exactly when the sum is a multiple of
257. -/
theorem hi16_checksum_eq_lo16_iff (bytes : List UInt8) :
    hi16 (checksum bytes) = lo16 (checksum bytes) ↔ wordSum bytes % 257 = 0 := by
  rw [← UInt8.toNat_inj, toNat_hi16, toNat_lo16, toNat_checksum]
  unfold complement
  omega

theorem htons_eq_zero_iff (order : ByteOrder) (word : UInt16) :
    htons order word = 0 ↔ word = 0 := by
  have hzero : htons order 0 = 0 := by cases order <;> rfl
  rw [← (htons_injective order).eq_iff (a := word), hzero]

/-- The last lines of `cksum`: the complement of the folded sum, or 65535 when
that is zero, in network order. -/
theorem finishCksum_eq (order : ByteOrder) {sum : UInt32}
    (hsum : sum.toNat ≤ 65535) :
    finishCksum order sum =
      htons order (if 65535 - sum.toNat = 0 then 0xffff
        else UInt16.ofNat (65535 - sum.toNat)) := by
  have hnot : (~~~sum).toUInt16 = UInt16.ofNat (65535 - sum.toNat) := by
    apply UInt16.toNat_inj.mp
    rw [UInt32.toNat_toUInt16, UInt32.toNat_not, UInt16.toNat_ofNat']
    change (2 ^ 32 - 1 - sum.toNat) % 2 ^ 16 = _
    omega
  have hones : htons order 0xffff = 0xffff := by cases order <;> rfl
  rw [finishCksum, hnot]
  by_cases hzero : 65535 - sum.toNat = 0
  · have hswap : htons order (UInt16.ofNat 0) = 0 :=
      (htons_eq_zero_iff order _).mpr rfl
    rw [hzero, hswap, if_pos rfl, hones]
    rfl
  · have hword : UInt16.ofNat (65535 - sum.toNat) ≠ 0 := by
      intro heq
      have hnat := congrArg UInt16.toNat heq
      rw [UInt16.toNat_ofNat', UInt16.toNat_zero] at hnat
      omega
    have hswap : htons order (UInt16.ofNat (65535 - sum.toNat)) ≠ 0 :=
      (htons_eq_zero_iff order _).not.mpr hword
    have hwide : (htons order (UInt16.ofNat (65535 - sum.toNat))).toUInt32 ≠ 0 :=
      fun heq => hswap (UInt16.toUInt32_inj.mp heq)
    rw [if_neg hzero, if_pos hwide, UInt16.toUInt16_toUInt32]

/-- With at most 65537 words the 32-bit sum does not wrap. -/
theorem toNat_cksumWords_of_le (block : Block) (data : ℕ) {len : ℕ}
    (hlen : len ≤ 131074) :
    (cksumWords block len data 0).value.toNat =
      wordSum (block.slice data len) := by
  have hsum : wordSum (block.slice data len) < 2 ^ 32 := by
    have hle := wordSum_le (block.slice data len)
    rw [Block.length_slice] at hle
    omega
  rw [toNat_cksumWords, UInt32.toNat_zero, Nat.zero_add, Nat.mod_eq_of_lt hsum]

/-- `cksum` is the checksum of the buffer in network order, for every length
whose words cannot make the 32-bit sum wrap. -/
theorem value_cksum (order : ByteOrder) (block : Block) (data len : ℕ)
    (hlen : len ≤ 131074) :
    (cksum order block data len).value =
      htons order (checksum (block.slice data len)) := by
  obtain ⟨hle, hmod⟩ := foldCarries_spec (cksumWords block len data 0).value
  rw [toNat_cksumWords_of_le block data hlen] at hmod
  have hcomplement := complement_of_folded hle hmod
  rw [cksum, Traced.value_bind, Traced.value_pure, finishCksum_eq order hle,
    checksum, hcomplement]
  congr 1
  split <;> rfl

@[simp]
theorem inBounds_cksum (order : ByteOrder) (block : Block) (data len : ℕ) :
    (cksum order block data len).InBounds ↔
      ∀ index < len, data + index < block.size := by
  rw [cksum, Traced.inBounds_bind, inBounds_cksumWords]
  simp

/-- `verify_checksum` returns 0 or -1. -/
theorem verifyChecksum_eq_zero_iff (order : ByteOrder) (block : Block)
    (buf len : ℕ) (oldCksum : UInt16) :
    (verifyChecksum order block buf len oldCksum).value = 0 ↔
      (cksum order block buf len).value = oldCksum := by
  rw [verifyChecksum, Traced.value_bind, Traced.value_pure]
  split
  next heq => simp only [heq]
  next hne => simp only [hne, reduceCtorEq]

theorem verifyChecksum_eq_neg_one_iff (order : ByteOrder) (block : Block)
    (buf len : ℕ) (oldCksum : UInt16) :
    (verifyChecksum order block buf len oldCksum).value = -1 ↔
      (verifyChecksum order block buf len oldCksum).value ≠ 0 := by
  rw [verifyChecksum, Traced.value_bind, Traced.value_pure]
  split <;> decide

/-- The variables of the summing loop. -/
structure SumState where
  data : ℕ
  len : ℕ
  sum : UInt32

/-- One round of `for (sum = 0; len >= 2; data += 2, len -= 2)`. -/
def sumRound (block : Block) (state : SumState) : Option SumState :=
  if 2 ≤ state.len then
    some {
      data := state.data + 2
      len := state.len - 2
      sum := state.sum + ((block.byte state.data).toUInt32 <<< 8 |||
        (block.byte (state.data + 1)).toUInt32) }
  else none

/-- One round of `while (sum > 0xffff)`. -/
def foldRound (sum : UInt32) : Option UInt32 :=
  if 0xffff < sum then some ((sum >>> 16) + (sum &&& 0xffff)) else none

/-- Every state of the summing loop has the same sum before it. -/
theorem value_cksumWords_of_reaches {block : Block} {start state : SumState}
    (hreach : Reaches (sumRound block) start state) :
    (cksumWords block state.len state.data state.sum).value =
      (cksumWords block start.len start.data start.sum).value := by
  refine eq_of_reaches (fun state =>
    (cksumWords block state.len state.data state.sum).value) hreach ?_
  intro before after hround
  unfold sumRound at hround
  split at hround
  next hlen =>
    obtain ⟨left, hleft⟩ := Nat.exists_eq_add_of_le' hlen
    rw [← Option.some.inj hround]
    simp only [hleft, Nat.add_sub_cancel, cksumWords, Traced.value_bind, value_load]
  next => cases hround

/-- The states of the summing loop: some words are done, and the accumulator
holds their sum. -/
structure SumDone (block : Block) (data len words : ℕ) (state : SumState) :
    Prop where
  data_eq : state.data = data + 2 * words
  len_eq : state.len + 2 * words = len
  sum_eq : state.sum.toNat = wordSum (block.slice data (2 * words))

/-- Another word is added without wrapping. -/
theorem SumDone.round {block : Block} {data len words : ℕ}
    {before after : SumState} (hlen : len ≤ 131074)
    (hdone : SumDone block data len words before)
    (hround : sumRound block before = some after) :
    SumDone block data len (words + 1) after := by
  have hlenEq := hdone.len_eq
  have hdataEq := hdone.data_eq
  unfold sumRound at hround
  split at hround
  next hleft =>
    have hword : wordSum (block.slice data (2 * (words + 1))) =
        before.sum.toNat + ((block.byte before.data).toNat * 256 +
          (block.byte (before.data + 1)).toNat) := by
      rw [show 2 * (words + 1) = 2 * words + 2 from rfl, Block.slice_add,
        wordSum_append _ (by simp), hdone.sum_eq, hdataEq]
      simp only [Block.slice_succ, Block.slice_zero, wordSum, Nat.add_zero]
    have hbound := wordSum_le (block.slice data (2 * (words + 1)))
    rw [Block.length_slice] at hbound
    rw [← Option.some.inj hround]
    refine ⟨?_, ?_, ?_⟩
    · change before.data + 2 = _
      omega
    · change before.len - 2 + 2 * (words + 1) = len
      omega
    · change (before.sum + _).toNat = _
      rw [UInt32.toNat_add, toNat_bigEndianWord, ← hword]
      omega
  next => cases hround

/-- The accumulator never wraps: in every state of the loop it is the exact sum
of the words so far. -/
theorem exists_sumDone_of_reaches {block : Block} {data len : ℕ}
    {state : SumState} (hlen : len ≤ 131074)
    (hreach : Reaches (sumRound block) ⟨data, len, 0⟩ state) :
    ∃ words, SumDone block data len words state := by
  refine invariant_of_reaches
    (fun state => ∃ words, SumDone block data len words state) hreach
    ⟨0, rfl, rfl, rfl⟩ ?_
  rintro before after ⟨words, hdone⟩ hround
  exact ⟨words + 1, hdone.round hlen hround⟩

/-- The folding loop ends with `foldCarries`. -/
theorem foldCarries_mem_eval (sum : UInt32) :
    foldCarries sum ∈ eval foldRound sum := by
  induction sum using foldCarries.induct with
  | case1 sum hsum ih =>
      rw [foldCarries, if_pos hsum]
      exact mem_eval_of_round (by rw [foldRound, if_pos hsum]) ih
  | case2 sum hsum =>
      rw [foldCarries, if_neg hsum]
      exact mem_eval_of_none (by rw [foldRound, if_neg hsum])

/-- For every buffer whose words fit the accumulator, the accumulator holds the
exact sum in every round, the folding ends with `foldCarries`, and the result is the
one integer from 1 to 65535 that brings the sum to 0 modulo 65535. -/
theorem cksum_internetChecksum (order : ByteOrder) (block : Block) (data : ℕ)
    {len : ℕ} (hlen : len ≤ 131074) :
    (∀ state, Reaches (sumRound block) ⟨data, len, 0⟩ state →
      (∃ words, SumDone block data len words state) ∧
        (cksumWords block state.len state.data state.sum).value =
          (cksumWords block len data 0).value) ∧
    (cksumWords block len data 0).value.toNat = wordSum (block.slice data len) ∧
    foldCarries (cksumWords block len data 0).value ∈
      eval foldRound (cksumWords block len data 0).value ∧
    ∀ r, (1 ≤ r ∧ r ≤ 65535 ∧
        (r + wordSum (block.slice data len)) % 65535 = 0) ↔
      r = (ntohs order (cksum order block data len).value).toNat := by
  refine ⟨fun state hreach => ⟨exists_sumDone_of_reaches hlen hreach,
    value_cksumWords_of_reaches hreach⟩, toNat_cksumWords_of_le block data hlen,
    foldCarries_mem_eval _, fun r => ?_⟩
  rw [value_cksum order block data len hlen, ntohs_htons, toNat_checksum]
  exact eq_complement_iff r (wordSum (block.slice data len))

/-- Three bytes, the last of them padded. -/
theorem cksum_internetChecksum_three :
    (∀ state, Reaches (sumRound (ofBytes [1, 2, 3])) ⟨0, 3, 0⟩ state →
      (∃ words, SumDone (ofBytes [1, 2, 3]) 0 3 words state) ∧
        (cksumWords (ofBytes [1, 2, 3]) state.len state.data state.sum).value =
          (cksumWords (ofBytes [1, 2, 3]) 3 0 0).value) ∧
    (cksumWords (ofBytes [1, 2, 3]) 3 0 0).value.toNat =
      wordSum ((ofBytes [1, 2, 3]).slice 0 3) ∧
    foldCarries (cksumWords (ofBytes [1, 2, 3]) 3 0 0).value ∈
      eval foldRound (cksumWords (ofBytes [1, 2, 3]) 3 0 0).value ∧
    ∀ r, (1 ≤ r ∧ r ≤ 65535 ∧
        (r + wordSum ((ofBytes [1, 2, 3]).slice 0 3)) % 65535 = 0) ↔
      r = (ntohs .little (cksum .little (ofBytes [1, 2, 3]) 0 3).value).toNat :=
  cksum_internetChecksum .little (ofBytes [1, 2, 3]) 0 (by decide)

end SimpleVpn.Utils
