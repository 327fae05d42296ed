import SimpleVpn.Core.TracedMemory
import Mathlib.Tactic.IntervalCases
import Mathlib.Tactic.Ring

/-!
# Machine words and the host's byte order

A struct field of 16 or 32 bits is read and written in the byte order of the
host.  The network functions `htons`, `ntohs`, `htonl` and `ntohl` reverse a
word on a little-endian host and return it unchanged on a big-endian one.
-/

namespace SimpleVpn.HostWords

open SimpleVpn.TracedMemory

/-- The two byte orders a host can have. -/
inductive ByteOrder
  | little
  | big
  deriving DecidableEq, Repr

def hi16 (word : UInt16) : UInt8 := UInt8.ofNat (word.toNat / 256)

def lo16 (word : UInt16) : UInt8 := UInt8.ofNat word.toNat

/-- The 16-bit word with the given high and low byte. -/
def word16 (high low : UInt8) : UInt16 :=
  UInt16.ofNat (high.toNat * 256 + low.toNat)

/-- The byte of `word` that counts multiples of `256 ^ place`. -/
def byte32 (word : UInt32) (place : ℕ) : UInt8 :=
  UInt8.ofNat (word.toNat / 256 ^ place)

/-- The 32-bit word with the given bytes, the most significant one first. -/
def word32 (first second third fourth : UInt8) : UInt32 :=
  UInt32.ofNat (first.toNat * 256 ^ 3 + second.toNat * 256 ^ 2 +
    third.toNat * 256 + fourth.toNat)

theorem toNat_word16 (high low : UInt8) :
    (word16 high low).toNat = high.toNat * 256 + low.toNat := by
  have hhigh := high.toNat_lt
  have hlow := low.toNat_lt
  rw [word16, UInt16.toNat_ofNat']
  omega

theorem toNat_hi16 (word : UInt16) : (hi16 word).toNat = word.toNat / 256 := by
  have hword := word.toNat_lt
  rw [hi16, UInt8.toNat_ofNat']
  omega

theorem toNat_lo16 (word : UInt16) : (lo16 word).toNat = word.toNat % 256 := by
  rw [lo16, UInt8.toNat_ofNat']

@[simp]
theorem hi16_word16 (high low : UInt8) : hi16 (word16 high low) = high := by
  have hlow := low.toNat_lt
  apply UInt8.toNat_inj.mp
  rw [toNat_hi16, toNat_word16]
  omega

@[simp]
theorem lo16_word16 (high low : UInt8) : lo16 (word16 high low) = low := by
  have hlow := low.toNat_lt
  apply UInt8.toNat_inj.mp
  rw [toNat_lo16, toNat_word16]
  omega

@[simp]
theorem word16_hi16_lo16 (word : UInt16) :
    word16 (hi16 word) (lo16 word) = word := by
  apply UInt16.toNat_inj.mp
  rw [toNat_word16, toNat_hi16, toNat_lo16]
  omega

theorem toNat_word32 (first second third fourth : UInt8) :
    (word32 first second third fourth).toNat =
      first.toNat * 256 ^ 3 + second.toNat * 256 ^ 2 +
        third.toNat * 256 + fourth.toNat := by
  have hfirst := first.toNat_lt
  have hsecond := second.toNat_lt
  have hthird := third.toNat_lt
  have hfourth := fourth.toNat_lt
  rw [word32, UInt32.toNat_ofNat']
  omega

theorem toNat_byte32 (word : UInt32) (place : ℕ) :
    (byte32 word place).toNat = word.toNat / 256 ^ place % 256 := by
  rw [byte32, UInt8.toNat_ofNat']

@[simp]
theorem word32_byte32 (word : UInt32) :
    word32 (byte32 word 3) (byte32 word 2) (byte32 word 1) (byte32 word 0) =
      word := by
  have hword := word.toNat_lt
  apply UInt32.toNat_inj.mp
  simp only [toNat_word32, toNat_byte32]
  omega

/-- The bytes of a word, from the last one on. -/
theorem byte32_word32 (first second third fourth : UInt8) {place : ℕ}
    (hplace : place < 4) :
    byte32 (word32 first second third fourth) place =
      [fourth, third, second, first].getD place 0 := by
  have hfirst := first.toNat_lt
  have hsecond := second.toNat_lt
  have hthird := third.toNat_lt
  have hfourth := fourth.toNat_lt
  apply UInt8.toNat_inj.mp
  rw [toNat_byte32, toNat_word32]
  interval_cases place <;>
    simp only [List.getD_cons_zero, List.getD_cons_succ] <;> omega

@[simp]
theorem byte32_word32_three (first second third fourth : UInt8) :
    byte32 (word32 first second third fourth) 3 = first :=
  byte32_word32 first second third fourth (by decide)

@[simp]
theorem byte32_word32_two (first second third fourth : UInt8) :
    byte32 (word32 first second third fourth) 2 = second :=
  byte32_word32 first second third fourth (by decide)

@[simp]
theorem byte32_word32_one (first second third fourth : UInt8) :
    byte32 (word32 first second third fourth) 1 = third :=
  byte32_word32 first second third fourth (by decide)

@[simp]
theorem byte32_word32_zero (first second third fourth : UInt8) :
    byte32 (word32 first second third fourth) 0 = fourth :=
  byte32_word32 first second third fourth (by decide)

def htons : ByteOrder → UInt16 → UInt16
  | .little, word => word16 (lo16 word) (hi16 word)
  | .big, word => word

def ntohs : ByteOrder → UInt16 → UInt16
  | .little, word => word16 (lo16 word) (hi16 word)
  | .big, word => word

def htonl : ByteOrder → UInt32 → UInt32
  | .little, word =>
      word32 (byte32 word 0) (byte32 word 1) (byte32 word 2) (byte32 word 3)
  | .big, word => word

def ntohl : ByteOrder → UInt32 → UInt32
  | .little, word =>
      word32 (byte32 word 0) (byte32 word 1) (byte32 word 2) (byte32 word 3)
  | .big, word => word

@[simp]
theorem htons_ntohs (order : ByteOrder) (word : UInt16) :
    htons order (ntohs order word) = word := by
  cases order <;> simp [htons, ntohs]

@[simp]
theorem ntohs_htons (order : ByteOrder) (word : UInt16) :
    ntohs order (htons order word) = word := by
  cases order <;> simp [htons, ntohs]

@[simp]
theorem htons_htons (order : ByteOrder) (word : UInt16) :
    htons order (htons order word) = word := htons_ntohs order word

@[simp]
theorem htonl_ntohl (order : ByteOrder) (word : UInt32) :
    htonl order (ntohl order word) = word := by
  cases order <;> simp [htonl, ntohl]

/-- On a little-endian host `htons` changes every word but those with two equal
bytes. -/
theorem htons_little_eq_self_iff (word : UInt16) :
    htons .little word = word ↔ hi16 word = lo16 word := by
  constructor
  · intro heq
    have hhigh := congrArg hi16 heq
    rw [htons, hi16_word16] at hhigh
    exact hhigh.symm
  · intro heq
    calc
      htons .little word = word16 (lo16 word) (hi16 word) := rfl
      _ = word16 (hi16 word) (lo16 word) := by rw [heq]
      _ = word := word16_hi16_lo16 word

/-- On a little-endian host `htonl` changes every word but those whose bytes
read the same in both directions. -/
theorem htonl_little_eq_self_iff (word : UInt32) :
    htonl .little word = word ↔
      byte32 word 0 = byte32 word 3 ∧ byte32 word 1 = byte32 word 2 := by
  constructor
  · intro heq
    have hthird := congrArg (byte32 · 3) heq
    have hsecond := congrArg (byte32 · 2) heq
    simp only [htonl, byte32_word32_three, byte32_word32_two] at hthird hsecond
    exact ⟨hthird, hsecond⟩
  · rintro ⟨houter, hinner⟩
    calc
      htonl .little word =
          word32 (byte32 word 0) (byte32 word 1) (byte32 word 2)
            (byte32 word 3) := rfl
      _ = word32 (byte32 word 3) (byte32 word 2) (byte32 word 1)
            (byte32 word 0) := by rw [houter, hinner]
      _ = word := word32_byte32 word

theorem htons_injective (order : ByteOrder) :
    Function.Injective (htons order) :=
  Function.LeftInverse.injective (ntohs_htons order)

/-- The byte at offset `index` of a stored 16-bit word. -/
def nativeByte16 : ByteOrder → UInt16 → ℕ → UInt8
  | .little, word, index => if index = 0 then lo16 word else hi16 word
  | .big, word, index => if index = 0 then hi16 word else lo16 word

/-- The byte at offset `index` of a stored 32-bit word. -/
def nativeByte32 : ByteOrder → UInt32 → ℕ → UInt8
  | .little, word, index => byte32 word index
  | .big, word, index => byte32 word (3 - index)

/-- The 16-bit word whose bytes lie in memory in the given order. -/
def nativeWord16 : ByteOrder → UInt8 → UInt8 → UInt16
  | .little, first, second => word16 second first
  | .big, first, second => word16 first second

/-- The 32-bit word whose bytes lie in memory in the given order. -/
def nativeWord32 : ByteOrder → UInt8 → UInt8 → UInt8 → UInt8 → UInt32
  | .little, first, second, third, fourth => word32 fourth third second first
  | .big, first, second, third, fourth => word32 first second third fourth

@[simp]
theorem nativeWord16_nativeByte16 (order : ByteOrder) (word : UInt16) :
    nativeWord16 order (nativeByte16 order word 0)
      (nativeByte16 order word 1) = word := by
  cases order <;> simp [nativeWord16, nativeByte16]

@[simp]
theorem nativeWord32_nativeByte32 (order : ByteOrder) (word : UInt32) :
    nativeWord32 order (nativeByte32 order word 0) (nativeByte32 order word 1)
      (nativeByte32 order word 2) (nativeByte32 order word 3) = word := by
  cases order <;> simp [nativeWord32, nativeByte32]

/-- A 32-bit word is determined by its bytes in memory. -/
theorem nativeByte32_injective {order : ByteOrder} {left right : UInt32}
    (hbyte : ∀ index < 4,
      nativeByte32 order left index = nativeByte32 order right index) :
    left = right := by
  rw [← nativeWord32_nativeByte32 order left,
    ← nativeWord32_nativeByte32 order right, hbyte 0 (by omega),
    hbyte 1 (by omega), hbyte 2 (by omega), hbyte 3 (by omega)]

@[simp]
theorem nativeByte32_nativeWord32 (order : ByteOrder)
    (first second third fourth : UInt8) :
    nativeByte32 order (nativeWord32 order first second third fourth) 0 = first ∧
      nativeByte32 order (nativeWord32 order first second third fourth) 1 =
        second ∧
      nativeByte32 order (nativeWord32 order first second third fourth) 2 =
        third ∧
      nativeByte32 order (nativeWord32 order first second third fourth) 3 =
        fourth := by
  cases order <;> simp [nativeWord32, nativeByte32]

@[simp]
theorem nativeByte16_zero (order : ByteOrder) (index : ℕ) :
    nativeByte16 order 0 index = 0 := by
  have hbytes : hi16 0 = 0 ∧ lo16 0 = 0 := by decide
  cases order <;> simp [nativeByte16, hbytes]

/-- A word that went through `htons` lies in memory with its high byte first.
-/
@[simp]
theorem nativeByte16_htons (order : ByteOrder) (word : UInt16) :
    nativeByte16 order (htons order word) 0 = hi16 word ∧
      nativeByte16 order (htons order word) 1 = lo16 word := by
  cases order <;> simp [nativeByte16, htons]

/-- The 16-bit field at `start`. -/
def u16 (order : ByteOrder) (block : Block) (start : ℕ) : UInt16 :=
  nativeWord16 order (block.byte start) (block.byte (start + 1))

/-- The 32-bit field at `start`. -/
def u32 (order : ByteOrder) (block : Block) (start : ℕ) : UInt32 :=
  nativeWord32 order (block.byte start) (block.byte (start + 1))
    (block.byte (start + 2)) (block.byte (start + 3))

/-- The block with a 16-bit field written. -/
def setU16 (order : ByteOrder) (block : Block) (start : ℕ) (word : UInt16) :
    Block :=
  (block.set start (nativeByte16 order word 0)).set (start + 1)
    (nativeByte16 order word 1)

/-- The block with a 32-bit field written. -/
def setU32 (order : ByteOrder) (block : Block) (start : ℕ) (word : UInt32) :
    Block :=
  (((block.set start (nativeByte32 order word 0)).set (start + 1)
    (nativeByte32 order word 1)).set (start + 2)
      (nativeByte32 order word 2)).set (start + 3) (nativeByte32 order word 3)

def loadU16 (order : ByteOrder) (block : Block) (start : ℕ) : Traced UInt16 := do
  let first ← load block start
  let second ← load block (start + 1)
  pure (nativeWord16 order first second)

def loadU32 (order : ByteOrder) (block : Block) (start : ℕ) : Traced UInt32 := do
  let first ← load block start
  let second ← load block (start + 1)
  let third ← load block (start + 2)
  let fourth ← load block (start + 3)
  pure (nativeWord32 order first second third fourth)

def storeU16 (order : ByteOrder) (block : Block) (start : ℕ) (word : UInt16) :
    Traced Block := do
  let block ← store block start (nativeByte16 order word 0)
  store block (start + 1) (nativeByte16 order word 1)

def storeU32 (order : ByteOrder) (block : Block) (start : ℕ) (word : UInt32) :
    Traced Block := do
  let block ← store block start (nativeByte32 order word 0)
  let block ← store block (start + 1) (nativeByte32 order word 1)
  let block ← store block (start + 2) (nativeByte32 order word 2)
  store block (start + 3) (nativeByte32 order word 3)

section Fields

variable (order : ByteOrder) (block : Block) (start : ℕ)

@[simp]
theorem value_loadU16 :
    (loadU16 order block start).value = u16 order block start := rfl

@[simp]
theorem value_loadU32 :
    (loadU32 order block start).value = u32 order block start := rfl

@[simp]
theorem value_storeU16 (word : UInt16) :
    (storeU16 order block start word).value = setU16 order block start word :=
  rfl

@[simp]
theorem value_storeU32 (word : UInt32) :
    (storeU32 order block start word).value = setU32 order block start word :=
  rfl

@[simp]
theorem inBounds_loadU16 :
    (loadU16 order block start).InBounds ↔ start + 1 < block.size := by
  simp only [loadU16, Traced.inBounds_bind, inBounds_load, Traced.inBounds_pure,
    and_true]
  omega

@[simp]
theorem inBounds_loadU32 :
    (loadU32 order block start).InBounds ↔ start + 3 < block.size := by
  simp only [loadU32, Traced.inBounds_bind, inBounds_load, Traced.inBounds_pure,
    and_true]
  omega

@[simp]
theorem inBounds_storeU16 (word : UInt16) :
    (storeU16 order block start word).InBounds ↔ start + 1 < block.size := by
  simp only [storeU16, Traced.inBounds_bind, inBounds_store, value_store,
    Block.size_set]
  omega

@[simp]
theorem inBounds_storeU32 (word : UInt32) :
    (storeU32 order block start word).InBounds ↔ start + 3 < block.size := by
  simp only [storeU32, Traced.inBounds_bind, inBounds_store, value_store,
    Block.size_set]
  omega

@[simp]
theorem size_setU16 (word : UInt16) :
    (setU16 order block start word).size = block.size := rfl

@[simp]
theorem size_setU32 (word : UInt32) :
    (setU32 order block start word).size = block.size := rfl

@[simp]
theorem slack_setU16 (word : UInt16) :
    (setU16 order block start word).slack = block.slack := rfl

@[simp]
theorem slack_setU32 (word : UInt32) :
    (setU32 order block start word).slack = block.slack := rfl

theorem byte_setU16 (word : UInt16) (index : ℕ) :
    (setU16 order block start word).byte index =
      if start ≤ index ∧ index < start + 2 then
        nativeByte16 order word (index - start)
      else block.byte index := by
  simp only [setU16, Block.byte_set]
  by_cases hfirst : index = start
  · subst hfirst
    simp
  · by_cases hsecond : index = start + 1
    · subst hsecond
      simp
    · simp only [hfirst, hsecond, if_false]
      rw [if_neg (by omega)]

theorem byte_setU32 (word : UInt32) (index : ℕ) :
    (setU32 order block start word).byte index =
      if start ≤ index ∧ index < start + 4 then
        nativeByte32 order word (index - start)
      else block.byte index := by
  simp only [setU32, Block.byte_set]
  by_cases hinside : start ≤ index ∧ index < start + 4
  · obtain ⟨offset, rfl⟩ := Nat.exists_eq_add_of_le hinside.1
    rw [if_pos hinside, Nat.add_sub_cancel_left]
    have hoffset : offset = 0 ∨ offset = 1 ∨ offset = 2 ∨ offset = 3 := by
      omega
    rcases hoffset with rfl | rfl | rfl | rfl <;> simp
  · rw [if_neg hinside, if_neg (by omega), if_neg (by omega), if_neg (by omega),
      if_neg (by omega)]

theorem u16_congr {left right : Block}
    (hbyte : ∀ index, start ≤ index → index < start + 2 →
      left.byte index = right.byte index) :
    u16 order left start = u16 order right start := by
  rw [u16, u16, hbyte start (by omega) (by omega),
    hbyte (start + 1) (by omega) (by omega)]

theorem u32_congr {left right : Block}
    (hbyte : ∀ index, start ≤ index → index < start + 4 →
      left.byte index = right.byte index) :
    u32 order left start = u32 order right start := by
  rw [u32, u32, hbyte start (by omega) (by omega),
    hbyte (start + 1) (by omega) (by omega),
    hbyte (start + 2) (by omega) (by omega),
    hbyte (start + 3) (by omega) (by omega)]

/-- A 16-bit field holds a word exactly when its bytes are those of the word. -/
theorem u16_eq_iff (word : UInt16) :
    u16 order block start = word ↔
      ∀ index < 2, block.byte (start + index) = nativeByte16 order word index := by
  constructor
  · rintro rfl index hindex
    have hcases : index = 0 ∨ index = 1 := by omega
    rcases hcases with rfl | rfl <;> cases order <;>
      simp [u16, nativeWord16, nativeByte16]
  · intro hbyte
    have hfirst := hbyte 0 (by omega)
    have hsecond := hbyte 1 (by omega)
    rw [Nat.add_zero] at hfirst
    rw [u16, hfirst, hsecond, nativeWord16_nativeByte16]

/-- A 32-bit field holds a word exactly when its bytes are those of the word. -/
theorem u32_eq_iff (word : UInt32) :
    u32 order block start = word ↔
      ∀ index < 4, block.byte (start + index) = nativeByte32 order word index := by
  constructor
  · rintro rfl index hindex
    have hcases : index = 0 ∨ index = 1 ∨ index = 2 ∨ index = 3 := by omega
    rcases hcases with rfl | rfl | rfl | rfl <;> simp [u32]
  · intro hbyte
    apply nativeByte32_injective
    intro index hindex
    rw [← hbyte index hindex]
    have hcases : index = 0 ∨ index = 1 ∨ index = 2 ∨ index = 3 := by omega
    rcases hcases with rfl | rfl | rfl | rfl <;> simp [u32]

/-- Two 16-bit fields hold the same word exactly when their bytes agree. -/
theorem u16_eq_u16_iff {left right : Block} {origin : ℕ} :
    u16 order left start = u16 order right origin ↔
      left.byte start = right.byte origin ∧
        left.byte (start + 1) = right.byte (origin + 1) := by
  rw [u16_eq_iff]
  constructor
  · intro hbyte
    have hright := (u16_eq_iff order right origin _).mp rfl
    exact ⟨(hbyte 0 (by omega)).trans (hright 0 (by omega)).symm,
      (hbyte 1 (by omega)).trans (hright 1 (by omega)).symm⟩
  · rintro ⟨hfirst, hsecond⟩
    rw [← u16_eq_iff, u16, u16, hfirst, hsecond]

/-- Two 32-bit fields hold the same word exactly when their bytes agree. -/
theorem u32_eq_u32_iff {left right : Block} {origin : ℕ} :
    u32 order left start = u32 order right origin ↔
      left.byte start = right.byte origin ∧
        left.byte (start + 1) = right.byte (origin + 1) ∧
        left.byte (start + 2) = right.byte (origin + 2) ∧
        left.byte (start + 3) = right.byte (origin + 3) := by
  rw [u32_eq_iff]
  constructor
  · intro hbyte
    have hright := (u32_eq_iff order right origin _).mp rfl
    have hagree : ∀ index < 4,
        left.byte (start + index) = right.byte (origin + index) :=
      fun index hindex => (hbyte index hindex).trans (hright index hindex).symm
    exact ⟨hagree 0 (by omega), hagree 1 (by omega), hagree 2 (by omega),
      hagree 3 (by omega)⟩
  · rintro ⟨hfirst, hsecond, hthird, hfourth⟩
    rw [← u32_eq_iff, u32, u32, hfirst, hsecond, hthird, hfourth]

/-- A field read by a host of the other byte order comes out reversed. -/
theorem u32_of_nativeByte32 (sender receiver : ByteOrder) {word : UInt32}
    (hbyte : ∀ index < 4,
      block.byte (start + index) = nativeByte32 sender word index) :
    u32 receiver block start =
      if sender = receiver then word else htonl .little word := by
  split
  next hsame =>
    subst hsame
    exact (u32_eq_iff sender block start word).mpr hbyte
  next hdiffer =>
    have hfirst := hbyte 0 (by omega)
    rw [Nat.add_zero] at hfirst
    rw [u32, hfirst, hbyte 1 (by omega), hbyte 2 (by omega), hbyte 3 (by omega)]
    cases sender <;> cases receiver
    · exact absurd rfl hdiffer
    · rfl
    · rfl
    · exact absurd rfl hdiffer

/-- A field keeps its value when its bytes are copied. -/
theorem u16_copy {left right : Block} {origin : ℕ}
    (hbyte : ∀ index < 2, left.byte (start + index) = right.byte (origin + index)) :
    u16 order left start = u16 order right origin := by
  rw [u16_eq_iff]
  intro index hindex
  rw [hbyte index hindex]
  exact (u16_eq_iff order right origin _).mp rfl index hindex

theorem u32_copy {left right : Block} {origin : ℕ}
    (hbyte : ∀ index < 4, left.byte (start + index) = right.byte (origin + index)) :
    u32 order left start = u32 order right origin := by
  rw [u32_eq_iff]
  intro index hindex
  rw [hbyte index hindex]
  exact (u32_eq_iff order right origin _).mp rfl index hindex

@[simp]
theorem u16_setU16 (word : UInt16) :
    u16 order (setU16 order block start word) start = word := by
  simp [u16, byte_setU16]

@[simp]
theorem u32_setU32 (word : UInt32) :
    u32 order (setU32 order block start word) start = word := by
  simp [u32, byte_setU32]

/-- A 16-bit field is not affected by a write of 32 bits elsewhere. -/
theorem u16_setU32 (word : UInt32) {other : ℕ}
    (hdisjoint : other + 2 ≤ start ∨ start + 4 ≤ other) :
    u16 order (setU32 order block start word) other = u16 order block other := by
  apply u16_congr
  intro index _ _
  rw [byte_setU32, if_neg (by omega)]

theorem u32_setU16 (word : UInt16) {other : ℕ}
    (hdisjoint : other + 4 ≤ start ∨ start + 2 ≤ other) :
    u32 order (setU16 order block start word) other = u32 order block other := by
  apply u32_congr
  intro index _ _
  rw [byte_setU16, if_neg (by omega)]

theorem u16_setU16_of_disjoint (word : UInt16) {other : ℕ}
    (hdisjoint : other + 2 ≤ start ∨ start + 2 ≤ other) :
    u16 order (setU16 order block start word) other = u16 order block other := by
  apply u16_congr
  intro index _ _
  rw [byte_setU16, if_neg (by omega)]

theorem u32_setU32_of_disjoint (word : UInt32) {other : ℕ}
    (hdisjoint : other + 4 ≤ start ∨ start + 4 ≤ other) :
    u32 order (setU32 order block start word) other = u32 order block other := by
  apply u32_congr
  intro index _ _
  rw [byte_setU32, if_neg (by omega)]

/-- A second write of a field hides the first. -/
theorem setU16_setU16 (first second : UInt16) :
    setU16 order (setU16 order block start first) start second =
      setU16 order block start second := by
  have hbyte : (setU16 order (setU16 order block start first) start second).byte =
      (setU16 order block start second).byte := by
    funext index
    simp only [byte_setU16]
    split <;> rfl
  exact congrArg (fun byte => { block with byte := byte }) hbyte

theorem setU32_setU32 (first second : UInt32) :
    setU32 order (setU32 order block start first) start second =
      setU32 order block start second := by
  have hbyte : (setU32 order (setU32 order block start first) start second).byte =
      (setU32 order block start second).byte := by
    funext index
    simp only [byte_setU32]
    split <;> rfl
  exact congrArg (fun byte => { block with byte := byte }) hbyte

/-- Writing back what a 16-bit field holds changes nothing. -/
theorem byte_setU16_u16 (index : ℕ) :
    (setU16 order block start (u16 order block start)).byte index =
      block.byte index := by
  rw [byte_setU16]
  split
  next hinside =>
    have hindex : index = start ∨ index = start + 1 := by omega
    rcases hindex with rfl | rfl <;>
      cases order <;> simp [u16, nativeWord16, nativeByte16]
  next => rfl

/-- Writing back what a 32-bit field holds changes nothing. -/
theorem byte_setU32_u32 (index : ℕ) :
    (setU32 order block start (u32 order block start)).byte index =
      block.byte index := by
  rw [byte_setU32]
  split
  next hinside =>
    obtain ⟨offset, rfl⟩ := Nat.exists_eq_add_of_le hinside.1
    have hoffset : offset = 0 ∨ offset = 1 ∨ offset = 2 ∨ offset = 3 := by
      omega
    rcases hoffset with rfl | rfl | rfl | rfl <;> simp [u32]
  next => rfl

end Fields

/-- Conversion to a 32-bit `int`. -/
def toInt32 (value : ℕ) : ℤ := Int.bmod value (2 ^ 32)

/-- Conversion of an `int` to the 64-bit `size_t`. -/
def toSize (value : ℤ) : ℕ := (value % 2 ^ 64).toNat

/-- The offset reached from `start` by adding an `int`, with the wrap-around of
64-bit pointers. -/
def offsetBy (start : ℕ) (value : ℤ) : ℕ := toSize (start + value)

/-- A 32-bit `int` holds the value modulo `2 ^ 32`, from `2 ^ 31` on as a
negative number. -/
theorem toInt32_eq (value : ℕ) :
    toInt32 value =
      if value % 2 ^ 32 < 2 ^ 31 then ((value % 2 ^ 32 : ℕ) : ℤ)
      else ((value % 2 ^ 32 : ℕ) : ℤ) - 2 ^ 32 := by
  have hbmod : toInt32 value =
      if (value : ℤ) % 4294967296 < 4294967297 / 2 then (value : ℤ) % 4294967296
      else (value : ℤ) % 4294967296 - 4294967296 := rfl
  rw [hbmod]
  split <;> split <;> omega

theorem toInt32_of_lt {value : ℕ} (hvalue : value < 2 ^ 31) :
    toInt32 value = value := by
  apply Int.bmod_eq_of_le <;> omega

theorem toSize_natCast {value : ℕ} (hvalue : value < 2 ^ 64) :
    toSize value = value := by
  rw [toSize]
  omega

theorem offsetBy_natCast {start value : ℕ} (hvalue : start + value < 2 ^ 64) :
    offsetBy start value = start + value := by
  rw [offsetBy, toSize]
  omega

end SimpleVpn.HostWords
