import Mathlib.Data.List.GetD
import Mathlib.Data.ZMod.Defs

/-!
# XOR with a periodic key

A repeating key turns a byte string into another of the same length.  Applying
a key byte twice gives the plain byte back, and a byte that never arrived
deciphers to the key byte itself.
-/

namespace SimpleVpn.Keystream

variable {period : ℕ} [NeZero period]

/-- The key byte applied at a position. -/
def keystream (key : Fin period → UInt8) (position : ℕ) : UInt8 :=
  key (Fin.ofNat period position)

/-- A byte string XORed with the key from position 0 on. -/
def encipher (key : Fin period → UInt8) (bytes : List UInt8) : List UInt8 :=
  bytes.mapIdx fun position byte => byte ^^^ keystream key position

@[simp]
theorem length_encipher (key : Fin period → UInt8) (bytes : List UInt8) :
    (encipher key bytes).length = bytes.length := by
  simp [encipher]

theorem getD_encipher (key : Fin period → UInt8) {bytes : List UInt8}
    {position : ℕ} (hposition : position < bytes.length) :
    (encipher key bytes).getD position 0 =
      bytes.getD position 0 ^^^ keystream key position := by
  simp [encipher, List.getD_eq_getElem?_getD, hposition]

/-- Applying a key byte twice gives the byte back. -/
@[simp]
theorem xor_keystream_cancel (key : Fin period → UInt8) (byte : UInt8)
    (position : ℕ) :
    byte ^^^ keystream key position ^^^ keystream key position = byte := by
  rw [UInt8.xor_assoc, UInt8.xor_self, UInt8.xor_zero]

/-- Enciphering twice gives the string back. -/
@[simp]
theorem encipher_encipher (key : Fin period → UInt8) (bytes : List UInt8) :
    encipher key (encipher key bytes) = bytes := by
  apply List.ext_getElem
  · simp only [length_encipher]
  · intro position _ _
    simp only [encipher, List.getElem_mapIdx, xor_keystream_cancel]

/-- A prefix of a string, with zeros for the bytes that are missing. -/
theorem getD_take (bytes : List UInt8) (count position : ℕ) :
    (bytes.take count).getD position 0 =
      if position < count then bytes.getD position 0 else 0 := by
  simp only [List.getD_eq_getElem?_getD, List.getElem?_take]
  split <;> rfl

/-- A prefix of an enciphered string, with zeros for the bytes that are
missing. -/
theorem getD_take_encipher (key : Fin period → UInt8) (bytes : List UInt8)
    (count position : ℕ) :
    ((encipher key bytes).take count).getD position 0 =
      if position < count ∧ position < bytes.length then
        bytes.getD position 0 ^^^ keystream key position
      else 0 := by
  rw [getD_take]
  by_cases hcount : position < count
  · by_cases hinside : position < bytes.length
    · rw [if_pos hcount, if_pos ⟨hcount, hinside⟩, getD_encipher key hinside]
    · rw [if_pos hcount, if_neg fun hboth => hinside hboth.2,
        List.getD_eq_default _ _ (by simpa using hinside)]
  · rw [if_neg hcount, if_neg fun hboth => hcount hboth.1]

/-- The key that enciphers a known text as given bytes. -/
def keyOf (period : ℕ) (known bytes : List UInt8) : Fin period → UInt8 :=
  fun index => known.getD index 0 ^^^ bytes.getD index 0

/-- Whoever knows the first period of a text recovers the key from the beginning
of what it is enciphered as. -/
theorem keyOf_eq (key : Fin period → UInt8) {known rest bytes : List UInt8}
    (hknown : known.length = period) (hlength : period ≤ bytes.length)
    (hbegins : bytes <+: encipher key (known ++ rest)) :
    keyOf period known bytes = key := by
  funext index
  have hindex := index.isLt
  have hsame : keystream key index = key index :=
    congrArg key (Fin.ext (Nat.mod_eq_of_lt hindex))
  have hplain : bytes.getD index 0 = known.getD index 0 ^^^ key index := by
    rw [List.prefix_iff_eq_take.mp hbegins, getD_take_encipher, if_pos (by
      rw [List.length_append]
      omega), List.getD_append _ _ _ _ (by omega), hsame]
  rw [keyOf, hplain, ← UInt8.xor_assoc, UInt8.xor_self, UInt8.zero_xor]

/-- A byte string changed by XOR, without any key. -/
def tamper (mask : ℕ → UInt8) (bytes : List UInt8) : List UInt8 :=
  bytes.mapIdx fun position byte => byte ^^^ mask position

/-- The mask that turns one text into another. -/
def difference (text other : List UInt8) (position : ℕ) : UInt8 :=
  text.getD position 0 ^^^ other.getD position 0

@[simp]
theorem length_tamper (mask : ℕ → UInt8) (bytes : List UInt8) :
    (tamper mask bytes).length = bytes.length := by
  simp [tamper]

theorem getD_tamper (mask : ℕ → UInt8) {bytes : List UInt8} {position : ℕ}
    (hposition : position < bytes.length) :
    (tamper mask bytes).getD position 0 =
      bytes.getD position 0 ^^^ mask position := by
  simp [tamper, List.getD_eq_getElem?_getD, hposition]

/-- An enciphered byte of one text becomes that of the other. -/
theorem xor_xor_difference (byte key other : UInt8) :
    byte ^^^ key ^^^ (byte ^^^ other) = other ^^^ key := by
  calc byte ^^^ key ^^^ (byte ^^^ other)
      = byte ^^^ (byte ^^^ (other ^^^ key)) := by
        rw [UInt8.xor_assoc, UInt8.xor_comm key, UInt8.xor_assoc]
    _ = other ^^^ key := by rw [← UInt8.xor_assoc, UInt8.xor_self, UInt8.zero_xor]

/-- Behind a beginning that nobody knows a known text is replaced by another one of
the same length. -/
theorem tamper_take_encipher (key : Fin period → UInt8) (front : List UInt8)
    {text other : List UInt8} (hlength : other.length = text.length) (count : ℕ) :
    tamper (difference (List.replicate front.length 0 ++ text)
        (List.replicate front.length 0 ++ other))
        ((encipher key (front ++ text)).take count) =
      (encipher key (front ++ other)).take count := by
  have hzeros : (List.replicate front.length (0 : UInt8)).length = front.length :=
    List.length_replicate
  apply List.ext_getElem
  · simp only [length_tamper, List.length_take, length_encipher, List.length_append,
      hlength]
  · intro position hleft hright
    have hinside : position < count ∧ position < (front ++ other).length := by
      rwa [List.length_take, length_encipher, lt_min_iff] at hright
    have hsame : position < count ∧ position < (front ++ text).length := by
      rwa [List.length_append, ← hlength, ← List.length_append]
    rw [length_tamper] at hleft
    rw [← List.getD_eq_getElem _ 0, ← List.getD_eq_getElem _ 0, getD_tamper _ hleft,
      getD_take_encipher, getD_take_encipher, if_pos hsame, if_pos hinside]
    rcases Nat.lt_or_ge position front.length with hfront | htext
    · rw [difference, List.getD_append _ _ _ _ hfront, List.getD_append _ _ _ _ hfront,
        List.getD_append _ _ _ _ (by omega), List.getD_append _ _ _ _ (by omega),
        UInt8.xor_self, UInt8.xor_zero]
    · rw [difference, List.getD_append_right _ _ _ _ htext,
        List.getD_append_right _ _ _ _ htext,
        List.getD_append_right _ _ _ _ (by omega),
        List.getD_append_right _ _ _ _ (by omega), hzeros]
      exact xor_xor_difference _ _ _

end SimpleVpn.Keystream
