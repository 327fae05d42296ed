import SimpleVpn.Tunnel.Frame

/-!
# What the address rewrites do

Both rewrites replace one address and the checksum and leave every other byte
as it was.  The new checksum is taken over a header in which the length and the
addresses are reversed, and it depends neither on the replaced address nor on
the old checksum.
-/

namespace SimpleVpn.Rewrite

open SimpleVpn.TracedMemory SimpleVpn.HostWords SimpleVpn.HostInfo
open SimpleVpn.Protocol SimpleVpn.Utils SimpleVpn.Packet

/-- The field that a rewrite replaces, and the one it keeps. -/
inductive AddressFields : ℕ → ℕ → Prop
  | source : AddressFields ipSrc ipDst
  | dest : AddressFields ipDst ipSrc

/-- The packet while the checksum is taken. -/
def halfSwapped (order : ByteOrder) (packet : Block) (own other : ℕ)
    (address : UInt32) : Block :=
  setU16 order (setU32 order (setU32 order
    (setU16 order packet (6 + ipLen) (ntohs order (u16 order packet (6 + ipLen))))
    (6 + own) (ntohl order address))
    (6 + other) (ntohl order (u32 order packet (6 + other)))) (6 + ipSum) 0

/-- The checksum a rewrite stores. -/
def rewrittenSum (order : ByteOrder) (packet : Block) (own other : ℕ)
    (address : UInt32) : UInt16 :=
  checksum ((halfSwapped order packet own other address).slice 6 20)

theorem value_convertU16 (order : ByteOrder) (convert : UInt16 → UInt16)
    (packet : Block) (field : ℕ) :
    (convertU16 order convert packet field).value =
      setU16 order packet field (convert (u16 order packet field)) := by
  rw [convertU16, Traced.value_bind, Traced.value_bind, value_loadU16,
    value_storeU16, value_storeU16, setU16_setU16]

theorem value_convertU32 (order : ByteOrder) (convert : UInt32 → UInt32)
    (packet : Block) (field : ℕ) :
    (convertU32 order convert packet field).value =
      setU32 order packet field (convert (u32 order packet field)) := by
  rw [convertU32, Traced.value_bind, Traced.value_bind, value_loadU32,
    value_storeU32, value_storeU32, setU32_setU32]

/-- The two address fields and the length do not overlap. -/
theorem AddressFields.disjoint {own other : ℕ}
    (hfields : AddressFields own other) :
    ipSum + 2 ≤ own ∧ ipSum + 2 ≤ other ∧ ipLen + 2 ≤ own ∧
      ipLen + 2 ≤ other ∧ own + 4 ≤ 20 ∧ other + 4 ≤ 20 ∧
      (own + 4 ≤ other ∨ other + 4 ≤ own) := by
  cases hfields <;> decide

theorem value_reverseFields (order : ByteOrder) (packet : Block)
    {own other : ℕ} (hfields : AddressFields own other) (ipAddr : List UInt8) :
    (reverseFields order packet own other ipAddr).value =
      setU32 order (setU32 order
        (setU16 order packet (6 + ipLen)
          (ntohs order (u16 order packet (6 + ipLen))))
        (6 + own) (ntohl order (parseIpAddr ipAddr)))
        (6 + other) (ntohl order (u32 order packet (6 + other))) := by
  have hdisjoint := hfields.disjoint
  have hip : getIpHdr 0 = 6 := rfl
  rw [reverseFields, hip, Traced.value_bind, Traced.value_bind,
    Traced.value_bind, value_convertU16, value_storeU32, value_storeU32,
    value_convertU32, setU32_setU32,
    u32_setU32_of_disjoint order _ _ _ (by omega),
    u32_setU16 order _ _ _ (by omega)]

theorem value_restoreFields (order : ByteOrder) (packet : Block)
    {own other : ℕ} (hfields : AddressFields own other) :
    (restoreFields order packet own other).value =
      setU16 order (setU32 order (setU32 order packet
        (6 + own) (htonl order (u32 order packet (6 + own))))
        (6 + other) (htonl order (u32 order packet (6 + other))))
        (6 + ipLen) (htons order (u16 order packet (6 + ipLen))) := by
  have hdisjoint := hfields.disjoint
  have hip : getIpHdr 0 = 6 := rfl
  rw [restoreFields, hip, Traced.value_bind, Traced.value_bind,
    value_convertU32, value_convertU32, value_convertU16,
    u32_setU32_of_disjoint order _ _ _ (by omega),
    u16_setU32 order _ _ _ (by omega), u16_setU32 order _ _ _ (by omega)]

section HalfSwapped

variable (order : ByteOrder) (packet : Block) {own other : ℕ}
variable (hfields : AddressFields own other) (address : UInt32)

include hfields

theorem u32_halfSwapped_own :
    u32 order (halfSwapped order packet own other address) (6 + own) =
      ntohl order address := by
  have hdisjoint := hfields.disjoint
  rw [halfSwapped, u32_setU16 order _ _ _ (by omega),
    u32_setU32_of_disjoint order _ _ _ (by omega), u32_setU32]

theorem u32_halfSwapped_other :
    u32 order (halfSwapped order packet own other address) (6 + other) =
      ntohl order (u32 order packet (6 + other)) := by
  have hdisjoint := hfields.disjoint
  rw [halfSwapped, u32_setU16 order _ _ _ (by omega), u32_setU32]

theorem u16_halfSwapped_len :
    u16 order (halfSwapped order packet own other address) (6 + ipLen) =
      ntohs order (u16 order packet (6 + ipLen)) := by
  have hdisjoint := hfields.disjoint
  rw [halfSwapped, u16_setU16_of_disjoint order _ _ _ (by decide),
    u16_setU32 order _ _ _ (by omega), u16_setU32 order _ _ _ (by omega),
    u16_setU16]

end HalfSwapped

/-- The packet a rewrite returns, as a chain of field writes. -/
theorem value_rewriteAddress (order : ByteOrder) (packet : Block)
    {own other : ℕ} (hfields : AddressFields own other) (ipAddr : List UInt8) :
    (rewriteAddress order packet own other ipAddr).value.1 =
      setU16 order (setU32 order (setU32 order (setU16 order
        (halfSwapped order packet own other (parseIpAddr ipAddr)) (6 + ipSum)
        (rewrittenSum order packet own other (parseIpAddr ipAddr)))
        (6 + own) (parseIpAddr ipAddr))
        (6 + other) (u32 order packet (6 + other)))
        (6 + ipLen) (u16 order packet (6 + ipLen)) := by
  have hdisjoint := hfields.disjoint
  have hip : getIpHdr 0 = 6 := rfl
  have hhalf : setU16 order (reverseFields order packet own other ipAddr).value
      (6 + ipSum) 0 = halfSwapped order packet own other (parseIpAddr ipAddr) := by
    rw [value_reverseFields order packet hfields, halfSwapped]
  rw [rewriteAddress, hip]
  simp only [Traced.value_bind, Traced.value_pure]
  rw [value_storeU16, value_storeU16, hhalf, value_cksum _ _ _ _ (by decide),
    htons_htons, value_restoreFields order _ hfields,
    u32_setU16 order _ _ _ (by omega), u32_setU16 order _ _ _ (by omega),
    u16_setU16_of_disjoint order _ _ _ (by decide),
    u32_halfSwapped_own order packet hfields,
    u32_halfSwapped_other order packet hfields,
    u16_halfSwapped_len order packet hfields, htonl_ntohl, htonl_ntohl,
    htons_ntohs, rewrittenSum]
  rfl

/-- What `serv_handle_pkt` and `serv_handle_pkt_dest` do to each byte of a
packet. -/
theorem byte_rewriteAddress (order : ByteOrder) (packet : Block)
    {own other : ℕ} (hfields : AddressFields own other) (ipAddr : List UInt8)
    (index : ℕ) :
    (rewriteAddress order packet own other ipAddr).value.1.byte index =
      if 6 + own ≤ index ∧ index < 6 + own + 4 then
        nativeByte32 order (parseIpAddr ipAddr) (index - (6 + own))
      else if 6 + ipSum ≤ index ∧ index < 6 + ipSum + 2 then
        nativeByte16 order
          (rewrittenSum order packet own other (parseIpAddr ipAddr))
          (index - (6 + ipSum))
      else packet.byte index := by
  have hdisjoint := hfields.disjoint
  have hlen := byte_setU16_u16 order packet (6 + ipLen) index
  have hother := byte_setU32_u32 order packet (6 + other) index
  rw [byte_setU16] at hlen
  rw [byte_setU32] at hother
  rw [value_rewriteAddress order packet hfields, byte_setU16]
  by_cases hinLen : 6 + ipLen ≤ index ∧ index < 6 + ipLen + 2
  · rw [if_pos hinLen] at hlen ⊢
    rw [hlen, if_neg (by omega), if_neg (by simp only [ipLen, ipSum] at *; omega)]
  rw [if_neg hinLen, byte_setU32]
  by_cases hinOther : 6 + other ≤ index ∧ index < 6 + other + 4
  · rw [if_pos hinOther] at hother ⊢
    rw [hother, if_neg (by omega), if_neg (by omega)]
  rw [if_neg hinOther, byte_setU32]
  by_cases hinOwn : 6 + own ≤ index ∧ index < 6 + own + 4
  · rw [if_pos hinOwn, if_pos hinOwn]
  rw [if_neg hinOwn, if_neg hinOwn, byte_setU16]
  by_cases hinSum : 6 + ipSum ≤ index ∧ index < 6 + ipSum + 2
  · rw [if_pos hinSum, if_pos hinSum]
  rw [if_neg hinSum, if_neg hinSum, halfSwapped, byte_setU16, if_neg hinSum,
    byte_setU32, if_neg hinOther, byte_setU32, if_neg hinOwn, byte_setU16,
    if_neg hinLen]

@[simp]
theorem pointer_rewriteAddress (order : ByteOrder) (packet : Block)
    (own other : ℕ) (ipAddr : List UInt8) :
    (rewriteAddress order packet own other ipAddr).value.2 = 6 := by
  simp only [rewriteAddress, Traced.value_bind, Traced.value_pure]
  rfl

theorem size_rewriteAddress (order : ByteOrder) (packet : Block)
    {own other : ℕ} (hfields : AddressFields own other) (ipAddr : List UInt8) :
    (rewriteAddress order packet own other ipAddr).value.1.size =
      packet.size := by
  rw [value_rewriteAddress order packet hfields, size_setU16, size_setU32,
    size_setU32, size_setU16, halfSwapped, size_setU16, size_setU32,
    size_setU32, size_setU16]

section Fields

variable (order : ByteOrder) (packet : Block) {own other : ℕ}
variable (hfields : AddressFields own other) (ipAddr : List UInt8)

include hfields

theorem u32_rewriteAddress_own :
    u32 order (rewriteAddress order packet own other ipAddr).value.1 (6 + own) =
      parseIpAddr ipAddr := by
  rw [u32_eq_iff]
  intro index hindex
  rw [byte_rewriteAddress order packet hfields, if_pos (by omega),
    Nat.add_sub_cancel_left]

theorem u32_rewriteAddress_other :
    u32 order (rewriteAddress order packet own other ipAddr).value.1
      (6 + other) = u32 order packet (6 + other) := by
  have hdisjoint := hfields.disjoint
  apply u32_congr
  intro index hlow hhigh
  rw [byte_rewriteAddress order packet hfields, if_neg (by omega),
    if_neg (by omega)]

theorem u16_rewriteAddress_sum :
    u16 order (rewriteAddress order packet own other ipAddr).value.1
      (6 + ipSum) =
        rewrittenSum order packet own other (parseIpAddr ipAddr) := by
  have hdisjoint := hfields.disjoint
  rw [u16_eq_iff]
  intro index hindex
  rw [byte_rewriteAddress order packet hfields, if_neg (by omega),
    if_pos (by omega), Nat.add_sub_cancel_left]

theorem byte_rewriteAddress_of_outside {index : ℕ}
    (hown : ¬ (6 + own ≤ index ∧ index < 6 + own + 4))
    (hsum : ¬ (6 + ipSum ≤ index ∧ index < 6 + ipSum + 2)) :
    (rewriteAddress order packet own other ipAddr).value.1.byte index =
      packet.byte index := by
  rw [byte_rewriteAddress order packet hfields, if_neg hown, if_neg hsum]

/-- A rewrite leaves everything before the checksum as it was. -/
theorem byte_rewriteAddress_of_lt {index : ℕ} (hindex : index < 6 + ipSum) :
    (rewriteAddress order packet own other ipAddr).value.1.byte index =
      packet.byte index := by
  have hdisjoint := hfields.disjoint
  apply byte_rewriteAddress_of_outside order packet hfields <;> omega

/-- A rewrite leaves the TCP header and the payload as they were. -/
theorem byte_rewriteAddress_of_le {index : ℕ} (hindex : 26 ≤ index) :
    (rewriteAddress order packet own other ipAddr).value.1.byte index =
      packet.byte index := by
  have hdisjoint := hfields.disjoint
  apply byte_rewriteAddress_of_outside order packet hfields <;> omega

end Fields

/-- Two packets whose IP headers agree apart from the replaced address and the
checksum. -/
def AgreeOutside (own : ℕ) (left right : Block) : Prop :=
  ∀ index, 6 ≤ index → index < 26 →
    ¬ (6 + own ≤ index ∧ index < 6 + own + 4) →
    ¬ (6 + ipSum ≤ index ∧ index < 6 + ipSum + 2) →
    left.byte index = right.byte index

theorem rewrittenSum_congr (order : ByteOrder) {left right : Block}
    {own other : ℕ} (hfields : AddressFields own other)
    (hagree : AgreeOutside own left right) (address : UInt32) :
    rewrittenSum order left own other address =
      rewrittenSum order right own other address := by
  have hdisjoint := hfields.disjoint
  have hlen : u16 order left (6 + ipLen) = u16 order right (6 + ipLen) := by
    apply u16_congr
    intro index hlow hhigh
    simp only [ipLen, ipSum] at *
    exact hagree index (by omega) (by omega) (by omega) (by
      simp only [ipSum]
      omega)
  have hkept : u32 order left (6 + other) = u32 order right (6 + other) := by
    apply u32_congr
    intro index hlow hhigh
    exact hagree index (by omega) (by omega) (by omega) (by omega)
  rw [rewrittenSum, rewrittenSum]
  apply congrArg checksum
  apply Block.slice_congr
  intro offset hoffset
  simp only [halfSwapped, byte_setU16, byte_setU32, hlen, hkept]
  by_cases hinSum : 6 + ipSum ≤ 6 + offset ∧ 6 + offset < 6 + ipSum + 2
  · rw [if_pos hinSum, if_pos hinSum]
  by_cases hinOwn : 6 + own ≤ 6 + offset ∧ 6 + offset < 6 + own + 4
  · rw [if_pos hinOwn, if_pos hinOwn]
  rw [hagree (6 + offset) (by omega) (by omega) hinOwn hinSum]

/-- A rewrite erases the address it replaces and the old checksum: packets that
agree apart from these two fields become equal. -/
theorem byte_rewriteAddress_congr (order : ByteOrder) {left right : Block}
    {own other : ℕ} (hfields : AddressFields own other)
    (hagree : AgreeOutside own left right) (ipAddr : List UInt8) {index : ℕ}
    (hindex : ¬ (6 + own ≤ index ∧ index < 6 + own + 4) →
      ¬ (6 + ipSum ≤ index ∧ index < 6 + ipSum + 2) →
      left.byte index = right.byte index) :
    (rewriteAddress order left own other ipAddr).value.1.byte index =
      (rewriteAddress order right own other ipAddr).value.1.byte index := by
  rw [byte_rewriteAddress order left hfields,
    byte_rewriteAddress order right hfields,
    rewrittenSum_congr order hfields hagree]
  by_cases hinOwn : 6 + own ≤ index ∧ index < 6 + own + 4
  · rw [if_pos hinOwn, if_pos hinOwn]
  by_cases hinSum : 6 + ipSum ≤ index ∧ index < 6 + ipSum + 2
  · rw [if_neg hinOwn, if_neg hinOwn, if_pos hinSum, if_pos hinSum]
  rw [if_neg hinOwn, if_neg hinOwn, if_neg hinSum, if_neg hinSum]
  exact hindex hinOwn hinSum

/-- What it means to replace the address field at `own`: the field and the
checksum are written and nothing else, what they held before has no influence,
and of two replacements the second one counts. -/
structure ReplacesAddress (order : ByteOrder)
    (rewrite : Block → List UInt8 → Block) (own : ℕ) : Prop where
  sets : ∀ (packet : Block) (ipAddr : DottedQuad),
    u32 order (rewrite packet ipAddr.text) (6 + own) = parseIpAddr ipAddr.text
  frame : ∀ (packet : Block) (ipAddr : DottedQuad) (index : ℕ),
    ¬ (6 + own ≤ index ∧ index < 6 + own + 4) →
    ¬ (6 + ipSum ≤ index ∧ index < 6 + ipSum + 2) →
    (rewrite packet ipAddr.text).byte index = packet.byte index
  erases : ∀ (left right : Block) (ipAddr : DottedQuad),
    AgreeOutside own left right →
    u16 order (rewrite left ipAddr.text) (6 + ipSum) =
      u16 order (rewrite right ipAddr.text) (6 + ipSum)
  repeated : ∀ (packet : Block) (ipAddr : DottedQuad),
    (rewrite (rewrite packet ipAddr.text) ipAddr.text).byte =
      (rewrite packet ipAddr.text).byte
  replaced : ∀ (packet : Block) (first second : DottedQuad),
    (rewrite (rewrite packet first.text) second.text).byte =
      (rewrite packet second.text).byte

section Replaces

variable (order : ByteOrder) {own other : ℕ}
variable (hfields : AddressFields own other)

include hfields

/-- A rewrite after another one gives what it gives alone. -/
theorem byte_rewriteAddress_twice (packet : Block)
    (first second : List UInt8) :
    (rewriteAddress order (rewriteAddress order packet own other first).value.1
        own other second).value.1.byte =
      (rewriteAddress order packet own other second).value.1.byte := by
  have hagree : AgreeOutside own
      (rewriteAddress order packet own other first).value.1 packet :=
    fun index _ _ => byte_rewriteAddress_of_outside order packet hfields first
  funext index
  exact byte_rewriteAddress_congr order hfields hagree second
    (byte_rewriteAddress_of_outside order packet hfields first)

theorem replacesAddress_rewriteAddress :
    ReplacesAddress order (fun packet ipAddr =>
      (rewriteAddress order packet own other ipAddr).value.1) own where
  sets packet ipAddr := u32_rewriteAddress_own order packet hfields ipAddr.text
  frame packet ipAddr _ :=
    byte_rewriteAddress_of_outside order packet hfields ipAddr.text
  erases left right ipAddr hagree := by
    rw [u16_rewriteAddress_sum order left hfields,
      u16_rewriteAddress_sum order right hfields,
      rewrittenSum_congr order hfields hagree]
  repeated packet ipAddr :=
    byte_rewriteAddress_twice order hfields packet ipAddr.text ipAddr.text
  replaced packet first second :=
    byte_rewriteAddress_twice order hfields packet first.text second.text

end Replaces

/-- `serv_handle_pkt` replaces the source address and `serv_handle_pkt_dest` the
destination address. -/
theorem replacesAddress_servHandlePkt (order : ByteOrder) :
    ReplacesAddress order
        (fun packet ipAddr => (servHandlePkt order packet ipAddr).value.1) ipSrc ∧
      ReplacesAddress order
        (fun packet ipAddr => (servHandlePktDest order packet ipAddr).value.1)
        ipDst :=
  ⟨replacesAddress_rewriteAddress order .source,
    replacesAddress_rewriteAddress order .dest⟩

end SimpleVpn.Rewrite
