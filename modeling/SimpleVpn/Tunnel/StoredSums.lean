import SimpleVpn.Tunnel.HeaderSums

/-!
# Stored checksums against `verify_checksum`

The three header writers pass the result of `cksum` through `htons` once more
before they store it, and `verify_checksum` does not.  On a little-endian host a
stored checksum is confirmed only when its two bytes are equal, which is when
the sum of its header is a multiple of 257.
-/

namespace SimpleVpn.StoredSums

open SimpleVpn.TracedMemory SimpleVpn.HostWords SimpleVpn.OnesComplement
open SimpleVpn.HostInfo SimpleVpn.Protocol SimpleVpn.Utils SimpleVpn.Packet
open SimpleVpn.Frame SimpleVpn.HeaderSums

/-- A copy of the packet with the checksum field of a header zeroed. -/
def zeroedSum (order : ByteOrder) (packet : Block) (header sumField : ℕ) :
    Block :=
  setU16 order packet (header + sumField) 0

/-- `verify_checksum` of a header whose checksum field is zeroed, against the
value that is stored in that field. -/
def verifyStored (order : ByteOrder) (packet : Block)
    (header size sumField : ℕ) : ℤ :=
  (verifyChecksum order (zeroedSum order packet header sumField) header size
    (u16 order packet (header + sumField))).value

/-- A header that stores the checksum of its zeroed copy in host order verifies
on a little-endian host exactly when its sum is a multiple of 257. -/
theorem verifyStored_eq_zero_iff {packet : Block} {header size sumField : ℕ}
    {zeroed : List UInt8} (hsize : size ≤ 20)
    (hslice : (zeroedSum .little packet header sumField).slice header size =
      zeroed)
    (hstored : u16 .little packet (header + sumField) = checksum zeroed) :
    verifyStored .little packet header size sumField = 0 ↔
      wordSum zeroed % 257 = 0 := by
  rw [verifyStored, verifyChecksum_eq_zero_iff,
    value_cksum .little _ header size (by omega), hslice, hstored,
    htons_little_eq_self_iff, hi16_checksum_eq_lo16_iff]

/-- Another checksum in a packet that carries a header. -/
theorem carriesHeader_setU16 {order : ByteOrder} {packet : Block}
    {sum : UInt16} {source dest : UInt32}
    (hcarries : CarriesHeader order packet sum source dest) (other : UInt16) :
    CarriesHeader order (setU16 order packet 16 other) other source dest where
  start_eq index hindex := by
    rw [byte_setU16, if_neg (by omega)]
    exact hcarries.start_eq index hindex
  sum_eq := u16_setU16 order packet 16 other
  source_eq := (u32_setU16 order packet 16 other (by omega)).trans
    hcarries.source_eq
  dest_eq := (u32_setU16 order packet 16 other (by omega)).trans hcarries.dest_eq

theorem carriesHeader_headerPacket (order : ByteOrder) (around : Surroundings)
    (source dest : DottedQuad) :
    CarriesHeader order (headerPacket order around source dest)
      (builtSum order source.address dest.address) source.address
      dest.address := by
  rw [carriesHeader_iff]
  exact writtenHeader_eq order around source dest

theorem verifyStored_ip_iff (around : Surroundings) (source dest : DottedQuad) :
    verifyStored .little (headerPacket .little around source dest) (getIpHdr 0)
        sizeofIpHdr ipSum = 0 ↔
      (halves source.address + halves dest.address) % 257 = 90 := by
  have hcarries := carriesHeader_headerPacket .little around source dest
  have hslice : (zeroedSum .little (headerPacket .little around source dest)
      (getIpHdr 0) ipSum).slice (getIpHdr 0) sizeofIpHdr =
        ipHeader .little 0 source.address dest.address :=
    (carriesHeader_iff .little _ 0 _ _).mp (carriesHeader_setU16 hcarries 0)
  rw [verifyStored_eq_zero_iff (by decide) hslice hcarries.sum_eq,
    wordSum_ipHeader_little_mod_iff]

/-- The packet after `set_tcp` wrote its header into zeroed memory. -/
def tcpPacket (order : ByteOrder) (around : Surroundings) (flags : UInt8) :
    Block :=
  (setTcp order (calloc around encapsulatedSize) (getTcpHdr 0) flags).value

theorem byte_tcpPacket (order : ByteOrder) (around : Surroundings)
    (flags : UInt8) {index : ℕ} (hindex : index < 20) :
    (tcpPacket order around flags).byte (26 + index) =
      (tcpHeader order flags).getD index 0 := by
  have hzero : ∀ other, 26 ≤ other → other < 46 →
      (calloc around encapsulatedSize).byte other = 0 := by
    intro other _ hother
    exact byte_calloc around (hother.trans (by decide))
  rw [tcpPacket, byte_setTcp order _ _ hzero, if_pos (by omega),
    Nat.add_sub_cancel_left]

/-- The checksum shows nowhere in a TCP header but in its own field. -/
theorem getD_tcpHeaderWith_congr (order : ByteOrder) (left right : UInt16)
    (flags : UInt8) {index : ℕ} (hindex : index < 20)
    (houtside : ¬ (16 ≤ index ∧ index < 18)) :
    (tcpHeaderWith order left flags).getD index 0 =
      (tcpHeaderWith order right flags).getD index 0 := by
  interval_cases index <;> first | rfl | omega

/-- The TCP header with its checksum zeroed. -/
theorem slice_zeroedSum_tcp (order : ByteOrder) (around : Surroundings)
    (flags : UInt8) :
    (zeroedSum order (tcpPacket order around flags) (getTcpHdr 0) tcpSum).slice
      (getTcpHdr 0) sizeofTcpHdr = tcpHeaderWith order 0 flags := by
  apply Block.slice_eq
  · rfl
  · intro index hindex
    change index < 20 at hindex
    have hzero := nativeByte16_zero order
    rw [zeroedSum, byte_setU16, show getTcpHdr 0 = 26 from rfl,
      show tcpSum = 16 from rfl, byte_tcpPacket order around flags hindex]
    split
    next hinside =>
      rw [hzero]
      have hcases : index = 16 ∨ index = 17 := by omega
      rcases hcases with rfl | rfl
      · exact (hzero 0).symm
      · exact (hzero 1).symm
    next houtside =>
      rw [tcpHeader, getD_tcpHeaderWith_congr order _ 0 flags hindex (by omega)]

theorem u16_tcpPacket_sum (order : ByteOrder) (around : Surroundings)
    (flags : UInt8) :
    u16 order (tcpPacket order around flags) (getTcpHdr 0 + tcpSum) =
      checksum (tcpHeaderWith order 0 flags) := by
  rw [u16_eq_iff]
  intro index hindex
  rw [show getTcpHdr 0 + tcpSum + index = 26 + (16 + index) by
      rw [show getTcpHdr 0 = 26 from rfl, tcpSum, Nat.add_assoc],
    byte_tcpPacket order around flags (by omega), tcpHeader]
  generalize checksum (tcpHeaderWith order 0 flags) = sum
  interval_cases index <;> rfl

theorem wordSum_tcpHeaderWith (order : ByteOrder) (flags : UInt8) :
    wordSum (tcpHeaderWith order 0 flags) = 34700 + flags.toNat := by
  have hport : (hi16 port).toNat = 67 ∧ (lo16 port).toNat = 198 := by decide
  simp only [tcpHeaderWith, wordSum, nativeByte16_zero, hport,
    UInt8.toNat_zero]
  omega

theorem verifyStored_tcp_iff (around : Surroundings) (flags : UInt8) :
    verifyStored .little (tcpPacket .little around flags) (getTcpHdr 0)
        sizeofTcpHdr tcpSum = 0 ↔ flags = 252 := by
  have hflags := flags.toNat_lt
  rw [verifyStored_eq_zero_iff (by decide)
    (slice_zeroedSum_tcp .little around flags)
    (u16_tcpPacket_sum .little around flags), wordSum_tcpHeaderWith,
    ← UInt8.toNat_inj]
  change (34700 + flags.toNat) % 257 = 0 ↔ flags.toNat = 252
  omega

/-- The packet after `packet_encapsulate` wrote its header. -/
def grePacket (order : ByteOrder) (around : Surroundings) : Block :=
  (packetEncapsulate order (calloc around encapsulatedSize)).value

theorem byte_grePacket (order : ByteOrder) (around : Surroundings) {index : ℕ}
    (hindex : index < 6) :
    (grePacket order around).byte index = (greHeader order).getD index 0 := by
  rw [grePacket, byte_packetEncapsulate, if_pos hindex]

/-- The GRE header with its checksum zeroed. -/
theorem slice_zeroedSum_gre (order : ByteOrder) (around : Surroundings) :
    (zeroedSum order (grePacket order around) (getGreHdr 0) greSum).slice
      (getGreHdr 0) sizeofGreHdr = [0, 1, 8, 0, 0, 0] := by
  apply Block.slice_eq
  · rfl
  · intro index hindex
    change index < 6 at hindex
    rw [zeroedSum, byte_setU16, show getGreHdr 0 = 0 from rfl]
    simp only [Nat.zero_add, nativeByte16_zero, byte_grePacket order around hindex]
    interval_cases index <;> rfl

theorem u16_grePacket_sum (order : ByteOrder) (around : Surroundings) :
    u16 order (grePacket order around) (getGreHdr 0 + greSum) =
      checksum [0, 1, 8, 0, 0, 0] := by
  rw [u16_eq_iff]
  intro index hindex
  rw [show getGreHdr 0 + greSum + index = 4 + index from by
    rw [getGreHdr, greSum, Nat.zero_add], byte_grePacket _ _ (by omega)]
  interval_cases index <;> rfl

theorem verifyStored_gre_ne (around : Surroundings) :
    verifyStored .little (grePacket .little around) (getGreHdr 0) sizeofGreHdr
      greSum ≠ 0 := by
  rw [Ne, verifyStored_eq_zero_iff (by decide)
    (slice_zeroedSum_gre .little around) (u16_grePacket_sum .little around)]
  decide

/-- The checksum stored in each of the three headers verifies. -/
structure SumsVerify (order : ByteOrder) (around : Surroundings)
    (source dest : DottedQuad) (flags : UInt8) : Prop where
  ip : verifyStored order (headerPacket order around source dest) (getIpHdr 0)
    sizeofIpHdr ipSum = 0
  tcp : verifyStored order (tcpPacket order around flags) (getTcpHdr 0)
    sizeofTcpHdr tcpSum = 0
  gre : verifyStored order (grePacket order around) (getGreHdr 0) sizeofGreHdr
    greSum = 0

/-- On a little-endian host the checksum of the IP header verifies only for
addresses that balance, the one of the TCP header for a single value of the
flags and the one of the GRE header never. -/
theorem storedSums (around : Surroundings) (source dest : DottedQuad)
    (flags : UInt8) :
    ¬ SumsVerify .little around source dest flags ∧
      (verifyStored .little (headerPacket .little around source dest)
          (getIpHdr 0) sizeofIpHdr ipSum = 0 ↔
        (halves source.address + halves dest.address) % 257 = 90) ∧
      (verifyStored .little (tcpPacket .little around flags) (getTcpHdr 0)
          sizeofTcpHdr tcpSum = 0 ↔ flags = 252) ∧
      verifyStored .little (grePacket .little around) (getGreHdr 0)
        sizeofGreHdr greSum ≠ 0 :=
  ⟨fun hverify => verifyStored_gre_ne around hverify.gre,
    verifyStored_ip_iff around source dest, verifyStored_tcp_iff around flags,
    verifyStored_gre_ne around⟩

/-- The request of the client: none of its three checksums verifies. -/
theorem not_verifyStored_hosts :
    verifyStored .little (headerPacket .little (Heap.zeros 0) h1 h3)
        (getIpHdr 0) sizeofIpHdr ipSum ≠ 0 ∧
      verifyStored .little (tcpPacket .little (Heap.zeros 0) tcpFlagSyn)
        (getTcpHdr 0) sizeofTcpHdr tcpSum ≠ 0 ∧
      verifyStored .little (grePacket .little (Heap.zeros 0)) (getGreHdr 0)
        sizeofGreHdr greSum ≠ 0 := by
  refine ⟨?_, ?_, verifyStored_gre_ne (Heap.zeros 0)⟩
  · rw [Ne, verifyStored_ip_iff, address_h1, address_h3]
    decide
  · rw [Ne, verifyStored_tcp_iff]
    decide

end SimpleVpn.StoredSums
