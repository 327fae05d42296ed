import Mathlib.Data.List.GetD
import SimpleVpn.Concrete.Programs

/-!
# Datagrams and their frames

A datagram is what the tunnel is about: two addresses, the TCP flags and a
message.  Its frame is the string of bytes that stands for it in a packet.  The
functions that build a packet write exactly this frame, followed by zeros.
-/

namespace SimpleVpn.Frame

open SimpleVpn.TracedMemory SimpleVpn.HostWords SimpleVpn.CStrings
open SimpleVpn.Keystream SimpleVpn.HostInfo SimpleVpn.Protocol SimpleVpn.Utils
open SimpleVpn.Packet

/-- A string that fits the payload area together with its terminator. -/
structure Message extends CString where
  length_le : chars.length ≤ 127

/-- The request of `client.c`. -/
def requestPayload : Message :=
  ⟨⟨HostInfo.chars "payload", by decide⟩, by decide⟩

/-- The response of `destination.c`. -/
def responseMsg : Message :=
  ⟨⟨HostInfo.chars "Hello from the other side!", by decide⟩, by decide⟩

/-- The first characters of a message. -/
def Message.beginning (message : Message) (count : ℕ) : Message where
  chars := message.chars.take count
  nulFree hmem := message.nulFree (List.mem_of_mem_take hmem)
  length_le := (List.length_take_le' _ _).trans message.length_le

/-- What a packet says, apart from checksums and constants. -/
structure Datagram where
  source : UInt32
  dest : UInt32
  flags : UInt8
  message : Message

/-- The GRE header that `packet_encapsulate` writes. -/
def greHeader (order : ByteOrder) : List UInt8 :=
  let sum := checksum [0, 1, 8, 0, 0, 0]
  [0, 1, 8, 0, nativeByte16 order sum 0, nativeByte16 order sum 1]

/-- An IP header with the constants of `set_ip`, a given checksum field and two
addresses. -/
def ipHeader (order : ByteOrder) (sum : UInt16) (source dest : UInt32) :
    List UInt8 :=
  [0x40, 0, 0, 148, 0, 0, 0, 0, 0, 6,
    nativeByte16 order sum 0, nativeByte16 order sum 1,
    nativeByte32 order source 0, nativeByte32 order source 1,
    nativeByte32 order source 2, nativeByte32 order source 3,
    nativeByte32 order dest 0, nativeByte32 order dest 1,
    nativeByte32 order dest 2, nativeByte32 order dest 3]

/-- The checksum `set_ip` stores: the one of the header as it lies in memory. -/
def builtSum (order : ByteOrder) (source dest : UInt32) : UInt16 :=
  checksum (ipHeader order 0 source dest)

/-- A TCP header with the ports of `set_tcp`. -/
def tcpHeaderWith (order : ByteOrder) (sum : UInt16) (flags : UInt8) :
    List UInt8 :=
  [hi16 port, lo16 port, hi16 port, lo16 port, 0, 0, 0, 0, 0, 0, 0, 0,
    0, flags, 0, 0, nativeByte16 order sum 0, nativeByte16 order sum 1, 0, 0]

/-- The TCP header that `set_tcp` writes. -/
def tcpHeader (order : ByteOrder) (flags : UInt8) : List UInt8 :=
  tcpHeaderWith order (checksum (tcpHeaderWith order 0 flags)) flags

/-- The three headers of a datagram, with a given IP checksum. -/
def headersWith (order : ByteOrder) (sum : UInt16) (source dest : UInt32)
    (flags : UInt8) : List UInt8 :=
  greHeader order ++ ipHeader order sum source dest ++ tcpHeader order flags

@[simp]
theorem length_headersWith (order : ByteOrder) (sum : UInt16)
    (source dest : UInt32) (flags : UInt8) :
    (headersWith order sum source dest flags).length = 46 := rfl

/-- The frame of a datagram, with the checksum that `set_ip` gives it. -/
def frame (order : ByteOrder) (datagram : Datagram) : List UInt8 :=
  headersWith order (builtSum order datagram.source datagram.dest)
    datagram.source datagram.dest datagram.flags ++ datagram.message.chars

@[simp]
theorem length_frame (order : ByteOrder) (datagram : Datagram) :
    (frame order datagram).length = 46 + datagram.message.chars.length := by
  rw [frame, List.length_append, length_headersWith]

theorem byte_packetEncapsulate (order : ByteOrder) (packet : Block)
    (index : ℕ) :
    (packetEncapsulate order packet).value.byte index =
      if index < 6 then (greHeader order).getD index 0
      else packet.byte index := by
  simp only [packetEncapsulate, getGreHdr, greC, greProtocol, greSum,
    sizeofGreHdr, Traced.value_bind, value_storeU16]
  rw [value_cksum order _ _ _ (by omega), htons_htons]
  have hslice : (setU16 order (setU16 order (setU16 order packet (0 + 0)
      (htons order 1)) (0 + 2) (htons order ethertypeIpv4)) (0 + 4) 0).slice 0 6 =
      [0, 1, 8, 0, 0, 0] := by
    simp [Block.slice_succ, byte_setU16]
    exact ⟨rfl, rfl, rfl, rfl⟩
  rw [hslice]
  by_cases hindex : index < 6
  · rw [if_pos hindex]
    interval_cases index <;> simp [byte_setU16, greHeader] <;> rfl
  · rw [if_neg hindex]
    simp only [byte_setU16]
    rw [if_neg (by omega), if_neg (by omega), if_neg (by omega),
      if_neg (by omega)]

/-- `set_ip` on a zeroed header, as `calloc` leaves it. -/
theorem byte_setIp (order : ByteOrder) (packet : Block) (source dest : List UInt8)
    (hzero : ∀ index, 6 ≤ index → index < 26 → packet.byte index = 0)
    (index : ℕ) :
    (setIp order packet (getIpHdr 0) dest source ipProtocolTcp
        (UInt8.ofNat maxPayloadSize)).value.byte index =
      if 6 ≤ index ∧ index < 26 then
        (ipHeader order (builtSum order (parseIpAddr source) (parseIpAddr dest))
          (parseIpAddr source) (parseIpAddr dest)).getD (index - 6) 0
      else packet.byte index := by
  simp only [setIp, getIpHdr, sizeofGreHdr, ipHlV, ipLen, ipP, ipSrc, ipDst,
    ipSum, Traced.value_bind, value_storeU16, value_storeU32, value_store,
    value_load]
  rw [value_cksum order _ _ _ (by decide), htons_htons]
  generalize parseIpAddr source = source
  generalize parseIpAddr dest = dest
  have hslice : (setU16 order (setU32 order (setU32 order ((setU16 order
      (packet.set (0 + 6 + 0) ((packet.byte (0 + 6 + 0) &&& 0x0f) |||
        (ipVersion <<< (4 : UInt8)))) (0 + 6 + 2)
      (htons order (UInt16.ofNat ((UInt8.ofNat maxPayloadSize).toNat +
        sizeofIpHdr)))).set (0 + 6 + 9) ipProtocolTcp) (0 + 6 + 12) source)
      (0 + 6 + 16) dest) (0 + 6 + 10) 0).slice (0 + 6) sizeofIpHdr =
      ipHeader order 0 source dest := by
    simp [sizeofIpHdr, Block.slice_succ, byte_setU16, byte_setU32,
      Block.byte_set, ipHeader, hzero]
    exact ⟨rfl, rfl, rfl, rfl⟩
  rw [hslice, ← builtSum]
  by_cases hindex : 6 ≤ index ∧ index < 26
  · rw [if_pos hindex]
    obtain ⟨offset, rfl⟩ := Nat.exists_eq_add_of_le hindex.1
    have hoffset : offset < 20 := by omega
    rw [Nat.add_sub_cancel_left]
    interval_cases offset <;>
      simp [byte_setU16, byte_setU32, Block.byte_set, ipHeader, hzero] <;> rfl
  · rw [if_neg hindex]
    simp only [byte_setU16, byte_setU32, Block.byte_set]
    rw [if_neg (by omega), if_neg (by omega), if_neg (by omega),
      if_neg (by omega), if_neg (by omega), if_neg (by omega),
      if_neg (by omega)]

/-- `set_tcp` on a zeroed header. -/
theorem byte_setTcp (order : ByteOrder) (packet : Block) (flags : UInt8)
    (hzero : ∀ index, 26 ≤ index → index < 46 → packet.byte index = 0)
    (index : ℕ) :
    (setTcp order packet (getTcpHdr 0) flags).value.byte index =
      if 26 ≤ index ∧ index < 46 then
        (tcpHeader order flags).getD (index - 26) 0
      else packet.byte index := by
  simp only [setTcp, getTcpHdr, sizeofGreHdr, sizeofIpHdr, tcpSrcPort,
    tcpDstPort, tcpFlags, tcpSum, Traced.value_bind, value_storeU16,
    value_store]
  rw [value_cksum order _ _ _ (by decide), htons_htons]
  have hslice : ((setU16 order (setU16 order packet (0 + 6 + 20 + 0)
      (htons order port)) (0 + 6 + 20 + 2) (htons order port)).set
        (0 + 6 + 20 + 13) flags).slice (0 + 6 + 20) sizeofTcpHdr =
      tcpHeaderWith order 0 flags := by
    simp [sizeofTcpHdr, Block.slice_succ, byte_setU16, Block.byte_set,
      tcpHeaderWith, hzero]
  rw [hslice]
  by_cases hindex : 26 ≤ index ∧ index < 46
  · rw [if_pos hindex]
    obtain ⟨offset, rfl⟩ := Nat.exists_eq_add_of_le hindex.1
    have hoffset : offset < 20 := by omega
    rw [Nat.add_sub_cancel_left]
    interval_cases offset <;>
      simp [byte_setU16, Block.byte_set, tcpHeader, tcpHeaderWith, hzero]
  · rw [if_neg hindex]
    simp only [byte_setU16, Block.byte_set]
    rw [if_neg (by omega), if_neg (by omega), if_neg (by omega),
      if_neg (by omega)]

theorem getD_headersWith (order : ByteOrder) (sum : UInt16)
    (source dest : UInt32) (flags : UInt8) (index : ℕ) :
    (headersWith order sum source dest flags).getD index 0 =
      if index < 6 then (greHeader order).getD index 0
      else if index < 26 then
        (ipHeader order sum source dest).getD (index - 6) 0
      else (tcpHeader order flags).getD (index - 26) 0 := by
  rw [headersWith]
  split
  next hgre =>
    rw [List.append_assoc, List.getD_append _ _ _ _ hgre]
  next hgre =>
    split
    next hip =>
      rw [List.getD_append _ _ _ _ hip,
        List.getD_append_right _ _ _ _ (Nat.le_of_not_lt hgre)]
      rfl
    next hip =>
      rw [List.getD_append_right _ _ _ _ (Nat.le_of_not_lt hip)]
      rfl

/-- The destination address lies at bytes 22 to 25. -/
theorem getD_headersWith_dest (order : ByteOrder) (sum : UInt16)
    (source dest : UInt32) (flags : UInt8) {index : ℕ} (hindex : index < 4) :
    (headersWith order sum source dest flags).getD (22 + index) 0 =
      nativeByte32 order dest index := by
  have hcases : index = 0 ∨ index = 1 ∨ index = 2 ∨ index = 3 := by omega
  rcases hcases with rfl | rfl | rfl | rfl <;> rfl

/-- The source address lies at bytes 18 to 21. -/
theorem getD_headersWith_source (order : ByteOrder) (sum : UInt16)
    (source dest : UInt32) (flags : UInt8) {index : ℕ} (hindex : index < 4) :
    (headersWith order sum source dest flags).getD (18 + index) 0 =
      nativeByte32 order source index := by
  have hcases : index = 0 ∨ index = 1 ∨ index = 2 ∨ index = 3 := by omega
  rcases hcases with rfl | rfl | rfl | rfl <;> rfl

/-- The source address shows nowhere but in its own field and in the checksum
before it. -/
theorem getD_headersWith_congr (order : ByteOrder)
    (leftSum rightSum : UInt16) (leftSource rightSource dest : UInt32)
    (flags : UInt8) {index : ℕ} (hindex : index < 16 ∨ 22 ≤ index) :
    (headersWith order leftSum leftSource dest flags).getD index 0 =
      (headersWith order rightSum rightSource dest flags).getD index 0 := by
  simp only [getD_headersWith]
  split
  next => rfl
  next hgre =>
    split
    next hip =>
      obtain ⟨offset, rfl⟩ := Nat.exists_eq_add_of_le (Nat.le_of_not_lt hgre)
      have hoffset : offset < 20 := by omega
      rw [Nat.add_sub_cancel_left]
      interval_cases offset <;> first | rfl | omega
    next => rfl

theorem getD_frame_headers (order : ByteOrder) (datagram : Datagram)
    {index : ℕ} (hindex : index < 46) :
    (frame order datagram).getD index 0 =
      (headersWith order (builtSum order datagram.source datagram.dest)
        datagram.source datagram.dest datagram.flags).getD index 0 := by
  rw [frame, List.getD_append _ _ _ _ hindex]

theorem getD_frame_message (order : ByteOrder) (datagram : Datagram)
    (index : ℕ) :
    (frame order datagram).getD (46 + index) 0 =
      datagram.message.chars.getD index 0 := by
  rw [frame, List.getD_append_right _ _ _ _ (by simp), length_headersWith,
    Nat.add_sub_cancel_left]

theorem size_packetEncapsulate (order : ByteOrder) (packet : Block) :
    (packetEncapsulate order packet).value.size = packet.size := by
  simp [packetEncapsulate]

theorem size_setIp (order : ByteOrder) (packet : Block) (ip : ℕ)
    (ipDest ipHost : List UInt8) (ipProtocol payloadSize : UInt8) :
    (setIp order packet ip ipDest ipHost ipProtocol payloadSize).value.size =
      packet.size := by
  simp [setIp]

theorem size_setTcp (order : ByteOrder) (packet : Block) (tcp : ℕ)
    (flags : UInt8) :
    (setTcp order packet tcp flags).value.size = packet.size := by
  simp [setTcp]

theorem size_fillPacket (order : ByteOrder) (newPacket : Block)
    (ipSrc ipDest : List UInt8) (ipProtocol : UInt8) (payload : List UInt8)
    (flags : UInt8) :
    (fillPacket order newPacket ipSrc ipDest ipProtocol payload flags).value.size =
      newPacket.size := by
  simp only [fillPacket, Traced.value_bind, value_store]
  rw [Block.size_set, strncpy, size_storeBytes, size_setTcp, size_setIp,
    size_packetEncapsulate]

/-- A zeroed packet after the three header writers: the headers, followed by
zeros. -/
theorem byte_headers (order : ByteOrder) (newPacket : Block)
    (ipSrc ipDest : List UInt8) (flags : UInt8)
    (hzero : ∀ index < 174, newPacket.byte index = 0)
    {index : ℕ} (hindex : index < 174) :
    (setTcp order (setIp order (packetEncapsulate order newPacket).value
        (getIpHdr 0) ipDest ipSrc ipProtocolTcp
        (UInt8.ofNat maxPayloadSize)).value (getTcpHdr 0) flags).value.byte index =
      if index < 46 then
        (headersWith order (builtSum order (parseIpAddr ipSrc) (parseIpAddr ipDest))
          (parseIpAddr ipSrc) (parseIpAddr ipDest) flags).getD index 0
      else 0 := by
  have hgre : ∀ other, 6 ≤ other → other < 174 →
      (packetEncapsulate order newPacket).value.byte other = 0 := by
    intro other hlow hhigh
    rw [byte_packetEncapsulate, if_neg (by omega), hzero other hhigh]
  have hip : ∀ other, 26 ≤ other → other < 174 →
      (setIp order (packetEncapsulate order newPacket).value (getIpHdr 0) ipDest
        ipSrc ipProtocolTcp (UInt8.ofNat maxPayloadSize)).value.byte other =
        0 := by
    intro other hlow hhigh
    rw [byte_setIp _ _ _ _ fun place hplace _ => hgre place hplace (by omega),
      if_neg (by omega), hgre other (by omega) hhigh]
  rw [byte_setTcp _ _ _ fun place hplace _ => hip place hplace (by omega),
    getD_headersWith]
  by_cases htcp : 26 ≤ index
  · rw [if_neg (show ¬ index < 6 by omega), if_neg (show ¬ index < 26 by omega)]
    by_cases hheader : index < 46
    · rw [if_pos ⟨htcp, hheader⟩, if_pos hheader]
    · rw [if_neg (by omega), if_neg hheader, hip index htcp hindex]
  · rw [if_neg (by omega), if_pos (show index < 46 by omega),
      byte_setIp _ _ _ _ fun place hplace _ => hgre place hplace (by omega),
      byte_packetEncapsulate]
    by_cases hipHeader : 6 ≤ index
    · rw [if_pos (by omega), if_neg (by omega), if_pos (by omega)]
    · rw [if_neg (by omega), if_pos (by omega), if_pos (by omega)]

/-- A length that fits the payload area is neither converted nor clamped away.
-/
theorem offsetBy_clampLength {length : ℕ} (hlength : length ≤ 127) :
    offsetBy 46 (clampLength (toInt32 length)) = 46 + length := by
  rw [toInt32_of_lt (by omega), clampLength, maxPayloadSize, if_neg (by omega),
    offsetBy_natCast (by omega)]

theorem offsetBy_message (message : Message) :
    offsetBy (getPayload 0) (clampLength (toInt32 message.chars.length)) =
      46 + message.chars.length :=
  offsetBy_clampLength message.length_le

/-- The plaintext packet is the frame of its datagram, followed by zeros. -/
theorem byte_fillPacket (order : ByteOrder) (newPacket : Block)
    (ipSrc ipDest : List UInt8) (message : Message) (flags : UInt8)
    (hzero : ∀ index < 174, newPacket.byte index = 0)
    {index : ℕ} (hindex : index < 174) :
    (fillPacket order newPacket ipSrc ipDest ipProtocolTcp message.chars
        flags).value.byte index =
      (frame order ⟨parseIpAddr ipSrc, parseIpAddr ipDest, flags,
        message⟩).getD index 0 := by
  have hlength := message.length_le
  have hsize : toSize (toInt32 message.chars.length) = message.chars.length := by
    rw [toInt32_of_lt (by omega), toSize_natCast (by omega)]
  simp only [fillPacket, strncpy, Traced.value_bind, value_store,
    Block.byte_set, byte_storeBytes, offsetBy_message, hsize]
  rw [show getPayload 0 = 46 from rfl,
    byte_headers order newPacket ipSrc ipDest flags hzero hindex]
  rcases Nat.lt_or_ge index 46 with hheader | hpayload
  · rw [if_neg (by omega), if_neg (by omega), if_pos hheader,
      getD_frame_headers _ _ hheader]
  · obtain ⟨offset, rfl⟩ := Nat.exists_eq_add_of_le hpayload
    rw [getD_frame_message, Nat.add_sub_cancel_left]
    change _ = message.chars.getD offset 0
    by_cases hend : 46 + offset = 46 + message.chars.length
    · rw [if_pos hend, List.getD_eq_default _ _ (by omega)]
    · rw [if_neg hend, if_neg (show ¬ 46 + offset < 46 by omega)]
      by_cases hinside : offset < message.chars.length
      · rw [if_pos (by omega)]
      · rw [if_neg (by omega), List.getD_eq_default _ _ (Nat.le_of_not_lt hinside)]

end SimpleVpn.Frame
