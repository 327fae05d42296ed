import SimpleVpn.Tunnel.Bounds

/-!
# Building packets from payloads of any length

The length of the payload is converted to an `int`, used for the copy, and
clamped only afterwards.  So a payload that is too long is copied past the end
of its packet, and the packet is built as intended exactly when the length, as
an `int`, is one that the copy and the clamp agree on.
-/

namespace SimpleVpn.Construction

open SimpleVpn.TracedMemory SimpleVpn.HostWords SimpleVpn.CStrings
open SimpleVpn.Keystream SimpleVpn.HostInfo SimpleVpn.Protocol SimpleVpn.Utils
open SimpleVpn.Packet SimpleVpn.Programs SimpleVpn.Frame SimpleVpn.Transit
open SimpleVpn.Bounds

theorem inBounds_setIp (order : ByteOrder) {packet : Block} {ip : ℕ}
    (ipDest ipHost : List UInt8) (ipProtocol payloadSize : UInt8)
    (hsize : ip + 20 ≤ packet.size) :
    (setIp order packet ip ipDest ipHost ipProtocol payloadSize).InBounds := by
  simp only [setIp, ipHlV, ipLen, ipP, ipSrc, ipDst, ipSum, sizeofIpHdr,
    Traced.inBounds_bind, inBounds_load, inBounds_store, inBounds_storeU16,
    inBounds_storeU32, inBounds_cksum, value_store, value_storeU16,
    value_storeU32, Block.size_set, size_setU16, size_setU32]
  refine ⟨?_, ?_, ?_, ?_, ?_, ?_, ?_, fun index hindex => ?_, ?_⟩ <;> omega

theorem inBounds_setTcp (order : ByteOrder) {packet : Block} {tcp : ℕ}
    (flags : UInt8) (hsize : tcp + 20 ≤ packet.size) :
    (setTcp order packet tcp flags).InBounds := by
  simp only [setTcp, tcpSrcPort, tcpDstPort, tcpFlags, tcpSum, sizeofTcpHdr,
    Traced.inBounds_bind, inBounds_store, inBounds_storeU16, inBounds_cksum,
    value_store, value_storeU16, Block.size_set, size_setU16]
  refine ⟨?_, ?_, ?_, fun index hindex => ?_, ?_⟩ <;> omega

/-- The copy stays inside a packet of 174 bytes exactly when the length is at
most 128 as an `int` and as a `size_t`. -/
theorem toSize_toInt32_le_iff (length : ℕ) :
    toSize (toInt32 length) ≤ 128 ↔ length % 2 ^ 32 ≤ 128 := by
  rw [toInt32_eq, toSize]
  split <;> omega

theorem toSize_toInt32_of_le {length : ℕ} (hlength : length % 2 ^ 32 ≤ 128) :
    toSize (toInt32 length) = length % 2 ^ 32 := by
  rw [toInt32_eq, if_pos (by omega), toSize_natCast (by omega)]

theorem offsetBy_clampLength_of_le {length : ℕ}
    (hlength : length % 2 ^ 32 ≤ 128) :
    offsetBy 46 (clampLength (toInt32 length)) =
      46 + min (length % 2 ^ 32) 127 := by
  rw [toInt32_eq, if_pos (by omega), clampLength, maxPayloadSize]
  split
  next hlong =>
    rw [Nat.min_eq_right (by omega)]
    rfl
  next hshort =>
    rw [offsetBy_natCast (by omega), Nat.min_eq_left (by omega)]

section Fill

variable (order : ByteOrder) (ipSrc ipDest : List UInt8) (payload : List UInt8)
variable (flags : UInt8)

/-- Filling a packet stays inside it exactly when the copy of the payload does.
-/
theorem inBounds_fillPacket {newPacket : Block} (hsize : newPacket.size = 174) :
    (fillPacket order newPacket ipSrc ipDest ipProtocolTcp payload
        flags).InBounds ↔ payload.length % 2 ^ 32 ≤ 128 := by
  have hcopy : (∀ index < toSize (toInt32 payload.length), 46 + index < 174) ↔
      payload.length % 2 ^ 32 ≤ 128 := by
    rw [← toSize_toInt32_le_iff]
    constructor
    · intro hall
      by_contra hlong
      have hlast := hall 128 (by omega)
      omega
    · intro hle index hindex
      omega
  rw [fillPacket]
  simp only [Traced.inBounds_bind, strncpy, inBounds_storeBytes, inBounds_store,
    size_storeBytes, size_setTcp, size_setIp, size_packetEncapsulate, hsize,
    show getPayload 0 = 46 from rfl, show getIpHdr 0 = 6 from rfl,
    show getTcpHdr 0 = 26 from rfl, hcopy]
  constructor
  · rintro ⟨-, -, -, hlength, -⟩
    exact hlength
  · intro hlength
    refine ⟨inBounds_packetEncapsulate order (by omega),
      inBounds_setIp order _ _ _ _ ?_, inBounds_setTcp order _ ?_, hlength, ?_⟩
    · rw [size_packetEncapsulate]
      omega
    · rw [size_setIp, size_packetEncapsulate]
      omega
    · rw [offsetBy_clampLength_of_le hlength]
      omega

variable (heap : Heap) (key : Key)

theorem inBounds_createPacketsDes :
    (createPacketsDes order heap ipSrc ipDest ipProtocolTcp payload
        flags).InBounds ↔ payload.length % 2 ^ 32 ≤ 128 := by
  rw [createPacketsDes, toNat_getPacketSize_max]
  exact inBounds_fillPacket order ipSrc ipDest payload flags (size_calloc _ 174)

theorem inBounds_createPackets :
    (createPackets order heap key ipSrc ipDest ipProtocolTcp payload
        flags).InBounds ↔ payload.length % 2 ^ 32 ≤ 128 := by
  have hfill := inBounds_fillPacket order ipSrc ipDest payload flags
    (size_calloc (heap 0) 174)
  rw [createPackets]
  simp only [toNat_getPacketSize_max, Traced.inBounds_bind, inBounds_store,
    inBounds_xorEncryptDecrypt, size_xorEncryptDecrypt, size_fillPacket,
    size_calloc, hfill]
  refine and_iff_left_of_imp fun hlength =>
    ⟨fun index hindex => ⟨hindex, hindex⟩, ?_⟩
  rw [show getPayload 0 = 46 from rfl, offsetBy_clampLength_of_le hlength]
  omega

/-- The payload area of the plaintext packet, as long as the copy stays inside.
-/
theorem byte_createPacketsDes_payload
    (hlength : payload.length % 2 ^ 32 ≤ 128) {index : ℕ} (hindex : index < 128) :
    (createPacketsDes order heap ipSrc ipDest ipProtocolTcp payload
        flags).value.byte (46 + index) =
      if index = min (payload.length % 2 ^ 32) 127 then 0
      else if index < payload.length % 2 ^ 32 then payload.getD index 0
      else 0 := by
  rw [createPacketsDes, toNat_getPacketSize_max]
  simp only [fillPacket, strncpy, Traced.value_bind, value_store,
    Block.byte_set, byte_storeBytes, show getPayload 0 = 46 from rfl,
    offsetBy_clampLength_of_le hlength, toSize_toInt32_of_le hlength]
  rw [byte_headers order _ ipSrc ipDest flags
    (fun _ hother => byte_calloc _ hother) (by omega),
    if_neg (show ¬ 46 + index < 46 by omega), Nat.add_sub_cancel_left]
  simp only [Nat.add_right_inj, Nat.add_lt_add_iff_left, Nat.le_add_right,
    true_and]

end Fill

/-- The payload area holds the first 127 bytes of the payload, followed by a
terminator. -/
def HoldsPayload (packet : Block) (payload : List UInt8) : Prop :=
  packet.slice (getPayload 0) (min payload.length (maxPayloadSize - 1)) =
      payload.take (maxPayloadSize - 1) ∧
    packet.byte (getPayload 0 + min payload.length (maxPayloadSize - 1)) = 0

/-- The copy and the clamp agree on the length. -/
def PayloadFits (length : ℕ) : Prop :=
  length ≤ 128 ∨ length % 2 ^ 32 = 127 ∨ length % 2 ^ 32 = 128

instance (length : ℕ) : Decidable (PayloadFits length) :=
  inferInstanceAs (Decidable (_ ∨ _))

theorem payloadFits_iff (length : ℕ) :
    PayloadFits length ↔ length % 2 ^ 32 ≤ 128 ∧
      min (length % 2 ^ 32) 127 = min length 127 := by
  rw [PayloadFits]
  omega

section Payload

variable (order : ByteOrder) (heap : Heap) (key : Key)
variable (ipSrc ipDest : List UInt8) (payload : CString) (flags : UInt8)

/-- With the copy inside the packet, the payload area is as intended exactly
when the terminator stands where the clamp of the true length puts it. -/
theorem holdsPayload_iff (hlength : payload.chars.length % 2 ^ 32 ≤ 128) :
    HoldsPayload (createPacketsDes order heap ipSrc ipDest ipProtocolTcp
        payload.chars flags).value payload.chars ↔
      min (payload.chars.length % 2 ^ 32) 127 = min payload.chars.length 127 := by
  have hbyte : ∀ index < 128, (createPacketsDes order heap ipSrc ipDest
      ipProtocolTcp payload.chars flags).value.byte (46 + index) = _ :=
    fun _ => byte_createPacketsDes_payload order ipSrc ipDest payload.chars flags
      heap hlength
  generalize (createPacketsDes order heap ipSrc ipDest ipProtocolTcp payload.chars
    flags).value = packet at *
  rw [HoldsPayload, show getPayload 0 = 46 from rfl,
    show maxPayloadSize - 1 = 127 from rfl]
  constructor
  · rintro ⟨hslice, -⟩
    by_contra hne
    -- the terminator stands inside the part that should be copied
    have hentry := Block.getD_slice packet 46 (min payload.chars.length 127)
      (payload.chars.length % 2 ^ 32) (by omega)
    rw [hslice, getD_take, if_pos (by omega), hbyte _ (by omega),
      if_pos (by omega)] at hentry
    exact payload.getD_ne_zero (by omega) hentry
  · intro hmin
    constructor
    · apply Block.slice_eq
      · rw [List.length_take, Nat.min_comm]
      · intro index hindex
        rw [hbyte index (by omega), if_neg (by omega), if_pos (by omega), getD_take,
          if_pos (by omega)]
    · rw [hbyte _ (by omega), if_pos hmin.symm]

/-- Both functions stay inside their packets, and the plaintext that both build
holds the payload, exactly when the copy and the clamp agree on the length. -/
theorem createPackets_safe_iff :
    ((createPackets order heap key ipSrc ipDest ipProtocolTcp payload.chars
        flags).InBounds ∧
      (createPacketsDes order heap ipSrc ipDest ipProtocolTcp payload.chars
        flags).InBounds ∧
      HoldsPayload (createPacketsDes order heap ipSrc ipDest ipProtocolTcp
        payload.chars flags).value payload.chars) ↔
      PayloadFits payload.chars.length := by
  rw [inBounds_createPackets, inBounds_createPacketsDes, payloadFits_iff]
  constructor
  · rintro ⟨hlength, -, hholds⟩
    exact ⟨hlength, (holdsPayload_iff order heap ipSrc ipDest payload flags
      hlength).mp hholds⟩
  · rintro ⟨hlength, hmin⟩
    exact ⟨hlength, hlength, (holdsPayload_iff order heap ipSrc ipDest payload
      flags hlength).mpr hmin⟩

end Payload

/-- A payload one character too long leaves the packet. -/
theorem createPackets_unsafe :
    ¬ (createPackets .little .zeros key h1.text h3.text ipProtocolTcp
      (List.replicate 129 65) tcpFlagSyn).InBounds := by
  rw [inBounds_createPackets, List.length_replicate]
  decide

/-- The range handed to `send` lies inside its buffer of 174 bytes, its last
byte is the one at `last`, and it holds `bytes`. -/
structure SendsExactly (run : Traced (List UInt8)) (last : ℕ)
    (bytes : List UInt8) : Prop where
  inBounds : run.InBounds
  ends : run.trace.getLast? = some ⟨174, last⟩
  carries : run.value = bytes

section Send

variable (order : ByteOrder) (heap : Heap) (key : Key)
variable (ipSrc ipDest : List UInt8) (message : Message) (flags : UInt8)

theorem length_mod_le_of_message : message.chars.length % 2 ^ 32 ≤ 128 := by
  have hlength := message.length_le
  omega

/-- The client sends its three headers and the payload. -/
theorem clientRequest_sendsExactly :
    SendsExactly
      (clientRequest order heap key ipSrc ipDest message.chars flags)
      (45 + message.chars.length)
      (encipher key (frame order (builtDatagram ipSrc ipDest message flags))) := by
  have hlength := message.length_le
  have hcount : (getPacketSize ipProtocolTcp
      (UInt8.ofNat message.chars.length)).toNat =
        45 + message.chars.length + 1 := by
    rw [toNat_getPacketSize_message]
    omega
  refine ⟨?_, ?_, value_clientRequest order heap key ipSrc ipDest message flags⟩
  · rw [clientRequest, Traced.inBounds_bind, inBounds_createPackets,
      sendAndFreePacketVpn, inBounds_loadBytes, size_createPackets, hcount]
    exact ⟨length_mod_le_of_message message, fun index hindex => by omega⟩
  · simp only [clientRequest, sendAndFreePacketVpn, hcount,
      getLast?_trace_bind_loadBytes, size_createPackets, Nat.zero_add]

/-- The range of the destination starts behind the GRE header and is as long as
if it did not. -/
theorem destinationResponse_eq_bind :
    destinationResponse order heap ipSrc ipDest message.chars flags =
      createPacketsDes order heap ipSrc ipDest ipProtocolTcp message.chars flags
        >>= fun responsePkt =>
          loadBytes responsePkt 6 (45 + message.chars.length + 1) := by
  rw [destinationResponse, toNat_getPacketSize_message,
    show 46 + message.chars.length = 45 + message.chars.length + 1 by omega]
  rfl

/-- It ends six bytes after the payload. -/
theorem getLast?_trace_destinationResponse :
    (destinationResponse order heap ipSrc ipDest message.chars
      flags).trace.getLast? = some ⟨174, 51 + message.chars.length⟩ := by
  rw [destinationResponse_eq_bind, getLast?_trace_bind_loadBytes,
    size_createPacketsDes, ← Nat.add_assoc]

theorem inBounds_destinationResponse_iff :
    (destinationResponse order heap ipSrc ipDest message.chars
      flags).InBounds ↔ message.chars.length ≤ 122 := by
  have hbuilt := (inBounds_createPacketsDes order ipSrc ipDest message.chars flags
    heap).mpr (length_mod_le_of_message message)
  rw [destinationResponse_eq_bind, Traced.inBounds_bind, inBounds_loadBytes,
    size_createPacketsDes, and_iff_right hbuilt]
  constructor
  · intro hall
    have hlast := hall (45 + message.chars.length) (Nat.lt_succ_self _)
    omega
  · intro hshort index hindex
    omega

/-- After the headers and the payload come the six bytes that lie behind them.
-/
theorem value_destinationResponse :
    (destinationResponse order heap ipSrc ipDest message.chars flags).value =
      (frame order (builtDatagram ipSrc ipDest message flags)).drop 6 ++
        (createPacketsDes order heap ipSrc ipDest ipProtocolTcp message.chars
          flags).value.slice (46 + message.chars.length) 6 := by
  have hlength := message.length_le
  rw [destinationResponse_eq_bind, Traced.value_bind, value_loadBytes,
    show 45 + message.chars.length + 1 = 40 + message.chars.length + 6 by omega,
    Block.slice_add]
  congr 1
  · apply Block.slice_eq
    · rw [List.length_drop, length_frame]
      change 46 + message.chars.length - 6 = _
      omega
    · intro index hindex
      rw [byte_createPacketsDes _ _ _ _ _ _ (by omega),
        List.getD_eq_getElem?_getD, List.getD_eq_getElem?_getD, List.getElem?_drop]
  · congr 1
    omega

theorem destinationResponse_not_sendsExactly (bytes : List UInt8) :
    ¬ SendsExactly
      (destinationResponse order heap ipSrc ipDest message.chars flags)
      (45 + message.chars.length) bytes := by
  intro hsends
  have hends := hsends.ends
  rw [getLast?_trace_destinationResponse, Option.some.injEq,
    Access.mk.injEq] at hends
  omega

/-- The client hands over its headers and the payload.  The destination always
hands over six bytes more, which lie inside the packet as long as the payload
has at most 122 bytes. -/
theorem transmitRanges :
    SendsExactly
      (clientRequest order heap key ipSrc ipDest message.chars flags)
      (45 + message.chars.length)
      (encipher key (frame order (builtDatagram ipSrc ipDest message flags))) ∧
    ¬ SendsExactly
      (destinationResponse order heap ipSrc ipDest message.chars flags)
      (45 + message.chars.length)
      ((frame order (builtDatagram ipSrc ipDest message flags)).drop 6) ∧
    (destinationResponse order heap ipSrc ipDest message.chars
      flags).trace.getLast? = some ⟨174, 51 + message.chars.length⟩ ∧
    ((destinationResponse order heap ipSrc ipDest message.chars
      flags).InBounds ↔ message.chars.length ≤ 122) ∧
    ∃ surplus : List UInt8, surplus.length = 6 ∧
      (destinationResponse order heap ipSrc ipDest message.chars flags).value =
        (frame order (builtDatagram ipSrc ipDest message flags)).drop 6 ++
          surplus := by
  refine ⟨clientRequest_sendsExactly order heap key ipSrc ipDest message flags,
    destinationResponse_not_sendsExactly order heap ipSrc ipDest message flags _,
    getLast?_trace_destinationResponse order heap ipSrc ipDest message flags,
    inBounds_destinationResponse_iff order heap ipSrc ipDest message flags,
    _, ?_, value_destinationResponse order heap ipSrc ipDest message flags⟩
  rw [Block.length_slice]

end Send

/-- The response of `destination.c` ends six bytes late. -/
theorem destinationResponse_hosts :
    ¬ SendsExactly
      (destinationResponse .little .zeros h3.text h2.text responseMsg.chars
        tcpFlagAck) (45 + responseMsg.chars.length)
      ((frame .little (builtDatagram h3.text h2.text responseMsg
        tcpFlagAck)).drop 6) :=
  destinationResponse_not_sendsExactly .little .zeros h3.text h2.text responseMsg
    tcpFlagAck _

end SimpleVpn.Construction
