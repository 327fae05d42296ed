import SimpleVpn.Tunnel.Rewrite

/-!
# Enciphering and receiving

What the client puts on the wire is its frame XORed with the key.  The receiver
finds the end of the payload in the bytes as they arrive, before it deciphers
them: at the first zero byte, which is a byte that never arrived or one whose
plaintext equals the key byte at its position.
-/

namespace SimpleVpn.Transit

open SimpleVpn.TracedMemory SimpleVpn.HostWords SimpleVpn.CStrings
open SimpleVpn.Keystream SimpleVpn.HostInfo SimpleVpn.Protocol SimpleVpn.Utils
open SimpleVpn.Packet SimpleVpn.Programs SimpleVpn.Frame SimpleVpn.Rewrite

section Cipher

variable (key : Key) (input output : Block) (length : ℕ)

theorem fillsFrom_xorEncryptDecrypt :
    FillsFrom 0 (fun index => input.byte index ^^^ keystream key index)
      (fun index current => do
        let byte ← load input index
        store current index (byte ^^^ keystream key index)) := by
  intro index current
  rw [Nat.zero_add]
  rfl

theorem size_xorEncryptDecrypt :
    (xorEncryptDecrypt key input output length).value.size = output.size :=
  (fillsFrom_xorEncryptDecrypt key input).size_forRange output length

theorem byte_xorEncryptDecrypt (index : ℕ) :
    (xorEncryptDecrypt key input output length).value.byte index =
      if index < length then input.byte index ^^^ keystream key index
      else output.byte index := by
  rw [xorEncryptDecrypt,
    (fillsFrom_xorEncryptDecrypt key input).byte_forRange output length index,
    Nat.zero_add, Nat.sub_zero]
  simp only [Nat.zero_le, true_and]

theorem inBounds_xorEncryptDecrypt :
    (xorEncryptDecrypt key input output length).InBounds ↔
      ∀ index < length, index < input.size ∧ index < output.size := by
  apply (fillsFrom_xorEncryptDecrypt key input).inBounds_forRange
  intro index current hsize
  rw [Traced.inBounds_bind, inBounds_load, inBounds_store, hsize]

end Cipher

theorem toNat_getPacketSize {payloadSize : UInt8}
    (hsize : payloadSize.toNat < 210) :
    (getPacketSize ipProtocolTcp payloadSize).toNat =
      46 + payloadSize.toNat := by
  rw [getPacketSize, if_pos rfl, UInt8.toNat_ofNat', sizeofTcpHdr, sizeofGreHdr,
    sizeofIpHdr]
  omega

/-- The buffers of a packet under construction have 174 bytes. -/
theorem toNat_getPacketSize_max :
    (getPacketSize ipProtocolTcp (UInt8.ofNat maxPayloadSize)).toNat = 174 := by
  decide

theorem toNat_getPacketSize_message (message : Message) :
    (getPacketSize ipProtocolTcp (UInt8.ofNat message.chars.length)).toNat =
      46 + message.chars.length := by
  have hlength := message.length_le
  have hsize : (UInt8.ofNat message.chars.length).toNat =
      message.chars.length := by
    rw [UInt8.toNat_ofNat']
    omega
  rw [toNat_getPacketSize (by omega), hsize]

section Building

variable (order : ByteOrder) (heap : Heap) (key : Key)
variable (ipSrc ipDest : List UInt8) (message : Message) (flags : UInt8)

/-- The datagram described by the arguments of `create_packets`. -/
def builtDatagram : Datagram :=
  ⟨parseIpAddr ipSrc, parseIpAddr ipDest, flags, message⟩

theorem size_createPacketsDes (payload : List UInt8) :
    (createPacketsDes order heap ipSrc ipDest ipProtocolTcp payload
        flags).value.size = 174 := by
  rw [createPacketsDes, size_fillPacket, size_calloc, toNat_getPacketSize_max]

theorem size_createPackets (payload : List UInt8) :
    (createPackets order heap key ipSrc ipDest ipProtocolTcp payload
        flags).value.size = 174 := by
  rw [createPackets, Traced.value_bind, Traced.value_bind, value_store,
    Block.size_set, size_xorEncryptDecrypt, size_calloc, toNat_getPacketSize_max]

theorem byte_createPacketsDes {index : ℕ} (hindex : index < 174) :
    (createPacketsDes order heap ipSrc ipDest ipProtocolTcp message.chars
        flags).value.byte index =
      (frame order (builtDatagram ipSrc ipDest message flags)).getD index 0 := by
  rw [createPacketsDes, toNat_getPacketSize_max]
  exact byte_fillPacket order _ ipSrc ipDest message flags
    (fun _ hother => byte_calloc _ hother) hindex

/-- `create_packets` builds the packet of `create_packets_des` and enciphers it,
apart from the terminator. -/
theorem byte_createPackets_of_plain (payload : List UInt8) {index : ℕ}
    (hindex : index < 174) :
    (createPackets order heap key ipSrc ipDest ipProtocolTcp payload
        flags).value.byte index =
      if index = offsetBy (getPayload 0) (clampLength (toInt32 payload.length))
      then 0
      else (createPacketsDes order heap ipSrc ipDest ipProtocolTcp payload
        flags).value.byte index ^^^ keystream key index := by
  simp only [createPackets, createPacketsDes, toNat_getPacketSize_max,
    Traced.value_bind, value_store, Block.byte_set, byte_xorEncryptDecrypt,
    if_pos hindex]

theorem byte_createPackets {index : ℕ} (hindex : index < 174) :
    (createPackets order heap key ipSrc ipDest ipProtocolTcp message.chars
        flags).value.byte index =
      if index = 46 + message.chars.length then 0
      else (frame order (builtDatagram ipSrc ipDest message flags)).getD index 0
        ^^^ keystream key index := by
  rw [byte_createPackets_of_plain _ _ _ _ _ _ _ hindex, offsetBy_message,
    byte_createPacketsDes _ _ _ _ _ _ hindex]

/-- The client hands over its frame, enciphered, and nothing after the last
byte of the payload. -/
theorem value_clientRequest :
    (clientRequest order heap key ipSrc ipDest message.chars flags).value =
      encipher key (frame order (builtDatagram ipSrc ipDest message flags)) := by
  have hlength := message.length_le
  rw [clientRequest, Traced.value_bind, sendAndFreePacketVpn, value_loadBytes,
    toNat_getPacketSize_message]
  apply Block.slice_eq
  · rw [length_encipher, length_frame]
    rfl
  · intro index hindex
    rw [Nat.zero_add, byte_createPackets _ _ _ _ _ _ _ (by omega),
      if_neg (by omega), getD_encipher key (by
        rw [length_frame]
        exact hindex)]

end Building

theorem size_recv (buffer : Block) (size : ℕ) (delivered : List UInt8) :
    (recv buffer size delivered).value.size = buffer.size :=
  size_storeBytes buffer 0 delivered _

/-- A zeroed buffer holds the delivered bytes, followed by zeros. -/
theorem byte_recv (around : Surroundings) {size index : ℕ}
    (delivered : List UInt8) (hindex : index < size) :
    (recv (calloc around size) size delivered).value.byte index =
      delivered.getD index 0 := by
  rw [recv, byte_storeBytes]
  by_cases hinside : index < delivered.length
  · rw [if_pos (by omega), Nat.sub_zero]
  · rw [if_neg (by omega), byte_calloc around hindex,
      List.getD_eq_default _ _ (Nat.le_of_not_lt hinside)]

/-- The receiver's `strlen`: the first zero byte among the delivered payload
bytes, counted from the start of the payload. -/
def PayloadEnd (delivered : List UInt8) (offset : ℕ) : Prop :=
  FirstZero (fun index => delivered.getD index 0) 46 offset

theorem exists_payloadEnd {delivered : List UInt8} {offset : ℕ}
    (hzero : delivered.getD (46 + offset) 0 = 0) :
    ∃ first ≤ offset, PayloadEnd delivered first := exists_firstZero hzero

/-- The received buffer deciphered, with its payload ended at `offset`. -/
structure Deciphered (key : Key) (delivered : List UInt8) (offset : ℕ)
    (packet : Block) : Prop where
  size_eq : packet.size = 174
  byte_eq : ∀ index < 174, packet.byte index =
    if index = 46 + offset then 0
    else delivered.getD index 0 ^^^ keystream key index

/-- The scan of the receive buffer finds the end of the payload. -/
theorem strlen_recv_of_payloadEnd (around : Surroundings)
    {delivered : List UInt8} {offset : ℕ} (hoffset : offset ≤ 127)
    (hend : PayloadEnd delivered offset) :
    (strlen (recv (calloc around 174) 174 delivered).value 46).value =
      offset := by
  apply strlen_of_firstZero
  · constructor
    · rw [byte_recv _ _ (by omega)]
      exact hend.zero
    · intro index hindex
      rw [byte_recv _ _ (by omega)]
      exact hend.nonzero index hindex
  · rw [size_recv, size_calloc]
    omega

/-- `serv_rec_from_cli` on bytes with a zero in their payload area. -/
theorem servRecFromCli_some (heap : Heap) (key : Key) {delivered : List UInt8}
    {offset : ℕ} (hoffset : offset ≤ 127) (hend : PayloadEnd delivered offset) :
    ∃ packet, (servRecFromCli heap key (some delivered)).value = some packet ∧
      Deciphered key delivered offset packet := by
  have hsize : encapsulatedSize = 174 := rfl
  have hpayload : getPayload 0 = 46 := rfl
  have hstrlen := strlen_recv_of_payloadEnd (heap 0) hoffset hend
  have hclamp := offsetBy_clampLength hoffset
  rw [servRecFromCli, hsize, hpayload]
  simp only [Traced.value_bind, Traced.value_pure, value_store, hstrlen, hclamp]
  refine ⟨_, rfl, ?_, ?_⟩
  · rw [Block.size_set, size_xorEncryptDecrypt, size_calloc]
  · intro index hindex
    rw [Block.byte_set, byte_xorEncryptDecrypt, if_pos hindex,
      byte_recv _ _ hindex]

/-- Apart from the terminator, a deciphered byte is the plain byte if it arrived
and the key byte at its place otherwise. -/
theorem Deciphered.byte_of_ne {key : Key} {plain : List UInt8}
    {count offset : ℕ} {packet : Block}
    (hpacket : Deciphered key ((encipher key plain).take count) offset packet)
    {index : ℕ} (hindex : index < 174) (hne : index ≠ 46 + offset) :
    packet.byte index =
      if index < count ∧ index < plain.length then plain.getD index 0
      else keystream key index := by
  rw [hpacket.byte_eq index hindex, if_neg hne, getD_take_encipher]
  split
  next => rw [xor_keystream_cancel]
  next => rw [UInt8.zero_xor]

/-- The first `count` bytes of enciphered headers and message. -/
def tunnelled (key : Key) (headers : List UInt8) (message : Message)
    (count : ℕ) : List UInt8 :=
  (encipher key (headers ++ message.chars)).take count

/-- No character of the message equals the key byte at its position. -/
def KeyFree (key : Key) (message : Message) : Prop :=
  ∀ index < message.chars.length,
    message.chars.getD index 0 ≠ keystream key (46 + index)

instance (key : Key) (message : Message) : Decidable (KeyFree key message) :=
  inferInstanceAs (Decidable (∀ index < message.chars.length,
    message.chars.getD index 0 ≠ keystream key (46 + index)))

section Tunnelled

variable (key : Key) {headers : List UInt8} (hheaders : headers.length = 46)
variable (message : Message) (count : ℕ)

include hheaders

theorem getD_tunnelled_headers {index : ℕ} (hindex : index < 46) :
    (tunnelled key headers message count).getD index 0 =
      if index < count then headers.getD index 0 ^^^ keystream key index
      else 0 := by
  rw [tunnelled, getD_take_encipher, List.length_append,
    List.getD_append _ _ _ _ (by omega)]
  by_cases hcount : index < count
  · rw [if_pos (by omega), if_pos hcount]
  · rw [if_neg (by omega), if_neg hcount]

theorem getD_tunnelled_message (index : ℕ) :
    (tunnelled key headers message count).getD (46 + index) 0 =
      if 46 + index < count ∧ index < message.chars.length then
        message.chars.getD index 0 ^^^ keystream key (46 + index)
      else 0 := by
  rw [tunnelled, getD_take_encipher, List.length_append,
    List.getD_append_right _ _ _ _ (by omega), hheaders,
    Nat.add_sub_cancel_left]
  congr 1
  exact propext (by omega)

/-- The receiver finds an end of the payload, no later than the message and the
delivered bytes go. -/
theorem exists_payloadEnd_tunnelled :
    ∃ offset ≤ message.chars.length, offset ≤ count - 46 ∧
      PayloadEnd (tunnelled key headers message count) offset := by
  have hzero : (tunnelled key headers message count).getD
      (46 + min message.chars.length (count - 46)) 0 = 0 := by
    rw [getD_tunnelled_message key hheaders, if_neg (by omega)]
  obtain ⟨offset, hle, hend⟩ := exists_payloadEnd hzero
  exact ⟨offset, by omega, by omega, hend⟩

/-- Before the end of the payload every byte arrived and is not zero. -/
theorem arrived_of_payloadEnd {offset index : ℕ}
    (hend : PayloadEnd (tunnelled key headers message count) offset)
    (hindex : index < offset) :
    46 + index < count ∧ index < message.chars.length := by
  by_contra hmissing
  apply hend.nonzero index hindex
  rw [getD_tunnelled_message key hheaders, if_neg hmissing]

/-- The string in the deciphered packet is the message up to the end that the
receiver found. -/
theorem stringAt_tunnelled {offset : ℕ} {packet : Block}
    (hoffset : offset ≤ message.chars.length)
    (hend : PayloadEnd (tunnelled key headers message count) offset)
    (hpacket : Deciphered key (tunnelled key headers message count) offset
      packet) :
    stringAt packet 46 = message.chars.take offset := by
  have hlength := message.length_le
  apply stringAt_of_begins message.nulFree hoffset
  · intro index hindex
    have harrived := arrived_of_payloadEnd key hheaders message count hend hindex
    rw [Deciphered.byte_of_ne hpacket (by omega) (by omega), if_pos (by
      rw [List.length_append]
      omega), List.getD_append_right _ _ _ _ (by omega), hheaders,
      Nat.add_sub_cancel_left]
  · rw [hpacket.byte_eq _ (by omega), if_pos rfl]
  · rw [hpacket.size_eq]
    omega

/-- With the whole message delivered, its end is found where it is exactly when
no character meets its key byte. -/
theorem payloadEnd_eq_length_iff {offset : ℕ}
    (hcount : 46 + message.chars.length ≤ count)
    (hoffset : offset ≤ message.chars.length)
    (hend : PayloadEnd (tunnelled key headers message count) offset) :
    offset = message.chars.length ↔ KeyFree key message := by
  constructor
  · rintro rfl index hindex heq
    apply hend.nonzero index hindex
    rw [getD_tunnelled_message key hheaders, if_pos (by omega), heq,
      UInt8.xor_self]
  · intro hfree
    have hlast : PayloadEnd (tunnelled key headers message count)
        message.chars.length := by
      constructor
      · rw [getD_tunnelled_message key hheaders, if_neg (by omega)]
      · intro index hindex heq
        rw [getD_tunnelled_message key hheaders, if_pos (by omega),
          UInt8.xor_eq_zero_iff] at heq
        exact hfree index hindex heq
    exact hend.unique hlast

end Tunnelled

/-- The string is the whole message exactly when the end was found where it is.
-/
theorem take_eq_self_iff (message : Message) {offset : ℕ}
    (hoffset : offset ≤ message.chars.length) :
    message.chars.take offset = message.chars ↔
      offset = message.chars.length := by
  rw [List.take_eq_self_iff]
  omega

/-- The request is the frame of a datagram in the tunnel. -/
theorem take_clientRequest (order : ByteOrder) (heap : Heap) (key : Key)
    (ipSrc ipDest : List UInt8) (message : Message) (flags : UInt8)
    (count : ℕ) :
    (clientRequest order heap key ipSrc ipDest message.chars flags).value.take
        count =
      tunnelled key (headersWith order
        (builtSum order (parseIpAddr ipSrc) (parseIpAddr ipDest))
        (parseIpAddr ipSrc) (parseIpAddr ipDest) flags) message count := by
  rw [value_clientRequest]
  rfl

/-- The whole request, as a message in the tunnel. -/
theorem clientRequest_eq_tunnelled (order : ByteOrder) (heap : Heap) (key : Key)
    (ipSrc ipDest : List UInt8) (message : Message) (flags : UInt8) :
    (clientRequest order heap key ipSrc ipDest message.chars flags).value =
      tunnelled key (headersWith order
        (builtSum order (parseIpAddr ipSrc) (parseIpAddr ipDest))
        (parseIpAddr ipSrc) (parseIpAddr ipDest) flags) message
        (46 + message.chars.length) := by
  rw [← take_clientRequest order heap, value_clientRequest, List.take_of_length_le]
  rw [length_encipher, length_frame]
  rfl

end SimpleVpn.Transit
