import SimpleVpn.Tunnel.Transit

/-!
# What each hop does

One statement for each stretch of a program between two socket calls.  The
server sends on the packet it deciphered, with one address replaced and without
its GRE header, and puts that header back in front of the response.
-/

namespace SimpleVpn.Hops

open SimpleVpn.TracedMemory SimpleVpn.HostWords SimpleVpn.CStrings
open SimpleVpn.Keystream SimpleVpn.HostInfo SimpleVpn.Protocol SimpleVpn.Packet
open SimpleVpn.Programs SimpleVpn.Frame SimpleVpn.Rewrite SimpleVpn.Transit

section Outward

variable (order : ByteOrder) (heap : Heap) (key : Key) (serverIp : List UInt8)

/-- What the server holds once it rewrote a deciphered packet. -/
def forwardOf (packet : Block) : Forward where
  clientIp := u32 order packet 18
  recPacket := (servHandlePkt order packet serverIp).value.1
  fixedPkt := 6
  destIp := parseIpAddrToStr (u32 order packet 22)

/-- What the server asks a connection for and sends on. -/
theorem forwardOf_eq (packet : Block) :
    { clientIp := (saveClientIp order packet).value
      recPacket := (servHandlePkt order packet serverIp).value.1
      fixedPkt := (servHandlePkt order packet serverIp).value.2
      destIp := parseIpAddrToStr (loadU32 order
        (servHandlePkt order packet serverIp).value.1
        ((servHandlePkt order packet serverIp).value.2 + ipDst)).value } =
      forwardOf order serverIp packet := by
  have hpointer : (servHandlePkt order packet serverIp).value.2 = 6 :=
    pointer_rewriteAddress order packet ipSrc ipDst serverIp
  have hdest : u32 order (servHandlePkt order packet serverIp).value.1
      (6 + ipDst) = u32 order packet 22 :=
    u32_rewriteAddress_other order packet .source serverIp
  rw [hpointer, value_loadU32, saveClientIp, value_loadU32, forwardOf, hdest]
  rfl

/-- With a packet received the server asks for the connection that the packet
names. -/
theorem serverStart_of_received {received : Option (List UInt8)} {packet : Block}
    (hreceived : (servRecFromCli heap key received).value = some packet)
    (clientFd : ℕ) :
    (serverStart order heap key serverIp received (some clientFd)).value =
      .connecting (forwardOf order serverIp packet) := by
  rw [serverStart, Traced.value_bind, hreceived, ← forwardOf_eq]
  rfl

/-- On bytes with a zero in their payload area the server gets as far as the
call of `connect_to_server`. -/
theorem serverStart_of_payloadEnd {delivered : List UInt8} {offset : ℕ}
    (hoffset : offset ≤ 127) (hend : PayloadEnd delivered offset) :
    ∃ packet, Deciphered key delivered offset packet ∧
      (serverStart order heap key serverIp (some delivered) none).value =
        .stopped ∧
      ∀ clientFd, (serverStart order heap key serverIp (some delivered)
        (some clientFd)).value =
          .connecting (forwardOf order serverIp packet) := by
  obtain ⟨packet, hsome, hpacket⟩ :=
    servRecFromCli_some heap key hoffset hend
  refine ⟨packet, hpacket, ?_, fun clientFd =>
    serverStart_of_received order heap key serverIp hsome clientFd⟩
  rw [serverStart, Traced.value_bind, hsome]
  rfl

/-- However much of a request arrives, the server gets as far, and of the headers
it holds key bytes where something is missing. -/
theorem serverStart_of_truncation (clientHeap : Heap) (ipSrc ipDest : List UInt8)
    (message : Message) (flags : UInt8) (count : ℕ) :
    ∃ packet,
      (∀ index < 46, packet.byte index =
        if index < count then
          (headersWith order
            (builtSum order (parseIpAddr ipSrc) (parseIpAddr ipDest))
            (parseIpAddr ipSrc) (parseIpAddr ipDest) flags).getD index 0
        else keystream key index) ∧
      (serverStart order heap key serverIp
        (some ((clientRequest order clientHeap key ipSrc ipDest message.chars
          flags).value.take count)) none).value = .stopped ∧
      ∀ clientFd, (serverStart order heap key serverIp
        (some ((clientRequest order clientHeap key ipSrc ipDest message.chars
          flags).value.take count)) (some clientFd)).value =
          .connecting (forwardOf order serverIp packet) := by
  have hlength := message.length_le
  have hheaders := length_headersWith order
    (builtSum order (parseIpAddr ipSrc) (parseIpAddr ipDest))
    (parseIpAddr ipSrc) (parseIpAddr ipDest) flags
  rw [take_clientRequest]
  obtain ⟨offset, hoffset, -, hend⟩ :=
    exists_payloadEnd_tunnelled key hheaders message count
  obtain ⟨packet, hpacket, hstop, hstart⟩ :=
    serverStart_of_payloadEnd order heap key serverIp (by omega) hend
  refine ⟨packet, fun index hindex => ?_, hstop, hstart⟩
  rw [Deciphered.byte_of_ne hpacket (by omega) (by omega), List.length_append,
    hheaders, List.getD_append _ _ _ _ (by omega)]
  congr 1
  exact propext (by omega)

/-- The server hands over the 168 bytes behind the GRE header. -/
theorem value_serverForward (packet : Block) :
    (serverForward (forwardOf order serverIp packet)).value =
      (servHandlePkt order packet serverIp).value.1.slice 6 168 := by
  have hsize : maxPayloadSize + sizeofTcpHdr + sizeofIpHdr = 168 := rfl
  rw [serverForward, value_loadBytes, hsize, forwardOf]

end Outward

/-- A received packet without GRE header holds the delivered bytes, followed by
zeros. -/
theorem destRecPkt_some (heap : Heap) (delivered : List UInt8) :
    ∃ packet, (destRecPkt heap (some delivered)).value = some packet ∧
      packet.size = 168 ∧
      ∀ index < 168, packet.byte index = delivered.getD index 0 := by
  refine ⟨(recv (calloc (heap 0) 168) 168 delivered).value, rfl, ?_, ?_⟩
  · rw [size_recv, size_calloc]
  · intro index hindex
    exact byte_recv (heap 0) delivered hindex

/-- The response has lost its GRE header.  It may end with bytes from behind
the packet, which no receiver keeps. -/
theorem getD_destinationResponse (order : ByteOrder) (heap : Heap)
    (hostIp clientIpStr : List UInt8) (message : Message) (flags : UInt8)
    {index : ℕ} (hindex : index < 168) :
    (destinationResponse order heap hostIp clientIpStr message.chars
        flags).value.getD index 0 =
      (frame order (builtDatagram hostIp clientIpStr message flags)).getD
        (6 + index) 0 := by
  have hlength : (frame order (builtDatagram hostIp clientIpStr message
      flags)).length = 46 + message.chars.length :=
    length_frame order (builtDatagram hostIp clientIpStr message flags)
  rw [destinationResponse, Traced.value_bind, value_loadBytes,
    toNat_getPacketSize_message, show packetDecapsulate 0 = 6 from rfl]
  by_cases hinside : index < 46 + message.chars.length
  · rw [Block.getD_slice _ _ _ _ hinside, byte_createPacketsDes _ _ _ _ _ _
      (by omega)]
  · rw [List.getD_eq_default _ _ (by rw [Block.length_slice]; omega),
      List.getD_eq_default _ _ (by omega)]

/-- The headers of the response. -/
theorem getD_destinationResponse_headers (order : ByteOrder) (heap : Heap)
    (hostIp clientIpStr : List UInt8) (message : Message) (flags : UInt8)
    {index : ℕ} (hindex : index < 40) :
    (destinationResponse order heap hostIp clientIpStr message.chars
        flags).value.getD index 0 =
      (headersWith order
        (builtSum order (parseIpAddr hostIp) (parseIpAddr clientIpStr))
        (parseIpAddr hostIp) (parseIpAddr clientIpStr) flags).getD
          (6 + index) 0 := by
  rw [getD_destinationResponse _ _ _ _ _ _ (by omega),
    getD_frame_headers _ _ (by omega), builtDatagram]

/-- The response ends with its message. -/
theorem getD_destinationResponse_message (order : ByteOrder) (heap : Heap)
    (hostIp clientIpStr : List UInt8) (message : Message) (flags : UInt8)
    {index : ℕ} (hindex : index < 128) :
    (destinationResponse order heap hostIp clientIpStr message.chars
        flags).value.getD (40 + index) 0 = message.chars.getD index 0 := by
  rw [getD_destinationResponse _ _ _ _ _ _ (by omega), ← Nat.add_assoc,
    getD_frame_message, builtDatagram]

theorem servRecFromDes_some (heap : Heap) (delivered : List UInt8) :
    ∃ packet, (servRecFromDes heap (some delivered)).value = some packet ∧
      packet.size = 174 ∧
      ∀ index < 174, packet.byte index = delivered.getD index 0 := by
  refine ⟨(recv (calloc (heap 0) 174) 174 delivered).value, rfl, ?_, ?_⟩
  · rw [size_recv, size_calloc]
  · intro index hindex
    exact byte_recv (heap 0) delivered hindex

section Wrap

variable (order : ByteOrder) (heap : Heap) (clientIp : UInt32)
variable (recPacketDest : Block)

/-- The response behind its fresh GRE header, before the rewrite. -/
def enclosed : Block :=
  (memcpy (packetEncapsulate order (calloc (heap 0) 174)).value 6 recPacketDest 0
    168).value

theorem size_enclosed : (enclosed order heap recPacketDest).size = 174 := by
  rw [enclosed, size_memcpy, size_packetEncapsulate, size_calloc]

theorem byte_enclosed {index : ℕ} (hindex : index < 174) :
    (enclosed order heap recPacketDest).byte index =
      if index < 6 then (greHeader order).getD index 0
      else recPacketDest.byte (index - 6) := by
  rw [enclosed, byte_memcpy, byte_packetEncapsulate]
  by_cases hgre : index < 6
  · rw [if_neg (by omega), if_pos hgre, if_pos hgre]
  · rw [if_pos (by omega), if_neg hgre, Nat.zero_add]

theorem value_serverWrap :
    (serverWrap order heap clientIp recPacketDest).value =
      (servHandlePktDest order (enclosed order heap recPacketDest)
        (parseIpAddrToStr clientIp)).value.1 := by
  simp only [serverWrap, Traced.value_bind, Traced.value_pure]
  rfl

theorem size_serverWrap :
    (serverWrap order heap clientIp recPacketDest).value.size = 174 := by
  rw [value_serverWrap, servHandlePktDest, size_rewriteAddress _ _ .dest,
    size_enclosed]

/-- The wrapped response: a fresh GRE header, the client as destination, a new
checksum, and otherwise what the destination sent. -/
theorem byte_serverWrap {index : ℕ} (hindex : index < 174) :
    (serverWrap order heap clientIp recPacketDest).value.byte index =
      if 22 ≤ index ∧ index < 26 then
        nativeByte32 order clientIp (index - 22)
      else if 16 ≤ index ∧ index < 18 then
        nativeByte16 order (rewrittenSum order (enclosed order heap
          recPacketDest) ipDst ipSrc clientIp) (index - 16)
      else if index < 6 then (greHeader order).getD index 0
      else recPacketDest.byte (index - 6) := by
  rw [value_serverWrap, servHandlePktDest, byte_rewriteAddress _ _ .dest,
    byte_enclosed _ _ _ hindex, parseIpAddr_parseIpAddrToStr]
  rfl

end Wrap

/-- `serv_cli_encrypt_free` sends the packet enciphered, up to the end of its
payload; the terminator it stores lies past what it sends. -/
theorem value_servCliEncryptFree (heap : Heap) (key : Key) (packet : Block)
    {payloadSize : UInt8} (hsize : payloadSize.toNat < 210) :
    (servCliEncryptFree heap key packet ipProtocolTcp payloadSize).value =
      encipher key (packet.slice 0 (46 + payloadSize.toNat)) := by
  simp only [servCliEncryptFree, Traced.value_bind, value_store,
    value_loadBytes, toNat_getPacketSize hsize]
  apply Block.slice_eq
  · rw [length_encipher, Block.length_slice]
  · intro index hindex
    rw [Block.byte_set, show getPayload 0 = 46 from rfl, Nat.zero_add,
      if_neg (by omega), byte_xorEncryptDecrypt, if_pos hindex,
      getD_encipher key (by rwa [Block.length_slice]),
      Block.getD_slice _ _ _ _ hindex, Nat.zero_add]

/-- The wrapped response ends where the response did. -/
theorem firstZero_serverWrap (order : ByteOrder) (heap : Heap)
    (clientIp : UInt32) {recPacketDest : Block} {offset : ℕ}
    (hoffset : offset ≤ 127) (hend : FirstZero recPacketDest.byte 40 offset) :
    FirstZero (serverWrap order heap clientIp recPacketDest).value.byte 46
      offset := by
  have hpayload : ∀ index < 128,
      (serverWrap order heap clientIp recPacketDest).value.byte (46 + index) =
        recPacketDest.byte (40 + index) := by
    intro index hindex
    rw [byte_serverWrap _ _ _ _ (by omega), if_neg (by omega),
      if_neg (by omega), if_neg (by omega),
      show 46 + index - 6 = 40 + index by omega]
  constructor
  · rw [hpayload offset (by omega)]
    exact hend.zero
  · intro index hindex
    rw [hpayload index (by omega)]
    exact hend.nonzero index hindex

/-- The reply to the client: the wrapped response up to the end of its payload,
enciphered. -/
theorem value_serverReply (order : ByteOrder) (heap : Heap) (key : Key)
    (clientIp : UInt32) (recPacketDest : Block) {offset : ℕ}
    (hoffset : offset ≤ 127) (hend : FirstZero recPacketDest.byte 40 offset) :
    (serverReply order heap key clientIp recPacketDest).value =
      encipher key ((serverWrap order heap clientIp
        recPacketDest).value.slice 0 (46 + offset)) := by
  have hfirst := firstZero_serverWrap order heap clientIp hoffset hend
  have hstrlen := strlen_of_firstZero hfirst (by
    rw [size_serverWrap]
    omega)
  have hsize : (UInt8.ofNat offset).toNat = offset :=
    UInt8.toNat_ofNat_of_lt' (show offset < 256 by omega)
  rw [serverReply, Traced.value_bind, Traced.value_bind,
    show sizeofGreHdr + sizeofIpHdr + sizeofTcpHdr = 46 from rfl, hstrlen,
    value_servCliEncryptFree _ _ _ (by omega), hsize]

end SimpleVpn.Hops
