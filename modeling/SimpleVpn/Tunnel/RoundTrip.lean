import SimpleVpn.Tunnel.Hops

/-!
# What arrives of a message

A receiver shows the message up to the first byte that did not arrive or that
equals the key byte at its position.  So whatever it shows is a prefix of the
message, and a message that arrives in full is shown in full exactly when it
meets the key nowhere.  This holds in both directions of the tunnel.
-/

namespace SimpleVpn.RoundTrip

open SimpleVpn.TracedMemory SimpleVpn.HostWords SimpleVpn.CStrings
open SimpleVpn.Keystream SimpleVpn.HostInfo SimpleVpn.Protocol SimpleVpn.Packet
open SimpleVpn.Programs SimpleVpn.Frame SimpleVpn.Rewrite SimpleVpn.Transit
open SimpleVpn.Hops

section Truncation

variable (order : ByteOrder) (senderHeap receiverHeap : Heap) (key : Key)
variable (client dest : DottedQuad) (message : Message) (flags : UInt8)

/-- Whatever part of a request arrives, the receiver shows a prefix of the
message, and no more of it than arrived. -/
theorem stringAt_isPrefix_of_truncation (count : ℕ) :
    ∃ packet, (servRecFromCli receiverHeap key
        (some ((clientRequest order senderHeap key client.text dest.text
          message.chars flags).value.take count))).value = some packet ∧
      stringAt packet 46 <+: message.chars ∧
      (stringAt packet 46).length ≤ count - 46 := by
  have hlength := message.length_le
  rw [take_clientRequest]
  obtain ⟨offset, hoffset, harrived, hend⟩ :=
    exists_payloadEnd_tunnelled key (length_headersWith order _ _ _ flags)
      message count
  obtain ⟨packet, hsome, hpacket⟩ :=
    servRecFromCli_some receiverHeap key (by omega) hend
  refine ⟨packet, hsome, ?_⟩
  rw [stringAt_tunnelled key (length_headersWith order _ _ _ flags) message
    count hoffset hend hpacket]
  refine ⟨List.take_prefix offset message.chars, ?_⟩
  rw [List.length_take]
  omega

end Truncation

/-- The payload that the destination shows for a request, every byte of which
is delivered on both hops. -/
def payloadAtDestination (order : ByteOrder)
    (clientHeap serverHeap destHeap : Heap) (key : Key)
    (clientIp serverIp destIp payload : List UInt8) (flags : UInt8)
    (clientFd : ℕ) : Option (List UInt8) := do
  let request :=
    (clientRequest order clientHeap key clientIp destIp payload flags).value
  let forward ← connected (serverStart order serverHeap key serverIp
    (some request) (some clientFd)).value
  let packet ← (destRecPkt destHeap (some (serverForward forward).value)).value
  pure (stringAt packet (sizeofIpHdr + sizeofTcpHdr))

/-- The payload area passes the server as it was deciphered. -/
theorem stringAt_forwarded (order : ByteOrder) (serverIp : List UInt8)
    {packet destPacket : Block} (hsize : packet.size = 174)
    (hzero : ∃ index < 128, packet.byte (46 + index) = 0)
    (hdestSize : destPacket.size = 168)
    (hdest : ∀ index < 168, destPacket.byte index =
      (serverForward (forwardOf order serverIp packet)).value.getD index 0) :
    stringAt destPacket 40 = stringAt packet 46 := by
  apply stringAt_congr 128 _ hzero (by omega) (by omega)
  intro index hindex
  rw [hdest _ (by omega), value_serverForward,
    Block.getD_slice _ _ _ _ (by omega), servHandlePkt,
    byte_rewriteAddress_of_le order packet .source _ (by omega),
    show 6 + (40 + index) = 46 + index by omega]

section Forward

variable (order : ByteOrder) (clientHeap serverHeap destHeap : Heap) (key : Key)
variable (client server dest : DottedQuad) (message : Message) (flags : UInt8)
variable (clientFd : ℕ)

/-- The destination shows the message up to the end that the server finds. -/
theorem exists_payloadAtDestination :
    ∃ offset ≤ message.chars.length,
      (offset = message.chars.length ↔ KeyFree key message) ∧
      payloadAtDestination order clientHeap serverHeap destHeap key client.text
        server.text dest.text message.chars flags clientFd =
          some (message.chars.take offset) := by
  have hlength := message.length_le
  have hheaders := length_headersWith order
    (builtSum order (parseIpAddr client.text) (parseIpAddr dest.text))
    (parseIpAddr client.text) (parseIpAddr dest.text) flags
  have hrequest := clientRequest_eq_tunnelled order clientHeap key client.text
    dest.text message flags
  obtain ⟨offset, hoffset, -, hend⟩ := exists_payloadEnd_tunnelled key hheaders
    message (46 + message.chars.length)
  obtain ⟨packet, hpacket, -, hstart⟩ := serverStart_of_payloadEnd order
    serverHeap key server.text (by omega) hend
  obtain ⟨destPacket, hsome, hsize, hbyte⟩ := destRecPkt_some destHeap
    (serverForward (forwardOf order server.text packet)).value
  have hzero : packet.byte (46 + offset) = 0 := by
    rw [hpacket.byte_eq _ (by omega), if_pos rfl]
  have hstring := stringAt_forwarded order server.text hpacket.size_eq
    ⟨offset, by omega, hzero⟩ hsize hbyte
  refine ⟨offset, hoffset,
    payloadEnd_eq_length_iff key hheaders message _ le_rfl hoffset hend, ?_⟩
  rw [← stringAt_tunnelled key hheaders message _ hoffset hend hpacket, ← hstring,
    payloadAtDestination, hrequest]
  simp only [hstart, connected, hsome, Option.bind_eq_bind, Option.bind_some]
  rfl

/-- A request that is delivered in full shows its message at the destination
exactly when no character equals the key byte at its position. -/
theorem payloadAtDestination_eq_iff :
    payloadAtDestination order clientHeap serverHeap destHeap key client.text
      server.text dest.text message.chars flags clientFd =
        some message.chars ↔ KeyFree key message := by
  obtain ⟨offset, hoffset, hfree, hpayload⟩ := exists_payloadAtDestination order
    clientHeap serverHeap destHeap key client server dest message flags clientFd
  rw [hpayload, Option.some.injEq, take_eq_self_iff message hoffset, hfree]

end Forward

/-- The shortest message that meets the key of `encrypt.c`. -/
def letterV : Message := ⟨⟨chars "V", by decide⟩, by decide⟩

/-- The letter `V` meets the first key byte of the payload area and is lost. -/
theorem payloadAtDestination_letterV :
    payloadAtDestination .little .zeros .zeros .zeros key h1.text h2.text h3.text
      letterV.chars tcpFlagSyn 3 ≠ some letterV.chars := by
  obtain ⟨offset, hoffset, hfree, hpayload⟩ := exists_payloadAtDestination
    .little .zeros .zeros .zeros key h1 h2 h3 letterV tcpFlagSyn 3
  have hmeets : ¬ KeyFree key letterV := by decide
  rwa [hpayload, Ne, Option.some.injEq, take_eq_self_iff letterV hoffset, hfree]

/-- The payload that the client shows for a response, every byte of which is
delivered on both hops. -/
def payloadAtClient (order : ByteOrder)
    (destHeap serverHeap clientHeap : Heap) (key : Key)
    (destIp serverIp : List UInt8) (clientIp : UInt32)
    (responseMsg : List UInt8) (flags : UInt8) : Option (List UInt8) := do
  let response :=
    (destinationResponse order destHeap destIp serverIp responseMsg flags).value
  let recPacketDest ← (servRecFromDes serverHeap (some response)).value
  let reply := (serverReply order (serverHeap.after 1) key clientIp
    recPacketDest).value
  let packet ← (servRecFromCli clientHeap key (some reply)).value
  pure (stringAt packet (getPayload 0))

section Backward

variable (order : ByteOrder) (destHeap serverHeap clientHeap : Heap) (key : Key)
variable (dest server client : DottedQuad) (message : Message) (flags : UInt8)

/-- A response that was received carries its message behind the headers. -/
theorem firstZero_received {recPacketDest : Block}
    (hbyte : ∀ index < 174, recPacketDest.byte index =
      (destinationResponse order destHeap dest.text server.text message.chars
        flags).value.getD index 0) :
    (∀ index < 128, recPacketDest.byte (40 + index) =
      message.chars.getD index 0) ∧
    FirstZero recPacketDest.byte 40 message.chars.length := by
  have hlength := message.length_le
  have hpayload : ∀ index < 128, recPacketDest.byte (40 + index) =
      message.chars.getD index 0 := by
    intro index hindex
    rw [hbyte _ (by omega), getD_destinationResponse_message _ _ _ _ _ _ hindex]
  refine ⟨hpayload, ?_, ?_⟩
  · rw [hpayload _ (by omega), List.getD_eq_default _ _ le_rfl]
  · intro index hindex
    rw [hpayload index (by omega)]
    exact message.getD_ne_zero hindex

/-- The reply of the server, as a message in the tunnel. -/
theorem serverReply_eq_tunnelled (heap : Heap) (clientIp : UInt32)
    {recPacketDest : Block}
    (hpayload : ∀ index < 128, recPacketDest.byte (40 + index) =
      message.chars.getD index 0)
    (hend : FirstZero recPacketDest.byte 40 message.chars.length) :
    (serverReply order heap key clientIp recPacketDest).value =
      tunnelled key
        ((serverWrap order heap clientIp recPacketDest).value.slice 0 46) message
        (46 + message.chars.length) := by
  have hlength := message.length_le
  have hchars : (serverWrap order heap clientIp recPacketDest).value.slice (0 + 46)
      message.chars.length = message.chars := by
    apply Block.slice_eq
    · rfl
    · intro index hindex
      rw [byte_serverWrap _ _ _ _ (by omega), if_neg (by omega),
        if_neg (by omega), if_neg (by omega),
        show 0 + 46 + index - 6 = 40 + index by omega, hpayload _ (by omega)]
  rw [value_serverReply _ _ _ _ _ hlength hend, Block.slice_add, hchars, tunnelled,
    List.take_of_length_le]
  rw [length_encipher, List.length_append, Block.length_slice]

/-- The client shows the message up to the end that it finds. -/
theorem exists_payloadAtClient :
    ∃ offset ≤ message.chars.length,
      (offset = message.chars.length ↔ KeyFree key message) ∧
      payloadAtClient order destHeap serverHeap clientHeap key dest.text
        server.text client.address message.chars flags =
          some (message.chars.take offset) := by
  have hlength := message.length_le
  obtain ⟨recPacketDest, hreceived, -, hbyte⟩ := servRecFromDes_some serverHeap
    (destinationResponse order destHeap dest.text server.text message.chars
      flags).value
  obtain ⟨hpayload, hfirst⟩ := firstZero_received order destHeap dest server
    message flags hbyte
  have hreply := serverReply_eq_tunnelled order key message (serverHeap.after 1)
    client.address hpayload hfirst
  have hheaders := Block.length_slice (serverWrap order (serverHeap.after 1)
    client.address recPacketDest).value 0 46
  obtain ⟨offset, hoffset, -, hend⟩ := exists_payloadEnd_tunnelled key hheaders
    message (46 + message.chars.length)
  obtain ⟨packet, hsome, hpacket⟩ :=
    servRecFromCli_some clientHeap key (by omega) hend
  refine ⟨offset, hoffset,
    payloadEnd_eq_length_iff key hheaders message _ le_rfl hoffset hend, ?_⟩
  rw [← stringAt_tunnelled key hheaders message _ hoffset hend hpacket,
    payloadAtClient]
  simp only [hreceived, hreply, hsome, Option.bind_eq_bind, Option.bind_some]
  rfl

/-- A response that is delivered in full shows its message at the client exactly
when no character equals the key byte at its position. -/
theorem payloadAtClient_eq_iff :
    payloadAtClient order destHeap serverHeap clientHeap key dest.text
      server.text client.address message.chars flags =
        some message.chars ↔ KeyFree key message := by
  obtain ⟨offset, hoffset, hfree, hpayload⟩ := exists_payloadAtClient order
    destHeap serverHeap clientHeap key dest server client message flags
  rw [hpayload, Option.some.injEq, take_eq_self_iff message hoffset, hfree]

end Backward

/-- The client does not see the letter `V` either. -/
theorem payloadAtClient_letterV :
    payloadAtClient .little .zeros .zeros .zeros key h3.text h2.text h1.address
      letterV.chars tcpFlagAck ≠ some letterV.chars := by
  obtain ⟨offset, hoffset, hfree, hpayload⟩ := exists_payloadAtClient .little
    .zeros .zeros .zeros key h3 h2 h1 letterV tcpFlagAck
  have hmeets : ¬ KeyFree key letterV := by decide
  rwa [hpayload, Ne, Option.some.injEq, take_eq_self_iff letterV hoffset, hfree]

end SimpleVpn.RoundTrip
