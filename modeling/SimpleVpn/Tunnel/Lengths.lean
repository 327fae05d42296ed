import SimpleVpn.Tunnel.Exchange

/-!
# The length field on the four hops

`set_ip` writes one length, the IP header and the whole payload area, and no hop
sends that many bytes for every message.  Each of the four senders counts in its
own way, and the field, which nobody reads, stays what it was.
-/

namespace SimpleVpn.Lengths

open SimpleVpn.TracedMemory SimpleVpn.HostWords SimpleVpn.CStrings
open SimpleVpn.Keystream SimpleVpn.HostInfo SimpleVpn.Protocol SimpleVpn.Packet
open SimpleVpn.Programs SimpleVpn.Frame SimpleVpn.Rewrite SimpleVpn.Transit
open SimpleVpn.Hops SimpleVpn.Exchange

/-- The total length in the IP header at the start of a datagram. -/
def totalLength (order : ByteOrder) (datagram : List UInt8) : ℕ :=
  (ntohs order (u16 order (ofBytes datagram) ipLen)).toNat

theorem totalLength_eq (order : ByteOrder) (datagram : List UInt8) :
    totalLength order datagram =
      (datagram.getD 2 0).toNat * 256 + (datagram.getD 3 0).toNat := by
  rw [totalLength, u16, byte_ofBytes, byte_ofBytes]
  cases order
  · rw [nativeWord16, ntohs, lo16_word16, hi16_word16, toNat_word16]
    rfl
  · rw [nativeWord16, ntohs, toNat_word16]
    rfl

/-- The datagram is as long as its IP header says. -/
def LengthAgrees (order : ByteOrder) (datagram : List UInt8) : Prop :=
  totalLength order datagram = datagram.length

/-- The field of every datagram here is the one that `set_ip` wrote. -/
theorem lengthAgrees_iff (order : ByteOrder) {datagram : List UInt8}
    (hhigh : datagram.getD 2 0 = 0) (hlow : datagram.getD 3 0 = 148) :
    LengthAgrees order datagram ↔ datagram.length = 148 := by
  rw [LengthAgrees, totalLength_eq, hhigh, hlow]
  exact eq_comm

/-- What is sent on the four hops, deciphered where it is enciphered and counted
from the start of the IP header. -/
structure Traffic where
  request : List UInt8
  forward : List UInt8
  response : List UInt8
  reply : List UInt8

/-- The length field agrees with the datagram on every hop. -/
structure Traffic.Agrees (order : ByteOrder) (hops : Traffic) : Prop where
  request : LengthAgrees order hops.request
  forward : LengthAgrees order hops.forward
  response : LengthAgrees order hops.response
  reply : LengthAgrees order hops.reply

/-- The datagram in what is sent through the tunnel. -/
def tunnelDatagram (key : Key) (sent : List UInt8) : List UInt8 :=
  (encipher key sent).drop sizeofGreHdr

/-- The traffic of an exchange. -/
def traffic (setting : Setting) : Option Traffic := do
  let order := setting.order
  let key := setting.key
  let clientIp := (DottedQuad.ofAddress setting.client).text
  let serverIp := (DottedQuad.ofAddress setting.server).text
  let destIp := (DottedQuad.ofAddress setting.dest).text
  let request := (clientRequest order setting.clientHeap key clientIp destIp
    setting.request.chars setting.requestFlags).value
  let forward ← connected (serverStart order setting.serverHeap key serverIp
    (some (request.take setting.requestCount)) (some setting.clientFd)).value
  let forwarded := (serverForward forward).value
  let destPacket ← (destRecPkt setting.destHeap
    (some (forwarded.take setting.forwardCount))).value
  let response := (destinationReply order (setting.destHeap.after 1) destIp
    destPacket setting.response.chars setting.responseFlags).value
  let recPacketDest ← (servRecFromDes (setting.serverHeap.after 2)
    (some (response.take setting.responseCount))).value
  let reply := (serverReply order (setting.serverHeap.after 3) key
    forward.clientIp recPacketDest).value
  pure {
    request := tunnelDatagram key request
    forward := forwarded
    response
    reply := tunnelDatagram key reply }

/-- What the server and the destination hold on the way of an exchange. -/
structure Carried (setting : Setting) (forward : Forward)
    (destPacket recPacketDest : Block) : Prop where
  forward_eq : connected (serverStart setting.order setting.serverHeap
    setting.key (DottedQuad.ofAddress setting.server).text
    (some ((clientRequest setting.order setting.clientHeap setting.key
      (DottedQuad.ofAddress setting.client).text
      (DottedQuad.ofAddress setting.dest).text setting.request.chars
      setting.requestFlags).value.take setting.requestCount))
    (some setting.clientFd)).value = some forward
  destPacket_eq : (destRecPkt setting.destHeap
    (some ((serverForward forward).value.take setting.forwardCount))).value =
      some destPacket
  recPacketDest_eq : (servRecFromDes (setting.serverHeap.after 2)
    (some ((destinationReply setting.order (setting.destHeap.after 1)
      (DottedQuad.ofAddress setting.dest).text destPacket
      setting.response.chars setting.responseFlags).value.take
        setting.responseCount))).value = some recPacketDest

theorem Carried.traffic_eq {setting : Setting} {forward : Forward}
    {destPacket recPacketDest : Block}
    (hcarried : Carried setting forward destPacket recPacketDest) :
    traffic setting = some {
      request := tunnelDatagram setting.key (clientRequest setting.order
        setting.clientHeap setting.key (DottedQuad.ofAddress setting.client).text
        (DottedQuad.ofAddress setting.dest).text setting.request.chars
        setting.requestFlags).value
      forward := (serverForward forward).value
      response := (destinationReply setting.order (setting.destHeap.after 1)
        (DottedQuad.ofAddress setting.dest).text destPacket
        setting.response.chars setting.responseFlags).value
      reply := tunnelDatagram setting.key (serverReply setting.order
        (setting.serverHeap.after 3) setting.key forward.clientIp
        recPacketDest).value } := by
  unfold traffic
  dsimp only
  rw [hcarried.forward_eq, Option.bind_eq_bind, Option.bind_some,
    hcarried.destPacket_eq, Option.bind_eq_bind, Option.bind_some,
    hcarried.recPacketDest_eq, Option.bind_some]
  rfl

section Request

variable (order : ByteOrder) (heap : Heap) (key : Key)
variable (ipSrc ipDest : List UInt8) (message : Message) (flags : UInt8)

/-- The client counts the payload that it has. -/
theorem request_lengthAgrees_iff :
    LengthAgrees order (tunnelDatagram key
        (clientRequest order heap key ipSrc ipDest message.chars flags).value) ↔
      message.chars.length = 108 := by
  have hlength : (frame order (builtDatagram ipSrc ipDest message
      flags)).length = 46 + message.chars.length :=
    length_frame order (builtDatagram ipSrc ipDest message flags)
  rw [value_clientRequest, tunnelDatagram, encipher_encipher,
    lengthAgrees_iff order rfl rfl, List.length_drop, hlength, sizeofGreHdr]
  omega

end Request

section Forward

variable (order : ByteOrder)

/-- The server gets as far as `connect_to_server`, whatever arrived of the
request. -/
theorem exists_forward (clientHeap serverHeap : Heap) (key : Key)
    (clientIp destIp serverIp : List UInt8) (message : Message) (flags : UInt8)
    (clientFd count : ℕ) :
    ∃ packet, connected (serverStart order serverHeap key serverIp
        (some ((clientRequest order clientHeap key clientIp destIp message.chars
          flags).value.take count)) (some clientFd)).value =
        some (forwardOf order serverIp packet) ∧
      (46 ≤ count → packet.byte 8 = 0 ∧ packet.byte 9 = 148) := by
  obtain ⟨packet, hpacket, -, hstart⟩ := serverStart_of_truncation order
    serverHeap key serverIp clientHeap clientIp destIp message flags count
  refine ⟨packet, by rw [hstart clientFd, connected], fun hcount => ?_⟩
  rw [hpacket 8 (by omega), hpacket 9 (by omega), if_pos (by omega),
    if_pos (by omega)]
  exact ⟨rfl, rfl⟩

/-- The server counts the whole payload area, 20 bytes more than the field
says. -/
theorem forward_not_lengthAgrees (serverIp : List UInt8) {packet : Block}
    (hhigh : packet.byte 8 = 0) (hlow : packet.byte 9 = 148) :
    ¬ LengthAgrees order
      (serverForward (forwardOf order serverIp packet)).value := by
  have hkept : ∀ index < 10,
      (servHandlePkt order packet serverIp).value.1.byte (6 + index) =
        packet.byte (6 + index) := by
    intro index hindex
    exact byte_rewriteAddress_of_lt order packet .source serverIp (by
      rw [ipSum]
      omega)
  rw [value_serverForward, lengthAgrees_iff, Block.length_slice]
  · omega
  · rw [Block.getD_slice _ _ _ _ (by omega), hkept 2 (by omega), hhigh]
  · rw [Block.getD_slice _ _ _ _ (by omega), hkept 3 (by omega), hlow]

end Forward

/-- What a response says about its length, and what it carries. -/
structure ResponseOf (response : List UInt8) (message : Message) : Prop where
  length_eq : response.length = 46 + message.chars.length
  high_eq : response.getD 2 0 = 0
  low_eq : response.getD 3 0 = 148
  message_eq : ∀ index < 128,
    response.getD (40 + index) 0 = message.chars.getD index 0

theorem responseOf_destinationReply (order : ByteOrder) (heap : Heap)
    (hostIp : List UInt8) (recPacket : Block) (message : Message)
    (flags : UInt8) :
    ResponseOf (destinationReply order heap hostIp recPacket message.chars
      flags).value message := by
  rw [destinationReply, Traced.value_bind]
  refine ⟨?_, ?_, ?_, fun index hindex => ?_⟩
  · rw [destinationResponse, Traced.value_bind, value_loadBytes,
      Block.length_slice, toNat_getPacketSize_message]
  · rw [getD_destinationResponse_headers _ _ _ _ _ _ (by omega)]
    rfl
  · rw [getD_destinationResponse_headers _ _ _ _ _ _ (by omega)]
    rfl
  · rw [getD_destinationResponse_message _ _ _ _ _ _ hindex]

/-- A received response: perhaps without its length, and with a payload that
ends where the message or the delivery does. -/
structure ReceivedOf (message : Message) (count : ℕ) (recPacketDest : Block)
    (offset : ℕ) : Prop where
  firstZero : FirstZero recPacketDest.byte 40 offset
  offset_le : offset ≤ message.chars.length
  high_eq : recPacketDest.byte 2 = 0
  low_eq : recPacketDest.byte 3 = 0 ∨ recPacketDest.byte 3 = 148
  of_whole : 46 + message.chars.length ≤ count →
    recPacketDest.byte 3 = 148 ∧ offset = message.chars.length

section Response

variable {response : List UInt8} {message : Message}
variable (hresponse : ResponseOf response message)

include hresponse

/-- The destination counts the GRE header that it has cut off. -/
theorem response_lengthAgrees_iff (order : ByteOrder) :
    LengthAgrees order response ↔ message.chars.length = 102 := by
  rw [lengthAgrees_iff order hresponse.high_eq hresponse.low_eq,
    hresponse.length_eq]
  omega

/-- What the server receives of a response. -/
theorem servRecFromDes_of_responseOf (heap : Heap) (count : ℕ) :
    ∃ recPacketDest offset,
      (servRecFromDes heap (some (response.take count))).value =
        some recPacketDest ∧
      ReceivedOf message count recPacketDest offset := by
  have hlength := message.length_le
  obtain ⟨recPacketDest, hsome, -, hbyte⟩ :=
    servRecFromDes_some heap (response.take count)
  simp only [getD_take] at hbyte
  have hend : recPacketDest.byte (40 + message.chars.length) = 0 := by
    rw [hbyte _ (by omega), hresponse.message_eq _ (by omega),
      List.getD_eq_default _ _ le_rfl, ite_self]
  obtain ⟨offset, hoffset, hfirst⟩ := exists_firstZero hend
  refine ⟨recPacketDest, offset, hsome, hfirst, hoffset, ?_, ?_,
    fun hcount => ⟨?_, ?_⟩⟩
  · rw [hbyte 2 (by omega), hresponse.high_eq, ite_self]
  · rw [hbyte 3 (by omega), hresponse.low_eq]
    split
    next => exact Or.inr rfl
    next => exact Or.inl rfl
  · rw [hbyte 3 (by omega), if_pos (by omega), hresponse.low_eq]
  · by_contra hne
    have hzero := hfirst.zero
    rw [hbyte _ (by omega), if_pos (by omega),
      hresponse.message_eq _ (by omega)] at hzero
    exact message.getD_ne_zero (by omega) hzero

end Response

/-- The server counts the payload that it finds, and leaves the field as it came
from the destination. -/
theorem reply_lengthAgrees_iff (order : ByteOrder) (heap : Heap) (key : Key)
    (clientIp : UInt32) {recPacketDest : Block} {offset : ℕ}
    (hoffset : offset ≤ 127) (hend : FirstZero recPacketDest.byte 40 offset) :
    LengthAgrees order (tunnelDatagram key
        (serverReply order heap key clientIp recPacketDest).value) ↔
      (recPacketDest.byte 2).toNat * 256 + (recPacketDest.byte 3).toNat =
        40 + offset := by
  have hbyte : ∀ index < 10,
      ((((serverWrap order heap clientIp recPacketDest).value).slice 0
        (46 + offset)).drop 6).getD index 0 = recPacketDest.byte index := by
    intro index hindex
    rw [List.getD_eq_getElem?_getD, List.getElem?_drop,
      ← List.getD_eq_getElem?_getD, Block.getD_slice _ _ _ _ (by omega),
      Nat.zero_add, byte_serverWrap _ _ _ _ (by omega), if_neg (by omega),
      if_neg (by omega), if_neg (by omega), Nat.add_sub_cancel_left]
  rw [value_serverReply order heap key clientIp recPacketDest hoffset hend,
    tunnelDatagram, encipher_encipher, LengthAgrees, totalLength_eq,
    sizeofGreHdr, hbyte 2 (by omega), hbyte 3 (by omega), List.length_drop,
    Block.length_slice, show 46 + offset - 6 = 40 + offset by omega]

/-- Every hop delivers all that is sent. -/
structure Delivered (setting : Setting) : Prop where
  request_le : 46 + setting.request.chars.length ≤ setting.requestCount
  forward_le : 168 ≤ setting.forwardCount
  response_le : 46 + setting.response.chars.length ≤ setting.responseCount
  reply_le : 46 + setting.response.chars.length ≤ setting.replyCount

/-- Every exchange gets as far as the reply. -/
theorem exists_carried (setting : Setting) :
    ∃ packet destPacket recPacketDest offset,
      Carried setting (forwardOf setting.order
        (DottedQuad.ofAddress setting.server).text packet) destPacket
        recPacketDest ∧
      (46 ≤ setting.requestCount → packet.byte 8 = 0 ∧ packet.byte 9 = 148) ∧
      ReceivedOf setting.response setting.responseCount recPacketDest offset := by
  obtain ⟨packet, hforward, hheaders⟩ := exists_forward setting.order
    setting.clientHeap setting.serverHeap setting.key
    (DottedQuad.ofAddress setting.client).text
    (DottedQuad.ofAddress setting.dest).text
    (DottedQuad.ofAddress setting.server).text setting.request
    setting.requestFlags setting.clientFd setting.requestCount
  obtain ⟨destPacket, hdest, -, -⟩ := destRecPkt_some setting.destHeap
    ((serverForward (forwardOf setting.order
      (DottedQuad.ofAddress setting.server).text packet)).value.take
        setting.forwardCount)
  obtain ⟨recPacketDest, offset, hrec, hreceived⟩ :=
    servRecFromDes_of_responseOf (responseOf_destinationReply setting.order
      (setting.destHeap.after 1) (DottedQuad.ofAddress setting.dest).text
      destPacket setting.response setting.responseFlags)
      (setting.serverHeap.after 2) setting.responseCount
  exact ⟨packet, destPacket, recPacketDest, offset, ⟨hforward, hdest, hrec⟩,
    hheaders, hreceived⟩

/-- In no exchange does the length agree on every hop.  When everything is
delivered, the requests of one length agree, what the server forwards never
does, and the response and the reply agree for different lengths. -/
theorem lengthsOnHops (setting : Setting) :
    ∃ hops, traffic setting = some hops ∧ ¬ hops.Agrees setting.order ∧
      (LengthAgrees setting.order hops.request ↔
        setting.request.chars.length = 108) ∧
      (LengthAgrees setting.order hops.response ↔
        setting.response.chars.length = 102) ∧
      (Delivered setting →
        ¬ LengthAgrees setting.order hops.forward ∧
          (LengthAgrees setting.order hops.reply ↔
            setting.response.chars.length = 108)) := by
  obtain ⟨packet, destPacket, recPacketDest, offset, hcarried, hheaders,
    hreceived⟩ := exists_carried setting
  have hoffset := hreceived.offset_le.trans setting.response.length_le
  have hresponseIff := response_lengthAgrees_iff (responseOf_destinationReply
    setting.order (setting.destHeap.after 1)
    (DottedQuad.ofAddress setting.dest).text destPacket setting.response
    setting.responseFlags) setting.order
  have hreplyIff := reply_lengthAgrees_iff setting.order
    (setting.serverHeap.after 3) setting.key (forwardOf setting.order
      (DottedQuad.ofAddress setting.server).text packet).clientIp hoffset
    hreceived.firstZero
  rw [hreceived.high_eq, UInt8.toNat_zero, Nat.zero_mul,
    Nat.zero_add] at hreplyIff
  refine ⟨_, hcarried.traffic_eq, fun hagrees => ?_,
    request_lengthAgrees_iff _ _ _ _ _ _ _, hresponseIff,
    fun hdelivered => ⟨?_, ?_⟩⟩
  · -- the response would have to be longer than the reply can be
    have hresponse := hresponseIff.mp hagrees.response
    have hreply := hagrees.reply
    dsimp only at hreply
    rw [hreplyIff] at hreply
    have hle := hreceived.offset_le
    have hfield : (recPacketDest.byte 3).toNat = 0 ∨
        (recPacketDest.byte 3).toNat = 148 :=
      hreceived.low_eq.imp (congrArg UInt8.toNat) (congrArg UInt8.toNat)
    omega
  · have hcount := hdelivered.request_le
    obtain ⟨hhigh, hlow⟩ := hheaders (by omega)
    exact forward_not_lengthAgrees setting.order _ hhigh hlow
  · obtain ⟨hwritten, hwhole⟩ := hreceived.of_whole hdelivered.response_le
    have hfield : (recPacketDest.byte 3).toNat = 148 :=
      congrArg UInt8.toNat hwritten
    rw [hreplyIff, hfield, hwhole]
    omega

/-- The request of the first three hosts says 148 bytes and has 47. -/
theorem not_lengthAgrees_hosts :
    ∃ hops, traffic hostsSetting = some hops ∧
      ¬ LengthAgrees hostsSetting.order hops.request := by
  obtain ⟨packet, destPacket, recPacketDest, offset, hcarried, -, -⟩ :=
    exists_carried hostsSetting
  refine ⟨_, hcarried.traffic_eq, ?_⟩
  rw [request_lengthAgrees_iff]
  decide

end SimpleVpn.Lengths
