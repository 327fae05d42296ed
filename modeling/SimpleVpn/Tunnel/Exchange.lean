import SimpleVpn.Tunnel.Hops

/-!
# A whole exchange

The three programs run one after the other: a request goes from the client
through the server to the destination, and a response comes back the same way.
On every hop the headers arrive, and perhaps no more.  What a packet says about
its sender, its receiver and the TCP flags is followed from hop to hop.
-/

namespace SimpleVpn.Exchange

open SimpleVpn.TracedMemory SimpleVpn.HostWords SimpleVpn.CStrings
open SimpleVpn.Keystream SimpleVpn.HostInfo SimpleVpn.Protocol SimpleVpn.Packet
open SimpleVpn.Programs SimpleVpn.Frame SimpleVpn.Rewrite SimpleVpn.Transit
open SimpleVpn.Hops

/-- The packet whose IP header starts at `ip` shows the addresses, the ports of
`set_tcp` and the flags. -/
structure Shows (order : ByteOrder) (packet : Block) (ip : ℕ)
    (source dest : UInt32) (flags : UInt8) : Prop where
  source_eq : u32 order packet (ip + ipSrc) = source
  dest_eq : u32 order packet (ip + ipDst) = dest
  srcPort_eq : u16 order packet (ip + sizeofIpHdr + tcpSrcPort) =
    htons order port
  dstPort_eq : u16 order packet (ip + sizeofIpHdr + tcpDstPort) =
    htons order port
  flags_eq : packet.byte (ip + sizeofIpHdr + tcpFlags) = flags

section Shows

variable {order : ByteOrder} {packet : Block} {ip : ℕ}
variable {source dest : UInt32} {flags : UInt8}

/-- A copy of both headers shows the same. -/
theorem Shows.copy (hshows : Shows order packet ip source dest flags)
    {copy : Block} {start : ℕ}
    (hbyte : ∀ index < 40, copy.byte (start + index) = packet.byte (ip + index)) :
    Shows order copy start source dest flags := by
  have hcopy : ∀ offset index, offset + index < 40 →
      copy.byte (start + offset + index) = packet.byte (ip + offset + index) := by
    intro offset index hindex
    rw [Nat.add_assoc, Nat.add_assoc, hbyte _ hindex]
  constructor
  · rw [← hshows.source_eq]
    exact u32_copy order _ fun index hindex => hcopy ipSrc index (by
      rw [ipSrc]
      omega)
  · rw [← hshows.dest_eq]
    exact u32_copy order _ fun index hindex => hcopy ipDst index (by
      rw [ipDst]
      omega)
  · rw [← hshows.srcPort_eq, Nat.add_assoc, Nat.add_assoc]
    exact u16_copy order _ fun index hindex => hcopy _ index (by
      rw [sizeofIpHdr, tcpSrcPort]
      omega)
  · rw [← hshows.dstPort_eq, Nat.add_assoc, Nat.add_assoc]
    exact u16_copy order _ fun index hindex => hcopy _ index (by
      rw [sizeofIpHdr, tcpDstPort]
      omega)
  · rw [← hshows.flags_eq]
    exact hcopy sizeofIpHdr tcpFlags (by decide)

/-- The headers of a datagram show what it says. -/
theorem shows_headersWith (sum : UInt16)
    (hbyte : ∀ index < 40, packet.byte (ip + index) =
      (headersWith order sum source dest flags).getD (6 + index) 0) :
    Shows order packet ip source dest flags := by
  have hport := nativeByte16_htons order port
  constructor
  · rw [u32_eq_iff]
    intro index hindex
    rw [ipSrc, Nat.add_assoc, hbyte _ (by omega), ← Nat.add_assoc,
      getD_headersWith_source _ _ _ _ _ hindex]
  · rw [u32_eq_iff]
    intro index hindex
    rw [ipDst, Nat.add_assoc, hbyte _ (by omega), ← Nat.add_assoc,
      getD_headersWith_dest _ _ _ _ _ hindex]
  · rw [u16_eq_iff]
    intro index hindex
    rw [sizeofIpHdr, tcpSrcPort, Nat.add_zero, Nat.add_assoc, hbyte _ (by omega)]
    interval_cases index
    exacts [hport.1.symm, hport.2.symm]
  · rw [u16_eq_iff]
    intro index hindex
    rw [sizeofIpHdr, tcpDstPort, Nat.add_assoc, Nat.add_assoc, hbyte _ (by omega)]
    interval_cases index
    exacts [hport.1.symm, hport.2.symm]
  · rw [sizeofIpHdr, tcpFlags, Nat.add_assoc, hbyte _ (by omega)]
    rfl

section Rewrites

variable (hshows : Shows order packet 6 source dest flags)

include hshows

/-- A packet with the same TCP header and other addresses. -/
theorem Shows.readdress {other : Block} {otherSource otherDest : UInt32}
    (hsource : u32 order other (6 + ipSrc) = otherSource)
    (hdest : u32 order other (6 + ipDst) = otherDest)
    (htcp : ∀ index, 26 ≤ index → other.byte index = packet.byte index) :
    Shows order other 6 otherSource otherDest flags := by
  refine ⟨hsource, hdest, ?_, ?_, ?_⟩
  · rw [← hshows.srcPort_eq]
    exact u16_congr order _ fun index hlow _ => htcp index hlow
  · rw [← hshows.dstPort_eq]
    exact u16_congr order _ fun index hlow _ =>
      htcp index (le_trans (by decide) hlow)
  · rw [← hshows.flags_eq]
    exact htcp _ (by decide)

theorem Shows.servHandlePkt (ipAddr : List UInt8) :
    Shows order (servHandlePkt order packet ipAddr).value.1 6
      (parseIpAddr ipAddr) dest flags :=
  hshows.readdress (u32_rewriteAddress_own order packet .source ipAddr)
    ((u32_rewriteAddress_other order packet .source ipAddr).trans hshows.dest_eq)
    fun _ => byte_rewriteAddress_of_le order packet .source ipAddr

theorem Shows.servHandlePktDest (ipAddr : List UInt8) :
    Shows order (servHandlePktDest order packet ipAddr).value.1 6 source
      (parseIpAddr ipAddr) flags :=
  hshows.readdress
    ((u32_rewriteAddress_other order packet .dest ipAddr).trans hshows.source_eq)
    (u32_rewriteAddress_own order packet .dest ipAddr)
    fun _ => byte_rewriteAddress_of_le order packet .dest ipAddr

end Rewrites

end Shows

section Hops

variable (order : ByteOrder)

/-- The server receives the headers of a request. -/
theorem serverStart_shows (clientHeap serverHeap : Heap) (key : Key)
    (client server dest : DottedQuad) (message : Message) (flags : UInt8)
    (clientFd : ℕ) {count : ℕ} (hcount : 46 ≤ count) :
    ∃ packet, Shows order packet 6 client.address dest.address flags ∧
      (serverStart order serverHeap key server.text
        (some ((clientRequest order clientHeap key client.text dest.text
          message.chars flags).value.take count)) (some clientFd)).value =
        .connecting (forwardOf order server.text packet) := by
  obtain ⟨packet, hpacket, -, hstart⟩ := serverStart_of_truncation order
    serverHeap key server.text clientHeap client.text dest.text message flags
    count
  refine ⟨packet, ?_, hstart clientFd⟩
  rw [← parseIpAddr_text client, ← parseIpAddr_text dest]
  apply shows_headersWith
    (builtSum order (parseIpAddr client.text) (parseIpAddr dest.text))
  intro index hindex
  rw [hpacket _ (by omega), if_pos (by omega)]

/-- The destination receives the headers that the server forwards. -/
theorem destRecPkt_shows (heap : Heap) (server : DottedQuad) {packet : Block}
    {source dest : UInt32} {flags : UInt8}
    (hshows : Shows order packet 6 source dest flags) {count : ℕ}
    (hcount : 40 ≤ count) :
    ∃ destPacket, (destRecPkt heap (some ((serverForward
        (forwardOf order server.text packet)).value.take count))).value =
          some destPacket ∧
      Shows order destPacket 0 server.address dest flags := by
  obtain ⟨destPacket, hsome, -, hbyte⟩ := destRecPkt_some heap
    ((serverForward (forwardOf order server.text packet)).value.take count)
  have hrewritten := hshows.servHandlePkt server.text
  rw [parseIpAddr_text] at hrewritten
  refine ⟨destPacket, hsome, hrewritten.copy ?_⟩
  intro index hindex
  rw [Nat.zero_add, hbyte index (by omega), value_serverForward, getD_take,
    if_pos (by omega), Block.getD_slice _ _ _ _ (by omega)]

/-- The response of the destination shows the destination as its source and goes
to the source of the request. -/
theorem destinationReply_shows (heap : Heap) (dest : DottedQuad)
    {destPacket : Block} {source other : UInt32} {requestFlags : UInt8}
    (hshows : Shows order destPacket 0 source other requestFlags)
    (message : Message) (flags : UInt8) :
    Shows order (ofBytes (destinationReply order heap dest.text destPacket
        message.chars flags).value) 0 dest.address source flags ∧
      (destinationReply order heap dest.text destPacket message.chars
        flags).value.getD (40 + message.chars.length) 0 = 0 := by
  have hlength := message.length_le
  have hsource : u32 order destPacket ipSrc = source := by
    rw [← hshows.source_eq, Nat.zero_add]
  rw [destinationReply, Traced.value_bind, value_loadU32, hsource]
  constructor
  · have hbyte : ∀ index < 40,
        (ofBytes (destinationResponse order heap dest.text
          (parseIpAddrToStr source) message.chars flags).value).byte (0 + index) =
          (headersWith order (builtSum order (parseIpAddr dest.text)
            (parseIpAddr (parseIpAddrToStr source))) (parseIpAddr dest.text)
            (parseIpAddr (parseIpAddrToStr source)) flags).getD
              (6 + index) 0 := by
      intro index hindex
      rw [Nat.zero_add, byte_ofBytes,
        getD_destinationResponse_headers _ _ _ _ _ _ hindex]
    have hresponse := shows_headersWith _ hbyte
    rwa [parseIpAddr_text, parseIpAddr_parseIpAddrToStr] at hresponse
  · rw [getD_destinationResponse_message _ _ _ _ _ _ (by omega),
      List.getD_eq_default _ _ le_rfl]

/-- The server receives the headers of the response and finds an end of its
payload. -/
theorem servRecFromDes_shows (heap : Heap) {response : List UInt8}
    {source dest : UInt32} {flags : UInt8} {length : ℕ}
    (hshows : Shows order (ofBytes response) 0 source dest flags)
    (hlength : length ≤ 127) (hzero : response.getD (40 + length) 0 = 0)
    {count : ℕ} (hcount : 40 ≤ count) :
    ∃ recPacketDest offset,
      (servRecFromDes heap (some (response.take count))).value =
        some recPacketDest ∧
      Shows order recPacketDest 0 source dest flags ∧
      offset ≤ 127 ∧ FirstZero recPacketDest.byte 40 offset := by
  obtain ⟨recPacketDest, hsome, -, hbyte⟩ :=
    servRecFromDes_some heap (response.take count)
  have hend : recPacketDest.byte (40 + length) = 0 := by
    rw [hbyte _ (by omega), getD_take]
    split
    next => exact hzero
    next => rfl
  obtain ⟨offset, hoffset, hfirst⟩ := exists_firstZero hend
  refine ⟨recPacketDest, offset, hsome, hshows.copy ?_, by omega, hfirst⟩
  intro index hindex
  rw [hbyte _ (by omega), getD_take, if_pos (by omega), byte_ofBytes]

/-- Behind its fresh GRE header the response is addressed to the client. -/
theorem serverWrap_shows (heap : Heap) (clientIp : UInt32)
    {recPacketDest : Block} {source dest : UInt32} {flags : UInt8}
    (hshows : Shows order recPacketDest 0 source dest flags) :
    Shows order (serverWrap order heap clientIp recPacketDest).value 6 source
      clientIp flags := by
  have henclosed : Shows order (enclosed order heap recPacketDest) 6 source dest
      flags := by
    apply hshows.copy
    intro index hindex
    rw [byte_enclosed _ _ _ (by omega), if_neg (by omega),
      Nat.add_sub_cancel_left, Nat.zero_add]
  have hrewritten := henclosed.servHandlePktDest (parseIpAddrToStr clientIp)
  rwa [parseIpAddr_parseIpAddrToStr, ← value_serverWrap] at hrewritten

theorem slice_packetEncapsulate (block : Block) :
    (packetEncapsulate order block).value.slice 0 6 = greHeader order := by
  apply Block.slice_eq
  · rfl
  · intro index hindex
    rw [Nat.zero_add, byte_packetEncapsulate, if_pos hindex]

theorem slice_serverWrap (heap : Heap) (clientIp : UInt32)
    (recPacketDest : Block) :
    (serverWrap order heap clientIp recPacketDest).value.slice 0 6 =
      greHeader order := by
  apply Block.slice_eq
  · rfl
  · intro index hindex
    rw [Nat.zero_add, byte_serverWrap _ _ _ _ (by omega), if_neg (by omega),
      if_neg (by omega), if_pos hindex]

/-- The client receives the three headers of the reply. -/
theorem clientReceives (serverHeap clientHeap : Heap) (key : Key)
    (clientIp : UInt32) {recPacketDest : Block} {source dest : UInt32}
    {flags : UInt8} {offset : ℕ}
    (hshows : Shows order recPacketDest 0 source dest flags)
    (hoffset : offset ≤ 127) (hend : FirstZero recPacketDest.byte 40 offset)
    {count : ℕ} (hcount : 46 ≤ count) :
    ∃ packet, (servRecFromCli clientHeap key (some ((serverReply order serverHeap
        key clientIp recPacketDest).value.take count))).value = some packet ∧
      Shows order packet 6 source clientIp flags ∧
      packet.slice 0 6 = greHeader order := by
  rw [value_serverReply order serverHeap key clientIp recPacketDest hoffset hend]
  have hwrapped := serverWrap_shows order serverHeap clientIp hshows
  have hgre := slice_serverWrap order serverHeap clientIp recPacketDest
  generalize (serverWrap order serverHeap clientIp recPacketDest).value = wrapped
    at *
  have hzero : ((encipher key (wrapped.slice 0 (46 + offset))).take
      count).getD (46 + offset) 0 = 0 := by
    rw [getD_take_encipher, if_neg (by
      rw [Block.length_slice]
      omega)]
  obtain ⟨first, hfirst, hpayload⟩ := exists_payloadEnd hzero
  obtain ⟨packet, hsome, hpacket⟩ :=
    servRecFromCli_some clientHeap key (by omega) hpayload
  have hbyte : ∀ index < 46, packet.byte index = wrapped.byte index := by
    intro index hindex
    rw [hpacket.byte_of_ne (by omega) (by omega), if_pos (by
      rw [Block.length_slice]
      omega), Block.getD_slice _ _ _ _ (by omega), Nat.zero_add]
  refine ⟨packet, hsome, hwrapped.copy ?_, ?_⟩
  · intro index hindex
    exact hbyte _ (by omega)
  · rw [← hgre]
    apply Block.slice_congr
    intro index hindex
    exact hbyte _ (by omega)

end Hops

/-- The circumstances of an exchange: the host, the key, the three addresses,
both messages with their flags, the memory of the three programs, and how many
bytes each of the four calls of `recv` delivers. -/
structure Setting where
  order : ByteOrder
  key : Key
  client : UInt32
  server : UInt32
  dest : UInt32
  request : Message
  requestFlags : UInt8
  response : Message
  responseFlags : UInt8
  clientHeap : Heap
  serverHeap : Heap
  destHeap : Heap
  clientFd : ℕ
  requestCount : ℕ
  forwardCount : ℕ
  responseCount : ℕ
  replyCount : ℕ

/-- Every hop delivers the headers. -/
structure HeadersDelivered (setting : Setting) : Prop where
  request_le : 46 ≤ setting.requestCount
  forward_le : 40 ≤ setting.forwardCount
  response_le : 40 ≤ setting.responseCount
  reply_le : 46 ≤ setting.replyCount

/-- What there is to see of an exchange: the client address the server saves and
the address it connects to, the packet the destination receives, the response
that leaves it and the packet the client receives. -/
structure Outcome where
  savedClientIp : UInt32
  connectedTo : List UInt8
  destPacket : Block
  response : List UInt8
  clientPacket : Block

/-- The three programs, one after the other. -/
def run (setting : Setting) : Option Outcome := do
  let order := setting.order
  let key := setting.key
  let clientIp := (DottedQuad.ofAddress setting.client).text
  let serverIp := (DottedQuad.ofAddress setting.server).text
  let destIp := (DottedQuad.ofAddress setting.dest).text
  let request := (clientRequest order setting.clientHeap key clientIp destIp
    setting.request.chars setting.requestFlags).value
  let forward ← connected (serverStart order setting.serverHeap key serverIp
    (some (request.take setting.requestCount)) (some setting.clientFd)).value
  let forwarded := (serverForward forward).value
  let destPacket ← (destRecPkt setting.destHeap
    (some (forwarded.take setting.forwardCount))).value
  let response := (destinationReply order (setting.destHeap.after 1) destIp
    destPacket setting.response.chars setting.responseFlags).value
  let recPacketDest ← (servRecFromDes (setting.serverHeap.after 2)
    (some (response.take setting.responseCount))).value
  let reply := (serverReply order (setting.serverHeap.after 3) key
    forward.clientIp recPacketDest).value
  let clientPacket ← (servRecFromCli (setting.clientHeap.after 2) key
    (some (reply.take setting.replyCount))).value
  pure {
    savedClientIp := forward.clientIp
    connectedTo := forward.destIp
    destPacket, response, clientPacket }

/-- What the addresses of an exchange have to be on every hop. -/
structure AddressInvariant (setting : Setting) (outcome : Outcome) : Prop where
  savedClientIp_eq : outcome.savedClientIp = setting.client
  connectedTo_eq : outcome.connectedTo =
    (DottedQuad.ofAddress setting.dest).text
  destPacket_shows : Shows setting.order outcome.destPacket 0 setting.server
    setting.dest setting.requestFlags
  response_shows : Shows setting.order (ofBytes outcome.response) 0 setting.dest
    setting.server setting.responseFlags
  clientPacket_shows : Shows setting.order outcome.clientPacket 6 setting.dest
    setting.client setting.responseFlags
  clientPacket_gre : ∀ block, outcome.clientPacket.slice 0 6 =
    (packetEncapsulate setting.order block).value.slice 0 6

/-- With the headers delivered on every hop, the request reaches the destination
in the name of the server, and the response reaches the client in the name of
the destination. -/
theorem run_addressInvariant (setting : Setting)
    (hdelivered : HeadersDelivered setting) :
    ∃ outcome, run setting = some outcome ∧
      AddressInvariant setting outcome := by
  obtain ⟨packet, hpacket, hstart⟩ := serverStart_shows setting.order
    setting.clientHeap setting.serverHeap setting.key
    (.ofAddress setting.client) (.ofAddress setting.server)
    (.ofAddress setting.dest) setting.request setting.requestFlags
    setting.clientFd hdelivered.request_le
  obtain ⟨destPacket, hdest, hdestShows⟩ := destRecPkt_shows setting.order
    setting.destHeap (.ofAddress setting.server) hpacket hdelivered.forward_le
  obtain ⟨hresponse, hzero⟩ := destinationReply_shows setting.order
    (setting.destHeap.after 1) (.ofAddress setting.dest) hdestShows
    setting.response setting.responseFlags
  obtain ⟨recPacketDest, offset, hreceived, hreceivedShows, hoffset, hend⟩ :=
    servRecFromDes_shows setting.order (setting.serverHeap.after 2) hresponse
      setting.response.length_le hzero hdelivered.response_le
  obtain ⟨clientPacket, hclient, hclientShows, hgre⟩ := clientReceives
    setting.order (setting.serverHeap.after 3) (setting.clientHeap.after 2)
    setting.key (forwardOf setting.order
      (DottedQuad.ofAddress setting.server).text packet).clientIp
    hreceivedShows hoffset hend hdelivered.reply_le
  simp only [DottedQuad.address_ofAddress] at *
  have hclientIp : (forwardOf setting.order
      (DottedQuad.ofAddress setting.server).text packet).clientIp =
        setting.client := hpacket.source_eq
  have hconnected : (forwardOf setting.order
      (DottedQuad.ofAddress setting.server).text packet).destIp =
        (DottedQuad.ofAddress setting.dest).text := by
    have hshown : u32 setting.order packet 22 = setting.dest := hpacket.dest_eq
    rw [forwardOf, hshown, parseIpAddrToStr_eq]
  rw [hclientIp] at hclient hclientShows
  refine ⟨⟨setting.client, (DottedQuad.ofAddress setting.dest).text, destPacket,
    _, clientPacket⟩, ?_, rfl, rfl, hdestShows, hresponse, hclientShows, ?_⟩
  · simp only [run, hstart, connected, hdest, hreceived, hclient,
      Option.bind_eq_bind, Option.bind_some, hclientIp, hconnected]
    rfl
  · intro block
    rw [hgre, slice_packetEncapsulate]

/-- The run of the three programs between the first three hosts. -/
def hostsSetting : Setting where
  order := .little
  key := key
  client := h1.address
  server := h2.address
  dest := h3.address
  request := requestPayload
  requestFlags := tcpFlagSyn
  response := responseMsg
  responseFlags := tcpFlagAck
  clientHeap := .zeros
  serverHeap := .zeros
  destHeap := .zeros
  clientFd := 3
  requestCount := 53
  forwardCount := 168
  responseCount := 72
  replyCount := 72

theorem run_hostsSetting :
    ∃ outcome, run hostsSetting = some outcome ∧
      AddressInvariant hostsSetting outcome :=
  run_addressInvariant hostsSetting
    ⟨by decide, by decide, by decide, by decide⟩

end SimpleVpn.Exchange
