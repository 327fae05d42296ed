import SimpleVpn.Concrete.Packet

/-!
# The three programs (`client.c`, `server.c`, `destination.c`)

The stretches of the three `main` functions that handle packets, cut where they
wait on a socket.  The host names and messages that the mains fix are arguments
here, and so are the outcomes of the socket calls.
-/

namespace SimpleVpn.Programs

open SimpleVpn.TracedMemory SimpleVpn.HostWords SimpleVpn.CStrings
open SimpleVpn.HostInfo SimpleVpn.Protocol SimpleVpn.Packet

/-- The client's request: the bytes it hands to `send`. -/
def clientRequest (order : ByteOrder) (heap : Heap) (key : Key)
    (clientIp destIp payload : List UInt8) (flags : UInt8) :
    Traced (List UInt8) := do
  let packet ← createPackets order heap key clientIp destIp ipProtocolTcp payload
    flags
  sendAndFreePacketVpn packet ipProtocolTcp (UInt8.ofNat payload.length)

/-- What the server holds when it calls `connect_to_server`. -/
structure Forward where
  clientIp : UInt32
  recPacket : Block
  fixedPkt : ℕ
  destIp : List UInt8

/-- The server's `main` up to the call of `connect_to_server`. -/
inductive ServerStart
  | stopped
  | connecting (forward : Forward)

/-- The connection the server asks for, if it gets that far. -/
def connected : ServerStart → Option Forward
  | .stopped => none
  | .connecting forward => some forward

/-- From `serv_rec_from_cli` to `connect_to_server`.  `clientFd` is the result
of `create_client_socket`, with `none` for -1. -/
def serverStart (order : ByteOrder) (heap : Heap) (key : Key)
    (serverIp : List UInt8) (received : Option (List UInt8))
    (clientFd : Option ℕ) : Traced ServerStart := do
  let recPacket ← servRecFromCli heap key received
  match recPacket with
  | none => pure .stopped
  | some recPacket => do
      let clientIp ← saveClientIp order recPacket
      let (recPacket, fixedPkt) ← servHandlePkt order recPacket serverIp
      match clientFd with
      | none => pure .stopped
      | some _ => do
          let ipDst ← loadU32 order recPacket (fixedPkt + ipDst)
          let destIp := parseIpAddrToStr ipDst
          pure (.connecting { clientIp, recPacket, fixedPkt, destIp })

/-- The bytes the server hands to `send` once it is connected. -/
def serverForward (forward : Forward) : Traced (List UInt8) :=
  let packLen := maxPayloadSize + sizeofTcpHdr + sizeofIpHdr
  loadBytes forward.recPacket forward.fixedPkt packLen

/-- What the destination sent, behind a fresh GRE header and addressed to the
client. -/
def serverWrap (order : ByteOrder) (heap : Heap) (clientIp : UInt32)
    (recPacketDest : Block) : Traced Block := do
  let packetSize := UInt8.ofNat
    (maxPayloadSize + sizeofTcpHdr + sizeofGreHdr + sizeofIpHdr)
  let encPkt := calloc (heap 0) packetSize.toNat
  let encPkt ← packetEncapsulate order encPkt
  let encPkt ← memcpy encPkt sizeofGreHdr recPacketDest 0
    (sizeofIpHdr + sizeofTcpHdr + maxPayloadSize)
  let clientStrIp := parseIpAddrToStr clientIp
  let (encPkt, _) ← servHandlePktDest order encPkt clientStrIp
  pure encPkt

/-- From `serv_rec_from_des` to `serv_cli_encrypt_free`: the bytes the server
hands to `send` for the client. -/
def serverReply (order : ByteOrder) (heap : Heap) (key : Key)
    (clientIp : UInt32) (recPacketDest : Block) : Traced (List UInt8) := do
  let encPkt ← serverWrap order heap clientIp recPacketDest
  let payloadSize ← strlen encPkt (sizeofGreHdr + sizeofIpHdr + sizeofTcpHdr)
  servCliEncryptFree (heap.after 1) key encPkt ipProtocolTcp
    (UInt8.ofNat payloadSize)

/-- The destination's response: the bytes it hands to `send`.  The packet loses
its GRE header by starting 6 bytes later, while the size still counts it. -/
def destinationResponse (order : ByteOrder) (heap : Heap)
    (hostIp clientIpStr responseMsg : List UInt8) (flags : UInt8) :
    Traced (List UInt8) := do
  let responsePkt ← createPacketsDes order heap hostIp clientIpStr ipProtocolTcp
    responseMsg flags
  let fixedPkt := packetDecapsulate 0
  let packLen := (getPacketSize ipProtocolTcp
    (UInt8.ofNat responseMsg.length)).toNat
  loadBytes responsePkt fixedPkt packLen

/-- From the packet received to the response: it goes to the sender's address.
-/
def destinationReply (order : ByteOrder) (heap : Heap)
    (hostIp : List UInt8) (recPacket : Block) (responseMsg : List UInt8)
    (flags : UInt8) : Traced (List UInt8) := do
  let ipSrc ← loadU32 order recPacket ipSrc
  let clientIpStr := parseIpAddrToStr ipSrc
  destinationResponse order heap hostIp clientIpStr responseMsg flags

end SimpleVpn.Programs
