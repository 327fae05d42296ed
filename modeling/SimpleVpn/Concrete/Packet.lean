import Mathlib.Data.Fin.VecNotation
import SimpleVpn.Core.CStrings
import SimpleVpn.Algebra.Keystream
import SimpleVpn.Concrete.HostInfo
import SimpleVpn.Concrete.Protocol
import SimpleVpn.Concrete.Utils

/-!
# Packets (`packet.c`, `encap.c`, `decap.c`, `encrypt.c`)

The functions that build, encipher, transmit, receive and rewrite a packet.  A
pointer into a packet is an offset from the start of its block.  A function that
writes through a pointer returns the block it wrote, and one that calls `send`
returns the bytes it hands over.  A call of `recv` is given its outcome: `none`
for an error, and otherwise the bytes that were delivered.
-/

namespace SimpleVpn.Packet

open SimpleVpn.TracedMemory SimpleVpn.HostWords SimpleVpn.CStrings
open SimpleVpn.Keystream SimpleVpn.HostInfo SimpleVpn.Protocol SimpleVpn.Utils

/-- The key shared by client and server. -/
abbrev Key := Fin 4 → UInt8

/-- The length of the key is not zero. -/
instance neZero_keyLength : NeZero 4 := ⟨by decide⟩

/-- The key of `encrypt.c`. -/
def key : Key := ![0x12, 0x34, 0x56, 0x78]

def xorEncryptDecrypt (key : Key) (input output : Block) (length : ℕ) :
    Traced Block :=
  forRange (fun i output => do
    let byte ← load input i
    store output i (byte ^^^ keystream key i)) output length

def packetDecapsulate (packet : ℕ) : ℕ := packet + sizeofGreHdr

def packetEncapsulate (order : ByteOrder) (packet : Block) : Traced Block := do
  let greHdr := getGreHdr 0
  let packet ← storeU16 order packet (greHdr + greC) (htons order 1)
  let packet ← storeU16 order packet (greHdr + greProtocol)
    (htons order ethertypeIpv4)
  let packet ← storeU16 order packet (greHdr + greSum) 0
  let sum ← cksum order packet greHdr sizeofGreHdr
  storeU16 order packet (greHdr + greSum) (htons order sum)

/-- The size is computed in 8 bits; an unknown protocol gives `(uint8_t)-1`. -/
def getPacketSize (ipProtocol payloadSize : UInt8) : UInt8 :=
  if ipProtocol = ipProtocolTcp then
    UInt8.ofNat
      (payloadSize.toNat + sizeofTcpHdr + sizeofGreHdr + sizeofIpHdr)
  else 255

/-- `ip_v` is the high half of its byte for both byte orders: on a little-endian
host it is declared second and bit fields grow upwards, on a big-endian host it
is declared first and they grow downwards. -/
def setIp (order : ByteOrder) (packet : Block) (ip : ℕ)
    (ipDest ipHost : List UInt8) (ipProtocol payloadSize : UInt8) :
    Traced Block := do
  let hlV ← load packet (ip + ipHlV)
  let packet ← store packet (ip + ipHlV)
    ((hlV &&& 0x0f) ||| (ipVersion <<< (4 : UInt8)))
  let packet ← storeU16 order packet (ip + ipLen)
    (htons order (UInt16.ofNat (payloadSize.toNat + sizeofIpHdr)))
  let packet ← store packet (ip + ipP) ipProtocol
  let packet ← storeU32 order packet (ip + ipSrc) (parseIpAddr ipHost)
  let packet ← storeU32 order packet (ip + ipDst) (parseIpAddr ipDest)
  let packet ← storeU16 order packet (ip + ipSum) 0
  let sum ← cksum order packet ip sizeofIpHdr
  storeU16 order packet (ip + ipSum) (htons order sum)

def setTcp (order : ByteOrder) (packet : Block) (tcp : ℕ) (flags : UInt8) :
    Traced Block := do
  let packet ← storeU16 order packet (tcp + tcpSrcPort) (htons order port)
  let packet ← storeU16 order packet (tcp + tcpDstPort) (htons order port)
  let packet ← store packet (tcp + tcpFlags) flags
  let sum ← cksum order packet tcp sizeofTcpHdr
  storeU16 order packet (tcp + tcpSum) (htons order sum)

/-- `payload_length` once it is clamped. -/
def clampLength (length : ℤ) : ℤ :=
  if length > maxPayloadSize - 1 then maxPayloadSize - 1 else length

/-- The common part of `create_packets` and `create_packets_des`: the headers,
the copy of the payload and its terminator. -/
def fillPacket (order : ByteOrder) (newPacket : Block)
    (ipSrc ipDest : List UInt8) (ipProtocol : UInt8) (payload : List UInt8)
    (flags : UInt8) : Traced Block := do
  let payloadSize := UInt8.ofNat maxPayloadSize
  let newPacket ← packetEncapsulate order newPacket
  let newPacket ← setIp order newPacket (getIpHdr 0) ipDest ipSrc ipProtocol
    payloadSize
  let newPacket ← setTcp order newPacket (getTcpHdr 0) flags
  let payloadLength := toInt32 payload.length
  let newPacket ← strncpy newPacket (getPayload 0) payload
    (toSize payloadLength)
  store newPacket (offsetBy (getPayload 0) (clampLength payloadLength)) 0

def createPackets (order : ByteOrder) (heap : Heap) (key : Key)
    (ipSrc ipDest : List UInt8) (ipProtocol : UInt8) (payload : List UInt8)
    (flags : UInt8) : Traced Block := do
  let packetSize := (getPacketSize ipProtocol (UInt8.ofNat maxPayloadSize)).toNat
  let newPacket := calloc (heap 0) packetSize
  let encryptPacket := calloc (heap 1) packetSize
  let newPacket ← fillPacket order newPacket ipSrc ipDest ipProtocol payload flags
  let payloadLength := clampLength (toInt32 payload.length)
  let encryptPacket ← xorEncryptDecrypt key newPacket encryptPacket packetSize
  store encryptPacket (offsetBy (getPayload 0) payloadLength) 0

def createPacketsDes (order : ByteOrder) (heap : Heap)
    (ipSrc ipDest : List UInt8) (ipProtocol : UInt8) (payload : List UInt8)
    (flags : UInt8) : Traced Block :=
  let packetSize := (getPacketSize ipProtocol (UInt8.ofNat maxPayloadSize)).toNat
  let newPacket := calloc (heap 0) packetSize
  fillPacket order newPacket ipSrc ipDest ipProtocol payload flags

/-- The bytes `send_and_free_packet_vpn` hands to `send`. -/
def sendAndFreePacketVpn (packetToSend : Block) (ipProtocol payloadSize : UInt8) :
    Traced (List UInt8) :=
  let packLen := (getPacketSize ipProtocol payloadSize).toNat
  loadBytes packetToSend 0 packLen

/-- The bytes `serv_cli_encrypt_free` hands to `send`. -/
def servCliEncryptFree (heap : Heap) (key : Key) (packetToSend : Block)
    (ipProtocol payloadSize : UInt8) : Traced (List UInt8) := do
  let packLen := (getPacketSize ipProtocol payloadSize).toNat
  let encryptPacket := calloc (heap 0) packLen
  let encryptPacket ← xorEncryptDecrypt key packetToSend encryptPacket packLen
  let encryptPacket ← store encryptPacket (getPayload 0 + payloadSize.toNat) 0
  loadBytes encryptPacket 0 packLen

/-- A successful `recv` writes the delivered bytes, and never more than it was
asked for. -/
def recv (buffer : Block) (size : ℕ) (delivered : List UInt8) : Traced Block :=
  storeBytes buffer 0 delivered (min delivered.length size)

def servRecFromCli (heap : Heap) (key : Key) (received : Option (List UInt8)) :
    Traced (Option Block) := do
  let pktSize := encapsulatedSize
  let newRecPkt := calloc (heap 0) pktSize
  match received with
  | none => pure none
  | some delivered => do
      let newRecPkt ← recv newRecPkt pktSize delivered
      let len ← strlen newRecPkt (getPayload 0)
      let decryptPacket := calloc (heap 1) pktSize
      let decryptPacket ← xorEncryptDecrypt key newRecPkt decryptPacket pktSize
      let len := clampLength (toInt32 len)
      let decryptPacket ← store decryptPacket (offsetBy (getPayload 0) len) 0
      pure (some decryptPacket)

def servRecFromDes (heap : Heap) (received : Option (List UInt8)) :
    Traced (Option Block) := do
  let pktSize := encapsulatedSize
  let newRecPkt := calloc (heap 0) pktSize
  match received with
  | none => pure none
  | some delivered => do
      let newRecPkt ← recv newRecPkt pktSize delivered
      pure (some newRecPkt)

def destRecPkt (heap : Heap) (received : Option (List UInt8)) :
    Traced (Option Block) := do
  let pktSize := decapsulatedSize
  let newRecPkt := calloc (heap 0) pktSize
  match received with
  | none => pure none
  | some delivered => do
      let newRecPkt ← recv newRecPkt pktSize delivered
      pure (some newRecPkt)

/-- `temp = f(field); field = 0; field = temp;` for a 16-bit field. -/
def convertU16 (order : ByteOrder) (convert : UInt16 → UInt16) (packet : Block)
    (field : ℕ) : Traced Block := do
  let value ← loadU16 order packet field
  let temp := convert value
  let packet ← storeU16 order packet field 0
  storeU16 order packet field temp

/-- `temp = f(field); field = 0; field = temp;` for a 32-bit field. -/
def convertU32 (order : ByteOrder) (convert : UInt32 → UInt32) (packet : Block)
    (field : ℕ) : Traced Block := do
  let value ← loadU32 order packet field
  let temp := convert value
  let packet ← storeU32 order packet field 0
  storeU32 order packet field temp

/-- The first half of a rewrite: the length and both addresses reversed in
place, with the replaced address already in its field. -/
def reverseFields (order : ByteOrder) (packet : Block) (own other : ℕ)
    (ipAddr : List UInt8) : Traced Block := do
  let fixedIp := getIpHdr 0
  let packet ← convertU16 order (ntohs order) packet (fixedIp + ipLen)
  let tempAddr := parseIpAddr ipAddr
  let packet ← storeU32 order packet (fixedIp + own) 0
  let packet ← storeU32 order packet (fixedIp + own) (ntohl order tempAddr)
  convertU32 order (ntohl order) packet (fixedIp + other)

/-- The second half of a rewrite: the same fields reversed back. -/
def restoreFields (order : ByteOrder) (packet : Block) (own other : ℕ) :
    Traced Block := do
  let fixedIp := getIpHdr 0
  let packet ← convertU32 order (htonl order) packet (fixedIp + own)
  let packet ← convertU32 order (htonl order) packet (fixedIp + other)
  convertU16 order (htons order) packet (fixedIp + ipLen)

/-- The body shared by `serv_handle_pkt` and `serv_handle_pkt_dest`: `own` is
the address field that is replaced, `other` the one that is kept.  The checksum
is taken while the fields are reversed. -/
def rewriteAddress (order : ByteOrder) (packet : Block) (own other : ℕ)
    (ipAddr : List UInt8) : Traced (Block × ℕ) := do
  let fixedPkt := packetDecapsulate 0
  let fixedIp := getIpHdr 0
  let packet ← reverseFields order packet own other ipAddr
  let packet ← storeU16 order packet (fixedIp + ipSum) 0
  let sum ← cksum order packet fixedIp sizeofIpHdr
  let packet ← storeU16 order packet (fixedIp + ipSum) (htons order sum)
  let packet ← restoreFields order packet own other
  pure (packet, fixedPkt)

/-- The packet after the rewrite, and the pointer past its GRE header. -/
def servHandlePkt (order : ByteOrder) (packet : Block) (serverIp : List UInt8) :
    Traced (Block × ℕ) :=
  rewriteAddress order packet ipSrc ipDst serverIp

def servHandlePktDest (order : ByteOrder) (packet : Block)
    (serverIp : List UInt8) : Traced (Block × ℕ) :=
  rewriteAddress order packet ipDst ipSrc serverIp

def saveClientIp (order : ByteOrder) (packet : Block) : Traced UInt32 :=
  loadU32 order packet (sizeofGreHdr + ipSrc)

end SimpleVpn.Packet
