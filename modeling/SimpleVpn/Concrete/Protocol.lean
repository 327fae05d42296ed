import SimpleVpn.Core.HostWords

/-!
# Constants and header layouts (`protocol.h`)

The headers are packed structs, so every field has a fixed offset from the start
of its header.  A packet is a GRE header, an IP header, a TCP header and a
payload area, one after the other.
-/

namespace SimpleVpn.Protocol

def port : UInt16 := 17350

def ipVersion : UInt8 := 4

def maxPayloadSize : ℕ := 128

def ipProtocolTcp : UInt8 := 0x06

def ethertypeIpv4 : UInt16 := 0x0800

def tcpFlagAck : UInt8 := 0x16

def tcpFlagSyn : UInt8 := 0x02

def sizeofGreHdr : ℕ := 6

def sizeofIpHdr : ℕ := 20

def sizeofTcpHdr : ℕ := 20

def greC : ℕ := 0

def greProtocol : ℕ := 2

def greSum : ℕ := 4

/-- The byte that holds the bit fields `ip_hl` and `ip_v`. -/
def ipHlV : ℕ := 0

def ipLen : ℕ := 2

def ipP : ℕ := 9

def ipSum : ℕ := 10

def ipSrc : ℕ := 12

def ipDst : ℕ := 16

def tcpSrcPort : ℕ := 0

def tcpDstPort : ℕ := 2

def tcpFlags : ℕ := 13

def tcpSum : ℕ := 16

def getGreHdr (packetStart : ℕ) : ℕ := packetStart

def getIpHdr (packetStart : ℕ) : ℕ := packetStart + sizeofGreHdr

def getTcpHdr (packetStart : ℕ) : ℕ := packetStart + sizeofGreHdr + sizeofIpHdr

def getPayload (packetStart : ℕ) : ℕ :=
  packetStart + sizeofGreHdr + sizeofIpHdr + sizeofTcpHdr

/-- The size of the buffers that receive a packet with its GRE header. -/
def encapsulatedSize : ℕ :=
  sizeofGreHdr + sizeofIpHdr + sizeofTcpHdr + maxPayloadSize

/-- The size of a packet without its GRE header. -/
def decapsulatedSize : ℕ := sizeofIpHdr + sizeofTcpHdr + maxPayloadSize

end SimpleVpn.Protocol
