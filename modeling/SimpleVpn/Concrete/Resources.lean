import SimpleVpn.Core.Lifetimes
import SimpleVpn.Concrete.AddressScan
import SimpleVpn.Concrete.Mains
import SimpleVpn.Concrete.Printing

/-!
# The three `main` functions with their memory and sockets

The same programs with everything that `Mains` leaves out: where blocks are
allocated and freed, where sockets are opened and closed, and every access to a
byte of a block.  A pointer is a block together with the name of its allocation,
the variable that first holds its address, and every access made through it is
recorded under this name.  Allocations succeed, and an access outside its block is
recorded like any other and ends nothing.
-/

namespace SimpleVpn.Resources

open SimpleVpn.TracedMemory SimpleVpn.HostWords SimpleVpn.CStrings
open SimpleVpn.Processes SimpleVpn.Lifetimes SimpleVpn.HostInfo
open SimpleVpn.AddressScan SimpleVpn.Protocol SimpleVpn.Packet SimpleVpn.Programs
open SimpleVpn.Mains

/-- What `malloc` and `calloc` return. -/
inductive Allocation
  | newPacket
  | encryptPacket
  | newRecPkt
  | decryptPacket
  | ipSrcStr
  | ipDstStr
  | destIp
  | encPkt
  | clientStrIp
  | clientIpStr
  deriving DecidableEq

/-- What `socket` and `accept` return; the listening socket is `server_fd` in the
server and `dest_fd` in the destination. -/
inductive Socket
  | clientFd
  | listeningFd
  | newSocket
  deriving DecidableEq

inductive Resource
  | block (allocation : Allocation)
  | socket (socket : Socket)
  deriving DecidableEq

/-- An access to a byte is made through the allocation that it names. -/
inductive Step
  | shows (event : Event)
  | manages (operation : Operation Resource)
  | accesses (allocation : Allocation) (access : Access)

abbrev FullProgram := Process Step Stop

def Step.shown : Step → Option Event
  | .shows event => some event
  | _ => none

/-- An access uses the block that it is made through. -/
def Step.operation : Step → Option (Operation Resource)
  | .shows _ => none
  | .manages operation => some operation
  | .accesses allocation _ => some (.use (.block allocation))

/-- Where a pointer leads: a block, and the allocation that it comes from. -/
structure Target where
  allocation : Allocation
  block : Block

/-- An open descriptor. -/
structure Descriptor where
  socket : Socket
  fd : ℕ

section Steps

variable {A : Type}

/-- A part of a program that has nothing to do with resources. -/
def shows (run : Program A) : FullProgram A :=
  ⟨run.events.map .shows, run.outcome⟩

/-- `calloc`, and `malloc` where what the block contains does not matter. -/
def allocate (allocation : Allocation) (around : Surroundings) (size : ℕ) :
    FullProgram Target := do
  emit (.manages (.acquire (.block allocation)))
  pure ⟨allocation, calloc around size⟩

/-- `free`, which does nothing with a null pointer. -/
def free : Option Target → FullProgram Unit
  | none => pure ()
  | some target => emit (.manages (.release (.block target.allocation)))

/-- A function that works on one block. -/
def access (target : Target) (run : Block → Traced A) : FullProgram A :=
  ⟨(run target.block).trace.map (.accesses target.allocation),
    .ok (run target.block).value⟩

/-- A function that works on one block and writes it. -/
def update (target : Target) (run : Block → Traced Block) : FullProgram Target := do
  let block ← access target run
  pure { target with block }

/-- `for (i = 0; i < count; ++i)` with the loop's variables as a state. -/
def forRange (body : ℕ → A → FullProgram A) (start : A) : ℕ → FullProgram A
  | 0 => pure start
  | count + 1 => do
      let state ← forRange body start count
      body count state

def openSocket (socket : Socket) (fd : ℕ) : FullProgram Descriptor := do
  emit (.manages (.acquire (.socket socket)))
  pure ⟨socket, fd⟩

def close (descriptor : Descriptor) : FullProgram Unit :=
  emit (.manages (.release (.socket descriptor.socket)))

/-- A call on a socket. -/
def onSocket (descriptor : Descriptor) (run : Program A) : FullProgram A := do
  emit (.manages (.use (.socket descriptor.socket)))
  shows run

end Steps

/-- `memcpy` between two blocks. -/
def memcpy (target : Target) (start : ℕ) (source : Target) (origin count : ℕ) :
    FullProgram Target :=
  forRange (fun index target => do
    let value ← access source (load · (origin + index))
    update target (store · (start + index) value)) target count

def xorEncryptDecrypt (key : Key) (input output : Target) (length : ℕ) :
    FullProgram Target :=
  forRange (fun i output => do
    let byte ← access input (load · i)
    update output (store · i (byte ^^^ Keystream.keystream key i))) output length

/-- `malloc(4 * 4)`: the buffer is written before it is read. -/
def allocateString (allocation : Allocation) : FullProgram Target :=
  allocate allocation (Heap.zeros 0) 16

def parseIpAddrToStr (strIpAddr : Target) (ipAddr : UInt32) : FullProgram Target :=
  update strIpAddr (writeIpAddr · ipAddr)

/-- The string at the start of a block. -/
def stringOf (block : Block) : Traced (List UInt8) := do
  let length ← strlen block 0
  loadBytes block 0 length

def readString (string : Target) : FullProgram (List UInt8) :=
  access string stringOf

/-- The IP header is printed with both addresses in buffers of their own. -/
def printIpHeader (order : ByteOrder) (packet : Target) (ipHeader : ℕ) :
    FullProgram Unit := do
  let ipSrcStr ← allocateString .ipSrcStr
  let ipDstStr ← allocateString .ipDstStr
  let src ← access packet (loadU32 order · (ipHeader + ipSrc))
  let ipSrcStr ← parseIpAddrToStr ipSrcStr src
  let dst ← access packet (loadU32 order · (ipHeader + ipDst))
  let ipDstStr ← parseIpAddrToStr ipDstStr dst
  let _ ← access packet (Printing.printIpFields order · ipHeader)
  let _ ← readString ipSrcStr
  let _ ← readString ipDstStr
  free ipSrcStr
  free ipDstStr

def printPacket (order : ByteOrder) (packetStart : Option Target) :
    FullProgram Unit := do
  let packet ← shows (deref packetStart)
  let _ ← access packet (Printing.printGreHeader order · 0)
  printIpHeader order packet (getIpHdr 0)
  let _ ← access packet (Printing.printTcpHeader order · 0)
  let _ ← access packet (Printing.printPayload · 0)
  emit (.shows (.printed packet.block 0))

def printPacketUnencap (order : ByteOrder) (packet : Target) (packetStart : ℕ) :
    FullProgram Unit := do
  printIpHeader order packet packetStart
  let _ ← access packet
    (Printing.printTcpFields order · (packetStart + sizeofIpHdr))
  let _ ← access packet
    (Printing.printPayloadFrom · (packetStart + sizeofIpHdr + sizeofTcpHdr))
  emit (.shows (.printed packet.block packetStart))

def createPackets (order : ByteOrder) (heap : Heap) (key : Key)
    (ipSrc ipDest : List UInt8) (ipProtocol : UInt8) (payload : List UInt8)
    (flags : UInt8) : FullProgram Target := do
  let packetSize := (getPacketSize ipProtocol (UInt8.ofNat maxPayloadSize)).toNat
  let newPacket ← allocate .newPacket (heap 0) packetSize
  let encryptPacket ← allocate .encryptPacket (heap 1) packetSize
  let newPacket ← update newPacket
    (fillPacket order · ipSrc ipDest ipProtocol payload flags)
  let payloadLength := clampLength (toInt32 payload.length)
  let encryptPacket ← xorEncryptDecrypt key newPacket encryptPacket packetSize
  let encryptPacket ← update encryptPacket
    (store · (offsetBy (getPayload 0) payloadLength) 0)
  free newPacket
  pure encryptPacket

/-- The destination gives the receiver's address in a buffer. -/
def createPacketsDes (order : ByteOrder) (heap : Heap) (ipSrc : List UInt8)
    (ipDest : Target) (ipProtocol : UInt8) (payload : List UInt8)
    (flags : UInt8) : FullProgram Target := do
  let packetSize := (getPacketSize ipProtocol (UInt8.ofNat maxPayloadSize)).toNat
  let newPacket ← allocate .newPacket (heap 0) packetSize
  let ipDest ← readString ipDest
  update newPacket (fillPacket order · ipSrc ipDest ipProtocol payload flags)

/-- `send` on a socket. -/
def send (socket : Descriptor) (bytes : List UInt8) (succeeds : Bool) :
    FullProgram Bool :=
  onSocket socket (Mains.send socket.fd bytes succeeds)

/-- The packet is freed only when it was sent. -/
def sendAndFreePacketVpn (socket : Descriptor) (packetToSend : Target)
    (ipProtocol payloadSize : UInt8) (succeeds : Bool) : FullProgram Bool := do
  let bytes ← access packetToSend
    (Packet.sendAndFreePacketVpn · ipProtocol payloadSize)
  let sent ← send socket bytes succeeds
  if sent then do
    free packetToSend
    pure true
  else pure false

/-- `encrypt_payload[payload_size] = 0`. -/
def storeTerminator (encryptPacket : Target) (payloadSize : UInt8) :
    FullProgram Target :=
  update encryptPacket (store · (getPayload 0 + payloadSize.toNat) 0)

/-- Both packets are freed only when the reply was sent. -/
def servCliEncryptFree (socket : Descriptor) (heap : Heap) (key : Key)
    (packetToSend : Target) (ipProtocol payloadSize : UInt8) (succeeds : Bool) :
    FullProgram Unit := do
  let packLen := (getPacketSize ipProtocol payloadSize).toNat
  let encryptPacket ← allocate .encryptPacket (heap 0) packLen
  let encryptPacket ← xorEncryptDecrypt key packetToSend encryptPacket packLen
  let encryptPacket ← storeTerminator encryptPacket payloadSize
  let bytes ← access encryptPacket (loadBytes · 0 packLen)
  let sent ← send socket bytes succeeds
  if sent then do
    free packetToSend
    free encryptPacket
  else pure ()

/-- The call of `recv`, with its outcome. -/
def receive (socket : Descriptor) (size : ℕ) (received : Option (List UInt8)) :
    FullProgram Unit :=
  onSocket socket (emit (.called (.recv socket.fd size) received.isSome))

/-- The receive buffer is freed only when `recv` succeeded. -/
def servRecFromCli (socket : Descriptor) (heap : Heap) (key : Key)
    (received : Option (List UInt8)) : FullProgram (Option Target) := do
  let pktSize := encapsulatedSize
  let newRecPkt ← allocate .newRecPkt (heap 0) pktSize
  receive socket pktSize received
  match received with
  | none => pure none
  | some delivered => do
      let newRecPkt ← update newRecPkt (recv · pktSize delivered)
      let len ← access newRecPkt (strlen · (getPayload 0))
      let decryptPacket ← allocate .decryptPacket (heap 1) pktSize
      let decryptPacket ← xorEncryptDecrypt key newRecPkt decryptPacket pktSize
      let len := clampLength (toInt32 len)
      let decryptPacket ← update decryptPacket
        (store · (offsetBy (getPayload 0) len) 0)
      free newRecPkt
      pure (some decryptPacket)

/-- `serv_rec_from_des` and `dest_rec_pkt` differ in the size only. -/
def receiveInto (socket : Descriptor) (heap : Heap) (pktSize : ℕ)
    (received : Option (List UInt8)) : FullProgram (Option Target) := do
  let newRecPkt ← allocate .newRecPkt (heap 0) pktSize
  receive socket pktSize received
  match received with
  | none => pure none
  | some delivered => do
      let newRecPkt ← update newRecPkt (recv · pktSize delivered)
      pure (some newRecPkt)

def servRecFromDes (socket : Descriptor) (heap : Heap)
    (received : Option (List UInt8)) : FullProgram (Option Target) :=
  receiveInto socket heap encapsulatedSize received

def destRecPkt (socket : Descriptor) (heap : Heap)
    (received : Option (List UInt8)) : FullProgram (Option Target) :=
  receiveInto socket heap decapsulatedSize received

def servHandlePkt (order : ByteOrder) (packet : Target) (serverIp : List UInt8) :
    FullProgram (Target × ℕ) := do
  let (block, fixedPkt) ← access packet (Packet.servHandlePkt order · serverIp)
  pure ({ packet with block }, fixedPkt)

/-- The server gives the client's address in a buffer. -/
def servHandlePktDest (order : ByteOrder) (packet serverIp : Target) :
    FullProgram (Target × ℕ) := do
  let serverIp ← readString serverIp
  let (block, fixedPkt) ← access packet
    (Packet.servHandlePktDest order · serverIp)
  pure ({ packet with block }, fixedPkt)

/-- The program ends when there is no descriptor. -/
def requireFd (socket : Socket) (call : Call) (fd : Option ℕ)
    (text : List UInt8) : FullProgram Descriptor := do
  let fd ← shows (Mains.requireFd call fd text)
  openSocket socket fd

/-- A socket that is set up stays open when a later call fails. -/
def createListeningSocket (listener : Listener) : FullProgram Descriptor := do
  let fd ← requireFd .listeningFd .socket listener.socket (chars "socket failed")
  onSocket fd (require .setsockopt listener.setsockopt (chars "setsockopt"))
  onSocket fd (require .bind listener.bind (chars "bind failed"))
  onSocket fd (require .listen listener.listen (chars "listen"))
  pure fd

def acceptConnection (listeningFd : Descriptor) (newSocket : Option ℕ) :
    FullProgram Descriptor := do
  emit (.manages (.use (.socket listeningFd.socket)))
  requireFd .newSocket .accept newSocket (chars "accept")

def createClientSocket (clientFd : Option ℕ) : FullProgram (Option Descriptor) := do
  let clientFd ← shows (Mains.createClientSocket clientFd)
  match clientFd with
  | none => pure none
  | some clientFd => do
      let clientFd ← openSocket .clientFd clientFd
      pure (some clientFd)

/-- The address is a string of the program or one in a buffer. -/
def connectToServer (clientFd : Descriptor) (serverIp : FullProgram (List UInt8))
    (converts connects : Bool) : FullProgram Bool := do
  let serverIp ← serverIp
  onSocket clientFd (Mains.connectToServer serverIp converts connects)

def clientReceive (run : ClientRun) (clientFd : Descriptor) :
    FullProgram Unit := do
  let respPkt ← servRecFromCli clientFd (run.heap.after 2) run.key run.response
  printPacket run.order respPkt
  free respPkt
  close clientFd
  stop (.exited 0)

def clientExchange (run : ClientRun) (hosts : ClientHosts)
    (clientFd : Descriptor) : FullProgram Unit := do
  emit (.shows (.noted (chars "Checking before create packet.\n")))
  let payload := chars "payload"
  let packet ← createPackets run.order run.heap run.key hosts.clientIp hosts.destIp
    ipProtocolTcp payload tcpFlagSyn
  printPacket run.order packet
  let sent ← sendAndFreePacketVpn clientFd packet ipProtocolTcp
    (UInt8.ofNat payload.length) run.sends
  if sent then pure ()
  else emit (.shows (.reported (chars
    "Error during sending packet to the server via socket.\n")))
  clientReceive run clientFd

/-- `main` of `client.c`. -/
def clientMain (run : ClientRun) : FullProgram Unit := do
  let hosts ← shows (clientHosts run.argv run.destHostName)
  let clientFd ← createClientSocket run.socket
  match clientFd with
  | none => stop (.exited (-1))
  | some clientFd => do
      let connected ← connectToServer clientFd (pure hosts.serverIp) run.converts
        run.connects
      if connected then clientExchange run hosts clientFd
      else do
        close clientFd
        stop (.exited (-1))

/-- `memcpy` reads through the pointer that `serv_rec_from_des` returned. -/
def serverAnswer (run : ServerRun) (serverFd newSocket clientFd : Descriptor)
    (clientIp : UInt32) : FullProgram Unit := do
  let recPacketDest ← servRecFromDes clientFd (run.heap.after 2) run.response
  let packetSize := UInt8.ofNat
    (maxPayloadSize + sizeofTcpHdr + sizeofGreHdr + sizeofIpHdr)
  let encPkt ← allocate .encPkt ((run.heap.after 3) 0) packetSize.toNat
  let encPkt ← update encPkt (packetEncapsulate run.order)
  let recPacketDest ← shows (deref recPacketDest)
  let encPkt ← memcpy encPkt sizeofGreHdr recPacketDest 0
    (sizeofIpHdr + sizeofTcpHdr + maxPayloadSize)
  let clientStrIp ← allocateString .clientStrIp
  let clientStrIp ← parseIpAddrToStr clientStrIp clientIp
  let (encPkt, _) ← servHandlePktDest run.order encPkt clientStrIp
  printPacket run.order encPkt
  let payloadSize ← access encPkt
    (strlen · (sizeofGreHdr + sizeofIpHdr + sizeofTcpHdr))
  servCliEncryptFree newSocket ((run.heap.after 3).after 1) run.key encPkt
    ipProtocolTcp (UInt8.ofNat payloadSize) run.replies
  free recPacketDest
  free clientStrIp
  close newSocket
  -- `shutdown` does not close the descriptor.
  onSocket serverFd (pure ())
  stop (.exited 0)

def serverHandle (run : ServerRun) (serverIp : List UInt8)
    (serverFd newSocket : Descriptor) (recPacket : Target) : FullProgram Unit := do
  printPacket run.order recPacket
  let clientIp ← access recPacket (saveClientIp run.order)
  let (recPacket, fixedPkt) ← servHandlePkt run.order recPacket serverIp
  let clientFd ← createClientSocket run.socket
  match clientFd with
  | none => stop (.exited (-1))
  | some clientFd => do
      let destIp ← allocateString .destIp
      let ipDst ← access recPacket (loadU32 run.order · (fixedPkt + ipDst))
      let destIp ← parseIpAddrToStr destIp ipDst
      let connected ← connectToServer clientFd (readString destIp) run.converts
        run.connects
      if connected then do
        free destIp
        let packLen := maxPayloadSize + sizeofTcpHdr + sizeofIpHdr
        let bytes ← access recPacket (loadBytes · fixedPkt packLen)
        let sent ← send clientFd bytes run.forwards
        if sent then do
          free recPacket
          emit (.shows (.noted (chars ("---Packet sent to the destination. " ++
            "Waiting for a response.---\n"))))
          serverAnswer run serverFd newSocket clientFd clientIp
        else
          shows (giveUp (chars
            "Error during sending packet to the server via socket.\n") (-1))
      else do
        close clientFd
        stop (.exited (-1))

def serverServe (run : ServerRun) (serverIp : List UInt8)
    (serverFd newSocket : Descriptor) : FullProgram Unit := do
  let recPacket ← servRecFromCli newSocket run.heap run.key run.request
  match recPacket with
  | none =>
      shows (giveUp (chars
        "Error occured when rec packet from client via socket.\n") (-1))
  | some recPacket => serverHandle run serverIp serverFd newSocket recPacket

/-- `main` of `server.c`. -/
def serverMain (run : ServerRun) : FullProgram Unit := do
  let serverIp ← shows (serverAddress run.argv)
  let serverFd ← createListeningSocket run.listener
  let newSocket ← acceptConnection serverFd run.accept
  serverServe run serverIp serverFd newSocket

def destinationRespond (run : DestinationRun) (hostIp : List UInt8)
    (destFd newSocket : Descriptor) (recPacket : Target) : FullProgram Unit := do
  printPacketUnencap run.order recPacket 0
  let responseMsg := chars "Hello from the other side!"
  let clientIpStr ← allocateString .clientIpStr
  let ipSrc ← access recPacket (loadU32 run.order · ipSrc)
  let clientIpStr ← parseIpAddrToStr clientIpStr ipSrc
  let responsePkt ← createPacketsDes run.order (run.heap.after 1) hostIp clientIpStr
    ipProtocolTcp responseMsg tcpFlagAck
  let fixedPkt := packetDecapsulate 0
  printPacketUnencap run.order responsePkt fixedPkt
  let packLen := (getPacketSize ipProtocolTcp
    (UInt8.ofNat responseMsg.length)).toNat
  let bytes ← access responsePkt (loadBytes · fixedPkt packLen)
  let sent ← send newSocket bytes run.sends
  if sent then do
    free recPacket
    free responsePkt
    free clientIpStr
    close newSocket
    close destFd
    stop (.exited 0)
  else stop (.exited (-1))

def destinationServe (run : DestinationRun) (hostIp : List UInt8)
    (destFd newSocket : Descriptor) : FullProgram Unit := do
  let recPacket ← destRecPkt newSocket run.heap run.request
  match recPacket with
  | none => shows (giveUp (chars "Error receiving packet.\n") (-1))
  | some recPacket => destinationRespond run hostIp destFd newSocket recPacket

/-- `main` of `destination.c`. -/
def destinationMain (run : DestinationRun) : FullProgram Unit := do
  let hostIp ← shows (destinationAddress run.argv)
  let destFd ← createListeningSocket run.listener
  let newSocket ← acceptConnection destFd run.accept
  destinationServe run hostIp destFd newSocket

end SimpleVpn.Resources
