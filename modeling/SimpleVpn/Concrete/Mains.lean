import SimpleVpn.Core.Processes
import SimpleVpn.Concrete.Programs

/-!
# The three `main` functions (`client.c`, `server.c`, `destination.c`)

Each program from its arguments to its exit, with the outcome of every library
call as an input.  A call of `recv` that succeeds is given the bytes it
delivers.  What a run shows are the calls with their outcomes, the packets it
prints, what it writes, and the use of a null pointer, which ends it.  Closing
sockets and freeing memory are left out.
-/

namespace SimpleVpn.Mains

open SimpleVpn.TracedMemory SimpleVpn.HostWords SimpleVpn.CStrings
open SimpleVpn.Processes SimpleVpn.HostInfo SimpleVpn.Protocol SimpleVpn.Packet
open SimpleVpn.Programs

inductive Call
  | socket
  | setsockopt
  | bind
  | listen
  | accept
  | inetPton (address : List UInt8)
  | connect (address : List UInt8)
  | send (fd : ℕ) (bytes : List UInt8)
  | recv (fd size : ℕ)

inductive Event
  /-- A call, and whether it succeeded. -/
  | called (call : Call) (succeeded : Bool)
  /-- The fields and the payload of the packet at `start`. -/
  | printed (packet : Block) (start : ℕ)
  /-- A message about an error. -/
  | reported (text : List UInt8)
  /-- Any other message. -/
  | noted (text : List UInt8)
  | nullAccess

/-- How a program ends. -/
inductive Stop
  | exited (status : ℤ)
  | crashed

abbrev Program := Process Event Stop

/-- An error message and the end of the program. -/
def giveUp {A : Type} (text : List UInt8) (status : ℤ) : Program A := do
  emit (.reported text)
  stop (.exited status)

/-- `perror` and `exit(EXIT_FAILURE)` when a call fails. -/
def require (call : Call) (succeeds : Bool) (text : List UInt8) :
    Program Unit := do
  emit (.called call succeeds)
  if succeeds then pure () else giveUp text 1

/-- The same for a call that returns a descriptor. -/
def requireFd (call : Call) (fd : Option ℕ) (text : List UInt8) :
    Program ℕ := do
  emit (.called call fd.isSome)
  match fd with
  | none => giveUp text 1
  | some fd => pure fd

/-- The use of a pointer. -/
def deref {A : Type} : Option A → Program A
  | none => do
      emit .nullAccess
      stop .crashed
  | some target => pure target

def printPacket (packetStart : Option Block) : Program Unit := do
  let packet ← deref packetStart
  emit (.printed packet 0)

def printPacketUnencap (packet : Block) (packetStart : ℕ) : Program Unit :=
  emit (.printed packet packetStart)

/-- `send`, which returns -1 unless it succeeds. -/
def send (fd : ℕ) (bytes : List UInt8) (succeeds : Bool) : Program Bool := do
  emit (.called (.send fd bytes) succeeds)
  pure succeeds

/-- A function that receives a packet: one call of `recv`, and what the function
makes of its outcome. -/
def receive (fd size : ℕ)
    (receiver : Option (List UInt8) → Traced (Option Block))
    (received : Option (List UInt8)) : Program (Option Block) := do
  emit (.called (.recv fd size) received.isSome)
  pure (receiver received).value

/-- The result is `none` for -1. -/
def createClientSocket (clientFd : Option ℕ) : Program (Option ℕ) := do
  emit (.called .socket clientFd.isSome)
  match clientFd with
  | none => do
      emit (.reported (chars "\n Socket creation error \n"))
      pure none
  | some clientFd => pure (some clientFd)

/-- The result is `false` for -1. -/
def connectToServer (serverIp : List UInt8) (converts connects : Bool) :
    Program Bool := do
  emit (.called (.inetPton serverIp) converts)
  if converts then do
    emit (.called (.connect serverIp) connects)
    if connects then do
      emit (.noted (chars "Connected to server\n"))
      pure true
    else do
      emit (.reported (chars "\nConnection Failed \n"))
      pure false
  else do
    emit (.reported (chars "\nInvalid address/ Address not supported \n"))
    pure false

/-- What client and server do with both functions: the program ends with -1
when one of them fails. -/
def connectOrExit (socket : Option ℕ) (serverIp : List UInt8)
    (converts connects : Bool) : Program ℕ := do
  let clientFd ← createClientSocket socket
  match clientFd with
  | none => stop (.exited (-1))
  | some clientFd => do
      let connected ← connectToServer serverIp converts connects
      if connected then pure clientFd else stop (.exited (-1))

/-- The outcomes of the calls that set up a listening socket. -/
structure Listener where
  socket : Option ℕ
  setsockopt : Bool
  bind : Bool
  listen : Bool

/-- The common body of `create_server_socket` and `create_dest_socket`. -/
def createListeningSocket (listener : Listener) : Program ℕ := do
  let fd ← requireFd .socket listener.socket (chars "socket failed")
  require .setsockopt listener.setsockopt (chars "setsockopt")
  require .bind listener.bind (chars "bind failed")
  require .listen listener.listen (chars "listen")
  pure fd

def createServerSocket (listener : Listener) : Program ℕ :=
  createListeningSocket listener

def createDestSocket (listener : Listener) : Program ℕ :=
  createListeningSocket listener

def acceptClientConnection (newSocket : Option ℕ) : Program ℕ :=
  requireFd .accept newSocket (chars "accept")

def acceptDestConnection (newSocket : Option ℕ) : Program ℕ :=
  requireFd .accept newSocket (chars "accept")

/-- The part of the server's and of the destination's `main` that reads their
one argument; only the message about an unknown name differs. -/
def hostAddress (argv : List (List UInt8)) (unknown : List UInt8) :
    Program (List UInt8) :=
  if argv.length ≠ 2 then
    giveUp (chars ("Unexpected number of arguements. " ++
      "    Enter arguements: VPNserver_host_name")) 0
  else
    match getHostIp (argv.getD 1 []) with
    | none => giveUp unknown 0
    | some hostIp => pure hostIp

/-- A run of the client: the host, its arguments (the program's name first), the
contents of `dest_host_name` once it is read, and the outcomes of its calls. -/
structure ClientRun where
  order : ByteOrder
  heap : Heap
  key : Key
  argv : List (List UInt8)
  destHostName : List UInt8
  socket : Option ℕ
  converts : Bool
  connects : Bool
  sends : Bool
  response : Option (List UInt8)

/-- The addresses the client works with. -/
structure ClientHosts where
  clientIp : List UInt8
  serverIp : List UInt8
  destIp : List UInt8

/-- The part of `main` that reads the arguments. -/
def clientHosts (argv : List (List UInt8)) (destHostName : List UInt8) :
    Program ClientHosts :=
  if argv.length ≠ 3 then
    giveUp (chars ("Unexpected number of arguements. " ++
      "    Enter arguements: client_host_name VPNserver_host_name")) 0
  else do
    emit (.noted (chars
      "Enter the destination name (must be less than 5 characters): "))
    match getHostIp (argv.getD 1 []), getHostIp (argv.getD 2 []),
      getHostIp destHostName with
    | some clientIp, some serverIp, some destIp =>
        if clientIp = serverIp ∨ clientIp = destIp ∨ serverIp = destIp then
          giveUp (chars
            "Cannot have same name for client, server, or client.\n") 0
        else pure { clientIp, serverIp, destIp }
    | _, _, _ =>
        giveUp (chars "Invalid client, server, or destination name.\n") 0

/-- The part of `main` from `serv_rec_from_cli` on. -/
def clientReceive (run : ClientRun) (clientFd : ℕ) : Program Unit := do
  let respPkt ← receive clientFd encapsulatedSize
    (servRecFromCli (run.heap.after 2) run.key) run.response
  printPacket respPkt
  stop (.exited 0)

/-- The part of `main` after the connection is made. -/
def clientExchange (run : ClientRun) (hosts : ClientHosts) (clientFd : ℕ) :
    Program Unit := do
  emit (.noted (chars "Checking before create packet.\n"))
  let payload := chars "payload"
  let packet := (createPackets run.order run.heap run.key hosts.clientIp
    hosts.destIp ipProtocolTcp payload tcpFlagSyn).value
  printPacket (some packet)
  let bytes := (sendAndFreePacketVpn packet ipProtocolTcp
    (UInt8.ofNat payload.length)).value
  let sent ← send clientFd bytes run.sends
  if sent then pure ()
  else emit (.reported (chars
    "Error during sending packet to the server via socket.\n"))
  clientReceive run clientFd

/-- `main` of `client.c`. -/
def clientMain (run : ClientRun) : Program Unit := do
  let hosts ← clientHosts run.argv run.destHostName
  let clientFd ← connectOrExit run.socket hosts.serverIp run.converts
    run.connects
  clientExchange run hosts clientFd

/-- A run of the server. -/
structure ServerRun where
  order : ByteOrder
  heap : Heap
  key : Key
  argv : List (List UInt8)
  listener : Listener
  accept : Option ℕ
  request : Option (List UInt8)
  socket : Option ℕ
  converts : Bool
  connects : Bool
  forwards : Bool
  response : Option (List UInt8)
  replies : Bool

def serverAddress (argv : List (List UInt8)) : Program (List UInt8) :=
  hostAddress argv (chars "Invalid server name.\n")

/-- The part of `main` from `serv_rec_from_des` on.  `memcpy` reads through the
pointer that `serv_rec_from_des` returned, and what `serv_cli_encrypt_free`
returns is not looked at. -/
def serverAnswer (run : ServerRun) (newSocket clientFd : ℕ)
    (clientIp : UInt32) : Program Unit := do
  let recPacketDest ← receive clientFd encapsulatedSize
    (servRecFromDes (run.heap.after 2)) run.response
  let recPacketDest ← deref recPacketDest
  let encPkt := (serverWrap run.order (run.heap.after 3) clientIp
    recPacketDest).value
  printPacket (some encPkt)
  let payloadSize := (strlen encPkt
    (sizeofGreHdr + sizeofIpHdr + sizeofTcpHdr)).value
  let bytes := (servCliEncryptFree ((run.heap.after 3).after 1) run.key encPkt
    ipProtocolTcp (UInt8.ofNat payloadSize)).value
  let _ ← send newSocket bytes run.replies
  stop (.exited 0)

/-- The part of `main` from the packet received to the one sent on. -/
def serverHandle (run : ServerRun) (serverIp : List UInt8) (newSocket : ℕ)
    (recPacket : Block) : Program Unit := do
  printPacket (some recPacket)
  let clientIp := (saveClientIp run.order recPacket).value
  let (recPacket, fixedPkt) := (servHandlePkt run.order recPacket serverIp).value
  let destIp := parseIpAddrToStr
    (loadU32 run.order recPacket (fixedPkt + ipDst)).value
  let clientFd ← connectOrExit run.socket destIp run.converts run.connects
  let bytes := (serverForward { clientIp, recPacket, fixedPkt, destIp }).value
  let sent ← send clientFd bytes run.forwards
  if sent then do
    emit (.noted (chars ("---Packet sent to the destination. " ++
      "Waiting for a response.---\n")))
    serverAnswer run newSocket clientFd clientIp
  else
    giveUp (chars "Error during sending packet to the server via socket.\n")
      (-1)

/-- The part of `main` from `serv_rec_from_cli` on. -/
def serverServe (run : ServerRun) (serverIp : List UInt8) (newSocket : ℕ) :
    Program Unit := do
  let recPacket ← receive newSocket encapsulatedSize
    (servRecFromCli run.heap run.key) run.request
  match recPacket with
  | none =>
      giveUp (chars
        "Error occured when rec packet from client via socket.\n") (-1)
  | some recPacket => serverHandle run serverIp newSocket recPacket

/-- `main` of `server.c`. -/
def serverMain (run : ServerRun) : Program Unit := do
  let serverIp ← serverAddress run.argv
  let _ ← createServerSocket run.listener
  let newSocket ← acceptClientConnection run.accept
  serverServe run serverIp newSocket

/-- A run of the destination. -/
structure DestinationRun where
  order : ByteOrder
  heap : Heap
  argv : List (List UInt8)
  listener : Listener
  accept : Option ℕ
  request : Option (List UInt8)
  sends : Bool

def destinationAddress (argv : List (List UInt8)) : Program (List UInt8) :=
  hostAddress argv
    (chars "Invalid host name: " ++ argv.getD 1 [] ++ chars "\n")

/-- The part of `main` from the packet received to the response. -/
def destinationRespond (run : DestinationRun) (hostIp : List UInt8)
    (newSocket : ℕ) (recPacket : Block) : Program Unit := do
  printPacketUnencap recPacket 0
  let responseMsg := chars "Hello from the other side!"
  let clientIpStr := parseIpAddrToStr (loadU32 run.order recPacket ipSrc).value
  let responsePkt := (createPacketsDes run.order (run.heap.after 1) hostIp
    clientIpStr ipProtocolTcp responseMsg tcpFlagAck).value
  let fixedPkt := packetDecapsulate 0
  printPacketUnencap responsePkt fixedPkt
  let packLen := (getPacketSize ipProtocolTcp
    (UInt8.ofNat responseMsg.length)).toNat
  let sent ← send newSocket (loadBytes responsePkt fixedPkt packLen).value
    run.sends
  if sent then stop (.exited 0) else stop (.exited (-1))

/-- The part of `main` from `dest_rec_pkt` on. -/
def destinationServe (run : DestinationRun) (hostIp : List UInt8)
    (newSocket : ℕ) : Program Unit := do
  let recPacket ← receive newSocket decapsulatedSize (destRecPkt run.heap)
    run.request
  match recPacket with
  | none => giveUp (chars "Error receiving packet.\n") (-1)
  | some recPacket => destinationRespond run hostIp newSocket recPacket

/-- `main` of `destination.c`. -/
def destinationMain (run : DestinationRun) : Program Unit := do
  let hostIp ← destinationAddress run.argv
  let _ ← createDestSocket run.listener
  let newSocket ← acceptDestConnection run.accept
  destinationServe run hostIp newSocket

end SimpleVpn.Mains
