import SimpleVpn.Core.Networks
import SimpleVpn.Concrete.Stages
import SimpleVpn.Tunnel.Hops

/-!
# The three programs on one network

The programs run at the same time, each with its own outcomes of the library
calls, and the network lets a call succeed only when it can.  Whichever calls fail,
what a program sends and receives is the beginning of one list: the server takes
turns with its two peers, and each of them sends once and receives once.
-/

namespace SimpleVpn.System

open SimpleVpn.TracedMemory SimpleVpn.HostWords SimpleVpn.CStrings
open SimpleVpn.Networks SimpleVpn.Processes SimpleVpn.HostInfo
open SimpleVpn.Protocol SimpleVpn.Packet SimpleVpn.Programs SimpleVpn.Mains
open SimpleVpn.Stages SimpleVpn.Frame SimpleVpn.Transit SimpleVpn.Hops

/-- What the server shows once it received a packet. -/
theorem events_serverHandle (run : ServerRun) (serverIp : List UInt8)
    (newSocket : ℕ) (recPacket : Block) :
    (serverHandle run serverIp newSocket recPacket).events =
      .printed recPacket 0 ::
        (connectOrExit run.socket (forwardOf run.order serverIp recPacket).destIp
          run.converts run.connects >>= fun clientFd => do
            let sent ← send clientFd (serverForward
              (forwardOf run.order serverIp recPacket)).value run.forwards
            if sent then do
              emit (.noted (chars ("---Packet sent to the destination. " ++
                "Waiting for a response.---\n")))
              serverAnswer run newSocket clientFd (u32 run.order recPacket 18)
            else
              giveUp (chars
                "Error during sending packet to the server via socket.\n")
                (-1) : Program Unit).events := by
  have hforward := forwardOf_eq run.order serverIp recPacket
  have hclient := congrArg Forward.clientIp hforward
  have hdest := congrArg Forward.destIp hforward
  dsimp only at hclient hdest
  unfold serverHandle
  rw [printPacket, deref, pure_bind, events_emit_bind]
  simp only [hclient, hdest]
  rfl

inductive Party
  | client
  | server
  | destination
  deriving DecidableEq

instance : Fintype Party where
  elems := {.client, .server, .destination}
  complete party := by cases party <;> decide

/-- The four directions in which bytes travel. -/
inductive Hop
  | request
  | forward
  | response
  | reply
  deriving DecidableEq

def Hop.writer : Hop → Party
  | .request => .client
  | .forward => .server
  | .response => .destination
  | .reply => .server

def Hop.reader : Hop → Party
  | .request => .server
  | .forward => .destination
  | .response => .server
  | .reply => .client

/-- What a program does on the network; all programs use one port, so the
address names the listener. -/
abbrev NetAction := Action (List UInt8) Hop UInt8

/-- Runs of the three programs, the last two on hosts with the given addresses.
They share the key of `encrypt.c`, and the host names they are started with are
those of these hosts.  The descriptors of the server's two connections are
different. -/
structure Deployment where
  client : ClientRun
  server : ServerRun
  destination : DestinationRun
  serverIp : List UInt8
  destIp : List UInt8
  key_eq : server.key = client.key
  clientServer : ∀ hosts, Resolves client.argv client.destHostName hosts →
    hosts.serverIp = serverIp
  serverName : ∀ hostIp, getHostIp (server.argv.getD 1 []) = some hostIp →
    hostIp = serverIp
  destName : ∀ hostIp, getHostIp (destination.argv.getD 1 []) = some hostIp →
    hostIp = destIp
  socket_ne : ∀ fd, server.accept = some fd → server.socket ≠ some fd

/-- A call that fails moves nothing. -/
def clientAction (run : ClientRun) : Event → NetAction
  | .called (.connect address) true => .connect address
  | .called (.send _ bytes) true => .send .request bytes
  | .called (.recv _ _) true => .recv .reply (run.response.getD [])
  | _ => .silent

/-- The descriptor tells the connection to the client from the one to the
destination. -/
def serverAction (serverIp : List UInt8) (run : ServerRun) : Event → NetAction
  | .called .listen true => .listen serverIp
  | .called .accept true => .accept serverIp
  | .called (.connect address) true => .connect address
  | .called (.send fd bytes) true =>
      .send (if run.accept = some fd then .reply else .forward) bytes
  | .called (.recv fd _) true =>
      if run.accept = some fd then .recv .request (run.request.getD [])
      else .recv .response (run.response.getD [])
  | _ => .silent

def destinationAction (destIp : List UInt8) (run : DestinationRun) :
    Event → NetAction
  | .called .listen true => .listen destIp
  | .called .accept true => .accept destIp
  | .called (.send _ bytes) true => .send .response bytes
  | .called (.recv _ _) true => .recv .forward (run.request.getD [])
  | _ => .silent

/-- What a server answers to its client, once it received two packets. -/
def answerOf (run : ServerRun) : List UInt8 :=
  match (servRecFromCli run.heap run.key run.request).value,
    (servRecFromDes (run.heap.after 2) run.response).value with
  | some recPacket, some recPacketDest =>
      (serverReply run.order (run.heap.after 3) run.key
        (u32 run.order recPacket 18) recPacketDest).value
  | _, _ => []

namespace Deployment

variable (system : Deployment)

def events : Party → List Event
  | .client => (clientMain system.client).events
  | .server => (serverMain system.server).events
  | .destination => (destinationMain system.destination).events

def action : Party → Event → NetAction
  | .client => clientAction system.client
  | .server => serverAction system.serverIp system.server
  | .destination => destinationAction system.destIp system.destination

theorem writer_of_send {party : Party} {hop : Hop} {bytes : List UInt8}
    {event : Event} (haction : system.action party event = .send hop bytes) :
    party = hop.writer := by
  cases party with
  | client =>
      simp only [action, clientAction] at haction
      split at haction
      all_goals cases haction
      rfl
  | destination =>
      simp only [action, destinationAction] at haction
      split at haction
      all_goals cases haction
      rfl
  | server =>
      simp only [action, serverAction] at haction
      split at haction
      case h_4 fd sent =>
        -- both of its connections are the server's
        obtain ⟨rfl, -⟩ := Action.send.inj haction
        split
        all_goals rfl
      case h_5 => split at haction <;> cases haction
      all_goals cases haction

theorem reader_of_recv {party : Party} {hop : Hop} {bytes : List UInt8}
    {event : Event} (haction : system.action party event = .recv hop bytes) :
    party = hop.reader := by
  cases party with
  | client =>
      simp only [action, clientAction] at haction
      split at haction
      all_goals cases haction
      rfl
  | destination =>
      simp only [action, destinationAction] at haction
      split at haction
      all_goals cases haction
      rfl
  | server =>
      simp only [action, serverAction] at haction
      split at haction
      case h_5 =>
        split at haction
        all_goals
          cases haction
          rfl
      all_goals cases haction

/-- The programs as processes on the network. -/
def network : Network Party (List UInt8) Hop UInt8 where
  actions party := (system.events party).map (system.action party)
  writer := Hop.writer
  reader := Hop.reader
  sends party hop bytes hmem := by
    obtain ⟨event, -, haction⟩ := List.mem_map.mp hmem
    exact system.writer_of_send haction
  receives party hop bytes hmem := by
    obtain ⟨event, -, haction⟩ := List.mem_map.mp hmem
    exact system.reader_of_recv haction

/-- What the client hands to `send`. -/
def request : List UInt8 :=
  match (clientHosts system.client.argv system.client.destHostName).outcome with
  | .error _ => []
  | .ok hosts =>
      (clientRequest system.client.order system.client.heap system.client.key
        hosts.clientIp hosts.destIp requestPayload.chars tcpFlagSyn).value

/-- What the server sends on of the packet that it received. -/
def forward : List UInt8 :=
  match (servRecFromCli system.server.heap system.server.key
    system.server.request).value with
  | none => []
  | some recPacket =>
      (serverForward (forwardOf system.server.order system.serverIp
        recPacket)).value

/-- What the destination answers. -/
def response : List UInt8 :=
  match (destRecPkt system.destination.heap system.destination.request).value with
  | none => []
  | some recPacket =>
      (destinationReply system.destination.order (system.destination.heap.after 1)
        system.destIp recPacket responseMsg.chars tcpFlagAck).value

/-- What the server answers to the client. -/
def reply : List UInt8 := answerOf system.server

/-- What moves between the preliminary events of a program. -/
theorem ignores_transfers (party : Party) (property : List NetAction → Prop)
    (hnil : property []) :
    Ignores (fun events => property (transfers (events.map (system.action party))))
      Preliminary where
  nil := hnil
  cons event rest hpreliminary := by
    have hsilent : (system.action party event).isTransfer = false := by
      cases event with
      | called call succeeded =>
          cases party <;> cases succeeded <;> cases call <;>
            first | rfl | exact absurd trivial hpreliminary
      | reported text => cases party <;> rfl
      | noted text => cases party <;> rfl
      | printed packet start => exact hpreliminary.elim
      | nullAccess => exact hpreliminary.elim
    rw [List.map_cons, transfers_cons_of_not hsilent]

/-- The client sends its request, unless that fails, and receives the reply. -/
theorem transfers_client :
    transfers (system.network.actions .client) <+:
      (if system.client.sends then [.send .request system.request] else []) ++
        [.recv .reply (system.client.response.getD [])] := by
  have hignores := system.ignores_transfers .client
    (fun moved => moved <+:
      (if system.client.sends then [.send .request system.request] else []) ++
        [.recv .reply (system.client.response.getD [])]) List.nil_prefix
  change transfers ((clientMain system.client).events.map
    (system.action .client)) <+: _
  rw [clientMain, hignores.bind_iff (only_clientHosts _ _)]
  intro hosts hhosts
  rw [hignores.bind_iff (only_connectOrExit _ _ _ _)]
  intro clientFd _
  have hrequest : (clientRequest system.client.order system.client.heap
      system.client.key hosts.clientIp hosts.destIp (chars "payload")
      tcpFlagSyn).value = system.request := by
    rw [request, hhosts]
    rfl
  rw [events_clientExchange, events_clientReceive, hrequest]
  generalize (servRecFromCli (system.client.heap.after 2) system.client.key
    system.client.response).value = received
  cases system.client.sends <;> cases system.client.response.isSome <;>
    cases received <;>
    simp [transfers, List.filter_cons, Action.isTransfer, action, clientAction]

/-- The server's transfers after it handled a packet, as far as it gets. -/
theorem transfers_serverHandle {newSocket : ℕ}
    (haccept : system.server.accept = some newSocket) {recPacket : Block}
    (hreceived : (servRecFromCli system.server.heap system.server.key
      system.server.request).value = some recPacket) :
    transfers ((serverHandle system.server system.serverIp newSocket
        recPacket).events.map (system.action .server)) <+:
      [.send .forward system.forward,
        .recv .response (system.server.response.getD []),
        .send .reply system.reply] := by
  have hignores := system.ignores_transfers .server
    (fun moved => moved <+: [.send .forward system.forward,
      .recv .response (system.server.response.getD []),
      .send .reply system.reply]) List.nil_prefix
  have hforward : (serverForward (forwardOf system.server.order system.serverIp
      recPacket)).value = system.forward := by
    rw [forward, hreceived]
  rw [events_serverHandle, List.map_cons, transfers_cons_of_not rfl,
    hignores.bind_iff (only_connectOrExit _ _ _ _)]
  intro clientFd hconnected
  have hne : newSocket ≠ clientFd := by
    rintro rfl
    exact system.socket_ne newSocket haccept
      ((outcome_connectOrExit_iff _ _ _ _ _).mp hconnected).1
  rw [hforward, send, bind_assoc, events_emit_bind, pure_bind, List.map_cons]
  cases system.server.forwards with
  | false => exact List.nil_prefix
  | true =>
      rw [if_pos rfl, events_emit_bind, List.map_cons, events_serverAnswer,
        List.map_cons]
      have hsome := isSome_servRecFromDes (system.server.heap.after 2)
        system.server.response
      rw [← hsome]
      cases hrec : (servRecFromDes (system.server.heap.after 2)
          system.server.response).value with
      | none =>
          simp [transfers, List.filter_cons, Action.isTransfer, action,
            serverAction, haccept, hne]
      | some recPacketDest =>
          have hreply : (serverReply system.server.order
              (system.server.heap.after 3) system.server.key
              (u32 system.server.order recPacket 18) recPacketDest).value =
                system.reply := by
            rw [reply, answerOf, hreceived, hrec]
          dsimp only
          rw [hreply]
          cases system.server.replies <;>
            simp [transfers, List.filter_cons, Action.isTransfer, action,
              serverAction, haccept, hne]

/-- The server takes turns with its two peers, as far as it gets. -/
theorem transfers_server :
    transfers (system.network.actions .server) <+:
      [.recv .request (system.server.request.getD []),
        .send .forward system.forward,
        .recv .response (system.server.response.getD []),
        .send .reply system.reply] := by
  have hignores := system.ignores_transfers .server
    (fun moved => moved <+: [.recv .request (system.server.request.getD []),
      .send .forward system.forward,
      .recv .response (system.server.response.getD []),
      .send .reply system.reply]) List.nil_prefix
  change transfers ((serverMain system.server).events.map
    (system.action .server)) <+: _
  rw [serverMain, serverAddress, createServerSocket, acceptClientConnection,
    accepting_iff hignores]
  intro serverIp newSocket haccepts
  obtain rfl := system.serverName serverIp haccepts.resolves
  have haccept := haccepts.accepts
  have hsome := isSome_servRecFromCli system.server.heap system.server.key
    system.server.request
  rw [events_serverServe, ← hsome]
  cases hreceived : (servRecFromCli system.server.heap system.server.key
      system.server.request).value with
  | none => exact List.nil_prefix
  | some recPacket =>
      have hrest := system.transfers_serverHandle haccept hreceived
      have hrecv : system.action .server (.called (.recv newSocket
          encapsulatedSize) (some recPacket).isSome) =
            .recv .request (system.server.request.getD []) := if_pos haccept
      rw [List.map_cons, hrecv, transfers_cons_of_pos rfl]
      exact List.cons_prefix_cons.mpr ⟨rfl, hrest⟩

/-- The destination receives, and answers. -/
theorem transfers_destination :
    transfers (system.network.actions .destination) <+:
      [.recv .forward (system.destination.request.getD []),
        .send .response system.response] := by
  have hignores := system.ignores_transfers .destination
    (fun moved => moved <+: [.recv .forward (system.destination.request.getD []),
      .send .response system.response]) List.nil_prefix
  change transfers ((destinationMain system.destination).events.map
    (system.action .destination)) <+: _
  rw [destinationMain, destinationAddress, createDestSocket,
    acceptDestConnection, accepting_iff hignores]
  intro hostIp newSocket haccepts
  obtain rfl := system.destName hostIp haccepts.resolves
  have hsome := isSome_destRecPkt system.destination.heap
    system.destination.request
  rw [events_destinationServe, ← hsome]
  cases hreceived : (destRecPkt system.destination.heap
      system.destination.request).value with
  | none => exact List.nil_prefix
  | some recPacket =>
      have hresponse : (destinationReply system.destination.order
          (system.destination.heap.after 1) system.destIp recPacket
          (chars "Hello from the other side!") tcpFlagAck).value =
            system.response := by
        rw [response, hreceived]
        rfl
      dsimp only
      rw [events_destinationRespond, hresponse]
      cases system.destination.sends <;>
        simp [transfers, List.filter_cons, Action.isTransfer, action,
          destinationAction]

end Deployment

end SimpleVpn.System
