import SimpleVpn.Tunnel.Delivery
import SimpleVpn.Tunnel.Lengths
import SimpleVpn.Tunnel.Sessions
import SimpleVpn.Tunnel.System

/-!
# Sessions come to their end

Three programs whose calls all succeed, each receiving what its peer sent, wait
for each other in many places.  When every hop delivers something and the server
learns the address of the destination, no order of their steps leads to a
deadlock: every run can be continued, and all of them end in one state.
-/

namespace SimpleVpn.Progress

open SimpleVpn.TracedMemory SimpleVpn.HostWords SimpleVpn.CStrings
open SimpleVpn.Keystream SimpleVpn.Networks SimpleVpn.Processes SimpleVpn.HostInfo
open SimpleVpn.Protocol SimpleVpn.Packet SimpleVpn.Programs SimpleVpn.Mains
open SimpleVpn.Stages SimpleVpn.Frame SimpleVpn.Transit SimpleVpn.Exchange
open SimpleVpn.Hops SimpleVpn.Lengths SimpleVpn.Sessions SimpleVpn.Delivery
open SimpleVpn.System

section Bytes

variable {setting : Setting} (session : Session setting)

/-- What the client sends. -/
def requestBytes (setting : Setting) : List UInt8 :=
  (clientRequest setting.order setting.clientHeap setting.key
    (DottedQuad.ofAddress setting.client).text
    (DottedQuad.ofAddress setting.dest).text requestPayload.chars
    tcpFlagSyn).value

/-- The packet that the server makes of what arrives of the request. -/
def serverPacket (setting : Setting) : Option Block :=
  (servRecFromCli setting.serverHeap setting.key
    (some ((requestBytes setting).take setting.requestCount))).value

def forwardBytes (setting : Setting) : List UInt8 :=
  match serverPacket setting with
  | none => []
  | some recPacket => (serverForward (forwardOf setting.order
      (DottedQuad.ofAddress setting.server).text recPacket)).value

def destPacket (setting : Setting) : Option Block :=
  (destRecPkt setting.destHeap
    (some ((forwardBytes setting).take setting.forwardCount))).value

def responseBytes (setting : Setting) : List UInt8 :=
  match destPacket setting with
  | none => []
  | some recPacket => (destinationReply setting.order (setting.destHeap.after 1)
      (DottedQuad.ofAddress setting.dest).text recPacket responseMsg.chars
      tcpFlagAck).value

def responsePacket (setting : Setting) : Option Block :=
  (servRecFromDes (setting.serverHeap.after 2)
    (some ((responseBytes setting).take setting.responseCount))).value

def replyBytes (setting : Setting) : List UInt8 :=
  match serverPacket setting, responsePacket setting with
  | some recPacket, some recPacketDest => (serverReply setting.order
      (setting.serverHeap.after 3) setting.key
      (u32 setting.order recPacket 18) recPacketDest).value
  | _, _ => []

/-- The programs of a session, each receiving what its peer sent. -/
def deployment (hsockets : session.serverSocket ≠ setting.clientFd) :
    Deployment where
  client := session.client (replyBytes setting)
  server := session.server (requestBytes setting) (responseBytes setting)
  destination := session.destination (forwardBytes setting)
  serverIp := (DottedQuad.ofAddress setting.server).text
  destIp := (DottedQuad.ofAddress setting.dest).text
  key_eq := rfl
  clientServer hosts hresolves :=
    Option.some.inj (hresolves.server.symm.trans session.resolves.server)
  serverName hostIp hresolves :=
    Option.some.inj (hresolves.symm.trans session.serverAccepts.resolves)
  destName hostIp hresolves :=
    Option.some.inj (hresolves.symm.trans session.destAccepts.resolves)
  socket_ne := by
    rintro fd haccept hsocket
    exact hsockets (Option.some.inj (haccept.trans hsocket.symm))

end Bytes

/-- A connection that is made. -/
theorem events_connectOrExit_bind {socket : Option ℕ} {converts connects : Bool}
    {clientFd : ℕ} (hsocket : socket = some clientFd) (hconverts : converts = true)
    (hconnects : connects = true) (serverIp : List UInt8)
    (next : ℕ → Program Unit) :
    (connectOrExit socket serverIp converts connects >>= next).events =
      .called .socket true :: .called (.inetPton serverIp) true ::
        .called (.connect serverIp) true ::
          .noted (chars "Connected to server\n") :: (next clientFd).events := by
  subst hsocket hconverts hconnects
  rfl

theorem events_clientMain {run : ClientRun} {hosts : ClientHosts} {clientFd : ℕ}
    (hresolves : Resolves run.argv run.destHostName hosts)
    (hsocket : run.socket = some clientFd) (hconverts : run.converts = true)
    (hconnects : run.connects = true) :
    (clientMain run).events =
      .noted (chars
        "Enter the destination name (must be less than 5 characters): ") ::
      .called .socket true :: .called (.inetPton hosts.serverIp) true ::
        .called (.connect hosts.serverIp) true ::
          .noted (chars "Connected to server\n") ::
            (clientExchange run hosts clientFd).events := by
  rw [clientMain,
    events_bind_of_ok ((outcome_clientHosts_iff _ _ _).mpr hresolves),
    events_clientHosts hresolves,
    events_connectOrExit_bind hsocket hconverts hconnects]
  rfl

/-- Server and destination up to the connection that they accept. -/
theorem events_accepting {argv : List (List UInt8)} {listener : Listener}
    {accept : Option ℕ} {hostIp : List UInt8} {newSocket : ℕ}
    (haccepts : Accepts argv listener accept hostIp newSocket)
    (unknown text : List UInt8) (next : List UInt8 → ℕ → Program Unit) :
    (do
        let hostIp ← hostAddress argv unknown
        let _ ← createListeningSocket listener
        let newSocket ← requireFd .accept accept text
        next hostIp newSocket : Program Unit).events =
      .called .socket true :: .called .setsockopt true :: .called .bind true ::
        .called .listen true :: .called .accept true ::
          (next hostIp newSocket).events := by
  obtain ⟨hargc, hresolves, ⟨fd, hsocket, hsetsockopt, hbind, hlisten⟩,
    rfl⟩ := haccepts
  obtain ⟨socket, setsockopt, bind, listen⟩ := listener
  dsimp only at hsocket hsetsockopt hbind hlisten
  subst hsocket hsetsockopt hbind hlisten
  have haddress : hostAddress argv unknown = pure hostIp := by
    unfold hostAddress
    rw [if_neg (not_not.mpr hargc), hresolves]
  rw [haddress, pure_bind]
  rfl

/-- A server that receives twice and whose calls succeed. -/
theorem events_serverMain {run : ServerRun} {serverIp : List UInt8}
    {newSocket clientFd : ℕ} {recPacket recPacketDest : Block}
    (haccepts : Accepts run.argv run.listener run.accept serverIp newSocket)
    (hreceived : (servRecFromCli run.heap run.key run.request).value =
      some recPacket)
    (hsocket : run.socket = some clientFd) (hconverts : run.converts = true)
    (hconnects : run.connects = true) (hforwards : run.forwards = true)
    (hresponse : (servRecFromDes (run.heap.after 2) run.response).value =
      some recPacketDest) :
    (serverMain run).events =
      [.called .socket true, .called .setsockopt true, .called .bind true,
        .called .listen true, .called .accept true,
        .called (.recv newSocket encapsulatedSize) run.request.isSome,
        .printed recPacket 0, .called .socket true,
        .called (.inetPton (forwardOf run.order serverIp recPacket).destIp) true,
        .called (.connect (forwardOf run.order serverIp recPacket).destIp) true,
        .noted (chars "Connected to server\n"),
        .called (.send clientFd (serverForward (forwardOf run.order serverIp
          recPacket)).value) true,
        .noted (chars ("---Packet sent to the destination. " ++
          "Waiting for a response.---\n")),
        .called (.recv clientFd encapsulatedSize) run.response.isSome,
        .printed (serverWrap run.order (run.heap.after 3)
          (u32 run.order recPacket 18) recPacketDest).value 0,
        .called (.send newSocket (serverReply run.order (run.heap.after 3)
          run.key (u32 run.order recPacket 18) recPacketDest).value)
            run.replies] := by
  rw [serverMain, serverAddress, createServerSocket, acceptClientConnection,
    events_accepting haccepts, events_serverServe, hreceived]
  dsimp only
  rw [events_serverHandle, events_connectOrExit_bind hsocket hconverts hconnects,
    hforwards, send, bind_assoc, events_emit_bind, pure_bind, if_pos rfl,
    events_emit_bind, events_serverAnswer, hresponse]

theorem events_destinationMain {run : DestinationRun} {hostIp : List UInt8}
    {newSocket : ℕ} {recPacket : Block}
    (haccepts : Accepts run.argv run.listener run.accept hostIp newSocket)
    (hreceived : (destRecPkt run.heap run.request).value = some recPacket) :
    (destinationMain run).events =
      [.called .socket true, .called .setsockopt true, .called .bind true,
        .called .listen true, .called .accept true,
        .called (.recv newSocket decapsulatedSize) run.request.isSome,
        .printed recPacket 0,
        .printed (createPacketsDes run.order (run.heap.after 1) hostIp
          (parseIpAddrToStr (loadU32 run.order recPacket ipSrc).value)
          ipProtocolTcp (chars "Hello from the other side!") tcpFlagAck).value 6,
        .called (.send newSocket (destinationReply run.order (run.heap.after 1)
          hostIp recPacket (chars "Hello from the other side!")
          tcpFlagAck).value) run.sends] := by
  rw [destinationMain, destinationAddress, createDestSocket,
    acceptDestConnection, events_accepting haccepts, events_destinationServe,
    hreceived]
  dsimp only
  rw [events_destinationRespond]

/-- The packets that the server receives in a session. -/
structure Packets (setting : Setting) where
  server : Block
  response : Block
  server_eq : serverPacket setting = some server
  response_eq : responsePacket setting = some response

/-- The server reads the address of the destination from its packet exactly when
the bytes that are missing match the key. -/
theorem exists_packets (setting : Setting) :
    ∃ packets : Packets setting,
      u32 setting.order packets.server 22 = setting.dest ↔
        MissingBytesMatchKey setting.order setting.key setting.dest
          setting.requestCount := by
  obtain ⟨server, hserver⟩ := exists_servRecFromCli setting.serverHeap
    setting.key ((requestBytes setting).take setting.requestCount)
  obtain ⟨response, hresponse⟩ := Option.isSome_iff_exists.mp
    ((isSome_servRecFromDes (setting.serverHeap.after 2) (some ((responseBytes
      setting).take setting.responseCount))).trans rfl)
  refine ⟨⟨server, response, hserver, hresponse⟩, ?_⟩
  obtain ⟨address, haddress, -, hconnect⟩ := exists_connected_of_truncation
    setting.order setting.clientHeap setting.serverHeap setting.key
    (.ofAddress setting.client) (.ofAddress setting.server)
    (.ofAddress setting.dest) requestPayload tcpFlagSyn setting.requestCount
  obtain ⟨forward, hforward, hdestIp⟩ := hconnect setting.clientFd
  have hstart := serverStart_of_received setting.order setting.serverHeap
    setting.key (DottedQuad.ofAddress setting.server).text hserver
    setting.clientFd
  rw [requestBytes] at hstart
  rw [hstart, connected, Option.some.injEq] at hforward
  rw [← hforward] at hdestIp
  have hsame : u32 setting.order server 22 = address :=
    parseIpAddrToStr_injective hdestIp
  rw [DottedQuad.address_ofAddress] at haddress
  rw [← haddress, ← hsame]

/-- The destination gets a packet. -/
theorem exists_destPacket (setting : Setting) :
    ∃ dest, destPacket setting = some dest :=
  Option.isSome_iff_exists.mp ((isSome_destRecPkt setting.destHeap
    (some ((forwardBytes setting).take setting.forwardCount))).trans rfl)

section Session

variable {setting : Setting} (session : Session setting)
variable (hsockets : session.serverSocket ≠ setting.clientFd)
variable (packets : Packets setting)

theorem actions_client :
    (deployment session hsockets).network.actions .client =
      [.silent, .silent, .silent,
        .connect (DottedQuad.ofAddress setting.server).text, .silent, .silent,
        .silent, .send .request (requestBytes setting),
        .recv .reply ((replyBytes setting).take setting.replyCount),
        .silent] := by
  have hresolves : Resolves (session.client (replyBytes setting)).argv
      (session.client (replyBytes setting)).destHostName _ := session.resolves
  have hsocket : (session.client (replyBytes setting)).socket =
      some setting.clientFd := rfl
  obtain ⟨packet, hpacket⟩ := exists_servRecFromCli (setting.clientHeap.after 2)
    setting.key ((replyBytes setting).take setting.replyCount)
  change ((clientMain (session.client (replyBytes setting))).events).map _ = _
  rw [events_clientMain hresolves hsocket rfl rfl, events_clientExchange,
    events_clientReceive]
  simp only [Session.client]
  rw [hpacket]
  rfl

/-- Where the server connects to. -/
def connectsTo (packets : Packets setting) : List UInt8 :=
  parseIpAddrToStr (u32 setting.order packets.server 22)

theorem actions_server :
    (deployment session hsockets).network.actions .server =
      [.silent, .silent, .silent,
        .listen (DottedQuad.ofAddress setting.server).text,
        .accept (DottedQuad.ofAddress setting.server).text,
        .recv .request ((requestBytes setting).take setting.requestCount),
        .silent, .silent, .silent, .connect (connectsTo packets), .silent,
        .send .forward (forwardBytes setting), .silent,
        .recv .response ((responseBytes setting).take setting.responseCount),
        .silent, .send .reply (replyBytes setting)] := by
  have haccepts : Accepts (session.server (requestBytes setting)
      (responseBytes setting)).argv (session.server (requestBytes setting)
      (responseBytes setting)).listener (session.server (requestBytes setting)
      (responseBytes setting)).accept _ _ := session.serverAccepts
  have hsocket : (session.server (requestBytes setting)
      (responseBytes setting)).socket = some setting.clientFd := rfl
  have hevents := events_serverMain haccepts packets.server_eq hsocket rfl rfl rfl
    packets.response_eq
  have hforward : forwardBytes setting = (serverForward (forwardOf setting.order
      (DottedQuad.ofAddress setting.server).text packets.server)).value := by
    rw [forwardBytes, packets.server_eq]
  have hreply : replyBytes setting = (serverReply setting.order
      (setting.serverHeap.after 3) setting.key
      (u32 setting.order packets.server 18) packets.response).value := by
    rw [replyBytes, packets.server_eq, packets.response_eq]
  have hforwardSocket : some session.serverSocket ≠ some setting.clientFd :=
    fun heq => hsockets (Option.some.inj heq)
  change ((serverMain (session.server (requestBytes setting)
    (responseBytes setting))).events).map _ = _
  rw [hevents, hforward, hreply]
  simp only [Session.server, List.map_cons, List.map_nil, Deployment.action,
    serverAction, deployment, Option.isSome_some, if_true,
    if_neg hforwardSocket]
  rfl

theorem actions_destination :
    (deployment session hsockets).network.actions .destination =
      [.silent, .silent, .silent,
        .listen (DottedQuad.ofAddress setting.dest).text,
        .accept (DottedQuad.ofAddress setting.dest).text,
        .recv .forward ((forwardBytes setting).take setting.forwardCount),
        .silent, .silent, .send .response (responseBytes setting)] := by
  have haccepts : Accepts (session.destination (forwardBytes setting)).argv
      (session.destination (forwardBytes setting)).listener
      (session.destination (forwardBytes setting)).accept _ _ :=
    session.destAccepts
  obtain ⟨dest, hdest⟩ := exists_destPacket setting
  have hevents := events_destinationMain haccepts hdest
  have hresponse : responseBytes setting = (destinationReply setting.order
      (setting.destHeap.after 1) (DottedQuad.ofAddress setting.dest).text
      dest responseMsg.chars tcpFlagAck).value := by
    rw [responseBytes, hdest]
  change ((destinationMain (session.destination
    (forwardBytes setting))).events).map _ = _
  rw [hevents, hresponse]
  rfl

end Session

section Lengths

variable (setting : Setting)

theorem requestBytes_ne_nil : requestBytes setting ≠ [] := by
  rw [requestBytes, value_clientRequest]
  apply List.ne_nil_of_length_pos
  rw [length_encipher, length_frame]
  omega

theorem responseBytes_ne_nil : responseBytes setting ≠ [] := by
  obtain ⟨dest, hdest⟩ := exists_destPacket setting
  rw [responseBytes, hdest]
  apply List.ne_nil_of_length_pos
  rw [(responseOf_destinationReply _ _ _ _ _ _).length_eq]
  omega

variable {setting} (packets : Packets setting)

include packets

theorem forwardBytes_ne_nil : forwardBytes setting ≠ [] := by
  rw [forwardBytes, packets.server_eq]
  dsimp only
  apply List.ne_nil_of_length_pos
  rw [value_serverForward, Block.length_slice]
  omega

theorem replyBytes_ne_nil : replyBytes setting ≠ [] := by
  obtain ⟨dest, hdest⟩ := exists_destPacket setting
  obtain ⟨recPacketDest, offset, hrec, hreceived⟩ :=
    servRecFromDes_of_responseOf (responseOf_destinationReply setting.order
      (setting.destHeap.after 1) (DottedQuad.ofAddress setting.dest).text dest
      responseMsg tcpFlagAck) (setting.serverHeap.after 2) setting.responseCount
  have hresponse : responsePacket setting = some recPacketDest := by
    rw [responsePacket, responseBytes, hdest]
    exact hrec
  have hoffset := hreceived.offset_le.trans responseMsg.length_le
  rw [replyBytes, packets.server_eq, hresponse]
  dsimp only
  rw [value_serverReply _ _ _ _ _ hoffset hreceived.firstZero]
  apply List.ne_nil_of_length_pos
  rw [length_encipher, Block.length_slice]
  omega

end Lengths

theorem take_ne_nil {bytes : List UInt8} (hbytes : bytes ≠ []) {count : ℕ}
    (hcount : 0 < count) : bytes.take count ≠ [] := by
  intro hnil
  rcases List.take_eq_nil_iff.mp hnil with hzero | hempty
  · exact absurd hzero hcount.ne'
  · exact hbytes hempty

/-- Every hop delivers something. -/
structure Delivers (setting : Setting) : Prop where
  request_pos : 0 < setting.requestCount
  forward_pos : 0 < setting.forwardCount
  response_pos : 0 < setting.responseCount
  reply_pos : 0 < setting.replyCount

/-- How often the turn has changed before an action when the programs wait for
each other as little as possible. -/
def stage : Party → ℕ → ℕ
  | .client, index => if index ≤ 3 then 1 else if index ≤ 7 then 2 else 7
  | .server, index =>
      if index ≤ 3 then 0 else if index = 4 then 2 else if index ≤ 9 then 3
      else if index ≤ 11 then 4 else 6
  | .destination, index =>
      if index ≤ 3 then 0 else if index = 4 then 4 else 5

/-- The place of an action in that order. -/
def rank (party : Party) (index : ℕ) : ℕ := 20 * stage party index + index

theorem strictMono_rank (party : Party) : StrictMono (rank party) := by
  refine strictMono_nat_of_lt_succ fun index => ?_
  cases party <;> simp only [rank, stage] <;> split_ifs <;> omega

section Session

variable {setting : Setting} (session : Session setting)
variable (hsockets : session.serverSocket ≠ setting.clientFd)
variable (packets : Packets setting)

variable {session hsockets} in
/-- What can be received once the writer has sent it. -/
theorem enabled_recv {state : State Party (List UInt8) Hop UInt8}
    (hreach : (deployment session hsockets).network.Reaches state) (hop : Hop)
    {actions past : List NetAction} {whole : List UInt8} {index count : ℕ}
    (hactions : (deployment session hsockets).network.actions hop.writer = actions)
    (hpast : (deployment session hsockets).network.history state.done hop.reader =
      past)
    (hdone : index < state.done hop.writer)
    (hsent : sentOn hop (actions.take (index + 1)) = whole)
    (hall : sentOn hop actions = whole) (hreceived : receivedOn hop past = [])
    (hwhole : whole ≠ []) (hcount : 0 < count) :
    (deployment session hsockets).network.Enabled state
      (.recv hop (whole.take count)) := by
  refine hreach.accounted.enabled_recv hop hdone ?_ ?_ ?_ (List.take_prefix _ _)
    (take_ne_nil hwhole hcount)
  · change sentOn hop (((deployment session hsockets).network.actions
      hop.writer).take (index + 1)) = whole
    rw [hactions, hsent]
  · change sentOn hop ((deployment session hsockets).network.actions
      hop.writer) = whole
    rw [hactions, hall]
  · change receivedOn hop ((deployment session hsockets).network.history
      state.done hop.reader) = []
    rw [hpast, hreceived]

variable (hdelivers : Delivers setting)
variable {state : State Party (List UInt8) Hop UInt8}
variable (hreach : (deployment session hsockets).network.Reaches state)

include packets hdelivers hreach

/-- The client waits for the server to listen and to reply. -/
theorem enabled_client {action : NetAction}
    (hnext : ((deployment session hsockets).network.actions .client)[
      state.done .client]? = some action)
    (hserver : ∀ index < 16,
      rank .server index < rank .client (state.done .client) →
        index < state.done .server) :
    (deployment session hsockets).network.Enabled state action := by
  have hactions := actions_server session hsockets packets
  have hpast : (deployment session hsockets).network.history state.done .client =
      ((deployment session hsockets).network.actions .client).take
        (state.done .client) := rfl
  rw [actions_client] at hnext hpast
  generalize state.done .client = count at hnext hserver hpast
  have hlt : count < 10 := (List.getElem?_eq_some_iff.mp hnext).1
  cases action with
  | connect address =>
      interval_cases count
      all_goals cases hnext
      refine (hreach.accounted.listening_iff _).mpr ⟨.server,
        Network.mem_history 3 ?_ (hserver 3 (by decide) (by decide))⟩
      rw [hactions]
      rfl
  | recv hop bytes =>
      interval_cases count
      all_goals cases hnext
      exact enabled_recv hreach .reply hactions hpast
        (hserver 15 (by decide) (by decide)) (by simp [sentOn, Action.sentOn])
        (by simp [sentOn, Action.sentOn]) rfl (replyBytes_ne_nil packets)
        hdelivers.reply_pos
  | accept address =>
      -- nobody connects to the client
      interval_cases count
      all_goals cases hnext
  | silent => trivial
  | listen address => trivial
  | send hop bytes => trivial

section Connected

variable (hdest : connectsTo packets = (DottedQuad.ofAddress setting.dest).text)

include hdest

/-- The destination waits for the server to connect and to forward. -/
theorem enabled_destination {action : NetAction}
    (hnext : ((deployment session hsockets).network.actions .destination)[
      state.done .destination]? = some action)
    (hserver : ∀ index < 16,
      rank .server index < rank .destination (state.done .destination) →
        index < state.done .server) :
    (deployment session hsockets).network.Enabled state action := by
  have hactions := actions_server session hsockets packets
  have hpast : (deployment session hsockets).network.history state.done
      .destination = ((deployment session hsockets).network.actions
        .destination).take (state.done .destination) := rfl
  rw [actions_destination] at hnext hpast
  generalize state.done .destination = count at hnext hserver hpast
  have hlt : count < 9 := (List.getElem?_eq_some_iff.mp hnext).1
  cases action with
  | accept address =>
      interval_cases count
      all_goals cases hnext
      refine (hreach.accounted.connected_iff _).mpr ⟨.server,
        Network.mem_history 9 ?_ (hserver 9 (by decide) (by decide))⟩
      rw [hactions, ← hdest]
      rfl
  | recv hop bytes =>
      interval_cases count
      all_goals cases hnext
      exact enabled_recv hreach .forward hactions hpast
        (hserver 11 (by decide) (by decide)) (by simp [sentOn, Action.sentOn])
        (by simp [sentOn, Action.sentOn]) rfl (forwardBytes_ne_nil packets)
        hdelivers.forward_pos
  | connect address =>
      -- the destination connects to nobody
      interval_cases count
      all_goals cases hnext
  | silent => trivial
  | listen address => trivial
  | send hop bytes => trivial

/-- The server waits for the client to connect and to send, and for the
destination to listen and to answer. -/
theorem enabled_server {action : NetAction}
    (hnext : ((deployment session hsockets).network.actions .server)[
      state.done .server]? = some action)
    (hclient : ∀ index < 10,
      rank .client index < rank .server (state.done .server) →
        index < state.done .client)
    (hdestination : ∀ index < 9,
      rank .destination index < rank .server (state.done .server) →
        index < state.done .destination) :
    (deployment session hsockets).network.Enabled state action := by
  have hactions := actions_client session hsockets
  have hothers := actions_destination session hsockets
  have hpast : (deployment session hsockets).network.history state.done .server =
      ((deployment session hsockets).network.actions .server).take
        (state.done .server) := rfl
  rw [actions_server session hsockets packets] at hnext hpast
  generalize state.done .server = count at hnext hclient hdestination hpast
  have hlt : count < 16 := (List.getElem?_eq_some_iff.mp hnext).1
  cases action with
  | accept address =>
      interval_cases count
      all_goals cases hnext
      refine (hreach.accounted.connected_iff _).mpr ⟨.client,
        Network.mem_history 3 ?_ (hclient 3 (by decide) (by decide))⟩
      rw [hactions]
      rfl
  | connect address =>
      interval_cases count
      all_goals cases hnext
      refine (hreach.accounted.listening_iff _).mpr ⟨.destination,
        Network.mem_history 3 ?_ (hdestination 3 (by decide) (by decide))⟩
      rw [hothers, hdest]
      rfl
  | recv hop bytes =>
      -- it receives from both of its peers
      cases hop with
      | request =>
          interval_cases count
          all_goals cases hnext
          exact enabled_recv hreach .request hactions hpast
            (hclient 7 (by decide) (by decide))
            (by simp [sentOn, Action.sentOn]) (by simp [sentOn, Action.sentOn])
            rfl (requestBytes_ne_nil setting) hdelivers.request_pos
      | response =>
          interval_cases count
          all_goals cases hnext
          exact enabled_recv hreach .response hothers hpast
            (hdestination 8 (by decide) (by decide))
            (by simp [sentOn, Action.sentOn]) (by simp [sentOn, Action.sentOn])
            (by simp [receivedOn, Action.receivedOn])
            (responseBytes_ne_nil setting) hdelivers.response_pos
      | forward =>
          interval_cases count
          all_goals cases hnext
      | reply =>
          interval_cases count
          all_goals cases hnext
  | silent => trivial
  | listen address => trivial
  | send hop bytes => trivial

/-- Every action can take place after those of lower rank. -/
theorem enabled_of_rank (party : Party) (action : NetAction)
    (hnext : ((deployment session hsockets).network.actions party)[
      state.done party]? = some action)
    (hbefore : ∀ other index,
      index < ((deployment session hsockets).network.actions other).length →
        rank other index < rank party (state.done party) →
          index < state.done other) :
    (deployment session hsockets).network.Enabled state action := by
  have hclient := hbefore .client
  have hserver := hbefore .server
  have hdestination := hbefore .destination
  rw [actions_client] at hclient
  rw [actions_server session hsockets packets] at hserver
  rw [actions_destination] at hdestination
  cases party with
  | client =>
      exact enabled_client session hsockets packets hdelivers hreach hnext hserver
  | server =>
      exact enabled_server session hsockets packets hdelivers hreach hdest hnext
        hclient hdestination
  | destination =>
      exact enabled_destination session hsockets packets hdelivers hreach hdest
        hnext hserver

end Connected

end Session

section Runs

variable {setting : Setting} (session : Session setting)
variable (hsockets : session.serverSocket ≠ setting.clientFd)

/-- When the server connects to another host, the destination waits for ever. -/
theorem destination_not_finished {packets : Packets setting}
    (hdest : connectsTo packets ≠ (DottedQuad.ofAddress setting.dest).text)
    {state : State Party (List UInt8) Hop UInt8}
    (hreach : (deployment session hsockets).network.Reaches state) :
    ¬ (deployment session hsockets).network.Finished state.done .destination := by
  intro hfinished
  have hlength : state.done .destination = 9 := by
    rw [hfinished, actions_destination]
    rfl
  have haccept : .accept (DottedQuad.ofAddress setting.dest).text ∈
      (deployment session hsockets).network.history state.done .destination := by
    refine Network.mem_history 4 ?_ (by omega)
    rw [actions_destination]
    rfl
  obtain ⟨party, hconnect⟩ := (hreach.accounted.connected_iff _).mp
    (hreach.connected_of_accept haccept)
  have hmem := List.mem_of_mem_take hconnect
  cases party with
  | client =>
      rw [actions_client] at hmem
      have hdistinct := session.resolves.distinct
      simp only [List.mem_cons, reduceCtorEq, Action.connect.injEq, false_or,
        or_false, List.not_mem_nil] at hmem
      exact hdistinct (Or.inr (Or.inr hmem.symm))
  | server =>
      rw [actions_server session hsockets packets] at hmem
      simp only [List.mem_cons, reduceCtorEq, Action.connect.injEq, false_or,
        or_false, List.not_mem_nil] at hmem
      exact hdest hmem.symm
  | destination =>
      rw [actions_destination] at hmem
      simp at hmem

theorem connectsTo_iff {packets : Packets setting} :
    connectsTo packets = (DottedQuad.ofAddress setting.dest).text ↔
      u32 setting.order packets.server 22 = setting.dest := by
  rw [connectsTo, ← parseIpAddrToStr_eq]
  exact parseIpAddrToStr_injective.eq_iff

/-- When the server connects to the destination there is no deadlock. -/
theorem exists_final {packets : Packets setting} (hdelivers : Delivers setting)
    (hconnects : connectsTo packets = (DottedQuad.ofAddress setting.dest).text) :
    ∃ final,
      (∀ party, (deployment session hsockets).network.Finished final.done
        party) ∧
      ∀ state, (deployment session hsockets).network.Reaches state →
        Relation.ReflTransGen (deployment session hsockets).network.Step state
          final := by
  have hprogress := Network.exists_step_of_rank
    (deployment session hsockets).network rank strictMono_rank
    fun state hreach => enabled_of_rank session hsockets packets hdelivers hreach
      hconnects
  obtain ⟨final, hfinal, hfinished⟩ :=
    Network.Reaches.exists_finished hprogress .refl
  refine ⟨final, hfinished, fun state hreach => ?_⟩
  obtain ⟨other, hother, hotherFinished⟩ := hreach.exists_finished hprogress
  rwa [Network.Reaches.eq_of_finished (hreach.trans hother) hfinal hotherFinished
    hfinished] at hother

end Runs

theorem delivers_hosts : Delivers hostsSetting :=
  ⟨by decide, by decide, by decide, by decide⟩

/-- The session of the first three hosts. -/
def hostsDeployment : Deployment := deployment hostsSession (by decide)

/-- A state in which its programs have ended. -/
theorem exists_final_hosts :
    ∃ final, hostsDeployment.network.Reaches final ∧
      ∀ party, hostsDeployment.network.Finished final.done party := by
  obtain ⟨packets, hpackets⟩ := exists_packets hostsSetting
  have hmissing := missingBytesMatchKey_of_le hostsSetting.order hostsSetting.key
    hostsSetting.dest (show 26 ≤ hostsSetting.requestCount by decide)
  rw [← hpackets, ← connectsTo_iff] at hmissing
  obtain ⟨final, hfinished, hreaches⟩ :=
    exists_final hostsSession (by decide) delivers_hosts hmissing
  exact ⟨final, hreaches _ .refl, hfinished⟩

end SimpleVpn.Progress
