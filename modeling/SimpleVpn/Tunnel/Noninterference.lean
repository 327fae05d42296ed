import SimpleVpn.Tunnel.Hiding
import SimpleVpn.Tunnel.Integrity

/-!
# The client behind the tunnel, in every run

For every run of the three programs with one client there is a run with any other
client in which the parties take the same turns, the outside host sees the same,
and as many bytes pass through the tunnel.  This holds whichever calls fail and
wherever the streams are cut.
-/

namespace SimpleVpn.Noninterference

open SimpleVpn.TracedMemory SimpleVpn.HostWords SimpleVpn.CStrings
open SimpleVpn.Keystream SimpleVpn.Networks SimpleVpn.Processes
open SimpleVpn.HostInfo SimpleVpn.Protocol SimpleVpn.Packet SimpleVpn.Programs
open SimpleVpn.Mains SimpleVpn.Stages SimpleVpn.Frame SimpleVpn.Rewrite
open SimpleVpn.Transit SimpleVpn.Hops SimpleVpn.Hiding SimpleVpn.System
open SimpleVpn.Exchange SimpleVpn.Sessions SimpleVpn.Integrity SimpleVpn.Progress

/-- The hops between client and server. -/
def Tunnelled (hop : Hop) : Prop := hop = .request ∨ hop = .reply

/-- The same action, or the same transfer through the tunnel with other bytes. -/
inductive LooksLike : NetAction → NetAction → Prop
  | same (action : NetAction) : LooksLike action action
  | sends {hop : Hop} (hhop : Tunnelled hop) {left right : List UInt8}
      (hlength : left.length = right.length) :
      LooksLike (.send hop left) (.send hop right)
  | receives {hop : Hop} (hhop : Tunnelled hop) {left right : List UInt8}
      (hlength : left.length = right.length) :
      LooksLike (.recv hop left) (.recv hop right)

theorem LooksLike.sameShape {left right : NetAction}
    (hlooks : LooksLike left right) : SameShape left right := by
  cases hlooks with
  | same => exact .refl left
  | sends _ hlength => exact .send _ hlength
  | receives _ hlength => exact .recv _ hlength

section Outside

variable {left right : List NetAction}
variable (hlooks : List.Forall₂ LooksLike left right) {hop : Hop}
variable (hhop : ¬ Tunnelled hop)

include hlooks hhop

/-- On the other hops the same is sent. -/
theorem sentOn_outside : sentOn hop left = sentOn hop right := by
  induction hlooks with
  | nil => rfl
  | cons hfirst _ ih =>
      rw [sentOn, sentOn, List.flatMap_cons, List.flatMap_cons]
      congr 1
      cases hfirst with
      | same action => rfl
      | sends htunnelled hlength =>
          rw [Action.sentOn, Action.sentOn, if_neg, if_neg] <;>
            exact fun heq => hhop (heq ▸ htunnelled)
      | receives htunnelled hlength => rfl

theorem receivedOn_outside : receivedOn hop left = receivedOn hop right := by
  induction hlooks with
  | nil => rfl
  | cons hfirst _ ih =>
      rw [receivedOn, receivedOn, List.flatMap_cons, List.flatMap_cons]
      congr 1
      cases hfirst with
      | same action => rfl
      | sends htunnelled hlength => rfl
      | receives htunnelled hlength =>
          rw [Action.receivedOn, Action.receivedOn, if_neg, if_neg] <;>
            exact fun heq => hhop (heq ▸ htunnelled)

end Outside

theorem value_scan_congr {left right : Block} (fuel : ℕ) {start : ℕ}
    (hbyte : ∀ index, start ≤ index → left.byte index = right.byte index) :
    (scan left fuel start).value = (scan right fuel start).value := by
  induction fuel generalizing start with
  | zero => rfl
  | succ fuel ih =>
      have hrest := ih fun index hindex => hbyte index (Nat.le_of_succ_le hindex)
      rw [scan, scan, Traced.value_bind, Traced.value_bind, value_load, value_load,
        hbyte start le_rfl]
      by_cases hzero : right.byte start = 0
      · rw [if_pos hzero, if_pos hzero]
      · rw [if_neg hzero, if_neg hzero, Traced.value_bind, Traced.value_bind,
          hrest]

section Reply

variable (order : ByteOrder) (heap : Heap)

theorem slack_rewriteAddress (packet : Block) {own other : ℕ}
    (hfields : AddressFields own other) (ipAddr : List UInt8) :
    (rewriteAddress order packet own other ipAddr).value.1.slack =
      packet.slack := by
  rw [value_rewriteAddress order packet hfields, slack_setU16, slack_setU32,
    slack_setU32, slack_setU16, halfSwapped, slack_setU16, slack_setU32,
    slack_setU32, slack_setU16]

/-- The payload of a wrapped response and its surroundings do not depend on the
client. -/
theorem strlen_serverWrap_eq (first second : UInt32) (recPacketDest : Block) :
    (strlen (serverWrap order heap first recPacketDest).value 46).value =
      (strlen (serverWrap order heap second recPacketDest).value 46).value := by
  rw [strlen, strlen, size_serverWrap, size_serverWrap, value_serverWrap,
    value_serverWrap, servHandlePktDest, servHandlePktDest,
    slack_rewriteAddress _ _ .dest, slack_rewriteAddress _ _ .dest]
  apply value_scan_congr
  intro index hindex
  rw [byte_rewriteAddress_of_le _ _ .dest _ (by omega),
    byte_rewriteAddress_of_le _ _ .dest _ (by omega)]

/-- A reply is as long for one client as for another, whatever the destination
sent. -/
theorem length_serverReply_eq (key : Key) (first second : UInt32)
    (recPacketDest : Block) :
    (serverReply order heap key first recPacketDest).value.length =
      (serverReply order heap key second recPacketDest).value.length := by
  have hstrlen := strlen_serverWrap_eq order heap first second recPacketDest
  simp only [serverReply, servCliEncryptFree, Traced.value_bind, value_loadBytes,
    Block.length_slice]
  rw [show sizeofGreHdr + sizeofIpHdr + sizeofTcpHdr = 46 from rfl, hstrlen]

end Reply

/-- Received bytes of which the server makes packets that look the same outside.
-/
def SameOutward (run : ServerRun) (serverIp : List UInt8)
    (other : Option (List UInt8)) : Prop :=
  ∀ left right, (servRecFromCli run.heap run.key run.request).value = some left →
    (servRecFromCli run.heap run.key other).value = some right →
      (forwardOf run.order serverIp left).destIp =
          (forwardOf run.order serverIp right).destIp ∧
        (serverForward (forwardOf run.order serverIp left)).value =
          (serverForward (forwardOf run.order serverIp right)).value

section Server

variable (run : ServerRun) (serverIp : List UInt8)
variable {request : Option (List UInt8)}
variable (hsome : run.request.isSome = request.isSome)
variable (hlength : (run.request.getD []).length = (request.getD []).length)

/-- An event of the server, with one request and with the other. -/
def ServerLooks (run : ServerRun) (serverIp : List UInt8)
    (request : Option (List UInt8)) (event other : Event) : Prop :=
  LooksLike (serverAction serverIp run event)
    (serverAction serverIp { run with request } other)

include hlength

theorem serverLooks_same (event : Event) :
    ServerLooks run serverIp request event event := by
  have hother : ∀ action, serverAction serverIp run event = action →
      serverAction serverIp { run with request } event = action →
        ServerLooks run serverIp request event event := by
    intro action hleft hright
    rw [ServerLooks, hleft, hright]
    exact .same action
  cases event with
  | called call succeeded =>
      cases succeeded with
      | false => cases call <;> exact hother .silent rfl rfl
      | true =>
          cases call with
          | recv fd size =>
              rw [ServerLooks, serverAction, serverAction]
              split
              next => exact .receives (Or.inl rfl) hlength
              next => exact .same _
          | _ => exact hother _ rfl rfl
  | _ => exact hother _ rfl rfl

variable {newSocket : ℕ} (haccept : run.accept = some newSocket)

include haccept

theorem looksLike_serverAnswer (clientFd : ℕ) (first second : UInt32) :
    List.Forall₂ (ServerLooks run serverIp request)
      (serverAnswer run newSocket clientFd first).events
      (serverAnswer { run with request } newSocket clientFd second).events := by
  have hsame := serverLooks_same run serverIp hlength
  rw [events_serverAnswer, events_serverAnswer]
  refine .cons (hsame _) ?_
  dsimp only
  cases (servRecFromDes (run.heap.after 2) run.response).value with
  | none => exact .cons (hsame _) .nil
  | some recPacketDest =>
      have hreply := length_serverReply_eq run.order (run.heap.after 3) run.key
        first second recPacketDest
      refine .cons (.same .silent) (.cons ?_ .nil)
      cases run.replies with
      | false => exact .same .silent
      | true =>
          rw [ServerLooks, serverAction, serverAction, if_pos haccept]
          exact .sends (Or.inr rfl) hreply

/-- The two packets are sent on alike, and the answers are as long. -/
theorem looksLike_serverHandle {left right : Block}
    (hdest : (forwardOf run.order serverIp left).destIp =
      (forwardOf run.order serverIp right).destIp)
    (hforward : (serverForward (forwardOf run.order serverIp left)).value =
      (serverForward (forwardOf run.order serverIp right)).value) :
    List.Forall₂ (ServerLooks run serverIp request)
      (serverHandle run serverIp newSocket left).events
      (serverHandle { run with request } serverIp newSocket right).events := by
  have hsame := serverLooks_same run serverIp hlength
  rw [events_serverHandle, events_serverHandle, ← hdest, ← hforward]
  refine .cons (.same .silent) ((only_connectOrExit _ _ _ _).forall₂_bind
    (fun event _ => hsame event) fun clientFd _ => ?_)
  simp only [send, bind_assoc, events_emit_bind, pure_bind]
  refine .cons (hsame _) ?_
  cases run.forwards with
  | false => exact .cons (hsame _) .nil
  | true =>
      rw [if_pos rfl, if_pos rfl, events_emit_bind, events_emit_bind]
      exact .cons (hsame _) (looksLike_serverAnswer run serverIp hlength haccept
        clientFd _ _)

include hsome

theorem looksLike_serverServe (hout : SameOutward run serverIp request) :
    List.Forall₂ (ServerLooks run serverIp request)
      (serverServe run serverIp newSocket).events
      (serverServe { run with request } serverIp newSocket).events := by
  have hsame := serverLooks_same run serverIp hlength
  have hleft := isSome_servRecFromCli run.heap run.key run.request
  have hright := isSome_servRecFromCli run.heap run.key request
  rw [hsome, ← hright] at hleft
  rw [events_serverServe, events_serverServe]
  dsimp only
  rw [← hsome]
  refine .cons (hsame _) ?_
  cases hfirst : (servRecFromCli run.heap run.key run.request).value with
  | none =>
      cases hsecond : (servRecFromCli run.heap run.key request).value with
      | none => exact .cons (hsame _) .nil
      | some right =>
          rw [hfirst, hsecond] at hleft
          cases hleft
  | some left =>
      cases hsecond : (servRecFromCli run.heap run.key request).value with
      | none =>
          rw [hfirst, hsecond] at hleft
          cases hleft
      | some right =>
          obtain ⟨hdest, hforward⟩ := hout left right hfirst hsecond
          exact looksLike_serverHandle run serverIp hlength haccept hdest hforward

omit haccept

/-- The server shows the outside the same, whichever of the two requests it
receives. -/
theorem looksLike_serverMain
    (hserver : ∀ hostIp, getHostIp (run.argv.getD 1 []) = some hostIp →
      hostIp = serverIp)
    (hout : SameOutward run serverIp request) :
    List.Forall₂ (ServerLooks run serverIp request) (serverMain run).events
      (serverMain { run with request }).events := by
  have hsame := serverLooks_same run serverIp hlength
  refine (only_hostAddress _ _).forall₂_bind (fun event _ => hsame event)
    fun hostIp hhost => ?_
  obtain rfl := hserver hostIp ((outcome_hostAddress_iff _ _ _).mp hhost).2
  refine (only_createListeningSocket _).forall₂_bind (fun event _ => hsame event)
    fun _ _ => ?_
  refine (only_accept _ _).forall₂_bind (fun event _ => hsame event)
    fun newSocket hsocket => ?_
  exact looksLike_serverServe run _ hsome hlength
    ((outcome_requireFd_iff _ _ _ _).mp hsocket) hout

end Server

section Client

variable (run : ClientRun) {argv : List (List UInt8)}
variable {response : Option (List UInt8)}

/-- An event of the client, with one name and reply and with the other. -/
def ClientLooks (run : ClientRun) (response : Option (List UInt8))
    (event other : Event) : Prop :=
  LooksLike (clientAction run event) (clientAction { run with response } other)

theorem clientLooks_same
    (hlength : (run.response.getD []).length = (response.getD []).length)
    (event : Event) : ClientLooks run response event event := by
  have hother : ∀ action, clientAction run event = action →
      clientAction { run with response } event = action →
        ClientLooks run response event event := by
    intro action hleft hright
    rw [ClientLooks, hleft, hright]
    exact .same action
  cases event with
  | called call succeeded =>
      cases succeeded with
      | false => cases call <;> exact hother .silent rfl rfl
      | true =>
          cases call with
          | recv fd size => exact .receives (Or.inr rfl) hlength
          | _ => exact hother _ rfl rfl
  | _ => exact hother _ rfl rfl

theorem length_clientRequest (order : ByteOrder) (heap : Heap) (key : Key)
    (ipSrc ipDest : List UInt8) (message : Message) (flags : UInt8) :
    (clientRequest order heap key ipSrc ipDest message.chars flags).value.length =
      46 + message.chars.length := by
  rw [value_clientRequest, length_encipher, length_frame]
  rfl

/-- Two clients that differ in their own address show the same, apart from the
bytes in the tunnel. -/
theorem looksLike_clientMain {hosts : ClientHosts} {clientIp : List UInt8}
    (hfirst : Resolves run.argv run.destHostName hosts)
    (hsecond : Resolves argv run.destHostName { hosts with clientIp })
    (hsome : run.response.isSome = response.isSome)
    (hlength : (run.response.getD []).length = (response.getD []).length) :
    List.Forall₂ (ClientLooks run response) (clientMain run).events
      (clientMain { run with argv, response }).events := by
  have hsame := clientLooks_same run hlength
  have hleft := (outcome_clientHosts_iff _ _ _).mpr hfirst
  have hright := (outcome_clientHosts_iff _ _ _).mpr hsecond
  rw [clientMain, clientMain, events_bind_of_ok hleft, events_bind_of_ok hright,
    events_clientHosts hfirst, events_clientHosts hsecond]
  refine .cons (hsame _) ((only_connectOrExit _ _ _ _).forall₂_bind
    (fun event _ => hsame event) fun clientFd _ => ?_)
  have hrequest : ∀ ipSrc : List UInt8, (clientRequest run.order run.heap run.key
      ipSrc hosts.destIp (chars "payload") tcpFlagSyn).value.length = 53 :=
    fun ipSrc => length_clientRequest _ _ _ _ _ requestPayload _
  rw [events_clientExchange, events_clientExchange, events_clientReceive,
    events_clientReceive]
  dsimp only
  rw [← hsome]
  refine .cons (hsame _) (.cons (.same .silent) (.cons ?_ (List.rel_append ?_
    (.cons (hsame _) ?_))))
  · cases run.sends with
    | false => exact .same .silent
    | true =>
        exact .sends (Or.inl rfl) ((hrequest _).trans (hrequest _).symm)
  · cases run.sends with
    | false => exact .cons (hsame _) .nil
    | true => exact .nil
  · have hfirstSome := isSome_servRecFromCli (run.heap.after 2) run.key
      run.response
    have hsecondSome := isSome_servRecFromCli (run.heap.after 2) run.key response
    rw [hsome, ← hsecondSome] at hfirstSome
    cases hfirstPacket : (servRecFromCli (run.heap.after 2) run.key
        run.response).value <;>
      cases hsecondPacket : (servRecFromCli (run.heap.after 2) run.key
        response).value <;> rw [hfirstPacket, hsecondPacket] at hfirstSome
    · exact .cons (hsame _) .nil
    · cases hfirstSome
    · cases hfirstSome
    · exact .cons (.same .silent) .nil

end Client

/-- Bytes received as a beginning of `old` become as many of `new`. -/
def retold (old new : List UInt8) (received : Option (List UInt8)) :
    Option (List UInt8) :=
  received.map fun bytes =>
    if bytes <+: old then new.take bytes.length else bytes

section Retold

variable {old new : List UInt8} (received : Option (List UInt8))

variable (old new) in
theorem isSome_retold : (retold old new received).isSome = received.isSome := by
  cases received <;> rfl

theorem length_retold (hlength : old.length = new.length) :
    ((retold old new received).getD []).length = (received.getD []).length := by
  cases received with
  | none => rfl
  | some bytes =>
      change (if bytes <+: old then new.take bytes.length else bytes).length = _
      split
      next hbegins =>
        have hle := hbegins.length_le
        rw [List.length_take, Option.getD_some]
        omega
      next => rfl

theorem retold_isPrefix (hbegins : received.getD [] <+: old) :
    (retold old new received).getD [] <+: new := by
  cases received with
  | none => exact List.nil_prefix
  | some bytes =>
      rw [Option.getD_some] at hbegins
      change (if bytes <+: old then new.take bytes.length else bytes) <+: _
      rw [if_pos hbegins]
      exact List.take_prefix _ _

end Retold

section Readdressed

variable (system : Deployment) {hosts : ClientHosts} {argv : List (List UInt8)}
variable {clientIp : List UInt8}
variable (hfirst : Resolves system.client.argv system.client.destHostName hosts)
variable (hsecond : Resolves argv system.client.destHostName
  { hosts with clientIp })

/-- The request of a client with another address. -/
def requestFrom (system : Deployment) (clientIp destIp : List UInt8) :
    List UInt8 :=
  (clientRequest system.client.order system.client.heap system.client.key
    clientIp destIp requestPayload.chars tcpFlagSyn).value

include hfirst in
theorem request_eq : system.request =
    requestFrom system hosts.clientIp hosts.destIp := by
  rw [Deployment.request, (outcome_clientHosts_iff _ _ _).mpr hfirst]
  rfl

theorem length_requestFrom (clientIp destIp : List UInt8) :
    (requestFrom system clientIp destIp).length = 53 :=
  length_clientRequest _ _ _ _ _ requestPayload _

/-- What the server receives of another client. -/
def requestTo (system : Deployment) (clientIp destIp : List UInt8) : ServerRun :=
  { system.server with
    request := retold system.request (requestFrom system clientIp destIp)
      system.server.request }

/-- The same programs with another client, of which as many bytes arrive. -/
def readdressed : Deployment where
  client := { system.client with
    argv
    response := retold system.reply
      (answerOf (requestTo system clientIp hosts.destIp)) system.client.response }
  server := requestTo system clientIp hosts.destIp
  destination := system.destination
  serverIp := system.serverIp
  destIp := system.destIp
  key_eq := system.key_eq
  clientServer other hother := by
    rw [← system.clientServer hosts hfirst]
    exact Option.some.inj (hother.server.symm.trans hsecond.server)
  serverName := system.serverName
  destName := system.destName
  socket_ne := system.socket_ne

include hfirst

/-- The server makes packets of both requests that look the same outside. -/
theorem sameOutward_requestTo :
    SameOutward system.server system.serverIp
      (requestTo system clientIp hosts.destIp).request := by
  intro left right hleft hright
  have hrequest := request_eq system hfirst
  cases hreceived : system.server.request with
  | none =>
      rw [hreceived] at hleft
      cases hleft
  | some bytes =>
      rw [requestTo, hreceived] at hright
      rw [hreceived] at hleft
      change (servRecFromCli system.server.heap system.server.key
        (some (if bytes <+: system.request then (requestFrom system clientIp
          hosts.destIp).take bytes.length else bytes))).value = some right at hright
      split at hright
      next hbegins =>
        rw [hrequest, List.prefix_iff_eq_take] at hbegins
        rw [hbegins, requestFrom, take_clientRequest] at hleft
        rw [requestFrom, take_clientRequest] at hright
        have hlength := requestPayload.length_le
        obtain ⟨offset, hoffset, -, hend⟩ := exists_payloadEnd_tunnelled
          system.client.key (length_headersWith system.client.order
            (builtSum system.client.order (parseIpAddr hosts.clientIp)
              (parseIpAddr hosts.destIp)) (parseIpAddr hosts.clientIp)
            (parseIpAddr hosts.destIp) tcpFlagSyn) requestPayload bytes.length
        obtain ⟨destIp, forwarded, -, hleftOut, hrightOut⟩ :=
          (sameButSource_tunnelled system.client.order system.client.key
            requestPayload tcpFlagSyn bytes.length _ _ _
            (parseIpAddr clientIp) _).serverOutward_eq system.server.order
              system.server.heap system.server.heap system.server.key
              system.serverIp 0 (by omega) hend
        rw [serverOutward_of_received hleft] at hleftOut
        rw [serverOutward_of_received hright] at hrightOut
        rw [← hrightOut, Option.some.injEq, Prod.mk.injEq] at hleftOut
        exact hleftOut
      next =>
        rw [hleft] at hright
        cases hright
        exact ⟨rfl, rfl⟩

omit hfirst in
theorem length_answerOf_eq (run : ServerRun) {request : Option (List UInt8)}
    (hsome : run.request.isSome = request.isSome) :
    (answerOf run).length = (answerOf { run with request }).length := by
  have hleft := isSome_servRecFromCli run.heap run.key run.request
  have hright := isSome_servRecFromCli run.heap run.key request
  rw [hsome, ← hright] at hleft
  rw [answerOf, answerOf]
  dsimp only
  cases hfirstPacket : (servRecFromCli run.heap run.key run.request).value <;>
    cases hsecondPacket : (servRecFromCli run.heap run.key request).value <;>
    rw [hfirstPacket, hsecondPacket] at hleft
  · cases hleft
  · cases hleft
  · cases (servRecFromDes (run.heap.after 2) run.response).value with
    | none => rfl
    | some recPacketDest => exact length_serverReply_eq _ _ _ _ _ _

/-- What the three programs do looks the same with another client. -/
theorem looksLike_actions (party : Party) :
    List.Forall₂ LooksLike (system.network.actions party)
      ((readdressed system hfirst hsecond).network.actions party) := by
  have hlength : system.request.length =
      (requestFrom system clientIp hosts.destIp).length := by
    rw [request_eq system hfirst, length_requestFrom, length_requestFrom]
  have hrequestLength := length_retold system.server.request hlength
  have hrequestSome := isSome_retold system.request
    (requestFrom system clientIp hosts.destIp) system.server.request
  change List.Forall₂ LooksLike ((system.events party).map _)
    (((readdressed system hfirst hsecond).events party).map _)
  rw [List.forall₂_map_left_iff, List.forall₂_map_right_iff]
  cases party with
  | client =>
      refine looksLike_clientMain system.client hfirst hsecond ?_ ?_
      · exact (isSome_retold _ _ _).symm
      · refine (length_retold _ ?_).symm
        exact length_answerOf_eq system.server hrequestSome.symm
  | server =>
      exact looksLike_serverMain system.server system.serverIp hrequestSome.symm
        hrequestLength.symm system.serverName (sameOutward_requestTo system hfirst)
  | destination =>
      exact List.forall₂_same.mpr fun event _ => .same _

theorem alike_readdressed :
    Network.Alike system.network
      (readdressed system hfirst hsecond).network where
  writer_eq := rfl
  reader_eq := rfl
  shape party := (looksLike_actions system hfirst hsecond party).imp
    fun _ _ => LooksLike.sameShape

end Readdressed

section Moved

variable (system : Deployment) (state : State Party (List UInt8) Hop UInt8)

theorem sentOn_request_whole :
    sentOn .request (system.network.actions .client) <+: system.request := by
  have hsent := sentOn_isPrefix .request system.transfers_client
  rw [sentOn_transfers] at hsent
  refine hsent.trans ?_
  cases system.client.sends <;> simp [sentOn, Action.sentOn]

theorem sentOn_reply_whole :
    sentOn .reply (system.network.actions .server) <+: system.reply := by
  have hsent := sentOn_isPrefix .reply system.transfers_server
  rw [sentOn_transfers] at hsent
  refine hsent.trans ?_
  simp [sentOn, Action.sentOn]

/-- The server has received all that it receives of the request, or nothing. -/
theorem receivedOn_request_cases :
    receivedOn .request (past system state .server) = [] ∨
      receivedOn .request (past system state .server) =
        system.server.request.getD [] := by
  have hbegins := transfers_past_server system state
  rcases isPrefix_or_isPrefix [] hbegins with hshort | hlong
  · left
    rw [← receivedOn_transfers, List.prefix_nil.mp hshort]
    rfl
  · right
    exact receivedOn_request system state
      (List.mem_of_mem_filter (hlong.subset List.mem_cons_self))

theorem receivedOn_request_isPrefix :
    receivedOn .request (past system state .server) <+:
      system.server.request.getD [] := by
  rcases receivedOn_request_cases system state with hnil | hall
  · rw [hnil]
    exact List.nil_prefix
  · rw [hall]

/-- The client has received all that it receives of the reply, or nothing. -/
theorem receivedOn_reply_cases :
    receivedOn .reply (past system state .client) = [] ∨
      receivedOn .reply (past system state .client) =
        system.client.response.getD [] := by
  have hbegins := transfers_past_client system state
  rcases isPrefix_or_isPrefix _ hbegins with hshort | hlong
  · left
    have hreceived := receivedOn_isPrefix .reply hshort
    rw [receivedOn_transfers] at hreceived
    apply List.prefix_nil.mp
    refine hreceived.trans ?_
    cases system.client.sends <;> simp [receivedOn, Action.receivedOn]
  · right
    exact receivedOn_reply system state
      (List.mem_of_mem_filter (hlong.subset (by simp)))

theorem receivedOn_reply_isPrefix :
    receivedOn .reply (past system state .client) <+:
      system.client.response.getD [] := by
  rcases receivedOn_reply_cases system state with hnil | hall
  · rw [hnil]
    exact List.nil_prefix
  · rw [hall]

end Moved

section Runs

variable {system : Deployment} {hosts : ClientHosts} {argv : List (List UInt8)}
variable {clientIp : List UInt8}
variable (hfirst : Resolves system.client.argv system.client.destHostName hosts)
variable (hsecond : Resolves argv system.client.destHostName
  { hosts with clientIp })
variable {state : State Party (List UInt8) Hop UInt8}
variable (hreach : system.network.Reaches state)

include hreach in
/-- On a hop where sender and receiver keep to one text, what the receiver takes
was sent. -/
theorem receivedOn_isPrefix_of_whole (hop : Hop) {whole : List UInt8}
    (hreceived : receivedOn hop (past (readdressed system hfirst hsecond) state
      hop.reader) <+: whole)
    (hsent : sentOn hop ((readdressed system hfirst hsecond).network.actions
      hop.writer) <+: whole) :
    receivedOn hop (past (readdressed system hfirst hsecond) state hop.reader) <+:
      sentOn hop ((readdressed system hfirst hsecond).network.actions
        hop.writer) := by
  have halike := alike_readdressed system hfirst hsecond
  apply List.prefix_of_prefix_length_le hreceived hsent
  have hreader := length_receivedOn_eq (halike.history state.done hop.reader) hop
  have hwriter := length_sentOn_eq (halike.shape hop.writer) hop
  have hcarried := (hreach.receivedOn_isPrefix hop).trans
    (sentOn_isPrefix hop (List.take_prefix _ _))
  rw [past, ← hreader, ← hwriter]
  exact hcarried.length_le

/-- The receiver on a hop takes nothing, or what it takes goes back to what the
first sender sent. -/
theorem retold_received (hop : Hop) {old new : List UInt8}
    {received : Option (List UInt8)}
    (hcases : receivedOn hop (past system state hop.reader) = [] ∨
      receivedOn hop (past system state hop.reader) = received.getD [])
    (hold : receivedOn hop (past system state hop.reader) <+: old)
    (hother : receivedOn hop (past (readdressed system hfirst hsecond) state
      hop.reader) <+: (retold old new received).getD []) :
    receivedOn hop (past (readdressed system hfirst hsecond) state hop.reader) <+:
      new := by
  have halike := alike_readdressed system hfirst hsecond
  have hreader := length_receivedOn_eq (halike.history state.done hop.reader) hop
  rcases hcases with hnil | hall
  · rw [past] at hnil
    rw [hnil, List.length_nil, eq_comm, List.length_eq_zero_iff] at hreader
    rw [past, hreader]
    exact List.nil_prefix
  · rw [hall] at hold
    exact hother.trans (retold_isPrefix received hold)

include hreach in
/-- In the other run, too, what is received was sent. -/
theorem receivedOn_readdressed (hop : Hop) :
    receivedOn hop (past (readdressed system hfirst hsecond) state hop.reader) <+:
      sentOn hop ((readdressed system hfirst hsecond).network.actions
        hop.writer) := by
  have houtside : ¬ Tunnelled hop →
      receivedOn hop (past (readdressed system hfirst hsecond) state
          hop.reader) <+:
        sentOn hop ((readdressed system hfirst hsecond).network.actions
          hop.writer) := by
    intro hhop
    have hlooks := looksLike_actions system hfirst hsecond
    have hpast := List.forall₂_take (state.done hop.reader) (hlooks hop.reader)
    rw [← sentOn_outside (hlooks hop.writer) hhop]
    change receivedOn hop (List.take _ _) <+: _
    rw [← receivedOn_outside hpast hhop]
    exact (hreach.receivedOn_isPrefix hop).trans
      (sentOn_isPrefix hop (List.take_prefix _ _))
  cases hop with
  | request =>
      have hrequest := retold_received hfirst hsecond .request
        (receivedOn_request_cases system state)
        ((hreach.receivedOn_isPrefix .request).trans (sentOn_request system state))
        (receivedOn_request_isPrefix (readdressed system hfirst hsecond) state)
      have hsent := sentOn_request_whole (readdressed system hfirst hsecond)
      rw [request_eq _ hsecond] at hsent
      exact receivedOn_isPrefix_of_whole hfirst hsecond hreach .request hrequest
        hsent
  | forward => exact houtside (by rintro (heq | heq) <;> cases heq)
  | response => exact houtside (by rintro (heq | heq) <;> cases heq)
  | reply =>
      have hcarried := (hreach.receivedOn_isPrefix .reply).trans
        (sentOn_isPrefix Hop.reply (List.take_prefix _ _))
      have hreply := retold_received hfirst hsecond .reply
        (receivedOn_reply_cases system state)
        (hcarried.trans (sentOn_reply_whole system))
        (receivedOn_reply_isPrefix (readdressed system hfirst hsecond) state)
      exact receivedOn_isPrefix_of_whole hfirst hsecond hreach .reply hreply
        (sentOn_reply_whole (readdressed system hfirst hsecond))

end Runs

/-- Whatever the three programs do with one client, in whatever order, and
whichever of their calls fail, they can do with any other: the same parties take
turns, the destination host and the network outside the tunnel see the same, and in
the tunnel as many bytes pass at each turn. -/
theorem noninterference (system : Deployment) {hosts : ClientHosts}
    {argv : List (List UInt8)} {clientIp : List UInt8}
    (hfirst : Resolves system.client.argv system.client.destHostName hosts)
    (hsecond : Resolves argv system.client.destHostName { hosts with clientIp })
    {trace : List (Party × NetAction)}
    {state : State Party (List UInt8) Hop UInt8}
    (hfollows : system.network.Follows trace state) :
    ∃ otherTrace otherState,
      (readdressed system hfirst hsecond).network.Follows otherTrace
        otherState ∧
      otherState.done = state.done ∧
      List.Forall₂ (fun step other => step.1 = other.1 ∧
        LooksLike step.2 other.2) trace otherTrace :=
  (alike_readdressed system hfirst hsecond).follows
    (looksLike_actions system hfirst hsecond)
    (fun _ hreach => receivedOn_readdressed hfirst hsecond hreach) hfollows

theorem noninterference_hosts :
    ∃ trace state, hostsDeployment.network.Follows trace state ∧
      (∀ party, hostsDeployment.network.Finished state.done party) ∧
      ∃ (other : Deployment) (otherTrace : List (Party × NetAction))
        (otherState : State Party (List UInt8) Hop UInt8),
        other.client.argv = [chars "./client", chars "h4", chars "h2"] ∧
        other.network.Follows otherTrace otherState ∧
        otherState.done = state.done ∧
        List.Forall₂ (fun step other => step.1 = other.1 ∧
          LooksLike step.2 other.2) trace otherTrace := by
  obtain ⟨final, hreach, hfinished⟩ := exists_final_hosts
  obtain ⟨trace, hfollows⟩ := hreach.exists_follows
  have hother : Resolves [chars "./client", chars "h4", chars "h2"]
      hostsDeployment.client.destHostName
      { clientIp := chars "10.0.0.4"
        serverIp := (DottedQuad.ofAddress hostsSetting.server).text
        destIp := (DottedQuad.ofAddress hostsSetting.dest).text } := by
    constructor <;> decide
  obtain ⟨otherTrace, otherState, hrun⟩ :=
    noninterference hostsDeployment hostsSession.resolves hother hfollows
  exact ⟨trace, final, hfollows, hfinished,
    readdressed hostsDeployment hostsSession.resolves hother, otherTrace,
    otherState, rfl, hrun⟩

end SimpleVpn.Noninterference
