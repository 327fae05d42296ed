import SimpleVpn.Tunnel.Progress

/-!
# The text that the programs print

A packet holds a prefix of a message when its payload area begins like the
message and ends somewhere in it.  Cutting a stream keeps this, and so does every
hop, so it holds of each packet that a program prints after it received it, in
every state of the network.
-/

namespace SimpleVpn.Integrity

open SimpleVpn.TracedMemory SimpleVpn.HostWords SimpleVpn.CStrings
open SimpleVpn.Keystream SimpleVpn.Networks SimpleVpn.Processes
open SimpleVpn.HostInfo SimpleVpn.Protocol SimpleVpn.Packet SimpleVpn.Programs
open SimpleVpn.Mains SimpleVpn.Stages SimpleVpn.Frame SimpleVpn.Rewrite
open SimpleVpn.Transit SimpleVpn.Hops SimpleVpn.Lengths SimpleVpn.System
open SimpleVpn.Progress

/-- From `start` on the bytes are those of the message, up to a zero. -/
def HoldsPrefix (byte : ℕ → UInt8) (start : ℕ) (message : Message) : Prop :=
  ∃ offset ≤ message.chars.length, byte (start + offset) = 0 ∧
    ∀ index < offset, byte (start + index) = message.chars.getD index 0

section HoldsPrefix

variable {byte : ℕ → UInt8} {start : ℕ} {message : Message}

theorem holdsPrefix_of_zero (hzero : byte start = 0) :
    HoldsPrefix byte start message :=
  ⟨0, Nat.zero_le _, hzero, fun _ hindex => absurd hindex (Nat.not_lt_zero _)⟩

/-- A copy in which bytes are missing holds a shorter prefix. -/
theorem HoldsPrefix.cut (hholds : HoldsPrefix byte start message)
    {other : ℕ → UInt8} {origin : ℕ}
    (hcopy : ∀ index < 128, other (origin + index) = byte (start + index) ∨
      other (origin + index) = 0) :
    HoldsPrefix other origin message := by
  have hlength := message.length_le
  obtain ⟨offset, hoffset, hzero, hbyte⟩ := hholds
  have hend : other (origin + offset) = 0 := by
    rcases hcopy offset (by omega) with heq | heq
    · rw [heq, hzero]
    · exact heq
  obtain ⟨first, hle, hfirst⟩ := exists_firstZero hend
  refine ⟨first, by omega, hfirst.zero, fun index hindex => ?_⟩
  rcases hcopy index (by omega) with heq | heq
  · rw [heq, hbyte index (by omega)]
  · exact absurd heq (hfirst.nonzero index hindex)

/-- A reader finds that prefix. -/
theorem HoldsPrefix.stringAt_isPrefix {packet : Block}
    (hholds : HoldsPrefix packet.byte start message)
    (hsize : start + 128 ≤ packet.size) :
    stringAt packet start <+: message.chars := by
  have hlength := message.length_le
  obtain ⟨offset, hoffset, hzero, hbyte⟩ := hholds
  rw [stringAt_of_begins message.nulFree hoffset hbyte hzero (by omega)]
  exact List.take_prefix offset message.chars

end HoldsPrefix

/-- The prefix ends at the first zero. -/
theorem HoldsPrefix.exists_firstZero {byte : ℕ → UInt8} {start : ℕ}
    {message : Message} (hholds : HoldsPrefix byte start message) :
    ∃ offset ≤ message.chars.length, FirstZero byte start offset ∧
      ∀ index < offset, byte (start + index) = message.chars.getD index 0 := by
  obtain ⟨offset, hoffset, hzero, hbyte⟩ := hholds
  refine ⟨offset, hoffset, ⟨hzero, fun index hindex => ?_⟩, hbyte⟩
  rw [hbyte index hindex]
  exact message.getD_ne_zero (by omega)

theorem HoldsPrefix.mono {byte : ℕ → UInt8} {start : ℕ} {short long : Message}
    (hholds : HoldsPrefix byte start short)
    (hbegins : short.chars <+: long.chars) : HoldsPrefix byte start long := by
  obtain ⟨offset, hoffset, hzero, hbyte⟩ := hholds
  obtain ⟨rest, hrest⟩ := hbegins
  refine ⟨offset, by rw [← hrest, List.length_append]; omega, hzero,
    fun index hindex => ?_⟩
  rw [hbyte index hindex, ← hrest, List.getD_append _ _ _ _ (by omega)]

theorem getD_of_isPrefix {delivered whole : List UInt8}
    (hbegins : delivered <+: whole) (index : ℕ) :
    delivered.getD index 0 = whole.getD index 0 ∨ delivered.getD index 0 = 0 := by
  rw [List.prefix_iff_eq_take.mp hbegins, getD_take]
  split
  next => exact Or.inl rfl
  next => exact Or.inr rfl

section Hops

variable {message : Message} {delivered : List UInt8}

/-- What was enciphered with the key is deciphered with it. -/
theorem servRecFromCli_holdsPrefix (heap : Heap) (key : Key)
    {headers : List UInt8} (hheaders : headers.length = 46)
    (hbegins : delivered <+: encipher key (headers ++ message.chars)) :
    ∃ packet, (servRecFromCli heap key (some delivered)).value = some packet ∧
      packet.size = 174 ∧ HoldsPrefix packet.byte 46 message := by
  have hlength := message.length_le
  have htunnelled : delivered =
      tunnelled key headers message delivered.length :=
    List.prefix_iff_eq_take.mp hbegins
  obtain ⟨offset, hoffset, -, hend⟩ := exists_payloadEnd_tunnelled key hheaders
    message delivered.length
  obtain ⟨packet, hsome, hpacket⟩ :=
    servRecFromCli_some heap key (by omega) hend
  rw [htunnelled]
  refine ⟨packet, hsome, hpacket.size_eq, offset, hoffset, ?_, ?_⟩
  · rw [hpacket.byte_eq _ (by omega), if_pos rfl]
  · intro index hindex
    have harrived := arrived_of_payloadEnd key hheaders message _ hend hindex
    rw [Deciphered.byte_of_ne hpacket (by omega) (by omega), if_pos (by
      rw [List.length_append]
      omega), List.getD_append_right _ _ _ _ (by omega), hheaders,
      Nat.add_sub_cancel_left]

theorem destRecPkt_holdsPrefix (heap : Heap) (order : ByteOrder)
    (serverIp : List UInt8) {recPacket : Block}
    (hholds : HoldsPrefix recPacket.byte 46 message)
    (hbegins : delivered <+:
      (serverForward (forwardOf order serverIp recPacket)).value) :
    ∃ packet, (destRecPkt heap (some delivered)).value = some packet ∧
      packet.size = 168 ∧ HoldsPrefix packet.byte 40 message := by
  obtain ⟨packet, hsome, hsize, hbyte⟩ := destRecPkt_some heap delivered
  refine ⟨packet, hsome, hsize, hholds.cut fun index hindex => ?_⟩
  have hforwarded : (serverForward (forwardOf order serverIp
      recPacket)).value.getD (40 + index) 0 = recPacket.byte (46 + index) := by
    rw [value_serverForward, Block.getD_slice _ _ _ _ (by omega), servHandlePkt,
      byte_rewriteAddress_of_le order recPacket .source _ (by omega),
      show 6 + (40 + index) = 46 + index by omega]
  rw [hbyte _ (by omega), ← hforwarded]
  exact getD_of_isPrefix hbegins (40 + index)

theorem servRecFromDes_holdsPrefix (heap destHeap : Heap) (order : ByteOrder)
    (hostIp : List UInt8) (recPacket : Block) (flags : UInt8)
    (hbegins : delivered <+: (destinationReply order destHeap hostIp recPacket
      message.chars flags).value) :
    ∃ packet, (servRecFromDes heap (some delivered)).value = some packet ∧
      HoldsPrefix packet.byte 40 message := by
  have hlength := message.length_le
  have hresponse := responseOf_destinationReply order destHeap hostIp recPacket
    message flags
  obtain ⟨packet, hsome, -, hbyte⟩ := servRecFromDes_some heap delivered
  have hsent : HoldsPrefix (fun index => (destinationReply order destHeap hostIp
      recPacket message.chars flags).value.getD index 0) 40 message := by
    refine ⟨message.chars.length, le_rfl, ?_, fun index hindex => ?_⟩
    · dsimp only
      rw [hresponse.message_eq _ (by omega), List.getD_eq_default _ _ le_rfl]
    · exact hresponse.message_eq index (by omega)
  refine ⟨packet, hsome, hsent.cut fun index hindex => ?_⟩
  rw [hbyte _ (by omega)]
  exact getD_of_isPrefix hbegins (40 + index)

section Wrap

variable (order : ByteOrder) (heap : Heap) (clientIp : UInt32)
variable {recPacketDest : Block}
variable (hholds : HoldsPrefix recPacketDest.byte 40 message)

include hholds

theorem serverWrap_holdsPrefix :
    HoldsPrefix (serverWrap order heap clientIp recPacketDest).value.byte 46
      message := by
  refine hholds.cut fun index hindex => Or.inl ?_
  rw [byte_serverWrap _ _ _ _ (by omega), if_neg (by omega), if_neg (by omega),
    if_neg (by omega), show 46 + index - 6 = 40 + index by omega]

/-- The reply carries the part of the message that the server holds. -/
theorem clientReceives_holdsPrefix (clientHeap : Heap) (key : Key)
    (hbegins : delivered <+:
      (serverReply order heap key clientIp recPacketDest).value) :
    ∃ packet, (servRecFromCli clientHeap key (some delivered)).value =
        some packet ∧
      packet.size = 174 ∧ HoldsPrefix packet.byte 46 message := by
  have hlength := message.length_le
  obtain ⟨offset, hoffset, hfirst, hbyte⟩ := hholds.exists_firstZero
  have hchars : (serverWrap order heap clientIp recPacketDest).value.slice 0
      (46 + offset) =
        (serverWrap order heap clientIp recPacketDest).value.slice 0 46 ++
          (message.beginning offset).chars := by
    rw [Block.slice_add]
    congr 1
    apply Block.slice_eq
    · rw [Message.beginning, List.length_take]
      omega
    · intro index hindex
      rw [byte_serverWrap _ _ _ _ (by omega), if_neg (by omega),
        if_neg (by omega), if_neg (by omega),
        show 0 + 46 + index - 6 = 40 + index by omega, hbyte index hindex,
        Message.beginning, getD_take, if_pos hindex]
  rw [value_serverReply order heap key clientIp recPacketDest (by omega) hfirst,
    hchars] at hbegins
  obtain ⟨packet, hsome, hsize, hshort⟩ := servRecFromCli_holdsPrefix clientHeap
    key (Block.length_slice _ _ _) hbegins
  exact ⟨packet, hsome, hsize, hshort.mono (List.take_prefix _ _)⟩

end Wrap

end Hops

/-- A run that printed the packet at `start` right after it received it on a
connection. -/
def PrintsReceived (events : List Event) (fd : ℕ) (packet : Block) (start : ℕ) :
    Prop :=
  ∃ size before after, events = before ++
    .called (.recv fd size) true :: .printed packet start :: after

/-- A packet that is printed right after a receipt has a property. -/
def OnReceipt (property : ℕ → Block → ℕ → Prop) : Event → Event → Prop
  | .called (.recv fd _) true, .printed packet start => property fd packet start
  | _, _ => True

section OnReceipt

variable {property : ℕ → Block → ℕ → Prop}

theorem onReceipt_of_not_recv {first : Event}
    (hfirst : ∀ fd size succeeded, first ≠ .called (.recv fd size) succeeded)
    (second : Event) : OnReceipt property first second := by
  cases first with
  | called call succeeded =>
      cases call with
      | recv fd size => exact absurd rfl (hfirst fd size succeeded)
      | _ => trivial
  | _ => trivial

theorem ignores_onReceipt :
    Ignores (List.IsChain (OnReceipt property)) Preliminary := by
  apply ignores_isChain
  intro first second hfirst
  apply onReceipt_of_not_recv
  rintro fd size succeeded rfl
  exact hfirst trivial

theorem isChain_cons_of_not_recv {first : Event}
    (hfirst : ∀ fd size succeeded, first ≠ .called (.recv fd size) succeeded)
    (rest : List Event) :
    List.IsChain (OnReceipt property) (first :: rest) ↔
      List.IsChain (OnReceipt property) rest := by
  rw [List.isChain_cons]
  exact and_iff_right fun second _ => onReceipt_of_not_recv hfirst second

theorem PrintsReceived.holds {events : List Event} {fd : ℕ} {packet : Block}
    {start count : ℕ} (hprints : PrintsReceived (events.take count) fd packet start)
    (hchain : List.IsChain (OnReceipt property) events) :
    property fd packet start := by
  obtain ⟨size, before, after, heq⟩ := hprints
  have htaken := hchain.take count
  rw [heq] at htaken
  exact (List.isChain_cons_cons.mp htaken.right_of_append).1

end OnReceipt

section Programs

variable (system : Deployment)

/-- The client prints what it makes of the reply. -/
theorem isChain_client :
    List.IsChain (OnReceipt fun _ packet start => start = 0 ∧
      (servRecFromCli (system.client.heap.after 2) system.client.key
        system.client.response).value = some packet)
      (system.events .client) := by
  change List.IsChain _ (clientMain system.client).events
  rw [clientMain, ignores_onReceipt.bind_iff (only_clientHosts _ _)]
  intro hosts _
  rw [ignores_onReceipt.bind_iff (only_connectOrExit _ _ _ _)]
  intro clientFd _
  rw [events_clientExchange, events_clientReceive]
  cases hreceived : (servRecFromCli (system.client.heap.after 2)
      system.client.key system.client.response).value with
  | none =>
      cases system.client.sends <;> cases system.client.response.isSome <;>
        simp [OnReceipt]
  | some packet =>
      cases system.client.sends <;> cases system.client.response.isSome <;>
        simp [OnReceipt]

/-- The destination prints what it received. -/
theorem isChain_destination :
    List.IsChain (OnReceipt fun _ packet start => start = 0 ∧
      (destRecPkt system.destination.heap system.destination.request).value =
        some packet) (system.events .destination) := by
  change List.IsChain _ (destinationMain system.destination).events
  rw [destinationMain, destinationAddress, createDestSocket,
    acceptDestConnection, accepting_iff ignores_onReceipt]
  intro hostIp newSocket _
  rw [events_destinationServe]
  cases hreceived : (destRecPkt system.destination.heap
      system.destination.request).value with
  | none => cases system.destination.request.isSome <;> simp [OnReceipt]
  | some recPacket =>
      dsimp only
      rw [events_destinationRespond]
      cases system.destination.request.isSome <;> simp [OnReceipt]

/-- The server prints what it received from the client, and the response of the
destination behind a fresh GRE header. -/
theorem isChain_server :
    List.IsChain (OnReceipt fun fd packet start =>
      (start = 0 ∧ system.server.accept = some fd ∧
        (servRecFromCli system.server.heap system.server.key
          system.server.request).value = some packet) ∨
      (start = 0 ∧ system.server.accept ≠ some fd ∧ ∃ clientIp recPacketDest,
        (servRecFromDes (system.server.heap.after 2)
          system.server.response).value = some recPacketDest ∧
        packet = (serverWrap system.server.order (system.server.heap.after 3)
          clientIp recPacketDest).value)) (system.events .server) := by
  change List.IsChain _ (serverMain system.server).events
  rw [serverMain, serverAddress, createServerSocket, acceptClientConnection,
    accepting_iff ignores_onReceipt]
  intro serverIp newSocket haccepts
  rw [events_serverServe]
  cases hreceived : (servRecFromCli system.server.heap system.server.key
      system.server.request).value with
  | none => cases system.server.request.isSome <;> simp [OnReceipt]
  | some recPacket =>
      dsimp only
      rw [events_serverHandle, List.isChain_cons_cons,
        isChain_cons_of_not_recv (by rintro _ _ _ ⟨⟩),
        ignores_onReceipt.bind_iff (only_connectOrExit _ _ _ _)]
      constructor
      · cases system.server.request.isSome with
        | false => trivial
        | true => exact Or.inl ⟨rfl, haccepts.accepts, rfl⟩
      intro clientFd hconnected
      have hne : system.server.accept ≠ some clientFd := fun heq =>
        system.socket_ne clientFd heq
          ((outcome_connectOrExit_iff _ _ _ _ _).mp hconnected).1
      rw [send, bind_assoc, events_emit_bind, pure_bind]
      cases system.server.forwards with
      | false => simp [OnReceipt, giveUp]
      | true =>
          rw [if_pos rfl, events_emit_bind, events_serverAnswer]
          cases hrec : (servRecFromDes (system.server.heap.after 2)
              system.server.response).value with
          | none =>
              cases system.server.response.isSome <;> simp [OnReceipt]
          | some recPacketDest =>
              cases system.server.response.isSome with
              | false => simp [OnReceipt]
              | true =>
                  simp [OnReceipt, hne]
                  exact ⟨_, rfl⟩

end Programs

section Moved

variable (system : Deployment)
variable (state : State Party (List UInt8) Hop UInt8)

/-- What a program showed up to a state. -/
def shown (party : Party) : List Event :=
  (system.events party).take (state.done party)

/-- What a program did up to a state. -/
def past (party : Party) : List NetAction :=
  system.network.history state.done party

variable {system state} in
theorem recv_mem_past {party : Party} {fd : ℕ} {packet : Block} {start : ℕ}
    (hprints : PrintsReceived (shown system state party) fd packet start) :
    ∃ size, system.action party (.called (.recv fd size) true) ∈
      past system state party := by
  obtain ⟨size, before, after, heq⟩ := hprints
  have hpast : past system state party =
      (shown system state party).map (system.action party) := List.map_take.symm
  refine ⟨size, ?_⟩
  rw [hpast, heq, List.map_append, List.map_cons]
  exact List.mem_append_right _ List.mem_cons_self

theorem transfers_past_isPrefix (party : Party) :
    transfers (past system state party) <+:
      transfers (system.network.actions party) :=
  (List.take_prefix _ _).filter _

/-- What a program receives on a hop once it did so, when it does so once. -/
theorem receivedOn_of_mem {actions : List NetAction} {hop : Hop}
    {bytes : List UInt8} (front back : List NetAction)
    (hbegins : transfers actions <+: front ++ .recv hop bytes :: back)
    (hmem : .recv hop bytes ∈ actions) (hfront : .recv hop bytes ∉ front)
    (honce : receivedOn hop (front ++ [.recv hop bytes]) =
      receivedOn hop (front ++ .recv hop bytes :: back)) :
    receivedOn hop actions = receivedOn hop (front ++ [.recv hop bytes]) := by
  rw [← receivedOn_transfers]
  rcases isPrefix_or_isPrefix front hbegins with hshort | hlong
  · exact absurd (hshort.subset (List.mem_filter.mpr ⟨hmem, rfl⟩)) hfront
  · rw [honce]
    exact receivedOn_eq_of_between hop hlong hbegins honce

section Client

theorem transfers_past_client :
    transfers (past system state .client) <+:
      (if system.client.sends then [.send .request system.request] else []) ++
        [.recv .reply (system.client.response.getD [])] :=
  (transfers_past_isPrefix system state .client).trans system.transfers_client

/-- The client has sent all of its request or nothing. -/
theorem sentOn_request :
    sentOn .request (past system state .client) <+: system.request := by
  have hsent := sentOn_isPrefix .request (transfers_past_client system state)
  rw [sentOn_transfers] at hsent
  refine hsent.trans ?_
  cases system.client.sends <;> simp [sentOn, Action.sentOn]

theorem receivedOn_reply
    (hmem : .recv .reply (system.client.response.getD []) ∈
      past system state .client) :
    receivedOn .reply (past system state .client) =
      system.client.response.getD [] := by
  rw [receivedOn_of_mem _ [] (transfers_past_client system state) hmem]
  · cases system.client.sends <;> simp [receivedOn, Action.receivedOn]
  · cases system.client.sends <;> simp
  · rfl

end Client

section Server

theorem transfers_past_server :
    transfers (past system state .server) <+:
      [.recv .request (system.server.request.getD []),
        .send .forward system.forward,
        .recv .response (system.server.response.getD []),
        .send .reply system.reply] :=
  (transfers_past_isPrefix system state .server).trans system.transfers_server

theorem receivedOn_request
    (hmem : .recv .request (system.server.request.getD []) ∈
      past system state .server) :
    receivedOn .request (past system state .server) =
      system.server.request.getD [] := by
  rw [receivedOn_of_mem [] _ (transfers_past_server system state) hmem
    List.not_mem_nil]
  all_goals simp [receivedOn, Action.receivedOn]

theorem receivedOn_response
    (hmem : .recv .response (system.server.response.getD []) ∈
      past system state .server) :
    receivedOn .response (past system state .server) =
      system.server.response.getD [] := by
  rw [receivedOn_of_mem [.recv .request (system.server.request.getD []),
    .send .forward system.forward] _ (transfers_past_server system state) hmem]
  all_goals simp [receivedOn, Action.receivedOn]

/-- The server sends on what it received. -/
theorem sentOn_forward :
    sentOn .forward (past system state .server) = [] ∨
      sentOn .forward (past system state .server) = system.forward ∧
        .recv .request (system.server.request.getD []) ∈
          past system state .server := by
  have hbegins := transfers_past_server system state
  rw [← sentOn_transfers]
  rcases isPrefix_or_isPrefix [_] hbegins with hshort | hlong
  · left
    apply List.prefix_nil.mp
    have hsent := sentOn_isPrefix .forward hshort
    simpa [sentOn, Action.sentOn] using hsent
  · right
    constructor
    · rw [sentOn_eq_of_between .forward hlong hbegins]
      all_goals simp [sentOn, Action.sentOn]
    · exact List.mem_of_mem_filter (hlong.subset List.mem_cons_self)

/-- The server answers what it received. -/
theorem sentOn_reply :
    sentOn .reply (past system state .server) = [] ∨
      sentOn .reply (past system state .server) = system.reply ∧
        .recv .response (system.server.response.getD []) ∈
          past system state .server := by
  have hbegins := transfers_past_server system state
  rw [← sentOn_transfers]
  rcases isPrefix_or_isPrefix [_, _, _] hbegins with hshort | hlong
  · left
    apply List.prefix_nil.mp
    have hsent := sentOn_isPrefix .reply hshort
    simpa [sentOn, Action.sentOn] using hsent
  · right
    constructor
    · rw [sentOn_eq_of_between .reply hlong hbegins]
      all_goals simp [sentOn, Action.sentOn]
    · exact List.mem_of_mem_filter (hlong.subset (by simp))

end Server

section Destination

theorem transfers_past_destination :
    transfers (past system state .destination) <+:
      [.recv .forward (system.destination.request.getD []),
        .send .response system.response] :=
  (transfers_past_isPrefix system state .destination).trans
    system.transfers_destination

theorem receivedOn_forward
    (hmem : .recv .forward (system.destination.request.getD []) ∈
      past system state .destination) :
    receivedOn .forward (past system state .destination) =
      system.destination.request.getD [] := by
  rw [receivedOn_of_mem [] _ (transfers_past_destination system state) hmem
    List.not_mem_nil]
  all_goals simp [receivedOn, Action.receivedOn]

theorem sentOn_response :
    sentOn .response (past system state .destination) <+: system.response := by
  have hsent := sentOn_isPrefix .response (transfers_past_destination system state)
  rw [sentOn_transfers] at hsent
  refine hsent.trans ?_
  simp [sentOn, Action.sentOn]

end Destination

end Moved

section Reached

variable {system : Deployment} {state : State Party (List UInt8) Hop UInt8}
variable (hreach : system.network.Reaches state)

theorem eq_some_getD {received : Option (List UInt8)}
    (hreceived : received.isSome = true) :
    received = some (received.getD []) := by
  cases received with
  | none => cases hreceived
  | some delivered => rfl

theorem servRecFromCli_request (heap : Heap) {delivered : List UInt8}
    (hbegins : delivered <+: system.request) :
    ∃ packet, (servRecFromCli heap system.client.key (some delivered)).value =
        some packet ∧
      packet.size = 174 ∧ HoldsPrefix packet.byte 46 requestPayload := by
  rw [Deployment.request] at hbegins
  split at hbegins
  next =>
    have hheaders : (List.replicate 46 (0 : UInt8)).length = 46 :=
      List.length_replicate
    apply servRecFromCli_holdsPrefix heap system.client.key hheaders
    rw [List.prefix_nil.mp hbegins]
    exact List.nil_prefix
  next hosts _ =>
    rw [value_clientRequest] at hbegins
    exact servRecFromCli_holdsPrefix heap system.client.key
      (length_headersWith _ _ _ _ _) hbegins

include hreach

/-- The server receives a prefix of the request. -/
theorem request_isPrefix
    (hmem : .recv .request (system.server.request.getD []) ∈
      past system state .server) :
    system.server.request.getD [] <+: system.request := by
  rw [← receivedOn_request system state hmem]
  exact (hreach.receivedOn_isPrefix .request).trans (sentOn_request system state)

/-- What it received is a packet that holds a prefix of the message. -/
theorem serverPacket_holdsPrefix {recPacket : Block}
    (hmem : .recv .request (system.server.request.getD []) ∈
      past system state .server)
    (hreceived : (servRecFromCli system.server.heap system.server.key
      system.server.request).value = some recPacket) :
    recPacket.size = 174 ∧ HoldsPrefix recPacket.byte 46 requestPayload := by
  obtain ⟨packet, hsome, hholds⟩ := servRecFromCli_request system.server.heap
    (request_isPrefix hreach hmem)
  have hrequest : system.server.request.isSome = true := by
    rw [← isSome_servRecFromCli system.server.heap system.server.key, hreceived]
    rfl
  rw [system.key_eq, eq_some_getD hrequest, hsome] at hreceived
  cases hreceived
  exact hholds

/-- The destination receives a prefix of what a packet with a prefix of the
message is sent on as. -/
theorem forward_isPrefix
    (hmem : .recv .forward (system.destination.request.getD []) ∈
      past system state .destination) :
    ∃ recPacket, HoldsPrefix recPacket.byte 46 requestPayload ∧
      system.destination.request.getD [] <+: (serverForward (forwardOf
        system.server.order system.serverIp recPacket)).value := by
  have hbegins : system.destination.request.getD [] <+:
      sentOn .forward (past system state .server) := by
    rw [← receivedOn_forward system state hmem]
    exact hreach.receivedOn_isPrefix .forward
  have hempty : ∀ delivered : List UInt8, delivered <+: [] →
      ∃ recPacket, HoldsPrefix recPacket.byte 46 requestPayload ∧
        delivered <+: (serverForward (forwardOf system.server.order
          system.serverIp recPacket)).value := by
    intro delivered hnil
    rw [List.prefix_nil.mp hnil]
    exact ⟨ofBytes [], holdsPrefix_of_zero (byte_ofBytes _ _), List.nil_prefix⟩
  rcases sentOn_forward system state with hnil | ⟨hforward, hreceived⟩
  · rw [hnil] at hbegins
    exact hempty _ hbegins
  · rw [hforward, Deployment.forward] at hbegins
    split at hbegins
    next => exact hempty _ hbegins
    next recPacket hsome =>
      exact ⟨recPacket, (serverPacket_holdsPrefix hreach hreceived hsome).2,
        hbegins⟩

/-- The server receives a prefix of the response. -/
theorem response_isPrefix
    (hmem : .recv .response (system.server.response.getD []) ∈
      past system state .server) :
    ∃ recPacket, system.server.response.getD [] <+:
      (destinationReply system.destination.order (system.destination.heap.after 1)
        system.destIp recPacket responseMsg.chars tcpFlagAck).value := by
  have hbegins : system.server.response.getD [] <+: system.response := by
    rw [← receivedOn_response system state hmem]
    exact (hreach.receivedOn_isPrefix .response).trans
      (sentOn_response system state)
  rw [Deployment.response] at hbegins
  split at hbegins
  next =>
    rw [List.prefix_nil.mp hbegins]
    exact ⟨ofBytes [], List.nil_prefix⟩
  next recPacket _ => exact ⟨recPacket, hbegins⟩

theorem responsePacket_holdsPrefix {recPacketDest : Block}
    (hmem : .recv .response (system.server.response.getD []) ∈
      past system state .server)
    (hreceived : (servRecFromDes (system.server.heap.after 2)
      system.server.response).value = some recPacketDest) :
    HoldsPrefix recPacketDest.byte 40 responseMsg := by
  obtain ⟨recPacket, hbegins⟩ := response_isPrefix hreach hmem
  obtain ⟨packet, hsome, hholds⟩ := servRecFromDes_holdsPrefix
    (system.server.heap.after 2) _ _ _ _ _ hbegins
  have hresponse : system.server.response.isSome = true := by
    rw [← isSome_servRecFromDes (system.server.heap.after 2), hreceived]
    rfl
  rw [eq_some_getD hresponse, hsome] at hreceived
  cases hreceived
  exact hholds

/-- The client receives a prefix of a reply with a prefix of the message. -/
theorem reply_isPrefix
    (hmem : .recv .reply (system.client.response.getD []) ∈
      past system state .client) :
    ∃ clientIp recPacketDest, HoldsPrefix recPacketDest.byte 40 responseMsg ∧
      system.client.response.getD [] <+: (serverReply system.server.order
        (system.server.heap.after 3) system.client.key clientIp
        recPacketDest).value := by
  have hbegins : system.client.response.getD [] <+:
      sentOn .reply (past system state .server) := by
    rw [← receivedOn_reply system state hmem]
    exact hreach.receivedOn_isPrefix .reply
  have hempty : ∀ delivered : List UInt8, delivered <+: [] →
      ∃ clientIp recPacketDest, HoldsPrefix recPacketDest.byte 40 responseMsg ∧
        delivered <+: (serverReply system.server.order
          (system.server.heap.after 3) system.client.key clientIp
          recPacketDest).value := by
    intro delivered hnil
    rw [List.prefix_nil.mp hnil]
    exact ⟨0, ofBytes [], holdsPrefix_of_zero (byte_ofBytes _ _),
      List.nil_prefix⟩
  rcases sentOn_reply system state with hnil | ⟨hreply, hreceived⟩
  · rw [hnil] at hbegins
    exact hempty _ hbegins
  · rw [hreply, Deployment.reply, answerOf] at hbegins
    split at hbegins
    next recPacket recPacketDest _ hsome =>
      rw [system.key_eq] at hbegins
      exact ⟨_, recPacketDest,
        responsePacket_holdsPrefix hreach hreceived hsome, hbegins⟩
    next => exact hempty _ hbegins

end Reached

/-- Every packet that a program has printed on receipt shows a prefix of the
message that was sent to it: the server of the request on its first connection and
of the response on its second.  The text that is shown of a packet is the string behind
its headers, of which the destination prints no GRE header. -/
structure PrintsPrefixes (system : Deployment)
    (state : State Party (List UInt8) Hop UInt8) : Prop where
  request : ∀ fd packet start, system.server.accept = some fd →
    PrintsReceived (shown system state .server) fd packet start →
      stringAt packet (start + 46) <+: requestPayload.chars
  forward : ∀ fd packet start,
    PrintsReceived (shown system state .destination) fd packet start →
      stringAt packet (start + 40) <+: requestPayload.chars
  response : ∀ fd packet start, system.server.accept ≠ some fd →
    PrintsReceived (shown system state .server) fd packet start →
      stringAt packet (start + 46) <+: responseMsg.chars
  reply : ∀ fd packet start,
    PrintsReceived (shown system state .client) fd packet start →
      stringAt packet (start + 46) <+: responseMsg.chars

/-- However the programs take turns, whichever of their calls fail and wherever
the streams are cut, no program ever prints text that was not sent to it. -/
theorem printsPrefixes (system : Deployment)
    (state : State Party (List UInt8) Hop UInt8)
    (hreach : system.network.Reaches state) : PrintsPrefixes system state := by
  refine ⟨fun fd packet start hfd hprints => ?_, fun fd packet start hprints => ?_,
    fun fd packet start hfd hprints => ?_, fun fd packet start hprints => ?_⟩
  · obtain ⟨size, hmem⟩ := recv_mem_past hprints
    rw [Deployment.action, serverAction, if_pos hfd] at hmem
    rcases hprints.holds (isChain_server system) with
      ⟨rfl, _, hreceived⟩ | ⟨_, hne, _⟩
    · obtain ⟨hsize, hholds⟩ := serverPacket_holdsPrefix hreach hmem hreceived
      exact hholds.stringAt_isPrefix (by omega)
    · exact absurd hfd hne
  · obtain ⟨size, hmem⟩ := recv_mem_past hprints
    obtain ⟨rfl, hreceived⟩ := hprints.holds (isChain_destination system)
    obtain ⟨recPacket, hholds, hbegins⟩ := forward_isPrefix hreach hmem
    obtain ⟨other, hsome, hsize, hother⟩ := destRecPkt_holdsPrefix
      system.destination.heap _ _ hholds hbegins
    have hrequest : system.destination.request.isSome = true := by
      rw [← isSome_destRecPkt system.destination.heap, hreceived]
      rfl
    rw [eq_some_getD hrequest, hsome] at hreceived
    cases hreceived
    exact hother.stringAt_isPrefix (by omega)
  · obtain ⟨size, hmem⟩ := recv_mem_past hprints
    rw [Deployment.action, serverAction, if_neg hfd] at hmem
    rcases hprints.holds (isChain_server system) with
      ⟨_, heq, _⟩ | ⟨rfl, _, clientIp, recPacketDest, hreceived, rfl⟩
    · exact absurd heq hfd
    · have hholds := serverWrap_holdsPrefix system.server.order
        (system.server.heap.after 3) clientIp
        (responsePacket_holdsPrefix hreach hmem hreceived)
      exact hholds.stringAt_isPrefix (by rw [size_serverWrap])
  · obtain ⟨size, hmem⟩ := recv_mem_past hprints
    obtain ⟨rfl, hreceived⟩ := hprints.holds (isChain_client system)
    obtain ⟨clientIp, recPacketDest, hholds, hbegins⟩ := reply_isPrefix hreach hmem
    obtain ⟨other, hsome, hsize, hother⟩ := clientReceives_holdsPrefix _ _ _
      hholds (system.client.heap.after 2) _ hbegins
    have hresponse : system.client.response.isSome = true := by
      rw [← isSome_servRecFromCli (system.client.heap.after 2)
        system.client.key, hreceived]
      rfl
    rw [eq_some_getD hresponse, hsome] at hreceived
    cases hreceived
    exact hother.stringAt_isPrefix (by omega)

theorem printsPrefixes_hosts :
    ∃ final, (∀ party, hostsDeployment.network.Finished final.done party) ∧
      PrintsPrefixes hostsDeployment final := by
  obtain ⟨final, hreach, hfinished⟩ := exists_final_hosts
  exact ⟨final, hfinished, printsPrefixes hostsDeployment final hreach⟩

end SimpleVpn.Integrity
