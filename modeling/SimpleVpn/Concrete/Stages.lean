import SimpleVpn.Concrete.Mains

/-!
# The stages of the three programs

Before the first packet moves the programs read their arguments and set up
their sockets.  What these functions show is preliminary, and each hands over a
result exactly when its calls succeed.  After that each stage shows a list of
events that can be written down.
-/

namespace SimpleVpn.Stages

open SimpleVpn.TracedMemory SimpleVpn.HostWords SimpleVpn.CStrings
open SimpleVpn.Processes SimpleVpn.HostInfo SimpleVpn.Protocol SimpleVpn.Packet
open SimpleVpn.Programs SimpleVpn.Mains

def IsTransfer : Call → Prop
  | .send _ _ => True
  | .recv _ _ => True
  | _ => False

/-- An event before the first packet moves. -/
def Preliminary : Event → Prop
  | .called call _ => ¬ IsTransfer call
  | .reported _ => True
  | .noted _ => True
  | _ => False

section Calls

variable {A : Type}

theorem only_giveUp (text : List UInt8) (status : ℤ) :
    Only Preliminary (giveUp text status : Program A) := by
  rw [giveUp, only_emit_bind]
  exact ⟨trivial, only_stop _⟩

theorem outcome_giveUp_ne (text : List UInt8) (status : ℤ) (result : A) :
    (giveUp text status : Program A).outcome ≠ .ok result := by
  intro heq
  cases heq

section Required

variable {call : Call} (hcall : ¬ IsTransfer call) (text : List UInt8)

include hcall

theorem only_require (succeeds : Bool) :
    Only Preliminary (require call succeeds text) := by
  rw [require, only_emit_bind]
  refine ⟨hcall, ?_⟩
  split
  next => exact only_pure ()
  next => exact only_giveUp text 1

theorem only_requireFd (fd : Option ℕ) :
    Only Preliminary (requireFd call fd text) := by
  unfold requireFd
  rw [only_emit_bind]
  refine ⟨hcall, ?_⟩
  cases fd with
  | none => exact only_giveUp text 1
  | some fd => exact only_pure fd

end Required

theorem only_accept (newSocket : Option ℕ) (text : List UInt8) :
    Only Preliminary (requireFd .accept newSocket text) :=
  only_requireFd id text newSocket

theorem outcome_require_iff (call : Call) (succeeds : Bool) (text : List UInt8) :
    (require call succeeds text).outcome = .ok () ↔ succeeds = true := by
  cases succeeds with
  | false => exact iff_of_false (outcome_giveUp_ne text 1 ()) Bool.false_ne_true
  | true => exact iff_of_true rfl rfl

theorem outcome_requireFd_iff (call : Call) (fd : Option ℕ) (text : List UInt8)
    (result : ℕ) :
    (requireFd call fd text).outcome = .ok result ↔ fd = some result := by
  cases fd with
  | none =>
      exact iff_of_false (outcome_giveUp_ne text 1 result) (by simp)
  | some fd =>
      change Except.ok fd = Except.ok result ↔ _
      rw [Except.ok.injEq, Option.some.injEq]

theorem only_createClientSocket (clientFd : Option ℕ) :
    Only Preliminary (createClientSocket clientFd) := by
  unfold createClientSocket
  rw [only_emit_bind]
  refine ⟨id, ?_⟩
  cases clientFd with
  | none => exact (only_emit_bind _ _).mpr ⟨trivial, only_pure none⟩
  | some fd => exact only_pure (some fd)

theorem outcome_createClientSocket (clientFd : Option ℕ) :
    (createClientSocket clientFd).outcome = .ok clientFd := by
  cases clientFd <;> rfl

theorem only_connectToServer (serverIp : List UInt8) (converts connects : Bool) :
    Only Preliminary (connectToServer serverIp converts connects) := by
  rw [connectToServer, only_emit_bind]
  refine ⟨id, ?_⟩
  split
  next =>
    rw [only_emit_bind]
    refine ⟨id, ?_⟩
    split
    next =>
      exact (only_emit_bind _ _).mpr ⟨trivial, only_pure true⟩
    next =>
      exact (only_emit_bind _ _).mpr ⟨trivial, only_pure false⟩
  next => exact (only_emit_bind _ _).mpr ⟨trivial, only_pure false⟩

theorem outcome_connectToServer (serverIp : List UInt8)
    (converts connects : Bool) :
    (connectToServer serverIp converts connects).outcome =
      .ok (converts && connects) := by
  cases converts <;> cases connects <;> rfl

theorem only_connectOrExit (socket : Option ℕ) (serverIp : List UInt8)
    (converts connects : Bool) :
    Only Preliminary (connectOrExit socket serverIp converts connects) := by
  apply Only.bind (only_createClientSocket socket)
  intro clientFd _
  cases clientFd with
  | none => exact only_stop _
  | some clientFd =>
      apply Only.bind (only_connectToServer serverIp converts connects)
      intro connected _
      split
      next => exact only_pure clientFd
      next => exact only_stop _

theorem outcome_connectOrExit_iff (socket : Option ℕ) (serverIp : List UInt8)
    (converts connects : Bool) (clientFd : ℕ) :
    (connectOrExit socket serverIp converts connects).outcome = .ok clientFd ↔
      socket = some clientFd ∧ converts = true ∧ connects = true := by
  simp only [connectOrExit, outcome_bind_eq_ok_iff, outcome_createClientSocket,
    Except.ok.injEq, exists_eq_left']
  cases socket with
  | none => exact iff_of_false (fun heq => by cases heq) (by simp)
  | some fd =>
      simp only [outcome_bind_eq_ok_iff, outcome_connectToServer,
        Except.ok.injEq, exists_eq_left', Option.some.injEq,
        ← Bool.and_eq_true_iff]
      cases converts && connects with
      | false => exact iff_of_false (fun heq => by cases heq) (by simp)
      | true =>
          change Except.ok fd = Except.ok clientFd ↔ _
          rw [Except.ok.injEq, and_iff_left rfl]

/-- Every call that sets up the socket succeeds. -/
structure Listens (listener : Listener) (fd : ℕ) : Prop where
  socket : listener.socket = some fd
  setsockopt : listener.setsockopt = true
  bind : listener.bind = true
  listen : listener.listen = true

theorem only_createListeningSocket (listener : Listener) :
    Only Preliminary (createListeningSocket listener) := by
  apply Only.bind (only_requireFd id _ _)
  intro fd _
  apply Only.bind (only_require id _ _)
  intro _ _
  apply Only.bind (only_require id _ _)
  intro _ _
  apply Only.bind (only_require id _ _)
  intro _ _
  exact only_pure fd

theorem outcome_createListeningSocket_iff (listener : Listener) (fd : ℕ) :
    (createListeningSocket listener).outcome = .ok fd ↔ Listens listener fd := by
  simp only [createListeningSocket, outcome_bind_eq_ok_iff,
    outcome_requireFd_iff]
  constructor
  · rintro ⟨result, hsocket, _, hsetsockopt, _, hbind, _, hlisten, hresult⟩
    cases hresult
    exact ⟨hsocket, (outcome_require_iff _ _ _).mp hsetsockopt,
      (outcome_require_iff _ _ _).mp hbind, (outcome_require_iff _ _ _).mp hlisten⟩
  · rintro ⟨hsocket, hsetsockopt, hbind, hlisten⟩
    exact ⟨fd, hsocket, (), (outcome_require_iff _ _ _).mpr hsetsockopt, (),
      (outcome_require_iff _ _ _).mpr hbind, (),
      (outcome_require_iff _ _ _).mpr hlisten, rfl⟩

theorem only_hostAddress (argv : List (List UInt8)) (unknown : List UInt8) :
    Only Preliminary (hostAddress argv unknown) := by
  unfold hostAddress
  split
  next => exact only_giveUp _ 0
  next =>
    split
    next => exact only_giveUp unknown 0
    next => exact only_pure _

theorem outcome_hostAddress_iff (argv : List (List UInt8))
    (unknown hostIp : List UInt8) :
    (hostAddress argv unknown).outcome = .ok hostIp ↔
      argv.length = 2 ∧ getHostIp (argv.getD 1 []) = some hostIp := by
  unfold hostAddress
  split
  next hargc =>
    exact iff_of_false (outcome_giveUp_ne _ 0 hostIp) fun hboth =>
      hargc hboth.1
  next hargc =>
    rw [and_iff_right (not_not.mp hargc)]
    split
    next hunknown =>
      rw [hunknown]
      exact iff_of_false (outcome_giveUp_ne unknown 0 hostIp) (by simp)
    next found hfound =>
      change Except.ok found = Except.ok hostIp ↔ _
      rw [hfound, Except.ok.injEq, Option.some.injEq]

/-- Every step up to the connection that server and destination accept
succeeds. -/
structure Accepts (argv : List (List UInt8)) (listener : Listener)
    (accept : Option ℕ) (hostIp : List UInt8) (newSocket : ℕ) : Prop where
  argc : argv.length = 2
  resolves : getHostIp (argv.getD 1 []) = some hostIp
  listens : ∃ fd, Listens listener fd
  accepts : accept = some newSocket

/-- Server and destination begin alike, and show nothing that matters before
they accept a connection. -/
theorem accepting_iff {property : List Event → Prop}
    (hignores : Ignores property Preliminary) (argv : List (List UInt8))
    (unknown text : List UInt8) (listener : Listener) (accept : Option ℕ)
    (next : List UInt8 → ℕ → Program Unit) :
    property (do
        let hostIp ← hostAddress argv unknown
        let _ ← createListeningSocket listener
        let newSocket ← requireFd .accept accept text
        next hostIp newSocket : Program Unit).events ↔
      ∀ hostIp newSocket, Accepts argv listener accept hostIp newSocket →
        property (next hostIp newSocket).events := by
  rw [hignores.bind_iff (only_hostAddress _ _)]
  simp only [outcome_hostAddress_iff, outcome_createListeningSocket_iff,
    hignores.bind_iff (only_createListeningSocket _),
    hignores.bind_iff (only_accept _ _), outcome_requireFd_iff]
  constructor
  · rintro hall hostIp newSocket ⟨hargc, hresolves, ⟨fd, hlistens⟩, haccepts⟩
    exact hall hostIp ⟨hargc, hresolves⟩ fd hlistens newSocket haccepts
  · rintro hall hostIp ⟨hargc, hresolves⟩ fd hlistens newSocket haccepts
    exact hall hostIp newSocket ⟨hargc, hresolves, ⟨fd, hlistens⟩, haccepts⟩

end Calls

/-- The three names are those of different hosts. -/
structure Resolves (argv : List (List UInt8)) (destHostName : List UInt8)
    (hosts : ClientHosts) : Prop where
  argc : argv.length = 3
  client : getHostIp (argv.getD 1 []) = some hosts.clientIp
  server : getHostIp (argv.getD 2 []) = some hosts.serverIp
  dest : getHostIp destHostName = some hosts.destIp
  distinct : ¬ (hosts.clientIp = hosts.serverIp ∨
    hosts.clientIp = hosts.destIp ∨ hosts.serverIp = hosts.destIp)

theorem only_clientHosts (argv : List (List UInt8))
    (destHostName : List UInt8) :
    Only Preliminary (clientHosts argv destHostName) := by
  unfold clientHosts
  split
  next => exact only_giveUp _ 0
  next =>
    rw [only_emit_bind]
    refine ⟨trivial, ?_⟩
    split
    next =>
      split
      next => exact only_giveUp _ 0
      next => exact only_pure _
    next => exact only_giveUp _ 0

theorem outcome_clientHosts_iff (argv : List (List UInt8))
    (destHostName : List UInt8) (hosts : ClientHosts) :
    (clientHosts argv destHostName).outcome = .ok hosts ↔
      Resolves argv destHostName hosts := by
  unfold clientHosts
  constructor
  · intro houtcome
    split at houtcome
    next => exact absurd houtcome (outcome_giveUp_ne _ 0 hosts)
    next hargc =>
      rw [outcome_emit_bind] at houtcome
      split at houtcome
      next clientIp serverIp destIp hclient hserver hdest =>
        split at houtcome
        next => exact absurd houtcome (outcome_giveUp_ne _ 0 hosts)
        next hdistinct =>
          cases houtcome
          exact ⟨not_not.mp hargc, hclient, hserver, hdest, hdistinct⟩
      next => exact absurd houtcome (outcome_giveUp_ne _ 0 hosts)
  · rintro ⟨hargc, hclient, hserver, hdest, hdistinct⟩
    rw [if_neg (not_not.mpr hargc), outcome_emit_bind, hclient, hserver, hdest]
    dsimp only
    rw [if_neg hdistinct]
    rfl

/-- A client whose names are in order only asks for the last of them. -/
theorem events_clientHosts {argv : List (List UInt8)} {name : List UInt8}
    {hosts : ClientHosts} (hresolves : Resolves argv name hosts) :
    (clientHosts argv name).events = [.noted (chars
      "Enter the destination name (must be less than 5 characters): ")] := by
  unfold clientHosts
  rw [if_neg (not_not.mpr hresolves.argc), events_emit_bind, hresolves.client,
    hresolves.server, hresolves.dest]
  dsimp only
  rw [if_neg hresolves.distinct]
  rfl

/-- The receiving functions return a packet exactly when `recv` succeeds. -/
theorem isSome_servRecFromCli (heap : Heap) (key : Key)
    (received : Option (List UInt8)) :
    (servRecFromCli heap key received).value.isSome = received.isSome := by
  cases received <;> rfl

/-- So whatever bytes arrive, there is a packet. -/
theorem exists_servRecFromCli (heap : Heap) (key : Key) (delivered : List UInt8) :
    ∃ packet, (servRecFromCli heap key (some delivered)).value = some packet :=
  Option.isSome_iff_exists.mp (isSome_servRecFromCli heap key (some delivered))

theorem isSome_servRecFromDes (heap : Heap) (received : Option (List UInt8)) :
    (servRecFromDes heap received).value.isSome = received.isSome := by
  cases received <;> rfl

theorem isSome_destRecPkt (heap : Heap) (received : Option (List UInt8)) :
    (destRecPkt heap received).value.isSome = received.isSome := by
  cases received <;> rfl

section Client

variable (run : ClientRun) (clientFd : ℕ)

theorem events_clientReceive :
    (clientReceive run clientFd).events =
      .called (.recv clientFd encapsulatedSize) run.response.isSome ::
        match (servRecFromCli (run.heap.after 2) run.key run.response).value with
        | none => [.nullAccess]
        | some packet => [.printed packet 0] := by
  rw [clientReceive, receive, bind_assoc, events_emit_bind, pure_bind]
  cases (servRecFromCli (run.heap.after 2) run.key run.response).value with
  | none => rfl
  | some packet => rfl

/-- The client sends its request, and goes on to receive in any case. -/
theorem events_clientExchange (hosts : ClientHosts) :
    (clientExchange run hosts clientFd).events =
      .noted (chars "Checking before create packet.\n") ::
      .printed (createPackets run.order run.heap run.key hosts.clientIp
        hosts.destIp ipProtocolTcp (chars "payload") tcpFlagSyn).value 0 ::
      .called (.send clientFd (clientRequest run.order run.heap run.key
        hosts.clientIp hosts.destIp (chars "payload") tcpFlagSyn).value)
          run.sends ::
      ((if run.sends then [] else [.reported (chars
        "Error during sending packet to the server via socket.\n")]) ++
        (clientReceive run clientFd).events) := by
  unfold clientExchange
  cases run.sends <;> rfl

end Client

section Server

variable (run : ServerRun) (serverIp : List UInt8) (newSocket clientFd : ℕ)

theorem events_serverAnswer (clientIp : UInt32) :
    (serverAnswer run newSocket clientFd clientIp).events =
      .called (.recv clientFd encapsulatedSize) run.response.isSome ::
        match (servRecFromDes (run.heap.after 2) run.response).value with
        | none => [.nullAccess]
        | some recPacketDest =>
            [.printed (serverWrap run.order (run.heap.after 3) clientIp
                recPacketDest).value 0,
              .called (.send newSocket (serverReply run.order
                (run.heap.after 3) run.key clientIp recPacketDest).value)
                  run.replies] := by
  rw [serverAnswer, receive, bind_assoc, events_emit_bind, pure_bind]
  cases (servRecFromDes (run.heap.after 2) run.response).value with
  | none => rfl
  | some recPacketDest =>
      simp only [deref, printPacket, send, pure_bind, bind_assoc,
        events_emit_bind, events_stop, serverReply, Traced.value_bind]

theorem events_serverServe :
    (serverServe run serverIp newSocket).events =
      .called (.recv newSocket encapsulatedSize) run.request.isSome ::
        match (servRecFromCli run.heap run.key run.request).value with
        | none => [.reported (chars
            "Error occured when rec packet from client via socket.\n")]
        | some recPacket =>
            (serverHandle run serverIp newSocket recPacket).events := by
  rw [serverServe, receive, bind_assoc, events_emit_bind, pure_bind]
  cases (servRecFromCli run.heap run.key run.request).value with
  | none => rfl
  | some recPacket => rfl

end Server

section Destination

variable (run : DestinationRun) (hostIp : List UInt8) (newSocket : ℕ)

theorem events_destinationRespond (recPacket : Block) :
    (destinationRespond run hostIp newSocket recPacket).events =
      [.printed recPacket 0,
        .printed (createPacketsDes run.order (run.heap.after 1) hostIp
          (parseIpAddrToStr (loadU32 run.order recPacket ipSrc).value)
          ipProtocolTcp (chars "Hello from the other side!") tcpFlagAck).value
            6,
        .called (.send newSocket (destinationReply run.order (run.heap.after 1)
          hostIp recPacket (chars "Hello from the other side!")
          tcpFlagAck).value) run.sends] := by
  simp only [destinationRespond, printPacketUnencap, send, pure_bind, bind_assoc,
    events_emit_bind, destinationReply, destinationResponse, Traced.value_bind]
  cases run.sends <;> rfl

theorem events_destinationServe :
    (destinationServe run hostIp newSocket).events =
      .called (.recv newSocket decapsulatedSize) run.request.isSome ::
        match (destRecPkt run.heap run.request).value with
        | none => [.reported (chars "Error receiving packet.\n")]
        | some recPacket =>
            (destinationRespond run hostIp newSocket recPacket).events := by
  rw [destinationServe, receive, bind_assoc, events_emit_bind, pure_bind]
  cases (destRecPkt run.heap run.request).value with
  | none => rfl
  | some recPacket => rfl

end Destination

end SimpleVpn.Stages
