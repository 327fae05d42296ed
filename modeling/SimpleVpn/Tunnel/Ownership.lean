import SimpleVpn.Concrete.Stages
import SimpleVpn.Tunnel.Erasure

/-!
# Memory and sockets over whole runs

On every run the programs use and give back only what they have.  What they still
have at the end depends on which calls failed: the client and the destination leave
nothing when all of them succeed, and the server never closes its connection to the
destination.
-/

namespace SimpleVpn.Ownership

open SimpleVpn.TracedMemory SimpleVpn.HostWords SimpleVpn.CStrings
open SimpleVpn.Processes SimpleVpn.Lifetimes SimpleVpn.HostInfo
open SimpleVpn.AddressScan SimpleVpn.Protocol SimpleVpn.Packet SimpleVpn.Programs
open SimpleVpn.Mains SimpleVpn.Stages SimpleVpn.Resources SimpleVpn.Erasure

section Functions

variable {A B : Type} {held : Finset Resource}
variable {ends : Except Stop B → Finset Resource → Prop}

/-- The run is disciplined when it begins with the resources `held`, and it ends
like this. -/
abbrev Owns (held : Finset Resource) (run : FullProgram B)
    (ends : Except Stop B → Finset Resource → Prop) : Prop :=
  Manages Step.operation held run ends

theorem owns_manages_bind (operation : Operation Resource)
    (next : Unit → FullProgram B) :
    Owns held (emit (.manages operation) >>= next) ends ↔
      operation.Allowed held ∧ Owns (operation.after held) (next ()) ends := by
  have hview : Step.operation (.manages operation) = some operation := rfl
  exact manages_operation_bind hview next

section Operations

variable (resource : Resource) (next : Unit → FullProgram B)

@[simp]
theorem owns_acquire_bind :
    Owns held (emit (.manages (.acquire resource)) >>= next) ends ↔
      resource ∉ held ∧ Owns (insert resource held) (next ()) ends :=
  owns_manages_bind _ next

@[simp]
theorem owns_use_bind :
    Owns held (emit (.manages (.use resource)) >>= next) ends ↔
      resource ∈ held ∧ Owns held (next ()) ends :=
  owns_manages_bind _ next

@[simp]
theorem owns_release_bind :
    Owns held (emit (.manages (.release resource)) >>= next) ends ↔
      resource ∈ held ∧ Owns (held.erase resource) (next ()) ends :=
  owns_manages_bind _ next

end Operations

@[simp]
theorem owns_event_bind (event : Event) (next : Unit → FullProgram B) :
    Owns held (emit (.shows event) >>= next) ends ↔ Owns held (next ()) ends :=
  manages_silent_bind rfl next

@[simp]
theorem owns_stop (reason : Stop) :
    Owns held (stop reason : FullProgram B) ends ↔ ends (.error reason) held :=
  manages_stop reason

/-- A part that has nothing to do with resources. -/
theorem owns_shows_bind (run : Program A) (next : A → FullProgram B) :
    Owns held (shows run >>= next) ends ↔
      andThen ends (fun value last => Owns last (next value) ends) run.outcome
        held := by
  have hsilent : (shows run).events.filterMap Step.operation = [] := by
    rw [shows, List.filterMap_map, List.filterMap_eq_nil_iff]
    exact fun event _ => rfl
  exact manages_silent_bind hsilent next

theorem owns_shows (run : Program B) :
    Owns held (shows run) ends ↔ ends run.outcome held := by
  rw [← bind_pure (shows run), owns_shows_bind]
  cases run.outcome <;> simp

/-- Accesses are allowed where the blocks are there. -/
theorem owns_follows_bind {C : Type} {allocations : Finset Allocation}
    {run : Traced A} {wrap : A → C} {full : FullProgram C}
    (hrun : Follows allocations run wrap full)
    (hheld : ∀ allocation ∈ allocations, .block allocation ∈ held)
    (next : C → FullProgram B) :
    Owns held (full >>= next) ends ↔ Owns held (next (wrap run.value)) ends := by
  refine manages_uses_bind (fun step hstep => ?_) hrun.outcome next
  obtain ⟨allocation, hmem, access, -, rfl⟩ := hrun.events step hstep
  exact ⟨_, hheld allocation hmem, rfl⟩

@[simp]
theorem owns_allocate_bind (allocation : Allocation) (around : Surroundings)
    (size : ℕ) (next : Target → FullProgram B) :
    Owns held (allocate allocation around size >>= next) ends ↔
      .block allocation ∉ held ∧
        Owns (insert (.block allocation) held)
          (next ⟨allocation, calloc around size⟩) ends := by
  rw [allocate, bind_assoc, owns_acquire_bind, pure_bind]

@[simp]
theorem owns_allocateString_bind (allocation : Allocation)
    (next : Target → FullProgram B) :
    Owns held (allocateString allocation >>= next) ends ↔
      .block allocation ∉ held ∧
        Owns (insert (.block allocation) held)
          (next ⟨allocation, calloc (Heap.zeros 0) 16⟩) ends :=
  owns_allocate_bind allocation _ 16 next

@[simp]
theorem owns_free_bind (target : Target) (next : Unit → FullProgram B) :
    Owns held (Resources.free (some target) >>= next) ends ↔
      .block target.allocation ∈ held ∧
        Owns (held.erase (.block target.allocation)) (next ()) ends :=
  owns_release_bind _ next

@[simp]
theorem owns_openSocket_bind (socket : Socket) (fd : ℕ)
    (next : Descriptor → FullProgram B) :
    Owns held (openSocket socket fd >>= next) ends ↔
      .socket socket ∉ held ∧
        Owns (insert (.socket socket) held) (next ⟨socket, fd⟩) ends := by
  rw [openSocket, bind_assoc, owns_acquire_bind, pure_bind]

@[simp]
theorem owns_close_bind (descriptor : Descriptor) (next : Unit → FullProgram B) :
    Owns held (close descriptor >>= next) ends ↔
      .socket descriptor.socket ∈ held ∧
        Owns (held.erase (.socket descriptor.socket)) (next ()) ends :=
  owns_release_bind _ next

theorem owns_onSocket_bind (descriptor : Descriptor) (run : Program A)
    (next : A → FullProgram B) :
    Owns held (onSocket descriptor run >>= next) ends ↔
      .socket descriptor.socket ∈ held ∧
        andThen ends (fun value last => Owns last (next value) ends) run.outcome
          held := by
  rw [onSocket, bind_assoc, owns_use_bind, owns_shows_bind]

@[simp]
theorem owns_onSocket_pure_bind (descriptor : Descriptor)
    (next : Unit → FullProgram B) :
    Owns held (onSocket descriptor (pure ()) >>= next) ends ↔
      .socket descriptor.socket ∈ held ∧ Owns held (next ()) ends :=
  owns_onSocket_bind descriptor _ next

@[simp]
theorem owns_send_bind (socket : Descriptor) (bytes : List UInt8)
    (succeeds : Bool) (next : Bool → FullProgram B) :
    Owns held (Resources.send socket bytes succeeds >>= next) ends ↔
      .socket socket.socket ∈ held ∧ Owns held (next succeeds) ends :=
  owns_onSocket_bind socket _ next

@[simp]
theorem owns_receive_bind (socket : Descriptor) (size : ℕ)
    (received : Option (List UInt8)) (next : Unit → FullProgram B) :
    Owns held (Resources.receive socket size received >>= next) ends ↔
      .socket socket.socket ∈ held ∧ Owns held (next ()) ends :=
  owns_onSocket_bind socket _ next

section Blocks

variable {target : Target} (htarget : .block target.allocation ∈ held)

include htarget

@[simp]
theorem owns_access_bind (run : Block → Traced A) (next : A → FullProgram B) :
    Owns held (access target run >>= next) ends ↔
      Owns held (next (run target.block).value) ends :=
  owns_follows_bind (follows_access (Finset.mem_singleton_self _) run) (by simpa) next

@[simp]
theorem owns_readString_bind (next : List UInt8 → FullProgram B) :
    Owns held (readString target >>= next) ends ↔
      Owns held (next (stringOf target.block).value) ends :=
  owns_access_bind htarget stringOf next

variable (next : Target → FullProgram B)

@[simp]
theorem owns_update_bind (run : Block → Traced Block) :
    Owns held (update target run >>= next) ends ↔
      Owns held (next ⟨target.allocation, (run target.block).value⟩) ends :=
  owns_follows_bind (follows_update (Finset.mem_singleton_self _) run) (by simpa) next

@[simp]
theorem owns_parseIpAddrToStr_bind (ipAddr : UInt32) :
    Owns held (Resources.parseIpAddrToStr target ipAddr >>= next) ends ↔
      Owns held (next ⟨target.allocation, (writeIpAddr target.block ipAddr).value⟩)
        ends :=
  owns_update_bind htarget next (writeIpAddr · ipAddr)

@[simp]
theorem owns_servHandlePkt_bind (order : ByteOrder) (serverIp : List UInt8)
    (next : Target × ℕ → FullProgram B) :
    Owns held (Resources.servHandlePkt order target serverIp >>= next) ends ↔
      Owns held (next (⟨target.allocation,
        (Packet.servHandlePkt order target.block serverIp).value.1⟩,
        (Packet.servHandlePkt order target.block serverIp).value.2)) ends := by
  rw [Resources.servHandlePkt, bind_assoc, owns_access_bind htarget, pure_bind]

variable {source : Target} (hsource : .block source.allocation ∈ held)

include hsource

@[simp]
theorem owns_servHandlePktDest_bind (order : ByteOrder)
    (next : Target × ℕ → FullProgram B) :
    Owns held (Resources.servHandlePktDest order target source >>= next) ends ↔
      Owns held (next (⟨target.allocation, (Packet.servHandlePktDest order target.block
        (stringOf source.block).value).value.1⟩, (Packet.servHandlePktDest order
        target.block (stringOf source.block).value).value.2)) ends := by
  rw [Resources.servHandlePktDest, bind_assoc, owns_readString_bind hsource, bind_assoc,
    owns_access_bind htarget, pure_bind]

@[simp]
theorem owns_memcpy_bind (start origin count : ℕ) :
    Owns held (Resources.memcpy target start source origin count >>= next) ends ↔
      Owns held (next ⟨target.allocation, (TracedMemory.memcpy target.block start
        source.block origin count).value⟩) ends :=
  owns_follows_bind (follows_memcpy target start source origin count)
    (by simp [htarget, hsource]) next

@[simp]
theorem owns_xorEncryptDecrypt_bind (key : Key) (length : ℕ) :
    Owns held (Resources.xorEncryptDecrypt key source target length >>= next) ends ↔
      Owns held (next ⟨target.allocation, (Packet.xorEncryptDecrypt key source.block
        target.block length).value⟩) ends :=
  owns_follows_bind (follows_xorEncryptDecrypt key source target length)
    (by simp [htarget, hsource]) next

end Blocks

section Printing

variable {packet : Target} (next : Unit → FullProgram B)

section Present

-- The packet is there, and the buffers for the addresses are not.
variable (hpacket : .block packet.allocation ∈ held)
variable (hsrc : .block .ipSrcStr ∉ held) (hdst : .block .ipDstStr ∉ held)

include hpacket hsrc hdst

@[simp]
theorem owns_printIpHeader_bind (order : ByteOrder) (ipHeader : ℕ) :
    Owns held (Resources.printIpHeader order packet ipHeader >>= next) ends ↔
      Owns held (next ()) ends := by
  simp [Resources.printIpHeader, bind_assoc, hpacket, hsrc, hdst,
    Finset.erase_insert_of_ne]

@[simp]
theorem owns_printPacket_bind (order : ByteOrder) :
    Owns held (Resources.printPacket order (some packet) >>= next) ends ↔
      Owns held (next ()) ends := by
  rw [Resources.printPacket, deref, bind_assoc, owns_shows_bind]
  simp [bind_assoc, hpacket, hsrc, hdst]

@[simp]
theorem owns_printPacketUnencap_bind (order : ByteOrder) (packetStart : ℕ) :
    Owns held (Resources.printPacketUnencap order packet packetStart >>= next) ends ↔
      Owns held (next ()) ends := by
  simp [Resources.printPacketUnencap, bind_assoc, hpacket, hsrc, hdst]

end Present

/-- Without a packet there is nothing to print. -/
@[simp]
theorem owns_printPacket_none_bind (order : ByteOrder) :
    Owns held (Resources.printPacket order none >>= next) ends ↔
      ends (.error .crashed) held := by
  rw [Resources.printPacket, deref, bind_assoc, owns_shows_bind]
  rfl

end Printing

section Receiving

variable (hbuffer : .block .newRecPkt ∉ held) {socket : Descriptor}
variable (hsocket : .socket socket.socket ∈ held) (heap : Heap)
variable (received : Option (List UInt8)) (next : Option Target → FullProgram B)

include hbuffer hsocket

/-- The receive buffer stays behind when nothing is received. -/
@[simp]
theorem owns_servRecFromCli_bind (hpacket : .block .decryptPacket ∉ held)
    (key : Key) :
    Owns held (Resources.servRecFromCli socket heap key received >>= next) ends ↔
      match (Packet.servRecFromCli heap key received).value with
      | none => Owns (insert (.block .newRecPkt) held) (next none) ends
      | some packet => Owns (insert (.block .decryptPacket) held)
          (next (some ⟨.decryptPacket, packet⟩)) ends := by
  cases received with
  | none =>
      have hvalue : (Packet.servRecFromCli heap key none).value = none := rfl
      simp [Resources.servRecFromCli, bind_assoc, hbuffer, hsocket, hvalue]
  | some delivered =>
      simp [Resources.servRecFromCli, Packet.servRecFromCli, bind_assoc, hbuffer,
        hsocket, hpacket, Finset.erase_insert_of_ne]

@[simp]
theorem owns_receiveInto_bind (size : ℕ) :
    Owns held (receiveInto socket heap size received >>= next) ends ↔
      Owns (insert (.block .newRecPkt) held) (next (received.map fun delivered =>
        ⟨.newRecPkt, (recv (calloc (heap 0) size) size delivered).value⟩)) ends := by
  cases received <;> simp [receiveInto, bind_assoc, hbuffer, hsocket]

end Receiving

section Sending

variable {packetToSend : Target} (hpacket : .block packetToSend.allocation ∈ held)
variable {socket : Descriptor} (hsocket : .socket socket.socket ∈ held)
variable (ipProtocol payloadSize : UInt8) (succeeds : Bool)

include hpacket hsocket

/-- The packet stays behind when it is not sent. -/
@[simp]
theorem owns_sendAndFreePacketVpn_bind (next : Bool → FullProgram B) :
    Owns held (Resources.sendAndFreePacketVpn socket packetToSend ipProtocol
        payloadSize succeeds >>= next) ends ↔
      Owns (if succeeds then held.erase (.block packetToSend.allocation) else held)
        (next succeeds) ends := by
  cases succeeds <;>
    simp [Resources.sendAndFreePacketVpn, bind_assoc, hpacket, hsocket]

/-- Both packets stay behind when the reply is not sent. -/
@[simp]
theorem owns_servCliEncryptFree_bind (hencrypted : .block .encryptPacket ∉ held)
    (heap : Heap) (key : Key) (next : Unit → FullProgram B) :
    Owns held (Resources.servCliEncryptFree socket heap key packetToSend ipProtocol
        payloadSize succeeds >>= next) ends ↔
      Owns (if succeeds then held.erase (.block packetToSend.allocation)
        else insert (.block .encryptPacket) held) (next ()) ends := by
  have hne : packetToSend.allocation ≠ .encryptPacket := by
    intro heq
    rw [heq] at hpacket
    exact hencrypted hpacket
  cases succeeds <;>
    simp [Resources.servCliEncryptFree, storeTerminator, bind_assoc, hpacket, hsocket,
      hencrypted, hne, hne.symm, Finset.erase_insert_of_ne]

end Sending

@[simp]
theorem owns_createPackets_bind (hnew : .block .newPacket ∉ held)
    (hencrypted : .block .encryptPacket ∉ held) (order : ByteOrder) (heap : Heap)
    (key : Key) (ipSrc ipDest : List UInt8) (ipProtocol : UInt8)
    (payload : List UInt8) (flags : UInt8) (next : Target → FullProgram B) :
    Owns held (Resources.createPackets order heap key ipSrc ipDest ipProtocol payload
        flags >>= next) ends ↔
      Owns (insert (.block .encryptPacket) held) (next ⟨.encryptPacket,
        (Packet.createPackets order heap key ipSrc ipDest ipProtocol payload
          flags).value⟩) ends := by
  simp [Resources.createPackets, Packet.createPackets, bind_assoc, hnew, hencrypted,
    Finset.erase_insert_of_ne]

@[simp]
theorem owns_createClientSocket_bind (hsocket : .socket .clientFd ∉ held)
    (clientFd : Option ℕ) (next : Option Descriptor → FullProgram B) :
    Owns held (Resources.createClientSocket clientFd >>= next) ends ↔
      Owns (if clientFd.isSome then insert (.socket .clientFd) held else held)
        (next (clientFd.map (Descriptor.mk .clientFd))) ends := by
  rw [Resources.createClientSocket, bind_assoc, owns_shows_bind,
    outcome_createClientSocket]
  cases clientFd <;> simp [hsocket]

@[simp]
theorem owns_connectToServer_bind {clientFd : Descriptor}
    (hsocket : .socket clientFd.socket ∈ held) (serverIp : List UInt8)
    (converts connects : Bool) (next : Bool → FullProgram B) :
    Owns held (Resources.connectToServer clientFd (pure serverIp) converts connects >>=
        next) ends ↔
      Owns held (next (converts && connects)) ends := by
  rw [Resources.connectToServer, pure_bind, owns_onSocket_bind,
    outcome_connectToServer]
  simp [hsocket]

/-- The address is in a buffer. -/
@[simp]
theorem owns_connectToServer_string_bind {clientFd : Descriptor} {serverIp : Target}
    (hsocket : .socket clientFd.socket ∈ held)
    (hstring : .block serverIp.allocation ∈ held)
    (converts connects : Bool) (next : Bool → FullProgram B) :
    Owns held (Resources.connectToServer clientFd (readString serverIp) converts
        connects >>= next) ends ↔
      Owns held (next (converts && connects)) ends := by
  rw [Resources.connectToServer, readString, bind_assoc, owns_access_bind hstring,
    owns_onSocket_bind, outcome_connectToServer]
  simp [hsocket]

theorem owns_requireFd_bind {socket : Socket} (hsocket : .socket socket ∉ held)
    (call : Call) (fd : Option ℕ) (text : List UInt8)
    (next : Descriptor → FullProgram B) :
    Owns held (Resources.requireFd socket call fd text >>= next) ends ↔
      (fd = none → ends (.error (.exited 1)) held) ∧
        ∀ result, fd = some result →
          Owns (insert (.socket socket) held) (next ⟨socket, result⟩) ends := by
  rw [Resources.requireFd, bind_assoc, owns_shows_bind]
  cases fd with
  | none => simp [Mains.requireFd, giveUp, stop]
  | some fd =>
      have houtcome : (Mains.requireFd call (some fd) text).outcome = .ok fd := rfl
      rw [houtcome]
      simp [hsocket]

theorem owns_require_bind (descriptor : Descriptor) (call : Call) (succeeds : Bool)
    (text : List UInt8) (next : Unit → FullProgram B) :
    Owns held (onSocket descriptor (require call succeeds text) >>= next) ends ↔
      .socket descriptor.socket ∈ held ∧
        (succeeds = false → ends (.error (.exited 1)) held) ∧
          (succeeds = true → Owns held (next ()) ends) := by
  rw [owns_onSocket_bind]
  cases succeeds with
  | false => simp [require, giveUp, stop]
  | true =>
      have houtcome : (require call true text).outcome = .ok () := rfl
      rw [houtcome]
      simp

/-- The listening socket is opened. -/
structure Opens (argv : List (List UInt8)) (listener : Listener) : Prop where
  argc : argv.length = 2
  resolves : ∃ hostIp, getHostIp (argv.getD 1 []) = some hostIp
  socket : listener.socket.isSome = true

/-- A connection is accepted. -/
def Accepted (argv : List (List UInt8)) (listener : Listener)
    (accept : Option ℕ) : Prop :=
  ∃ hostIp newSocket, Accepts argv listener accept hostIp newSocket

theorem Accepted.opens {argv : List (List UInt8)} {listener : Listener}
    {accept : Option ℕ} (haccepted : Accepted argv listener accept) :
    Opens argv listener := by
  obtain ⟨hostIp, newSocket, haccepts⟩ := haccepted
  obtain ⟨fd, hlistens⟩ := haccepts.listens
  exact ⟨haccepts.argc, ⟨hostIp, haccepts.resolves⟩, by
    rw [hlistens.socket]
    rfl⟩

/-- Server and destination begin alike. -/
theorem owns_accepting {argv : List (List UInt8)} {listener : Listener}
    {accept : Option ℕ} (unknown : List UInt8)
    {next : List UInt8 → Descriptor → Descriptor → FullProgram B}
    (hclosed : ¬ Opens argv listener → ∀ reason, ends (.error reason) ∅)
    (hopen : Opens argv listener → ¬ Accepted argv listener accept →
      ∀ reason, ends (.error reason) {.socket .listeningFd})
    (hnext : Accepted argv listener accept → ∀ hostIp fd newSocket,
      Owns {.socket .newSocket, .socket .listeningFd}
        (next hostIp ⟨.listeningFd, fd⟩ ⟨.newSocket, newSocket⟩) ends) :
    Owns ∅ (do
      let hostIp ← shows (hostAddress argv unknown)
      let listeningFd ← Resources.createListeningSocket listener
      let newSocket ← acceptConnection listeningFd accept
      next hostIp listeningFd newSocket) ends := by
  rw [owns_shows_bind]
  cases houtcome : (hostAddress argv unknown).outcome with
  | error reason =>
      refine hclosed (fun hopens => ?_) reason
      obtain ⟨hostIp, hresolves⟩ := hopens.resolves
      rw [(outcome_hostAddress_iff _ _ _).mpr ⟨hopens.argc, hresolves⟩] at houtcome
      cases houtcome
  | ok hostIp =>
      obtain ⟨hargc, hresolves⟩ := (outcome_hostAddress_iff _ _ _).mp houtcome
      rw [andThen_ok, Resources.createListeningSocket, bind_assoc,
        owns_requireFd_bind (by decide)]
      refine ⟨fun hnone => hclosed (fun hopens => ?_) _, fun fd hsocket => ?_⟩
      · have hsome := hopens.socket
        rw [hnone] at hsome
        cases hsome
      have hopens : Opens argv listener :=
        ⟨hargc, ⟨hostIp, hresolves⟩, by rw [hsocket]; rfl⟩
      have hrefused := hopen hopens
      simp only [bind_assoc, owns_require_bind, pure_bind]
      refine ⟨by simp, fun hfails => hrefused ?_ _, fun hsetsockopt => ?_⟩
      · rintro ⟨_, _, -, -, ⟨_, hlistens⟩, -⟩
        rw [hlistens.setsockopt] at hfails
        cases hfails
      refine ⟨by simp, fun hfails => hrefused ?_ _, fun hbind => ?_⟩
      · rintro ⟨_, _, -, -, ⟨_, hlistens⟩, -⟩
        rw [hlistens.bind] at hfails
        cases hfails
      refine ⟨by simp, fun hfails => hrefused ?_ _, fun hlisten => ?_⟩
      · rintro ⟨_, _, -, -, ⟨_, hlistens⟩, -⟩
        rw [hlistens.listen] at hfails
        cases hfails
      rw [acceptConnection, bind_assoc, owns_use_bind,
        owns_requireFd_bind (by decide)]
      refine ⟨by simp, fun hnone => hrefused ?_ _, fun newSocket haccept => ?_⟩
      · rintro ⟨_, _, -, -, -, haccepts⟩
        rw [hnone] at haccepts
        cases haccepts
      exact hnext ⟨hostIp, newSocket, hargc, hresolves,
        ⟨fd, hsocket, hsetsockopt, hbind, hlisten⟩, haccept⟩ hostIp fd newSocket

end Functions

/-- The client got a connection. -/
structure Connected (run : ClientRun) : Prop where
  resolves : ∃ hosts, Resolves run.argv run.destHostName hosts
  socket : run.socket.isSome = true
  converts : run.converts = true
  connects : run.connects = true

/-- What the client holds when it ends. -/
structure ClientLeaves (run : ClientRun) (last : Finset Resource) : Prop where
  memory : (∃ allocation, .block allocation ∈ last) ↔
    Connected run ∧ ¬ (run.sends = true ∧ run.response.isSome = true)
  clientFd : .socket .clientFd ∈ last ↔
    Connected run ∧ run.response.isSome = false

/-- The client gives back its socket when it does not crash, and after a send that
failed it keeps the packet. -/
theorem owns_clientReceive (run : ClientRun) (clientFd : ℕ)
    {held : Finset Resource} (hsocket : .socket .clientFd ∈ held)
    (hbuffer : .block .newRecPkt ∉ held) (hpacket : .block .decryptPacket ∉ held)
    (hsrc : .block .ipSrcStr ∉ held) (hdst : .block .ipDstStr ∉ held)
    {ends : Except Stop Unit → Finset Resource → Prop} :
    Owns held (Resources.clientReceive run ⟨.clientFd, clientFd⟩) ends ↔
      if run.response.isSome then
        ends (.error (.exited 0)) (held.erase (.socket .clientFd))
      else ends (.error .crashed) (insert (.block .newRecPkt) held) := by
  have hsome := isSome_servRecFromCli (run.heap.after 2) run.key run.response
  rw [Resources.clientReceive, owns_servRecFromCli_bind hbuffer hsocket _ _ _ hpacket,
    ← hsome]
  cases (Packet.servRecFromCli (run.heap.after 2) run.key run.response).value with
  | none => simp
  | some packet => simp [hsocket, hpacket, hsrc, hdst]

theorem owns_clientExchange (run : ClientRun) (hosts : ClientHosts) (clientFd : ℕ)
    (hconnected : Connected run) :
    Owns {.socket .clientFd}
      (Resources.clientExchange run hosts ⟨.clientFd, clientFd⟩)
      fun _ last => ClientLeaves run last := by
  cases hsends : run.sends <;> cases hresponse : run.response.isSome
  all_goals
    simp only [Resources.clientExchange, hsends, owns_event_bind]
    simp [owns_clientReceive, hresponse]
    exact ⟨by simp [hconnected, hsends, hresponse],
      by simp [hconnected, hresponse]⟩

theorem owns_clientMain (run : ClientRun) :
    Owns ∅ (Resources.clientMain run) fun _ last => ClientLeaves run last := by
  have hstopped : ¬ Connected run → ClientLeaves run ∅ := fun hnot =>
    ⟨by simp [hnot], by simp [hnot]⟩
  rw [Resources.clientMain, owns_shows_bind]
  cases houtcome : (clientHosts run.argv run.destHostName).outcome with
  | error reason =>
      refine hstopped fun hconnected => ?_
      obtain ⟨hosts, hresolves⟩ := hconnected.resolves
      rw [(outcome_clientHosts_iff _ _ _).mpr hresolves] at houtcome
      cases houtcome
  | ok hosts =>
      have hresolves := (outcome_clientHosts_iff _ _ _).mp houtcome
      cases hsocket : run.socket with
      | none =>
          have hnot : ¬ Connected run := fun hconnected => by
            simpa [hsocket] using hconnected.socket
          simp [hstopped hnot]
      | some clientFd =>
          cases hconnects : run.converts && run.connects with
          | false =>
              have hnot : ¬ Connected run := fun hconnected => by
                simp [hconnected.converts, hconnected.connects] at hconnects
              simp [hconnects, hstopped hnot]
          | true =>
              rw [Bool.and_eq_true_iff] at hconnects
              have hconnected : Connected run := ⟨⟨hosts, hresolves⟩,
                by rw [hsocket]; rfl, hconnects.1, hconnects.2⟩
              simpa [hconnects] using
                owns_clientExchange run hosts clientFd hconnected

/-- Every call of the server after `accept` succeeds. -/
@[mk_iff]
structure ServerSucceeds (run : ServerRun) : Prop where
  request : run.request.isSome = true
  socket : run.socket.isSome = true
  converts : run.converts = true
  connects : run.connects = true
  forwards : run.forwards = true
  response : run.response.isSome = true
  replies : run.replies = true

/-- What the server holds when it ends.  It closes the connection to its client
once it has an answer, never closes the one to the destination once it is made, and
only shuts down its listening socket. -/
structure ServerLeaves (run : ServerRun) (last : Finset Resource) : Prop where
  memory : (∃ allocation, .block allocation ∈ last) ↔
    Accepted run.argv run.listener run.accept ∧ ¬ ServerSucceeds run
  listeningFd : .socket .listeningFd ∈ last ↔ Opens run.argv run.listener
  newSocket : .socket .newSocket ∈ last ↔
    Accepted run.argv run.listener run.accept ∧
      ¬ (run.request.isSome = true ∧ run.socket.isSome = true ∧
        run.converts = true ∧ run.connects = true ∧ run.forwards = true ∧
        run.response.isSome = true)
  clientFd : .socket .clientFd ∈ last ↔
    Accepted run.argv run.listener run.accept ∧ run.request.isSome = true ∧
      run.socket.isSome = true ∧ run.converts = true ∧ run.connects = true

section Server

variable {run : ServerRun} (serverFd newSocket : ℕ)
variable (haccepted : Accepted run.argv run.listener run.accept)
variable (hopens : Opens run.argv run.listener)
variable (hrequest : run.request.isSome = true)

include haccepted hopens hrequest

theorem owns_serverAnswer (clientFd : ℕ) (clientIp : UInt32)
    (hsocket : run.socket.isSome = true) (hconverts : run.converts = true)
    (hconnects : run.connects = true) (hforwards : run.forwards = true) :
    Owns {.socket .clientFd, .socket .newSocket, .socket .listeningFd}
      (Resources.serverAnswer run ⟨.listeningFd, serverFd⟩ ⟨.newSocket, newSocket⟩
        ⟨.clientFd, clientFd⟩ clientIp)
      fun _ last => ServerLeaves run last := by
  rw [Resources.serverAnswer, Resources.servRecFromDes,
    owns_receiveInto_bind (by simp) (by simp)]
  cases hresponse : run.response with
  | none =>
      simp [owns_shows_bind, deref, stop]
      constructor <;> simp [haccepted, hopens, hrequest, hsocket, hconverts,
        hconnects, hforwards, hresponse, serverSucceeds_iff]
  | some delivered =>
      cases hreplies : run.replies
      all_goals
        simp [owns_shows_bind, deref, Finset.erase_insert_of_ne]
        constructor <;> simp [haccepted, hopens, hrequest, hsocket, hconverts,
          hconnects, hforwards, hresponse, hreplies, serverSucceeds_iff]

theorem owns_serverHandle (serverIp : List UInt8) (recPacket : Block) :
    Owns {.block .decryptPacket, .socket .newSocket, .socket .listeningFd}
      (Resources.serverHandle run serverIp ⟨.listeningFd, serverFd⟩
        ⟨.newSocket, newSocket⟩ ⟨.decryptPacket, recPacket⟩)
      fun _ last => ServerLeaves run last := by
  rw [Resources.serverHandle, owns_printPacket_bind _ (by simp) (by simp) (by simp),
    owns_access_bind (by simp), owns_servHandlePkt_bind (by simp),
    owns_createClientSocket_bind (by simp)]
  cases hsocket : run.socket with
  | none =>
      refine (owns_stop _).mpr ?_
      constructor <;> simp [haccepted, hopens, hsocket, serverSucceeds_iff]
  | some clientFd =>
      simp only [Option.map_some, Option.isSome_some, if_true, owns_allocateString_bind]
      rw [owns_access_bind (by simp), owns_parseIpAddrToStr_bind (by simp),
        owns_connectToServer_string_bind (by simp) (by simp)]
      refine ⟨by simp, ?_⟩
      cases hconverts : run.converts && run.connects with
      | false =>
          have hnot : run.converts = true → run.connects = false := fun htrue => by
            simpa [htrue] using hconverts
          rw [if_neg Bool.false_ne_true, owns_close_bind, owns_stop]
          refine ⟨by simp, ?_⟩
          constructor <;> simp +contextual [haccepted, hopens, hsocket, hnot,
            serverSucceeds_iff]
      | true =>
          have hboth := Bool.and_eq_true_iff.mp hconverts
          rw [if_pos rfl, owns_free_bind, owns_access_bind (by simp), owns_send_bind]
          refine ⟨by simp, by simp, ?_⟩
          cases hforwards : run.forwards with
          | false =>
              rw [if_neg Bool.false_ne_true, owns_shows]
              constructor <;> simp [haccepted, hopens, hrequest, hsocket, hboth,
                hforwards, serverSucceeds_iff]
          | true =>
              rw [if_pos rfl, owns_free_bind, owns_event_bind]
              refine ⟨by simp, ?_⟩
              have hsome : run.socket.isSome = true := by
                rw [hsocket]
                rfl
              have hanswer := owns_serverAnswer serverFd newSocket haccepted hopens
                hrequest clientFd (saveClientIp run.order recPacket).value hsome
                hboth.1 hboth.2 hforwards
              convert hanswer using 1
              dsimp only
              decide

end Server

theorem owns_serverMain (run : ServerRun) :
    Owns ∅ (Resources.serverMain run) fun _ last => ServerLeaves run last := by
  refine owns_accepting _ (fun hclosed reason => ?_) (fun hopens hrefused reason => ?_)
    fun haccepted serverIp serverFd newSocket => ?_
  · have hrefused : ¬ Accepted run.argv run.listener run.accept :=
      fun haccepted => hclosed haccepted.opens
    constructor <;> simp [hclosed, hrefused]
  · constructor <;> simp [hopens, hrefused]
  · have hopens := haccepted.opens
    have hsome := isSome_servRecFromCli run.heap run.key run.request
    rw [Resources.serverServe,
      owns_servRecFromCli_bind (by simp) (by simp) _ _ _ (by simp)]
    cases hreceived : (Packet.servRecFromCli run.heap run.key run.request).value with
    | none =>
        rw [hreceived] at hsome
        rw [owns_shows]
        constructor <;> simp [haccepted, hopens, ← hsome, serverSucceeds_iff]
    | some recPacket =>
        rw [hreceived] at hsome
        exact owns_serverHandle serverFd newSocket haccepted hopens hsome.symm serverIp
          recPacket

/-- What the destination holds when it ends: when it answered, nothing. -/
structure DestinationLeaves (run : DestinationRun) (last : Finset Resource) :
    Prop where
  memory : (∃ allocation, .block allocation ∈ last) ↔
    Accepted run.argv run.listener run.accept ∧
      ¬ (run.request.isSome = true ∧ run.sends = true)
  listeningFd : .socket .listeningFd ∈ last ↔
    Opens run.argv run.listener ∧
      ¬ (Accepted run.argv run.listener run.accept ∧ run.request.isSome = true ∧
        run.sends = true)
  newSocket : .socket .newSocket ∈ last ↔
    Accepted run.argv run.listener run.accept ∧
      ¬ (run.request.isSome = true ∧ run.sends = true)

theorem owns_destinationRespond {run : DestinationRun} (hostIp : List UInt8)
    (destFd newSocket : ℕ) (recPacket : Block)
    (haccepted : Accepted run.argv run.listener run.accept)
    (hrequest : run.request.isSome = true) :
    Owns {.block .newRecPkt, .socket .newSocket, .socket .listeningFd}
      (Resources.destinationRespond run hostIp ⟨.listeningFd, destFd⟩
        ⟨.newSocket, newSocket⟩ ⟨.newRecPkt, recPacket⟩)
      fun _ last => DestinationLeaves run last := by
  have hopens := haccepted.opens
  rw [Resources.destinationRespond,
    owns_printPacketUnencap_bind _ (by simp) (by simp) (by simp),
    owns_allocateString_bind, owns_access_bind (by simp),
    owns_parseIpAddrToStr_bind (by simp), Resources.createPacketsDes, bind_assoc,
    owns_allocate_bind, bind_assoc, owns_readString_bind (by simp),
    owns_update_bind (by simp),
    owns_printPacketUnencap_bind _ (by simp) (by simp) (by simp),
    owns_access_bind (by simp), owns_send_bind]
  refine ⟨by simp, by simp, by simp, ?_⟩
  cases hsends : run.sends with
  | false =>
      rw [if_neg Bool.false_ne_true, owns_stop]
      constructor <;> simp [haccepted, hopens, hsends]
  | true =>
      simp only [if_true, owns_free_bind, owns_close_bind, owns_stop]
      refine ⟨by simp, by simp, by simp, by simp, by simp, ?_⟩
      constructor <;> simp +contextual [haccepted, hrequest, hsends]

theorem owns_destinationMain (run : DestinationRun) :
    Owns ∅ (Resources.destinationMain run)
      fun _ last => DestinationLeaves run last := by
  refine owns_accepting _ (fun hclosed reason => ?_) (fun hopens hrefused reason => ?_)
    fun haccepted hostIp destFd newSocket => ?_
  · have hrefused : ¬ Accepted run.argv run.listener run.accept :=
      fun haccepted => hclosed haccepted.opens
    constructor <;> simp [hclosed, hrefused]
  · constructor <;> simp [hopens, hrefused]
  · have hopens := haccepted.opens
    rw [Resources.destinationServe, Resources.destRecPkt,
      owns_receiveInto_bind (by simp) (by simp)]
    cases hrequest : run.request with
    | none =>
        rw [Option.map_none, owns_shows]
        constructor <;> simp [haccepted, hopens, hrequest]
    | some delivered =>
        refine owns_destinationRespond hostIp destFd newSocket _ haccepted ?_
        rw [hrequest]
        rfl

/-- What a run does to memory and sockets. -/
def operations (run : FullProgram Unit) : List (Operation Resource) :=
  run.events.filterMap Step.operation

/-- The full program is the plain one, and from beginning to end it uses and gives
back only what it has. -/
structure WellManaged (full : FullProgram Unit) (plain : Program Unit) : Prop where
  refines : Refines full plain
  disciplined : Disciplined ∅ (operations full)

/-- Whatever is received and whichever calls fail, no block is accessed or freed after
it was freed, and no socket is used or closed that is not open.  Allocations succeed,
and an access outside its block ends no run. -/
theorem wellManaged (client : ClientRun) (server : ServerRun)
    (destination : DestinationRun) :
    WellManaged (Resources.clientMain client) (Mains.clientMain client) ∧
      WellManaged (Resources.serverMain server) (Mains.serverMain server) ∧
      WellManaged (Resources.destinationMain destination)
        (Mains.destinationMain destination) :=
  ⟨⟨refines_clientMain client, (owns_clientMain client).disciplined⟩,
    ⟨refines_serverMain server, (owns_serverMain server).disciplined⟩,
    ⟨refines_destinationMain destination,
      (owns_destinationMain destination).disciplined⟩⟩

/-- What the programs leave behind, whatever happens.  Here too allocations succeed,
and an access outside its block ends no run. -/
theorem leaves (client : ClientRun) (server : ServerRun)
    (destination : DestinationRun) :
    ClientLeaves client (heldAfter ∅ (operations (Resources.clientMain client))) ∧
      ServerLeaves server (heldAfter ∅ (operations (Resources.serverMain server))) ∧
      DestinationLeaves destination
        (heldAfter ∅ (operations (Resources.destinationMain destination))) :=
  ⟨(owns_clientMain client).ends, (owns_serverMain server).ends,
    (owns_destinationMain destination).ends⟩

end SimpleVpn.Ownership
