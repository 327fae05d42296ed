import SimpleVpn.Concrete.Resources

/-!
# The programs without their memory and sockets

Where a full program works on blocks it makes the accesses of the functions of
`Packet`, under the names of the blocks it hands them, and goes on with what they
return.  So without what they do to memory and sockets the full programs are those of
`Mains`: they show the same events and end alike.
-/

namespace SimpleVpn.Erasure

open SimpleVpn.TracedMemory SimpleVpn.HostWords SimpleVpn.CStrings
open SimpleVpn.Processes SimpleVpn.Lifetimes SimpleVpn.HostInfo
open SimpleVpn.AddressScan SimpleVpn.Protocol SimpleVpn.Packet SimpleVpn.Programs
open SimpleVpn.Mains SimpleVpn.Resources

variable {A B : Type}

/-- A full program that makes accesses of a function only, through some allocations,
and hands over what the function returns. -/
structure Follows (allocations : Finset Allocation) (run : Traced A) (wrap : A → B)
    (full : FullProgram B) : Prop where
  events : ∀ step ∈ full.events, ∃ allocation ∈ allocations,
    ∃ access ∈ run.trace, step = .accesses allocation access
  outcome : full.outcome = .ok (wrap run.value)

section Follows

variable {C D : Type} {allocations : Finset Allocation}

theorem follows_pure (wrap : A → B) (value : A) :
    Follows allocations (pure value) wrap (pure (wrap value)) :=
  ⟨fun _ hmem => absurd hmem List.not_mem_nil, rfl⟩

theorem follows_access {target : Target} (hmem : target.allocation ∈ allocations)
    (run : Block → Traced A) :
    Follows allocations (run target.block) id (access target run) := by
  refine ⟨fun step hstep => ?_, rfl⟩
  obtain ⟨access, haccess, rfl⟩ := List.mem_map.mp hstep
  exact ⟨target.allocation, hmem, access, haccess, rfl⟩

theorem follows_update {target : Target} (hmem : target.allocation ∈ allocations)
    (run : Block → Traced Block) :
    Follows allocations (run target.block) (Target.mk target.allocation)
      (update target run) := by
  have haccess := follows_access hmem run
  refine ⟨fun step hstep => ?_, rfl⟩
  rw [update, events_bind_of_ok haccess.outcome, List.mem_append] at hstep
  exact hstep.elim (haccess.events step) fun hnil => absurd hnil List.not_mem_nil

theorem Follows.bind {run : Traced A} {wrap : A → C} {full : FullProgram C}
    (hrun : Follows allocations run wrap full) {next : A → Traced B} {keep : B → D}
    {fullNext : C → FullProgram D}
    (hnext : Follows allocations (next run.value) keep (fullNext (wrap run.value))) :
    Follows allocations (run >>= next) keep (full >>= fullNext) := by
  refine ⟨fun step hmem => ?_, ?_⟩
  · rw [Traced.trace_bind]
    rw [events_bind_of_ok hrun.outcome, List.mem_append] at hmem
    rcases hmem with hmem | hmem
    · obtain ⟨allocation, hallocation, access, haccess, heq⟩ := hrun.events step hmem
      exact ⟨allocation, hallocation, access, List.mem_append_left _ haccess, heq⟩
    · obtain ⟨allocation, hallocation, access, haccess, heq⟩ := hnext.events step hmem
      exact ⟨allocation, hallocation, access, List.mem_append_right _ haccess, heq⟩
  · exact (outcome_bind_eq_ok_iff _ _ _).mpr ⟨_, hrun.outcome, hnext.outcome⟩

theorem follows_forRange {body : ℕ → A → Traced A} {wrap : A → B}
    {fullBody : ℕ → B → FullProgram B}
    (hbody : ∀ index state,
      Follows allocations (body index state) wrap (fullBody index (wrap state)))
    (start : A) (count : ℕ) :
    Follows allocations (TracedMemory.forRange body start count) wrap
      (Resources.forRange fullBody (wrap start) count) := by
  induction count with
  | zero => exact follows_pure wrap start
  | succ count ih => exact ih.bind (hbody count _)

theorem follows_memcpy (target : Target) (start : ℕ) (source : Target)
    (origin count : ℕ) :
    Follows {target.allocation, source.allocation}
      (TracedMemory.memcpy target.block start source.block origin count)
      (Target.mk target.allocation)
      (Resources.memcpy target start source origin count) := by
  have htarget : target.allocation ∈ ({target.allocation, source.allocation} :
      Finset Allocation) := Finset.mem_insert_self _ _
  have hsource : source.allocation ∈ ({target.allocation, source.allocation} :
      Finset Allocation) := by simp
  refine follows_forRange (fun index block => ?_) target.block count
  apply (follows_access hsource (load · (origin + index))).bind
  exact @follows_update _ ⟨target.allocation, block⟩ htarget
    (store · (start + index) (source.block.byte (origin + index)))

theorem follows_xorEncryptDecrypt (key : Key) (input output : Target) (length : ℕ) :
    Follows {output.allocation, input.allocation}
      (Packet.xorEncryptDecrypt key input.block output.block length)
      (Target.mk output.allocation)
      (Resources.xorEncryptDecrypt key input output length) := by
  have houtput : output.allocation ∈ ({output.allocation, input.allocation} :
      Finset Allocation) := Finset.mem_insert_self _ _
  have hinput : input.allocation ∈ ({output.allocation, input.allocation} :
      Finset Allocation) := by simp
  refine follows_forRange (fun i block => ?_) output.block length
  apply (follows_access hinput (load · i)).bind
  exact @follows_update _ ⟨output.allocation, block⟩ houtput
    (store · i (input.block.byte i ^^^ Keystream.keystream key i))

end Follows

section Strings

variable (ipAddr : UInt32)

theorem holdsString_writeIpAddr (around : Surroundings) :
    HoldsString (writeIpAddr (calloc around 16) ipAddr).value 0
      (HostInfo.parseIpAddrToStr ipAddr) := by
  rw [writeIpAddr, parseIpAddrToStr_eq]
  exact holdsString_storeString (calloc around 16) 0
    (nulFree_text (DottedQuad.ofAddress ipAddr))

theorem size_writeIpAddr (around : Surroundings) :
    (writeIpAddr (calloc around 16) ipAddr).value.size = 16 := by
  rw [writeIpAddr, storeString, size_storeBytes]
  rfl

theorem strlen_writeIpAddr (around : Surroundings) :
    (strlen (writeIpAddr (calloc around 16) ipAddr).value 0).value =
      (HostInfo.parseIpAddrToStr ipAddr).length := by
  have hlength := length_parseIpAddrToStr_le ipAddr
  have hsize := size_writeIpAddr ipAddr around
  exact strlen_of_firstZero (holdsString_writeIpAddr ipAddr around).firstZero
    (by omega)

/-- The string that is read is the one that was written. -/
@[simp]
theorem value_stringOf_writeIpAddr (around : Surroundings) :
    (stringOf (writeIpAddr (calloc around 16) ipAddr).value).value =
      HostInfo.parseIpAddrToStr ipAddr := by
  simp only [stringOf, Traced.value_bind, value_loadBytes, strlen_writeIpAddr]
  exact (holdsString_writeIpAddr ipAddr around).slice_eq

theorem inBounds_writeIpAddr (around : Surroundings) :
    (writeIpAddr (calloc around 16) ipAddr).InBounds := by
  have hlength := length_parseIpAddrToStr_le ipAddr
  rw [writeIpAddr, inBounds_storeString, size_calloc]
  omega

/-- It fits the buffer, with its terminator. -/
theorem inBounds_stringOf_writeIpAddr (around : Surroundings) :
    (stringOf (writeIpAddr (calloc around 16) ipAddr).value).InBounds := by
  have hlength := length_parseIpAddrToStr_le ipAddr
  have hsize := size_writeIpAddr ipAddr around
  rw [stringOf, Traced.inBounds_bind, strlen_writeIpAddr,
    strlen_inBounds_iff (Nat.zero_le _), inBounds_loadBytes]
  exact ⟨⟨_, by omega, (holdsString_writeIpAddr ipAddr around).firstZero.zero⟩,
    fun index hindex => by omega⟩

end Strings

/-- The full program shows what the plain one does and ends like it. -/
abbrev Refines (full : FullProgram A) (plain : Program A) : Prop :=
  Erases Step.shown full plain

theorem refines_shows (run : Program A) : Refines (shows run) run := by
  refine ⟨?_, rfl⟩
  rw [shows, List.filterMap_map]
  exact List.filterMap_some

theorem refines_bind {full : FullProgram A} {plain : Program A}
    {next : A → FullProgram B} {plainNext : A → Program B}
    (hrun : Refines full plain)
    (hnext : ∀ value, Refines (next value) (plainNext value)) :
    Refines (full >>= next) (plain >>= plainNext) :=
  hrun.bind hnext

theorem refines_silent_bind {full : FullProgram A} {value : A}
    {next : A → FullProgram B} {plain : Program B}
    (hrun : Refines full (pure value)) (hnext : Refines (next value) plain) :
    Refines (full >>= next) plain :=
  (erases_silent_bind hrun.events hrun.outcome).mpr hnext

theorem refines_shows_bind (run : Program A) {next : A → FullProgram B}
    {plainNext : A → Program B}
    (hnext : ∀ value, Refines (next value) (plainNext value)) :
    Refines (shows run >>= next) (run >>= plainNext) :=
  (refines_shows run).bind hnext

theorem refines_event_bind (event : Event) {next : Unit → FullProgram B}
    {plainNext : Unit → Program B}
    (hnext : Refines (next ()) (plainNext ())) :
    Refines (emit (.shows event) >>= next) (emit event >>= plainNext) :=
  ⟨congrArg (List.cons event) hnext.events, hnext.outcome⟩

theorem refines_deref_bind (allocation : Allocation) (pointer : Option Block)
    {next : Target → FullProgram B} {plainNext : Block → Program B}
    (hnext : ∀ block, Refines (next ⟨allocation, block⟩) (plainNext block)) :
    Refines (shows (deref (pointer.map (Target.mk allocation))) >>= next)
      (deref pointer >>= plainNext) := by
  cases pointer with
  | none => exact ⟨rfl, rfl⟩
  | some block =>
      have hblock := hnext block
      exact ⟨hblock.events, hblock.outcome⟩

/-- Accesses show nothing. -/
theorem refines_follows_bind {C : Type} {allocations : Finset Allocation}
    {run : Traced A} {wrap : A → C} {full : FullProgram C}
    (hrun : Follows allocations run wrap full) {next : C → FullProgram B}
    {plain : Program B} :
    Refines (full >>= next) plain ↔ Refines (next (wrap run.value)) plain := by
  refine erases_silent_bind ?_ hrun.outcome
  rw [List.filterMap_eq_nil_iff]
  intro step hmem
  obtain ⟨allocation, -, access, -, rfl⟩ := hrun.events step hmem
  rfl

section Silent

variable {plain : Program B}

@[simp]
theorem refines_manages_bind (operation : Operation Resource)
    {next : Unit → FullProgram B} :
    Refines (emit (.manages operation) >>= next) plain ↔
      Refines (next ()) plain :=
  erases_silent_bind rfl rfl

@[simp]
theorem refines_allocate_bind (allocation : Allocation) (around : Surroundings)
    (size : ℕ) {next : Target → FullProgram B} :
    Refines (allocate allocation around size >>= next) plain ↔
      Refines (next ⟨allocation, calloc around size⟩) plain :=
  erases_silent_bind rfl rfl

@[simp]
theorem refines_free_bind (target : Option Target) {next : Unit → FullProgram B} :
    Refines (Resources.free target >>= next) plain ↔ Refines (next ()) plain := by
  cases target <;> exact erases_silent_bind rfl rfl

@[simp]
theorem refines_close_bind (descriptor : Descriptor)
    {next : Unit → FullProgram B} :
    Refines (close descriptor >>= next) plain ↔ Refines (next ()) plain :=
  erases_silent_bind rfl rfl

@[simp]
theorem refines_openSocket_bind (socket : Socket) (fd : ℕ)
    {next : Descriptor → FullProgram B} :
    Refines (openSocket socket fd >>= next) plain ↔
      Refines (next ⟨socket, fd⟩) plain :=
  erases_silent_bind rfl rfl

variable (target : Target)

@[simp]
theorem refines_access_bind (run : Block → Traced A) {next : A → FullProgram B} :
    Refines (access target run >>= next) plain ↔
      Refines (next (run target.block).value) plain :=
  refines_follows_bind (follows_access (Finset.mem_singleton_self _) run)

variable {next : Target → FullProgram B}

@[simp]
theorem refines_update_bind (run : Block → Traced Block) :
    Refines (update target run >>= next) plain ↔
      Refines (next ⟨target.allocation, (run target.block).value⟩) plain :=
  refines_follows_bind (follows_update (Finset.mem_singleton_self _) run)

@[simp]
theorem refines_memcpy_bind (start : ℕ) (source : Target) (origin count : ℕ) :
    Refines (Resources.memcpy target start source origin count >>= next) plain ↔
      Refines (next ⟨target.allocation, (TracedMemory.memcpy target.block start
        source.block origin count).value⟩) plain :=
  refines_follows_bind (follows_memcpy target start source origin count)

@[simp]
theorem refines_xorEncryptDecrypt_bind (key : Key) (input : Target) (length : ℕ) :
    Refines (Resources.xorEncryptDecrypt key input target length >>= next) plain ↔
      Refines (next ⟨target.allocation, (Packet.xorEncryptDecrypt key input.block
        target.block length).value⟩) plain :=
  refines_follows_bind (follows_xorEncryptDecrypt key input target length)

end Silent

theorem refines_onSocket (descriptor : Descriptor) (run : Program A) :
    Refines (onSocket descriptor run) run := by
  rw [onSocket, refines_manages_bind]
  exact refines_shows run

theorem refines_onSocket_bind (descriptor : Descriptor) (run : Program A)
    {next : A → FullProgram B} {plainNext : A → Program B}
    (hnext : ∀ value, Refines (next value) (plainNext value)) :
    Refines (onSocket descriptor run >>= next) (run >>= plainNext) :=
  (refines_onSocket descriptor run).bind hnext

theorem refines_printIpHeader (order : ByteOrder) (packet : Target)
    (ipHeader : ℕ) :
    Refines (Resources.printIpHeader order packet ipHeader) (pure ()) := by
  simp only [Resources.printIpHeader, allocateString, Resources.parseIpAddrToStr,
    readString, refines_allocate_bind, refines_access_bind, refines_update_bind,
    refines_free_bind]
  exact ⟨rfl, rfl⟩

theorem refines_printPacket (order : ByteOrder) (packetStart : Option Target) :
    Refines (Resources.printPacket order packetStart)
      (Mains.printPacket (packetStart.map Target.block)) := by
  cases packetStart with
  | none => exact ⟨rfl, rfl⟩
  | some packet =>
      have hderef : Refines (shows (deref (some packet))) (pure packet) :=
        ⟨rfl, rfl⟩
      refine refines_silent_bind hderef ?_
      rw [refines_access_bind]
      refine refines_silent_bind (refines_printIpHeader order packet _) ?_
      rw [refines_access_bind, refines_access_bind]
      exact ⟨rfl, rfl⟩

theorem refines_printPacketUnencap (order : ByteOrder) (packet : Target)
    (packetStart : ℕ) :
    Refines (Resources.printPacketUnencap order packet packetStart)
      (Mains.printPacketUnencap packet.block packetStart) := by
  refine refines_silent_bind (refines_printIpHeader order packet packetStart) ?_
  rw [refines_access_bind, refines_access_bind]
  exact ⟨rfl, rfl⟩

theorem refines_createPackets_bind (order : ByteOrder) (heap : Heap) (key : Key)
    (ipSrc ipDest : List UInt8) (ipProtocol : UInt8) (payload : List UInt8)
    (flags : UInt8) {next : Target → FullProgram B} {plain : Program B} :
    Refines (Resources.createPackets order heap key ipSrc ipDest ipProtocol payload
        flags >>= next) plain ↔
      Refines (next ⟨.encryptPacket, (Packet.createPackets order heap key ipSrc ipDest
        ipProtocol payload flags).value⟩) plain := by
  simp only [Resources.createPackets, bind_assoc, pure_bind, refines_allocate_bind,
    refines_update_bind, refines_xorEncryptDecrypt_bind, refines_free_bind]
  rfl

theorem refines_createPacketsDes_bind (order : ByteOrder) (heap : Heap)
    (ipSrc : List UInt8) (ipDest : Target) (ipProtocol : UInt8)
    (payload : List UInt8) (flags : UInt8) {next : Target → FullProgram B}
    {plain : Program B} :
    Refines (Resources.createPacketsDes order heap ipSrc ipDest ipProtocol payload
        flags >>= next) plain ↔
      Refines (next ⟨.newPacket, (Packet.createPacketsDes order heap ipSrc
        (stringOf ipDest.block).value ipProtocol payload flags).value⟩) plain := by
  simp only [Resources.createPacketsDes, readString, bind_assoc, refines_allocate_bind,
    refines_access_bind, refines_update_bind]
  rfl

theorem refines_send (socket : Descriptor) (bytes : List UInt8) (succeeds : Bool) :
    Refines (Resources.send socket bytes succeeds)
      (Mains.send socket.fd bytes succeeds) :=
  refines_onSocket socket _

theorem refines_servRecFromCli_bind (socket : Descriptor) (heap : Heap) (key : Key)
    (received : Option (List UInt8)) {next : Option Target → FullProgram B}
    {plainNext : Option Block → Program B}
    (hnext : Refines (next ((Packet.servRecFromCli heap key received).value.map
        (Target.mk .decryptPacket)))
      (plainNext (Packet.servRecFromCli heap key received).value)) :
    Refines (Resources.servRecFromCli socket heap key received >>= next)
      (Mains.receive socket.fd encapsulatedSize (Packet.servRecFromCli heap key)
        received >>= plainNext) := by
  rw [Resources.servRecFromCli, bind_assoc, refines_allocate_bind, bind_assoc,
    Mains.receive, bind_assoc]
  refine refines_onSocket_bind socket _ fun _ => ?_
  cases received with
  | none => exact hnext
  | some delivered =>
      simp only [bind_assoc, pure_bind, refines_allocate_bind, refines_access_bind,
        refines_update_bind, refines_xorEncryptDecrypt_bind, refines_free_bind]
      exact hnext

/-- The receivers that only fill a buffer. -/
theorem refines_receiveInto_bind (socket : Descriptor) (heap : Heap) (size : ℕ)
    (received : Option (List UInt8)) {next : Option Target → FullProgram B}
    {receiver : Option (List UInt8) → Traced (Option Block)}
    (hreceiver : (receiver received).value = received.map fun delivered =>
      (recv (calloc (heap 0) size) size delivered).value)
    {plainNext : Option Block → Program B}
    (hnext : Refines (next ((receiver received).value.map (Target.mk .newRecPkt)))
      (plainNext (receiver received).value)) :
    Refines (receiveInto socket heap size received >>= next)
      (Mains.receive socket.fd size receiver received >>= plainNext) := by
  rw [hreceiver] at hnext
  rw [receiveInto, bind_assoc, refines_allocate_bind, bind_assoc, Mains.receive,
    bind_assoc]
  refine refines_onSocket_bind socket _ fun _ => ?_
  rw [pure_bind, hreceiver]
  cases received with
  | none => exact hnext
  | some delivered =>
      rw [bind_assoc, refines_update_bind]
      exact hnext

theorem value_servRecFromDes (heap : Heap) (received : Option (List UInt8)) :
    (Packet.servRecFromDes heap received).value = received.map fun delivered =>
      (recv (calloc (heap 0) encapsulatedSize) encapsulatedSize delivered).value := by
  cases received <;> rfl

theorem value_destRecPkt (heap : Heap) (received : Option (List UInt8)) :
    (Packet.destRecPkt heap received).value = received.map fun delivered =>
      (recv (calloc (heap 0) decapsulatedSize) decapsulatedSize delivered).value := by
  cases received <;> rfl

section Sockets

variable {next : Descriptor → FullProgram B} {plainNext : ℕ → Program B}

theorem refines_requireFd_bind (socket : Socket) (call : Call) (fd : Option ℕ)
    (text : List UInt8)
    (hnext : ∀ fd, Refines (next ⟨socket, fd⟩) (plainNext fd)) :
    Refines (Resources.requireFd socket call fd text >>= next)
      (Mains.requireFd call fd text >>= plainNext) := by
  rw [Resources.requireFd, bind_assoc]
  refine refines_shows_bind _ fun result => ?_
  rw [refines_openSocket_bind]
  exact hnext result

theorem refines_createListeningSocket_bind (listener : Listener)
    (hnext : ∀ fd, Refines (next ⟨.listeningFd, fd⟩) (plainNext fd)) :
    Refines (Resources.createListeningSocket listener >>= next)
      (Mains.createListeningSocket listener >>= plainNext) := by
  simp only [Resources.createListeningSocket, Mains.createListeningSocket, bind_assoc,
    pure_bind]
  refine refines_requireFd_bind _ _ _ _ fun fd => ?_
  refine refines_onSocket_bind _ _ fun _ => ?_
  refine refines_onSocket_bind _ _ fun _ => ?_
  refine refines_onSocket_bind _ _ fun _ => ?_
  exact hnext fd

theorem refines_acceptConnection_bind (listeningFd : Descriptor)
    (newSocket : Option ℕ)
    (hnext : ∀ fd, Refines (next ⟨.newSocket, fd⟩) (plainNext fd)) :
    Refines (acceptConnection listeningFd newSocket >>= next)
      (Mains.requireFd .accept newSocket (chars "accept") >>= plainNext) := by
  rw [acceptConnection, bind_assoc, refines_manages_bind]
  exact refines_requireFd_bind _ _ _ _ hnext

end Sockets

theorem refines_createClientSocket_bind (clientFd : Option ℕ)
    {next : Option Descriptor → FullProgram B} {plainNext : Option ℕ → Program B}
    (hnext : ∀ fd : Option ℕ,
      Refines (next (fd.map (Descriptor.mk .clientFd))) (plainNext fd)) :
    Refines (Resources.createClientSocket clientFd >>= next)
      (Mains.createClientSocket clientFd >>= plainNext) := by
  rw [Resources.createClientSocket, bind_assoc]
  refine refines_shows_bind _ fun result => ?_
  cases result with
  | none => exact hnext none
  | some fd =>
      rw [bind_assoc, refines_openSocket_bind]
      exact hnext (some fd)

/-- The address is read without being changed. -/
theorem refines_connectToServer_bind (clientFd : Descriptor)
    {serverIp : FullProgram (List UInt8)} {address : List UInt8}
    (hserverIp : Refines serverIp (pure address)) (converts connects : Bool)
    {next : Bool → FullProgram B} {plainNext : Bool → Program B}
    (hnext : ∀ connected, Refines (next connected) (plainNext connected)) :
    Refines (Resources.connectToServer clientFd serverIp converts connects >>= next)
      (Mains.connectToServer address converts connects >>= plainNext) := by
  rw [Resources.connectToServer, bind_assoc]
  exact refines_silent_bind hserverIp (refines_onSocket_bind clientFd _ hnext)

theorem refines_clientReceive (run : ClientRun) (clientFd : Descriptor) :
    Refines (Resources.clientReceive run clientFd)
      (Mains.clientReceive run clientFd.fd) := by
  refine refines_servRecFromCli_bind _ _ _ _ ?_
  generalize (Packet.servRecFromCli (run.heap.after 2) run.key run.response).value =
    received
  have hprint := refines_printPacket run.order
    (received.map (Target.mk .decryptPacket))
  rw [Option.map_map, show Target.block ∘ Target.mk .decryptPacket = id from rfl,
    Option.map_id, id_eq] at hprint
  refine refines_bind hprint fun _ => ?_
  rw [refines_free_bind, refines_close_bind]
  exact erases_stop _

theorem refines_sendAndFreePacketVpn (socket : Descriptor) (packetToSend : Target)
    (ipProtocol payloadSize : UInt8) (succeeds : Bool) :
    Refines (Resources.sendAndFreePacketVpn socket packetToSend ipProtocol payloadSize
        succeeds)
      (Mains.send socket.fd (Packet.sendAndFreePacketVpn packetToSend.block ipProtocol
        payloadSize).value succeeds) := by
  rw [Resources.sendAndFreePacketVpn, refines_access_bind, ← bind_pure (Mains.send _ _ _)]
  refine refines_bind (refines_send _ _ _) fun sent => ?_
  cases sent with
  | false => exact erases_pure false
  | true =>
      rw [if_pos rfl, refines_free_bind]
      exact erases_pure true

theorem refines_clientExchange (run : ClientRun) (hosts : ClientHosts)
    (clientFd : Descriptor) :
    Refines (Resources.clientExchange run hosts clientFd)
      (Mains.clientExchange run hosts clientFd.fd) := by
  refine refines_event_bind _ ?_
  rw [refines_createPackets_bind]
  refine refines_bind (refines_printPacket _ _) fun _ => ?_
  refine refines_bind (refines_sendAndFreePacketVpn _ _ _ _ _) fun sent => ?_
  have hreceive := refines_clientReceive run clientFd
  cases sent with
  | false => exact refines_event_bind _ hreceive
  | true => exact hreceive

theorem refines_clientMain (run : ClientRun) :
    Refines (Resources.clientMain run) (Mains.clientMain run) := by
  refine refines_shows_bind _ fun hosts => ?_
  rw [connectOrExit, bind_assoc]
  refine refines_createClientSocket_bind _ fun clientFd => ?_
  cases clientFd with
  | none => exact erases_stop _
  | some clientFd =>
      rw [bind_assoc]
      refine refines_connectToServer_bind _ (erases_pure _) _ _ fun connected => ?_
      cases connected with
      | false =>
          rw [if_neg (by decide), refines_close_bind]
          exact erases_stop _
      | true => exact refines_clientExchange run hosts _

theorem refines_servCliEncryptFree_bind (socket : Descriptor) (heap : Heap)
    (key : Key) (packetToSend : Target) (ipProtocol payloadSize : UInt8)
    (succeeds : Bool) {next : Unit → FullProgram B} {plain : Program B}
    (hnext : Refines (next ()) plain) :
    Refines (Resources.servCliEncryptFree socket heap key packetToSend ipProtocol
        payloadSize succeeds >>= next)
      (Mains.send socket.fd (Packet.servCliEncryptFree heap key packetToSend.block
        ipProtocol payloadSize).value succeeds >>= fun _ => plain) := by
  simp only [Resources.servCliEncryptFree, storeTerminator, bind_assoc,
    refines_allocate_bind, refines_xorEncryptDecrypt_bind, refines_update_bind,
    refines_access_bind]
  refine refines_bind (refines_send _ _ _) fun sent => ?_
  cases sent with
  | false => exact hnext
  | true =>
      rw [if_pos rfl, bind_assoc, refines_free_bind, refines_free_bind]
      exact hnext

theorem refines_serverAnswer (run : ServerRun) (serverFd newSocket clientFd : Descriptor)
    (clientIp : UInt32) :
    Refines (Resources.serverAnswer run serverFd newSocket clientFd clientIp)
      (Mains.serverAnswer run newSocket.fd clientFd.fd clientIp) := by
  refine refines_receiveInto_bind _ _ _ _ (value_servRecFromDes _ _) ?_
  simp only [refines_allocate_bind, refines_update_bind]
  refine refines_deref_bind _ _ fun recPacketDest => ?_
  simp only [allocateString, Resources.parseIpAddrToStr, Resources.servHandlePktDest,
    readString, bind_assoc, pure_bind, refines_allocate_bind, refines_memcpy_bind,
    refines_update_bind, refines_access_bind, value_stringOf_writeIpAddr]
  refine refines_bind (refines_printPacket _ _) fun _ => ?_
  rw [refines_access_bind]
  refine refines_servCliEncryptFree_bind _ _ _ _ _ _ _ ?_
  simp only [refines_free_bind, refines_close_bind]
  refine refines_silent_bind (refines_onSocket serverFd (pure ())) ?_
  exact erases_stop _

theorem refines_serverHandle (run : ServerRun) (serverIp : List UInt8)
    (serverFd newSocket : Descriptor) (recPacket : Target) :
    Refines (Resources.serverHandle run serverIp serverFd newSocket recPacket)
      (Mains.serverHandle run serverIp newSocket.fd recPacket.block) := by
  refine refines_bind (refines_printPacket _ _) fun _ => ?_
  simp only [Resources.servHandlePkt, bind_assoc, pure_bind, refines_access_bind]
  rw [connectOrExit, bind_assoc]
  refine refines_createClientSocket_bind _ fun clientFd => ?_
  cases clientFd with
  | none => exact erases_stop _
  | some clientFd =>
      simp only [Option.map_some, allocateString, Resources.parseIpAddrToStr,
        refines_allocate_bind, refines_access_bind, refines_update_bind]
      rw [bind_assoc]
      refine refines_connectToServer_bind _ ?_ _ _ fun connected => ?_
      · rw [readString, ← bind_pure (access _ _), refines_access_bind,
          value_stringOf_writeIpAddr]
        exact erases_pure _
      cases connected with
      | false =>
          rw [if_neg (by decide), refines_close_bind]
          exact erases_stop _
      | true =>
          simp only [if_true, pure_bind, refines_free_bind, refines_access_bind]
          refine refines_bind (refines_send _ _ _) fun sent => ?_
          cases sent with
          | false => exact refines_shows _
          | true =>
              rw [if_pos rfl, refines_free_bind]
              exact refines_event_bind _ (refines_serverAnswer _ _ _ _ _)

theorem refines_serverMain (run : ServerRun) :
    Refines (Resources.serverMain run) (Mains.serverMain run) := by
  refine refines_shows_bind _ fun serverIp => ?_
  refine refines_createListeningSocket_bind _ fun serverFd => ?_
  refine refines_acceptConnection_bind _ _ fun newSocket => ?_
  refine refines_servRecFromCli_bind _ _ _ _ ?_
  cases (Packet.servRecFromCli run.heap run.key run.request).value with
  | none => exact refines_shows _
  | some recPacket => exact refines_serverHandle run serverIp _ _ _

theorem refines_destinationRespond (run : DestinationRun) (hostIp : List UInt8)
    (destFd newSocket : Descriptor) (recPacket : Target) :
    Refines (Resources.destinationRespond run hostIp destFd newSocket recPacket)
      (Mains.destinationRespond run hostIp newSocket.fd recPacket.block) := by
  refine refines_bind (refines_printPacketUnencap _ _ _) fun _ => ?_
  simp only [allocateString, Resources.parseIpAddrToStr, refines_allocate_bind,
    refines_access_bind, refines_update_bind, refines_createPacketsDes_bind,
    value_stringOf_writeIpAddr]
  refine refines_bind (refines_printPacketUnencap _ _ _) fun _ => ?_
  rw [refines_access_bind]
  refine refines_bind (refines_send _ _ _) fun sent => ?_
  cases sent with
  | false => exact erases_stop _
  | true =>
      simp only [if_true, refines_free_bind, refines_close_bind]
      exact erases_stop _

theorem refines_destinationMain (run : DestinationRun) :
    Refines (Resources.destinationMain run) (Mains.destinationMain run) := by
  refine refines_shows_bind _ fun hostIp => ?_
  refine refines_createListeningSocket_bind _ fun destFd => ?_
  refine refines_acceptConnection_bind _ _ fun newSocket => ?_
  refine refines_receiveInto_bind _ _ _ _ (value_destRecPkt _ _) ?_
  cases (Packet.destRecPkt run.heap run.request).value with
  | none => exact refines_shows _
  | some recPacket => exact refines_destinationRespond run hostIp _ _ _

end SimpleVpn.Erasure
