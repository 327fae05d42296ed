import SimpleVpn.Concrete.Stages
import SimpleVpn.Tunnel.Bounds
import SimpleVpn.Tunnel.Construction
import SimpleVpn.Tunnel.Erasure
import SimpleVpn.Tunnel.System

/-!
# Accesses of the three programs

Each program relies on one thing about what it receives: it has a zero where the
program looks for the end of the payload.  As long as this holds, the client and the
destination only access what lies inside their blocks, and the server leaves one of
its own at most once: to store the terminator right behind its reply.
-/

namespace SimpleVpn.Guards

open SimpleVpn.TracedMemory SimpleVpn.HostWords SimpleVpn.CStrings
open SimpleVpn.Keystream SimpleVpn.Processes SimpleVpn.Lifetimes SimpleVpn.HostInfo
open SimpleVpn.AddressScan SimpleVpn.Protocol SimpleVpn.Packet SimpleVpn.Programs
open SimpleVpn.Mains SimpleVpn.Resources SimpleVpn.Erasure SimpleVpn.Frame
open SimpleVpn.Rewrite SimpleVpn.Transit SimpleVpn.Hops SimpleVpn.Bounds
open SimpleVpn.Construction SimpleVpn.Stages SimpleVpn.System

/-- What a program relies on once it made a step. -/
def Relies (relied : Event → Prop) : Step → Prop
  | .shows event => relied event
  | _ => True

def StaysWithin : Step → Prop
  | .accesses _ access => access.InBounds
  | _ => True

/-- The payload area, which begins at `start`, ends inside the packet. -/
structure EndsWithin (packet : Block) (start : ℕ) : Prop where
  size_le : start ≤ packet.size
  zero : ∃ offset, start + offset < packet.size ∧ packet.byte (start + offset) = 0

section Built

variable {order : ByteOrder} {heap : Heap} {ipSrc ipDest payload : List UInt8}
variable {flags : UInt8} (hlength : payload.length % 2 ^ 32 ≤ 128)

include hlength

theorem createPackets_endsWithin (key : Key) :
    EndsWithin (Packet.createPackets order heap key ipSrc ipDest ipProtocolTcp payload
      flags).value 46 := by
  have hsize := size_createPackets order heap key ipSrc ipDest flags payload
  refine ⟨by omega, min (payload.length % 2 ^ 32) 127, by omega, ?_⟩
  rw [byte_createPackets_of_plain _ _ _ _ _ _ _ (by omega)]
  exact if_pos (offsetBy_clampLength_of_le hlength).symm

theorem createPacketsDes_endsWithin :
    EndsWithin (Packet.createPacketsDes order heap ipSrc ipDest ipProtocolTcp payload
      flags).value 46 := by
  have hsize := size_createPacketsDes order heap ipSrc ipDest flags payload
  refine ⟨by omega, min (payload.length % 2 ^ 32) 127, by omega, ?_⟩
  rw [byte_createPacketsDes_payload _ _ _ _ _ _ hlength (by omega), if_pos rfl]

end Built

section Received

variable (heap : Heap) (key : Key) {delivered : List UInt8}

theorem servRecFromCli_endsWithin (hend : EndsFrom 46 delivered) :
    ∃ packet, (Packet.servRecFromCli heap key (some delivered)).value =
        some packet ∧ packet.size = 174 ∧ EndsWithin packet 46 := by
  obtain ⟨offset, hoffset, hzero⟩ := hend
  obtain ⟨first, hle, hfirst⟩ := exists_payloadEnd hzero
  obtain ⟨packet, hsome, hpacket⟩ := servRecFromCli_some heap key (by omega) hfirst
  have hsize := hpacket.size_eq
  refine ⟨packet, hsome, hsize, by omega, first, by omega, ?_⟩
  rw [hpacket.byte_eq _ (by omega), if_pos rfl]

theorem servRecFromDes_endsWithin (hend : EndsFrom 40 delivered) :
    ∃ packet, (Packet.servRecFromDes heap (some delivered)).value = some packet ∧
      packet.size = 174 ∧ ∃ offset ≤ 127, FirstZero packet.byte 40 offset := by
  obtain ⟨offset, hoffset, hzero⟩ := hend
  obtain ⟨packet, hsome, hsize, hbyte⟩ := servRecFromDes_some heap delivered
  rw [← hbyte _ (by omega)] at hzero
  obtain ⟨first, hle, hfirst⟩ := exists_firstZero hzero
  exact ⟨packet, hsome, hsize, first, by omega, hfirst⟩

theorem destRecPkt_endsWithin (hend : EndsFrom 40 delivered) :
    ∃ packet, (Packet.destRecPkt heap (some delivered)).value = some packet ∧
      packet.size = 168 ∧ EndsWithin packet 40 := by
  obtain ⟨offset, hoffset, hzero⟩ := hend
  obtain ⟨packet, hsome, hsize, hbyte⟩ := destRecPkt_some heap delivered
  refine ⟨packet, hsome, hsize, by omega, offset, by omega, ?_⟩
  rw [hbyte _ (by omega), hzero]

end Received

section Functions

variable {A B : Type} {relied : Event → Prop} {lapse : Step → Prop}

/-- As long as what the program relies on holds, every access stays inside its block,
but for one that may be a lapse. -/
structure Guarded (relied : Event → Prop) (lapse : Step → Prop)
    (run : FullProgram A) : Prop where
  assured : Assured (Relies relied) StaysWithin lapse run.events

theorem guarded_pure (value : A) :
    Guarded relied lapse (pure value : FullProgram A) := ⟨assured_pure value⟩

theorem guarded_stop (reason : Stop) :
    Guarded relied lapse (stop reason : FullProgram A) := ⟨assured_stop reason⟩

@[simp]
theorem guarded_manages_bind (operation : Operation Resource)
    (next : Unit → FullProgram B) :
    Guarded relied lapse (emit (.manages operation) >>= next) ↔
      Guarded relied lapse (next ()) := by
  refine ⟨fun hrun => ⟨?_⟩, fun hnext => ⟨?_⟩⟩
  · exact (assured_emit_bind trivial next).mp hrun.assured trivial
  · exact (assured_emit_bind trivial next).mpr fun _ => hnext.assured

@[simp]
theorem guarded_event_bind (event : Event) (next : Unit → FullProgram B) :
    Guarded relied lapse (emit (.shows event) >>= next) ↔
      (relied event → Guarded relied lapse (next ())) := by
  refine ⟨fun hrun hevent => ⟨?_⟩, fun hnext => ⟨?_⟩⟩
  · exact (assured_emit_bind trivial next).mp hrun.assured hevent
  · exact (assured_emit_bind trivial next).mpr fun hevent => (hnext hevent).assured

@[simp]
theorem guarded_allocate_bind (allocation : Allocation) (around : Surroundings)
    (size : ℕ) (next : Target → FullProgram B) :
    Guarded relied lapse (allocate allocation around size >>= next) ↔
      Guarded relied lapse (next ⟨allocation, calloc around size⟩) := by
  rw [allocate, bind_assoc, guarded_manages_bind, pure_bind]

@[simp]
theorem guarded_allocateString_bind (allocation : Allocation)
    (next : Target → FullProgram B) :
    Guarded relied lapse (allocateString allocation >>= next) ↔
      Guarded relied lapse (next ⟨allocation, calloc (Heap.zeros 0) 16⟩) :=
  guarded_allocate_bind allocation _ 16 next

@[simp]
theorem guarded_free_bind (target : Option Target) (next : Unit → FullProgram B) :
    Guarded relied lapse (Resources.free target >>= next) ↔
      Guarded relied lapse (next ()) := by
  cases target with
  | none => rfl
  | some target => exact guarded_manages_bind _ next

@[simp]
theorem guarded_openSocket_bind (socket : Socket) (fd : ℕ)
    (next : Descriptor → FullProgram B) :
    Guarded relied lapse (openSocket socket fd >>= next) ↔
      Guarded relied lapse (next ⟨socket, fd⟩) := by
  rw [openSocket, bind_assoc, guarded_manages_bind, pure_bind]

@[simp]
theorem guarded_close_bind (descriptor : Descriptor) (next : Unit → FullProgram B) :
    Guarded relied lapse (close descriptor >>= next) ↔
      Guarded relied lapse (next ()) :=
  guarded_manages_bind _ next

theorem guarded_event (event : Event) :
    Guarded relied lapse (emit (.shows event)) := by
  rw [← bind_pure (emit _), guarded_event_bind]
  exact fun _ => guarded_pure ()

theorem guarded_shows (run : Program A) : Guarded relied lapse (shows run) := by
  refine ⟨Assured.of_forall fun step hmem => ?_⟩
  obtain ⟨event, -, rfl⟩ := List.mem_map.mp hmem
  trivial

/-- The lapse comes after a beginning without one. -/
theorem guarded_bind {run : FullProgram A} {next : A → FullProgram B}
    (hrun : Guarded relied never run)
    (hnext : ∀ value, run.outcome = .ok value → Guarded relied lapse (next value)) :
    Guarded relied lapse (run >>= next) :=
  ⟨hrun.assured.bind fun value hvalue _ => (hnext value hvalue).assured⟩

theorem guarded_shows_bind {run : Program A} {next : A → FullProgram B}
    (hnext : ∀ value, run.outcome = .ok value → Guarded relied lapse (next value)) :
    Guarded relied lapse (shows run >>= next) :=
  guarded_bind (guarded_shows run) hnext

theorem guarded_onSocket_bind {descriptor : Descriptor} {run : Program A}
    {next : A → FullProgram B}
    (hnext : ∀ value, run.outcome = .ok value → Guarded relied lapse (next value)) :
    Guarded relied lapse (onSocket descriptor run >>= next) := by
  rw [onSocket, bind_assoc, guarded_manages_bind]
  exact guarded_shows_bind hnext

theorem guarded_follows_bind {C : Type} {allocations : Finset Allocation}
    {run : Traced A} {wrap : A → C} {full : FullProgram C}
    (hrun : Follows allocations run wrap full) (hinside : run.InBounds)
    {next : C → FullProgram B} (hnext : Guarded relied lapse (next (wrap run.value))) :
    Guarded relied lapse (full >>= next) := by
  apply guarded_bind
  · refine ⟨Assured.of_forall fun step hmem => ?_⟩
    obtain ⟨allocation, -, access, haccess, rfl⟩ := hrun.events step hmem
    exact hinside access haccess
  · intro value hvalue
    obtain rfl := Except.ok.inj (hrun.outcome.symm.trans hvalue)
    exact hnext

section Blocks

variable {allocation origin : Allocation} {block source : Block}

theorem guarded_access_bind {run : Block → Traced A} {next : A → FullProgram B}
    (hinside : (run block).InBounds)
    (hnext : Guarded relied lapse (next (run block).value)) :
    Guarded relied lapse (access ⟨allocation, block⟩ run >>= next) :=
  guarded_follows_bind (follows_access (Finset.mem_singleton_self _) run) hinside hnext

variable {next : Target → FullProgram B}

theorem guarded_update_bind {run : Block → Traced Block}
    (hinside : (run block).InBounds)
    (hnext : Guarded relied lapse (next ⟨allocation, (run block).value⟩)) :
    Guarded relied lapse (update ⟨allocation, block⟩ run >>= next) :=
  guarded_follows_bind (follows_update (Finset.mem_singleton_self _) run) hinside hnext

theorem guarded_memcpy_bind {start first count : ℕ}
    (hinside : (TracedMemory.memcpy block start source first count).InBounds)
    (hnext : Guarded relied lapse
      (next ⟨allocation, (TracedMemory.memcpy block start source first count).value⟩)) :
    Guarded relied lapse (Resources.memcpy ⟨allocation, block⟩ start ⟨origin, source⟩
      first count >>= next) :=
  guarded_follows_bind (follows_memcpy _ start _ first count) hinside hnext

theorem guarded_xorEncryptDecrypt_bind {key : Key} {length : ℕ}
    (hinside : (Packet.xorEncryptDecrypt key source block length).InBounds)
    (hnext : Guarded relied lapse
      (next ⟨allocation, (Packet.xorEncryptDecrypt key source block length).value⟩)) :
    Guarded relied lapse (Resources.xorEncryptDecrypt key ⟨origin, source⟩
      ⟨allocation, block⟩ length >>= next) :=
  guarded_follows_bind (follows_xorEncryptDecrypt key _ _ length) hinside hnext

end Blocks

section Strings

variable {allocation : Allocation} {around : Surroundings} {ipAddr : UInt32}

theorem guarded_parseIpAddrToStr_bind {next : Target → FullProgram B}
    (hnext : Guarded relied lapse
      (next ⟨allocation, (writeIpAddr (calloc around 16) ipAddr).value⟩)) :
    Guarded relied lapse
      (Resources.parseIpAddrToStr ⟨allocation, calloc around 16⟩ ipAddr >>= next) :=
  guarded_update_bind (inBounds_writeIpAddr ipAddr around) hnext

theorem guarded_readString_bind {next : List UInt8 → FullProgram B}
    (hnext : Guarded relied lapse (next (HostInfo.parseIpAddrToStr ipAddr))) :
    Guarded relied lapse (readString
      ⟨allocation, (writeIpAddr (calloc around 16) ipAddr).value⟩ >>= next) := by
  apply guarded_access_bind
  · exact inBounds_stringOf_writeIpAddr ipAddr around
  rw [value_stringOf_writeIpAddr]
  exact hnext

end Strings

theorem guarded_printIpHeader (order : ByteOrder) {allocation : Allocation}
    {packet : Block} {ipHeader : ℕ} (hsize : ipHeader + 20 ≤ packet.size) :
    Guarded relied lapse
      (Resources.printIpHeader order ⟨allocation, packet⟩ ipHeader) := by
  simp only [Resources.printIpHeader, guarded_allocateString_bind]
  apply guarded_access_bind
  · rw [inBounds_loadU32, ipSrc]
    omega
  apply guarded_parseIpAddrToStr_bind
  apply guarded_access_bind
  · rw [inBounds_loadU32, ipDst]
    omega
  apply guarded_parseIpAddrToStr_bind
  apply guarded_access_bind
  · rw [Printing.inBounds_printIpFields]
    omega
  apply guarded_readString_bind
  apply guarded_readString_bind
  rw [guarded_free_bind, ← bind_pure (Resources.free _), guarded_free_bind]
  exact guarded_pure ()

/-- Without a packet the program crashes before it accesses anything. -/
theorem guarded_printPacket (order : ByteOrder) {packetStart : Option Target}
    (hend : ∀ packet, packetStart = some packet → EndsWithin packet.block 46) :
    Guarded relied lapse (Resources.printPacket order packetStart) := by
  apply guarded_shows_bind
  intro packet hderef
  have hsome : packetStart = some packet := by
    cases packetStart with
    | none => cases hderef
    | some other =>
        cases hderef
        rfl
  have hsize := (hend packet hsome).size_le
  apply guarded_access_bind
  · rw [Printing.inBounds_printGreHeader]
    omega
  apply guarded_bind (guarded_printIpHeader order ?_)
  · intro _ _
    apply guarded_access_bind
    · rw [Printing.printTcpHeader, Printing.inBounds_printTcpFields, getTcpHdr,
        sizeofGreHdr, sizeofIpHdr]
      omega
    apply guarded_access_bind
    · exact (Printing.inBounds_printPayloadFrom _ _ hsize).mpr
        (hend packet hsome).zero
    exact guarded_event _
  · rw [getIpHdr, sizeofGreHdr]
    omega

/-- A packet that is there. -/
theorem guarded_printPacket_bind (order : ByteOrder) {allocation : Allocation}
    {packet : Block} (hend : EndsWithin packet 46) {next : Unit → FullProgram B}
    (hnext : Guarded relied lapse (next ())) :
    Guarded relied lapse
      (Resources.printPacket order (some ⟨allocation, packet⟩) >>= next) := by
  apply guarded_bind (guarded_printPacket order fun other heq => ?_)
  · exact fun _ _ => hnext
  · rwa [← Option.some.inj heq]

theorem guarded_printPacketUnencap_bind (order : ByteOrder) {allocation : Allocation}
    {packet : Block} {packetStart : ℕ} (hend : EndsWithin packet (packetStart + 40))
    {next : Unit → FullProgram B} (hnext : Guarded relied lapse (next ())) :
    Guarded relied lapse (Resources.printPacketUnencap order ⟨allocation, packet⟩
      packetStart >>= next) := by
  have hsize := hend.size_le
  rw [Resources.printPacketUnencap, bind_assoc]
  apply guarded_bind (guarded_printIpHeader order (by omega))
  intro _ _
  rw [bind_assoc]
  apply guarded_access_bind
  · rw [Printing.inBounds_printTcpFields, sizeofIpHdr]
    omega
  rw [bind_assoc]
  apply guarded_access_bind
  · exact (Printing.inBounds_printPayloadFrom _ _ hsize).mpr hend.zero
  rw [guarded_event_bind]
  exact fun _ => hnext

theorem guarded_send_bind {socket : Descriptor} {bytes : List UInt8} {succeeds : Bool}
    {next : Bool → FullProgram B} (hnext : Guarded relied lapse (next succeeds)) :
    Guarded relied lapse (Resources.send socket bytes succeeds >>= next) := by
  apply guarded_onSocket_bind
  intro sent hsent
  obtain rfl := Except.ok.inj hsent
  exact hnext

theorem guarded_receive_bind {socket : Descriptor} {size : ℕ}
    {received : Option (List UInt8)} {next : Unit → FullProgram B}
    (hnext : relied (.called (.recv socket.fd size) received.isSome) →
      Guarded relied lapse (next ())) :
    Guarded relied lapse (Resources.receive socket size received >>= next) := by
  rw [Resources.receive, onSocket, bind_assoc, guarded_manages_bind]
  exact (guarded_event_bind _ next).mpr hnext

theorem guarded_requireFd_bind {socket : Socket} {call : Call} {fd : Option ℕ}
    {text : List UInt8} {next : Descriptor → FullProgram B}
    (hnext : ∀ result, fd = some result →
      Guarded relied lapse (next ⟨socket, result⟩)) :
    Guarded relied lapse (Resources.requireFd socket call fd text >>= next) := by
  rw [Resources.requireFd, bind_assoc]
  apply guarded_shows_bind
  intro result hresult
  rw [guarded_openSocket_bind]
  exact hnext result ((outcome_requireFd_iff _ _ _ _).mp hresult)

/-- Server and destination begin alike, and go on with the connection that they
accept. -/
theorem guarded_accepting {address : Program (List UInt8)} {listener : Listener}
    {accept : Option ℕ} {next : List UInt8 → Descriptor → Descriptor → FullProgram B}
    (hnext : ∀ hostIp listeningFd fd, accept = some fd →
      Guarded relied lapse (next hostIp listeningFd ⟨.newSocket, fd⟩)) :
    Guarded relied lapse (do
      let hostIp ← shows address
      let listeningFd ← Resources.createListeningSocket listener
      let newSocket ← acceptConnection listeningFd accept
      next hostIp listeningFd newSocket) := by
  apply guarded_shows_bind
  intro hostIp _
  simp only [Resources.createListeningSocket, bind_assoc, pure_bind]
  apply guarded_requireFd_bind
  intro fd _
  apply guarded_onSocket_bind
  intro _ _
  apply guarded_onSocket_bind
  intro _ _
  apply guarded_onSocket_bind
  intro _ _
  rw [acceptConnection, bind_assoc, guarded_manages_bind]
  apply guarded_requireFd_bind
  exact hnext hostIp _

theorem guarded_createClientSocket_bind {clientFd : Option ℕ}
    {next : Option Descriptor → FullProgram B}
    (hnext : Guarded relied lapse (next (clientFd.map (Descriptor.mk .clientFd)))) :
    Guarded relied lapse (Resources.createClientSocket clientFd >>= next) := by
  rw [Resources.createClientSocket, bind_assoc]
  apply guarded_shows_bind
  intro result hresult
  rw [outcome_createClientSocket] at hresult
  obtain rfl := Except.ok.inj hresult
  cases clientFd with
  | none => exact hnext
  | some clientFd =>
      rw [bind_assoc, guarded_openSocket_bind]
      exact hnext

theorem guarded_connectToServer_bind {clientFd : Descriptor}
    {serverIp : FullProgram (List UInt8)} {converts connects : Bool}
    (hserverIp : Guarded relied never serverIp) {next : Bool → FullProgram B}
    (hnext : ∀ connected, Guarded relied lapse (next connected)) :
    Guarded relied lapse
      (Resources.connectToServer clientFd serverIp converts connects >>= next) := by
  rw [Resources.connectToServer, bind_assoc]
  apply guarded_bind hserverIp
  intro address _
  apply guarded_onSocket_bind
  exact fun connected _ => hnext connected

theorem guarded_servHandlePkt_bind {order : ByteOrder} {allocation : Allocation}
    {packet : Block} {serverIp : List UInt8} (hsize : 26 ≤ packet.size)
    {next : Target × ℕ → FullProgram B}
    (hnext : Guarded relied lapse (next
      (⟨allocation, (Packet.servHandlePkt order packet serverIp).value.1⟩,
        (Packet.servHandlePkt order packet serverIp).value.2))) :
    Guarded relied lapse
      (Resources.servHandlePkt order ⟨allocation, packet⟩ serverIp >>= next) := by
  rw [Resources.servHandlePkt, bind_assoc]
  apply guarded_access_bind
  · exact inBounds_rewriteAddress order .source serverIp hsize
  exact hnext

theorem guarded_servHandlePktDest_bind {order : ByteOrder} {allocation : Allocation}
    {packet : Block} {string : Allocation} {around : Surroundings} {ipAddr : UInt32}
    (hsize : 26 ≤ packet.size) {next : Target × ℕ → FullProgram B}
    (hnext : Guarded relied lapse (next (⟨allocation, (Packet.servHandlePktDest order
      packet (HostInfo.parseIpAddrToStr ipAddr)).value.1⟩, (Packet.servHandlePktDest
      order packet (HostInfo.parseIpAddrToStr ipAddr)).value.2))) :
    Guarded relied lapse (Resources.servHandlePktDest order ⟨allocation, packet⟩
      ⟨string, (writeIpAddr (calloc around 16) ipAddr).value⟩ >>= next) := by
  rw [Resources.servHandlePktDest, bind_assoc]
  apply guarded_readString_bind
  rw [bind_assoc]
  apply guarded_access_bind
  · exact inBounds_rewriteAddress order .dest _ hsize
  exact hnext

section Receiving

variable (socket : Descriptor) (heap : Heap) {received : Option (List UInt8)}
variable {next : Option Target → FullProgram B}

theorem guarded_servRecFromCli_bind (key : Key)
    (hrelied : relied (.called (.recv socket.fd encapsulatedSize) true) →
      EndsFrom 46 (received.getD []))
    (hnone : Guarded relied lapse (next none))
    (hsome : ∀ packet, (Packet.servRecFromCli heap key received).value = some packet →
      packet.size = 174 → EndsWithin packet 46 →
      Guarded relied lapse (next (some ⟨.decryptPacket, packet⟩))) :
    Guarded relied lapse
      (Resources.servRecFromCli socket heap key received >>= next) := by
  cases received with
  | none =>
      rw [Resources.servRecFromCli, bind_assoc, guarded_allocate_bind, bind_assoc]
      exact guarded_receive_bind fun _ => hnone
  | some delivered =>
      have hfull : EndsFrom 46 delivered → Guarded relied lapse
          (next ((Packet.servRecFromCli heap key (some delivered)).value.map
            (Target.mk .decryptPacket))) := by
        intro hend
        obtain ⟨packet, hpacket, hsize, hwithin⟩ :=
          servRecFromCli_endsWithin heap key hend
        rw [hpacket]
        exact hsome packet hpacket hsize hwithin
      have hinside := inBounds_servRecFromCli heap key delivered
      simp only [Packet.servRecFromCli, Traced.inBounds_bind] at hinside
      rw [Resources.servRecFromCli, bind_assoc, guarded_allocate_bind, bind_assoc]
      apply guarded_receive_bind
      intro hevent
      have hend : EndsFrom 46 delivered := hrelied hevent
      simp only [bind_assoc, pure_bind]
      apply guarded_update_bind
      · exact (hinside hend).1
      apply guarded_access_bind
      · exact (hinside hend).2.1
      rw [guarded_allocate_bind]
      apply guarded_xorEncryptDecrypt_bind
      · exact (hinside hend).2.2.1
      apply guarded_update_bind
      · exact (hinside hend).2.2.2.1
      rw [guarded_free_bind]
      exact hfull hend

/-- A receiver that only fills a buffer stays inside it. -/
theorem guarded_receiveInto_bind {size : ℕ}
    (hnext : relied (.called (.recv socket.fd size) received.isSome) →
      Guarded relied lapse (next (received.map fun delivered =>
        ⟨.newRecPkt, (recv (calloc (heap 0) size) size delivered).value⟩))) :
    Guarded relied lapse (receiveInto socket heap size received >>= next) := by
  rw [receiveInto, bind_assoc, guarded_allocate_bind, bind_assoc]
  apply guarded_receive_bind
  intro hevent
  have hreceived := hnext hevent
  cases received with
  | none => exact hreceived
  | some delivered =>
      rw [bind_assoc]
      apply guarded_update_bind
      · exact (inBounds_recv delivered (heap 0) size)
      exact hreceived

end Receiving

theorem guarded_sendAndFreePacketVpn_bind {socket : Descriptor}
    {allocation : Allocation} {packet : Block} {payloadSize : UInt8} {succeeds : Bool}
    (hsize : (getPacketSize ipProtocolTcp payloadSize).toNat ≤ packet.size)
    {next : Bool → FullProgram B}
    (hnext : Guarded relied lapse (next succeeds)) :
    Guarded relied lapse (Resources.sendAndFreePacketVpn socket ⟨allocation, packet⟩
      ipProtocolTcp payloadSize succeeds >>= next) := by
  rw [Resources.sendAndFreePacketVpn, bind_assoc]
  apply guarded_access_bind
  · rw [Packet.sendAndFreePacketVpn, inBounds_loadBytes]
    omega
  rw [bind_assoc]
  apply guarded_send_bind
  cases succeeds with
  | false => exact hnext
  | true =>
      rw [if_pos rfl, bind_assoc, guarded_free_bind]
      exact hnext

theorem guarded_createPackets_bind (order : ByteOrder) (heap : Heap) (key : Key)
    (ipSrc ipDest : List UInt8) {payload : List UInt8} (flags : UInt8)
    (hlength : payload.length % 2 ^ 32 ≤ 128) {next : Target → FullProgram B}
    (hnext : Guarded relied lapse (next ⟨.encryptPacket, (Packet.createPackets order
      heap key ipSrc ipDest ipProtocolTcp payload flags).value⟩)) :
    Guarded relied lapse (Resources.createPackets order heap key ipSrc ipDest
      ipProtocolTcp payload flags >>= next) := by
  have hinside := (inBounds_createPackets order ipSrc ipDest payload flags heap
    key).mpr hlength
  simp only [Packet.createPackets, Traced.inBounds_bind] at hinside
  simp only [Resources.createPackets, bind_assoc, pure_bind, guarded_allocate_bind]
  apply guarded_update_bind
  · exact hinside.1
  apply guarded_xorEncryptDecrypt_bind
  · exact hinside.2.1
  apply guarded_update_bind
  · exact hinside.2.2
  rw [guarded_free_bind]
  exact hnext

end Functions

/-- What the client relies on: the reply ends before the receive buffer does. -/
def clientRelies (run : ClientRun) : Event → Prop
  | .called (.recv _ _) true => EndsFrom 46 (run.response.getD [])
  | _ => True

theorem guarded_clientReceive (run : ClientRun) (clientFd : Descriptor) :
    Guarded (clientRelies run) never (Resources.clientReceive run clientFd) := by
  apply guarded_servRecFromCli_bind
  · exact id
  · exact guarded_bind (guarded_printPacket _ fun packet heq => by cases heq)
      fun _ houtcome => by cases houtcome
  · intro packet _ _ hwithin
    apply guarded_printPacket_bind _ hwithin
    rw [guarded_free_bind, guarded_close_bind]
    exact guarded_stop _

theorem guarded_clientExchange (run : ClientRun) (hosts : ClientHosts)
    (clientFd : Descriptor) :
    Guarded (clientRelies run) never
      (Resources.clientExchange run hosts clientFd) := by
  rw [Resources.clientExchange, guarded_event_bind]
  intro _
  apply guarded_createPackets_bind
  · decide
  apply guarded_printPacket_bind
  · exact createPackets_endsWithin (by decide) run.key
  apply guarded_sendAndFreePacketVpn_bind
  · rw [size_createPackets]
    decide
  have hreceive := guarded_clientReceive run clientFd
  cases run.sends with
  | false => exact (guarded_event_bind _ _).mpr fun _ => hreceive
  | true => exact hreceive

theorem guarded_clientMain (run : ClientRun) :
    Guarded (clientRelies run) never (Resources.clientMain run) := by
  apply guarded_shows_bind
  intro hosts _
  apply guarded_createClientSocket_bind
  cases run.socket with
  | none => exact guarded_stop _
  | some clientFd =>
      apply guarded_connectToServer_bind (guarded_pure _)
      intro connected
      cases connected with
      | false =>
          rw [if_neg Bool.false_ne_true, guarded_close_bind]
          exact guarded_stop _
      | true => exact guarded_clientExchange run hosts _

/-- What the server relies on: both packets that it receives end before its
buffers do. -/
def serverRelies (run : ServerRun) : Event → Prop
  | .called (.recv fd _) true =>
      if run.accept = some fd then EndsFrom 46 (run.request.getD [])
      else EndsFrom 40 (run.response.getD [])
  | _ => True

/-- The terminator of a reply goes right behind the buffer of the reply. -/
structure StoresBehind (reply : List UInt8) (block : Block) (payloadSize : UInt8) :
    Prop where
  size_eq : block.size = reply.length
  index_eq : getPayload 0 + payloadSize.toNat = reply.length

/-- The step that stores the terminator of the server's answer. -/
def OverrunsReply (run : ServerRun) (step : Step) : Prop :=
  ∃ block payloadSize, StoresBehind (answerOf run) block payloadSize ∧
    (storeTerminator ⟨.encryptPacket, block⟩ payloadSize).events = [step]

section Server

variable {B : Type} {run : ServerRun}

/-- After the lapse nothing is outside. -/
theorem guarded_storeTerminator_bind {block : Block} {payloadSize : UInt8}
    (hbehind : StoresBehind (answerOf run) block payloadSize)
    {next : Target → FullProgram B}
    (hnext : Guarded (serverRelies run) never (next ⟨.encryptPacket,
      (store block (getPayload 0 + payloadSize.toNat) 0).value⟩)) :
    Guarded (serverRelies run) (OverrunsReply run)
      (storeTerminator ⟨.encryptPacket, block⟩ payloadSize >>= next) :=
  ⟨Or.inr ⟨⟨block, payloadSize, hbehind, rfl⟩, fun _ => hnext.assured⟩⟩

theorem guarded_servCliEncryptFree_bind {socket : Descriptor} {heap : Heap} {key : Key}
    {allocation : Allocation} {packet : Block} {offset : ℕ} (hsize : packet.size = 174)
    (hoffset : offset ≤ 127) {succeeds : Bool}
    (hanswer : (answerOf run).length = 46 + offset) {next : Unit → FullProgram B}
    (hnext : Guarded (serverRelies run) never (next ())) :
    Guarded (serverRelies run) (OverrunsReply run) (Resources.servCliEncryptFree socket
      heap key ⟨allocation, packet⟩ ipProtocolTcp (UInt8.ofNat offset) succeeds >>=
        next) := by
  have hpayload : (UInt8.ofNat offset).toNat = offset :=
    UInt8.toNat_ofNat_of_lt' (show offset < 256 by omega)
  have hlength := toNat_getPacketSize (show (UInt8.ofNat offset).toNat < 210 by omega)
  rw [hpayload] at hlength
  simp only [Resources.servCliEncryptFree, bind_assoc, guarded_allocate_bind, hlength]
  apply guarded_xorEncryptDecrypt_bind
  · rw [inBounds_xorEncryptDecrypt, size_calloc]
    omega
  apply guarded_storeTerminator_bind
  · constructor
    · rw [size_xorEncryptDecrypt, size_calloc, hanswer]
    · rw [hpayload, hanswer]
      rfl
  apply guarded_access_bind
  · rw [inBounds_loadBytes, value_store, Block.size_set, size_xorEncryptDecrypt,
      size_calloc]
    omega
  apply guarded_send_bind
  cases succeeds with
  | false => exact hnext
  | true =>
      rw [if_pos rfl, bind_assoc, guarded_free_bind, guarded_free_bind]
      exact hnext

/-- The second connection is not the first one. -/
theorem endsFrom_of_serverRelies {clientFd size : ℕ}
    (hne : run.accept ≠ some clientFd)
    (hrelied : serverRelies run (.called (.recv clientFd size) true)) :
    EndsFrom 40 (run.response.getD []) := by
  rw [serverRelies, if_neg hne] at hrelied
  exact hrelied

theorem length_answerOf {recPacket recPacketDest : Block} {offset : ℕ}
    (hrequest : (Packet.servRecFromCli run.heap run.key run.request).value =
      some recPacket)
    (hresponse : (Packet.servRecFromDes (run.heap.after 2) run.response).value =
      some recPacketDest) (hoffset : offset ≤ 127)
    (hend : FirstZero recPacketDest.byte 40 offset) :
    (answerOf run).length = 46 + offset := by
  rw [answerOf, hrequest, hresponse]
  dsimp only
  rw [value_serverReply _ _ _ _ _ hoffset hend, length_encipher, Block.length_slice]

theorem guarded_serverAnswer {recPacket : Block}
    (hrequest : (Packet.servRecFromCli run.heap run.key run.request).value =
      some recPacket) (serverFd newSocket : Descriptor) {clientFd : ℕ}
    (hne : run.accept ≠ some clientFd) (clientIp : UInt32) :
    Guarded (serverRelies run) (OverrunsReply run) (Resources.serverAnswer run serverFd
      newSocket ⟨.clientFd, clientFd⟩ clientIp) := by
  rw [Resources.serverAnswer, Resources.servRecFromDes]
  apply guarded_receiveInto_bind
  intro hrelied
  rw [guarded_allocate_bind]
  apply guarded_update_bind
  · exact inBounds_packetEncapsulate run.order (by rw [size_calloc]; decide)
  cases hresponse : run.response with
  | none => exact guarded_shows_bind fun packet hderef => by cases hderef
  | some delivered =>
      rw [hresponse] at hrelied
      have hends := endsFrom_of_serverRelies hne hrelied
      rw [hresponse, Option.getD_some] at hends
      obtain ⟨packet, hsome, hsize, offset, hoffset, hfirst⟩ :=
        servRecFromDes_endsWithin (run.heap.after 2) hends
      have hvalue := value_servRecFromDes (run.heap.after 2) (some delivered)
      rw [hsome, Option.map_some] at hvalue
      have hanswer := length_answerOf hrequest (hresponse ▸ hsome) hoffset hfirst
      have hwrap := inBounds_serverWrap run.order (run.heap.after 3) clientIp hsize
      have hwrappedSize := size_serverWrap run.order (run.heap.after 3) clientIp packet
      have hwrapped := firstZero_serverWrap run.order (run.heap.after 3) clientIp
        hoffset hfirst
      simp only [serverWrap, Traced.inBounds_bind, Traced.value_bind,
        Traced.value_pure] at hwrap hwrappedSize hwrapped
      rw [Option.map_some, ← Option.some.inj hvalue]
      apply guarded_shows_bind
      intro other hother
      obtain rfl := Except.ok.inj hother
      apply guarded_memcpy_bind
      · exact hwrap.2.1
      rw [guarded_allocateString_bind]
      apply guarded_parseIpAddrToStr_bind
      apply guarded_servHandlePktDest_bind
      · rw [size_memcpy, size_packetEncapsulate, size_calloc]
        decide
      apply guarded_printPacket_bind
      · exact ⟨by omega, offset, by omega, hwrapped.zero⟩
      rw [show sizeofGreHdr + sizeofIpHdr + sizeofTcpHdr = 46 from rfl]
      apply guarded_access_bind
      · exact (strlen_inBounds_iff (by omega)).mpr ⟨offset, by omega, hwrapped.zero⟩
      rw [strlen_of_firstZero hwrapped (by omega)]
      apply guarded_servCliEncryptFree_bind
      · exact hwrappedSize
      · exact hoffset
      · exact hanswer
      simp only [guarded_free_bind, guarded_close_bind]
      apply guarded_onSocket_bind
      exact fun _ _ => guarded_stop _

theorem guarded_serverHandle {recPacket : Block}
    (hrequest : (Packet.servRecFromCli run.heap run.key run.request).value =
      some recPacket) (hsize : recPacket.size = 174) (hend : EndsWithin recPacket 46)
    (hne : ∀ fd, run.socket = some fd → run.accept ≠ some fd)
    (serverIp : List UInt8) (serverFd newSocket : Descriptor) :
    Guarded (serverRelies run) (OverrunsReply run) (Resources.serverHandle run serverIp
      serverFd newSocket ⟨.decryptPacket, recPacket⟩) := by
  have hrewritten : (Packet.servHandlePkt run.order recPacket serverIp).value.1.size =
      174 := (size_rewriteAddress run.order recPacket .source serverIp).trans hsize
  have hpointer : (Packet.servHandlePkt run.order recPacket serverIp).value.2 = 6 :=
    pointer_rewriteAddress run.order recPacket ipSrc ipDst serverIp
  have hcount : maxPayloadSize + sizeofTcpHdr + sizeofIpHdr = 168 := rfl
  rw [Resources.serverHandle]
  apply guarded_printPacket_bind _ hend
  apply guarded_access_bind
  · rw [saveClientIp, inBounds_loadU32, sizeofGreHdr, ipSrc]
    omega
  apply guarded_servHandlePkt_bind (by omega)
  apply guarded_createClientSocket_bind
  cases hsocket : run.socket with
  | none => exact guarded_stop _
  | some clientFd =>
      simp only [Option.map_some, guarded_allocateString_bind]
      apply guarded_access_bind
      · rw [inBounds_loadU32, hrewritten, hpointer, ipDst]
        omega
      apply guarded_parseIpAddrToStr_bind
      apply guarded_connectToServer_bind
      · rw [← bind_pure (readString _)]
        exact guarded_readString_bind (guarded_pure _)
      intro connected
      cases connected with
      | false =>
          rw [if_neg Bool.false_ne_true, guarded_close_bind]
          exact guarded_stop _
      | true =>
          rw [if_pos rfl, guarded_free_bind]
          apply guarded_access_bind
          · rw [inBounds_loadBytes, hrewritten, hpointer, hcount]
            omega
          apply guarded_send_bind
          cases run.forwards with
          | false => exact guarded_shows _
          | true =>
              rw [if_pos rfl, guarded_free_bind, guarded_event_bind]
              exact fun _ => guarded_serverAnswer hrequest _ _ (hne clientFd hsocket) _

end Server

theorem guarded_serverMain (run : ServerRun)
    (hne : ∀ fd, run.socket = some fd → run.accept ≠ some fd) :
    Guarded (serverRelies run) (OverrunsReply run) (Resources.serverMain run) := by
  apply guarded_accepting
  intro serverIp serverFd newSocket haccept
  apply guarded_servRecFromCli_bind
  · intro hrelied
    rw [serverRelies, if_pos haccept] at hrelied
    exact hrelied
  · exact guarded_shows _
  · intro packet hrequest hsize hend
    exact guarded_serverHandle hrequest hsize hend hne _ _ _

/-- What the destination relies on: the packet ends before the receive buffer
does. -/
def destinationRelies (run : DestinationRun) : Event → Prop
  | .called (.recv _ _) true => EndsFrom 40 (run.request.getD [])
  | _ => True

theorem guarded_destinationRespond (run : DestinationRun) (hostIp : List UInt8)
    (destFd newSocket : Descriptor) {recPacket : Block}
    (hend : EndsWithin recPacket 40) :
    Guarded (destinationRelies run) never (Resources.destinationRespond run hostIp
      destFd newSocket ⟨.newRecPkt, recPacket⟩) := by
  have hsize := hend.size_le
  rw [Resources.destinationRespond]
  apply guarded_printPacketUnencap_bind _ hend
  rw [guarded_allocateString_bind]
  apply guarded_access_bind
  · rw [inBounds_loadU32, ipSrc]
    omega
  apply guarded_parseIpAddrToStr_bind
  rw [Resources.createPacketsDes, bind_assoc, guarded_allocate_bind, bind_assoc]
  apply guarded_readString_bind
  apply guarded_update_bind
  · exact (inBounds_createPacketsDes _ _ _ _ _ _).mpr (by decide)
  apply guarded_printPacketUnencap_bind
  · exact createPacketsDes_endsWithin (by decide)
  apply guarded_access_bind
  · rw [inBounds_loadBytes]
    exact size_createPacketsDes run.order (run.heap.after 1) hostIp _ _ _ ▸ by decide
  apply guarded_send_bind
  cases run.sends with
  | false => exact guarded_stop _
  | true =>
      simp only [if_true, guarded_free_bind, guarded_close_bind]
      exact guarded_stop _

theorem guarded_destinationMain (run : DestinationRun) :
    Guarded (destinationRelies run) never (Resources.destinationMain run) := by
  apply guarded_accepting
  intro hostIp destFd newSocket _
  rw [Resources.destinationServe, Resources.destRecPkt]
  apply guarded_receiveInto_bind
  intro hrelied
  cases hrequest : run.request with
  | none => exact guarded_shows _
  | some delivered =>
      rw [hrequest] at hrelied
      have hends : EndsFrom 40 (run.request.getD []) := hrelied
      rw [hrequest, Option.getD_some] at hends
      obtain ⟨packet, hsome, -, hwithin⟩ := destRecPkt_endsWithin run.heap hends
      have hvalue := value_destRecPkt run.heap (some delivered)
      rw [hsome, Option.map_some] at hvalue
      rw [Option.map_some, ← Option.some.inj hvalue]
      exact guarded_destinationRespond run hostIp _ _ hwithin

end SimpleVpn.Guards
