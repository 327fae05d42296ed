import SimpleVpn.Tunnel.Guards
import SimpleVpn.Tunnel.Integrity

/-!
# Accesses on the network

Whatever a program receives on the network ends where the program looks for it: a
request, a response and a reply are shorter than the buffers, and the packet that
the server sends on has a terminator that the server put into it.  So in every state
all accesses made so far are inside their blocks, but for the one that stores the
terminator of the server's answer.
-/

namespace SimpleVpn.Safety

open SimpleVpn.TracedMemory SimpleVpn.HostWords SimpleVpn.CStrings
open SimpleVpn.Keystream SimpleVpn.Networks SimpleVpn.Processes
open SimpleVpn.Protocol SimpleVpn.Packet SimpleVpn.Programs SimpleVpn.Mains
open SimpleVpn.Resources SimpleVpn.Erasure SimpleVpn.Frame SimpleVpn.Transit
open SimpleVpn.Hops SimpleVpn.Bounds SimpleVpn.System SimpleVpn.Progress
open SimpleVpn.Integrity SimpleVpn.Guards

section Reached

variable {system : Deployment} {state : State Party (List UInt8) Hop UInt8}
variable (hreach : system.network.Reaches state)

theorem length_request_lt (system : Deployment) : system.request.length < 174 := by
  have hlength := requestPayload.length_le
  rw [Deployment.request]
  split
  next => decide
  next hosts _ =>
    rw [value_clientRequest, length_encipher, length_frame]
    change 46 + requestPayload.chars.length < 174
    omega

theorem length_destinationReply_lt (order : ByteOrder) (heap : Heap)
    (hostIp : List UInt8) (recPacket : Block) (flags : UInt8) :
    (destinationReply order heap hostIp recPacket responseMsg.chars
      flags).value.length < 168 := by
  rw [destinationReply, Traced.value_bind, destinationResponse, Traced.value_bind,
    value_loadBytes, Block.length_slice, toNat_getPacketSize_message]
  decide

include hreach

theorem endsFrom_request
    (hmem : .recv .request (system.server.request.getD []) ∈
      past system state .server) :
    EndsFrom 46 (system.server.request.getD []) := by
  have hshort := length_request_lt system
  have hlength := (request_isPrefix hreach hmem).length_le
  exact endsFrom_of_length_lt (by omega)

/-- The packet that is sent on fills the receive buffer, and has the terminator that
the server put into it. -/
theorem endsFrom_forward
    (hmem : .recv .forward (system.destination.request.getD []) ∈
      past system state .destination) :
    EndsFrom 40 (system.destination.request.getD []) := by
  have hmessage := requestPayload.length_le
  obtain ⟨recPacket, hholds, hbegins⟩ := forward_isPrefix hreach hmem
  obtain ⟨packet, hsome, -, offset, hoffset, hzero, -⟩ :=
    destRecPkt_holdsPrefix system.destination.heap _ _ hholds hbegins
  obtain ⟨received, hreceived, -, hbyte⟩ := destRecPkt_some system.destination.heap
    (system.destination.request.getD [])
  obtain rfl := Option.some.inj (hreceived.symm.trans hsome)
  exact ⟨offset, by omega, by rw [← hbyte _ (by omega), hzero]⟩

theorem endsFrom_response
    (hmem : .recv .response (system.server.response.getD []) ∈
      past system state .server) :
    EndsFrom 40 (system.server.response.getD []) := by
  obtain ⟨recPacket, hbegins⟩ := response_isPrefix hreach hmem
  have hshort := length_destinationReply_lt system.destination.order
    (system.destination.heap.after 1) system.destIp recPacket tcpFlagAck
  have hlength := hbegins.length_le
  exact endsFrom_of_length_lt (by omega)

theorem endsFrom_reply
    (hmem : .recv .reply (system.client.response.getD []) ∈
      past system state .client) :
    EndsFrom 46 (system.client.response.getD []) := by
  have hmessage := responseMsg.length_le
  obtain ⟨clientIp, recPacketDest, hholds, hbegins⟩ := reply_isPrefix hreach hmem
  obtain ⟨offset, hoffset, hfirst, -⟩ := hholds.exists_firstZero
  have hlength := hbegins.length_le
  rw [value_serverReply _ _ _ _ _ (by omega) hfirst, length_encipher,
    Block.length_slice] at hlength
  exact endsFrom_of_length_lt (by omega)

end Reached

section System

variable (system : Deployment)

def steps : Party → List Step
  | .client => (Resources.clientMain system.client).events
  | .server => (Resources.serverMain system.server).events
  | .destination => (Resources.destinationMain system.destination).events

def relies : Party → Event → Prop
  | .client => clientRelies system.client
  | .server => serverRelies system.server
  | .destination => destinationRelies system.destination

/-- What a program may do once against the bounds of its blocks. -/
def Exempts : Party → Step → Prop
  | .server => OverrunsReply system.server
  | _ => never

theorem filterMap_steps (party : Party) :
    (steps system party).filterMap Step.shown = system.events party := by
  cases party with
  | client => exact (refines_clientMain system.client).events
  | server => exact (refines_serverMain system.server).events
  | destination => exact (refines_destinationMain system.destination).events

theorem assured_steps (party : Party) :
    Assured (Relies (relies system party)) StaysWithin (Exempts system party)
      (steps system party) := by
  cases party with
  | client => exact (guarded_clientMain system.client).assured
  | server =>
      have hne : ∀ fd, system.server.socket = some fd →
          system.server.accept ≠ some fd := fun fd hsocket haccept =>
        system.socket_ne fd haccept hsocket
      exact (guarded_serverMain system.server hne).assured
  | destination => exact (guarded_destinationMain system.destination).assured

variable {system}
variable {state : State Party (List UInt8) Hop UInt8}

/-- What a program relies on holds once it happened on the network. -/
theorem relies_of_mem_shown (hreach : system.network.Reaches state) {party : Party}
    {event : Event} (hmem : event ∈ shown system state party) :
    relies system party event := by
  have hpast : system.action party event ∈ past system state party := by
    have hmap : past system state party =
        (shown system state party).map (system.action party) := List.map_take.symm
    rw [hmap]
    exact List.mem_map_of_mem hmem
  cases event with
  | called call succeeded =>
      cases call with
      | recv fd size =>
          cases succeeded with
          | false => cases party <;> trivial
          | true =>
              cases party with
              | client => exact endsFrom_reply hreach hpast
              | destination => exact endsFrom_forward hreach hpast
              | server =>
                  rw [Deployment.action, serverAction] at hpast
                  rw [relies, serverRelies]
                  split at hpast
                  next hfd =>
                    rw [if_pos hfd]
                    exact endsFrom_request hreach hpast
                  next hfd =>
                    rw [if_neg hfd]
                    exact endsFrom_response hreach hpast
      | _ => cases party <;> trivial
  | _ => cases party <;> trivial

variable (system state)

/-- Steps that a program can have made in a state: those that show what it showed. -/
structure Performs (party : Party) (performed : List Step) : Prop where
  begins : performed <+: steps system party
  shows : performed.filterMap Step.shown = shown system state party

/-- Every access stays inside the block that it is made through. -/
def Inside (performed : List Step) : Prop :=
  ∀ allocation access, .accesses allocation access ∈ performed → access.InBounds

/-- Every access stays inside its block, but for one that stores the terminator of the
reply right behind it. -/
def InsideButTerminator (reply : List UInt8) (performed : List Step) : Prop :=
  ∃ before block payloadSize after,
    performed = before ++
      (storeTerminator ⟨.encryptPacket, block⟩ payloadSize).events ++ after ∧
    StoresBehind reply block payloadSize ∧ Inside before ∧ Inside after

theorem inside_of_staysWithin {performed : List Step}
    (hwithin : ∀ step ∈ performed, StaysWithin step) : Inside performed :=
  fun _ _ hmem => hwithin _ hmem

/-- However the programs take turns, whichever of their calls fail and wherever the
streams are cut, client and destination never leave their blocks, and the server does
so once at most, with the terminator right behind its reply. -/
theorem memorySafe (hreach : system.network.Reaches state) (party : Party)
    (performed : List Step) (hperforms : Performs system state party performed) :
    Inside performed ∨
      party = .server ∧ InsideButTerminator system.reply performed := by
  have hrelied : ∀ step ∈ performed, Relies (relies system party) step := by
    intro step hmem
    cases step with
    | shows event =>
        apply relies_of_mem_shown hreach
        rw [← hperforms.shows]
        exact List.mem_filterMap.mpr ⟨_, hmem, rfl⟩
    | _ => trivial
  have hassured := assured_steps system party
  rcases hassured.of_isPrefix hperforms.begins hrelied with hall |
    ⟨before, step, after, rfl, hlapse, hbefore, hafter⟩
  · exact Or.inl (inside_of_staysWithin hall)
  · cases party with
    | client => exact hlapse.elim
    | destination => exact hlapse.elim
    | server =>
        obtain ⟨block, payloadSize, hbehind, hstep⟩ := hlapse
        refine Or.inr ⟨rfl, before, block, payloadSize, after, ?_, hbehind,
          inside_of_staysWithin hbefore, inside_of_staysWithin hafter⟩
        rw [hstep, List.append_assoc, List.singleton_append]

end System

theorem memorySafe_hosts :
    ∃ final, hostsDeployment.network.Reaches final ∧
      (∀ party, hostsDeployment.network.Finished final.done party) ∧
      ∀ party, Inside (steps hostsDeployment party) ∨ party = .server ∧
        InsideButTerminator hostsDeployment.reply (steps hostsDeployment party) := by
  obtain ⟨final, hreach, hfinished⟩ := exists_final_hosts
  refine ⟨final, hreach, hfinished, fun party => ?_⟩
  refine memorySafe hostsDeployment final hreach party _ ⟨List.prefix_refl _, ?_⟩
  have hall : final.done party = (hostsDeployment.events party).length := by
    rw [hfinished party]
    exact List.length_map _
  rw [filterMap_steps, shown, hall, List.take_length]

end SimpleVpn.Safety
