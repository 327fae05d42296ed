import SimpleVpn.Tunnel.Hiding
import SimpleVpn.Tunnel.Integrity

/-!
# What outsiders learn

The host outside the tunnel learns of a request everything behind the GRE header
except the source address and the checksum, and behind a short message it finds
the key.  On the tunnel itself every packet begins with a GRE header, whose text
never changes, so four captured bytes give the key away.
-/

namespace SimpleVpn.Disclosure

open SimpleVpn.TracedMemory SimpleVpn.HostWords SimpleVpn.CStrings
open SimpleVpn.Keystream SimpleVpn.Networks SimpleVpn.HostInfo SimpleVpn.Protocol
open SimpleVpn.Packet SimpleVpn.Programs SimpleVpn.Mains SimpleVpn.Stages
open SimpleVpn.Frame SimpleVpn.Rewrite SimpleVpn.Transit SimpleVpn.Hops
open SimpleVpn.Hiding SimpleVpn.Lengths SimpleVpn.Exchange SimpleVpn.System
open SimpleVpn.Progress SimpleVpn.Integrity

section Outward

variable (order : ByteOrder) (serverIp : List UInt8)

/-- Two packets are forwarded to the same host as the same bytes exactly when they
agree behind the GRE header, apart from the source address and the checksum. -/
theorem outward_eq_iff {left right : Block} :
    (parseIpAddrToStr (u32 order left 22) =
        parseIpAddrToStr (u32 order right 22) ∧
      (serverForward (forwardOf order serverIp left)).value =
        (serverForward (forwardOf order serverIp right)).value) ↔
      ∀ index, 6 ≤ index → index < 174 → index < 16 ∨ 22 ≤ index →
        left.byte index = right.byte index := by
  constructor
  · rintro ⟨-, hforward⟩ index hlow hhigh hplace
    rw [value_serverForward, value_serverForward, Block.slice_inj] at hforward
    have hbyte := hforward (index - 6) (by omega)
    have hown : 6 + ipSrc = 18 := rfl
    have hsum : 6 + ipSum = 16 := rfl
    rwa [show 6 + (index - 6) = index by omega, servHandlePkt, servHandlePkt,
      byte_rewriteAddress_of_outside order left .source _ (by omega) (by omega),
      byte_rewriteAddress_of_outside order right .source _ (by omega)
        (by omega)] at hbyte
  · intro hbyte
    have hagree : AgreeOutside ipSrc left right := by
      intro index hlow hhigh hown hsum
      have hownEq : 6 + ipSrc = 18 := rfl
      have hsumEq : 6 + ipSum = 16 := rfl
      exact hbyte index hlow (by omega) (by omega)
    refine ⟨?_, (serverForward_eq_iff order serverIp hagree).mpr
      fun index hlow hhigh => hbyte index (by omega) hhigh (by omega)⟩
    rw [u32_congr order 22 fun index hlow hhigh =>
      hbyte index (by omega) (by omega) (by omega)]

/-- Whatever bytes two servers receive, and whatever their keys, they show the
outside host the same exactly when the packets they make of them agree behind the
GRE header, apart from the source address and the checksum. -/
theorem serverOutward_eq_iff (leftHeap rightHeap : Heap) (leftKey rightKey : Key)
    (leftFd rightFd : ℕ) (left right : List UInt8) :
    ∃ leftPacket rightPacket,
      (servRecFromCli leftHeap leftKey (some left)).value = some leftPacket ∧
      (servRecFromCli rightHeap rightKey (some right)).value = some rightPacket ∧
      (serverOutward order leftHeap leftKey serverIp left leftFd =
          serverOutward order rightHeap rightKey serverIp right rightFd ↔
        ∀ index, 6 ≤ index → index < 174 → index < 16 ∨ 22 ≤ index →
          leftPacket.byte index = rightPacket.byte index) := by
  obtain ⟨leftPacket, hleft⟩ := exists_servRecFromCli leftHeap leftKey left
  obtain ⟨rightPacket, hright⟩ := exists_servRecFromCli rightHeap rightKey right
  refine ⟨leftPacket, rightPacket, hleft, hright, ?_⟩
  rw [serverOutward_of_received hleft, serverOutward_of_received hright,
    Option.some.injEq, Prod.mk.injEq]
  exact outward_eq_iff order serverIp

/-- The key as it shows behind a forwarded message. -/
def keyBehind (forwarded : List UInt8) : Key := fun index =>
  forwarded.getD (164 + (index + 2) % 4) 0

/-- Of received bytes that end in time the server forwards a whole period of the
key. -/
theorem keyBehind_eq (heap : Heap) (key : Key) (clientFd : ℕ)
    {delivered : List UInt8} {offset : ℕ} (hoffset : offset < 124)
    (hend : PayloadEnd delivered offset) (hlength : delivered.length ≤ 170) :
    ∃ destIp forwarded,
      serverOutward order heap key serverIp delivered clientFd =
        some (destIp, forwarded) ∧
      keyBehind forwarded = key := by
  obtain ⟨packet, hpacket, hout⟩ := serverOutward_of_payloadEnd order heap key
    serverIp clientFd (by omega) hend
  refine ⟨_, _, hout, ?_⟩
  funext index
  have hindex := index.isLt
  have hmod : (170 + (index.val + 2) % 4) % 4 = index.val := by omega
  rw [keyBehind, value_serverForward, Block.getD_slice _ _ _ _ (by omega),
    show 6 + (164 + (index.val + 2) % 4) = 170 + (index.val + 2) % 4 by omega,
    servHandlePkt, byte_rewriteAddress_of_le order packet .source _ (by omega),
    hpacket.byte_eq _ (by omega), if_neg (by omega),
    List.getD_eq_default _ _ (by omega), UInt8.zero_xor, keystream]
  exact congrArg key (Fin.ext hmod)

end Outward

/-- The host outside learns the key from every request whose message has at most
123 characters, however much of it arrives. -/
theorem outsideHost_learnsKey (order : ByteOrder) (clientHeap serverHeap : Heap)
    (key : Key) (client server dest : DottedQuad) (message : Message)
    (flags : UInt8) (count clientFd : ℕ)
    (hlength : message.chars.length ≤ 123) :
    ∃ destIp forwarded,
      serverOutward order serverHeap key server.text
          ((clientRequest order clientHeap key client.text dest.text
            message.chars flags).value.take count) clientFd =
        some (destIp, forwarded) ∧
      keyBehind forwarded = key := by
  rw [take_clientRequest]
  obtain ⟨offset, hoffset, -, hend⟩ := exists_payloadEnd_tunnelled key
    (length_headersWith order _ _ _ flags) message count
  apply keyBehind_eq order server.text serverHeap key clientFd (by omega) hend
  rw [tunnelled, List.length_take, length_encipher, List.length_append,
    length_headersWith]
  omega

theorem outsideHost_learnsKey_hosts :
    ∃ destIp forwarded,
      serverOutward .little .zeros key h2.text
          ((clientRequest .little .zeros key h1.text h3.text
            requestPayload.chars tcpFlagSyn).value.take 53) 3 =
        some (destIp, forwarded) ∧
      keyBehind forwarded = key :=
  outsideHost_learnsKey .little .zeros .zeros key h1 h2 h3 requestPayload
    tcpFlagSyn 53 3 (by decide)

/-- How every GRE header begins: the flag word and the protocol. -/
def greText : List UInt8 := [0, 1, 8, 0]

/-- The key as it shows in the first bytes of a packet in the tunnel. -/
def keyInFront (captured : List UInt8) : Key := keyOf 4 greText captured

theorem exists_frame_eq (order : ByteOrder) (datagram : Datagram) :
    ∃ rest, frame order datagram = greText ++ rest := ⟨_, rfl⟩

theorem exists_serverWrap_eq (order : ByteOrder) (heap : Heap) (clientIp : UInt32)
    (recPacketDest : Block) (offset : ℕ) :
    ∃ rest, (serverWrap order heap clientIp recPacketDest).value.slice 0
      (46 + offset) = greText ++ rest := by
  refine ⟨(serverWrap order heap clientIp recPacketDest).value.slice 4
    (42 + offset), ?_⟩
  have hfront : (serverWrap order heap clientIp recPacketDest).value.slice 0 4 =
      greText := by
    refine Block.slice_eq _ _ (show greText.length = 4 from rfl) ?_
    intro index hindex
    rw [byte_serverWrap _ _ _ _ (by omega), if_neg (by omega), if_neg (by omega),
      if_pos (by omega), Nat.zero_add]
    have hcases : index = 0 ∨ index = 1 ∨ index = 2 ∨ index = 3 := by omega
    rcases hcases with rfl | rfl | rfl | rfl <;> rfl
  rw [show 46 + offset = 4 + (42 + offset) by omega, Block.slice_add, hfront]

section Captured

variable {system : Deployment} {state : State Party (List UInt8) Hop UInt8}
variable {captured : List UInt8} (hlength : 4 ≤ captured.length)

include hlength

theorem keyInFront_request
    (hcaptured : captured <+: sentOn .request (past system state .client)) :
    keyInFront captured = system.client.key := by
  have hbegins := hcaptured.trans (sentOn_request system state)
  rw [Deployment.request] at hbegins
  split at hbegins
  next =>
    rw [List.prefix_nil.mp hbegins] at hlength
    exact absurd hlength (by decide)
  next hosts _ =>
    obtain ⟨rest, hrest⟩ := exists_frame_eq system.client.order
      (builtDatagram hosts.clientIp hosts.destIp requestPayload tcpFlagSyn)
    rw [value_clientRequest, hrest] at hbegins
    exact keyOf_eq system.client.key rfl hlength hbegins

theorem keyInFront_reply (hreach : system.network.Reaches state)
    (hcaptured : captured <+: sentOn .reply (past system state .server)) :
    keyInFront captured = system.client.key := by
  have hempty : ¬ captured <+: [] := by
    intro hnil
    rw [List.prefix_nil.mp hnil] at hlength
    exact absurd hlength (by decide)
  rcases sentOn_reply system state with hnil | ⟨hreply, hreceived⟩
  · rw [hnil] at hcaptured
    exact absurd hcaptured hempty
  · rw [hreply, Deployment.reply, answerOf] at hcaptured
    split at hcaptured
    next recPacket recPacketDest _ hsome =>
      obtain ⟨offset, hoffset, hfirst, -⟩ :=
        (responsePacket_holdsPrefix hreach hreceived hsome).exists_firstZero
      have hmessage := responseMsg.length_le
      obtain ⟨rest, hrest⟩ := exists_serverWrap_eq system.server.order
        (system.server.heap.after 3) (u32 system.server.order recPacket 18)
        recPacketDest offset
      rw [system.key_eq, value_serverReply _ _ _ _ _ (by omega) hfirst,
        hrest] at hcaptured
      exact keyOf_eq system.client.key rfl hlength hcaptured
    next => exact absurd hcaptured hempty

end Captured

/-- In every state that the three programs reach, four captured bytes of what went
through the tunnel in either direction give the key away. -/
theorem eavesdropper_learnsKey (system : Deployment)
    (state : State Party (List UInt8) Hop UInt8)
    (hreach : system.network.Reaches state) {hop : Hop}
    (hhop : hop = .request ∨ hop = .reply) {captured : List UInt8}
    (hcaptured : captured <+: sentOn hop (past system state hop.writer))
    (hlength : 4 ≤ captured.length) :
    keyInFront captured = system.client.key := by
  rcases hhop with rfl | rfl
  · exact keyInFront_request hlength hcaptured
  · exact keyInFront_reply hlength hreach hcaptured

theorem sentOn_request_hosts {final : State Party (List UInt8) Hop UInt8}
    (hfinished : hostsDeployment.network.Finished final.done .client) :
    sentOn .request (past hostsDeployment final .client) =
      requestBytes hostsSetting := by
  have hall : past hostsDeployment final .client =
      hostsDeployment.network.actions .client := by
    rw [past, Network.history, hfinished, List.take_length]
  rw [hall, hostsDeployment, actions_client]
  simp [sentOn, Action.sentOn]

theorem eavesdropper_learnsKey_hosts :
    ∃ final captured, hostsDeployment.network.Reaches final ∧
      captured <+: sentOn .request (past hostsDeployment final .client) ∧
      captured.length = 4 ∧
      keyInFront captured = hostsDeployment.client.key := by
  obtain ⟨final, hreach, hfinished⟩ := exists_final_hosts
  have hcaptured : (requestBytes hostsSetting).take 4 <+:
      sentOn .request (past hostsDeployment final .client) := by
    rw [sentOn_request_hosts (hfinished .client)]
    exact List.take_prefix _ _
  have hlength : ((requestBytes hostsSetting).take 4).length = 4 := by
    rw [List.length_take, requestBytes, value_clientRequest, length_encipher,
      length_frame]
    rfl
  exact ⟨final, _, hreach, hcaptured, hlength,
    eavesdropper_learnsKey hostsDeployment final hreach (Or.inl rfl) hcaptured
      (Nat.le_of_eq hlength.symm)⟩

end SimpleVpn.Disclosure
