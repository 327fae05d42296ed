import SimpleVpn.Tunnel.Hops

/-!
# What the outside host can tell

The server shows an outside host the address it connects to and the 168 bytes it
sends there.  Two runs that differ in the client address show the same.  Two
runs that differ in the key show the same up to the end of the payload; what
follows are key bytes.
-/

namespace SimpleVpn.Hiding

open SimpleVpn.TracedMemory SimpleVpn.HostWords SimpleVpn.CStrings
open SimpleVpn.Keystream SimpleVpn.HostInfo SimpleVpn.Protocol SimpleVpn.Packet
open SimpleVpn.Programs SimpleVpn.Frame SimpleVpn.Rewrite SimpleVpn.Transit
open SimpleVpn.Hops

/-- The address the server connects to and the bytes it sends there. -/
def outward (start : ServerStart) : Option (List UInt8 × List UInt8) :=
  (connected start).map fun forward =>
    (forward.destIp, (serverForward forward).value)

/-- What the outside host sees of a request of which `delivered` arrived. -/
def serverOutward (order : ByteOrder) (heap : Heap) (key : Key)
    (serverIp delivered : List UInt8) (clientFd : ℕ) :
    Option (List UInt8 × List UInt8) :=
  outward (serverStart order heap key serverIp (some delivered)
    (some clientFd)).value

theorem serverOutward_of_received {order : ByteOrder} {heap : Heap} {key : Key}
    {bytes : List UInt8} {packet : Block}
    (hreceived : (servRecFromCli heap key (some bytes)).value = some packet)
    (serverIp : List UInt8) (clientFd : ℕ) :
    serverOutward order heap key serverIp bytes clientFd =
      some (parseIpAddrToStr (u32 order packet 22),
        (serverForward (forwardOf order serverIp packet)).value) := by
  rw [serverOutward, serverStart_of_received order heap key serverIp hreceived]
  rfl

theorem serverOutward_of_payloadEnd (order : ByteOrder) (heap : Heap) (key : Key)
    (serverIp : List UInt8) (clientFd : ℕ) {delivered : List UInt8}
    {offset : ℕ} (hoffset : offset ≤ 127) (hend : PayloadEnd delivered offset) :
    ∃ packet, Deciphered key delivered offset packet ∧
      serverOutward order heap key serverIp delivered clientFd =
        some (parseIpAddrToStr (u32 order packet 22),
          (serverForward (forwardOf order serverIp packet)).value) := by
  obtain ⟨packet, hsome, hpacket⟩ := servRecFromCli_some heap key hoffset hend
  exact ⟨packet, hpacket, serverOutward_of_received hsome serverIp clientFd⟩

/-- Two packets that agree in their IP headers, apart from the source address
and the checksum, are forwarded alike exactly when they agree in everything
behind these headers. -/
theorem serverForward_eq_iff (order : ByteOrder) (serverIp : List UInt8)
    {left right : Block} (hagree : AgreeOutside ipSrc left right) :
    (serverForward (forwardOf order serverIp left)).value =
        (serverForward (forwardOf order serverIp right)).value ↔
      ∀ index, 26 ≤ index → index < 174 → left.byte index = right.byte index := by
  rw [value_serverForward, value_serverForward, Block.slice_inj]
  constructor
  · intro heq index hlow hhigh
    have hbyte := heq (index - 6) (by omega)
    rwa [show 6 + (index - 6) = index by omega, servHandlePkt, servHandlePkt,
      byte_rewriteAddress_of_le order left .source _ hlow,
      byte_rewriteAddress_of_le order right .source _ hlow] at hbyte
  · intro heq index hindex
    apply byte_rewriteAddress_congr order .source hagree
    intro hown hsum
    rcases Nat.lt_or_ge (6 + index) 26 with hheader | hrest
    · exact hagree _ (by omega) hheader hown hsum
    · exact heq _ hrest (by omega)

/-- Delivered bytes that agree outside the IP checksum and the source address.
-/
def SameButSource (left right : List UInt8) : Prop :=
  ∀ index, index < 16 ∨ 22 ≤ index → left.getD index 0 = right.getD index 0

theorem SameButSource.payloadEnd {left right : List UInt8} {offset : ℕ}
    (hsame : SameButSource left right) (hend : PayloadEnd left offset) :
    PayloadEnd right offset := by
  constructor
  · rw [← hsame _ (by omega)]
    exact hend.zero
  · intro index hindex
    rw [← hsame _ (by omega)]
    exact hend.nonzero index hindex

/-- The outside host cannot tell such bytes apart, whoever sent them. -/
theorem SameButSource.serverOutward_eq (order : ByteOrder)
    (leftHeap rightHeap : Heap) (key : Key) (serverIp : List UInt8)
    (clientFd : ℕ) {left right : List UInt8} {offset : ℕ}
    (hsame : SameButSource left right) (hoffset : offset ≤ 127)
    (hend : PayloadEnd left offset) :
    ∃ destIp bytes, bytes.length = 168 ∧
      serverOutward order leftHeap key serverIp left clientFd =
        some (destIp, bytes) ∧
      serverOutward order rightHeap key serverIp right clientFd =
        some (destIp, bytes) := by
  obtain ⟨leftPacket, hleft, houtLeft⟩ := serverOutward_of_payloadEnd order
    leftHeap key serverIp clientFd hoffset hend
  obtain ⟨rightPacket, hright, houtRight⟩ := serverOutward_of_payloadEnd order
    rightHeap key serverIp clientFd hoffset (hsame.payloadEnd hend)
  have hbyte : ∀ index, index < 16 ∨ 22 ≤ index → index < 174 →
      leftPacket.byte index = rightPacket.byte index := by
    intro index houtside hindex
    rw [hleft.byte_eq index hindex, hright.byte_eq index hindex,
      hsame index houtside]
  have hagree : AgreeOutside ipSrc leftPacket rightPacket := by
    intro index hlow hhigh hown hsum
    simp only [ipSrc, ipSum] at hown hsum
    exact hbyte index (by omega) (by omega)
  have hforward := (serverForward_eq_iff order serverIp hagree).mpr
    fun index hlow hhigh => hbyte index (by omega) hhigh
  have hdest : u32 order leftPacket 22 = u32 order rightPacket 22 := by
    apply u32_congr
    intro index hlow hhigh
    exact hbyte index (by omega) (by omega)
  refine ⟨_, _, ?_, houtLeft, ?_⟩
  · rw [value_serverForward, Block.length_slice]
  · rw [houtRight, hdest, hforward]

section Requests

variable (order : ByteOrder) (key : Key) (server dest : DottedQuad)
variable (message : Message) (flags : UInt8) (count clientFd : ℕ)

/-- Headers that differ in the source address and the checksum, in the tunnel.
-/
theorem sameButSource_tunnelled (leftSum rightSum : UInt16)
    (leftSource rightSource destAddress : UInt32) :
    SameButSource
      (tunnelled key (headersWith order leftSum leftSource destAddress flags)
        message count)
      (tunnelled key (headersWith order rightSum rightSource destAddress flags)
        message count) := by
  intro index hindex
  rcases Nat.lt_or_ge index 46 with hheader | hpayload
  · rw [getD_tunnelled_headers key (length_headersWith _ _ _ _ _) _ _ hheader,
      getD_tunnelled_headers key (length_headersWith _ _ _ _ _) _ _ hheader,
      getD_headersWith_congr order leftSum rightSum leftSource rightSource
        destAddress flags hindex]
  · obtain ⟨offset, rfl⟩ := Nat.exists_eq_add_of_le hpayload
    rw [getD_tunnelled_message key (length_headersWith _ _ _ _ _),
      getD_tunnelled_message key (length_headersWith _ _ _ _ _)]

/-- Whatever part of a request arrives, the outside host sees the same for any
two client addresses. -/
theorem serverOutward_eq_of_clients (first second : DottedQuad)
    (firstClientHeap firstServerHeap secondClientHeap secondServerHeap : Heap) :
    ∃ destIp bytes, bytes.length = 168 ∧
      serverOutward order firstServerHeap key server.text
        ((clientRequest order firstClientHeap key first.text dest.text
          message.chars flags).value.take count) clientFd =
        some (destIp, bytes) ∧
      serverOutward order secondServerHeap key server.text
        ((clientRequest order secondClientHeap key second.text dest.text
          message.chars flags).value.take count) clientFd =
        some (destIp, bytes) := by
  have hlength := message.length_le
  rw [take_clientRequest, take_clientRequest]
  obtain ⟨offset, hoffset, -, hend⟩ := exists_payloadEnd_tunnelled key
    (length_headersWith order _ _ _ flags) message count
  exact (sameButSource_tunnelled order key message flags count _ _ _ _
    _).serverOutward_eq order firstServerHeap secondServerHeap key server.text
      clientFd (by omega) hend

end Requests

/-- The deciphered packet of a plaintext that arrived in full.  Behind the end
of the payload stand the key bytes that the zeros of the receive buffer were
XORed with. -/
def KeyTail (key : Key) (plain : List UInt8) (packet : Block) : Prop :=
  ∀ index < 174, packet.byte index =
    if index ≤ plain.length then plain.getD index 0 else keystream key index

/-- Two keys leave the same packet for the outside host exactly when they agree
at every position behind the payload. -/
theorem KeyTail.serverForward_eq_iff (order : ByteOrder) (serverIp : List UInt8)
    {first second : Key} {plain : List UInt8} {left right : Block}
    (hleft : KeyTail first plain left) (hright : KeyTail second plain right)
    (hplain : 46 ≤ plain.length) :
    (serverForward (forwardOf order serverIp left)).value =
        (serverForward (forwardOf order serverIp right)).value ↔
      ∀ index, plain.length < index → index < 174 →
        keystream first index = keystream second index := by
  have hagree : AgreeOutside ipSrc left right := by
    intro index hlow hhigh _ _
    rw [hleft index (by omega), hright index (by omega), if_pos (by omega),
      if_pos (by omega)]
  rw [Hiding.serverForward_eq_iff order serverIp hagree]
  constructor
  · intro heq index hlow hhigh
    have hbyte := heq index (by omega) hhigh
    rwa [hleft index hhigh, hright index hhigh, if_neg (by omega),
      if_neg (by omega)] at hbyte
  · intro heq index hlow hhigh
    rw [hleft index hhigh, hright index hhigh]
    by_cases hinside : index ≤ plain.length
    · rw [if_pos hinside, if_pos hinside]
    · rw [if_neg hinside, if_neg hinside]
      exact heq index (by omega) hhigh

section Keys

variable (order : ByteOrder) (clientHeap serverHeap : Heap)
variable (client server dest : DottedQuad) (message : Message) (flags : UInt8)
variable (clientFd : ℕ)

/-- The request before it is enciphered. -/
def plainRequest : List UInt8 :=
  frame order (builtDatagram client.text dest.text message flags)

@[simp]
theorem length_plainRequest :
    (plainRequest order client dest message flags).length =
      46 + message.chars.length := by
  rw [plainRequest, length_frame]
  rfl

/-- What the outside host sees of a request that arrives in full and does not
meet the key. -/
theorem serverOutward_of_keyFree {key : Key} (hfree : KeyFree key message) :
    ∃ packet, KeyTail key (plainRequest order client dest message flags) packet ∧
      serverOutward order serverHeap key server.text
        (clientRequest order clientHeap key client.text dest.text message.chars
          flags).value clientFd =
        some ((DottedQuad.ofAddress dest.address).text,
          (serverForward (forwardOf order server.text packet)).value) := by
  have hlength := message.length_le
  have hheaders := length_headersWith order
    (builtSum order (parseIpAddr client.text) (parseIpAddr dest.text))
    (parseIpAddr client.text) (parseIpAddr dest.text) flags
  obtain ⟨offset, hoffset, -, hend⟩ := exists_payloadEnd_tunnelled key hheaders
    message (46 + message.chars.length)
  obtain rfl := (payloadEnd_eq_length_iff key hheaders message _ le_rfl hoffset
    hend).mpr hfree
  rw [clientRequest_eq_tunnelled]
  obtain ⟨packet, hpacket, hout⟩ := serverOutward_of_payloadEnd order serverHeap
    key server.text clientFd (by omega) hend
  have htail : KeyTail key (plainRequest order client dest message flags)
      packet := by
    intro index hindex
    by_cases hend : index = 46 + message.chars.length
    · rw [hpacket.byte_eq index hindex, if_pos hend, if_pos (by simp [hend]),
        List.getD_eq_default _ _ (by simp [hend])]
    · rw [Deciphered.byte_of_ne hpacket hindex hend, length_plainRequest,
        List.length_append, hheaders]
      by_cases hinside : index < 46 + message.chars.length
      · rw [if_pos ⟨hinside, hinside⟩, if_pos (by omega)]
        rfl
      · rw [if_neg (by omega), if_neg (by omega)]
  have hdest : u32 order packet 22 = dest.address := by
    rw [u32_eq_iff]
    intro index hindex
    rw [htail _ (by omega), length_plainRequest, if_pos (by omega), plainRequest,
      getD_frame_headers _ _ (by omega), getD_headersWith_dest _ _ _ _ _ hindex]
    change nativeByte32 order (parseIpAddr dest.text) index = _
    rw [parseIpAddr_text]
  refine ⟨packet, htail, ?_⟩
  rw [hout, hdest, parseIpAddrToStr_eq]

/-- Two keys that a request meets nowhere show the outside host the same bytes
exactly when they agree at every position behind the payload. -/
theorem outward_bytes_eq_iff_of_keys {first second : Key}
    (hfirst : KeyFree first message) (hsecond : KeyFree second message)
    (otherClientHeap otherServerHeap : Heap) :
    ∃ destIp firstBytes secondBytes,
      serverOutward order serverHeap first server.text
        (clientRequest order clientHeap first client.text dest.text
          message.chars flags).value clientFd = some (destIp, firstBytes) ∧
      serverOutward order otherServerHeap second server.text
        (clientRequest order otherClientHeap second client.text dest.text
          message.chars flags).value clientFd = some (destIp, secondBytes) ∧
      (firstBytes = secondBytes ↔
        ∀ index, 46 + message.chars.length < index → index < 174 →
          keystream first index = keystream second index) := by
  obtain ⟨left, hleft, houtLeft⟩ := serverOutward_of_keyFree order clientHeap
    serverHeap client server dest message flags clientFd hfirst
  obtain ⟨right, hright, houtRight⟩ := serverOutward_of_keyFree order
    otherClientHeap otherServerHeap client server dest message flags clientFd
    hsecond
  refine ⟨_, _, _, houtLeft, houtRight, ?_⟩
  rw [hleft.serverForward_eq_iff order server.text hright (by simp),
    length_plainRequest]

end Keys

/-- A key that enciphers nothing. -/
def zeroKey : Key := fun _ => 0

/-- The request of `client.c` meets neither its own key nor the zero key. -/
theorem outward_bytes_eq_iff_requestPayload :
    ∃ destIp firstBytes secondBytes,
      serverOutward .little .zeros key h2.text
        (clientRequest .little .zeros key h1.text h3.text requestPayload.chars
          tcpFlagSyn).value 3 = some (destIp, firstBytes) ∧
      serverOutward .little .zeros zeroKey h2.text
        (clientRequest .little .zeros zeroKey h1.text h3.text
          requestPayload.chars tcpFlagSyn).value 3 =
        some (destIp, secondBytes) ∧
      (firstBytes = secondBytes ↔
        ∀ index, 46 + requestPayload.chars.length < index → index < 174 →
          keystream key index = keystream zeroKey index) :=
  outward_bytes_eq_iff_of_keys .little .zeros .zeros h1 h2 h3 requestPayload
    tcpFlagSyn 3 (by decide) (by decide) .zeros .zeros

/-- The bytes forwarded for that request differ between the two keys. -/
theorem outward_ne_of_zeroKey :
    KeyFree key requestPayload ∧ KeyFree zeroKey requestPayload ∧
      serverOutward .little .zeros key h2.text
        (clientRequest .little .zeros key h1.text h3.text requestPayload.chars
          tcpFlagSyn).value 3 ≠
      serverOutward .little .zeros zeroKey h2.text
        (clientRequest .little .zeros zeroKey h1.text h3.text
          requestPayload.chars tcpFlagSyn).value 3 := by
  have hfirst : KeyFree key requestPayload := by decide
  have hsecond : KeyFree zeroKey requestPayload := by decide
  obtain ⟨left, hleft, houtLeft⟩ := serverOutward_of_keyFree .little .zeros
    .zeros h1 h2 h3 requestPayload tcpFlagSyn 3 hfirst
  obtain ⟨right, hright, houtRight⟩ := serverOutward_of_keyFree .little .zeros
    .zeros h1 h2 h3 requestPayload tcpFlagSyn 3 hsecond
  refine ⟨hfirst, hsecond, fun heq => ?_⟩
  rw [houtLeft, houtRight, Option.some.injEq, Prod.mk.injEq,
    hleft.serverForward_eq_iff .little _ hright (by simp)] at heq
  exact absurd (heq.2 60 (by decide) (by decide)) (by decide)

end SimpleVpn.Hiding
