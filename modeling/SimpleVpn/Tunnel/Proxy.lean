import SimpleVpn.Core.Proxies
import SimpleVpn.Tunnel.Progress

/-!
# The server is a proxy

Whatever bytes its peers send, and whichever of its calls fail, the server does
what a proxy does: what it sends to the outside host is the datagram it received
from the client with its own address as source, and what it sends to the client is
the datagram it received from outside with the client's address as destination.  The
IP checksum, which the server computes anew with every address, is not part of a
datagram here, and neither are the bytes behind the terminator of its text, which do
not reach the client.
-/

namespace SimpleVpn.Proxy

open SimpleVpn.TracedMemory SimpleVpn.HostWords SimpleVpn.CStrings
open SimpleVpn.Keystream SimpleVpn.Proxies SimpleVpn.Processes
open SimpleVpn.HostInfo SimpleVpn.Protocol SimpleVpn.Packet SimpleVpn.Programs
open SimpleVpn.Mains SimpleVpn.Stages SimpleVpn.Frame SimpleVpn.Rewrite
open SimpleVpn.Transit SimpleVpn.Hops SimpleVpn.Lengths SimpleVpn.System
open SimpleVpn.Exchange SimpleVpn.Sessions SimpleVpn.Progress

/-- What a datagram carries besides its addresses: the fields of the IP header in
front of the checksum, the TCP header and the text up to its terminator. -/
structure Content where
  ipFields : List UInt8
  tcpHeader : List UInt8
  text : List UInt8

/-- The datagram whose IP header is at `start`. -/
def parcelAt (order : ByteOrder) (block : Block) (start : ℕ) :
    Parcel UInt32 Content where
  source := u32 order block (start + ipSrc)
  dest := u32 order block (start + ipDst)
  content := {
    ipFields := block.slice start ipSum
    tcpHeader := block.slice (start + sizeofIpHdr) sizeofTcpHdr
    text := stringAt block (start + (sizeofIpHdr + sizeofTcpHdr)) }

/-- The same for bytes on the wire, whose end also ends the text. -/
def parcelOf (order : ByteOrder) (bytes : List UInt8) (start : ℕ) :
    Parcel UInt32 Content :=
  parcelAt order (ofBytes (bytes ++ [0])) start

section Parcels

variable (order : ByteOrder) {left right : Block} {start origin : ℕ}

/-- Two datagrams with the same fields and the same text. -/
structure SameContent (left : Block) (start : ℕ) (right : Block) (origin : ℕ) :
    Prop where
  ipFields : ∀ index < 10, left.byte (start + index) = right.byte (origin + index)
  tcpHeader : ∀ index, 20 ≤ index → index < 40 →
    left.byte (start + index) = right.byte (origin + index)
  text : stringAt left (start + 40) = stringAt right (origin + 40)

theorem SameContent.content_eq (hsame : SameContent left start right origin) :
    (parcelAt order left start).content = (parcelAt order right origin).content := by
  have hfields : left.slice start ipSum = right.slice origin ipSum :=
    Block.slice_congr hsame.ipFields
  have htcp : left.slice (start + sizeofIpHdr) sizeofTcpHdr =
      right.slice (origin + sizeofIpHdr) sizeofTcpHdr := by
    apply Block.slice_congr
    intro index hindex
    rw [Nat.add_assoc, Nat.add_assoc]
    have hlt : index < 20 := hindex
    exact hsame.tcpHeader _ (Nat.le_add_right _ _) (by
      rw [sizeofIpHdr]
      omega)
  have htext : stringAt left (start + (sizeofIpHdr + sizeofTcpHdr)) =
      stringAt right (origin + (sizeofIpHdr + sizeofTcpHdr)) := hsame.text
  rw [parcelAt, parcelAt, hfields, htcp, htext]

theorem parcelAt_eq_sentBy (hsame : SameContent left start right origin)
    {own : UInt32} (hsource : u32 order left (start + 12) = own)
    (hdest : ∀ index < 4,
      left.byte (start + 16 + index) = right.byte (origin + 16 + index)) :
    parcelAt order left start = (parcelAt order right origin).sentBy own :=
  Parcel.ext hsource (u32_copy order _ hdest) (hsame.content_eq order)

theorem parcelAt_eq_handedTo (hsame : SameContent left start right origin)
    {client : UInt32} (hdest : u32 order left (start + 16) = client)
    (hsource : ∀ index < 4,
      left.byte (start + 12 + index) = right.byte (origin + 12 + index)) :
    parcelAt order left start = (parcelAt order right origin).handedTo client :=
  Parcel.ext (u32_copy order _ hsource) hdest (hsame.content_eq order)

end Parcels

theorem byte_wire (bytes : List UInt8) (index : ℕ) :
    (ofBytes (bytes ++ [0])).byte index = bytes.getD index 0 := by
  rw [byte_ofBytes]
  rcases Nat.lt_or_ge index bytes.length with hlt | hge
  · rw [List.getD_append _ _ _ _ hlt]
  · rw [List.getD_append_right _ _ _ _ hge, List.getD_eq_default bytes _ hge]
    cases index - bytes.length <;> rfl

theorem size_wire (bytes : List UInt8) :
    (ofBytes (bytes ++ [0])).size = bytes.length + 1 :=
  List.length_append

section Sent

variable (order : ByteOrder)

/-- What goes to the outside host is the datagram that the server holds, with the
server as its source. -/
theorem parcelOf_serverForward (serverIp : List UInt8) {packet : Block}
    (hsize : packet.size = 174)
    (hzero : ∃ index < 128, packet.byte (46 + index) = 0) :
    parcelOf order (serverForward (forwardOf order serverIp packet)).value 0 =
      (parcelAt order packet 6).sentBy (parseIpAddr serverIp) := by
  have hbyte : ∀ index < 168,
      (ofBytes ((serverForward (forwardOf order serverIp packet)).value ++
          [0])).byte (0 + index) =
        (servHandlePkt order packet serverIp).value.1.byte (6 + index) := by
    intro index hindex
    rw [Nat.zero_add, byte_wire, value_serverForward, Block.getD_slice _ _ _ _ hindex]
  have hkept : ∀ index, 26 ≤ 6 + index → index < 168 →
      (ofBytes ((serverForward (forwardOf order serverIp packet)).value ++
        [0])).byte (0 + index) = packet.byte (6 + index) := by
    intro index hle hindex
    rw [hbyte index hindex, servHandlePkt,
      byte_rewriteAddress_of_le order packet .source serverIp hle]
  apply parcelAt_eq_sentBy
  · constructor
    · intro index hindex
      have hsum : 6 + ipSum = 16 := rfl
      rw [hbyte index (by omega), servHandlePkt,
        byte_rewriteAddress_of_lt order packet .source serverIp (by omega)]
    · intro index hle hlt
      exact hkept index (by omega) (by omega)
    · apply stringAt_congr 128 _ hzero
      · rw [size_wire, value_serverForward, Block.length_slice]
        omega
      · rw [hsize]
      · intro index hindex
        have htext := hkept (40 + index) (by omega) (by omega)
        rwa [← Nat.add_assoc, ← Nat.add_assoc] at htext
  · rw [u32_eq_iff]
    intro index hindex
    have hown : 6 + ipSrc = 18 := rfl
    rw [Nat.add_assoc, hbyte _ (by omega), servHandlePkt,
      byte_rewriteAddress order packet .source, if_pos (by omega)]
    congr 1
    omega
  · intro index hindex
    have hsum : 6 + ipSum = 16 := rfl
    have hown : 6 + ipSrc = 18 := rfl
    rw [Nat.add_assoc, hbyte _ (by omega), servHandlePkt,
      byte_rewriteAddress_of_outside order packet .source serverIp (by omega)
        (by omega), ← Nat.add_assoc]

/-- What goes to the client, once deciphered, is the datagram that came from
outside, with the client as its destination. -/
theorem parcelOf_serverReply (heap : Heap) (key : Key) (clientIp : UInt32)
    {recPacketDest : Block} {offset : ℕ} (hoffset : offset ≤ 127)
    (hsize : recPacketDest.size = 174)
    (hend : FirstZero recPacketDest.byte 40 offset) :
    parcelOf order (encipher key
        (serverReply order heap key clientIp recPacketDest).value) 6 =
      (parcelAt order recPacketDest 0).handedTo clientIp := by
  rw [value_serverReply order heap key clientIp recPacketDest hoffset hend,
    encipher_encipher]
  have hbyte : ∀ index < 46 + offset,
      (ofBytes ((serverWrap order heap clientIp recPacketDest).value.slice 0
          (46 + offset) ++ [0])).byte index =
        (serverWrap order heap clientIp recPacketDest).value.byte index := by
    intro index hindex
    rw [byte_wire, Block.getD_slice _ _ _ _ hindex, Nat.zero_add]
  have hkept : ∀ index, index < 10 ∨ (12 ≤ index ∧ index < 16) ∨ 20 ≤ index →
      index < 40 + offset →
      (ofBytes ((serverWrap order heap clientIp recPacketDest).value.slice 0
          (46 + offset) ++ [0])).byte (6 + index) =
        recPacketDest.byte (0 + index) := by
    intro index hplace hindex
    rw [hbyte _ (by omega), byte_serverWrap _ _ _ _ (by omega),
      if_neg (by omega), if_neg (by omega), if_neg (by omega),
      Nat.add_sub_cancel_left, Nat.zero_add]
  apply parcelAt_eq_handedTo
  · constructor
    · exact fun index hindex => hkept index (by omega) (by omega)
    · exact fun index hle hlt => hkept index (by omega) (by omega)
    · apply stringAt_congr (offset + 1)
      · intro index hindex
        rcases Nat.lt_succ_iff_lt_or_eq.mp hindex with hlt | rfl
        · have htext := hkept (40 + index) (by omega) (by omega)
          rwa [← Nat.add_assoc, ← Nat.add_assoc] at htext
        · rw [byte_wire, List.getD_eq_default _ _ (by
            rw [Block.length_slice]), Nat.zero_add]
          exact hend.zero.symm
      · exact ⟨offset, Nat.lt_succ_self _, by
          rw [Nat.zero_add]
          exact hend.zero⟩
      · rw [size_wire, Block.length_slice]
        omega
      · omega
  · rw [u32_eq_iff]
    intro index hindex
    rw [hbyte _ (by omega), byte_serverWrap _ _ _ _ (by omega),
      if_pos (by omega)]
    congr 1
    omega
  · intro index hindex
    have hsource := hkept (12 + index) (by omega) (by omega)
    rwa [← Nat.add_assoc, ← Nat.add_assoc] at hsource

end Sent

/-- What an event of the server is for a proxy.  The descriptor tells the
connection to the client from the one to the destination. -/
def deed (run : ServerRun) : Event → Option (Deed UInt32 Content)
  | .called (.recv fd _) true =>
      if run.accept = some fd then
        (servRecFromCli run.heap run.key run.request).value.map fun packet =>
          .takes (parcelAt run.order packet 6)
      else
        (servRecFromDes (run.heap.after 2) run.response).value.map fun packet =>
          .hears (parcelAt run.order packet 0)
  | .called (.connect address) _ => some (.calls (parseIpAddr address))
  | .called (.send fd bytes) _ =>
      if run.accept = some fd then
        some (.passesBack (parcelOf run.order (encipher run.key bytes) 6))
      else some (.passesOn (parcelOf run.order bytes 0))
  | _ => none

/-- The event is nothing that a proxy does. -/
def Idle (run : ServerRun) (event : Event) : Prop := deed run event = none

/-- What the server did in its run. -/
def deeds (run : ServerRun) : List (Deed UInt32 Content) :=
  (serverMain run).events.filterMap (deed run)

section Opening

variable {kind : Event → Prop} (hreported : ∀ text, kind (.reported text))

include hreported

theorem only_giveUp_of {A : Type} (text : List UInt8) (status : ℤ) :
    Only kind (giveUp text status : Program A) := by
  rw [giveUp, only_emit_bind]
  exact ⟨hreported text, only_stop _⟩

theorem only_require_of (call : Call)
    (hcall : ∀ succeeded, kind (.called call succeeded)) (succeeds : Bool)
    (text : List UInt8) : Only kind (require call succeeds text) := by
  rw [require, only_emit_bind]
  refine ⟨hcall _, ?_⟩
  split
  next => exact only_pure ()
  next => exact only_giveUp_of hreported text 1

theorem only_requireFd_of (call : Call)
    (hcall : ∀ succeeded, kind (.called call succeeded)) (fd : Option ℕ)
    (text : List UInt8) : Only kind (requireFd call fd text) := by
  unfold requireFd
  rw [only_emit_bind]
  refine ⟨hcall _, ?_⟩
  cases fd with
  | none => exact only_giveUp_of hreported text 1
  | some fd => exact only_pure fd

theorem only_hostAddress_of (argv : List (List UInt8)) (unknown : List UInt8) :
    Only kind (hostAddress argv unknown) := by
  unfold hostAddress
  split
  next => exact only_giveUp_of hreported _ 0
  next =>
    split
    next => exact only_giveUp_of hreported unknown 0
    next => exact only_pure _

end Opening

theorem idle_reported (run : ServerRun) (text : List UInt8) :
    Idle run (.reported text) := rfl

theorem only_createListeningSocket_idle (run : ServerRun) (listener : Listener) :
    Only (Idle run) (createListeningSocket listener) := by
  have hreported := idle_reported run
  apply Only.bind (only_requireFd_of hreported .socket (fun _ => rfl) _ _)
  intro fd _
  apply Only.bind (only_require_of hreported .setsockopt (fun _ => rfl) _ _)
  intro _ _
  apply Only.bind (only_require_of hreported .bind (fun _ => rfl) _ _)
  intro _ _
  apply Only.bind (only_require_of hreported .listen (fun _ => rfl) _ _)
  intro _ _
  exact only_pure fd

/-- A connection is called for at most once. -/
theorem deeds_connectOrExit (run : ServerRun) (address : List UInt8)
    (next : ℕ → Program Unit) :
    (connectOrExit run.socket address run.converts run.connects >>=
        next).events.filterMap (deed run) <+: [.calls (parseIpAddr address)] ∨
      ∃ clientFd, run.socket = some clientFd ∧
        (connectOrExit run.socket address run.converts run.connects >>=
            next).events.filterMap (deed run) =
          .calls (parseIpAddr address) ::
            (next clientFd).events.filterMap (deed run) := by
  cases run.socket with
  | none => exact Or.inl List.nil_prefix
  | some clientFd =>
      cases run.converts with
      | false => exact Or.inl List.nil_prefix
      | true =>
          cases run.connects with
          | false => exact Or.inl List.prefix_rfl
          | true => exact Or.inr ⟨clientFd, rfl, rfl⟩

/-- The server finds the ends of the strings that it receives inside its
buffers. -/
structure ReadsInside (run : ServerRun) : Prop where
  request : ∀ bytes, run.request = some bytes →
    ∃ offset ≤ 127, PayloadEnd bytes offset
  response : ∀ bytes, run.response = some bytes →
    ∃ offset ≤ 127, FirstZero (fun index => bytes.getD index 0) 40 offset

section Server

variable {run : ServerRun} (hreads : ReadsInside run) {serverIp : List UInt8}
variable {newSocket : ℕ} (haccept : run.accept = some newSocket)

include hreads haccept

/-- From the response on the server passes back what it heard. -/
theorem deeds_serverAnswer {clientFd : ℕ} (hne : newSocket ≠ clientFd)
    (clientIp : UInt32) :
    ∃ response, (serverAnswer run newSocket clientFd clientIp).events.filterMap
        (deed run) <+:
      [.hears response, .passesBack (response.handedTo clientIp)] := by
  have hother : run.accept ≠ some clientFd := by
    rw [haccept]
    exact fun heq => hne (Option.some.inj heq)
  rw [events_serverAnswer]
  cases hresponse : run.response with
  | none =>
      exact ⟨⟨clientIp, clientIp, ⟨[], [], []⟩⟩, List.nil_prefix⟩
  | some bytes =>
      obtain ⟨offset, hoffset, hend⟩ := hreads.response bytes hresponse
      obtain ⟨recPacketDest, hrec, hsize, hbyte⟩ :=
        servRecFromDes_some (run.heap.after 2) bytes
      have hfirst : FirstZero recPacketDest.byte 40 offset := by
        constructor
        · rw [hbyte _ (by omega)]
          exact hend.zero
        · intro index hindex
          rw [hbyte _ (by omega)]
          exact hend.nonzero index hindex
      have hreply := parcelOf_serverReply run.order (run.heap.after 3) run.key
        clientIp hoffset hsize hfirst
      refine ⟨parcelAt run.order recPacketDest 0, ?_⟩
      rw [hrec]
      dsimp only
      rw [List.filterMap_cons_some (b := .hears (parcelAt run.order
          recPacketDest 0)) (by
        rw [Option.isSome_some, deed, if_neg hother, hresponse, hrec]
        rfl), List.filterMap_cons_none rfl,
        List.filterMap_cons_some (b := .passesBack _) (by
          rw [deed, if_pos haccept]), hreply]
      exact List.prefix_rfl

/-- From the request on the server does what a proxy does. -/
theorem deeds_serverServe (hsocket : run.socket ≠ some newSocket) :
    ∃ request response, (serverServe run serverIp newSocket).events.filterMap
        (deed run) <+:
      [.takes request, .calls request.dest,
        .passesOn (request.sentBy (parseIpAddr serverIp)), .hears response,
        .passesBack (response.handedTo request.source)] := by
  rw [events_serverServe]
  cases hrequest : run.request with
  | none =>
      exact ⟨⟨0, 0, ⟨[], [], []⟩⟩, ⟨0, 0, ⟨[], [], []⟩⟩, List.nil_prefix⟩
  | some bytes =>
      obtain ⟨offset, hoffset, hend⟩ := hreads.request bytes hrequest
      obtain ⟨packet, hrec, hpacket⟩ :=
        servRecFromCli_some run.heap run.key hoffset hend
      have hzero : ∃ index < 128, packet.byte (46 + index) = 0 :=
        ⟨offset, by omega, by rw [hpacket.byte_eq _ (by omega), if_pos rfl]⟩
      have hforward := parcelOf_serverForward run.order serverIp hpacket.size_eq
        hzero
      have hcall : parseIpAddr (forwardOf run.order serverIp packet).destIp =
          (parcelAt run.order packet 6).dest :=
        parseIpAddr_parseIpAddrToStr _
      rw [hrec]
      dsimp only
      rw [List.filterMap_cons_some (b := .takes (parcelAt run.order packet 6)) (by
        rw [Option.isSome_some, deed, if_pos haccept, hrequest, hrec]
        rfl), events_serverHandle, List.filterMap_cons_none rfl]
      rcases deeds_connectOrExit run (forwardOf run.order serverIp packet).destIp
        _ with hshort | ⟨clientFd, hconnected, heq⟩
      · refine ⟨parcelAt run.order packet 6, ⟨0, 0, ⟨[], [], []⟩⟩, ?_⟩
        rw [List.cons_prefix_cons, ← hcall]
        exact ⟨rfl, hshort.trans (List.prefix_append [_] _)⟩
      · have hne : newSocket ≠ clientFd := fun heq => hsocket (heq ▸ hconnected)
        have hother : run.accept ≠ some clientFd := by
          rw [haccept]
          exact fun heq => hne (Option.some.inj heq)
        obtain ⟨response, hanswer⟩ := deeds_serverAnswer hreads haccept hne
          (u32 run.order packet 18)
        refine ⟨parcelAt run.order packet 6, response, ?_⟩
        rw [heq, hcall, List.cons_prefix_cons, List.cons_prefix_cons,
          and_iff_right rfl, and_iff_right rfl, send, bind_assoc,
          events_emit_bind, pure_bind, List.filterMap_cons_some
            (b := .passesOn ((parcelAt run.order packet 6).sentBy
              (parseIpAddr serverIp))) (by rw [deed, if_neg hother, hforward]),
          List.cons_prefix_cons, and_iff_right rfl]
        cases run.forwards with
        | false => exact List.nil_prefix
        | true => exact hanswer

end Server

/-- Peers that are programs of this repository end their strings. -/
theorem readsInside_hosts : ReadsInside hostsDeployment.server := by
  constructor
  · intro bytes hrequest
    obtain rfl := Option.some.inj hrequest
    have htunnelled := take_clientRequest hostsSetting.order
      hostsSetting.clientHeap hostsSetting.key
      (DottedQuad.ofAddress hostsSetting.client).text
      (DottedQuad.ofAddress hostsSetting.dest).text requestPayload tcpFlagSyn
      hostsSetting.requestCount
    have hlength := requestPayload.length_le
    obtain ⟨offset, hoffset, -, hend⟩ := exists_payloadEnd_tunnelled
      hostsSetting.key (length_headersWith hostsSetting.order _ _ _ tcpFlagSyn)
      requestPayload hostsSetting.requestCount
    refine ⟨offset, by omega, ?_⟩
    rw [requestBytes, htunnelled]
    exact hend
  · intro bytes hresponse
    obtain rfl := Option.some.inj hresponse
    have hlength := responseMsg.length_le
    have hzero : ∃ offset ≤ 127,
        (responseBytes hostsSetting).getD (40 + offset) 0 = 0 := by
      rw [responseBytes]
      cases destPacket hostsSetting with
      | none => exact ⟨0, by omega, rfl⟩
      | some recPacket =>
          refine ⟨responseMsg.chars.length, hlength, ?_⟩
          dsimp only
          rw [(responseOf_destinationReply _ _ _ _ responseMsg _).message_eq _
            (by omega), List.getD_eq_default _ _ le_rfl]
    obtain ⟨offset, hoffset, hnul⟩ := hzero
    have htaken : ((responseBytes hostsSetting).take
        hostsSetting.responseCount).getD (40 + offset) 0 = 0 := by
      rw [getD_take]
      split
      next => exact hnul
      next => rfl
    obtain ⟨first, hle, hfirst⟩ := @exists_firstZero
      (fun index => ((responseBytes hostsSetting).take
        hostsSetting.responseCount).getD index 0) 40 offset htaken
    exact ⟨first, by omega, hfirst⟩

end SimpleVpn.Proxy
