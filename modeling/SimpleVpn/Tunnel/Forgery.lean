import SimpleVpn.Concrete.Printing
import SimpleVpn.Tunnel.Hiding

/-!
# Packets changed on the way

Nothing in a packet depends on the key but the cipher itself.  Whoever knows what a
request asks for turns it into a request for something else, and whoever knows an
answer turns it into another of the same length, both without the key.
-/

namespace SimpleVpn.Forgery

open SimpleVpn.TracedMemory SimpleVpn.HostWords SimpleVpn.CStrings
open SimpleVpn.Keystream SimpleVpn.Lines SimpleVpn.HostInfo SimpleVpn.Protocol
open SimpleVpn.Packet SimpleVpn.Printing SimpleVpn.Programs SimpleVpn.Frame
open SimpleVpn.Transit SimpleVpn.Hops SimpleVpn.Hiding

/-- What a request asks for: it shows neither the client nor a checksum. -/
structure Demand where
  dest : DottedQuad
  flags : UInt8
  message : Message

/-- The text of a request as far as it is known from what it asks for. -/
def Demand.text (order : ByteOrder) (demand : Demand) : List UInt8 :=
  headersWith order 0 0 demand.dest.address demand.flags ++ demand.message.chars

/-- The mask that turns a request into one for something else. -/
def Demand.mask (order : ByteOrder) (demand forged : Demand) : ℕ → UInt8 :=
  difference (demand.text order) (forged.text order)

/-- As much of a client's request as arrives. -/
def Demand.request (order : ByteOrder) (heap : Heap) (key : Key)
    (client : DottedQuad) (count : ℕ) (demand : Demand) : List UInt8 :=
  (clientRequest order heap key client.text demand.dest.text demand.message.chars
    demand.flags).value.take count

section Requests

variable (order : ByteOrder) (key : Key) (demand forged : Demand) (count : ℕ)

/-- Outside the checksum and the source address the text of a request is known. -/
theorem getD_text (sum : UInt16) (source : UInt32) {index : ℕ}
    (hindex : index < 16 ∨ 22 ≤ index) :
    (headersWith order sum source demand.dest.address demand.flags ++
        demand.message.chars).getD index 0 = (demand.text order).getD index 0 := by
  rw [Demand.text]
  rcases Nat.lt_or_ge index 46 with hheader | hmessage
  · rw [List.getD_append _ _ _ _ hheader, List.getD_append _ _ _ _ hheader,
      getD_headersWith_congr order sum 0 source 0 _ _ hindex]
  · rw [List.getD_append_right _ _ _ _ hmessage,
      List.getD_append_right _ _ _ _ hmessage, length_headersWith, length_headersWith]

/-- So is what the request is enciphered as, given the key. -/
theorem getD_tunnelled_text (sum : UInt16) (source : UInt32) {index : ℕ}
    (hindex : index < 16 ∨ 22 ≤ index) :
    (tunnelled key (headersWith order sum source demand.dest.address demand.flags)
        demand.message count).getD index 0 =
      if index < count ∧ index < 46 + demand.message.chars.length then
        (demand.text order).getD index 0 ^^^ keystream key index
      else 0 := by
  rw [tunnelled, getD_take_encipher, List.length_append, length_headersWith,
    getD_text order demand sum source hindex]

/-- With the mask the one request becomes the other, apart from what the server does
not look at. -/
theorem sameButSource_tamper (leftSum rightSum : UInt16)
    (leftSource rightSource : UInt32)
    (hlength : forged.message.chars.length = demand.message.chars.length) :
    SameButSource
      (tamper (demand.mask order forged) (tunnelled key (headersWith order leftSum
        leftSource demand.dest.address demand.flags) demand.message count))
      (tunnelled key (headersWith order rightSum rightSource forged.dest.address
        forged.flags) forged.message count) := by
  intro index houtside
  have harrived : (tunnelled key (headersWith order leftSum leftSource
      demand.dest.address demand.flags) demand.message count).length =
        min count (46 + demand.message.chars.length) := by
    rw [tunnelled, List.length_take, length_encipher, List.length_append,
      length_headersWith]
  rw [getD_tunnelled_text order key forged count _ _ houtside, hlength]
  by_cases hinside : index < count ∧ index < 46 + demand.message.chars.length
  · rw [getD_tamper _ (by omega), getD_tunnelled_text order key demand count _ _
      houtside, if_pos hinside, if_pos hinside]
    exact xor_xor_difference _ _ _
  · rw [if_neg hinside, List.getD_eq_default _ _ (by rw [length_tamper]; omega)]

/-- Without the key every request becomes one for another host, with other flags and
another message of the same length: however much of it arrives, the server connects
and sends the same as for an honest request of any client. -/
theorem forgedRequest (clientHeap otherHeap leftHeap rightHeap : Heap)
    (client other server : DottedQuad) (clientFd : ℕ)
    (hlength : forged.message.chars.length = demand.message.chars.length) :
    ∃ destIp bytes, bytes.length = 168 ∧
      serverOutward order leftHeap key server.text (tamper (demand.mask order forged)
        (demand.request order clientHeap key client count)) clientFd =
          some (destIp, bytes) ∧
      serverOutward order rightHeap key server.text
        (forged.request order otherHeap key other count) clientFd =
          some (destIp, bytes) := by
  have hmessage := forged.message.length_le
  rw [Demand.request, Demand.request, take_clientRequest, take_clientRequest,
    parseIpAddr_text, parseIpAddr_text, parseIpAddr_text, parseIpAddr_text]
  obtain ⟨offset, hoffset, -, hend⟩ := exists_payloadEnd_tunnelled key
    (length_headersWith order (builtSum order other.address forged.dest.address)
      other.address forged.dest.address forged.flags) forged.message count
  have hsame := sameButSource_tamper order key demand forged count
    (builtSum order client.address demand.dest.address)
    (builtSum order other.address forged.dest.address) client.address other.address
    hlength
  have hsymm : SameButSource _ _ := fun index houtside => (hsame index houtside).symm
  obtain ⟨destIp, bytes, hbytes, hhonest, htampered⟩ := hsymm.serverOutward_eq order
    rightHeap leftHeap key server.text clientFd (by omega) hend
  exact ⟨destIp, bytes, hbytes, htampered, hhonest⟩

end Requests

/-- The request of `client.c` for a host. -/
def demandOf (dest : DottedQuad) (message : Message) : Demand :=
  ⟨dest, tcpFlagSyn, message⟩

def goodbye : Message := ⟨⟨chars "goodbye", by decide⟩, by decide⟩

theorem forgedRequest_hosts :
    ∃ destIp bytes, bytes.length = 168 ∧
      serverOutward .little .zeros key h2.text
        (tamper ((demandOf h3 requestPayload).mask .little (demandOf h1 goodbye))
          ((demandOf h3 requestPayload).request .little .zeros key h1 53)) 3 =
          some (destIp, bytes) ∧
      serverOutward .little .zeros key h2.text
        ((demandOf h1 goodbye).request .little .zeros key h3 53) 3 =
          some (destIp, bytes) :=
  forgedRequest .little key (demandOf h3 requestPayload) (demandOf h1 goodbye) 53
    .zeros .zeros .zeros .zeros h1 h3 h2 3 (by decide)

/-- The mask that turns the answer in a reply into another one. -/
def answerMask (answer forged : Message) : ℕ → UInt8 :=
  difference (List.replicate 46 0 ++ answer.chars)
    (List.replicate 46 0 ++ forged.chars)

section Answers

variable (order : ByteOrder) (heap : Heap) (key : Key) (clientIp : UInt32)
variable {recPacketDest : Block} {answer : Message}
variable (hholds : HoldsString recPacketDest 40 answer.chars)

include hholds

/-- The reply is an answer in the tunnel. -/
theorem exists_serverReply_eq : ∃ headers : List UInt8, headers.length = 46 ∧
    (serverReply order heap key clientIp recPacketDest).value =
      encipher key (headers ++ answer.chars) := by
  have hlength := answer.length_le
  refine ⟨_, Block.length_slice (serverWrap order heap clientIp recPacketDest).value
    0 46, ?_⟩
  rw [value_serverReply order heap key clientIp recPacketDest hlength
    hholds.firstZero, Block.slice_add]
  congr 2
  apply Block.slice_eq _ _ rfl
  intro index hindex
  rw [byte_serverWrap _ _ _ _ (by omega), if_neg (by omega), if_neg (by omega),
    if_neg (by omega), show 0 + 46 + index - 6 = 40 + index by omega,
    hholds.byte_eq hindex]

/-- Without the key an answer becomes another one of the same length: the payload that
the client prints is a prefix of the forged answer, and once everything arrives it is
all of it exactly when no character meets its key byte. -/
theorem forgedReply (clientOrder : ByteOrder) (clientHeap : Heap) (forged : Message)
    (hlength : forged.chars.length = answer.chars.length) (count : ℕ) :
    ∃ packet, (servRecFromCli clientHeap key (some (tamper (answerMask answer forged)
        ((serverReply order heap key clientIp recPacketDest).value.take
          count)))).value = some packet ∧
      (printPacket clientOrder packet 0).value =
        text (greLines clientOrder packet 0) ++
          (text (ipLines clientOrder packet 6) ++
            (text (tcpLines clientOrder packet 26) ++
              text [rule, stringLine "Payload msg: " (stringAt packet 46)])) ∧
      stringAt packet 46 <+: forged.chars ∧
      (46 + forged.chars.length ≤ count →
        (stringAt packet 46 = forged.chars ↔ KeyFree key forged)) := by
  have hmessage := forged.length_le
  obtain ⟨headers, hheaders, hreply⟩ :=
    exists_serverReply_eq order heap key clientIp hholds
  have htampered := tamper_take_encipher key headers hlength count
  rw [hheaders] at htampered
  obtain ⟨offset, hoffset, -, hend⟩ :=
    exists_payloadEnd_tunnelled key hheaders forged count
  obtain ⟨packet, hsome, hpacket⟩ :=
    servRecFromCli_some clientHeap key (by omega) hend
  have hstring := stringAt_tunnelled key hheaders forged count hoffset hend hpacket
  rw [hreply, answerMask, htampered]
  have hprinted := value_printPacket clientOrder packet 0
  rw [value_printPacketUnencap] at hprinted
  refine ⟨packet, hsome, hprinted, ?_, fun hcount => ?_⟩
  · rw [hstring]
    exact List.take_prefix _ _
  · rw [hstring, take_eq_self_iff forged hoffset,
      payloadEnd_eq_length_iff key hheaders forged count hcount hoffset hend]

end Answers

def wrongMsg : Message :=
  ⟨⟨chars "Hello from the wrong side!", by decide⟩, by decide⟩

theorem forgedReply_hosts :
    ∃ packet, (servRecFromCli .zeros key (some (tamper
        (answerMask responseMsg wrongMsg) ((serverReply .little .zeros key h1.address
          (storeString (ofBytes (List.replicate 174 0)) 40
            responseMsg.chars).value).value.take 72)))).value = some packet ∧
      (printPacket .little packet 0).value =
        text (greLines .little packet 0) ++
          (text (ipLines .little packet 6) ++
            (text (tcpLines .little packet 26) ++
              text [rule, stringLine "Payload msg: " (stringAt packet 46)])) ∧
      stringAt packet 46 <+: wrongMsg.chars ∧
      (46 + wrongMsg.chars.length ≤ 72 →
        (stringAt packet 46 = wrongMsg.chars ↔ KeyFree key wrongMsg)) :=
  forgedReply .little .zeros key h1.address
    (holdsString_storeString _ 40 responseMsg.nulFree) .little .zeros wrongMsg
    (by decide) 72

end SimpleVpn.Forgery
