import SimpleVpn.Tunnel.Hops

/-!
# Where the server connects to

The server reads the destination from the packet it deciphered.  It never looks
at how many bytes arrived, so address bytes that are missing are replaced by the
key bytes at their places.
-/

namespace SimpleVpn.Delivery

open SimpleVpn.TracedMemory SimpleVpn.HostWords SimpleVpn.Keystream
open SimpleVpn.HostInfo SimpleVpn.Protocol SimpleVpn.Packet SimpleVpn.Programs
open SimpleVpn.Frame SimpleVpn.Transit SimpleVpn.Hops

/-- Every byte of the destination address that is not among the first `count`
bytes of the request equals the key byte at its place. -/
def MissingBytesMatchKey (order : ByteOrder) (key : Key) (dest : UInt32)
    (count : ℕ) : Prop :=
  ∀ index < 4, count ≤ 22 + index →
    nativeByte32 order dest index = keystream key (22 + index)

instance (order : ByteOrder) (key : Key) (dest : UInt32) (count : ℕ) :
    Decidable (MissingBytesMatchKey order key dest count) :=
  inferInstanceAs (Decidable (∀ index < 4, count ≤ 22 + index →
    nativeByte32 order dest index = keystream key (22 + index)))

/-- With the whole address delivered nothing is missing. -/
theorem missingBytesMatchKey_of_le (order : ByteOrder) (key : Key)
    (dest : UInt32) {count : ℕ} (hcount : 26 ≤ count) :
    MissingBytesMatchKey order key dest count := by
  intro index hindex hmissing
  omega

section Connect

variable (order : ByteOrder) (clientHeap serverHeap : Heap) (key : Key)
variable (client server dest : DottedQuad) (message : Message) (flags : UInt8)
variable (count : ℕ)

/-- The address the server connects to after a truncated request. -/
theorem exists_connected_of_truncation :
    ∃ address, (address = dest.address ↔
        MissingBytesMatchKey order key dest.address count) ∧
      connected (serverStart order serverHeap key server.text
        (some ((clientRequest order clientHeap key client.text dest.text
          message.chars flags).value.take count)) none).value = none ∧
      ∀ clientFd, ∃ forward,
        connected (serverStart order serverHeap key server.text
          (some ((clientRequest order clientHeap key client.text dest.text
            message.chars flags).value.take count)) (some clientFd)).value =
          some forward ∧ forward.destIp = parseIpAddrToStr address := by
  obtain ⟨packet, hpacket, hstop, hstart⟩ := serverStart_of_truncation order
    serverHeap key server.text clientHeap client.text dest.text message flags
    count
  have hbyte : ∀ index < 4, packet.byte (22 + index) =
      if 22 + index < count then nativeByte32 order dest.address index
      else keystream key (22 + index) := by
    intro index hindex
    rw [hpacket _ (by omega), getD_headersWith_dest _ _ _ _ _ hindex,
      parseIpAddr_text]
  refine ⟨u32 order packet 22, ?_, ?_, fun clientFd => ?_⟩
  · rw [u32_eq_iff]
    refine forall₂_congr fun index hindex => ?_
    rw [hbyte index hindex]
    split
    next harrived =>
      simp only [true_iff]
      intro hmissing
      omega
    next hmissing =>
      rw [eq_comm]
      simp only [Nat.le_of_not_lt hmissing, forall_const]
  · rw [hstop, connected]
  · rw [hstart]
    exact ⟨_, rfl, rfl⟩

/-- However much of a request arrives, the server stops or connects to the
destination exactly when it has no socket or the missing address bytes happen to
match the key. -/
theorem connected_dest_iff (clientFd : Option ℕ) :
    (∀ forward, connected (serverStart order serverHeap key server.text
        (some ((clientRequest order clientHeap key client.text dest.text
          message.chars flags).value.take count)) clientFd).value =
        some forward →
      forward.destIp = (DottedQuad.ofAddress dest.address).text) ↔
      clientFd = none ∨ MissingBytesMatchKey order key dest.address count := by
  obtain ⟨address, haddress, hstop, hconnect⟩ := exists_connected_of_truncation
    order clientHeap serverHeap key client server dest message flags count
  rw [← parseIpAddrToStr_eq, ← haddress]
  cases clientFd with
  | none =>
      rw [hstop]
      simp only [reduceCtorEq, false_implies, implies_true, true_or]
  | some clientFd =>
      obtain ⟨forward, hforward, htext⟩ := hconnect clientFd
      rw [hforward]
      constructor
      · intro hall
        right
        apply parseIpAddrToStr_injective
        rw [← htext]
        exact hall forward rfl
      · rintro (hnone | rfl) other hother
        · cases hnone
        · rw [← Option.some.inj hother, htext]

end Connect

/-- When the client closes the connection without sending anything, the server
connects to an address made of key bytes. -/
theorem connected_emptyRead :
    ¬ ∀ forward, connected (serverStart .little .zeros key h2.text
        (some ((clientRequest .little .zeros key h1.text h3.text
          requestPayload.chars tcpFlagSyn).value.take 0)) (some 3)).value =
        some forward →
      forward.destIp = h3.text := by
  obtain ⟨address, haddress, -, hconnect⟩ := exists_connected_of_truncation
    .little .zeros .zeros key h1 h2 h3 requestPayload tcpFlagSyn 0
  obtain ⟨forward, hforward, htext⟩ := hconnect 3
  rw [address_h3] at haddress
  intro hall
  have hdest := hall forward hforward
  rw [htext, h3, ← parseIpAddrToStr_eq] at hdest
  exact absurd (haddress.mp (parseIpAddrToStr_injective hdest)) (by decide)

end SimpleVpn.Delivery
