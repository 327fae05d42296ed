import SimpleVpn.Tunnel.Hops

/-!
# Accesses outside a buffer

The bytes that reach a receiver are arbitrary.  Deciphering them stays inside its
buffers exactly when the scan for the end of the payload meets a zero byte.  The
reply of the server never stays inside: its terminator goes one place past the
end of a buffer that has room for the headers and the payload only.
-/

namespace SimpleVpn.Bounds

open SimpleVpn.TracedMemory SimpleVpn.HostWords SimpleVpn.CStrings
open SimpleVpn.HostInfo SimpleVpn.Protocol SimpleVpn.Utils SimpleVpn.Packet
open SimpleVpn.Programs SimpleVpn.Frame SimpleVpn.Rewrite SimpleVpn.Transit
open SimpleVpn.Hops

/-- Among the 128 bytes from a place on one is zero or missing. -/
def EndsFrom (start : ℕ) (delivered : List UInt8) : Prop :=
  ∃ offset < 128, delivered.getD (start + offset) 0 = 0

theorem endsFrom_of_length_lt {start : ℕ} {delivered : List UInt8}
    (hlength : delivered.length < start + 128) : EndsFrom start delivered := by
  refine ⟨127, by omega, ?_⟩
  rw [List.getD_eq_default _ _ (by omega)]

/-- The payload area of the receive buffer has a zero byte: one that arrived, or
one that no byte arrived for. -/
def HasPayloadEnd (delivered : List UInt8) : Prop := EndsFrom 46 delivered

section Decoder

variable (heap : Heap) (key : Key) (delivered : List UInt8)

theorem inBounds_recv (around : Surroundings) (size : ℕ) :
    (recv (calloc around size) size delivered).InBounds := by
  rw [recv, inBounds_storeBytes, size_calloc]
  omega

/-- The scan for the end of the payload stays inside the receive buffer exactly
when that buffer has a zero in its payload area. -/
theorem inBounds_strlen_recv (around : Surroundings) :
    (strlen (recv (calloc around 174) 174 delivered).value 46).InBounds ↔
      HasPayloadEnd delivered := by
  rw [strlen_inBounds_iff (by rw [size_recv, size_calloc]; omega), size_recv,
    size_calloc]
  constructor
  · rintro ⟨offset, hinside, hzero⟩
    rw [byte_recv around delivered hinside] at hzero
    exact ⟨offset, by omega, hzero⟩
  · rintro ⟨offset, hinside, hzero⟩
    refine ⟨offset, by omega, ?_⟩
    rw [byte_recv around delivered (by omega), hzero]

theorem inBounds_servRecFromCli (hzero : HasPayloadEnd delivered) :
    (servRecFromCli heap key (some delivered)).InBounds := by
  have hsize : encapsulatedSize = 174 := rfl
  have hpayload : getPayload 0 = 46 := rfl
  have hscan := (inBounds_strlen_recv delivered (heap 0)).mpr hzero
  obtain ⟨offset, hoffset, hbyte⟩ := hzero
  obtain ⟨first, hfirst, hend⟩ := exists_payloadEnd hbyte
  have hstrlen := strlen_recv_of_payloadEnd (heap 0) (by omega) hend
  have hclamp := offsetBy_clampLength (show first ≤ 127 by omega)
  rw [servRecFromCli, hsize, hpayload]
  simp only [Traced.inBounds_bind, Traced.inBounds_pure, inBounds_store,
    and_true, hstrlen, hclamp, size_xorEncryptDecrypt, size_calloc]
  refine ⟨inBounds_recv delivered (heap 0) 174, hscan, ?_, by omega⟩
  rw [inBounds_xorEncryptDecrypt, size_recv, size_calloc, size_calloc]
  omega

theorem hasPayloadEnd_of_inBounds
    (hbounds : (servRecFromCli heap key (some delivered)).InBounds) :
    HasPayloadEnd delivered := by
  have hsize : encapsulatedSize = 174 := rfl
  have hpayload : getPayload 0 = 46 := rfl
  rw [servRecFromCli, hsize, hpayload] at hbounds
  simp only [Traced.inBounds_bind] at hbounds
  exact (inBounds_strlen_recv delivered (heap 0)).mp hbounds.2.1

/-- Deciphering arbitrary bytes stays inside its buffers and leaves a terminator
in the payload area exactly when the scan for the end of the payload meets a
zero byte. -/
theorem servRecFromCli_safe_iff :
    ((servRecFromCli heap key (some delivered)).InBounds ∧
      ∃ packet, (servRecFromCli heap key (some delivered)).value = some packet ∧
        ∃ index, 46 ≤ index ∧ index < 174 ∧ packet.byte index = 0) ↔
      HasPayloadEnd delivered := by
  refine ⟨fun hsafe => hasPayloadEnd_of_inBounds heap key delivered hsafe.1,
    fun hzero => ⟨inBounds_servRecFromCli heap key delivered hzero, ?_⟩⟩
  obtain ⟨offset, hoffset, hbyte⟩ := hzero
  obtain ⟨first, hfirst, hend⟩ := exists_payloadEnd hbyte
  obtain ⟨packet, hsome, hpacket⟩ :=
    servRecFromCli_some heap key (by omega) hend
  refine ⟨packet, hsome, 46 + first, by omega, by omega, ?_⟩
  rw [hpacket.byte_eq _ (by omega), if_pos rfl]

end Decoder

/-- A peer that sends 174 bytes without a zero drives the scan out of the
receive buffer. -/
theorem servRecFromCli_unsafe :
    ¬ (servRecFromCli .zeros key (some (List.replicate 174 1))).InBounds := by
  intro hbounds
  obtain ⟨offset, hoffset, hzero⟩ := hasPayloadEnd_of_inBounds _ _ _ hbounds
  rw [List.getD_replicate _ (by omega)] at hzero
  exact absurd hzero (by decide)

/-- The buffer of the reply ends where its terminator is stored, or before. -/
theorem toNat_getPacketSize_le (payloadSize : UInt8) :
    (getPacketSize ipProtocolTcp payloadSize).toNat ≤
      getPayload 0 + payloadSize.toNat := by
  rw [getPacketSize, if_pos rfl, UInt8.toNat_ofNat', sizeofTcpHdr, sizeofGreHdr,
    sizeofIpHdr, show getPayload 0 = 46 from rfl]
  omega

theorem inBounds_packetEncapsulate (order : ByteOrder) {packet : Block}
    (hsize : 6 ≤ packet.size) : (packetEncapsulate order packet).InBounds := by
  simp only [packetEncapsulate, getGreHdr, greC, greProtocol, greSum,
    sizeofGreHdr, Traced.inBounds_bind, inBounds_storeU16, inBounds_cksum,
    value_storeU16, size_setU16]
  refine ⟨by omega, by omega, by omega, fun index hindex => by omega, by omega⟩

theorem inBounds_convertU16 (order : ByteOrder) (convert : UInt16 → UInt16)
    (packet : Block) (field : ℕ) :
    (convertU16 order convert packet field).InBounds ↔
      field + 1 < packet.size := by
  simp only [convertU16, Traced.inBounds_bind, inBounds_loadU16,
    inBounds_storeU16, value_storeU16, size_setU16, and_self]

theorem inBounds_convertU32 (order : ByteOrder) (convert : UInt32 → UInt32)
    (packet : Block) (field : ℕ) :
    (convertU32 order convert packet field).InBounds ↔
      field + 3 < packet.size := by
  simp only [convertU32, Traced.inBounds_bind, inBounds_loadU32,
    inBounds_storeU32, value_storeU32, size_setU32, and_self]

theorem inBounds_rewriteAddress (order : ByteOrder) {packet : Block}
    {own other : ℕ} (hfields : AddressFields own other) (ipAddr : List UInt8)
    (hsize : 26 ≤ packet.size) :
    (rewriteAddress order packet own other ipAddr).InBounds := by
  have hdisjoint := hfields.disjoint
  simp only [rewriteAddress, reverseFields, restoreFields, getIpHdr,
    sizeofGreHdr, sizeofIpHdr, ipLen, ipSum, Traced.inBounds_bind,
    Traced.value_bind, Traced.inBounds_pure, inBounds_storeU16,
    inBounds_storeU32, inBounds_cksum, inBounds_convertU16,
    inBounds_convertU32, value_convertU16, value_convertU32, value_storeU16,
    value_storeU32, size_setU16, size_setU32, and_true]
  simp only [ipLen, ipSum] at hdisjoint
  refine ⟨by omega, by omega, fun index hindex => by omega, by omega, by omega⟩

/-- Putting the GRE header back and rewriting the address stays inside the two
buffers. -/
theorem inBounds_serverWrap (order : ByteOrder) (heap : Heap)
    (clientIp : UInt32) {recPacketDest : Block}
    (hsize : recPacketDest.size = 174) :
    (serverWrap order heap clientIp recPacketDest).InBounds := by
  have hpacketSize : (UInt8.ofNat (maxPayloadSize + sizeofTcpHdr +
      sizeofGreHdr + sizeofIpHdr)).toNat = 174 := by decide
  have hcount : sizeofIpHdr + sizeofTcpHdr + maxPayloadSize = 168 := rfl
  rw [serverWrap, hpacketSize, hcount]
  simp only [Traced.inBounds_bind, Traced.inBounds_pure, and_true,
    inBounds_memcpy, servHandlePktDest]
  refine ⟨inBounds_packetEncapsulate order (by rw [size_calloc]; omega),
    fun index hindex => ?_, inBounds_rewriteAddress order .dest _ ?_⟩
  · rw [size_packetEncapsulate, size_calloc, hsize, sizeofGreHdr]
    omega
  · rw [size_memcpy, size_packetEncapsulate, size_calloc]
    omega

theorem not_inBounds_servCliEncryptFree (heap : Heap) (key : Key)
    (packet : Block) (payloadSize : UInt8) :
    ¬ (servCliEncryptFree heap key packet ipProtocolTcp payloadSize).InBounds := by
  have hsize := toNat_getPacketSize_le payloadSize
  simp only [servCliEncryptFree, Traced.inBounds_bind, inBounds_store,
    size_xorEncryptDecrypt, size_calloc]
  omega

theorem not_inBounds_serverReply (order : ByteOrder) (heap : Heap) (key : Key)
    (clientIp : UInt32) (recPacketDest : Block) :
    ¬ (serverReply order heap key clientIp recPacketDest).InBounds := by
  rw [serverReply, Traced.inBounds_bind, Traced.inBounds_bind]
  exact fun hbounds => not_inBounds_servCliEncryptFree _ _ _ _ hbounds.2.2

/-- Whatever the destination sends, the server leaves a buffer while it handles
it. -/
theorem serverReply_never_inBounds (order : ByteOrder) (heap : Heap) (key : Key)
    (clientIp : UInt32) (delivered : List UInt8) :
    ∃ recPacketDest,
      (servRecFromDes heap (some delivered)).value = some recPacketDest ∧
      ¬ (serverReply order (heap.after 1) key clientIp recPacketDest).InBounds := by
  obtain ⟨recPacketDest, hsome, -⟩ := servRecFromDes_some heap delivered
  exact ⟨recPacketDest, hsome, not_inBounds_serverReply _ _ _ _ _⟩

/-- An empty response is enough. -/
theorem serverReply_unsafe :
    ∃ recPacketDest,
      (servRecFromDes .zeros (some [])).value = some recPacketDest ∧
      ¬ (serverReply .little .zeros key h1.address recPacketDest).InBounds := by
  obtain ⟨recPacketDest, hsome, -⟩ := servRecFromDes_some .zeros []
  exact ⟨recPacketDest, hsome, not_inBounds_serverReply _ _ _ _ _⟩

end SimpleVpn.Bounds
