import SimpleVpn.Tunnel.Rewrite

/-!
# Checksums of built and of rewritten headers

`set_ip` sums the header as it lies in memory.  The rewrites sum it while the
length and the addresses are in network order.  On a big-endian host both are
the same header; on a little-endian host the two sums differ by 255 times the
difference between the length and the halves of the addresses.
-/

namespace SimpleVpn.HeaderSums

open SimpleVpn.TracedMemory SimpleVpn.HostWords SimpleVpn.OnesComplement
open SimpleVpn.HostInfo SimpleVpn.Protocol SimpleVpn.Utils SimpleVpn.Packet
open SimpleVpn.Frame SimpleVpn.Rewrite

/-- The sum of the two 16-bit halves of an address. -/
def halves (address : UInt32) : ℕ :=
  address.toNat / 65536 + address.toNat % 65536

/-- The bytes of a header before its checksum. -/
def headerStart : List UInt8 := [0x40, 0, 0, 148, 0, 0, 0, 0, 0, 6]

/-- The IP header in a packet has the constants of `set_ip`, the given checksum
field and the given addresses. -/
structure CarriesHeader (order : ByteOrder) (packet : Block) (sum : UInt16)
    (source dest : UInt32) : Prop where
  start_eq : ∀ index < 10, packet.byte (6 + index) = headerStart.getD index 0
  sum_eq : u16 order packet 16 = sum
  source_eq : u32 order packet 18 = source
  dest_eq : u32 order packet 22 = dest

theorem carriesHeader_iff (order : ByteOrder) (packet : Block) (sum : UInt16)
    (source dest : UInt32) :
    CarriesHeader order packet sum source dest ↔
      packet.slice 6 20 = ipHeader order sum source dest := by
  constructor
  · rintro ⟨hstart, hsum, hsource, hdest⟩
    rw [u16_eq_iff] at hsum
    rw [u32_eq_iff] at hsource hdest
    apply Block.slice_eq
    · rfl
    · intro index hindex
      rcases Nat.lt_or_ge index 10 with hlow | hhigh
      · rw [hstart index hlow]
        interval_cases index <;> rfl
      · interval_cases index
        exacts [hsum 0 (by decide), hsum 1 (by decide), hsource 0 (by decide),
          hsource 1 (by decide), hsource 2 (by decide), hsource 3 (by decide),
          hdest 0 (by decide), hdest 1 (by decide), hdest 2 (by decide),
          hdest 3 (by decide)]
  · intro hslice
    have hbyte : ∀ index < 20, packet.byte (6 + index) =
        (ipHeader order sum source dest).getD index 0 := by
      intro index hindex
      rw [← hslice, Block.getD_slice _ _ _ _ hindex]
    refine ⟨fun index hindex => ?_, (u16_eq_iff order packet 16 sum).mpr ?_,
      (u32_eq_iff order packet 18 source).mpr ?_,
      (u32_eq_iff order packet 22 dest).mpr ?_⟩
    · rw [hbyte index (by omega)]
      interval_cases index <;> rfl
    · intro index hindex
      rw [show 16 + index = 6 + (10 + index) by omega, hbyte _ (by omega)]
      interval_cases index <;> rfl
    · intro index hindex
      rw [show 18 + index = 6 + (12 + index) by omega, hbyte _ (by omega)]
      interval_cases index <;> rfl
    · intro index hindex
      rw [show 22 + index = 6 + (16 + index) by omega, hbyte _ (by omega)]
      interval_cases index <;> rfl

/-- Two headers that differ at most in the checksum are equal exactly when the
checksums are. -/
theorem ipHeader_inj_sum (order : ByteOrder) {left right : UInt16}
    {source dest : UInt32} :
    ipHeader order left source dest = ipHeader order right source dest ↔
      left = right := by
  refine ⟨fun heq => ?_, fun heq => by rw [heq]⟩
  simp only [ipHeader, List.cons.injEq, true_and] at heq
  rw [← nativeWord16_nativeByte16 order left, heq.1, heq.2.1,
    nativeWord16_nativeByte16]

section Rewritten

variable (order : ByteOrder) (packet : Block) {sum : UInt16}
variable {source dest : UInt32} (ipAddr : List UInt8)
variable (hcarries : CarriesHeader order packet sum source dest)

include hcarries

theorem CarriesHeader.servHandlePkt :
    CarriesHeader order (servHandlePkt order packet ipAddr).value.1
      (rewrittenSum order packet ipSrc ipDst (parseIpAddr ipAddr))
      (parseIpAddr ipAddr) dest where
  start_eq index hindex :=
    (byte_rewriteAddress_of_lt order packet .source ipAddr (by
      rw [ipSum]
      omega)).trans (hcarries.start_eq index hindex)
  sum_eq := u16_rewriteAddress_sum order packet .source ipAddr
  source_eq := u32_rewriteAddress_own order packet .source ipAddr
  dest_eq := (u32_rewriteAddress_other order packet .source ipAddr).trans
    hcarries.dest_eq

theorem CarriesHeader.servHandlePktDest :
    CarriesHeader order (servHandlePktDest order packet ipAddr).value.1
      (rewrittenSum order packet ipDst ipSrc (parseIpAddr ipAddr))
      source (parseIpAddr ipAddr) where
  start_eq index hindex :=
    (byte_rewriteAddress_of_lt order packet .dest ipAddr (by
      rw [ipSum]
      omega)).trans (hcarries.start_eq index hindex)
  sum_eq := u16_rewriteAddress_sum order packet .dest ipAddr
  source_eq := (u32_rewriteAddress_other order packet .dest ipAddr).trans
    hcarries.source_eq
  dest_eq := u32_rewriteAddress_own order packet .dest ipAddr

end Rewritten

/-- By what a 16-bit word is multiplied, modulo 65535, when it is stored and its
bytes are read in network order. -/
def wordScale : ByteOrder → ℕ
  | .little => 256
  | .big => 1

theorem halves_eq (address : UInt32) :
    halves address =
      (byte32 address 3).toNat * 256 + (byte32 address 2).toNat +
        ((byte32 address 1).toNat * 256 + (byte32 address 0).toNat) := by
  have haddress := address.toNat_lt
  simp only [halves, toNat_byte32]
  omega

/-- The bytes of an address in memory, as two words. -/
theorem wordSum_address (order : ByteOrder) (address : UInt32)
    (rest : List UInt8) :
    wordSum (nativeByte32 order address 0 :: nativeByte32 order address 1 ::
        nativeByte32 order address 2 :: nativeByte32 order address 3 :: rest) ≡
      wordScale order * halves address + wordSum rest [MOD 65535] := by
  rw [halves_eq]
  cases order <;>
    simp only [nativeByte32, wordSum, wordScale, Nat.reduceSub, Nat.sub_self] <;>
    unfold Nat.ModEq <;> omega

/-- The sum that `set_ip` complements. -/
theorem wordSum_ipHeader (order : ByteOrder) (source dest : UInt32) :
    wordSum (ipHeader order 0 source dest) ≡
      16538 + wordScale order * (halves source + halves dest) [MOD 65535] := by
  have hsource := wordSum_address order source
    [nativeByte32 order dest 0, nativeByte32 order dest 1,
      nativeByte32 order dest 2, nativeByte32 order dest 3]
  have hdest := wordSum_address order dest []
  have hstart : wordSum (ipHeader order 0 source dest) = 16538 +
      wordSum (nativeByte32 order source 0 :: nativeByte32 order source 1 ::
        nativeByte32 order source 2 :: nativeByte32 order source 3 ::
        [nativeByte32 order dest 0, nativeByte32 order dest 1,
          nativeByte32 order dest 2, nativeByte32 order dest 3]) := by
    have hzero : nativeByte16 order 0 0 = 0 ∧ nativeByte16 order 0 1 = 0 := by
      cases order <;> decide
    simp only [ipHeader, hzero, wordSum]
    simp
    omega
  rw [hstart, Nat.mul_add]
  calc
    _ ≡ 16538 + (wordScale order * halves source + _) [MOD 65535] :=
      Nat.ModEq.add_left 16538 hsource
    _ ≡ 16538 + (wordScale order * halves source +
          wordScale order * halves dest) [MOD 65535] := by
      gcongr
      exact hdest

theorem wordSum_ipHeader_mod (order : ByteOrder) (source dest : UInt32) :
    wordSum (ipHeader order 0 source dest) % 257 =
      (16538 + wordScale order * (halves source + halves dest)) % 257 :=
  (wordSum_ipHeader order source dest).of_dvd ⟨255, rfl⟩

/-- When the sum that `set_ip` complements is a multiple of 257. -/
theorem wordSum_ipHeader_little_mod_iff (source dest : UInt32) :
    wordSum (ipHeader .little 0 source dest) % 257 = 0 ↔
      (halves source + halves dest) % 257 = 90 := by
  rw [wordSum_ipHeader_mod, wordScale]
  omega

theorem wordSum_slice_u16 (order : ByteOrder) (block : Block) (start : ℕ) :
    wordSum (block.slice start 2) ≡
      wordScale order * (u16 order block start).toNat [MOD 65535] := by
  cases order <;>
    simp [Block.slice_succ, wordSum, wordScale, u16, nativeWord16,
      toNat_word16] <;> unfold Nat.ModEq <;> omega

theorem wordSum_slice_u32 (order : ByteOrder) (block : Block) (start : ℕ) :
    wordSum (block.slice start 4) ≡
      wordScale order * halves (u32 order block start) [MOD 65535] := by
  have hbyte := (u32_eq_iff order block start (u32 order block start)).mp rfl
  have hslice : block.slice start 4 =
      [nativeByte32 order (u32 order block start) 0,
        nativeByte32 order (u32 order block start) 1,
        nativeByte32 order (u32 order block start) 2,
        nativeByte32 order (u32 order block start) 3] := by
    apply Block.slice_eq
    · rfl
    · intro index hindex
      rw [hbyte index hindex]
      interval_cases index <;> rfl
  rw [hslice]
  exact wordSum_address order (u32 order block start) []

/-- The sum of a header in terms of its fields. -/
theorem wordSum_slice_header (order : ByteOrder) (block : Block) :
    wordSum (block.slice 6 20) ≡
      wordSum (block.slice 6 2) + wordScale order * (u16 order block 8).toNat +
        wordSum (block.slice 10 6) +
        wordScale order * (u16 order block 16).toNat +
        wordScale order * halves (u32 order block 18) +
        wordScale order * halves (u32 order block 22) [MOD 65535] := by
  have hsplit : block.slice 6 20 = block.slice 6 2 ++ (block.slice 8 2 ++
      (block.slice 10 6 ++ (block.slice 16 2 ++ (block.slice 18 4 ++
        block.slice 22 4)))) := by
    rw [← Block.slice_add, ← Block.slice_add, ← Block.slice_add,
      ← Block.slice_add, ← Block.slice_add]
  simp (disch := rw [Block.length_slice]) only [hsplit, wordSum_append]
  have hlen := wordSum_slice_u16 order block 8
  have hsum := wordSum_slice_u16 order block 16
  have hsource := wordSum_slice_u32 order block 18
  have hdest := wordSum_slice_u32 order block 22
  simp only [← Nat.add_assoc]
  gcongr

/-- The length field holds 148 in network order. -/
theorem CarriesHeader.ntohs_len {order : ByteOrder} {packet : Block}
    {sum : UInt16} {source dest : UInt32}
    (hcarries : CarriesHeader order packet sum source dest) :
    ntohs order (u16 order packet (6 + ipLen)) = 148 := by
  have hhigh : packet.byte (6 + ipLen) = 0 :=
    hcarries.start_eq 2 (by decide)
  have hlow : packet.byte (6 + ipLen + 1) = 148 :=
    hcarries.start_eq 3 (by decide)
  rw [u16, hhigh, hlow]
  cases order <;> rfl

/-- An address in network order contributes its halves. -/
theorem wordScale_halves_ntohl (order : ByteOrder) (address : UInt32) :
    wordScale order * halves (ntohl order address) ≡ halves address
      [MOD 65535] := by
  rw [halves_eq, halves_eq]
  cases order
  · simp only [wordScale, ntohl, byte32_word32_three, byte32_word32_two,
      byte32_word32_one, byte32_word32_zero]
    unfold Nat.ModEq
    omega
  · rw [wordScale, Nat.one_mul]
    rfl

section Swapped

variable (order : ByteOrder) (packet : Block) {own other : ℕ}
variable (hfields : AddressFields own other) (address : UInt32)

include hfields

/-- The two address fields while the checksum is taken. -/
theorem wordScale_halves_halfSwapped :
    wordScale order *
          halves (u32 order (halfSwapped order packet own other address) 18) +
        wordScale order *
          halves (u32 order (halfSwapped order packet own other address) 22) ≡
      halves address + halves (u32 order packet (6 + other)) [MOD 65535] := by
  have hown := u32_halfSwapped_own order packet hfields address
  have hother := u32_halfSwapped_other order packet hfields address
  have haddress := wordScale_halves_ntohl order address
  have hkept := wordScale_halves_ntohl order (u32 order packet (6 + other))
  rw [← hown] at haddress
  rw [← hother] at hkept
  cases hfields with
  | source => exact Nat.ModEq.add haddress hkept
  | dest =>
      rw [Nat.add_comm (halves address)]
      exact Nat.ModEq.add hkept haddress

variable {sum : UInt16} {source dest : UInt32}
variable (hcarries : CarriesHeader order packet sum source dest)

include hcarries

/-- The bytes in front of the checksum, apart from the length, stay. -/
theorem byte_halfSwapped {index : ℕ} (hindex : index < 10)
    (hlen : index ≠ 2 ∧ index ≠ 3) :
    (halfSwapped order packet own other address).byte (6 + index) =
      headerStart.getD index 0 := by
  have hdisjoint := hfields.disjoint
  have hsumOffset : ipSum = 10 := rfl
  have hlenOffset : ipLen = 2 := rfl
  rw [halfSwapped, byte_setU16, if_neg (by omega), byte_setU32,
    if_neg (by omega), byte_setU32, if_neg (by omega), byte_setU16,
    if_neg (by omega), hcarries.start_eq index hindex]

/-- The sum that a rewrite complements. -/
theorem wordSum_halfSwapped :
    wordSum ((halfSwapped order packet own other address).slice 6 20) ≡
      16390 + wordScale order * 148 +
        (halves address + halves (u32 order packet (6 + other)))
          [MOD 65535] := by
  have hbyte : ∀ index < 10, index ≠ 2 ∧ index ≠ 3 →
      (halfSwapped order packet own other address).byte (6 + index) =
        headerStart.getD index 0 :=
    fun _ => byte_halfSwapped order packet hfields address hcarries
  have hlen : u16 order (halfSwapped order packet own other address) 8 = 148 :=
    (u16_halfSwapped_len order packet hfields address).trans hcarries.ntohs_len
  have hsum : u16 order (halfSwapped order packet own other address) 16 = 0 :=
    u16_setU16 order _ (6 + ipSum) 0
  have hstart : (halfSwapped order packet own other address).slice 6 2 =
      [0x40, 0] := by
    apply Block.slice_eq
    · rfl
    · intro index hindex
      rw [hbyte index (by omega) (by omega)]
      interval_cases index <;> rfl
  have hmiddle : (halfSwapped order packet own other address).slice 10 6 =
      [0, 0, 0, 0, 0, 6] := by
    apply Block.slice_eq
    · rfl
    · intro index hindex
      rw [show 10 + index = 6 + (4 + index) by omega,
        hbyte _ (by omega) (by omega)]
      interval_cases index <;> rfl
  have haddresses := wordScale_halves_halfSwapped order packet hfields address
  have hheader := wordSum_slice_header order
    (halfSwapped order packet own other address)
  rw [hstart, hmiddle, hlen, hsum,
    show wordSum [0x40, 0] = 16384 from rfl,
    show wordSum [0, 0, 0, 0, 0, 6] = 6 from rfl,
    show (148 : UInt16).toNat = 148 from rfl,
    show (0 : UInt16).toNat = 0 from rfl, Nat.mul_zero, Nat.add_zero] at hheader
  refine hheader.trans ?_
  rw [Nat.add_assoc _ (wordScale order * _) (wordScale order * _),
    show 16384 + wordScale order * 148 + 6 = 16390 + wordScale order * 148 by
      omega]
  exact Nat.ModEq.add_left _ haddresses

/-- A rewrite gives the header the checksum that `set_ip` would give it on
big-endian hosts, and on little-endian hosts when the addresses happen to
balance the length. -/
theorem rewrittenSum_eq_builtSum_iff {left right : UInt32}
    (hhalves : halves left + halves right =
      halves address + halves (u32 order packet (6 + other))) :
    rewrittenSum order packet own other address = builtSum order left right ↔
      order = .big ∨ (halves left + halves right) % 257 = 148 := by
  rw [rewrittenSum, builtSum, checksum_eq_iff]
  have hrewritten := wordSum_halfSwapped order packet hfields address hcarries
  have hbuilt := wordSum_ipHeader order left right
  rw [← hhalves] at hrewritten
  have hiff : ∀ {a b c d : ℕ}, a ≡ c [MOD 65535] → b ≡ d [MOD 65535] →
      (a ≡ b [MOD 65535] ↔ c ≡ d [MOD 65535]) := by
    intro a b c d hac hbd
    exact ⟨fun h => (hac.symm.trans h).trans hbd,
      fun h => (hac.trans h).trans hbd.symm⟩
  rw [hiff hrewritten hbuilt]
  unfold Nat.ModEq
  cases order <;>
    simp only [wordScale, reduceCtorEq, false_or, true_or, iff_true] <;> omega

end Swapped

/-- The packet after `set_ip` wrote its header into zeroed memory. -/
def headerPacket (order : ByteOrder) (around : Surroundings)
    (source dest : DottedQuad) : Block :=
  (setIp order (calloc around encapsulatedSize) (getIpHdr 0) dest.text source.text
    ipProtocolTcp (UInt8.ofNat maxPayloadSize)).value

/-- The header `set_ip` writes for two addresses. -/
def writtenHeader (order : ByteOrder) (around : Surroundings)
    (source dest : DottedQuad) : List UInt8 :=
  (headerPacket order around source dest).slice 6 20

theorem writtenHeader_eq (order : ByteOrder) (around : Surroundings)
    (source dest : DottedQuad) :
    writtenHeader order around source dest =
      ipHeader order (builtSum order source.address dest.address) source.address
        dest.address := by
  apply Block.slice_eq
  · rfl
  · intro index hindex
    have hzero : ∀ other, 6 ≤ other → other < 26 →
        (calloc around encapsulatedSize).byte other = 0 := by
      intro other _ hother
      exact byte_calloc around (hother.trans (by decide))
    rw [headerPacket, byte_setIp order _ _ _ hzero, if_pos (by omega),
      Nat.add_sub_cancel_left, parseIpAddr_text, parseIpAddr_text]

section Agreement

variable (order : ByteOrder) (around : Surroundings)
variable (client server dest : DottedQuad)

/-- The rewrite of a request, against the header built for server and
destination. -/
theorem servHandlePkt_eq_writtenHeader_iff {request : Block}
    (hrequest : request.slice 6 20 = writtenHeader order around client dest) :
    (servHandlePkt order request server.text).value.1.slice 6 20 =
        writtenHeader order around server dest ↔
      order = .big ∨
        (halves server.address + halves dest.address) % 257 = 148 := by
  rw [writtenHeader_eq, ← carriesHeader_iff] at hrequest
  have hrewritten := hrequest.servHandlePkt order request server.text
  rw [carriesHeader_iff, parseIpAddr_text] at hrewritten
  have hkept : u32 order request (6 + ipDst) = dest.address := hrequest.dest_eq
  rw [hrewritten, writtenHeader_eq, ipHeader_inj_sum,
    rewrittenSum_eq_builtSum_iff order request .source _ hrequest (by rw [hkept])]

/-- The rewrite of a response, against the header built for destination and
client. -/
theorem servHandlePktDest_eq_writtenHeader_iff {reply : Block}
    (hreply : reply.slice 6 20 = writtenHeader order around dest server) :
    (servHandlePktDest order reply client.text).value.1.slice 6 20 =
        writtenHeader order around dest client ↔
      order = .big ∨
        (halves dest.address + halves client.address) % 257 = 148 := by
  rw [writtenHeader_eq, ← carriesHeader_iff] at hreply
  have hrewritten := hreply.servHandlePktDest order reply client.text
  rw [carriesHeader_iff, parseIpAddr_text] at hrewritten
  have hkept : u32 order reply (6 + ipSrc) = dest.address := hreply.source_eq
  rw [hrewritten, writtenHeader_eq, ipHeader_inj_sum,
    rewrittenSum_eq_builtSum_iff order reply .dest _ hreply (by
      rw [hkept, Nat.add_comm])]

/-- Both rewrites give the header that `set_ip` would write on a big-endian
host; on a little-endian host they do so exactly when the halves of the
addresses balance the length. -/
theorem rewrites_eq_writtenHeader_iff {request reply : Block}
    (hrequest : request.slice 6 20 = writtenHeader order around client dest)
    (hreply : reply.slice 6 20 = writtenHeader order around dest server) :
    ((servHandlePkt order request server.text).value.1.slice 6 20 =
        writtenHeader order around server dest ∧
      (servHandlePktDest order reply client.text).value.1.slice 6 20 =
        writtenHeader order around dest client) ↔
      order = .big ∨
        ((halves server.address + halves dest.address) % 257 = 148 ∧
          (halves dest.address + halves client.address) % 257 = 148) := by
  rw [servHandlePkt_eq_writtenHeader_iff order around client server dest hrequest,
    servHandlePktDest_eq_writtenHeader_iff order around client server dest hreply,
    or_and_left]

end Agreement

/-- The first three hosts on a little-endian machine. -/
theorem rewrites_eq_writtenHeader_iff_hosts :
    ((servHandlePkt .little (headerPacket .little (Heap.zeros 0) h1 h3)
        h2.text).value.1.slice 6 20 =
          writtenHeader .little (Heap.zeros 0) h2 h3 ∧
      (servHandlePktDest .little (headerPacket .little (Heap.zeros 0) h3 h2)
        h1.text).value.1.slice 6 20 =
          writtenHeader .little (Heap.zeros 0) h3 h1) ↔
      ByteOrder.little = .big ∨
        ((halves h2.address + halves h3.address) % 257 = 148 ∧
          (halves h3.address + halves h1.address) % 257 = 148) :=
  rewrites_eq_writtenHeader_iff .little (Heap.zeros 0) h1 h2 h3 rfl rfl

/-- For these hosts the rewritten header differs from the built one. -/
theorem servHandlePkt_ne_writtenHeader_hosts :
    (servHandlePkt .little (headerPacket .little (Heap.zeros 0) h1 h3)
      h2.text).value.1.slice 6 20 ≠
        writtenHeader .little (Heap.zeros 0) h2 h3 := by
  rw [Ne, servHandlePkt_eq_writtenHeader_iff .little (Heap.zeros 0) h1 h2 h3 rfl,
    address_h2, address_h3]
  decide

end SimpleVpn.HeaderSums
