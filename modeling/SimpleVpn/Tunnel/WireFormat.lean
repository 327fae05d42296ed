import SimpleVpn.Tunnel.HeaderSums

/-!
# The IP header between hosts of different byte order

`set_ip` stores the length through `htons`, but the addresses as
`parse_ip_addr` returns them and the checksum after a second `htons`.  So a
header depends on the byte order of the host that writes it, and a host of the
other byte order reads every address reversed.
-/

namespace SimpleVpn.WireFormat

open SimpleVpn.TracedMemory SimpleVpn.HostWords SimpleVpn.OnesComplement
open SimpleVpn.HostInfo SimpleVpn.Protocol SimpleVpn.Utils SimpleVpn.Packet
open SimpleVpn.Frame SimpleVpn.HeaderSums

/-- An address whose bytes read the same in both directions. -/
def Palindromic (address : UInt32) : Prop := htonl .little address = address

instance (address : UInt32) : Decidable (Palindromic address) :=
  inferInstanceAs (Decidable (_ = _))

/-- The two halves of such an address have the same two bytes, swapped. -/
theorem halves_mod_of_palindromic {address : UInt32}
    (hpalindromic : Palindromic address) : halves address % 257 = 0 := by
  rw [Palindromic, htonl_little_eq_self_iff] at hpalindromic
  rw [halves_eq, hpalindromic.1, hpalindromic.2]
  omega

section Addresses

variable {left right : UInt16} {source dest : UInt32}

/-- Headers of both byte orders agree only on palindromic addresses and on
checksums with their bytes swapped. -/
theorem palindromic_of_ipHeader_eq
    (heq : ipHeader .little left source dest = ipHeader .big right source dest) :
    Palindromic source ∧ Palindromic dest ∧ lo16 left = hi16 right ∧
      hi16 left = lo16 right := by
  simp only [ipHeader, nativeByte16, nativeByte32, List.cons.injEq, true_and,
    if_true, Nat.one_ne_zero, if_false, Nat.sub_zero, Nat.sub_self,
    Nat.reduceSub] at heq
  obtain ⟨hlow, hhigh, hsource, hsource', -, -, hdest, hdest', -⟩ := heq
  exact ⟨(htonl_little_eq_self_iff source).mpr ⟨hsource, hsource'⟩,
    (htonl_little_eq_self_iff dest).mpr ⟨hdest, hdest'⟩, hlow, hhigh⟩

/-- On palindromic addresses both byte orders sum the same bytes. -/
theorem builtSum_eq_of_palindromic (hsource : Palindromic source)
    (hdest : Palindromic dest) :
    builtSum .little source dest = builtSum .big source dest := by
  rw [Palindromic, htonl_little_eq_self_iff] at hsource hdest
  simp only [builtSum, ipHeader, nativeByte16_zero, nativeByte32, hsource, hdest,
    Nat.sub_zero, Nat.sub_self, Nat.reduceSub]

end Addresses

variable (around : Surroundings) (source dest : DottedQuad)

/-- The two hosts never write the same header: that would take palindromic
addresses, and then both would store the same checksum in opposite orders. -/
theorem writtenHeader_little_ne_big (other : Surroundings) :
    writtenHeader .little around source dest ≠
      writtenHeader .big other source dest := by
  intro heq
  rw [writtenHeader_eq, writtenHeader_eq] at heq
  obtain ⟨hsource, hdest, hlow, hhigh⟩ := palindromic_of_ipHeader_eq heq
  rw [← builtSum_eq_of_palindromic hsource hdest] at hlow hhigh
  have hmod := (hi16_checksum_eq_lo16_iff
    (ipHeader .little 0 source.address dest.address)).mp hhigh
  rw [wordSum_ipHeader_little_mod_iff] at hmod
  have hleft := halves_mod_of_palindromic hsource
  have hright := halves_mod_of_palindromic hdest
  omega

section Receiver

variable (sender receiver : ByteOrder)

theorem u32_writtenHeader_src :
    u32 receiver (ofBytes (writtenHeader sender around source dest)) ipSrc =
      if sender = receiver then source.address
      else htonl .little source.address := by
  apply u32_of_nativeByte32
  intro index hindex
  rw [byte_ofBytes, writtenHeader_eq, ipSrc]
  interval_cases index <;> rfl

theorem u32_writtenHeader_dst :
    u32 receiver (ofBytes (writtenHeader sender around source dest)) ipDst =
      if sender = receiver then dest.address
      else htonl .little dest.address := by
  apply u32_of_nativeByte32
  intro index hindex
  rw [byte_ofBytes, writtenHeader_eq, ipDst]
  interval_cases index <;> rfl

/-- The receiver's address fields hold what the sender gave. -/
def ReadsAddresses : Prop :=
  let header := ofBytes (writtenHeader sender around source dest)
  u32 receiver header ipSrc = source.address ∧
    u32 receiver header ipDst = dest.address

theorem readsAddresses_iff :
    ReadsAddresses around source dest sender receiver ↔
      sender = receiver ∨
        (Palindromic source.address ∧ Palindromic dest.address) := by
  rw [ReadsAddresses, u32_writtenHeader_src, u32_writtenHeader_dst]
  split
  next hsame => simp only [hsame, true_or, and_self]
  next hdiffer => simp only [hdiffer, false_or, Palindromic]

end Receiver

/-- For no addresses is the header the same on both hosts, and between hosts of
different byte order the addresses arrive only when both are palindromic. -/
theorem wireFormat (other : Surroundings) :
    writtenHeader .little around source dest ≠
        writtenHeader .big other source dest ∧
      ∀ sender receiver,
        ReadsAddresses around source dest sender receiver ↔
          sender = receiver ∨
            (Palindromic source.address ∧ Palindromic dest.address) :=
  ⟨writtenHeader_little_ne_big around source dest other,
    readsAddresses_iff around source dest⟩

/-- A big-endian server does not find the addresses of the request that a
little-endian client sends. -/
theorem not_readsAddresses_hosts :
    writtenHeader .little (Heap.zeros 0) h1 h3 ≠
        writtenHeader .big (Heap.zeros 0) h1 h3 ∧
      ¬ ReadsAddresses (Heap.zeros 0) h1 h3 .little .big := by
  refine ⟨writtenHeader_little_ne_big (Heap.zeros 0) h1 h3 (Heap.zeros 0), ?_⟩
  rw [readsAddresses_iff, address_h1, address_h3]
  decide

end SimpleVpn.WireFormat
