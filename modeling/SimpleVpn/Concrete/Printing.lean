import SimpleVpn.Algebra.Lines
import SimpleVpn.Concrete.Packet

/-!
# What the programs print of a packet (`packet.c`)

The printing functions read a packet and write its fields line by line, and its
payload up to the first zero.  Every field has a line of its own, so that the text
tells two packets apart exactly when they differ in something that is shown.  The
fields that nothing but these functions reads have their offsets here.
-/

namespace SimpleVpn.Printing

open SimpleVpn.TracedMemory SimpleVpn.HostWords SimpleVpn.CStrings
open SimpleVpn.Decimal SimpleVpn.Lines SimpleVpn.HostInfo SimpleVpn.Protocol
open SimpleVpn.Packet

def ipTos : ℕ := 1

def ipId : ℕ := 4

def ipOff : ℕ := 6

def ipTtl : ℕ := 8

def tcpSeqNum : ℕ := 4

def tcpAckNum : ℕ := 8

/-- The byte that holds the bit field `data_offset`. -/
def tcpDataOffset : ℕ := 12

def tcpWindow : ℕ := 14

def tcpUrgentPointer : ℕ := 18

/-- The bit field `data_offset : 4`; bit fields grow upwards on a little-endian host
and downwards on a big-endian one. -/
def dataOffset : ByteOrder → UInt8 → UInt8
  | .little, byte => byte &&& 0x0f
  | .big, byte => byte >>> (4 : UInt8)

/-- The line between the parts of a packet. -/
def rule : List UInt8 := chars "------------------------------------"

/-- `printf` of a label and an `int`. -/
def numberLine (label : String) (value : ℤ) : List UInt8 :=
  chars label ++ signedText value

/-- `printf` of a label and a string. -/
def stringLine (label : String) (string : List UInt8) : List UInt8 :=
  chars label ++ string

def printGreHeader (order : ByteOrder) (block : Block) (packet : ℕ) :
    Traced (List UInt8) := do
  let greHeader := getGreHdr packet
  let c ← loadU16 order block (greHeader + greC)
  let protocol ← loadU16 order block (greHeader + greProtocol)
  let sum ← loadU16 order block (greHeader + greSum)
  pure (text [rule, chars "[ GRE header ]", numberLine "c:\t" c.toNat,
    numberLine "protocol:\t" protocol.toNat, numberLine "gre_sum:\t" sum.toNat])

/-- The part that `print_ip_header` and `print_packet_unencap` have in common.  The
text of an address fits the buffers that both allocate for it. -/
def printIpFields (order : ByteOrder) (block : Block) (ipHeader : ℕ) :
    Traced (List UInt8) := do
  let src ← loadU32 order block (ipHeader + ipSrc)
  let dst ← loadU32 order block (ipHeader + ipDst)
  let tos ← load block (ipHeader + ipTos)
  let len ← loadU16 order block (ipHeader + ipLen)
  let id ← loadU16 order block (ipHeader + ipId)
  let off ← loadU16 order block (ipHeader + ipOff)
  let ttl ← load block (ipHeader + ipTtl)
  let protocol ← load block (ipHeader + ipP)
  let sum ← loadU16 order block (ipHeader + ipSum)
  pure (text [rule, chars "[ IP header ]", numberLine "ip_tos: " tos.toNat,
    numberLine "ip_len: " len.toNat, numberLine "ip_id: " id.toNat,
    numberLine "ip_off: " off.toNat, numberLine "ip_ttl: " ttl.toNat,
    numberLine "ip_p: " protocol.toNat, numberLine "ip_sum: " sum.toNat,
    stringLine "ip_src: " (parseIpAddrToStr src),
    stringLine "ip_dst: " (parseIpAddrToStr dst)])

def printIpHeader (order : ByteOrder) (block : Block) (packet : ℕ) :
    Traced (List UInt8) :=
  printIpFields order block (getIpHdr packet)

/-- The part that `print_tcp_header` and `print_packet_unencap` have in common.
`%d` takes the two `uint32_t` fields for `int`. -/
def printTcpFields (order : ByteOrder) (block : Block) (tcpHeader : ℕ) :
    Traced (List UInt8) := do
  let srcPort ← loadU16 order block (tcpHeader + tcpSrcPort)
  let dstPort ← loadU16 order block (tcpHeader + tcpDstPort)
  let seqNum ← loadU32 order block (tcpHeader + tcpSeqNum)
  let ackNum ← loadU32 order block (tcpHeader + tcpAckNum)
  let offsetByte ← load block (tcpHeader + tcpDataOffset)
  let flags ← load block (tcpHeader + tcpFlags)
  let window ← loadU16 order block (tcpHeader + tcpWindow)
  let sum ← loadU16 order block (tcpHeader + tcpSum)
  let urgentPointer ← loadU16 order block (tcpHeader + tcpUrgentPointer)
  pure (text [rule, chars "[ TCP header ]",
    numberLine "src_port: " srcPort.toNat, numberLine "dst_port: " dstPort.toNat,
    numberLine "seq_num: " (toInt32 seqNum.toNat),
    numberLine "ack_num: " (toInt32 ackNum.toNat),
    numberLine "data_offset: " (dataOffset order offsetByte).toNat,
    numberLine "flags: " flags.toNat, numberLine "window: " window.toNat,
    numberLine "tcp_sum: " sum.toNat,
    numberLine "urgent_pointer: " urgentPointer.toNat])

def printTcpHeader (order : ByteOrder) (block : Block) (packet : ℕ) :
    Traced (List UInt8) :=
  printTcpFields order block (getTcpHdr packet)

/-- The part that `print_payload` and `print_packet_unencap` have in common. -/
def printPayloadFrom (block : Block) (payload : ℕ) : Traced (List UInt8) := do
  let length ← strlen block payload
  let string ← loadBytes block payload length
  pure (text [rule, stringLine "Payload msg: " string])

def printPayload (block : Block) (packet : ℕ) : Traced (List UInt8) :=
  printPayloadFrom block (getPayload packet)

def printPacket (order : ByteOrder) (block : Block) (packetStart : ℕ) :
    Traced (List UInt8) := do
  let gre ← printGreHeader order block packetStart
  let ip ← printIpHeader order block packetStart
  let tcp ← printTcpHeader order block packetStart
  let payload ← printPayload block packetStart
  pure (gre ++ ip ++ tcp ++ payload)

def printPacketUnencap (order : ByteOrder) (block : Block) (packetStart : ℕ) :
    Traced (List UInt8) := do
  let ip ← printIpFields order block packetStart
  let tcp ← printTcpFields order block (packetStart + sizeofIpHdr)
  let payload ← printPayloadFrom block (packetStart + sizeofIpHdr + sizeofTcpHdr)
  pure (ip ++ tcp ++ payload)

section Bounds

variable (order : ByteOrder) (block : Block) (start : ℕ)

theorem inBounds_printGreHeader :
    (printGreHeader order block start).InBounds ↔ start + 5 < block.size := by
  simp only [printGreHeader, Traced.inBounds_bind, inBounds_loadU16,
    Traced.inBounds_pure, and_true, getGreHdr, greC, greProtocol, greSum]
  omega

theorem inBounds_printIpFields :
    (printIpFields order block start).InBounds ↔ start + 19 < block.size := by
  simp only [printIpFields, Traced.inBounds_bind, inBounds_loadU16,
    inBounds_loadU32, inBounds_load, Traced.inBounds_pure, and_true, ipSrc, ipDst,
    ipTos, ipLen, ipId, ipOff, ipTtl, ipP, ipSum]
  omega

theorem inBounds_printTcpFields :
    (printTcpFields order block start).InBounds ↔ start + 19 < block.size := by
  simp only [printTcpFields, Traced.inBounds_bind, inBounds_loadU16,
    inBounds_loadU32, inBounds_load, Traced.inBounds_pure, and_true, tcpSrcPort,
    tcpDstPort, tcpSeqNum, tcpAckNum, tcpDataOffset, tcpFlags, tcpWindow, tcpSum,
    tcpUrgentPointer]
  omega

/-- Printing a string reads up to its first zero. -/
theorem inBounds_printPayloadFrom (hstart : start ≤ block.size) :
    (printPayloadFrom block start).InBounds ↔
      ∃ offset, start + offset < block.size ∧
        block.byte (start + offset) = 0 := by
  rw [printPayloadFrom, Traced.inBounds_bind, strlen_inBounds_iff hstart]
  refine and_iff_left_of_imp ?_
  rintro ⟨offset, hinside, hzero⟩
  obtain ⟨first, hle, hfirst⟩ := exists_firstZero hzero
  rw [strlen_of_firstZero hfirst (by omega), Traced.inBounds_bind,
    inBounds_loadBytes]
  exact ⟨fun index hindex => by omega, Traced.inBounds_pure _⟩

end Bounds

section Lines

variable (order : ByteOrder) (block : Block) (start : ℕ)

def greLines : List (List UInt8) :=
  [rule, chars "[ GRE header ]",
    numberLine "c:\t" (u16 order block (start + greC)).toNat,
    numberLine "protocol:\t" (u16 order block (start + greProtocol)).toNat,
    numberLine "gre_sum:\t" (u16 order block (start + greSum)).toNat]

def ipLines : List (List UInt8) :=
  [rule, chars "[ IP header ]",
    numberLine "ip_tos: " (block.byte (start + ipTos)).toNat,
    numberLine "ip_len: " (u16 order block (start + ipLen)).toNat,
    numberLine "ip_id: " (u16 order block (start + ipId)).toNat,
    numberLine "ip_off: " (u16 order block (start + ipOff)).toNat,
    numberLine "ip_ttl: " (block.byte (start + ipTtl)).toNat,
    numberLine "ip_p: " (block.byte (start + ipP)).toNat,
    numberLine "ip_sum: " (u16 order block (start + ipSum)).toNat,
    stringLine "ip_src: " (parseIpAddrToStr (u32 order block (start + ipSrc))),
    stringLine "ip_dst: " (parseIpAddrToStr (u32 order block (start + ipDst)))]

def tcpLines : List (List UInt8) :=
  [rule, chars "[ TCP header ]",
    numberLine "src_port: " (u16 order block (start + tcpSrcPort)).toNat,
    numberLine "dst_port: " (u16 order block (start + tcpDstPort)).toNat,
    numberLine "seq_num: " (toInt32 (u32 order block (start + tcpSeqNum)).toNat),
    numberLine "ack_num: " (toInt32 (u32 order block (start + tcpAckNum)).toNat),
    numberLine "data_offset: "
      (dataOffset order (block.byte (start + tcpDataOffset))).toNat,
    numberLine "flags: " (block.byte (start + tcpFlags)).toNat,
    numberLine "window: " (u16 order block (start + tcpWindow)).toNat,
    numberLine "tcp_sum: " (u16 order block (start + tcpSum)).toNat,
    numberLine "urgent_pointer: "
      (u16 order block (start + tcpUrgentPointer)).toNat]

theorem length_greLines : (greLines order block start).length = 5 := rfl

theorem length_ipLines : (ipLines order block start).length = 11 := rfl

theorem length_tcpLines : (tcpLines order block start).length = 11 := rfl

/-- The text of a packet without its GRE header: the lines of both headers, and
last the payload, which may have newlines of its own. -/
theorem value_printPacketUnencap :
    (printPacketUnencap order block start).value =
      text (ipLines order block start) ++
        (text (tcpLines order block (start + 20)) ++
          text [rule, stringLine "Payload msg: " (stringAt block (start + 40))]) :=
  List.append_assoc _ _ _

/-- The text of a packet is that of its GRE header and of the packet behind it. -/
theorem value_printPacket :
    (printPacket order block start).value =
      text (greLines order block start) ++
        (printPacketUnencap order block (start + 6)).value := by
  rw [value_printPacketUnencap, ← List.append_assoc, ← List.append_assoc]
  rfl

end Lines

theorem newline_not_mem_signedText (value : ℤ) : newline ∉ signedText value := by
  intro hmem
  rcases mem_signedText hmem with heq | hdigit
  · exact absurd heq (by decide)
  · exact absurd hdigit (by decide)

theorem newline_not_mem_numberLine {label : String} (value : ℤ)
    (hlabel : newline ∉ chars label) : newline ∉ numberLine label value := by
  rw [numberLine, List.mem_append, not_or]
  exact ⟨hlabel, newline_not_mem_signedText value⟩

theorem newline_not_mem_addressLine {label : String} (address : UInt32)
    (hlabel : newline ∉ chars label) :
    newline ∉ stringLine label (parseIpAddrToStr address) := by
  have hdigits : ∀ value, newline ∉ decimalText value := fun value hmem =>
    absurd (isDigit_of_mem_decimalText hmem) (by decide)
  have hdot : newline ≠ dot := by decide
  simp only [stringLine, parseIpAddrToStr, List.mem_append, List.mem_cons, not_or]
  exact ⟨hlabel, hdigits _, hdot, hdigits _, hdot, hdigits _, hdot, hdigits _⟩

theorem unbroken_greLines (order : ByteOrder) (block : Block) (start : ℕ) :
    Unbroken (greLines order block start) := by
  simp only [greLines, unbroken_cons, unbroken_nil, and_true]
  refine ⟨by decide, by decide, ?_, ?_, ?_⟩
  all_goals exact newline_not_mem_numberLine _ (by decide)

theorem unbroken_ipLines (order : ByteOrder) (block : Block) (start : ℕ) :
    Unbroken (ipLines order block start) := by
  simp only [ipLines, unbroken_cons, unbroken_nil, and_true]
  refine ⟨by decide, by decide, ?_, ?_, ?_, ?_, ?_, ?_, ?_, ?_, ?_⟩
  case refine_8 | refine_9 => exact newline_not_mem_addressLine _ (by decide)
  all_goals exact newline_not_mem_numberLine _ (by decide)

theorem unbroken_tcpLines (order : ByteOrder) (block : Block) (start : ℕ) :
    Unbroken (tcpLines order block start) := by
  simp only [tcpLines, unbroken_cons, unbroken_nil, and_true]
  refine ⟨by decide, by decide, ?_, ?_, ?_, ?_, ?_, ?_, ?_, ?_, ?_⟩
  all_goals exact newline_not_mem_numberLine _ (by decide)

theorem numberLine_inj (label : String) (left right : ℤ) :
    numberLine label left = numberLine label right ↔ left = right := by
  rw [numberLine, numberLine, List.append_right_inj, signedText_injective.eq_iff]

theorem addressLine_inj (label : String) (left right : UInt32) :
    stringLine label (parseIpAddrToStr left) =
      stringLine label (parseIpAddrToStr right) ↔ left = right := by
  rw [stringLine, stringLine, List.append_right_inj,
    parseIpAddrToStr_injective.eq_iff]

theorem toInt32_inj (left right : UInt32) :
    toInt32 left.toNat = toInt32 right.toNat ↔ left = right := by
  have hleft := left.toNat_lt
  have hright := right.toNat_lt
  rw [← UInt32.toNat_inj, toInt32_eq, toInt32_eq]
  omega

theorem u8_line_inj (label : String) (left right : UInt8) :
    numberLine label left.toNat = numberLine label right.toNat ↔ left = right := by
  rw [numberLine_inj, Nat.cast_inj, UInt8.toNat_inj]

theorem u16_line_inj (label : String) (left right : UInt16) :
    numberLine label left.toNat = numberLine label right.toNat ↔ left = right := by
  rw [numberLine_inj, Nat.cast_inj, UInt16.toNat_inj]

theorem u32_line_inj (label : String) (left right : UInt32) :
    numberLine label (toInt32 left.toNat) =
      numberLine label (toInt32 right.toNat) ↔ left = right := by
  rw [numberLine_inj, toInt32_inj]

section Shown

variable (order : ByteOrder) {left right : Block} {start origin : ℕ}

theorem greLines_eq_iff :
    greLines order left start = greLines order right origin ↔
      ∀ index < 6, left.byte (start + index) = right.byte (origin + index) := by
  simp only [greLines, List.cons.injEq, u16_line_inj, u16_eq_u16_iff, greC,
    greProtocol, greSum, true_and, and_true, Nat.add_assoc, Nat.reduceAdd]
  constructor
  · intro hbyte index hindex
    interval_cases index <;> simp only [hbyte]
  · intro hbyte
    simp only [hbyte, Nat.reduceLT, and_self]

/-- All of the IP header is shown except the byte with its version and length. -/
theorem ipLines_eq_iff :
    ipLines order left start = ipLines order right origin ↔
      ∀ index < 20, index ≠ 0 →
        left.byte (start + index) = right.byte (origin + index) := by
  simp only [ipLines, List.cons.injEq, u8_line_inj, u16_line_inj, addressLine_inj,
    u16_eq_u16_iff, u32_eq_u32_iff, ipTos, ipLen, ipId, ipOff, ipTtl, ipP, ipSum,
    ipSrc, ipDst, true_and, and_true, Nat.add_assoc, Nat.reduceAdd]
  constructor
  · intro hbyte index hindex hne
    interval_cases index
    · exact absurd rfl hne
    all_goals simp only [hbyte]
  · intro hbyte
    simp [hbyte]

/-- All of the TCP header is shown except one half of the byte with the data
offset. -/
theorem tcpLines_eq_iff :
    tcpLines order left start = tcpLines order right origin ↔
      (∀ index < 20, index ≠ 12 →
        left.byte (start + index) = right.byte (origin + index)) ∧
      dataOffset order (left.byte (start + 12)) =
        dataOffset order (right.byte (origin + 12)) := by
  simp only [tcpLines, List.cons.injEq, u8_line_inj, u16_line_inj, u32_line_inj,
    u16_eq_u16_iff, u32_eq_u32_iff, tcpSrcPort, tcpDstPort, tcpSeqNum, tcpAckNum,
    tcpDataOffset, tcpFlags, tcpWindow, tcpSum, tcpUrgentPointer, true_and,
    and_true, Nat.add_assoc, Nat.reduceAdd]
  constructor
  · intro hbyte
    refine ⟨fun index hindex hne => ?_, by simp only [hbyte]⟩
    interval_cases index
    case «12» => exact absurd rfl hne
    all_goals simp only [hbyte]
  · rintro ⟨hbyte, hoffset⟩
    have hfirst : left.byte start = right.byte origin :=
      hbyte 0 (by omega) (by omega)
    simp [hbyte, hoffset, hfirst]

theorem payloadLines_eq_iff {string other : List UInt8} :
    text [rule, stringLine "Payload msg: " string] =
      text [rule, stringLine "Payload msg: " other] ↔ string = other := by
  simp [text, stringLine]

/-- The text of a packet without GRE header tells it from another one exactly when
they differ in a header, other than in the two bytes that are not shown or not
shown as a whole, or in the string of the payload. -/
theorem value_printPacketUnencap_eq_iff :
    (printPacketUnencap order left start).value =
        (printPacketUnencap order right origin).value ↔
      (∀ index < 40, index ≠ 0 → index ≠ 32 →
        left.byte (start + index) = right.byte (origin + index)) ∧
      dataOffset order (left.byte (start + 32)) =
        dataOffset order (right.byte (origin + 32)) ∧
      stringAt left (start + 40) = stringAt right (origin + 40) := by
  have hip : (ipLines order left start).length =
      (ipLines order right origin).length := by rw [length_ipLines, length_ipLines]
  have htcp : (tcpLines order left (start + 20)).length =
      (tcpLines order right (origin + 20)).length := by
    rw [length_tcpLines, length_tcpLines]
  rw [value_printPacketUnencap, value_printPacketUnencap,
    text_append_eq_iff hip (unbroken_ipLines _ _ _) (unbroken_ipLines _ _ _),
    text_append_eq_iff htcp (unbroken_tcpLines _ _ _) (unbroken_tcpLines _ _ _),
    ipLines_eq_iff, tcpLines_eq_iff, payloadLines_eq_iff]
  constructor
  · rintro ⟨hip, ⟨htcp, hoffset⟩, hstring⟩
    refine ⟨fun index hindex hfirst hlast => ?_, hoffset, hstring⟩
    by_cases hbehind : index < 20
    · exact hip index hbehind hfirst
    · obtain ⟨offset, rfl⟩ := Nat.exists_eq_add_of_le (Nat.le_of_not_lt hbehind)
      have hoffset : left.byte (start + 20 + offset) =
          right.byte (origin + 20 + offset) := htcp offset (by omega) (by omega)
      rwa [Nat.add_assoc, Nat.add_assoc] at hoffset
  · rintro ⟨hbyte, hoffset, hstring⟩
    refine ⟨fun index hindex hne => hbyte index (by omega) hne (by omega),
      ⟨fun index hindex hne => ?_, hoffset⟩, hstring⟩
    rw [Nat.add_assoc, Nat.add_assoc]
    exact hbyte (20 + index) (by omega) (by omega) (by omega)

/-- The text of a packet tells it from another one exactly when they differ in one
of the 46 bytes of its headers, other than the two that are not shown or not shown
as a whole, or in the string of the payload. -/
theorem value_printPacket_eq_iff :
    (printPacket order left start).value = (printPacket order right origin).value ↔
      (∀ index < 46, index ≠ 6 → index ≠ 38 →
        left.byte (start + index) = right.byte (origin + index)) ∧
      dataOffset order (left.byte (start + 38)) =
        dataOffset order (right.byte (origin + 38)) ∧
      stringAt left (start + 46) = stringAt right (origin + 46) := by
  have hgre : (greLines order left start).length =
      (greLines order right origin).length := by
    rw [length_greLines, length_greLines]
  rw [value_printPacket, value_printPacket,
    text_append_eq_iff hgre (unbroken_greLines _ _ _) (unbroken_greLines _ _ _),
    greLines_eq_iff, value_printPacketUnencap_eq_iff]
  constructor
  · rintro ⟨hgre, hbehind, hoffset, hstring⟩
    refine ⟨fun index hindex hip htcp => ?_, hoffset, hstring⟩
    by_cases hinside : index < 6
    · exact hgre index hinside
    · obtain ⟨offset, rfl⟩ := Nat.exists_eq_add_of_le (Nat.le_of_not_lt hinside)
      have hbyte : left.byte (start + 6 + offset) = right.byte (origin + 6 + offset) :=
        hbehind offset (by omega) (by omega) (by omega)
      rwa [Nat.add_assoc, Nat.add_assoc] at hbyte
  · rintro ⟨hbyte, hoffset, hstring⟩
    refine ⟨fun index hindex => hbyte index (by omega) (by omega) (by omega),
      fun index hindex hip htcp => ?_, hoffset, hstring⟩
    rw [Nat.add_assoc, Nat.add_assoc]
    exact hbyte (6 + index) (by omega) (by omega) (by omega)

end Shown

end SimpleVpn.Printing
