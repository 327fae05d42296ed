import SimpleVpn.Core.CStrings
import SimpleVpn.Core.Loops
import SimpleVpn.Concrete.HostInfo

/-!
# The loops of `parse_ip_addr` in memory

The two nested loops share one cursor into a buffer that holds a string and its
terminator.  Round by round the cursor stays on the string or its terminator,
and on a valid quad the octet being read never exceeds 255.  A canonical quad is
what `parse_ip_addr_to_str` prints for the address it denotes.
-/

namespace SimpleVpn.AddressScan

open StateTransition
open SimpleVpn.TracedMemory SimpleVpn.HostWords SimpleVpn.CStrings
open SimpleVpn.Loops SimpleVpn.Decimal SimpleVpn.HostInfo

/-- The variables of `parse_ip_addr`. -/
structure ScanState where
  i : ℕ
  octet : ℤ
  val : UInt32
  start : ℕ

/-- The variables before the first round. -/
def scanStart (ip : ℕ) : ScanState := ⟨0, 0, 0, ip⟩

/-- `octet = octet * 10 + (*start++ - '0')`. -/
def ScanState.push (state : ScanState) (char : UInt8) : ScanState :=
  { state with
    octet := state.octet * 10 + (charValue char - 48)
    start := state.start + 1 }

/-- The end of a group: the dot is skipped, the octet packed and reset. -/
def ScanState.endGroup (state : ScanState) (char : UInt8) : ScanState where
  i := state.i + 1
  octet := 0
  val := (state.val <<< 8) ||| UInt32.ofInt state.octet
  start := if char = dot then state.start + 1 else state.start

theorem ScanState.le_start_endGroup (state : ScanState) (char : UInt8) :
    state.start ≤ (state.endGroup char).start := by
  rw [endGroup]
  split
  next => exact Nat.le_succ state.start
  next => exact le_rfl

/-- One round of the inner loop, or what follows it in the outer one. -/
def scanRound (block : Block) (state : ScanState) : Option ScanState :=
  if state.i < 4 then
    let char := block.byte state.start
    if char ≠ dot ∧ char ≠ 0 then some (state.push char)
    else some (state.endGroup char)
  else none

/-- The cursor is on the string, with `rest` still to read. -/
structure Position (ip : ℕ) (chars : List UInt8) (state : ScanState)
    (rest : List UInt8) : Prop where
  suffix : rest <:+ chars
  start_eq : state.start + rest.length = ip + chars.length

theorem Position.scanStart (ip : ℕ) (chars : List UInt8) :
    Position ip chars (scanStart ip) chars := ⟨List.suffix_rfl, rfl⟩

/-- The cursor never moves past the terminator. -/
theorem Position.bounds {ip : ℕ} {chars rest : List UInt8} {state : ScanState}
    (hposition : Position ip chars state rest) :
    ip ≤ state.start ∧ state.start ≤ ip + chars.length := by
  have hlength := hposition.suffix.length_le
  have hstart := hposition.start_eq
  omega

/-- What one round does: it reads a character of a group, skips the dot after
it, or stays at the terminator. -/
inductive Round (before : ScanState) : ScanState → List UInt8 → List UInt8 → Prop
  | char (char : UInt8) (rest : List UInt8) (hdot : char ≠ dot) :
      Round before (before.push char) (char :: rest) rest
  | dot (rest : List UInt8) :
      Round before (before.endGroup dot) (dot :: rest) rest
  | terminator : Round before (before.endGroup 0) [] []

theorem Position.round {block : Block} {ip : ℕ} {chars rest : List UInt8}
    {before after : ScanState} (hholds : HoldsString block ip chars)
    (hposition : Position ip chars before rest)
    (hround : scanRound block before = some after) :
    before.i < 4 ∧ ∃ left, Round before after rest left ∧
      Position ip chars after left := by
  have hstart := hposition.start_eq
  unfold scanRound at hround
  split at hround
  next hi =>
    refine ⟨hi, ?_⟩
    cases rest with
    | nil =>
        have hbyte : block.byte before.start = 0 := by
          rw [show before.start = ip + chars.length from hstart]
          exact hholds.firstZero.zero
        rw [hbyte, if_neg (by simp)] at hround
        obtain rfl := Option.some.inj hround
        exact ⟨[], .terminator, List.nil_suffix, hstart⟩
    | cons char rest =>
        obtain ⟨hbyte, hzero⟩ := hholds.byte_of_suffix hposition.suffix hstart
        have htail : rest <:+ chars :=
          (List.suffix_cons char rest).trans hposition.suffix
        rw [List.length_cons] at hstart
        rw [hbyte] at hround
        by_cases hdot : char = dot
        · subst hdot
          rw [if_neg (by simp)] at hround
          obtain rfl := Option.some.inj hround
          refine ⟨rest, .dot rest, htail, ?_⟩
          rw [ScanState.endGroup, if_pos rfl, ← hstart]
          exact Nat.add_right_comm _ _ _
        · rw [if_pos ⟨hdot, hzero⟩] at hround
          obtain rfl := Option.some.inj hround
          refine ⟨rest, .char char rest hdot, htail, ?_⟩
          rw [ScanState.push, ← hstart]
          exact Nat.add_right_comm _ _ _
  next => cases hround

/-- What `parse_ip_addr` returns from a given state, with `rest` still to read.
-/
def valueFrom (state : ScanState) (rest : List UInt8) : UInt32 :=
  if state.i < 4 then
    let (octet, left) := scanOctet rest state.octet
    parseOctets (3 - state.i) ((state.val <<< 8) ||| UInt32.ofInt octet)
      (skipDot left)
  else state.val

/-- Between two groups the outer loop goes on with the rest. -/
theorem valueFrom_of_octet_zero {state : ScanState} (rest : List UInt8)
    (hoctet : state.octet = 0) (hi : state.i ≤ 4) :
    valueFrom state rest = parseOctets (4 - state.i) state.val rest := by
  rw [valueFrom, hoctet]
  split
  next hlt =>
    rw [show 4 - state.i = (3 - state.i) + 1 by omega, parseOctets]
  next hge =>
    rw [show 4 - state.i = 0 by omega, parseOctets]

/-- A round does not change what the function returns. -/
theorem Round.valueFrom_eq {before after : ScanState} {rest left : List UInt8}
    (hround : Round before after rest left) (hi : before.i < 4) :
    valueFrom after left = valueFrom before rest := by
  have hend : ∀ char left, valueFrom (before.endGroup char) left =
      parseOctets (3 - before.i)
        ((before.val <<< 8) ||| UInt32.ofInt before.octet) left := by
    intro char left
    rw [valueFrom_of_octet_zero left rfl (by exact hi)]
    exact congrArg (fun count => parseOctets count _ left)
      (show 4 - (before.i + 1) = 3 - before.i by omega)
  cases hround with
  | char char rest hdot =>
      simp only [valueFrom, ScanState.push, hi, scanOctet, if_neg hdot]
  | dot rest =>
      rw [hend, valueFrom, if_pos hi]
      simp only [scanOctet, skipDot, if_true]
  | terminator =>
      rw [hend, valueFrom, if_pos hi]
      rfl

/-- The states of a scan: some of the string is left to read, and reading it
gives the value of the whole string. -/
structure Scanning (ip : ℕ) (chars : List UInt8) (state : ScanState)
    (rest : List UInt8) : Prop extends Position ip chars state rest where
  i_le : state.i ≤ 4
  value_eq : valueFrom state rest = parseIpAddr chars

theorem Scanning.scanStart (ip : ℕ) (chars : List UInt8) :
    Scanning ip chars (scanStart ip) chars where
  toPosition := .scanStart ip chars
  i_le := Nat.zero_le 4
  value_eq := valueFrom_of_octet_zero chars rfl (Nat.zero_le 4)

theorem Scanning.round {block : Block} {ip : ℕ} {chars rest : List UInt8}
    {before after : ScanState} (hholds : HoldsString block ip chars)
    (hscanning : Scanning ip chars before rest)
    (hround : scanRound block before = some after) :
    ∃ left, Round before after rest left ∧ Scanning ip chars after left := by
  obtain ⟨hi, left, hleft, hposition⟩ :=
    hscanning.toPosition.round hholds hround
  refine ⟨left, hleft, hposition, ?_, ?_⟩
  · cases hleft with
    | char => exact hscanning.i_le
    | dot => exact hi
    | terminator => exact hi
  · rw [hleft.valueFrom_eq hi, hscanning.value_eq]

/-- How much of a scan is left: groups and characters. -/
def scanLeft (ip : ℕ) (chars : List UInt8) (state : ScanState) : ℕ :=
  (4 - state.i) + (ip + chars.length - state.start)

theorem Round.scanLeft_lt {ip : ℕ} {chars rest left : List UInt8}
    {before after : ScanState} (hround : Round before after rest left)
    (hi : before.i < 4) (hbefore : Position ip chars before rest) :
    scanLeft ip chars after < scanLeft ip chars before := by
  have hstart := hbefore.start_eq
  cases hround with
  | char char rest _ =>
      rw [List.length_cons] at hstart
      simp only [scanLeft, ScanState.push]
      omega
  | dot rest =>
      have hle := before.le_start_endGroup HostInfo.dot
      change 4 - (before.i + 1) + _ < 4 - before.i + _
      omega
  | terminator =>
      have hle := before.le_start_endGroup 0
      change 4 - (before.i + 1) + _ < 4 - before.i + _
      omega

/-- On every string in memory the loops end with the value of the string. -/
theorem exists_mem_eval_scanRound {block : Block} {ip : ℕ} {chars : List UInt8}
    (hholds : HoldsString block ip chars) :
    ∃ final ∈ eval (scanRound block) (scanStart ip),
      final.val = parseIpAddr chars := by
  obtain ⟨final, hfinal, rest, hscanning⟩ := exists_mem_eval
    (fun state => ∃ rest, Scanning ip chars state rest) (scanLeft ip chars) (by
      rintro before after ⟨rest, hscanning⟩ hround
      obtain ⟨hi, -⟩ := hscanning.toPosition.round hholds hround
      obtain ⟨left, hleft, hafter⟩ := hscanning.round hholds hround
      exact ⟨⟨left, hafter⟩, hleft.scanLeft_lt hi hscanning.toPosition⟩)
    ⟨chars, Scanning.scanStart ip chars⟩
  refine ⟨final, hfinal, ?_⟩
  have hstop : scanRound block final = none := (mem_eval.mp hfinal).2
  have hi : ¬ final.i < 4 := by
    intro hi
    rw [scanRound, if_pos hi] at hstop
    simp only at hstop
    split at hstop <;> cases hstop
  rw [← hscanning.value_eq, valueFrom, if_neg hi]

/-- The text of the groups after the first. -/
def laterGroups : List Octet → List UInt8
  | [] => []
  | octet :: groups => dot :: (octet.digits ++ laterGroups groups)

/-- The state within the groups that are left: some digits of the first of them
are read. -/
inductive InGroups (state : ScanState) : List UInt8 → List Octet → Prop
  | reading (group : Octet) (groups : List Octet) (read left : List UInt8)
      (hdigits : group.digits = read ++ left)
      (hoctet : state.octet = decimalValue read) :
      InGroups state (left ++ laterGroups groups) (group :: groups)
  | done (hoctet : state.octet = 0) : InGroups state [] []

/-- The octet never exceeds 255. -/
theorem InGroups.octet_bounds {state : ScanState} {rest : List UInt8}
    {groups : List Octet} (hgroups : InGroups state rest groups) :
    0 ≤ state.octet ∧ state.octet ≤ 255 := by
  cases hgroups with
  | reading group groups read left hdigits hoctet =>
      have hle := decimalValue_le_append read left
      have hvalue := group.value_le
      rw [hdigits] at hvalue
      omega
  | done hoctet => omega

/-- A round reads the next digit of the group, or goes on to the next group. -/
theorem InGroups.round {before after : ScanState} {rest left : List UInt8}
    {groups : List Octet} (hgroups : InGroups before rest groups)
    (hround : Round before after rest left) :
    ∃ later, InGroups after left later := by
  cases hgroups with
  | reading group groups read more hdigits hoctet =>
      cases more with
      | cons next more =>
          have hdigit : IsDigit next :=
            group.isDigit next (by simp [hdigits])
          rw [List.cons_append] at hround
          cases hround with
          | char _ _ _ =>
              refine ⟨group :: groups,
                .reading group groups (read ++ [next]) more (by simp [hdigits]) ?_⟩
              rw [ScanState.push, decimalValue_append_singleton, pushDigit, hoctet,
                charValue_of_isDigit hdigit]
              push_cast
              ring
          | dot _ => exact absurd hdigit dot_not_isDigit
      | nil =>
          cases groups with
          | nil =>
              cases hround
              exact ⟨[], .done rfl⟩
          | cons group groups =>
              rw [List.nil_append, laterGroups] at hround
              cases hround with
              | char _ _ hdot => exact absurd rfl hdot
              | dot _ =>
                  exact ⟨group :: groups,
                    .reading group groups [] group.digits rfl rfl⟩
  | done hoctet =>
      cases hround
      exact ⟨[], .done rfl⟩

theorem text_eq_laterGroups (quad : DottedQuad) :
    quad.text = quad.first.digits ++
      laterGroups [quad.second, quad.third, quad.fourth] := by
  simp [DottedQuad.text, laterGroups]

/-- In every round on a valid quad the octet fits a byte and the cursor is on
the string or its terminator. -/
theorem bounds_of_reaches {block : Block} {ip : ℕ} (quad : DottedQuad)
    (hholds : HoldsString block ip quad.text) {state : ScanState}
    (hreach : Reaches (scanRound block) (scanStart ip) state) :
    (0 ≤ state.octet ∧ state.octet ≤ 255) ∧
      ip ≤ state.start ∧ state.start ≤ ip + quad.text.length := by
  obtain ⟨rest, groups, hposition, hgroups⟩ := invariant_of_reaches
    (fun state => ∃ rest groups, Position ip quad.text state rest ∧
      InGroups state rest groups) hreach
    ⟨quad.text, [quad.first, quad.second, quad.third, quad.fourth],
      Position.scanStart ip quad.text, by
        rw [text_eq_laterGroups]
        exact .reading quad.first _ [] quad.first.digits rfl rfl⟩
    (by
      rintro before after ⟨rest, groups, hposition, hgroups⟩ hround
      obtain ⟨-, left, hleft, hafter⟩ := hposition.round hholds hround
      obtain ⟨later, hlater⟩ := hgroups.round hleft
      exact ⟨left, later, hafter, hlater⟩)
  exact ⟨hgroups.octet_bounds, hposition.bounds⟩

/-- `parse_ip_addr_to_str`: the string and its terminator, written to a buffer.
-/
def writeIpAddr (strIpAddr : Block) (ipAddr : UInt32) : Traced Block :=
  storeString strIpAddr 0 (parseIpAddrToStr ipAddr)

/-- No group of the quad has a leading zero. -/
def Canonical (quad : DottedQuad) : Prop :=
  NoLeadingZero quad.first.digits ∧ NoLeadingZero quad.second.digits ∧
    NoLeadingZero quad.third.digits ∧ NoLeadingZero quad.fourth.digits

theorem nulFree_text (quad : DottedQuad) : (0 : UInt8) ∉ quad.text := by
  have hnot : ∀ octet : Octet, (0 : UInt8) ∉ octet.digits :=
    fun octet hmem => absurd (octet.isDigit 0 hmem) (by decide)
  simp [DottedQuad.text, hnot, dot]

/-- A printed address takes at most 15 characters. -/
theorem length_parseIpAddrToStr_le (ipAddr : UInt32) :
    (parseIpAddrToStr ipAddr).length ≤ 15 := by
  have hgroup : ∀ byte : UInt8, (Octet.ofByte byte).digits.length ≤ 3 :=
    fun byte => length_decimalText_le (by decide)
      (byte.toNat_lt.trans (by decide))
  have hfirst := hgroup (byte32 ipAddr 3)
  have hsecond := hgroup (byte32 ipAddr 2)
  have hthird := hgroup (byte32 ipAddr 1)
  have hfourth := hgroup (byte32 ipAddr 0)
  rw [parseIpAddrToStr_eq, DottedQuad.text]
  simp only [DottedQuad.ofAddress, List.length_append, List.length_cons]
  omega

theorem ofByte_byte {octet : Octet} (hcanonical : NoLeadingZero octet.digits) :
    (Octet.ofByte octet.byte).digits = octet.digits := by
  change decimalText octet.byte.toNat = octet.digits
  rw [octet.toNat_byte]
  exact decimalText_decimalValue octet.digits_ne_nil octet.isDigit hcanonical

/-- A canonical quad is what is printed for its address. -/
theorem parseIpAddrToStr_text {quad : DottedQuad} (hcanonical : Canonical quad) :
    parseIpAddrToStr (parseIpAddr quad.text) = quad.text := by
  obtain ⟨hfirst, hsecond, hthird, hfourth⟩ := hcanonical
  rw [parseIpAddrToStr_eq, parseIpAddr_text, DottedQuad.text, DottedQuad.text]
  simp only [DottedQuad.ofAddress, DottedQuad.address, byte32_word32_three,
    byte32_word32_two, byte32_word32_one, byte32_word32_zero, ofByte_byte hfirst,
    ofByte_byte hsecond, ofByte_byte hthird, ofByte_byte hfourth]

/-- Addresses and canonical quads correspond: an address is printed into 16
bytes and read back from them, a canonical quad is read and printed again, and
while a quad is read the octet and the cursor stay within their bounds. -/
theorem addressCodec :
    (∀ (ipAddr : UInt32) (strIpAddr : Block), strIpAddr.size = 16 →
      (writeIpAddr strIpAddr ipAddr).InBounds ∧
      (parseIpAddrToStr ipAddr).length + 1 ≤ 16 ∧
      ∃ final ∈ eval (scanRound (writeIpAddr strIpAddr ipAddr).value)
        (scanStart 0), final.val = ipAddr) ∧
    (∀ ipAddr : UInt32, parseIpAddr (parseIpAddrToStr ipAddr) = ipAddr) ∧
    (∀ quad : DottedQuad, Canonical quad →
      parseIpAddrToStr (parseIpAddr quad.text) = quad.text) ∧
    ∀ (quad : DottedQuad) (block : Block) (ip : ℕ),
      HoldsString block ip quad.text →
      (∃ final ∈ eval (scanRound block) (scanStart ip),
        final.val = parseIpAddr quad.text) ∧
      ∀ state, Reaches (scanRound block) (scanStart ip) state →
        (0 ≤ state.octet ∧ state.octet ≤ 255) ∧
          ip ≤ state.start ∧ state.start ≤ ip + quad.text.length := by
  refine ⟨fun ipAddr strIpAddr hsize => ?_, parseIpAddr_parseIpAddrToStr,
    fun quad => parseIpAddrToStr_text, fun quad block ip hholds =>
      ⟨exists_mem_eval_scanRound hholds,
        fun state => bounds_of_reaches quad hholds⟩⟩
  have hlength := length_parseIpAddrToStr_le ipAddr
  have hholds := holdsString_storeString strIpAddr 0
    (nulFree_text (DottedQuad.ofAddress ipAddr))
  rw [← parseIpAddrToStr_eq] at hholds
  obtain ⟨final, hfinal, hval⟩ := exists_mem_eval_scanRound hholds
  refine ⟨?_, by omega, final, hfinal, ?_⟩
  · rw [writeIpAddr, inBounds_storeString]
    omega
  · rw [hval, parseIpAddr_parseIpAddrToStr]

end SimpleVpn.AddressScan
