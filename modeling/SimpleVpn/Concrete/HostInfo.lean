import SimpleVpn.Core.HostWords
import SimpleVpn.Algebra.Decimal
import Mathlib.Tactic.FinCases

/-!
# Host addresses (`host_info.c`)

`parse_ip_addr` reads four groups of digits with one cursor that stops at dots
and at the terminator; `parse_ip_addr_to_str` prints the four bytes of a word.
Strings are lists of characters without their terminating NUL: the end of the
list is where the C cursor reads zero.
-/

namespace SimpleVpn.HostInfo

open SimpleVpn.Decimal SimpleVpn.HostWords

/-- The character `.`. -/
def dot : UInt8 := 46

/-- The value of a (signed) `char`. -/
def charValue (char : UInt8) : ℤ := char.toInt8.toInt

/-- The inner loop of `parse_ip_addr`: the octet read, and the cursor where the
loop stopped. -/
def scanOctet : List UInt8 → ℤ → ℤ × List UInt8
  | [], octet => (octet, [])
  | char :: start, octet =>
      if char = dot then (octet, char :: start)
      else scanOctet start (octet * 10 + (charValue char - 48))

/-- `if (*start == '.') start++`. -/
def skipDot : List UInt8 → List UInt8
  | [] => []
  | char :: start => if char = dot then start else char :: start

/-- The outer loop of `parse_ip_addr`, with `count` octets still to read. -/
def parseOctets : ℕ → UInt32 → List UInt8 → UInt32
  | 0, val, _ => val
  | count + 1, val, start =>
      let (octet, start) := scanOctet start 0
      parseOctets count ((val <<< 8) ||| UInt32.ofInt octet) (skipDot start)

def parseIpAddr (ip : List UInt8) : UInt32 := parseOctets 4 0 ip

def parseIpAddrToStr (ipAddr : UInt32) : List UInt8 :=
  decimalText (ipAddr >>> 24).toNat ++ dot ::
    (decimalText ((ipAddr >>> 16) % 256).toNat ++ dot ::
      (decimalText ((ipAddr >>> 8) % 256).toNat ++ dot ::
        decimalText (ipAddr % 256).toNat))

/-- The characters of an ASCII literal. -/
def chars (literal : String) : List UInt8 :=
  literal.toList.map fun char => UInt8.ofNat char.toNat

/-- The `hosts` table: the name and the address of each host. -/
def hosts : List (List UInt8 × List UInt8) :=
  [(chars "h1", chars "10.0.0.1"), (chars "h2", chars "10.0.0.2"),
    (chars "h3", chars "10.0.0.3"), (chars "h4", chars "10.0.0.4"),
    (chars "h5", chars "10.0.0.5"), (chars "h6", chars "10.0.0.6"),
    (chars "h7", chars "10.0.0.7")]

def getHostIp (hostName : List UInt8) : Option (List UInt8) :=
  (hosts.find? fun host => host.1 = hostName).map Prod.snd

/-- One group of a dotted quad: decimal digits with a value that fits a byte.
-/
structure Octet where
  digits : List UInt8
  digits_ne_nil : digits ≠ []
  isDigit : ∀ char ∈ digits, IsDigit char
  value_le : decimalValue digits ≤ 255

/-- The byte an octet stands for. -/
def Octet.byte (octet : Octet) : UInt8 := UInt8.ofNat (decimalValue octet.digits)

theorem Octet.toNat_byte (octet : Octet) :
    octet.byte.toNat = decimalValue octet.digits := by
  have hvalue := octet.value_le
  rw [Octet.byte, UInt8.toNat_ofNat']
  omega

/-- A valid address in dotted-quad notation. -/
structure DottedQuad where
  first : Octet
  second : Octet
  third : Octet
  fourth : Octet

namespace DottedQuad

/-- The string of a quad. -/
def text (quad : DottedQuad) : List UInt8 :=
  quad.first.digits ++ dot :: (quad.second.digits ++ dot ::
    (quad.third.digits ++ dot :: quad.fourth.digits))

/-- The address a quad denotes, as a 32-bit value. -/
def address (quad : DottedQuad) : UInt32 :=
  word32 quad.first.byte quad.second.byte quad.third.byte quad.fourth.byte

end DottedQuad

theorem charValue_of_isDigit {char : UInt8} (hdigit : IsDigit char) :
    charValue char - 48 = ((char.toNat - 48 : ℕ) : ℤ) := by
  have hlow := hdigit.1
  have hhigh := hdigit.2
  have hchar : char.toInt8.toInt = char.toNat := by
    change char.toBitVec.toInt = char.toBitVec.toNat
    apply BitVec.toInt_eq_toNat_of_lt
    change 2 * char.toNat < 2 ^ 8
    omega
  rw [charValue, hchar]
  omega

theorem dot_not_isDigit : ¬ IsDigit dot := by decide

/-- The inner loop reads a group of digits up to the dot or the end that
follows it. -/
theorem scanOctet_digits {digits rest : List UInt8} (octet : ℕ)
    (hdigit : ∀ char ∈ digits, IsDigit char)
    (hrest : rest = [] ∨ ∃ tail, rest = dot :: tail) :
    scanOctet (digits ++ rest) octet =
      (((digits.foldl pushDigit octet : ℕ) : ℤ), rest) := by
  induction digits generalizing octet with
  | nil =>
      rcases hrest with rfl | ⟨tail, rfl⟩
      · rfl
      · simp [scanOctet]
  | cons char digits ih =>
      have hhead : IsDigit char := hdigit char List.mem_cons_self
      have hne : char ≠ dot := by
        rintro rfl
        exact dot_not_isDigit hhead
      have hpush : (octet : ℤ) * 10 + (charValue char - 48) =
          ((pushDigit octet char : ℕ) : ℤ) := by
        rw [charValue_of_isDigit hhead, pushDigit]
        push_cast
        ring
      rw [List.cons_append, scanOctet, if_neg hne, hpush, ih _
        (fun next hnext => hdigit next (List.mem_cons_of_mem char hnext)),
        List.foldl_cons]

theorem scanOctet_octet (octet : Octet) {rest : List UInt8}
    (hrest : rest = [] ∨ ∃ tail, rest = dot :: tail) :
    scanOctet (octet.digits ++ rest) 0 =
      ((octet.byte.toNat : ℤ), rest) := by
  have hscan := scanOctet_digits 0 octet.isDigit hrest
  rw [octet.toNat_byte]
  exact hscan

/-- The packed value after one more octet; no bit of it runs over. -/
theorem toNat_pushOctet (val : UInt32) (byte : UInt8)
    (hval : val.toNat < 256 ^ 3) :
    ((val <<< 8) ||| UInt32.ofInt byte.toNat).toNat =
      val.toNat * 256 + byte.toNat := by
  have hbyte := byte.toNat_lt
  have hoctet : (UInt32.ofInt byte.toNat).toNat = byte.toNat := by
    rw [UInt32.ofInt, UInt32.toNat_ofNat']
    omega
  have hshift : (val <<< 8).toNat = val.toNat <<< 8 := by
    rw [UInt32.toNat_shiftLeft]
    apply Nat.mod_eq_of_lt
    rw [show (8 : UInt32).toNat % 32 = 8 from rfl, Nat.shiftLeft_eq]
    omega
  rw [UInt32.toNat_or, hoctet, hshift, ← Nat.shiftLeft_add_eq_or_of_lt hbyte,
    Nat.shiftLeft_eq]

/-- The outer loop packs a group of digits into the value and moves past the
dot after it. -/
theorem parseOctets_octet (count : ℕ) (val : UInt32) (octet : Octet)
    (rest : List UInt8) :
    parseOctets (count + 1) val (octet.digits ++ dot :: rest) =
      parseOctets count ((val <<< 8) ||| UInt32.ofInt octet.byte.toNat)
        rest := by
  rw [parseOctets, scanOctet_octet octet (Or.inr ⟨rest, rfl⟩)]
  simp [skipDot]

theorem parseOctets_last (val : UInt32) (octet : Octet) :
    parseOctets 1 val octet.digits =
      ((val <<< 8) ||| UInt32.ofInt octet.byte.toNat) := by
  have hscan : scanOctet (octet.digits ++ []) 0 =
      ((octet.byte.toNat : ℤ), []) := scanOctet_octet octet (Or.inl rfl)
  rw [List.append_nil] at hscan
  simp only [parseOctets, hscan]

/-- `parse_ip_addr` of a valid quad is the address it denotes. -/
@[simp]
theorem parseIpAddr_text (quad : DottedQuad) :
    parseIpAddr quad.text = quad.address := by
  have hfirst := quad.first.byte.toNat_lt
  have hsecond := quad.second.byte.toNat_lt
  have hthird := quad.third.byte.toNat_lt
  rw [parseIpAddr, DottedQuad.text, parseOctets_octet, parseOctets_octet,
    parseOctets_octet, parseOctets_last]
  apply UInt32.toNat_inj.mp
  rw [DottedQuad.address, toNat_word32]
  have hone := toNat_pushOctet 0 quad.first.byte (by decide)
  have htwo := toNat_pushOctet _ quad.second.byte (hone.trans_lt (by
    rw [UInt32.toNat_zero]
    omega))
  have hthree := toNat_pushOctet _ quad.third.byte (htwo.trans_lt (by
    rw [hone, UInt32.toNat_zero]
    omega))
  have hfour := toNat_pushOctet _ quad.fourth.byte (hthree.trans_lt (by
    rw [htwo, hone, UInt32.toNat_zero]
    omega))
  rw [hfour, hthree, htwo, hone, UInt32.toNat_zero]
  ring

/-- The octet that `%d` prints for a byte. -/
def Octet.ofByte (byte : UInt8) : Octet where
  digits := decimalText byte.toNat
  digits_ne_nil := decimalText_ne_nil _
  isDigit _ hmem := isDigit_of_mem_decimalText hmem
  value_le := by
    have hbyte := byte.toNat_lt
    rw [decimalValue_decimalText]
    omega

@[simp]
theorem Octet.byte_ofByte (byte : UInt8) : (Octet.ofByte byte).byte = byte := by
  apply UInt8.toNat_inj.mp
  rw [Octet.toNat_byte, Octet.ofByte, decimalValue_decimalText]

/-- The canonical quad of an address: no group has a leading zero. -/
def DottedQuad.ofAddress (address : UInt32) : DottedQuad where
  first := Octet.ofByte (byte32 address 3)
  second := Octet.ofByte (byte32 address 2)
  third := Octet.ofByte (byte32 address 1)
  fourth := Octet.ofByte (byte32 address 0)

@[simp]
theorem DottedQuad.address_ofAddress (address : UInt32) :
    (DottedQuad.ofAddress address).address = address := by
  simp [DottedQuad.address, DottedQuad.ofAddress]

/-- `parse_ip_addr_to_str` prints the canonical quad. -/
theorem parseIpAddrToStr_eq (address : UInt32) :
    parseIpAddrToStr address = (DottedQuad.ofAddress address).text := by
  have haddress := address.toNat_lt
  have hfirst : (address >>> 24).toNat = (byte32 address 3).toNat := by
    rw [UInt32.toNat_shiftRight, toNat_byte32,
      show (24 : UInt32).toNat % 32 = 24 from rfl, Nat.shiftRight_eq_div_pow]
    omega
  have hsecond : ((address >>> 16) % 256).toNat = (byte32 address 2).toNat := by
    rw [UInt32.toNat_mod, UInt32.toNat_shiftRight, toNat_byte32,
      show (16 : UInt32).toNat % 32 = 16 from rfl, Nat.shiftRight_eq_div_pow]
    rfl
  have hthird : ((address >>> 8) % 256).toNat = (byte32 address 1).toNat := by
    rw [UInt32.toNat_mod, UInt32.toNat_shiftRight, toNat_byte32,
      show (8 : UInt32).toNat % 32 = 8 from rfl, Nat.shiftRight_eq_div_pow]
    rfl
  have hfourth : (address % 256).toNat = (byte32 address 0).toNat := by
    rw [UInt32.toNat_mod, toNat_byte32, pow_zero, Nat.div_one]
    rfl
  rw [parseIpAddrToStr, hfirst, hsecond, hthird, hfourth]
  rfl

/-- Printing an address and reading it back gives the address. -/
@[simp]
theorem parseIpAddr_parseIpAddrToStr (address : UInt32) :
    parseIpAddr (parseIpAddrToStr address) = address := by
  rw [parseIpAddrToStr_eq, parseIpAddr_text, DottedQuad.address_ofAddress]

theorem parseIpAddrToStr_injective : Function.Injective parseIpAddrToStr :=
  Function.LeftInverse.injective parseIpAddr_parseIpAddrToStr

/-- The first three hosts, for concrete runs: 10.0.0.1, 10.0.0.2 and 10.0.0.3.
-/
def h1 : DottedQuad := .ofAddress 0x0a000001

def h2 : DottedQuad := .ofAddress 0x0a000002

def h3 : DottedQuad := .ofAddress 0x0a000003

@[simp]
theorem address_h1 : h1.address = 0x0a000001 :=
  DottedQuad.address_ofAddress 0x0a000001

@[simp]
theorem address_h2 : h2.address = 0x0a000002 :=
  DottedQuad.address_ofAddress 0x0a000002

@[simp]
theorem address_h3 : h3.address = 0x0a000003 :=
  DottedQuad.address_ofAddress 0x0a000003

end SimpleVpn.HostInfo
