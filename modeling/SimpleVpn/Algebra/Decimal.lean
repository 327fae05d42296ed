import Mathlib.Data.List.Basic
import Mathlib.Data.List.Induction
import Mathlib.Tactic.Ring
import Mathlib.Tactic.IntervalCases

/-!
# Decimal text

Natural numbers printed with `%d` and read back digit by digit.  Text is a list
of ASCII codes.
-/

namespace SimpleVpn.Decimal

/-- The character is one of `0` to `9`. -/
def IsDigit (char : UInt8) : Prop := 48 ≤ char.toNat ∧ char.toNat ≤ 57

instance (char : UInt8) : Decidable (IsDigit char) :=
  inferInstanceAs (Decidable (_ ∧ _))

/-- The number after one more digit. -/
def pushDigit (value : ℕ) (char : UInt8) : ℕ := value * 10 + (char.toNat - 48)

/-- The number a group of digits stands for. -/
def decimalValue (chars : List UInt8) : ℕ := chars.foldl pushDigit 0

/-- `%d` of a natural number. -/
def decimalText (value : ℕ) : List UInt8 :=
  (Nat.toDigits 10 value).map Char.toUInt8

theorem isDigit_digitChar {digit : ℕ} (hdigit : digit < 10) :
    IsDigit (Nat.digitChar digit).toUInt8 := by
  interval_cases digit <;> decide

theorem toNat_digitChar {digit : ℕ} (hdigit : digit < 10) :
    (Nat.digitChar digit).toUInt8.toNat = 48 + digit := by
  interval_cases digit <;> decide

theorem pushDigit_digitChar (value : ℕ) {digit : ℕ} (hdigit : digit < 10) :
    pushDigit value (Nat.digitChar digit).toUInt8 = value * 10 + digit := by
  rw [pushDigit, toNat_digitChar hdigit, Nat.add_sub_cancel_left]

/-- A digit is the character of its value. -/
theorem digitChar_of_isDigit {char : UInt8} (hdigit : IsDigit char) :
    (Nat.digitChar (char.toNat - 48)).toUInt8 = char := by
  have hlow := hdigit.1
  have hhigh := hdigit.2
  apply UInt8.toNat_inj.mp
  rw [toNat_digitChar (by omega)]
  omega

theorem decimalText_of_lt {value : ℕ} (hvalue : value < 10) :
    decimalText value = [(Nat.digitChar value).toUInt8] := by
  rw [decimalText, Nat.toDigits_of_lt_base hvalue, List.map_singleton]

theorem decimalText_of_le {value : ℕ} (hvalue : 10 ≤ value) :
    decimalText value =
      decimalText (value / 10) ++ [(Nat.digitChar (value % 10)).toUInt8] := by
  rw [decimalText, Nat.toDigits_of_base_le (by omega) hvalue, List.map_append,
    List.map_singleton, decimalText]

theorem decimalText_ne_nil (value : ℕ) : decimalText value ≠ [] := by
  simp [decimalText]

theorem isDigit_of_mem_decimalText {value : ℕ} {char : UInt8}
    (hmem : char ∈ decimalText value) : IsDigit char := by
  induction value using Nat.strongRecOn with
  | ind value ih =>
      by_cases hvalue : value < 10
      · rw [decimalText_of_lt hvalue, List.mem_singleton] at hmem
        rw [hmem]
        exact isDigit_digitChar hvalue
      · rw [decimalText_of_le (by omega), List.mem_append,
          List.mem_singleton] at hmem
        rcases hmem with hinit | hlast
        · exact ih (value / 10) (by omega) hinit
        · rw [hlast]
          exact isDigit_digitChar (by omega)

/-- Reading what `%d` printed gives the number back. -/
@[simp]
theorem decimalValue_decimalText (value : ℕ) :
    decimalValue (decimalText value) = value := by
  induction value using Nat.strongRecOn with
  | ind value ih =>
      by_cases hvalue : value < 10
      · rw [decimalText_of_lt hvalue, decimalValue, List.foldl_cons,
          List.foldl_nil, pushDigit_digitChar 0 hvalue]
        omega
      · have hinit := ih (value / 10) (by omega)
        rw [decimalText_of_le (by omega), decimalValue, List.foldl_append,
          ← decimalValue, hinit, List.foldl_cons, List.foldl_nil,
          pushDigit_digitChar _ (by omega)]
        omega

/-- A number below `10 ^ count` is printed with at most `count` digits. -/
theorem length_decimalText_le {value count : ℕ} (hcount : 0 < count)
    (hvalue : value < 10 ^ count) : (decimalText value).length ≤ count := by
  rw [decimalText, List.length_map]
  exact (Nat.length_toDigits_le_iff (by decide) hcount).mpr hvalue

/-- Further digits never make a number smaller. -/
theorem le_foldl_pushDigit (value : ℕ) (chars : List UInt8) :
    value ≤ chars.foldl pushDigit value := by
  induction chars generalizing value with
  | nil => exact le_rfl
  | cons char chars ih =>
      refine le_trans ?_ (ih (pushDigit value char))
      rw [pushDigit]
      omega

theorem decimalValue_append_singleton (chars : List UInt8) (char : UInt8) :
    decimalValue (chars ++ [char]) = pushDigit (decimalValue chars) char := by
  rw [decimalValue, List.foldl_append, List.foldl_cons, List.foldl_nil,
    decimalValue]

/-- The value read so far is at most the value of the whole group. -/
theorem decimalValue_le_append (read left : List UInt8) :
    decimalValue read ≤ decimalValue (read ++ left) := by
  rw [decimalValue, decimalValue, List.foldl_append]
  exact le_foldl_pushDigit _ left

/-- A group that starts with the digit 0 has no other digit. -/
def NoLeadingZero (digits : List UInt8) : Prop :=
  digits.head? = some 48 → digits.length = 1

/-- A group that does not start with 0 has a positive value. -/
theorem decimalValue_pos {char : UInt8} {chars : List UInt8}
    (hdigit : IsDigit char) (hzero : char ≠ 48) :
    0 < decimalValue (char :: chars) := by
  have hlow := hdigit.1
  have hne : char.toNat ≠ 48 := fun heq => hzero (UInt8.toNat_inj.mp heq)
  rw [decimalValue, List.foldl_cons]
  refine lt_of_lt_of_le ?_ (le_foldl_pushDigit _ chars)
  rw [pushDigit]
  omega

/-- `%d` prints the value of a canonical group as that group. -/
theorem decimalText_decimalValue {digits : List UInt8} (hne : digits ≠ [])
    (hdigit : ∀ char ∈ digits, IsDigit char) (hcanonical : NoLeadingZero digits) :
    decimalText (decimalValue digits) = digits := by
  induction digits using List.reverseRecOn with
  | nil => exact absurd rfl hne
  | append_singleton init last ih =>
      have hlast : IsDigit last := hdigit last (by simp)
      have hinit : ∀ char ∈ init, IsDigit char :=
        fun char hmem => hdigit char (List.mem_append_left _ hmem)
      have hlow := hlast.1
      have hhigh := hlast.2
      rw [decimalValue_append_singleton, pushDigit]
      cases init with
      | nil =>
          rw [decimalValue, List.foldl_nil, Nat.zero_mul, Nat.zero_add,
            decimalText_of_lt (by omega), digitChar_of_isDigit hlast,
            List.nil_append]
      | cons first others =>
          have hfirst : first ≠ 48 := by
            rintro rfl
            have hlength := hcanonical rfl
            simp at hlength
          have hpos : 0 < decimalValue (first :: others) :=
            decimalValue_pos (hinit first List.mem_cons_self) hfirst
          have htext : decimalText (decimalValue (first :: others)) =
              first :: others := by
            apply ih (List.cons_ne_nil first others) hinit
            intro hhead
            exact absurd (Option.some.inj hhead) hfirst
          rw [decimalText_of_le (by omega),
            show (decimalValue (first :: others) * 10 + (last.toNat - 48)) / 10 =
              decimalValue (first :: others) by omega,
            show (decimalValue (first :: others) * 10 + (last.toNat - 48)) % 10 =
              last.toNat - 48 by omega,
            htext, digitChar_of_isDigit hlast]

theorem decimalText_injective : Function.Injective decimalText :=
  Function.LeftInverse.injective decimalValue_decimalText

/-- `%d` of an integer. -/
def signedText (value : ℤ) : List UInt8 :=
  if value < 0 then 45 :: decimalText value.natAbs
  else decimalText value.natAbs

theorem mem_signedText {value : ℤ} {char : UInt8}
    (hmem : char ∈ signedText value) : char = 45 ∨ IsDigit char := by
  unfold signedText at hmem
  split at hmem
  next =>
    rcases List.mem_cons.mp hmem with heq | hdigits
    · exact Or.inl heq
    · exact Or.inr (isDigit_of_mem_decimalText hdigits)
  next => exact Or.inr (isDigit_of_mem_decimalText hmem)

/-- The sign is no digit, so it tells the negative numbers from the others. -/
theorem signedText_injective : Function.Injective signedText := by
  have hsign : ∀ left right : ℕ, 45 :: decimalText left ≠ decimalText right := by
    intro left right heq
    have hmem : (45 : UInt8) ∈ decimalText right := by
      rw [← heq]
      exact List.mem_cons_self
    exact absurd (isDigit_of_mem_decimalText hmem) (by decide)
  intro left right heq
  unfold signedText at heq
  split at heq
  next hleft =>
    split at heq
    next hright =>
      have hnat := decimalText_injective (List.cons.inj heq).2
      omega
    next => exact absurd heq (hsign _ _)
  next hleft =>
    split at heq
    next => exact absurd heq.symm (hsign _ _)
    next hright =>
      have hnat := decimalText_injective heq
      omega

end SimpleVpn.Decimal
