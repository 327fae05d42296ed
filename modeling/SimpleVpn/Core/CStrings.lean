import Mathlib.Data.Nat.Find
import Mathlib.Data.List.GetD
import SimpleVpn.Core.TracedMemory

/-!
# NUL-terminated strings in memory

A C string is the run of nonzero bytes from a pointer up to the first zero
byte.  The scan of `strlen` reads one byte after the other and knows nothing of
the block it reads from: without a zero inside the block it leaves it.
-/

namespace SimpleVpn.CStrings

open SimpleVpn.TracedMemory

/-- Count nonzero bytes from `index` on, reading at most `fuel` of them. -/
def scan (block : Block) : ℕ → ℕ → Traced ℕ
  | 0, _ => pure 0
  | fuel + 1, index => do
      let char ← load block index
      if char = 0 then
        pure 0
      else do
        let rest ← scan block fuel (index + 1)
        pure (rest + 1)

/-- `strlen`.  The fuel covers the block and the mapped bytes after it, and one
read more.  If none of these bytes is zero the count ends there, where that of C is
undefined; the trace shows the reads outside the block. -/
def strlen (block : Block) (start : ℕ) : Traced ℕ :=
  scan block (block.size + block.slack + 1 - start) start

/-- The offset of the first zero byte, counted from `start`. -/
structure FirstZero (byte : ℕ → UInt8) (start offset : ℕ) : Prop where
  zero : byte (start + offset) = 0
  nonzero : ∀ index < offset, byte (start + index) ≠ 0

theorem FirstZero.unique {byte : ℕ → UInt8} {start left right : ℕ}
    (hleft : FirstZero byte start left)
    (hright : FirstZero byte start right) : left = right := by
  rcases Nat.lt_trichotomy left right with hlt | heq | hgt
  · exact absurd hleft.zero (hright.nonzero left hlt)
  · exact heq
  · exact absurd hright.zero (hleft.nonzero right hgt)

theorem FirstZero.tail {byte : ℕ → UInt8} {start offset : ℕ}
    (hfirst : FirstZero byte start (offset + 1)) :
    FirstZero byte (start + 1) offset := by
  constructor
  · have hzero := hfirst.zero
    rwa [show start + (offset + 1) = start + 1 + offset by omega] at hzero
  · intro index hindex
    have hnonzero := hfirst.nonzero (index + 1) (by omega)
    rwa [show start + (index + 1) = start + 1 + index by omega] at hnonzero

/-- A zero byte somewhere gives a first one, no later than it. -/
theorem exists_firstZero {byte : ℕ → UInt8} {start offset : ℕ}
    (hzero : byte (start + offset) = 0) :
    ∃ first ≤ offset, FirstZero byte start first := by
  have hexists : ∃ index, byte (start + index) = 0 := ⟨offset, hzero⟩
  exact ⟨Nat.find hexists, Nat.find_min' hexists hzero, Nat.find_spec hexists,
    fun index hindex => Nat.find_min hexists hindex⟩

theorem scan_of_firstZero {block : Block} {start offset fuel : ℕ}
    (hfirst : FirstZero block.byte start offset) (hfuel : offset < fuel) :
    (scan block fuel start).value = offset := by
  induction fuel generalizing start offset with
  | zero => exact absurd hfuel (Nat.not_lt_zero offset)
  | succ fuel ih =>
      cases offset with
      | zero =>
          have hzero : block.byte start = 0 := hfirst.zero
          simp [scan, hzero]
      | succ offset =>
          have hhead : block.byte start ≠ 0 :=
            hfirst.nonzero 0 (Nat.succ_pos offset)
          simp [scan, hhead, ih hfirst.tail (by omega)]

theorem strlen_of_firstZero {block : Block} {start offset : ℕ}
    (hfirst : FirstZero block.byte start offset)
    (hinside : start + offset < block.size) :
    (strlen block start).value = offset :=
  scan_of_firstZero hfirst (by omega)

/-- A scan whose bytes are nonzero before `bound` reads the byte at `bound`. -/
theorem mem_scan_trace {block : Block} {start bound fuel : ℕ}
    (hnonzero : ∀ index < bound, block.byte (start + index) ≠ 0)
    (hfuel : bound < fuel) :
    ⟨block.size, start + bound⟩ ∈ (scan block fuel start).trace := by
  induction fuel generalizing start bound with
  | zero => exact absurd hfuel (Nat.not_lt_zero bound)
  | succ fuel ih =>
      cases bound with
      | zero => exact List.mem_append_left _ (List.mem_singleton_self _)
      | succ bound =>
          have hhead : block.byte start ≠ 0 :=
            hnonzero 0 (Nat.succ_pos bound)
          have htail : ∀ index < bound, block.byte (start + 1 + index) ≠ 0 := by
            intro index hindex
            have hindex' := hnonzero (index + 1) (by omega)
            rwa [show start + (index + 1) = start + 1 + index by omega]
              at hindex'
          have hmem := ih htail (by omega)
          rw [show start + 1 + bound = start + (bound + 1) by omega] at hmem
          rw [scan, Traced.trace_bind, value_load, if_neg hhead,
            Traced.trace_bind]
          exact List.mem_append_right _ (List.mem_append_left _ hmem)

theorem scan_inBounds_of_firstZero {block : Block} {start offset fuel : ℕ}
    (hfirst : FirstZero block.byte start offset)
    (hinside : start + offset < block.size) :
    (scan block fuel start).InBounds := by
  induction fuel generalizing start offset with
  | zero => exact Traced.inBounds_pure 0
  | succ fuel ih =>
      rw [scan, Traced.inBounds_bind, inBounds_load, value_load]
      refine ⟨by omega, ?_⟩
      by_cases hhead : block.byte start = 0
      · rw [if_pos hhead]
        exact Traced.inBounds_pure 0
      · rw [if_neg hhead, Traced.inBounds_bind]
        refine ⟨?_, Traced.inBounds_pure _⟩
        cases offset with
        | zero => exact absurd hfirst.zero hhead
        | succ offset => exact ih hfirst.tail (by omega)

/-- The scan of `strlen` stays inside its block exactly when the block has a
zero byte at or after the pointer. -/
theorem strlen_inBounds_iff {block : Block} {start : ℕ}
    (hstart : start ≤ block.size) :
    (strlen block start).InBounds ↔
      ∃ offset, start + offset < block.size ∧
        block.byte (start + offset) = 0 := by
  constructor
  · intro hbounds
    by_contra hnone
    push Not at hnone
    have hread : ⟨block.size, start + (block.size - start)⟩ ∈
        (strlen block start).trace :=
      mem_scan_trace (fun index hindex => hnone index (by omega)) (by omega)
    have hlt : start + (block.size - start) < block.size :=
      hbounds _ hread
    omega
  · rintro ⟨offset, hinside, hzero⟩
    obtain ⟨first, hle, hfirst⟩ := exists_firstZero hzero
    exact scan_inBounds_of_firstZero hfirst (by omega)

/-- The string a reader such as `printf("%s")` finds at a pointer. -/
def stringAt (block : Block) (start : ℕ) : List UInt8 :=
  block.slice start (strlen block start).value

theorem stringAt_of_firstZero {block : Block} {start offset : ℕ}
    (hfirst : FirstZero block.byte start offset)
    (hinside : start + offset < block.size) :
    stringAt block start = block.slice start offset := by
  rw [stringAt, strlen_of_firstZero hfirst hinside]

/-- Two blocks with the same bytes and a zero among them show a reader the same
string. -/
theorem stringAt_congr {left right : Block} {start origin : ℕ} (bound : ℕ)
    (hbyte : ∀ index < bound,
      left.byte (start + index) = right.byte (origin + index))
    (hzero : ∃ index < bound, right.byte (origin + index) = 0)
    (hleft : start + bound ≤ left.size) (hright : origin + bound ≤ right.size) :
    stringAt left start = stringAt right origin := by
  obtain ⟨index, hindex, hbyteZero⟩ := hzero
  obtain ⟨first, hle, hfirst⟩ := exists_firstZero hbyteZero
  have hfirstLeft : FirstZero left.byte start first := by
    constructor
    · rw [hbyte first (by omega)]
      exact hfirst.zero
    · intro other hother
      rw [hbyte other (by omega)]
      exact hfirst.nonzero other hother
  rw [stringAt_of_firstZero hfirst (by omega),
    stringAt_of_firstZero hfirstLeft (by omega)]
  apply Block.slice_congr
  intro other hother
  exact hbyte other (by omega)

/-- A block that holds a prefix of a NUL-free string, followed by a zero, shows
that prefix to a reader. -/
theorem stringAt_of_begins {block : Block} {start count : ℕ} {chars : List UInt8}
    (hnul : (0 : UInt8) ∉ chars) (hcount : count ≤ chars.length)
    (hbyte : ∀ index < count, block.byte (start + index) = chars.getD index 0)
    (hzero : block.byte (start + count) = 0)
    (hinside : start + count < block.size) :
    stringAt block start = chars.take count := by
  have hfirst : FirstZero block.byte start count := by
    refine ⟨hzero, fun index hindex heq => hnul ?_⟩
    rw [hbyte index hindex, List.getD_eq_getElem _ _ (by omega)] at heq
    rw [← heq]
    exact List.getElem_mem _
  rw [stringAt_of_firstZero hfirst hinside]
  apply Block.slice_eq
  · rw [List.length_take, Nat.min_eq_left hcount]
  · intro index hindex
    rw [hbyte index hindex, List.getD_eq_getElem?_getD,
      List.getD_eq_getElem?_getD, List.getElem?_take, if_pos hindex]

/-- `strncpy` from a string without its terminator: after the string come zero
bytes up to the count, and no terminator when the count is reached before. -/
def strncpy (target : Block) (start : ℕ) (source : List UInt8) (count : ℕ) :
    Traced Block :=
  storeBytes target start source count

/-- The characters of a C string, without the terminator. -/
structure CString where
  chars : List UInt8
  nulFree : (0 : UInt8) ∉ chars

theorem CString.getD_ne_zero (string : CString) {index : ℕ}
    (hindex : index < string.chars.length) :
    string.chars.getD index 0 ≠ 0 := by
  intro heq
  apply string.nulFree
  rw [← heq, List.getD_eq_getElem _ _ hindex]
  exact List.getElem_mem hindex

/-- The block holds the string and its terminator at `start`. -/
structure HoldsString (block : Block) (start : ℕ) (chars : List UInt8) :
    Prop where
  firstZero : FirstZero block.byte start chars.length
  slice_eq : block.slice start chars.length = chars

section HoldsString

variable {block : Block} {start : ℕ} {chars : List UInt8}

theorem HoldsString.byte_eq (hholds : HoldsString block start chars)
    {index : ℕ} (hindex : index < chars.length) :
    block.byte (start + index) = chars.getD index 0 := by
  rw [← Block.getD_slice block start chars.length index hindex, hholds.slice_eq]

/-- Within the string a reader finds its characters. -/
theorem HoldsString.byte_of_suffix (hholds : HoldsString block start chars)
    {place : ℕ} {char : UInt8} {rest : List UInt8}
    (hsuffix : char :: rest <:+ chars)
    (hplace : place + (rest.length + 1) = start + chars.length) :
    block.byte place = char ∧ char ≠ 0 := by
  obtain ⟨init, rfl⟩ := hsuffix
  rw [List.length_append, List.length_cons] at hplace
  obtain rfl : place = start + init.length := by omega
  have hindex : init.length < (init ++ char :: rest).length := by simp
  have hbyte : block.byte (start + init.length) = char := by
    rw [hholds.byte_eq hindex, List.getD_append_right _ _ _ _ le_rfl,
      Nat.sub_self, List.getD_cons_zero]
  exact ⟨hbyte, hbyte ▸ hholds.firstZero.nonzero _ hindex⟩

end HoldsString

/-- Write a string and its terminator, as `sprintf` does. -/
def storeString (target : Block) (start : ℕ) (source : List UInt8) :
    Traced Block :=
  storeBytes target start (source ++ [0]) (source.length + 1)

theorem holdsString_storeString (target : Block) (start : ℕ)
    {source : List UInt8} (hnul : (0 : UInt8) ∉ source) :
    HoldsString (storeString target start source).value start source := by
  have hbyte : ∀ index < source.length,
      (storeString target start source).value.byte (start + index) =
        source.getD index 0 := by
    intro index hindex
    rw [storeString, byte_storeBytes, if_pos (by omega), Nat.add_sub_cancel_left,
      List.getD_append _ _ _ _ hindex]
  refine ⟨⟨?_, fun index hindex hzero => hnul ?_⟩, ?_⟩
  · rw [storeString, byte_storeBytes, if_pos (by omega), Nat.add_sub_cancel_left,
      List.getD_append_right _ _ _ _ le_rfl, Nat.sub_self]
    rfl
  · rw [hbyte index hindex, List.getD_eq_getElem _ _ hindex] at hzero
    rw [← hzero]
    exact List.getElem_mem hindex
  · exact Block.slice_eq _ _ rfl hbyte

theorem inBounds_storeString (target : Block) (start : ℕ) (source : List UInt8) :
    (storeString target start source).InBounds ↔
      start + source.length < target.size := by
  rw [storeString, inBounds_storeBytes]
  constructor
  · intro hall
    exact hall source.length (Nat.lt_succ_self _)
  · intro hlast index hindex
    omega

end SimpleVpn.CStrings
