import Mathlib.Logic.Function.Basic
import Mathlib.Data.List.Basic
import Mathlib.Tactic.Common

/-!
# Memory blocks and traced accesses

A block of memory is seen from its first byte: its own bytes come first, and
what lies after them is arbitrary.  Every read and write of a byte is recorded
with the size of the block it goes through, so that one computation yields both
the value a C function returns and the list of places it touched.  An access
outside its block is recorded like any other and changes no byte inside.
-/

namespace SimpleVpn.TracedMemory

/-- One access to a byte: the size of the block and the offset from its first
byte. -/
structure Access where
  size : ℕ
  index : ℕ
  deriving DecidableEq, Repr

/-- The access stays inside the block it is made through. -/
def Access.InBounds (access : Access) : Prop :=
  access.index < access.size

instance (access : Access) : Decidable access.InBounds :=
  inferInstanceAs (Decidable (access.index < access.size))

@[simp]
theorem Access.inBounds_mk (size index : ℕ) :
    (Access.mk size index).InBounds ↔ index < size := Iff.rfl

/-- A computation together with the accesses it made, in order. -/
structure Traced (A : Type) where
  value : A
  trace : List Access

namespace Traced

variable {A B : Type}

instance : Monad Traced where
  pure value := ⟨value, []⟩
  bind first next :=
    ⟨(next first.value).value, first.trace ++ (next first.value).trace⟩

@[simp]
theorem value_pure (value : A) : (pure value : Traced A).value = value := rfl

@[simp]
theorem value_bind (first : Traced A) (next : A → Traced B) :
    (first >>= next).value = (next first.value).value := rfl

theorem trace_bind (first : Traced A) (next : A → Traced B) :
    (first >>= next).trace = first.trace ++ (next first.value).trace := rfl

/-- Every access of the computation stays inside its block. -/
def InBounds (run : Traced A) : Prop :=
  ∀ access ∈ run.trace, access.InBounds

@[simp]
theorem inBounds_pure (value : A) : (pure value : Traced A).InBounds := by
  intro access hmem
  exact absurd hmem List.not_mem_nil

@[simp]
theorem inBounds_bind (first : Traced A) (next : A → Traced B) :
    (first >>= next).InBounds ↔
      first.InBounds ∧ (next first.value).InBounds := by
  simp only [InBounds]
  exact List.forall_mem_append

end Traced

/-- What lies past the end of an allocation: the bytes found there, and how
many of them are mapped before a scan that runs on is stopped. -/
structure Surroundings where
  slack : ℕ
  byte : ℕ → UInt8

/-- The surroundings of each allocation a program makes, in the order in which
it makes them. -/
abbrev Heap := ℕ → Surroundings

/-- Allocations with nothing readable after them. -/
def Heap.zeros : Heap := fun _ => ⟨0, fun _ => 0⟩

/-- The surroundings that remain once `count` allocations are made. -/
def Heap.after (heap : Heap) (count : ℕ) : Heap :=
  fun index => heap (count + index)

/-- A block of `size` bytes.  `byte index` is what a read at that offset finds;
offsets from `size` on are outside the block. -/
structure Block where
  size : ℕ
  slack : ℕ
  byte : ℕ → UInt8

namespace Block

/-- The block after a write. -/
def set (block : Block) (index : ℕ) (value : UInt8) : Block :=
  { block with byte := Function.update block.byte index value }

@[simp]
theorem size_set (block : Block) (index : ℕ) (value : UInt8) :
    (block.set index value).size = block.size := rfl

theorem byte_set (block : Block) (index : ℕ) (value : UInt8) (other : ℕ) :
    (block.set index value).byte other =
      if other = index then value else block.byte other := by
  simp [set, Function.update_apply]

/-- The `count` bytes that start at `start`. -/
def slice (block : Block) (start count : ℕ) : List UInt8 :=
  (List.range count).map fun index => block.byte (start + index)

@[simp]
theorem length_slice (block : Block) (start count : ℕ) :
    (block.slice start count).length = count := by
  simp [slice]

@[simp]
theorem slice_zero (block : Block) (start : ℕ) : block.slice start 0 = [] := rfl

theorem slice_succ (block : Block) (start count : ℕ) :
    block.slice start (count + 1) =
      block.byte start :: block.slice (start + 1) count := by
  rw [slice, List.range_succ_eq_map, List.map_cons, List.map_map, slice]
  congr 1
  apply List.map_congr_left
  intro index _
  rw [Function.comp_apply, Nat.succ_eq_add_one,
    show start + (index + 1) = start + 1 + index by omega]

theorem getD_slice (block : Block) (start count index : ℕ)
    (hindex : index < count) :
    (block.slice start count).getD index 0 = block.byte (start + index) := by
  simp [slice, List.getD_eq_getElem?_getD, hindex]

/-- A slice is the byte string whose bytes it has. -/
theorem slice_eq (block : Block) (start : ℕ) {count : ℕ} {bytes : List UInt8}
    (hlength : bytes.length = count)
    (hbyte : ∀ index < count,
      block.byte (start + index) = bytes.getD index 0) :
    block.slice start count = bytes := by
  apply List.ext_getElem
  · rw [length_slice, hlength]
  · intro index hleft hright
    rw [length_slice] at hleft
    have hentry := getD_slice block start count index hleft
    rw [hbyte index hleft, List.getD_eq_getElem?_getD,
      List.getD_eq_getElem?_getD, List.getElem?_eq_getElem (by simpa),
      List.getElem?_eq_getElem hright] at hentry
    exact hentry

theorem slice_congr {left right : Block} {start origin count : ℕ}
    (hbyte : ∀ index < count,
      left.byte (start + index) = right.byte (origin + index)) :
    left.slice start count = right.slice origin count := by
  apply List.map_congr_left
  intro index hmem
  exact hbyte index (List.mem_range.mp hmem)

theorem slice_inj {left right : Block} {start count : ℕ} :
    left.slice start count = right.slice start count ↔
      ∀ index < count, left.byte (start + index) = right.byte (start + index) := by
  refine ⟨fun heq index hindex => ?_, slice_congr⟩
  rw [← getD_slice left start count index hindex, heq,
    getD_slice right start count index hindex]

theorem slice_add (block : Block) (start count more : ℕ) :
    block.slice start (count + more) =
      block.slice start count ++ block.slice (start + count) more := by
  simp [slice, List.range_add, Function.comp_def, Nat.add_assoc]

end Block

/-- A block that holds a byte string and nothing else. -/
def ofBytes (bytes : List UInt8) : Block where
  size := bytes.length
  slack := 0
  byte index := bytes.getD index 0

@[simp]
theorem byte_ofBytes (bytes : List UInt8) (index : ℕ) :
    (ofBytes bytes).byte index = bytes.getD index 0 := rfl

/-- `calloc`: a block of zero bytes in the given surroundings. -/
def calloc (around : Surroundings) (size : ℕ) : Block where
  size := size
  slack := around.slack
  byte index := if index < size then 0 else around.byte (index - size)

@[simp]
theorem size_calloc (around : Surroundings) (size : ℕ) :
    (calloc around size).size = size := rfl

theorem byte_calloc (around : Surroundings) {size index : ℕ}
    (hindex : index < size) : (calloc around size).byte index = 0 := by
  simp [calloc, hindex]

/-- Read one byte. -/
def load (block : Block) (index : ℕ) : Traced UInt8 :=
  ⟨block.byte index, [⟨block.size, index⟩]⟩

/-- Write one byte. -/
def store (block : Block) (index : ℕ) (value : UInt8) : Traced Block :=
  ⟨block.set index value, [⟨block.size, index⟩]⟩

@[simp]
theorem value_load (block : Block) (index : ℕ) :
    (load block index).value = block.byte index := rfl

@[simp]
theorem inBounds_load (block : Block) (index : ℕ) :
    (load block index).InBounds ↔ index < block.size := by
  simp [load, Traced.InBounds]

@[simp]
theorem value_store (block : Block) (index : ℕ) (value : UInt8) :
    (store block index value).value = block.set index value := rfl

@[simp]
theorem inBounds_store (block : Block) (index : ℕ) (value : UInt8) :
    (store block index value).InBounds ↔ index < block.size := by
  simp [store, Traced.InBounds]

section Loop

variable {S : Type}

/-- `for (i = 0; i < count; ++i)` with the loop's variables as a state. -/
def forRange (body : ℕ → S → Traced S) (start : S) : ℕ → Traced S
  | 0 => pure start
  | count + 1 => do
      let state ← forRange body start count
      body count state

/-- What every iteration preserves holds after the loop. -/
theorem forRange_value (body : ℕ → S → Traced S) (start : S)
    (invariant : ℕ → S → Prop) (count : ℕ) (hstart : invariant 0 start)
    (hstep : ∀ index < count, ∀ state, invariant index state →
      invariant (index + 1) (body index state).value) :
    invariant count (forRange body start count).value := by
  induction count with
  | zero => exact hstart
  | succ count ih =>
      rw [forRange, Traced.value_bind]
      apply hstep count (Nat.lt_succ_self count)
      exact ih fun index hindex => hstep index (Nat.lt_succ_of_lt hindex)

/-- A loop stays in bounds exactly when each of its iterations does. -/
theorem forRange_inBounds (body : ℕ → S → Traced S) (start : S)
    (invariant : S → Prop) (bound : ℕ → Prop) (count : ℕ)
    (hstart : invariant start)
    (hstep : ∀ index state, invariant state →
      invariant (body index state).value)
    (hbody : ∀ index state, invariant state →
      ((body index state).InBounds ↔ bound index)) :
    (forRange body start count).InBounds ↔ ∀ index < count, bound index := by
  induction count with
  | zero => simp [forRange]
  | succ count ih =>
      have hstate : invariant (forRange body start count).value :=
        forRange_value body start (fun _ => invariant) count hstart
          fun index _ => hstep index
      rw [forRange, Traced.inBounds_bind, ih, hbody count _ hstate]
      exact Nat.forall_lt_succ_right.symm

end Loop

/-- Each round writes one byte, the one that `value` gives for it, and the
rounds go through the positions from `start` on. -/
def FillsFrom (start : ℕ) (value : ℕ → UInt8)
    (body : ℕ → Block → Traced Block) : Prop :=
  ∀ index current,
    (body index current).value = current.set (start + index) (value index)

section Fill

variable {start : ℕ} {value : ℕ → UInt8} {body : ℕ → Block → Traced Block}
variable (hfills : FillsFrom start value body) (block : Block) (count : ℕ)

include hfills

theorem FillsFrom.size_forRange :
    (forRange body block count).value.size = block.size := by
  refine forRange_value body block (fun _ current => current.size = block.size)
    count rfl fun index _ current hsize => ?_
  rw [hfills, Block.size_set, hsize]

theorem FillsFrom.byte_forRange (index : ℕ) :
    (forRange body block count).value.byte index =
      if start ≤ index ∧ index < start + count then value (index - start)
      else block.byte index := by
  refine forRange_value body block (fun reached current =>
    current.byte index = if start ≤ index ∧ index < start + reached then
      value (index - start) else block.byte index) count ?_ ?_
  · rw [if_neg (by omega)]
  · intro reached _ current hcurrent
    rw [hfills, Block.byte_set, hcurrent]
    by_cases hindex : index = start + reached
    · subst hindex
      simp
    · rw [if_neg hindex]
      congr 1
      exact propext (by omega)

theorem FillsFrom.inBounds_forRange {bound : ℕ → Prop}
    (hbody : ∀ index current, current.size = block.size →
      ((body index current).InBounds ↔ bound index)) :
    (forRange body block count).InBounds ↔ ∀ index < count, bound index := by
  refine forRange_inBounds body block (fun current => current.size = block.size)
    bound count rfl (fun index current hsize => ?_) hbody
  rw [hfills, Block.size_set, hsize]

end Fill

/-- Write a byte string at `start`, one byte after the other. -/
def storeBytes (block : Block) (start : ℕ) (bytes : List UInt8)
    (count : ℕ) : Traced Block :=
  forRange (fun index current =>
    store current (start + index) (bytes.getD index 0)) block count

theorem fillsFrom_storeBytes (start : ℕ) (bytes : List UInt8) :
    FillsFrom start (fun index => bytes.getD index 0) fun index current =>
      store current (start + index) (bytes.getD index 0) :=
  fun _ _ => rfl

theorem size_storeBytes (block : Block) (start : ℕ) (bytes : List UInt8)
    (count : ℕ) :
    (storeBytes block start bytes count).value.size = block.size :=
  (fillsFrom_storeBytes start bytes).size_forRange block count

theorem byte_storeBytes (block : Block) (start : ℕ) (bytes : List UInt8)
    (count index : ℕ) :
    (storeBytes block start bytes count).value.byte index =
      if start ≤ index ∧ index < start + count then
        bytes.getD (index - start) 0
      else block.byte index :=
  (fillsFrom_storeBytes start bytes).byte_forRange block count index

theorem inBounds_storeBytes (block : Block) (start : ℕ) (bytes : List UInt8)
    (count : ℕ) :
    (storeBytes block start bytes count).InBounds ↔
      ∀ index < count, start + index < block.size := by
  apply (fillsFrom_storeBytes start bytes).inBounds_forRange
  intro index current hsize
  rw [inBounds_store, hsize]

/-- `memcpy` of `count` bytes between two blocks. -/
def memcpy (target : Block) (start : ℕ) (source : Block) (origin count : ℕ) :
    Traced Block :=
  forRange (fun index current => do
    let value ← load source (origin + index)
    store current (start + index) value) target count

theorem fillsFrom_memcpy (start : ℕ) (source : Block) (origin : ℕ) :
    FillsFrom start (fun index => source.byte (origin + index))
      (fun index current => do
        let value ← load source (origin + index)
        store current (start + index) value) :=
  fun _ _ => rfl

theorem size_memcpy (target : Block) (start : ℕ) (source : Block)
    (origin count : ℕ) :
    (memcpy target start source origin count).value.size = target.size :=
  (fillsFrom_memcpy start source origin).size_forRange target count

theorem byte_memcpy (target : Block) (start : ℕ) (source : Block)
    (origin count index : ℕ) :
    (memcpy target start source origin count).value.byte index =
      if start ≤ index ∧ index < start + count then
        source.byte (origin + (index - start))
      else target.byte index :=
  (fillsFrom_memcpy start source origin).byte_forRange target count index

theorem inBounds_memcpy (target : Block) (start : ℕ) (source : Block)
    (origin count : ℕ) :
    (memcpy target start source origin count).InBounds ↔
      ∀ index < count,
        origin + index < source.size ∧ start + index < target.size := by
  apply (fillsFrom_memcpy start source origin).inBounds_forRange
  intro index current hsize
  rw [Traced.inBounds_bind, inBounds_load, inBounds_store, hsize]

/-- Read `count` bytes from `start` on, in order. -/
def loadBytes (block : Block) (start count : ℕ) : Traced (List UInt8) :=
  ⟨block.slice start count,
    (List.range count).map fun index => ⟨block.size, start + index⟩⟩

@[simp]
theorem value_loadBytes (block : Block) (start count : ℕ) :
    (loadBytes block start count).value = block.slice start count := rfl

theorem inBounds_loadBytes (block : Block) (start count : ℕ) :
    (loadBytes block start count).InBounds ↔
      ∀ index < count, start + index < block.size := by
  simp [loadBytes, Traced.InBounds]

/-- After any other work, the last access is the last byte of the range that is
read. -/
theorem getLast?_trace_bind_loadBytes {A : Type} (run : Traced A)
    (block : A → Block) (start count : ℕ) :
    (run >>= fun value => loadBytes (block value) start (count + 1)).trace.getLast?
      = some ⟨(block run.value).size, start + count⟩ := by
  rw [Traced.trace_bind, loadBytes, List.range_succ, List.map_append,
    List.map_singleton, ← List.append_assoc, List.getLast?_concat]

end SimpleVpn.TracedMemory
