import Mathlib.Data.List.Basic

/-!
# Texts made of lines

A text in which every line is ended by a newline can be taken apart again: two
texts with equally many lines are equal only when they agree line by line.
-/

namespace SimpleVpn.Lines

def newline : UInt8 := 10

/-- The lines, each followed by a newline. -/
def text (lines : List (List UInt8)) : List UInt8 :=
  lines.flatMap fun line => line ++ [newline]

theorem text_cons_append (line : List UInt8) (lines : List (List UInt8))
    (rest : List UInt8) :
    text (line :: lines) ++ rest = line ++ newline :: (text lines ++ rest) := by
  rw [text, List.flatMap_cons, List.append_assoc, List.append_assoc]
  rfl

/-- The first newline ends the first line. -/
theorem line_append_eq_iff {left right : List UInt8} (hleft : newline ∉ left)
    (hright : newline ∉ right) (rest other : List UInt8) :
    left ++ newline :: rest = right ++ newline :: other ↔
      left = right ∧ rest = other := by
  constructor
  · intro heq
    induction left generalizing right with
    | nil =>
        cases right with
        | nil => exact ⟨rfl, (List.cons.inj heq).2⟩
        | cons char chars =>
            exact absurd (List.mem_cons.mpr (Or.inl (List.cons.inj heq).1)) hright
    | cons char chars ih =>
        cases right with
        | nil =>
            exact absurd (List.mem_cons.mpr (Or.inl (List.cons.inj heq).1.symm))
              hleft
        | cons otherChar otherChars =>
            obtain ⟨rfl, hrest⟩ := List.cons.inj heq
            obtain ⟨hchars, hother⟩ := ih
              (fun hmem => hleft (List.mem_cons_of_mem _ hmem))
              (fun hmem => hright (List.mem_cons_of_mem _ hmem)) hrest
            exact ⟨congrArg _ hchars, hother⟩
  · rintro ⟨rfl, rfl⟩
    rfl

/-- None of the lines is broken. -/
def Unbroken (lines : List (List UInt8)) : Prop := ∀ line ∈ lines, newline ∉ line

@[simp]
theorem unbroken_cons (line : List UInt8) (lines : List (List UInt8)) :
    Unbroken (line :: lines) ↔ newline ∉ line ∧ Unbroken lines :=
  List.forall_mem_cons

@[simp]
theorem unbroken_nil : Unbroken [] := fun _ hmem => absurd hmem List.not_mem_nil

/-- Equally many lines can be told apart from each other and from what follows. -/
theorem text_append_eq_iff {left right : List (List UInt8)}
    (hlength : left.length = right.length) (hleft : Unbroken left)
    (hright : Unbroken right) (rest other : List UInt8) :
    text left ++ rest = text right ++ other ↔ left = right ∧ rest = other := by
  induction left generalizing right with
  | nil =>
      obtain rfl := List.length_eq_zero_iff.mp hlength.symm
      exact (and_iff_right rfl).symm
  | cons line lines ih =>
      cases right with
      | nil => cases hlength
      | cons otherLine otherLines =>
          rw [unbroken_cons] at hleft hright
          rw [text_cons_append, text_cons_append,
            line_append_eq_iff hleft.1 hright.1,
            ih (Nat.succ.inj hlength) hleft.2 hright.2, List.cons.injEq,
            and_assoc]

end SimpleVpn.Lines
