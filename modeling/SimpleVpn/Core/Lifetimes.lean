import Mathlib.Data.Finset.Basic
import Mathlib.Data.List.Infix
import SimpleVpn.Core.Processes

/-!
# Lifetimes of resources

A program acquires resources, uses them and gives them back.  It is disciplined
when it acquires nothing that it already holds, and uses and releases only what it
holds.  A rule for two programs in a row carries what is held from the first to the
second.
-/

namespace SimpleVpn.Lifetimes

open SimpleVpn.Processes

variable {R : Type} [DecidableEq R]

inductive Operation (R : Type)
  | acquire (resource : R)
  | use (resource : R)
  | release (resource : R)
  deriving DecidableEq

namespace Operation

def Allowed (held : Finset R) : Operation R → Prop
  | acquire resource => resource ∉ held
  | use resource => resource ∈ held
  | release resource => resource ∈ held

instance (held : Finset R) :
    (operation : Operation R) → Decidable (operation.Allowed held)
  | acquire resource => inferInstanceAs (Decidable (resource ∉ held))
  | use resource => inferInstanceAs (Decidable (resource ∈ held))
  | release resource => inferInstanceAs (Decidable (resource ∈ held))

/-- What is held after an operation. -/
def after (held : Finset R) : Operation R → Finset R
  | acquire resource => insert resource held
  | use _ => held
  | release resource => held.erase resource

end Operation

/-- What is held after some operations. -/
def heldAfter (held : Finset R) (operations : List (Operation R)) : Finset R :=
  operations.foldl Operation.after held

@[simp]
theorem heldAfter_nil (held : Finset R) : heldAfter held [] = held := rfl

@[simp]
theorem heldAfter_cons (held : Finset R) (operation : Operation R)
    (rest : List (Operation R)) :
    heldAfter held (operation :: rest) = heldAfter (operation.after held) rest :=
  rfl

theorem heldAfter_append (held : Finset R) (front back : List (Operation R)) :
    heldAfter held (front ++ back) = heldAfter (heldAfter held front) back :=
  List.foldl_append

/-- Every operation is allowed where it occurs. -/
def Disciplined (held : Finset R) : List (Operation R) → Prop
  | [] => True
  | operation :: rest =>
      operation.Allowed held ∧ Disciplined (operation.after held) rest

theorem disciplined_append (held : Finset R) (front back : List (Operation R)) :
    Disciplined held (front ++ back) ↔
      Disciplined held front ∧ Disciplined (heldAfter held front) back := by
  induction front generalizing held with
  | nil => exact (and_iff_right trivial).symm
  | cons operation front ih =>
      rw [List.cons_append, Disciplined, ih, Disciplined, heldAfter_cons, and_assoc]

/-- What only uses what is held is allowed, and changes nothing. -/
theorem disciplined_of_uses {held : Finset R} {operations : List (Operation R)}
    (huses : ∀ operation ∈ operations, ∃ resource ∈ held, operation = .use resource) :
    Disciplined held operations ∧ heldAfter held operations = held := by
  induction operations with
  | nil => exact ⟨trivial, rfl⟩
  | cons operation rest ih =>
      rw [List.forall_mem_cons] at huses
      obtain ⟨resource, hresource, rfl⟩ := huses.1
      obtain ⟨hrest, hheld⟩ := ih huses.2
      exact ⟨⟨hresource, hrest⟩, hheld⟩

section Programs

variable {E F S A B : Type} (view : E → Option (Operation R))

/-- A run that is disciplined when it begins with some resources, and how it ends. -/
structure Manages (held : Finset R) (run : Process E S A)
    (ends : Except S A → Finset R → Prop) : Prop where
  disciplined : Disciplined held (run.events.filterMap view)
  ends : ends run.outcome (heldAfter held (run.events.filterMap view))

variable {view}
variable {held : Finset R} {ends : Except S A → Finset R → Prop}

@[simp]
theorem manages_pure (value : A) :
    Manages view held (pure value : Process E S A) ends ↔ ends (.ok value) held :=
  ⟨fun hrun => hrun.ends, fun hends => ⟨trivial, hends⟩⟩

@[simp]
theorem manages_stop (reason : S) :
    Manages view held (stop reason : Process E S A) ends ↔
      ends (.error reason) held :=
  ⟨fun hrun => hrun.ends, fun hends => ⟨trivial, hends⟩⟩

section Bind

/-- How a first program ends so that a second one goes on. -/
def andThen (ends : Except S B → Finset R → Prop) (next : A → Finset R → Prop) :
    Except S A → Finset R → Prop
  | .error reason => ends (.error reason)
  | .ok value => next value

omit [DecidableEq R] in
@[simp]
theorem andThen_error (ends : Except S B → Finset R → Prop)
    (next : A → Finset R → Prop) (reason : S) :
    andThen ends next (.error reason) = ends (.error reason) := rfl

omit [DecidableEq R] in
@[simp]
theorem andThen_ok (ends : Except S B → Finset R → Prop)
    (next : A → Finset R → Prop) (value : A) :
    andThen ends next (.ok value) = next value := rfl

variable {ends : Except S B → Finset R → Prop}

/-- The second program begins with what the first one leaves. -/
theorem manages_bind (run : Process E S A) (next : A → Process E S B) :
    Manages view held (run >>= next) ends ↔
      Manages view held run
        (andThen ends fun value last => Manages view last (next value) ends) := by
  obtain ⟨events, outcome⟩ := run
  cases outcome with
  | error reason =>
      exact ⟨fun hrun => ⟨hrun.disciplined, hrun.ends⟩,
        fun hrun => ⟨hrun.disciplined, hrun.ends⟩⟩
  | ok value =>
      have hevents : (Process.mk events (.ok value) >>= next).events.filterMap view =
          events.filterMap view ++ (next value).events.filterMap view :=
        List.filterMap_append
      constructor
      · rintro ⟨hdisciplined, hends⟩
        rw [hevents, disciplined_append] at hdisciplined
        rw [hevents, heldAfter_append] at hends
        exact ⟨hdisciplined.1, hdisciplined.2, hends⟩
      · rintro ⟨hdisciplined, hnext⟩
        refine ⟨?_, ?_⟩
        · rw [hevents, disciplined_append]
          exact ⟨hdisciplined, hnext.disciplined⟩
        · rw [hevents, heldAfter_append]
          exact hnext.ends

/-- One operation, and what comes after it. -/
theorem manages_operation_bind {event : E} {operation : Operation R}
    (hview : view event = some operation) (next : Unit → Process E S B) :
    Manages view held (emit event >>= next) ends ↔
      operation.Allowed held ∧ Manages view (operation.after held) (next ()) ends := by
  have hevents : (emit event >>= next).events.filterMap view =
      operation :: (next ()).events.filterMap view :=
    List.filterMap_cons_some hview
  constructor
  · rintro ⟨hdisciplined, hends⟩
    rw [hevents] at hdisciplined hends
    exact ⟨hdisciplined.1, hdisciplined.2, hends⟩
  · rintro ⟨hallowed, hdisciplined, hends⟩
    refine ⟨?_, ?_⟩
    · rw [hevents]
      exact ⟨hallowed, hdisciplined⟩
    · rw [hevents]
      exact hends

/-- A beginning without operations leaves what is held as it is. -/
theorem manages_silent_bind {run : Process E S A}
    (hsilent : run.events.filterMap view = []) (next : A → Process E S B) :
    Manages view held (run >>= next) ends ↔
      andThen ends (fun value last => Manages view last (next value) ends)
        run.outcome held := by
  rw [manages_bind]
  constructor
  · rintro ⟨-, hends⟩
    rwa [hsilent] at hends
  · intro hends
    refine ⟨?_, ?_⟩
    · rw [hsilent]
      trivial
    · rw [hsilent]
      exact hends

/-- A beginning that only uses what is held. -/
theorem manages_uses_bind {run : Process E S A} {value : A}
    (huses : ∀ event ∈ run.events, ∃ resource ∈ held,
      view event = some (.use resource))
    (hvalue : run.outcome = .ok value) (next : A → Process E S B) :
    Manages view held (run >>= next) ends ↔ Manages view held (next value) ends := by
  have hoperations : ∀ operation ∈ run.events.filterMap view,
      ∃ resource ∈ held, operation = .use resource := by
    intro operation hmem
    obtain ⟨event, hevent, hview⟩ := List.mem_filterMap.mp hmem
    obtain ⟨resource, hresource, huse⟩ := huses event hevent
    exact ⟨resource, hresource, Option.some.inj (hview.symm.trans huse)⟩
  obtain ⟨hdisciplined, hheld⟩ := disciplined_of_uses hoperations
  rw [manages_bind]
  constructor
  · rintro ⟨-, hends⟩
    rwa [hheld, hvalue] at hends
  · intro hnext
    refine ⟨hdisciplined, ?_⟩
    rw [hheld, hvalue]
    exact hnext

end Bind

/-- The plain run is the full one as far as it is shown. -/
structure Erases (shown : E → Option F) (full : Process E S A)
    (plain : Process F S A) : Prop where
  events : full.events.filterMap shown = plain.events
  outcome : full.outcome = plain.outcome

section Erases

variable {shown : E → Option F}

theorem erases_pure (value : A) :
    Erases shown (pure value : Process E S A) (pure value) := ⟨rfl, rfl⟩

theorem erases_stop (reason : S) :
    Erases shown (stop reason : Process E S A) (stop reason) := ⟨rfl, rfl⟩

theorem Erases.bind {full : Process E S A} {plain : Process F S A}
    {next : A → Process E S B} {plainNext : A → Process F S B}
    (hrun : Erases shown full plain)
    (hnext : ∀ value, Erases shown (next value) (plainNext value)) :
    Erases shown (full >>= next) (plain >>= plainNext) := by
  obtain ⟨events, outcome⟩ := full
  obtain ⟨plainEvents, plainOutcome⟩ := plain
  obtain ⟨rfl, rfl⟩ := hrun
  cases outcome with
  | error reason => exact ⟨rfl, rfl⟩
  | ok value =>
      refine ⟨?_, (hnext value).outcome⟩
      change (events ++ (next value).events).filterMap shown =
        events.filterMap shown ++ (plainNext value).events
      rw [List.filterMap_append, (hnext value).events]

/-- A beginning that shows nothing. -/
theorem erases_silent_bind {run : Process E S A} {value : A}
    (hsilent : run.events.filterMap shown = []) (hvalue : run.outcome = .ok value)
    {next : A → Process E S B} {plain : Process F S B} :
    Erases shown (run >>= next) plain ↔ Erases shown (next value) plain := by
  obtain ⟨events, outcome⟩ := run
  cases hvalue
  have hevents : (Process.mk events (.ok value) >>= next).events.filterMap shown =
      (next value).events.filterMap shown := by
    change (events ++ (next value).events).filterMap shown = _
    rw [List.filterMap_append, hsilent, List.nil_append]
  constructor
  · rintro ⟨hshown, houtcome⟩
    rw [hevents] at hshown
    exact ⟨hshown, houtcome⟩
  · rintro ⟨hshown, houtcome⟩
    refine ⟨?_, houtcome⟩
    rw [hevents]
    exact hshown

end Erases

end Programs

end SimpleVpn.Lifetimes
