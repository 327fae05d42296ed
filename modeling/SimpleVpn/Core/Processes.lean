import Mathlib.Data.List.Chain
import Mathlib.Data.List.Forall2

/-!
# Programs and the events of their runs

A program is what one of its runs shows: its events in order, and either its
result or the reason it stopped early.  A property of events that a harmless
beginning cannot decide is a property of what comes after.
-/

namespace SimpleVpn.Processes

/-- A run: its events, and its result unless it stopped. -/
structure Process (E S A : Type) where
  events : List E
  outcome : Except S A

variable {E S A B : Type}

instance : Monad (Process E S) where
  pure value := ⟨[], .ok value⟩
  bind run next :=
    match run.outcome with
    | .error reason => ⟨run.events, .error reason⟩
    | .ok value => ⟨run.events ++ (next value).events, (next value).outcome⟩

instance : LawfulMonad (Process E S) := by
  refine LawfulMonad.mk' _ ?_ ?_ ?_
  · rintro A ⟨events, reason | value⟩
    · rfl
    · change Process.mk (events ++ []) (.ok value) = _
      rw [List.append_nil]
  · intro A B value next
    rfl
  · rintro A B C ⟨events, reason | value⟩ next last
    · rfl
    · change (Process.mk (events ++ (next value).events) (next value).outcome >>=
        last) = Process.mk (events ++ (next value >>= last).events)
          (next value >>= last).outcome
      obtain ⟨middle, reason | result⟩ := next value
      · rfl
      · change Process.mk (events ++ middle ++ (last result).events) _ =
          Process.mk (events ++ (middle ++ (last result).events)) _
        rw [List.append_assoc]
        rfl

/-- One event. -/
def emit (event : E) : Process E S Unit := ⟨[event], .ok ()⟩

/-- The end of the program. -/
def stop (reason : S) : Process E S A := ⟨[], .error reason⟩

@[simp]
theorem outcome_pure (value : A) :
    (pure value : Process E S A).outcome = .ok value := rfl

@[simp]
theorem events_stop (reason : S) :
    (stop reason : Process E S A).events = [] := rfl

@[simp]
theorem events_emit_bind (event : E) (next : Unit → Process E S B) :
    (emit event >>= next).events = event :: (next ()).events := rfl

@[simp]
theorem outcome_emit_bind (event : E) (next : Unit → Process E S B) :
    (emit event >>= next).outcome = (next ()).outcome := rfl

theorem events_bind_of_ok {run : Process E S A} {value : A}
    (hrun : run.outcome = .ok value) (next : A → Process E S B) :
    (run >>= next).events = run.events ++ (next value).events := by
  cases run
  cases hrun
  rfl

theorem events_bind_of_error {run : Process E S A} {reason : S}
    (hrun : run.outcome = .error reason) (next : A → Process E S B) :
    (run >>= next).events = run.events := by
  cases run
  cases hrun
  rfl

/-- Two programs in a row give a result when each of them does. -/
theorem outcome_bind_eq_ok_iff (run : Process E S A) (next : A → Process E S B)
    (result : B) :
    (run >>= next).outcome = .ok result ↔
      ∃ value, run.outcome = .ok value ∧ (next value).outcome = .ok result := by
  obtain ⟨events, outcome⟩ := run
  cases outcome with
  | error reason =>
      constructor
      · intro heq
        cases heq
      · rintro ⟨value, heq, -⟩
        cases heq
  | ok value =>
      constructor
      · intro heq
        exact ⟨value, rfl, heq⟩
      · rintro ⟨other, heq, hnext⟩
        cases heq
        exact hnext

/-- After every event of a kind the rest of the run has a property. -/
def FollowedBy (kind : E → Prop) (property : List E → Prop) (events : List E) :
    Prop :=
  ∀ before event after, events = before ++ event :: after → kind event →
    property after

section FollowedBy

variable (kind : E → Prop) (property : List E → Prop)

@[simp]
theorem followedBy_nil : FollowedBy kind property [] := by
  intro before event after heq
  simp at heq

@[simp]
theorem followedBy_cons (first : E) (rest : List E) :
    FollowedBy kind property (first :: rest) ↔
      (kind first → property rest) ∧ FollowedBy kind property rest := by
  constructor
  · intro hall
    refine ⟨hall [] first rest rfl, fun before event after heq => ?_⟩
    exact hall (first :: before) event after (by rw [heq, List.cons_append])
  · rintro ⟨hfirst, hrest⟩ before event after heq
    cases before with
    | nil =>
        obtain ⟨rfl, rfl⟩ := List.cons.inj heq
        exact hfirst
    | cons head tail =>
        exact hrest tail event after (List.cons.inj heq).2

end FollowedBy

/-- Every event of a run is of a kind. -/
def Only (kind : E → Prop) (run : Process E S A) : Prop :=
  ∀ event ∈ run.events, kind event

section Only

variable {kind : E → Prop}

@[simp]
theorem only_pure (value : A) : Only kind (pure value : Process E S A) := by
  intro event hmem
  exact absurd hmem List.not_mem_nil

@[simp]
theorem only_stop (reason : S) : Only kind (stop reason : Process E S A) := by
  intro event hmem
  exact absurd hmem List.not_mem_nil

@[simp]
theorem only_emit_bind (event : E) (next : Unit → Process E S B) :
    Only kind (emit event >>= next) ↔ kind event ∧ Only kind (next ()) :=
  List.forall_mem_cons

theorem Only.bind {run : Process E S A} {next : A → Process E S B}
    (hrun : Only kind run)
    (hnext : ∀ value, run.outcome = .ok value → Only kind (next value)) :
    Only kind (run >>= next) := by
  intro event hmem
  cases houtcome : run.outcome with
  | error reason =>
      rw [events_bind_of_error houtcome] at hmem
      exact hrun event hmem
  | ok value =>
      rw [events_bind_of_ok houtcome, List.mem_append] at hmem
      exact hmem.elim (hrun event) (hnext value houtcome event)

end Only

/-- Events of a kind, put in front, do not change whether a property holds, and
it holds where nothing happens. -/
structure Ignores (property : List E → Prop) (kind : E → Prop) : Prop where
  nil : property []
  cons : ∀ event rest, kind event → (property (event :: rest) ↔ property rest)

section Ignores

variable {property : List E → Prop} {kind : E → Prop}
variable (hignores : Ignores property kind)

include hignores

theorem Ignores.append_iff {front : List E} (hfront : ∀ event ∈ front, kind event)
    (rest : List E) : property (front ++ rest) ↔ property rest := by
  induction front with
  | nil => rfl
  | cons event front ih =>
      rw [List.cons_append, hignores.cons event _ (hfront event List.mem_cons_self)]
      exact ih fun other hmem => hfront other (List.mem_cons_of_mem event hmem)

/-- After a harmless beginning everything depends on what it hands over. -/
theorem Ignores.bind_iff {run : Process E S A} (hrun : Only kind run)
    (next : A → Process E S B) :
    property (run >>= next).events ↔
      ∀ value, run.outcome = .ok value → property (next value).events := by
  cases houtcome : run.outcome with
  | error reason =>
      have hproperty := hignores.append_iff hrun []
      rw [List.append_nil] at hproperty
      rw [events_bind_of_error houtcome, hproperty]
      exact iff_of_true hignores.nil fun value heq => by cases heq
  | ok value =>
      rw [events_bind_of_ok houtcome, hignores.append_iff hrun]
      constructor
      · intro hnext other heq
        cases heq
        exact hnext
      · intro hall
        exact hall value rfl

end Ignores

/-- Two runs with the same beginning show related events when what comes after
it does. -/
theorem Only.forall₂_bind {run : Process E S A} {kind : E → Prop}
    (hrun : Only kind run) {relation : E → E → Prop}
    (hkind : ∀ event, kind event → relation event event)
    {next other : A → Process E S B}
    (hnext : ∀ value, run.outcome = .ok value →
      List.Forall₂ relation (next value).events (other value).events) :
    List.Forall₂ relation (run >>= next).events (run >>= other).events := by
  have hbegin : List.Forall₂ relation run.events run.events :=
    List.forall₂_same.mpr fun event hmem => hkind event (hrun event hmem)
  cases houtcome : run.outcome with
  | error reason =>
      rw [events_bind_of_error houtcome, events_bind_of_error houtcome]
      exact hbegin
  | ok value =>
      rw [events_bind_of_ok houtcome, events_bind_of_ok houtcome]
      exact List.rel_append hbegin (hnext value houtcome)

/-- A relation between neighbours that holds behind every event of a kind. -/
theorem ignores_isChain {relation : E → E → Prop} {kind : E → Prop}
    (hkind : ∀ first second, kind first → relation first second) :
    Ignores (List.IsChain relation) kind where
  nil := .nil
  cons event rest hevent := by
    rw [List.isChain_cons]
    exact and_iff_right fun other _ => hkind event other hevent

/-- No event is a lapse. -/
abbrev never : E → Prop := fun _ => False

/-- Every event meets its obligation as long as the assumptions that come with the
events before it hold, except that one event may be a lapse instead. -/
def Assured (assumption obligation : E → Prop) : (E → Prop) → List E → Prop
  | _, [] => True
  | lapse, event :: rest =>
      (obligation event ∧
          (assumption event → Assured assumption obligation lapse rest)) ∨
        lapse event ∧
          (assumption event → Assured assumption obligation never rest)

/-- All events are of a kind, but for one that may be a lapse. -/
def AllButOne (kind lapse : E → Prop) (events : List E) : Prop :=
  (∀ event ∈ events, kind event) ∨
    ∃ before event after, events = before ++ event :: after ∧ lapse event ∧
      (∀ other ∈ before, kind other) ∧ ∀ other ∈ after, kind other

theorem AllButOne.cons {kind lapse : E → Prop} {first : E} {rest : List E}
    (hfirst : kind first) (hrest : AllButOne kind lapse rest) :
    AllButOne kind lapse (first :: rest) := by
  rcases hrest with hall | ⟨before, event, after, rfl, hlapse, hbefore, hafter⟩
  · exact Or.inl (List.forall_mem_cons.mpr ⟨hfirst, hall⟩)
  · exact Or.inr ⟨first :: before, event, after, rfl, hlapse,
      List.forall_mem_cons.mpr ⟨hfirst, hbefore⟩, hafter⟩

theorem AllButOne.of_never {kind : E → Prop} {events : List E}
    (hall : AllButOne kind never events) : ∀ event ∈ events, kind event := by
  rcases hall with hall | ⟨_, _, _, -, hlapse, -⟩
  · exact hall
  · exact hlapse.elim

section Assured

variable {assumption obligation lapse : E → Prop}

@[simp]
theorem assured_pure (value : A) :
    Assured assumption obligation lapse (pure value : Process E S A).events :=
  trivial

@[simp]
theorem assured_stop (reason : S) :
    Assured assumption obligation lapse (stop reason : Process E S A).events :=
  trivial

theorem Assured.of_forall {events : List E}
    (hall : ∀ event ∈ events, obligation event) :
    Assured assumption obligation lapse events := by
  induction events with
  | nil => trivial
  | cons first rest ih =>
      rw [List.forall_mem_cons] at hall
      exact Or.inl ⟨hall.1, fun _ => ih hall.2⟩

/-- Behind a part without a lapse. -/
theorem Assured.append {front back : List E}
    (hfront : Assured assumption obligation never front)
    (hback : (∀ event ∈ front, assumption event) →
      Assured assumption obligation lapse back) :
    Assured assumption obligation lapse (front ++ back) := by
  induction front with
  | nil => exact hback fun event hmem => absurd hmem List.not_mem_nil
  | cons first front ih =>
      obtain ⟨hfirst, hrest⟩ := hfront.resolve_right fun hlapse => hlapse.1
      refine Or.inl ⟨hfirst, fun hassumed => ih (hrest hassumed) fun hall => ?_⟩
      exact hback (List.forall_mem_cons.mpr ⟨hassumed, hall⟩)

theorem Assured.of_never {events : List E}
    (hassured : Assured assumption obligation never events) :
    Assured assumption obligation lapse events := by
  rw [← List.append_nil events]
  exact hassured.append fun _ => trivial

theorem assured_emit_bind {event : E} (hevent : obligation event)
    (next : Unit → Process E S B) :
    Assured assumption obligation lapse (emit event >>= next).events ↔
      (assumption event → Assured assumption obligation lapse (next ()).events) := by
  constructor
  · rintro (⟨-, hnext⟩ | ⟨-, hnext⟩)
    · exact hnext
    · exact fun hassumed => (hnext hassumed).of_never
  · exact fun hnext => Or.inl ⟨hevent, hnext⟩

/-- A run cut anywhere meets its obligations when its assumptions hold. -/
theorem Assured.of_isPrefix {events performed : List E}
    (hassured : Assured assumption obligation lapse events)
    (hbegins : performed <+: events)
    (hall : ∀ event ∈ performed, assumption event) :
    AllButOne obligation lapse performed := by
  induction performed generalizing events lapse with
  | nil => exact Or.inl fun event hmem => absurd hmem List.not_mem_nil
  | cons first performed ih =>
      obtain ⟨rest, rfl⟩ := hbegins
      rw [List.forall_mem_cons] at hall
      have hrest : performed <+: performed ++ rest := List.prefix_append _ _
      rcases hassured with ⟨hfirst, hkept⟩ | ⟨hlapse, hkept⟩
      · exact (ih (hkept hall.1) hrest hall.2).cons hfirst
      · have hafter := (ih (hkept hall.1) hrest hall.2).of_never
        exact Or.inr ⟨[], first, performed, rfl, hlapse,
          fun other hmem => absurd hmem List.not_mem_nil, hafter⟩

theorem Assured.bind {run : Process E S A} {next : A → Process E S B}
    (hrun : Assured assumption obligation never run.events)
    (hnext : ∀ value, run.outcome = .ok value →
      (∀ event ∈ run.events, assumption event) →
      Assured assumption obligation lapse (next value).events) :
    Assured assumption obligation lapse (run >>= next).events := by
  cases houtcome : run.outcome with
  | error reason =>
      rw [events_bind_of_error houtcome]
      exact hrun.of_never
  | ok value =>
      rw [events_bind_of_ok houtcome]
      exact hrun.append (hnext value houtcome)

end Assured

end SimpleVpn.Processes
