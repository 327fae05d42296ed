import Mathlib.Algebra.Order.BigOperators.Group.Finset
import Mathlib.Data.Finset.Max
import Mathlib.Data.Fintype.BigOperators
import Mathlib.Data.List.Forall2
import Mathlib.Data.List.Infix
import Mathlib.Logic.Relation

/-!
# Processes on a network

Each process goes through its own list of actions; the network decides when an
action can take place, and the order in which the processes take turns is free.
A connection needs a listener, and what is received was sent before, in the
order in which it was sent.  Sending never waits.  A channel has one process that
writes it, and its end is only seen once that process has finished.
-/

namespace SimpleVpn.Networks

open Relation

variable {Process Port Channel Datum : Type*}

/-- What a process does next, as far as the network is concerned. -/
inductive Action (Port Channel Datum : Type*)
  | silent
  | listen (port : Port)
  | connect (port : Port)
  | accept (port : Port)
  | send (channel : Channel) (data : List Datum)
  | recv (channel : Channel) (data : List Datum)

/-- The actions of all processes, with one writer and one reader for each
channel. -/
structure Network (Process Port Channel Datum : Type*) where
  actions : Process → List (Action Port Channel Datum)
  writer : Channel → Process
  reader : Channel → Process
  sends : ∀ process channel data,
    Action.send channel data ∈ actions process → process = writer channel
  receives : ∀ process channel data,
    Action.recv channel data ∈ actions process → process = reader channel

/-- How far each process has come, and the state of the network. -/
@[ext]
structure State (Process Port Channel Datum : Type*) where
  done : Process → ℕ
  listening : Set Port
  connected : Set Port
  pending : Channel → List Datum

section Traffic

variable [DecidableEq Channel] (channel : Channel)

/-- The data that an action sends on a channel. -/
def Action.sentOn : Action Port Channel Datum → List Datum
  | .send target data => if target = channel then data else []
  | _ => []

/-- The data that an action receives from a channel. -/
def Action.receivedOn : Action Port Channel Datum → List Datum
  | .recv source data => if source = channel then data else []
  | _ => []

def sentOn (actions : List (Action Port Channel Datum)) : List Datum :=
  actions.flatMap (Action.sentOn channel)

def receivedOn (actions : List (Action Port Channel Datum)) : List Datum :=
  actions.flatMap (Action.receivedOn channel)

@[simp]
theorem sentOn_append (left right : List (Action Port Channel Datum)) :
    sentOn channel (left ++ right) =
      sentOn channel left ++ sentOn channel right :=
  List.flatMap_append

@[simp]
theorem receivedOn_append (left right : List (Action Port Channel Datum)) :
    receivedOn channel (left ++ right) =
      receivedOn channel left ++ receivedOn channel right :=
  List.flatMap_append

@[simp]
theorem sentOn_singleton (action : Action Port Channel Datum) :
    sentOn channel [action] = action.sentOn channel :=
  List.flatMap_singleton _ _

@[simp]
theorem receivedOn_singleton (action : Action Port Channel Datum) :
    receivedOn channel [action] = action.receivedOn channel :=
  List.flatMap_singleton _ _

variable {left right : List (Action Port Channel Datum)}

theorem sentOn_isPrefix (hbegins : left <+: right) :
    sentOn channel left <+: sentOn channel right := by
  obtain ⟨rest, rfl⟩ := hbegins
  rw [sentOn_append]
  exact List.prefix_append _ _

theorem receivedOn_isPrefix (hbegins : left <+: right) :
    receivedOn channel left <+: receivedOn channel right := by
  obtain ⟨rest, rfl⟩ := hbegins
  rw [receivedOn_append]
  exact List.prefix_append _ _

/-- Nothing more was sent when the beginning sent as much as the whole. -/
theorem sentOn_eq_of_between {actions : List (Action Port Channel Datum)}
    (hleft : left <+: actions) (hright : actions <+: right)
    (heq : sentOn channel left = sentOn channel right) :
    sentOn channel actions = sentOn channel right := by
  apply (sentOn_isPrefix channel hright).eq_of_length_le
  rw [← heq]
  exact (sentOn_isPrefix channel hleft).length_le

theorem receivedOn_eq_of_between {actions : List (Action Port Channel Datum)}
    (hleft : left <+: actions) (hright : actions <+: right)
    (heq : receivedOn channel left = receivedOn channel right) :
    receivedOn channel actions = receivedOn channel right := by
  apply (receivedOn_isPrefix channel hright).eq_of_length_le
  rw [← heq]
  exact (receivedOn_isPrefix channel hleft).length_le

end Traffic

/-- A beginning of a list of actions reaches a given one of them or not. -/
theorem isPrefix_or_isPrefix {action : Action Port Channel Datum}
    {actions back : List (Action Port Channel Datum)}
    (front : List (Action Port Channel Datum))
    (hbegins : actions <+: front ++ action :: back) :
    actions <+: front ∨ front ++ [action] <+: actions := by
  rcases Nat.lt_or_ge front.length actions.length with hlt | hge
  · right
    apply List.prefix_of_prefix_length_le _ hbegins
    · rw [List.length_append, List.length_singleton]
      exact hlt
    · exact ⟨back, by rw [List.append_assoc, List.singleton_append]⟩
  · left
    exact List.prefix_of_prefix_length_le hbegins (List.prefix_append _ _) hge

/-- The action moves data. -/
def Action.isTransfer : Action Port Channel Datum → Bool
  | .send _ _ => true
  | .recv _ _ => true
  | _ => false

/-- The actions that move data. -/
def transfers (actions : List (Action Port Channel Datum)) :
    List (Action Port Channel Datum) :=
  actions.filter Action.isTransfer

theorem transfers_cons_of_not {action : Action Port Channel Datum}
    (haction : action.isTransfer = false)
    (rest : List (Action Port Channel Datum)) :
    transfers (action :: rest) = transfers rest :=
  List.filter_cons_of_neg (by rw [haction]; exact Bool.false_ne_true)

theorem transfers_cons_of_pos {action : Action Port Channel Datum}
    (haction : action.isTransfer = true)
    (rest : List (Action Port Channel Datum)) :
    transfers (action :: rest) = action :: transfers rest :=
  List.filter_cons_of_pos haction

/-- Only transfers count for what is sent. -/
theorem sentOn_transfers [DecidableEq Channel] (channel : Channel)
    (actions : List (Action Port Channel Datum)) :
    sentOn channel (transfers actions) = sentOn channel actions := by
  induction actions with
  | nil => rfl
  | cons action rest ih =>
      rw [sentOn, sentOn] at *
      cases action with
      | send target data =>
          rw [transfers_cons_of_pos rfl, List.flatMap_cons, List.flatMap_cons, ih]
      | recv source data =>
          rw [transfers_cons_of_pos rfl, List.flatMap_cons, List.flatMap_cons, ih]
      | _ => rw [transfers_cons_of_not rfl, List.flatMap_cons, ih]; rfl

theorem receivedOn_transfers [DecidableEq Channel] (channel : Channel)
    (actions : List (Action Port Channel Datum)) :
    receivedOn channel (transfers actions) = receivedOn channel actions := by
  induction actions with
  | nil => rfl
  | cons action rest ih =>
      rw [receivedOn, receivedOn] at *
      cases action with
      | send target data =>
          rw [transfers_cons_of_pos rfl, List.flatMap_cons, List.flatMap_cons, ih]
      | recv source data =>
          rw [transfers_cons_of_pos rfl, List.flatMap_cons, List.flatMap_cons, ih]
      | _ => rw [transfers_cons_of_not rfl, List.flatMap_cons, ih]; rfl

/-- Both actions do the same, with as many data. -/
inductive SameShape : Action Port Channel Datum → Action Port Channel Datum → Prop
  | silent : SameShape .silent .silent
  | listen (port : Port) : SameShape (.listen port) (.listen port)
  | connect (port : Port) : SameShape (.connect port) (.connect port)
  | accept (port : Port) : SameShape (.accept port) (.accept port)
  | send (channel : Channel) {left right : List Datum}
      (hlength : left.length = right.length) :
      SameShape (.send channel left) (.send channel right)
  | recv (channel : Channel) {left right : List Datum}
      (hlength : left.length = right.length) :
      SameShape (.recv channel left) (.recv channel right)

theorem SameShape.refl (action : Action Port Channel Datum) :
    SameShape action action := by
  cases action with
  | silent => exact .silent
  | listen port => exact .listen port
  | connect port => exact .connect port
  | accept port => exact .accept port
  | send channel data => exact .send channel rfl
  | recv channel data => exact .recv channel rfl

section Shape

variable {left right : List (Action Port Channel Datum)}
variable (hshape : List.Forall₂ SameShape left right)

include hshape

theorem listen_mem_iff (port : Port) :
    Action.listen port ∈ left ↔ Action.listen port ∈ right := by
  induction hshape with
  | nil => rfl
  | cons hfirst _ ih =>
      rw [List.mem_cons, List.mem_cons, ih]
      cases hfirst <;> simp

theorem connect_mem_iff (port : Port) :
    Action.connect port ∈ left ↔ Action.connect port ∈ right := by
  induction hshape with
  | nil => rfl
  | cons hfirst _ ih =>
      rw [List.mem_cons, List.mem_cons, ih]
      cases hfirst <;> simp

variable [DecidableEq Channel] (channel : Channel)

theorem length_sentOn_eq :
    (sentOn channel left).length = (sentOn channel right).length := by
  induction hshape with
  | nil => rfl
  | cons hfirst _ ih =>
      rw [sentOn, sentOn, List.flatMap_cons, List.flatMap_cons,
        List.length_append, List.length_append]
      congr 1
      cases hfirst with
      | send target hlength =>
          rw [Action.sentOn, Action.sentOn]
          split
          next => exact hlength
          next => rfl
      | _ => rfl

theorem length_receivedOn_eq :
    (receivedOn channel left).length = (receivedOn channel right).length := by
  induction hshape with
  | nil => rfl
  | cons hfirst _ ih =>
      rw [receivedOn, receivedOn, List.flatMap_cons, List.flatMap_cons,
        List.length_append, List.length_append]
      congr 1
      cases hfirst with
      | recv source hlength =>
          rw [Action.receivedOn, Action.receivedOn]
          split
          next => exact hlength
          next => rfl
      | _ => rfl

end Shape

namespace Network

variable (network : Network Process Port Channel Datum)

/-- The actions that a process has done. -/
def history (done : Process → ℕ) (process : Process) :
    List (Action Port Channel Datum) :=
  (network.actions process).take (done process)

def Finished (done : Process → ℕ) (process : Process) : Prop :=
  done process = (network.actions process).length

/-- An action can take place. -/
def Enabled (state : State Process Port Channel Datum) :
    Action Port Channel Datum → Prop
  | .connect port => port ∈ state.listening
  | .accept port => port ∈ state.connected
  | .recv channel data => data <+: state.pending channel ∧
      (data = [] → state.pending channel = [] ∧
        network.Finished state.done (network.writer channel))
  | _ => True

def start : State Process Port Channel Datum where
  done _ := 0
  listening := ∅
  connected := ∅
  pending _ := []

variable [DecidableEq Process] [DecidableEq Channel]

/-- The state after an action of a process. -/
def after (state : State Process Port Channel Datum) (process : Process)
    (action : Action Port Channel Datum) : State Process Port Channel Datum where
  done := Function.update state.done process (state.done process + 1)
  listening := {port | port ∈ state.listening ∨ action = .listen port}
  connected := {port | port ∈ state.connected ∨ action = .connect port}
  pending channel := (state.pending channel ++ action.sentOn channel).drop
    (action.receivedOn channel).length

/-- Some process does its next action. -/
inductive Step (before : State Process Port Channel Datum) :
    State Process Port Channel Datum → Prop
  | act (process : Process) (action : Action Port Channel Datum)
      (hnext : (network.actions process)[before.done process]? = some action)
      (henabled : network.Enabled before action) :
      Step before (after before process action)

/-- What the network reaches from its start, in whatever order the processes
take turns. -/
def Reaches (state : State Process Port Channel Datum) : Prop :=
  ReflTransGen network.Step start state

/-- A trace that leads to a state: who did what, in order. -/
inductive Follows : List (Process × Action Port Channel Datum) →
    State Process Port Channel Datum → Prop
  | start : Follows [] start
  | act {trace state} (hfollows : Follows trace state) (process : Process)
      (action : Action Port Channel Datum)
      (hnext : (network.actions process)[state.done process]? = some action)
      (henabled : network.Enabled state action) :
      Follows (trace ++ [(process, action)]) (after state process action)

variable {network} in
theorem Follows.reaches {trace : List (Process × Action Port Channel Datum)}
    {state : State Process Port Channel Datum}
    (hfollows : network.Follows trace state) : network.Reaches state := by
  induction hfollows with
  | start => exact .refl
  | act _ process action hnext henabled ih =>
      exact ih.tail (.act process action hnext henabled)

variable {network} in
theorem Reaches.exists_follows {state : State Process Port Channel Datum}
    (hreach : network.Reaches state) : ∃ trace, network.Follows trace state := by
  induction hreach with
  | refl => exact ⟨[], .start⟩
  | tail _ hstep ih =>
      obtain ⟨trace, hfollows⟩ := ih
      obtain ⟨process, action, hnext, henabled⟩ := hstep
      exact ⟨_, hfollows.act process action hnext henabled⟩

/-! ## The account of a state -/

section Updates

variable {network} {done : Process → ℕ} {process : Process}
variable {action : Action Port Channel Datum}
variable (hnext : (network.actions process)[done process]? = some action)

include hnext

omit [DecidableEq Channel] in
theorem history_update_self :
    network.history (Function.update done process (done process + 1)) process =
      network.history done process ++ [action] := by
  rw [history, Function.update_self, List.take_add_one, hnext]
  rfl

omit [DecidableEq Channel] in
theorem mem_history_update (other : Process)
    (candidate : Action Port Channel Datum) :
    candidate ∈ network.history
        (Function.update done process (done process + 1)) other ↔
      candidate ∈ network.history done other ∨
        (other = process ∧ candidate = action) := by
  by_cases hother : other = process
  · rw [hother, history_update_self hnext, List.mem_append, List.mem_singleton,
      and_iff_right rfl]
  · rw [history, Function.update_of_ne hother]
    exact (or_iff_left fun hboth => hother hboth.1).symm

theorem sentOn_history_update (channel : Channel) :
    sentOn channel (network.history
        (Function.update done process (done process + 1))
          (network.writer channel)) =
      sentOn channel (network.history done (network.writer channel)) ++
        action.sentOn channel := by
  by_cases hwriter : network.writer channel = process
  · rw [hwriter, history_update_self hnext, sentOn_append, sentOn_singleton]
  · have hsent : action.sentOn channel = [] := by
      cases action with
      | send target data =>
          refine if_neg fun htarget => hwriter ?_
          rw [← htarget]
          exact (network.sends _ _ _ (List.mem_of_getElem? hnext)).symm
      | _ => rfl
    rw [history, Function.update_of_ne hwriter, hsent, List.append_nil, history]

theorem receivedOn_history_update (channel : Channel) :
    receivedOn channel (network.history
        (Function.update done process (done process + 1))
          (network.reader channel)) =
      receivedOn channel (network.history done (network.reader channel)) ++
        action.receivedOn channel := by
  by_cases hreader : network.reader channel = process
  · rw [hreader, history_update_self hnext, receivedOn_append,
      receivedOn_singleton]
  · have hreceived : action.receivedOn channel = [] := by
      cases action with
      | recv source data =>
          refine if_neg fun hsource => hreader ?_
          rw [← hsource]
          exact (network.receives _ _ _ (List.mem_of_getElem? hnext)).symm
      | _ => rfl
    rw [history, Function.update_of_ne hreader, hreceived, List.append_nil,
      history]

end Updates

omit [DecidableEq Process] in
/-- What a process receives next lies at the front of what is pending. -/
theorem Enabled.receivedOn_isPrefix {network : Network Process Port Channel Datum}
    {state : State Process Port Channel Datum}
    {action : Action Port Channel Datum}
    (henabled : network.Enabled state action) (channel : Channel) :
    action.receivedOn channel <+: state.pending channel := by
  cases action with
  | recv source data =>
      rw [Action.receivedOn]
      split
      next hsource =>
        subst hsource
        exact henabled.1
      next => exact List.nil_prefix
  | _ => exact List.nil_prefix

/-- The network's state is what the processes have done: the listeners and
connections they made, and on each channel what was sent and is not received. -/
structure Accounted (state : State Process Port Channel Datum) : Prop where
  done_le : ∀ process, state.done process ≤ (network.actions process).length
  listening_iff : ∀ port, port ∈ state.listening ↔
    ∃ process, Action.listen port ∈ network.history state.done process
  connected_iff : ∀ port, port ∈ state.connected ↔
    ∃ process, Action.connect port ∈ network.history state.done process
  sent_eq : ∀ channel,
    sentOn channel (network.history state.done (network.writer channel)) =
      receivedOn channel
          (network.history state.done (network.reader channel)) ++
        state.pending channel

omit [DecidableEq Process] in
theorem accounted_start : network.Accounted start where
  done_le _ := Nat.zero_le _
  listening_iff port := by simp [start, history]
  connected_iff port := by simp [start, history]
  sent_eq channel := by simp [start, history, sentOn, receivedOn]

variable {network}

/-- Every step keeps the account. -/
theorem Accounted.step {before after : State Process Port Channel Datum}
    (haccounted : network.Accounted before) (hstep : network.Step before after) :
    network.Accounted after := by
  obtain ⟨process, action, hnext, henabled⟩ := hstep
  have hlt := (List.getElem?_eq_some_iff.mp hnext).1
  refine ⟨fun other => ?_, fun port => ?_, fun port => ?_, fun channel => ?_⟩
  · change Function.update before.done process _ other ≤ _
    by_cases hother : other = process
    · rw [hother, Function.update_self]
      exact hlt
    · rw [Function.update_of_ne hother]
      exact haccounted.done_le other
  · change port ∈ before.listening ∨ action = .listen port ↔ ∃ other,
      Action.listen port ∈ network.history (Function.update _ _ _) other
    simp only [haccounted.listening_iff, mem_history_update hnext, exists_or,
      exists_eq_left]
    rw [eq_comm]
  · change port ∈ before.connected ∨ action = .connect port ↔ ∃ other,
      Action.connect port ∈ network.history (Function.update _ _ _) other
    simp only [haccounted.connected_iff, mem_history_update hnext, exists_or,
      exists_eq_left]
    rw [eq_comm]
  · change sentOn channel (network.history (Function.update _ _ _) _) =
      receivedOn channel (network.history (Function.update _ _ _) _) ++
        (before.pending channel ++ action.sentOn channel).drop _
    obtain ⟨rest, hrest⟩ := henabled.receivedOn_isPrefix channel
    rw [sentOn_history_update hnext, receivedOn_history_update hnext,
      haccounted.sent_eq, ← hrest, List.append_assoc, List.append_assoc,
      List.append_assoc, List.drop_left]

theorem Reaches.accounted {state : State Process Port Channel Datum}
    (hreach : network.Reaches state) : network.Accounted state := by
  induction hreach with
  | refl => exact accounted_start network
  | tail _ hstep ih => exact ih.step hstep

/-- Whatever the order of the steps, what was received is a prefix of what was
sent. -/
theorem Reaches.receivedOn_isPrefix {state : State Process Port Channel Datum}
    (hreach : network.Reaches state) (channel : Channel) :
    receivedOn channel (network.history state.done (network.reader channel)) <+:
      sentOn channel
        (network.history state.done (network.writer channel)) :=
  ⟨state.pending channel, (hreach.accounted.sent_eq channel).symm⟩

/-- A connection is accepted only after it was made. -/
theorem Reaches.connected_of_accept {state : State Process Port Channel Datum}
    (hreach : network.Reaches state) {process : Process} {port : Port}
    (haccept : .accept port ∈ network.history state.done process) :
    port ∈ state.connected := by
  induction hreach with
  | refl => simp [start, history] at haccept
  | tail _ hstep ih =>
      obtain ⟨other, action, hnext, henabled⟩ := hstep
      rcases (mem_history_update hnext process _).mp haccept with
        hbefore | ⟨-, rfl⟩
      · exact Or.inl (ih hbefore)
      · exact Or.inl henabled

omit [DecidableEq Process] [DecidableEq Channel] in
/-- An action that is done lies in the past. -/
theorem mem_history {done : Process → ℕ} {process : Process} (index : ℕ)
    {action : Action Port Channel Datum}
    (hindex : (network.actions process)[index]? = some action)
    (hdone : index < done process) : action ∈ network.history done process :=
  List.mem_of_getElem? ((List.getElem?_take_of_lt hdone).trans hindex)

omit [DecidableEq Process] in
/-- Once the writer has sent all it sends on a channel, a reader that received
nothing of it can receive any beginning of it. -/
theorem Accounted.enabled_recv {state : State Process Port Channel Datum}
    (haccounted : network.Accounted state) (channel : Channel) {count : ℕ}
    {part whole : List Datum}
    (hdone : count ≤ state.done (network.writer channel))
    (hsent : sentOn channel
      ((network.actions (network.writer channel)).take count) = whole)
    (hall : sentOn channel (network.actions (network.writer channel)) = whole)
    (hreceived : receivedOn channel
      (network.history state.done (network.reader channel)) = [])
    (hpart : part <+: whole) (hne : part ≠ []) :
    network.Enabled state (.recv channel part) := by
  have hpast := sentOn_eq_of_between channel
    (List.take_prefix_take_left hdone) (List.take_prefix _ _)
    (hsent.trans hall.symm)
  have hsplit := haccounted.sent_eq channel
  rw [history, hpast, hall, hreceived, List.nil_append] at hsplit
  refine ⟨?_, fun hnil => absurd hnil hne⟩
  rw [← hsplit]
  exact hpart

omit [DecidableEq Process] in
/-- A state is determined by how far the processes have come. -/
theorem Accounted.eq_of_done_eq {left right : State Process Port Channel Datum}
    (hleft : network.Accounted left) (hright : network.Accounted right)
    (hdone : left.done = right.done) : left = right := by
  refine State.ext hdone (Set.ext fun port => ?_) (Set.ext fun port => ?_)
    (funext fun channel => ?_)
  · rw [hleft.listening_iff, hright.listening_iff, hdone]
  · rw [hleft.connected_iff, hright.connected_iff, hdone]
  · apply List.append_cancel_left
    rw [← hleft.sent_eq, hdone, hright.sent_eq]

/-! ## Runs that come to an end -/

section Progress

variable [Fintype Process]

/-- The number of actions that are left. -/
def remaining (network : Network Process Port Channel Datum)
    (state : State Process Port Channel Datum) : ℕ :=
  ∑ process, ((network.actions process).length - state.done process)

theorem Step.remaining_lt {before after : State Process Port Channel Datum}
    (hstep : network.Step before after) :
    network.remaining after < network.remaining before := by
  obtain ⟨process, action, hnext, henabled⟩ := hstep
  have hlt := (List.getElem?_eq_some_iff.mp hnext).1
  apply Finset.sum_lt_sum
  · intro other _
    change _ - Function.update before.done process _ other ≤ _
    by_cases hother : other = process
    · rw [hother, Function.update_self]
      omega
    · rw [Function.update_of_ne hother]
  · refine ⟨process, Finset.mem_univ process, ?_⟩
    change _ - Function.update before.done process _ process < _
    rw [Function.update_self]
    omega

/-- No run goes on for ever. -/
theorem wellFounded_step (network : Network Process Port Channel Datum) :
    WellFounded fun after before => network.Step before after :=
  Subrelation.wf Step.remaining_lt
    (measure (network.remaining)).wf

/-- Without deadlocks every run can be continued until all processes have
finished. -/
theorem Reaches.exists_finished
    (hprogress : ∀ state, network.Reaches state →
      (∃ process, ¬ network.Finished state.done process) →
        ∃ next, network.Step state next)
    {state : State Process Port Channel Datum} (hreach : network.Reaches state) :
    ∃ final, ReflTransGen network.Step state final ∧
      ∀ process, network.Finished final.done process := by
  induction state using (wellFounded_step network).induction with
  | _ state ih =>
      by_cases hfinished : ∃ process, ¬ network.Finished state.done process
      · obtain ⟨next, hstep⟩ := hprogress state hreach hfinished
        obtain ⟨final, hfinal, hall⟩ := ih next hstep (hreach.tail hstep)
        exact ⟨final, .head hstep hfinal, hall⟩
      · exact ⟨state, .refl, not_exists_not.mp hfinished⟩

variable (network) in
/-- When the actions of all processes can be put into one order in which each of
them can take place after those before it, there is no deadlock. -/
theorem exists_step_of_rank (rank : Process → ℕ → ℕ)
    (hrank : ∀ process, StrictMono (rank process))
    (henabled : ∀ state, network.Reaches state → ∀ process action,
      (network.actions process)[state.done process]? = some action →
        (∀ other index, index < (network.actions other).length →
          rank other index < rank process (state.done process) →
            index < state.done other) →
          network.Enabled state action)
    (state : State Process Port Channel Datum) (hreach : network.Reaches state)
    (hunfinished : ∃ process, ¬ network.Finished state.done process) :
    ∃ next, network.Step state next := by
  classical
  -- of the processes that are not finished, the one that comes first
  obtain ⟨process, hmem, hleast⟩ := Finset.exists_min_image
    (Finset.univ.filter fun process => ¬ network.Finished state.done process)
    (fun process => rank process (state.done process))
    (by
      obtain ⟨process, hprocess⟩ := hunfinished
      exact ⟨process, Finset.mem_filter.mpr ⟨Finset.mem_univ _, hprocess⟩⟩)
  have hlt : state.done process < (network.actions process).length :=
    lt_of_le_of_ne (hreach.accounted.done_le process)
      (Finset.mem_filter.mp hmem).2
  have hnext := List.getElem?_eq_getElem hlt
  refine ⟨_, .act process _ hnext (henabled state hreach process _ hnext ?_)⟩
  intro other index hindex hbefore
  by_contra hpending
  have hunfinished : ¬ network.Finished state.done other := by
    rw [Finished]
    omega
  have hfirst := hleast other (Finset.mem_filter.mpr
    ⟨Finset.mem_univ _, hunfinished⟩)
  have hmono := (hrank other).monotone (Nat.le_of_not_lt hpending)
  exact absurd (hbefore.trans_le (hfirst.trans hmono)) (lt_irrefl _)

end Progress

/-- Finished runs end in one state. -/
theorem Reaches.eq_of_finished {left right : State Process Port Channel Datum}
    (hleft : network.Reaches left) (hright : network.Reaches right)
    (hleftEnd : ∀ process, network.Finished left.done process)
    (hrightEnd : ∀ process, network.Finished right.done process) :
    left = right :=
  hleft.accounted.eq_of_done_eq hright.accounted
    (funext fun process => (hleftEnd process).trans (hrightEnd process).symm)

section Simulation

variable {first second : Network Process Port Channel Datum}

/-- The actions of both networks have the same shapes, on the same channels. -/
structure Alike (first second : Network Process Port Channel Datum) : Prop where
  writer_eq : first.writer = second.writer
  reader_eq : first.reader = second.reader
  shape : ∀ process,
    List.Forall₂ SameShape (first.actions process) (second.actions process)

variable (halike : Alike first second)

include halike

omit [DecidableEq Process] [DecidableEq Channel] in
theorem Alike.history (done : Process → ℕ) (process : Process) :
    List.Forall₂ SameShape (first.history done process)
      (second.history done process) :=
  List.forall₂_take _ (halike.shape process)

omit [DecidableEq Process] [DecidableEq Channel] in
theorem Alike.finished_iff (done : Process → ℕ) (process : Process) :
    first.Finished done process ↔ second.Finished done process := by
  rw [Finished, Finished, (halike.shape process).length_eq]

omit [DecidableEq Process] in
/-- As much is pending. -/
theorem Alike.length_pending_eq {left right : State Process Port Channel Datum}
    (hleft : first.Accounted left) (hright : second.Accounted right)
    (hdone : right.done = left.done) (channel : Channel) :
    (left.pending channel).length = (right.pending channel).length := by
  have hsent := length_sentOn_eq
    (halike.history left.done (first.writer channel)) channel
  have hreceived := length_receivedOn_eq
    (halike.history left.done (first.reader channel)) channel
  have hleftEq := congrArg List.length (hleft.sent_eq channel)
  have hrightEq := congrArg List.length (hright.sent_eq channel)
  rw [hdone, ← halike.writer_eq, ← halike.reader_eq] at hrightEq
  rw [List.length_append] at hleftEq hrightEq
  omega

/-- What can be received in one network can be received in the other, when the
data do not contradict what is sent there. -/
theorem Alike.enabled {left right : State Process Port Channel Datum}
    (hleft : first.Accounted left) (hright : second.Accounted right)
    (hdone : right.done = left.done) {process : Process}
    {action other : Action Port Channel Datum}
    (hnext : (second.actions process)[left.done process]? = some other)
    (hshape : SameShape action other) (henabled : first.Enabled left action)
    (hdata : ∀ channel,
      receivedOn channel (second.history
          (Function.update left.done process (left.done process + 1))
            (second.reader channel)) <+:
        sentOn channel (second.actions (second.writer channel))) :
    second.Enabled right other := by
  have hlistening : ∀ port, port ∈ left.listening ↔ port ∈ right.listening := by
    intro port
    rw [hleft.listening_iff, hright.listening_iff, hdone]
    exact exists_congr fun process =>
      listen_mem_iff (halike.history left.done process) port
  have hconnected : ∀ port, port ∈ left.connected ↔ port ∈ right.connected := by
    intro port
    rw [hleft.connected_iff, hright.connected_iff, hdone]
    exact exists_congr fun process =>
      connect_mem_iff (halike.history left.done process) port
  cases hshape with
  | silent => trivial
  | listen port => trivial
  | connect port => exact (hlistening port).mp henabled
  | accept port => exact (hconnected port).mp henabled
  | send channel hlength => trivial
  | recv channel hlength =>
      rename_i data otherData
      have hpending := halike.length_pending_eq hleft hright hdone channel
      obtain ⟨hbegins, hempty⟩ := henabled
      constructor
      · -- both are prefixes of what the writer sends in its whole run
        have hwhole := hdata channel
        rw [receivedOn_history_update hnext, Action.receivedOn,
          if_pos rfl] at hwhole
        have hsent : receivedOn channel (second.history left.done
              (second.reader channel)) ++ right.pending channel <+:
            sentOn channel (second.actions (second.writer channel)) := by
          rw [← hdone, ← hright.sent_eq]
          exact sentOn_isPrefix channel (List.take_prefix _ _)
        have hle := hbegins.length_le
        rw [← List.prefix_append_right_inj (receivedOn channel
          (second.history left.done (second.reader channel)))]
        apply List.prefix_of_prefix_length_le hwhole hsent
        rw [List.length_append, List.length_append]
        omega
      · intro hnil
        have hdataNil : data = [] := by
          rw [← List.length_eq_zero_iff, hlength, hnil, List.length_nil]
        obtain ⟨hpendingNil, hfinished⟩ := hempty hdataNil
        rw [hpendingNil, List.length_nil, eq_comm,
          List.length_eq_zero_iff] at hpending
        refine ⟨hpending, ?_⟩
        rw [hdone, ← halike.finished_iff, ← halike.writer_eq]
        exact hfinished

/-- Whatever trace the first network follows, the second follows action by action,
if its data never contradict what is sent. -/
theorem Alike.follows
    {related : Process → Action Port Channel Datum →
      Action Port Channel Datum → Prop}
    (hrelated : ∀ process, List.Forall₂ (related process)
      (first.actions process) (second.actions process))
    (hdata : ∀ state, first.Reaches state → ∀ channel,
      receivedOn channel (second.history state.done (second.reader channel)) <+:
        sentOn channel (second.actions (second.writer channel)))
    {trace : List (Process × Action Port Channel Datum)}
    {state : State Process Port Channel Datum}
    (hfollows : first.Follows trace state) :
    ∃ otherTrace otherState, second.Follows otherTrace otherState ∧
      otherState.done = state.done ∧
      List.Forall₂ (fun step otherStep => step.1 = otherStep.1 ∧
        related step.1 step.2 otherStep.2) trace otherTrace := by
  induction hfollows with
  | start => exact ⟨[], start, .start, rfl, .nil⟩
  | @act trace state hfollows process action hnext henabled ih =>
      obtain ⟨otherTrace, otherState, hother, hdone, htraces⟩ := ih
      have hafter := hdata _ (Follows.act hfollows process action hnext
        henabled).reaches
      obtain ⟨counterpart, hcounterpart, hshape, hpair⟩ : ∃ counterpart,
          (second.actions process)[state.done process]? = some counterpart ∧
            SameShape action counterpart ∧
            related process action counterpart := by
        obtain ⟨hlt, haction⟩ := List.getElem?_eq_some_iff.mp hnext
        have hltOther := hlt
        rw [(halike.shape process).length_eq] at hltOther
        refine ⟨_, List.getElem?_eq_getElem hltOther, ?_, ?_⟩
        · rw [← haction]
          exact (halike.shape process).get hlt hltOther
        · rw [← haction]
          exact (hrelated process).get hlt hltOther
      have hallowed := halike.enabled hfollows.reaches.accounted
        hother.reaches.accounted hdone hcounterpart hshape henabled hafter
      rw [← hdone] at hcounterpart
      refine ⟨_, _, .act hother process counterpart hcounterpart hallowed, ?_,
        List.rel_append htraces (.cons ⟨rfl, hpair⟩ .nil)⟩
      rw [Network.after, Network.after, hdone]

end Simulation

end Network

end SimpleVpn.Networks
