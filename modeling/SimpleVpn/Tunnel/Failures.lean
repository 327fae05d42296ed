import SimpleVpn.Concrete.Stages

/-!
# Failed socket calls in the three programs

A failure is handled when the program reports it and neither sends nor prints
afterwards, and when no null pointer is used.  Until the packets start to move
every failure is handled.  The client goes on after both of its transfers, the
server copies from a pointer it does not check and forgets its last `send`, and
the destination says nothing about its own.
-/

namespace SimpleVpn.Failures

open SimpleVpn.TracedMemory SimpleVpn.HostWords SimpleVpn.CStrings
open SimpleVpn.Processes SimpleVpn.HostInfo SimpleVpn.Protocol SimpleVpn.Packet
open SimpleVpn.Programs SimpleVpn.Mains SimpleVpn.Stages

/-- A `send` or a `recv` that failed. -/
def FailedTransfer : Event → Prop
  | .called call false => IsTransfer call
  | _ => False

/-- Sending or printing a packet. -/
def UsesPacket : Event → Prop
  | .called (.send _ _) _ => True
  | .printed _ _ => True
  | _ => False

/-- The error is reported and no packet is used any more. -/
def ReportsAndEnds (rest : List Event) : Prop :=
  (∃ text, .reported text ∈ rest) ∧ ∀ event ∈ rest, ¬ UsesPacket event

structure FailuresHandled (events : List Event) : Prop where
  noNullAccess : .nullAccess ∉ events
  followed : FollowedBy FailedTransfer ReportsAndEnds events

@[simp]
theorem failuresHandled_nil : FailuresHandled [] :=
  ⟨List.not_mem_nil, followedBy_nil FailedTransfer ReportsAndEnds⟩

theorem failuresHandled_cons (event : Event) (rest : List Event) :
    FailuresHandled (event :: rest) ↔
      event ≠ .nullAccess ∧ (FailedTransfer event → ReportsAndEnds rest) ∧
        FailuresHandled rest := by
  constructor
  · rintro ⟨hnull, hfollowed⟩
    rw [List.mem_cons, not_or] at hnull
    rw [followedBy_cons] at hfollowed
    exact ⟨Ne.symm hnull.1, hfollowed.1, hnull.2, hfollowed.2⟩
  · rintro ⟨hnull, hfirst, hrest⟩
    refine ⟨?_, (followedBy_cons _ _ _ _).mpr ⟨hfirst, hrest.followed⟩⟩
    rw [List.mem_cons, not_or]
    exact ⟨Ne.symm hnull, hrest.noNullAccess⟩

section Events

variable (rest : List Event)

@[simp]
theorem failuresHandled_noted (text : List UInt8) :
    FailuresHandled (.noted text :: rest) ↔ FailuresHandled rest := by
  simp [failuresHandled_cons, FailedTransfer]

@[simp]
theorem failuresHandled_reported (text : List UInt8) :
    FailuresHandled (.reported text :: rest) ↔ FailuresHandled rest := by
  simp [failuresHandled_cons, FailedTransfer]

@[simp]
theorem failuresHandled_printed (packet : Block) (start : ℕ) :
    FailuresHandled (.printed packet start :: rest) ↔ FailuresHandled rest := by
  simp [failuresHandled_cons, FailedTransfer]

@[simp]
theorem failuresHandled_succeeded (call : Call) :
    FailuresHandled (.called call true :: rest) ↔ FailuresHandled rest := by
  simp [failuresHandled_cons, FailedTransfer]

@[simp]
theorem failuresHandled_failed (call : Call) :
    FailuresHandled (.called call false :: rest) ↔
      (IsTransfer call → ReportsAndEnds rest) ∧ FailuresHandled rest := by
  simp [failuresHandled_cons, FailedTransfer]

@[simp]
theorem not_failuresHandled_nullAccess :
    ¬ FailuresHandled (.nullAccess :: rest) :=
  fun hhandled => hhandled.noNullAccess List.mem_cons_self

end Events

theorem ignores_failuresHandled : Ignores FailuresHandled Preliminary where
  nil := failuresHandled_nil
  cons event rest hpreliminary := by
    cases event with
    | called call succeeded =>
        cases succeeded
        · rw [failuresHandled_failed]
          exact and_iff_right fun htransfer => absurd htransfer hpreliminary
        · exact failuresHandled_succeeded rest call
    | reported text => exact failuresHandled_reported rest text
    | noted text => exact failuresHandled_noted rest text
    | printed packet start => exact hpreliminary.elim
    | nullAccess => exact hpreliminary.elim

section Client

variable (run : ClientRun) (clientFd : ℕ)

/-- Once it is connected the client handles its failures only when there are
none. -/
theorem failuresHandled_clientExchange_iff (hosts : ClientHosts) :
    FailuresHandled (clientExchange run hosts clientFd).events ↔
      run.sends = true ∧ run.response.isSome = true := by
  rw [events_clientExchange, events_clientReceive,
    ← isSome_servRecFromCli (run.heap.after 2) run.key]
  cases (servRecFromCli (run.heap.after 2) run.key run.response).value with
  | none => cases run.sends <;> simp
  | some packet =>
      cases run.sends <;> simp [IsTransfer, ReportsAndEnds, UsesPacket]

/-- Every step of the client up to its first `send` succeeds. -/
structure ClientConnects : Prop where
  resolves : ∃ hosts, Resolves run.argv run.destHostName hosts
  socket : run.socket.isSome = true
  converts : run.converts = true
  connects : run.connects = true

theorem failuresHandled_clientMain_iff :
    FailuresHandled (clientMain run).events ↔
      (ClientConnects run →
        run.sends = true ∧ run.response.isSome = true) := by
  rw [clientMain, ignores_failuresHandled.bind_iff (only_clientHosts _ _)]
  simp only [outcome_clientHosts_iff,
    ignores_failuresHandled.bind_iff (only_connectOrExit _ _ _ _),
    outcome_connectOrExit_iff, failuresHandled_clientExchange_iff]
  constructor
  · rintro hall ⟨⟨hosts, hresolves⟩, hsocket, hconverts, hconnects⟩
    obtain ⟨clientFd, hfd⟩ := Option.isSome_iff_exists.mp hsocket
    exact hall hosts hresolves clientFd ⟨hfd, hconverts, hconnects⟩
  · rintro hhandled hosts hresolves clientFd ⟨hfd, hconverts, hconnects⟩
    exact hhandled ⟨⟨hosts, hresolves⟩, by rw [hfd]; rfl, hconverts, hconnects⟩

end Client

section Server

variable (run : ServerRun) (serverIp : List UInt8) (newSocket : ℕ)

/-- The server handles the failures of its second half only when there are
none. -/
theorem failuresHandled_serverAnswer_iff (clientFd : ℕ) (clientIp : UInt32) :
    FailuresHandled (serverAnswer run newSocket clientFd clientIp).events ↔
      run.response.isSome = true ∧ run.replies = true := by
  rw [events_serverAnswer, ← isSome_servRecFromDes (run.heap.after 2)]
  cases (servRecFromDes (run.heap.after 2) run.response).value with
  | none => simp
  | some recPacketDest =>
      cases run.replies <;> simp [IsTransfer, ReportsAndEnds]

/-- The server sends on what it received, and goes on only if that succeeds. -/
theorem failuresHandled_serverHandle_iff (recPacket : Block) :
    FailuresHandled (serverHandle run serverIp newSocket recPacket).events ↔
      (run.socket.isSome = true → run.converts = true → run.connects = true →
        run.forwards = true →
          run.response.isSome = true ∧ run.replies = true) := by
  unfold serverHandle
  simp only [printPacket, deref, send, pure_bind, bind_assoc, events_emit_bind,
    failuresHandled_printed,
    ignores_failuresHandled.bind_iff (only_connectOrExit _ _ _ _),
    outcome_connectOrExit_iff]
  cases run.forwards with
  | false =>
      refine iff_of_true (fun clientFd _ => ?_) (by simp)
      simp [giveUp, ReportsAndEnds, UsesPacket]
  | true =>
      simp only [if_true, events_emit_bind, failuresHandled_succeeded,
        failuresHandled_noted, failuresHandled_serverAnswer_iff, forall_const]
      constructor
      · intro hall hsocket hconverts hconnects
        obtain ⟨clientFd, hfd⟩ := Option.isSome_iff_exists.mp hsocket
        exact hall clientFd ⟨hfd, hconverts, hconnects⟩
      · rintro hhandled clientFd ⟨hfd, hconverts, hconnects⟩
        exact hhandled (by rw [hfd]; rfl) hconverts hconnects

theorem failuresHandled_serverServe_iff :
    FailuresHandled (serverServe run serverIp newSocket).events ↔
      (run.request.isSome = true → run.socket.isSome = true →
        run.converts = true → run.connects = true → run.forwards = true →
          run.response.isSome = true ∧ run.replies = true) := by
  rw [events_serverServe, ← isSome_servRecFromCli run.heap run.key]
  cases (servRecFromCli run.heap run.key run.request).value with
  | none => simp [ReportsAndEnds, UsesPacket]
  | some recPacket => simp [failuresHandled_serverHandle_iff]

/-- Every step of the server up to its first `send`, and that `send`,
succeeds. -/
structure ServerForwards : Prop where
  accepts : ∃ serverIp newSocket,
    Accepts run.argv run.listener run.accept serverIp newSocket
  receives : run.request.isSome = true
  socket : run.socket.isSome = true
  converts : run.converts = true
  connects : run.connects = true
  forwards : run.forwards = true

theorem failuresHandled_serverMain_iff :
    FailuresHandled (serverMain run).events ↔
      (ServerForwards run →
        run.response.isSome = true ∧ run.replies = true) := by
  rw [serverMain, serverAddress, createServerSocket, acceptClientConnection,
    accepting_iff ignores_failuresHandled]
  simp only [failuresHandled_serverServe_iff]
  constructor
  · rintro hall ⟨⟨serverIp, newSocket, haccepts⟩, hreceives, hsocket, hconverts,
      hconnects, hforwards⟩
    exact hall serverIp newSocket haccepts hreceives hsocket hconverts hconnects
      hforwards
  · intro hhandled serverIp newSocket haccepts hreceives hsocket hconverts
      hconnects hforwards
    exact hhandled ⟨⟨serverIp, newSocket, haccepts⟩, hreceives, hsocket,
      hconverts, hconnects, hforwards⟩

end Server

section Destination

variable (run : DestinationRun) (hostIp : List UInt8) (newSocket : ℕ)

/-- The destination ends either way, and never reports. -/
theorem failuresHandled_destinationServe_iff :
    FailuresHandled (destinationServe run hostIp newSocket).events ↔
      (run.request.isSome = true → run.sends = true) := by
  rw [events_destinationServe, ← isSome_destRecPkt run.heap]
  cases (destRecPkt run.heap run.request).value with
  | none => simp [ReportsAndEnds, UsesPacket]
  | some recPacket =>
      simp only [events_destinationRespond]
      cases run.sends <;> simp [IsTransfer, ReportsAndEnds]

/-- Every step of the destination up to its `send` succeeds. -/
structure DestinationResponds : Prop where
  accepts : ∃ hostIp newSocket,
    Accepts run.argv run.listener run.accept hostIp newSocket
  receives : run.request.isSome = true

theorem failuresHandled_destinationMain_iff :
    FailuresHandled (destinationMain run).events ↔
      (DestinationResponds run → run.sends = true) := by
  rw [destinationMain, destinationAddress, createDestSocket,
    acceptDestConnection, accepting_iff ignores_failuresHandled]
  simp only [failuresHandled_destinationServe_iff]
  constructor
  · rintro hall ⟨⟨hostIp, newSocket, haccepts⟩, hreceives⟩
    exact hall hostIp newSocket haccepts hreceives
  · intro hhandled hostIp newSocket haccepts hreceives
    exact hhandled ⟨⟨hostIp, newSocket, haccepts⟩, hreceives⟩

end Destination

/-- A run of one of the programs. -/
inductive ProgramRun
  | client (run : ClientRun)
  | server (run : ServerRun)
  | destination (run : DestinationRun)

def ProgramRun.events : ProgramRun → List Event
  | .client run => (clientMain run).events
  | .server run => (serverMain run).events
  | .destination run => (destinationMain run).events

/-- No call fails whose failure the program does not handle: none of the
client's transfers, neither the server's second `recv` nor its second `send`,
and not the destination's `send`. -/
def ProgramRun.UncheckedCallsSucceed : ProgramRun → Prop
  | .client run => ClientConnects run →
      run.sends = true ∧ run.response.isSome = true
  | .server run => ServerForwards run →
      run.response.isSome = true ∧ run.replies = true
  | .destination run => DestinationResponds run → run.sends = true

/-- A run handles its failures exactly when the calls succeed that the program
reaches and does not check. -/
theorem failuresHandled_iff (run : ProgramRun) :
    FailuresHandled run.events ↔ run.UncheckedCallsSucceed := by
  cases run with
  | client run => exact failuresHandled_clientMain_iff run
  | server run => exact failuresHandled_serverMain_iff run
  | destination run => exact failuresHandled_destinationMain_iff run

/-- The client between the first three hosts, whose `recv` fails. -/
def failingClient : ClientRun where
  order := .little
  heap := .zeros
  key := key
  argv := [chars "./client", chars "h1", chars "h2"]
  destHostName := chars "h3"
  socket := some 3
  converts := true
  connects := true
  sends := true
  response := none

/-- It prints the packet that it did not receive. -/
theorem not_failuresHandled_failingClient :
    ¬ FailuresHandled (ProgramRun.client failingClient).events := by
  have hconnects : ClientConnects failingClient :=
    ⟨⟨⟨h1.text, h2.text, h3.text⟩, by constructor <;> decide⟩, rfl, rfl, rfl⟩
  intro hhandled
  have hresponse := (failuresHandled_clientMain_iff failingClient).mp hhandled
    hconnects
  exact absurd hresponse.2 (by decide)

end SimpleVpn.Failures
