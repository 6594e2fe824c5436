import ProxySet.Redsocks.Shutdown

/-!
Whether a client whose peers have all ended can still come to an end itself.  In
the pump it always can; before the pump nothing is left to happen once the last
peer has reported EOF.
-/

namespace ProxySet

open StepRun

def Client.allEof (client : Client) : Prop :=
  client.clientEvshut.read = true ∧ (client.relayOpen = true → client.relayEvshut.read = true)

/-- `redsocks_drop_client` or `redsocks_start_relay` has been called on the way from `world`. -/
def Ends (world final : World) : Prop :=
  final.client.dropped = true ∨
    world.client.state ≠ .pumpActive ∧ final.client.state = .pumpActive

/-- On the list, with nothing to wait for, and no order of its callbacks ends it. -/
structure Stuck (world : World) : Prop where
  live : world.client.dropped = false
  allEof : world.client.allEof
  clientOutput : world.client.client.output = []
  relayOutput : world.client.relayOpen = true → world.client.relay.output = []
  endless : ∀ events final, run step events world = some final → ¬Ends world final

section Pump

variable {client next : Client} {event : Event}

/-- A write side that still has something to do is waiting in the event loop. -/
def Client.armedAt (client : Client) (target : Side) : Prop :=
  (client.evshut target).write = false →
    (client.buf target).output ≠ [] ∨ (client.evshut target.other).read = true →
      (client.buf target).evWrite = true

theorem armedAt_startRelay (startable : Startable client) (target : Side) :
    (redsocksStartRelay Env.ok client).armedAt target := by
  intro _ _
  simp [buf_startRelay, startable.unshut]

theorem armedAt_congr {target : Side} (armed : client.armedAt target)
    (output : (next.buf target).output = (client.buf target).output)
    (evWrite : (next.buf target).evWrite = (client.buf target).evWrite)
    (evshut : ∀ side, next.evshut side = client.evshut side) : next.armedAt target := by
  unfold Client.armedAt
  rw [output, evWrite, evshut, evshut]
  exact armed

theorem armedAt_writeBuffer {target : Side}
    (writing : (client.buf target).enabled.write = !(client.evshut target).write)
    (armed : (client.buf target.other).input = [] → client.armedAt target) :
    (client.writeBuffer target.other target).armedAt target := by
  intro unshut busy
  simp only [Client.writeBuffer, Client.modify, Client.evshut_setBuf, Client.buf_setBuf_of_other,
    Client.buf_setBuf_self, Bufferevent.write_output, Bufferevent.write_evWrite] at unshut busy ⊢
  rw [writing, unshut]
  by_cases input : (client.buf target.other).input = []
  · simp [armed input unshut (by simpa [input] using busy)]
  · simp [List.isEmpty_eq_false_iff.mpr input]

theorem armedAt_relayReadcb (side : Side) (writing : (client.buf side.other).enabled.write =
      !(client.evshut side.other).write) (armed : ∀ target, client.armedAt target) (target : Side) :
    (redsocksRelayReadcb client side side.other).armedAt target := by
  unfold redsocksRelayReadcb
  obtain rfl | rfl := Side.eq_or_eq_other target side
  · split
    · exact armedAt_congr (armed target) (by simp [Client.writeBuffer]) (by simp [Client.writeBuffer])
        (by simp [Client.writeBuffer])
    · split
      · exact armedAt_congr (armed target) (by simp) (by simp [EvBits.evRead]) (by simp)
      · exact armed target
  · split
    · have moved := armedAt_writeBuffer writing fun _ => armed side.other
      rwa [Side.other_other] at moved
    · split
      · exact armedAt_congr (armed side.other) (by simp) (by simp) (by simp)
      · exact armed side.other

theorem armedAt_shutdown_wr_self (target : Side) :
    (redsocksShutdown client target .wr).armedAt target := by
  intro unshut
  simp [How.events, EvBits.evWrite] at unshut

theorem armedAt_relayWritecb_target {target : Side} (drained : (client.buf target).output = [])
    (room : 0 < (client.buf target).wmWrite.high)
    (writing : (client.buf target).enabled.write = !(client.evshut target).write) :
    (redsocksRelayWritecb client target.other target).armedAt target := by
  unfold redsocksRelayWritecb
  dsimp only
  split
  · exact armedAt_shutdown_wr_self target
  · next more =>
    simp only [Client.buf_call, Client.evshut_call, List.length_eq_zero_iff] at more
    have moved : ((client.call (.relayWritecb target)).writeBuffer target.other target).armedAt
        target := by
      refine armedAt_writeBuffer (by simpa using writing) fun empty unshut busy => ?_
      simp only [Client.buf_call, Client.evshut_call] at empty busy
      rcases busy with output | ended
      · exact absurd drained output
      · exact absurd ⟨empty, ended⟩ more
    split
    · split
      · exact armedAt_congr moved (by simp) (by simp) (by simp)
      · exact moved
    · next full => simp [drained, room] at full

theorem armedAt_relayWritecb_source {target : Side} (armed : client.armedAt target.other) :
    (redsocksRelayWritecb client target.other target).armedAt target.other := by
  have entered : (client.call (.relayWritecb target)).armedAt target.other :=
    armedAt_congr armed (by simp) (by simp) (by simp)
  unfold redsocksRelayWritecb
  dsimp only
  split
  · intro unshut busy
    simpa using armed (by simpa using unshut) (by simpa [How.events, EvBits.evWrite] using busy)
  · split
    · split
      · exact armedAt_congr entered (by simp [Client.writeBuffer])
          (by simp [Client.writeBuffer, EvBits.evRead]) (by simp [Client.writeBuffer])
      · exact armedAt_congr entered (by simp [Client.writeBuffer]) (by simp [Client.writeBuffer])
          (by simp [Client.writeBuffer])
    · exact entered

theorem PumpStep.armedAt (taken : PumpStep client event next) (pumping : Pumping client)
    (armed : ∀ target, client.armedAt target) (target : Side) : next.armedAt target := by
  cases taken with
  | others => exact armed target
  | read side chunk env =>
      refine armedAt_relayReadcb side (by simpa using pumping.writing side.other) ?_ target
      intro which
      obtain rfl | rfl := Side.eq_or_eq_other which side
      · exact armedAt_congr (armed which) (by simp) (by simp) (by simp)
      · exact armedAt_congr (armed side.other) (by simp) (by simp) (by simp)
  | sent side count env waiting left =>
      obtain rfl | rfl := Side.eq_or_eq_other target side
      · intro _ _
        simpa using left
      · exact armedAt_congr (armed side.other) (by simp) (by simp) (by simp)
  | drained side count env waiting empty =>
      obtain rfl | rfl := Side.eq_or_eq_other target side
      · exact armedAt_relayWritecb_target (by simpa using empty)
          (by simp [pumping.wmWrite, redsocksRelayHalfbuff]) (by simpa using pumping.writing target)
      · exact armedAt_relayWritecb_source
          (armedAt_congr (armed side.other) (by simp) (by simp) (by simp))
  | eof side canRead =>
      rw [eventError_eof_pumping pumping]
      obtain rfl | rfl := Side.eq_or_eq_other target side
      · have ended : (redsocksShutdown client target .rd).armedAt target := by
          intro unshut busy
          simp only [evshut_shutdown_self, EvBits.union_write, How.events, EvBits.evRead,
            Bool.or_false] at unshut
          simpa [How.events, EvBits.evRead] using armed target unshut (by simpa using busy)
        split
        · intro unshut busy
          have waiting := ended (by simpa using unshut)
            (by simpa [How.events, EvBits.evWrite] using busy)
          simpa using waiting
        · exact ended
      · split
        · exact armedAt_shutdown_wr_self side.other
        · next left =>
          intro unshut _
          simpa using armed side.other (by simpa using unshut) (Or.inl left)

end Pump

section Ending

variable {world : World}

structure PumpState (client : Client) : Prop where
  pumping : Pumping client
  order : ShutOrder client
  armed : ∀ target, client.armedAt target

theorem PumpStep.pumpState {client next : Client} {event : Event} (taken : PumpStep client event next)
    (state : PumpState client) : PumpState next :=
  ⟨taken.pumping state.pumping, taken.shutOrder state.pumping state.order,
    taken.armedAt state.pumping state.armed⟩

theorem step_writeReady_drained (state : PumpState world.client)
    (live : world.client.dropped = false) (target : Side)
    (waiting : (world.client.buf target).evWrite = true)
    (drained : (world.client.buf target).output = []) :
    step world (.writeReady target 0 Env.ok) = some (world.withClient (redsocksRelayWritecb
      (world.client.setBuf target ((world.client.buf target).transmit 0)) target.other target)) := by
  simp [step, live, waiting, Bufferevent.mayTransmit, drained, state.pumping.wmWrite, runWritecb,
    state.pumping.writecb, World.withClient]

theorem dropped_relayWritecb {client : Client} {target : Side}
    (more : ¬((client.buf target.other).input = [] ∧ (client.evshut target.other).read = true)) :
    (redsocksRelayWritecb client target.other target).dropped = client.dropped := by
  unfold redsocksRelayWritecb
  simp only [Client.buf_call, Client.evshut_call, List.length_eq_zero_iff, more, ↓reduceIte]
  split
  · split <;> simp [Client.writeBuffer]
  · simp

theorem step_writeReady_ended (state : PumpState world.client) (live : world.client.dropped = false)
    (target : Side) (unshut : (world.client.evshut target).write = false)
    (ended : (world.client.evshut target.other).read = true)
    (drained : (world.client.buf target).output = []) :
    ∃ next, step world (.writeReady target 0 Env.ok) = some next ∧
      PumpState next.client ∧ next.client.flow target.other = world.client.flow target.other ∧
      ((next.client.evshut target).write = true ∨
        next.client.dropped = false ∧ (next.client.buf target).evWrite = true ∧
          (next.client.buf target).output ≠ []) := by
  have waiting := state.armed target unshut (Or.inr ended)
  have taken := step_writeReady_drained state live target waiting drained
  refine ⟨_, taken, ?_⟩
  have later := (step_pumpStep state.pumping rfl taken).pumpState state
  rw [World.withClient_client] at later ⊢
  refine ⟨later, ?_, ?_⟩
  · rw [flow_relayWritecb_source, flow_transmit_other]
  · have flow := flow_relayWritecb_target
      (world.client.setBuf target ((world.client.buf target).transmit 0)) target
      (by simpa using drained) (by simp [state.pumping.wmWrite, redsocksRelayHalfbuff])
    by_cases empty : (world.client.buf target.other).input = []
    · rw [if_pos (by simpa using ⟨empty, ended⟩)] at flow
      exact Or.inl (congrArg RelayFlow.closed flow)
    · rw [if_neg (by simp [empty])] at flow
      have output : ((redsocksRelayWritecb (world.client.setBuf target
          ((world.client.buf target).transmit 0)) target.other target).buf target).output ≠ [] := by
        have queued := congrArg RelayFlow.queued flow
        simp only [Client.flow_queued, Client.flow_pending, Client.buf_setBuf_other] at queued
        rwa [queued]
      have closed := congrArg RelayFlow.closed flow
      simp only [Client.flow_closed, Client.evshut_setBuf, unshut] at closed
      refine Or.inr ⟨?_, later.armed target closed (Or.inl output), output⟩
      rw [dropped_relayWritecb (by simp [empty])]
      simpa using live

theorem step_writeError (live : world.client.dropped = false) (target : Side)
    (waiting : (world.client.buf target).evWrite = true)
    (output : (world.client.buf target).output ≠ []) :
    ∃ next, step world (.report target .writeError) = some next ∧ next.client.dropped = true := by
  refine ⟨world.withClient (redsocksEventError
    (world.client.disable target What.writeError.events) target .writeError), ?_, ?_⟩
  · simp [step, live, reports, waiting, List.isEmpty_eq_false_iff.mpr output]
  · simp [redsocksEventError]

theorem closes_or_ends (state : PumpState world.client) (live : world.client.dropped = false)
    (target : Side) (unshut : (world.client.evshut target).write = false)
    (ended : (world.client.evshut target.other).read = true)
    (drained : (world.client.buf target).output = []) :
    ∃ events next, run step events world = some next ∧
      (next.client.dropped = true ∨ next.client.dropped = false ∧ PumpState next.client ∧
        next.client.flow target.other = world.client.flow target.other ∧
        (next.client.evshut target).write = true) := by
  obtain ⟨next, taken, later, flow, closed | ⟨alive, waiting, output⟩⟩ :=
    step_writeReady_ended state live target unshut ended drained
  · refine ⟨[.writeReady target 0 Env.ok], next, by simp [taken], ?_⟩
    cases dropped : next.client.dropped with
    | true => exact Or.inl rfl
    | false => exact Or.inr ⟨rfl, later, flow, closed⟩
  · obtain ⟨final, failed, dropped⟩ := step_writeError alive target waiting output
    exact ⟨[.writeReady target 0 Env.ok, .report target .writeError], final,
      by simp [taken, failed], Or.inl dropped⟩

theorem dropped_of_closed {client : Client} (order : ShutOrder client) (target : Side)
    (closed : (client.evshut target).write = true)
    (otherClosed : (client.evshut target.other).write = true) : client.dropped = true := by
  have ended := order.half target closed
  have otherEnded := order.half target.other otherClosed
  rw [Side.other_other] at otherEnded
  refine order.full ((Client.bothShut_iff client target).mpr ⟨?_, ?_⟩)
  · cases shut : client.evshut target
    simp_all [EvBits.both]
  · cases shut : client.evshut target.other
    simp_all [EvBits.both]

theorem pump_ends_of_unshut (state : PumpState world.client) (live : world.client.dropped = false)
    (ended : ∀ side, (world.client.evshut side).read = true)
    (outputs : ∀ side, (world.client.buf side).output = []) (target : Side)
    (unshut : (world.client.evshut target).write = false) :
    ∃ events final, run step events world = some final ∧ final.client.dropped = true := by
  obtain ⟨events, next, ran, dropped | ⟨alive, later, flow, closed⟩⟩ :=
    closes_or_ends state live target unshut (ended target.other) (outputs target)
  · exact ⟨events, next, ran, dropped⟩
  · have otherUnshut : (next.client.evshut target.other).write = false := by
      by_contra otherClosed
      simp [dropped_of_closed later.order target closed (by simpa using otherClosed)] at alive
    have otherEnded : (next.client.evshut target.other.other).read = true :=
      (congrArg RelayFlow.ended flow).trans (ended target.other.other)
    have drained : (next.client.buf target.other).output = [] :=
      (congrArg RelayFlow.queued flow).trans (outputs target.other)
    obtain ⟨moreEvents, final, moreRan, dropped | ⟨finalAlive, finalState, finalFlow, otherClosed⟩⟩ :=
      closes_or_ends later alive target.other otherUnshut otherEnded drained
    · exact ⟨events ++ moreEvents, final, by simp [run_append, ran, moreRan], dropped⟩
    · rw [Side.other_other] at finalFlow
      have stillClosed : (final.client.evshut target).write = true :=
        (congrArg RelayFlow.closed finalFlow).trans closed
      simp [dropped_of_closed finalState.order target stillClosed otherClosed] at finalAlive

theorem pump_ends (state : PumpState world.client) (live : world.client.dropped = false)
    (ended : ∀ side, (world.client.evshut side).read = true)
    (outputs : ∀ side, (world.client.buf side).output = []) :
    ∃ events final, run step events world = some final ∧ final.client.dropped = true := by
  cases clientShut : (world.client.evshut .client).write with
  | false => exact pump_ends_of_unshut state live ended outputs .client clientShut
  | true =>
      cases relayShut : (world.client.evshut .relay).write with
      | false => exact pump_ends_of_unshut state live ended outputs .relay relayShut
      | true => simp [dropped_of_closed state.order .client clientShut relayShut] at live

end Ending

section Runs

variable {world next : World} {event : Event}

def Heard (world : World) (event : Event) : Prop :=
  ∀ side, event = .report side .readEof → world.client.state = .pumpActive ∨
    world.client.isOpen side.other = true ∧ (world.client.evshut side.other).read = false

/-- What holds of a client when no EOF before the pump was the last one. -/
structure Attended (client : Client) : Prop where
  order : ShutOrder client
  phase : client.dropped = true ∨ Handshake client ∧ ¬client.allEof ∨ PumpState client

theorem allEof_sameBits {client next : Client} (same : SameBits client next) :
    next.allEof ↔ client.allEof := by
  have clientShut := same.evshut .client
  have relayShut := same.evshut .relay
  simp only [Client.evshut] at clientShut relayShut
  simp [Client.allEof, clientShut, relayShut, same.relayOpen]

theorem Outcome.heard {client next : Client} (outcome : Outcome client next)
    (handshake : Handshake client) (order : ShutOrder client) (talking : ¬client.allEof)
    (later : Handshake next) (live : next.dropped = false) : ¬next.allEof := by
  cases outcome with
  | stay untouched => rwa [allEof_sameBits untouched.toSameBits]
  | rest untouched => exact (allEof_sameBits untouched.toSameBits).not.mpr talking
  | wait untouched => exact (allEof_sameBits untouched.toSameBits).not.mpr talking
  | connect env untouched _ _ allowed =>
      have fresh := untouched.evshut .relay
      simp only [Client.evshut, relay_unended handshake order allowed] at fresh
      unfold redsocksConnectRelay at live ⊢
      split at live
      · simp at live
      · next ok => simp [ok, Client.allEof, fresh, EvBits.none]
  | start env untouched =>
      rw [startRelay_of_live live] at later
      exact absurd rfl later.state

theorem Outcome.attended {client next : Client} (outcome : Outcome client next)
    (handshake : Handshake client) (order : ShutOrder client) (talking : ¬client.allEof) :
    Attended next := by
  refine ⟨outcome.shutOrder handshake order, ?_⟩
  rcases outcome.phase handshake order with dropped | later | ⟨env, last, startable, rfl, started⟩
  · exact Or.inl dropped
  · cases live : next.dropped with
    | true => exact Or.inl rfl
    | false => exact Or.inr (Or.inl ⟨later, outcome.heard handshake order talking later live⟩)
  · have kept := outcome.shutOrder handshake order
    rw [startRelay_of_live started] at kept ⊢
    exact Or.inr (Or.inr ⟨pumping_startRelay startable, kept, armedAt_startRelay startable⟩)

theorem HandshakeStep.attended (taken : HandshakeStep world.client event next.client)
    (handshake : Handshake world.client) (order : ShutOrder world.client)
    (talking : ¬world.client.allEof) (heard : Heard world event) : Attended next.client := by
  generalize next.client = client at taken ⊢
  cases taken with
  | callback _ outcome => exact outcome.attended handshake order talking
  | eof side canRead =>
      simp only [Bufferevent.canRead, Bool.and_eq_true] at canRead
      refine ⟨order.shutdown_rd side,
        Or.inr (Or.inl ⟨handshake.shutdown_rd side canRead.1, fun allEof => ?_⟩)⟩
      rcases heard side rfl with pump | ⟨opened, unended⟩
      · exact handshake.state pump
      · have shut := evshut_shutdown_other world.client side .rd
        cases side with
        | client =>
            have ended := allEof.2 (by simpa [Client.isOpen, Side.other] using opened)
            simp only [Side.other, Client.evshut] at shut unended
            simp [shut, unended] at ended
        | relay =>
            have ended := allEof.1
            simp only [Side.other, Client.evshut] at shut unended
            simp [shut, unended] at ended
  | error side what => exact ⟨(order.disable side what.events).drop _, Or.inl rfl⟩

theorem attended_step (attended : Attended world.client) (heard : Heard world event)
    (taken : step world event = some next) : Attended next.client := by
  obtain ⟨order, phase⟩ := attended
  rcases phase with dropped | ⟨handshake, talking⟩ | pump
  · simp [step_live taken] at dropped
  · exact (step_handshakeStep handshake taken).attended handshake order talking heard
  · cases failed : event.isSocketError with
    | true =>
        obtain ⟨side, what, -, nextEq⟩ := step_socketError failed taken
        rw [nextEq]
        exact ⟨(order.disable side what.events).drop _, Or.inl rfl⟩
    | false =>
        have later := (step_pumpStep pump.pumping failed taken).pumpState pump
        exact ⟨later.order, Or.inr (Or.inr later)⟩

theorem accept_unended (env : Env) (config : Config) (subsys : Subsys) (address : SockaddrIn) :
    (redsocksAcceptClient env config subsys address).clientEvshut = EvBits.none ∧
      (redsocksAcceptClient env config subsys address).state ≠ .pumpActive := by
  have initial : initialState subsys ≠ .pumpActive := by
    cases subsys <;> simp [initialState]
  unfold redsocksAcceptClient
  dsimp only
  split
  · exact ⟨rfl, initial⟩
  · split
    · unfold httprConnectRelay
      dsimp only
      split <;> exact ⟨rfl, initial⟩
    · unfold redsocksConnectRelay
      split <;> exact ⟨rfl, initial⟩

theorem attended_accept (env : Env) (config : Config) (subsys : Subsys) (address : SockaddrIn) :
    Attended (redsocksAcceptClient env config subsys address) := by
  obtain ⟨order, phase⟩ := reached_accept env config subsys address
  obtain ⟨unended, state⟩ := accept_unended env config subsys address
  refine ⟨order, ?_⟩
  rcases phase with dropped | handshake | pumping
  · exact Or.inl dropped
  · exact Or.inr (Or.inl ⟨handshake, fun allEof => by simp [Client.allEof, unended, EvBits.none] at allEof⟩)
  · exact absurd pumping.state state

variable {env : Env} {config : Config} {auth : HttpAuth} {subsys : Subsys} {address : SockaddrIn}
  {events : List Event} {final : World}

theorem run_not_stuck
    (ran : run step events (acceptedWorld env config auth subsys address) = some final)
    (heard : Along step Heard events (acceptedWorld env config auth subsys address)) :
    ¬Stuck final := by
  have attended : Attended final.client :=
    run_invariant_along (fun world => Attended world.client)
      (fun _ _ _ before allowed taken => attended_step before allowed taken)
      (attended_accept env config subsys address) heard ran
  intro stuck
  rcases attended.phase with dropped | ⟨-, talking⟩ | pump
  · simp [stuck.live] at dropped
  · exact talking stuck.allEof
  · have opened := pump.pumping.relayOpen
    have ended : ∀ side, (final.client.evshut side).read = true := by
      intro side
      cases side
      · exact stuck.allEof.1
      · exact stuck.allEof.2 opened
    have outputs : ∀ side, (final.client.buf side).output = [] := by
      intro side
      cases side
      · exact stuck.clientOutput
      · exact stuck.relayOutput opened
    obtain ⟨more, last, moreRan, dropped⟩ := pump_ends pump stuck.live ended outputs
    exact stuck.endless more last moreRan (Or.inl dropped)

theorem run_not_stuck_connecting :
    ∃ final, run step [.report .client .readEof] (plainWorld .socks5) = some final ∧
      ¬Stuck final := by
  have goes : (run step [.report .client .readEof] (plainWorld .socks5)).isSome = true := by decide
  obtain ⟨final, ran⟩ := Option.isSome_iff_exists.mp goes
  refine ⟨final, ran, run_not_stuck ran ⟨?_, fun _ _ => trivial⟩⟩
  intro side reported
  obtain rfl : side = .client := (Event.report.inj reported).1.symm
  exact Or.inr ⟨rfl, rfl⟩

def Client.idle (client : Client) : Prop :=
  ∀ side, (client.buf side).canRead = false ∧ (client.buf side).evWrite = false

theorem step_idle (idle : world.client.idle) (taken : step world event = some next) :
    next.client = world.client := by
  have live := step_live taken
  simp only [step, live, Bool.false_eq_true, ↓reduceIte] at taken
  cases event with
  | readData side chunk env => simp [(idle side).1] at taken
  | writeReady side count env => simp [(idle side).2] at taken
  | report side what =>
      cases what <;> simp [reports, (idle side).1, (idle side).2] at taken
  | others auth =>
      obtain rfl := Option.some.inj taken
      rfl

theorem run_idle (idle : world.client.idle) (ran : run step events world = some final) :
    final.client = world.client :=
  run_invariant (fun state => state.client = world.client)
    (fun state _ _ same taken => (step_idle (by rwa [same]) taken).trans same) rfl ran

/-- An http-relay client that hangs up before it has sent a request. -/
def hungUpWorld : World :=
  (run step [.report .client .readEof] (plainWorld .httpRelay)).getD (plainWorld .httpRelay)

theorem eof_before_request_stuck :
    run step [.report .client .readEof] (plainWorld .httpRelay) = some hungUpWorld ∧
      Stuck hungUpWorld := by
  have idle : hungUpWorld.client.idle := by
    intro side
    cases side <;> exact ⟨rfl, rfl⟩
  refine ⟨rfl, rfl, ⟨rfl, nofun⟩, rfl, nofun, ?_⟩
  intro events final ran ends
  rw [Ends, run_idle idle ran] at ends
  rcases ends with dropped | ⟨-, pump⟩
  · exact absurd dropped (by decide)
  · exact absurd pump (by decide)

end Runs

end ProxySet
