import ProxySet.Redsocks.Pump

/-!
What `redsocks_start_relay` turns a client into, and what every run of the pump
from there delivers: the bytes of both directions, the moments at which a write
side is shut down, and how far reading runs ahead of writing.
-/

namespace ProxySet

open StepRun

/-- What holds of a client when a subsystem hands it to `redsocks_start_relay`, whatever its
buffers contain. -/
structure Startable (client : Client) : Prop where
  live : client.dropped = false
  relayOpen : client.relayOpen = true
  unshut : ∀ side, (client.evshut side).write = false
  silent : ∀ side, (client.evshut side).read = true → (client.buf side).enabled.read = false
  unclosed : ∀ side, client.trace.filterMap (Call.closeOf side) = []
  unwoken : ∀ side, Call.relayWritecb side ∉ client.trace

def Event.smooth : Event → Prop
  | .readData _ _ env | .writeReady _ _ env => env.smooth
  | .report _ _ => False
  | .others _ => True

/-- What the client has been or will be sent; the pump still moves the relay's input to it. -/
def Client.handed (client : Client) : Bytes :=
  client.client.sent ++ client.client.output ++
    if client.state = .pumpActive then client.relay.input else []

section Start

variable {client : Client} {env : Env}

theorem startRelay_of_live (started : (redsocksStartRelay env client).dropped = false) :
    redsocksStartRelay env client = redsocksStartRelay Env.ok client := by
  simp only [redsocksStartRelay] at started ⊢
  split at started
  · simp at started
  · next clientOk =>
    split at started
    · simp at started
    · next relayOk => simp [clientOk, relayOk, Env.ok]

theorem buf_startRelay (side : Side) :
    (redsocksStartRelay Env.ok client).buf side =
      { client.buf side with
        enabled := (client.buf side).enabled.union (EvBits.both.without (client.evshut side))
        evWrite := (client.buf side).evWrite || !(client.evshut side).write
        wmRead := { low := 0, high := redsocksRelayHalfbuff }
        wmWrite := { low := 0, high := redsocksRelayHalfbuff }
        readcb := .pump
        writecb := .pump } := by
  cases side <;> rfl

theorem evshut_startRelay (side : Side) :
    (redsocksStartRelay Env.ok client).evshut side = client.evshut side := by
  cases side <;> rfl

theorem dropped_startRelay : (redsocksStartRelay Env.ok client).dropped = client.dropped := rfl

theorem trace_startRelay :
    (redsocksStartRelay Env.ok client).trace =
      .enable .relay (EvBits.both.without client.relayEvshut) client.relayEvshut ::
        .enable .client (EvBits.both.without client.clientEvshut) client.clientEvshut ::
          .startRelay :: client.trace := rfl

theorem pumping_startRelay (startable : Startable client) :
    Pumping (redsocksStartRelay Env.ok client) := by
  constructor
  · rfl
  · exact startable.relayOpen
  all_goals
    intro side
    simp [buf_startRelay, evshut_startRelay, startable.unshut, EvBits.both]

theorem flow_startRelay (startable : Startable client) (target : Side) :
    (redsocksStartRelay Env.ok client).flow target =
      { client.flow target with
        reading := !(client.flow target).ended
        closed := false
        woken := false
        closes := [] } := by
  have reading : ((client.buf target.other).enabled.read || !(client.evshut target.other).read) =
      !(client.evshut target.other).read := by
    cases shut : (client.evshut target.other).read
    · simp
    · simp [startable.silent _ shut]
  simp [Client.flow, buf_startRelay, evshut_startRelay, trace_startRelay, List.filterMap_cons,
    Call.closeOf, startable.unshut, startable.unclosed, startable.unwoken, EvBits.both, reading]

theorem handed_startRelay (client : Client) : (redsocksStartRelay Env.ok client).handed =
    client.client.sent ++ client.client.output ++ client.relay.input := by
  rw [Client.handed, if_pos (state_startRelay Env.ok client)]
  rfl

end Start

section Delivery

variable {world final : World} {env : Env} {events : List Event}

theorem flow_socketError (client : Client) (side target : Side) (what : What) :
    ∃ reading, (redsocksDropClient
      ((client.disable side what.events).log (.socketError side what))).flow target =
        { client.flow target with reading := (client.flow target).reading && reading } := by
  obtain rfl | rfl := Side.eq_or_eq_other side target
  · exact ⟨true, by simp [Client.flow, List.filterMap_cons, Call.closeOf]⟩
  · refine ⟨!what.events.read, ?_⟩
    simp [Client.flow, List.filterMap_cons, Call.closeOf]

/-- What the steps of a flow keep, and what survives the end of its reading, holds throughout every
run of the pump. -/
theorem run_pump (holds : Side → RelayFlow UInt8 → Prop)
    (kept : ∀ target flow next, RelayFlow.Step redsocksRelayHalfbuff flow next →
      holds target flow → holds target next)
    (held : ∀ target flow reading, holds target flow →
      holds target { flow with reading := flow.reading && reading })
    (ran : run step events world = some final) (pumping : Pumping world.client)
    (initial : ∀ target, holds target (world.client.flow target)) (target : Side) :
    holds target (final.client.flow target) := by
  have reached : (final.client.dropped = true ∨ Pumping final.client) ∧
      ∀ target, holds target (final.client.flow target) := by
    refine run_invariant (fun state => (state.client.dropped = true ∨ Pumping state.client) ∧
      ∀ target, holds target (state.client.flow target)) ?_ ⟨Or.inr pumping, initial⟩ ran
    intro state event next ⟨alive, before⟩ taken
    cases failed : event.isSocketError with
    | true =>
        obtain ⟨side, what, -, nextEq⟩ := step_socketError failed taken
        refine ⟨Or.inl (by simp [nextEq]), fun target => ?_⟩
        obtain ⟨reading, flowEq⟩ := flow_socketError state.client side target what
        rw [nextEq, flowEq]
        exact held target _ reading (before target)
    | false =>
        rcases alive with dropped | pumping
        · simp [step_live taken] at dropped
        · have pumped := step_pumpStep pumping failed taken
          exact ⟨Or.inr (pumped.pumping pumping),
            fun target => kept target _ _ (pumped.flow pumping target) (before target)⟩
  exact reached.2 target

theorem run_pump_calm (holds : Side → RelayFlow UInt8 → Prop)
    (kept : ∀ target flow next, RelayFlow.Step redsocksRelayHalfbuff flow next →
      holds target flow → holds target next)
    (ran : run step events world = some final)
    (calm : ∀ event ∈ events, event.isSocketError = false) (pumping : Pumping world.client)
    (initial : ∀ target, holds target (world.client.flow target)) :
    Pumping final.client ∧ ∀ target, holds target (final.client.flow target) := by
  refine run_invariant_along (fun state => Pumping state.client ∧
    ∀ target, holds target (state.client.flow target)) ?_ ⟨pumping, initial⟩
    (along_of_forall calm world) ran
  intro state event next ⟨pumping, before⟩ quiet taken
  have pumped := step_pumpStep pumping quiet taken
  exact ⟨pumped.pumping pumping,
    fun target => kept target _ _ (pumped.flow pumping target) (before target)⟩

theorem handed_pumpStep {event : Event} {client next : Client} (taken : PumpStep client event next)
    (pumping : Pumping client) : next.handed = client.handed ++ event.chunk .relay := by
  obtain ⟨arrived, left, receivedEq, deliveredEq, whole⟩ := (taken.flow pumping .client).carries
  have rcvd := taken.received pumping .relay
  have arrivedEq : arrived = event.chunk .relay :=
    List.append_cancel_left (receivedEq.symm.trans rcvd)
  subst arrivedEq
  simp only [Client.handed, (taken.pumping pumping).state, pumping.state, ↓reduceIte]
  simp only [Client.flow, Side.other, Client.buf] at deliveredEq whole
  rw [deliveredEq, List.append_assoc, List.append_assoc, ← List.append_assoc left, whole]
  simp

theorem smooth_calm {event : Event} (smooth : event.smooth) : event.isSocketError = false := by
  cases event with
  | report => exact smooth.elim
  | _ => rfl

/-- The direction towards `target` delivers, in order and once, what was buffered at the start and
what has arrived since; its write side is shut down only behind the last byte. -/
structure DeliversWhole (start client : Client) (target : Side) : Prop where
  inOrder : ∃ arrived left, (client.buf target.other).rcvd = (start.buf target.other).rcvd ++ arrived ∧
    (client.buf target).sent = (start.buf target).sent ++ left ∧
    left ++ (client.buf target).output ++ (client.buf target.other).input =
      (start.buf target).output ++ (start.buf target.other).input ++ arrived
  closes : ∀ eof pending output, Call.shutdown target .wr eof pending output ∈ client.trace →
    eof = true ∧ pending = [] ∧ output = []
  whole : (client.evshut target).write = true →
    (client.evshut target.other).read = true ∧ (client.buf target.other).input = [] ∧
      (client.buf target).output = []

/-- Input that is buffered when the pump starts is behind output that has yet to drain, or its
sender has no EOF left to report before it has been moved. -/
def Client.inputCovered (client : Client) (target : Side) : Prop :=
  (client.buf target.other).input = [] ∨ (client.buf target).output ≠ [] ∨
    (client.evshut target.other).read = true ∨
    redsocksRelayHalfbuff ≤ (client.buf target.other).input.length

theorem closes_of_orderly {client : Client} {target : Side} {limit : Nat}
    (orderly : (client.flow target).Orderly limit) (eof : Bool) (pending output : Bytes)
    (called : Call.shutdown target .wr eof pending output ∈ client.trace) :
    eof = true ∧ pending = [] ∧ output = [] := by
  have listed : (eof, pending, output) ∈ (client.flow target).closes :=
    List.mem_filterMap.mpr ⟨_, called, by simp [Call.closeOf]⟩
  simpa using orderly.closes _ listed

/-- The EOF handler looks at the output only: it shuts the write side down in front of the input. -/
theorem step_eof_startRelay (startable : Startable world.client) {target : Side}
    (drained : (world.client.buf target).output = [])
    (unended : (world.client.evshut target.other).read = false)
    (short : (world.client.buf target.other).input.length < redsocksRelayHalfbuff) :
    ∃ next, step (world.withClient (redsocksStartRelay Env.ok world.client))
        (.report target.other .readEof) = some next ∧
      Call.shutdown target .wr true (world.client.buf target.other).input [] ∈ next.client.trace := by
  have pumping := pumping_startRelay startable
  have readable : ((redsocksStartRelay Env.ok world.client).buf target.other).canRead = true := by
    rw [canRead_pumping pumping]
    simpa [buf_startRelay, unended, EvBits.both] using short
  have closing := eventError_eof_pumping pumping target.other
  rw [Side.other_other, if_pos (by simpa [buf_startRelay] using drained)] at closing
  refine ⟨world.withClient (redsocksShutdown
    (redsocksShutdown (redsocksStartRelay Env.ok world.client) target.other .rd) target .wr), ?_, ?_⟩
  · rw [← closing]
    simp [step, World.withClient, dropped_startRelay, startable.live, reports, readable, What.events]
  · rw [World.withClient, mem_trace_shutdown _ _ _ _ rfl]
    simp [buf_startRelay, drained, How.events, EvBits.evRead]

/-- Nothing a pump has taken over or read is lost, reordered or sent twice. -/
theorem run_carries (startable : Startable world.client)
    (ran : run step events (world.withClient (redsocksStartRelay Env.ok world.client)) = some final)
    (target : Side) : (world.client.flow target).Carries (final.client.flow target) := by
  refine run_pump (fun target flow => (world.client.flow target).Carries flow) ?_ ?_ ran
    (pumping_startRelay startable) ?_ target
  · intro target flow next taken before
    exact before.trans taken.carries
  · intro target flow reading before
    exact before.hold _
  · intro target
    simp only [World.withClient, flow_startRelay startable target]
    exact RelayFlow.Carries.refl (world.client.flow target)

theorem run_orderly (startable : Startable world.client)
    (covered : ∀ target, world.client.inputCovered target)
    (ran : run step events (world.withClient (redsocksStartRelay Env.ok world.client)) = some final)
    (target : Side) : (final.client.flow target).Orderly redsocksRelayHalfbuff := by
  refine run_pump (fun _ flow => flow.Orderly redsocksRelayHalfbuff) ?_ ?_ ran
    (pumping_startRelay startable) ?_ target
  · intro target flow next taken before
    exact taken.orderly (by decide) before
  · intro target flow reading before
    exact before.hold reading
  · intro target
    simp only [World.withClient, flow_startRelay startable target]
    exact ⟨covered target, by simp, by simp, by simp⟩

theorem pump_deliversWhole_iff (startable : Startable world.client)
    (started : (redsocksStartRelay env world.client).dropped = false) :
    (∀ events final,
      run step events (world.withClient (redsocksStartRelay env world.client)) = some final →
        ∀ target, DeliversWhole world.client final.client target) ↔
      ∀ target, world.client.inputCovered target := by
  rw [startRelay_of_live started]
  constructor
  · intro delivers target
    by_contra overlooked
    simp only [Client.inputCovered, not_or, not_not, Bool.not_eq_true, Nat.not_le] at overlooked
    obtain ⟨pending, drained, unended, short⟩ := overlooked
    obtain ⟨next, taken, called⟩ := step_eof_startRelay startable drained unended short
    have whole := delivers [.report target.other .readEof] next (by simp [taken]) target
    exact pending (whole.closes _ _ _ called).2.1
  · intro covered events final ran target
    have orderly := run_orderly startable covered ran target
    exact ⟨run_carries startable ran target, closes_of_orderly orderly, orderly.closed⟩

/-- A socks4 client that has sent a byte while the proxy was still silent. -/
def pipelinedWorld : World :=
  (run step [.writeReady .relay 0 Env.ok, .writeReady .relay 9 Env.ok,
    .readData .client [65] Env.ok] (plainWorld .socks4)).getD (plainWorld .socks4)

theorem pipelinedWorld_startable : Startable pipelinedWorld.client := by
  constructor
  · decide
  · decide
  all_goals
    intro side
    cases side <;> decide

theorem pump_deliversWhole_iff_pipelined :
    (∀ events final, run step events
      (pipelinedWorld.withClient (redsocksStartRelay Env.ok pipelinedWorld.client)) = some final →
        ∀ target, DeliversWhole pipelinedWorld.client final.client target) ↔
      ∀ target, pipelinedWorld.client.inputCovered target :=
  pump_deliversWhole_iff pipelinedWorld_startable (by decide)

theorem pump_discards_pipelined_input :
    Startable pipelinedWorld.client ∧ ¬∀ events final, run step events
      (pipelinedWorld.withClient (redsocksStartRelay Env.ok pipelinedWorld.client)) = some final →
        ∀ target, DeliversWhole pipelinedWorld.client final.client target := by
  refine ⟨pipelinedWorld_startable, fun delivers => ?_⟩
  have drained : (pipelinedWorld.client.buf .relay).output = [] := by decide
  have unended : (pipelinedWorld.client.evshut .client).read = false := by decide
  have short : (pipelinedWorld.client.buf .client).input.length < redsocksRelayHalfbuff := by decide
  obtain ⟨next, taken, called⟩ :=
    step_eof_startRelay pipelinedWorld_startable drained unended short
  have whole := delivers [.report .client .readEof] next (Option.bind_eq_some_iff.mpr ⟨next, taken, rfl⟩)
    .relay
  exact absurd (whole.closes _ _ _ called).2.1 (by decide)

/-- What holds in each direction of a pump between two callbacks. -/
theorem pump_backpressure (startable : Startable world.client)
    (started : (redsocksStartRelay env world.client).dropped = false)
    (calm : ∀ event ∈ events, event.isSocketError = false)
    (ran : run step events (world.withClient (redsocksStartRelay env world.client)) = some final)
    (target : Side) :
    (Call.relayWritecb target ∈ final.client.trace →
      ((final.client.buf target.other).enabled.read = true →
        (final.client.buf target.other).input = []) ∧
      ((final.client.buf target.other).enabled.read = false →
        (final.client.evshut target.other).read = false →
          (final.client.buf target).output ≠ [] ∧
            (final.client.buf target).enabled.write = true)) ∧
      ((world.client.buf target.other).input = [] → (world.client.buf target).output = [] →
        (final.client.buf target).output.length ≤ 4095 + 4096) := by
  rw [startRelay_of_live started] at ran
  have initially : ∀ target, ((redsocksStartRelay Env.ok world.client).flow target).Throttled ∧
      ((world.client.flow target).Bounded redsocksRelayHalfbuff →
        ((redsocksStartRelay Env.ok world.client).flow target).Bounded redsocksRelayHalfbuff) := by
    intro target
    rw [flow_startRelay startable target]
    refine ⟨⟨by simp, ?_, by simp⟩, fun bounded => ⟨bounded.pending, bounded.queued⟩⟩
    intro paused unended
    simp_all
  obtain ⟨pumped, kept⟩ := run_pump_calm (fun target flow => flow.Throttled ∧
    ((world.client.flow target).Bounded redsocksRelayHalfbuff →
      flow.Bounded redsocksRelayHalfbuff)) (by
    intro target flow next taken ⟨throttled, bounded⟩
    exact ⟨taken.throttled (by decide) throttled,
      fun initial => taken.bounded (by decide) (bounded initial)⟩) ran calm
    (pumping_startRelay startable) initially
  obtain ⟨throttled, bounded⟩ := kept target
  refine ⟨fun woken => ⟨throttled.moved (by simpa using woken), fun paused unended => ?_⟩, ?_⟩
  · obtain ⟨queued, unclosed⟩ := throttled.resumes paused unended
    exact ⟨queued, by simpa [pumped.writing] using unclosed⟩
  · intro noInput noOutput
    have initial : (world.client.flow target).Bounded redsocksRelayHalfbuff :=
      ⟨by simp [noInput], by simp [noOutput]⟩
    exact (bounded initial).queued

theorem pump_backpressure_pipelined :
    ∃ final, run step [.writeReady .relay 0 Env.ok]
        (pipelinedWorld.withClient (redsocksStartRelay Env.ok pipelinedWorld.client)) = some final ∧
      Call.relayWritecb .relay ∈ final.client.trace ∧
      ((final.client.buf .client).enabled.read = true → (final.client.buf .client).input = []) := by
  have started : (redsocksStartRelay Env.ok pipelinedWorld.client).dropped = false := by decide
  have calm : ∀ event ∈ [Event.writeReady .relay 0 Env.ok], event.isSocketError = false := by
    simp [Event.isSocketError]
  refine ⟨_, rfl, by decide, ?_⟩
  exact ((pump_backpressure pipelinedWorld_startable started calm rfl .relay).1 (by decide)).1

end Delivery

end ProxySet
