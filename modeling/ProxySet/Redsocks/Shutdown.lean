import ProxySet.Redsocks.Delivery

/-!
The `evshut` words over whole runs of one client, from `redsocks_accept_client`
through the handshake of its subsystem to the end of the pump.
-/

namespace ProxySet

open StepRun

/-- The order in which the two directions of a client are shut down. -/
structure ShutOrder (client : Client) : Prop where
  half : ∀ side, (client.evshut side).write = true → (client.evshut side.other).read = true
  silentRead : ∀ side, (client.evshut side).read = true → (client.buf side).enabled.read = false
  silentWrite : ∀ side, (client.evshut side).write = true → (client.buf side).enabled.write = false
  enables : ∀ side events shut, Call.enable side events shut ∈ client.trace →
    (shut.read && events.read) = false ∧ (shut.write && events.write) = false
  connects : ∀ shut, Call.connectRelay shut ∈ client.trace → shut = EvBits.none
  once : ∀ side, (client.trace.filterMap (Call.closeOf side)).length =
    if (client.evshut side).write then 1 else 0
  full : client.bothShut = true → client.dropped = true

section Operations

variable {client next : Client}

theorem closes_eq_of_loud (target : Side) (trace : List Call) :
    trace.filterMap (Call.closeOf target) =
      (trace.filter fun entry => !entry.isQuiet).filterMap (Call.closeOf target) := by
  rw [List.filterMap_filter]
  congr 1
  funext entry
  cases entry <;> simp [Call.isQuiet, Call.closeOf]

theorem SameBits.closes (same : SameBits client next) (target : Side) :
    next.trace.filterMap (Call.closeOf target) = client.trace.filterMap (Call.closeOf target) := by
  rw [closes_eq_of_loud target next.trace, closes_eq_of_loud target client.trace]
  exact congrArg (fun bits : Bits => bits.loud.filterMap (Call.closeOf target)) same.bits

theorem SameBits.bothShut (same : SameBits client next) : next.bothShut = client.bothShut := by
  have clientShut := same.evshut .client
  have relayShut := same.evshut .relay
  simp only [Client.evshut] at clientShut relayShut
  simp [Client.bothShut, clientShut, relayShut]

theorem ShutOrder.sameBits (order : ShutOrder client) (same : SameBits client next) :
    ShutOrder next := by
  constructor
  · intro side
    rw [same.evshut, same.evshut]
    exact order.half side
  · intro side
    rw [same.evshut, same.enabled]
    exact order.silentRead side
  · intro side
    rw [same.evshut, same.enabled]
    exact order.silentWrite side
  · intro side events shut
    rw [same.mem_trace rfl]
    exact order.enables side events shut
  · intro shut
    rw [same.mem_trace rfl]
    exact order.connects shut
  · intro side
    rw [same.closes, same.evshut]
    exact order.once side
  · rw [same.bothShut]
    exact fun full => same.dropped (order.full full)

theorem ShutOrder.drop (order : ShutOrder client) (message : LogMsg) :
    ShutOrder (redsocksDropClient (client.log message)) :=
  order.sameBits ⟨(bits_drop _).trans (bits_log client message), fun _ => rfl⟩

theorem ShutOrder.disable (order : ShutOrder client) (side : Side) (events : EvBits) :
    ShutOrder (client.disable side events) := by
  refine ⟨?_, ?_, ?_, order.enables, order.connects, ?_, order.full⟩
  · simpa using order.half
  · intro which shut
    obtain rfl | rfl := Side.eq_or_eq_other which side
    · simp [order.silentRead which (by simpa using shut)]
    · simpa using order.silentRead side.other (by simpa using shut)
  · intro which shut
    obtain rfl | rfl := Side.eq_or_eq_other which side
    · simp [order.silentWrite which (by simpa using shut)]
    · simpa using order.silentWrite side.other (by simpa using shut)
  · simpa using order.once

theorem ShutOrder.enable (order : ShutOrder client) (side : Side) (events : EvBits)
    (read : ((client.evshut side).read && events.read) = false)
    (write : ((client.evshut side).write && events.write) = false) :
    ShutOrder (client.enable side events) := by
  refine ⟨?_, ?_, ?_, ?_, ?_, ?_, order.full⟩
  · simpa using order.half
  · intro which shut
    obtain rfl | rfl := Side.eq_or_eq_other which side
    · have ended : (client.evshut which).read = true := by simpa using shut
      simp [order.silentRead which ended, by simpa [ended] using read]
    · simpa using order.silentRead side.other (by simpa using shut)
  · intro which shut
    obtain rfl | rfl := Side.eq_or_eq_other which side
    · have ended : (client.evshut which).write = true := by simpa using shut
      simp [order.silentWrite which ended, by simpa [ended] using write]
    · simpa using order.silentWrite side.other (by simpa using shut)
  · intro which others shut member
    simp only [Client.enable, Client.modify, Client.setBuf_trace, Client.call_trace,
      List.mem_cons, Call.enable.injEq] at member
    rcases member with ⟨rfl, rfl, rfl⟩ | earlier
    · exact ⟨read, write⟩
    · exact order.enables which others shut earlier
  · simpa using order.connects
  · simpa [List.filterMap_cons, Call.closeOf] using order.once

theorem mem_trace_shutdown_of_loud {entry : Call} (side : Side) (how : How)
    (heard : entry.isNote = false)
    (other : ∀ eof pending output, entry ≠ .shutdown side how eof pending output) :
    entry ∈ (redsocksShutdown client side how).trace ↔ entry ∈ client.trace := by
  rw [mem_trace_shutdown _ _ _ _ heard]
  simp only [Client.callShutdown]
  split
  · rfl
  · simp [other]

theorem ShutOrder.shutdown (order : ShutOrder client) (side : Side) (how : How)
    (half : ∀ which, ((redsocksShutdown client side how).evshut which).write = true →
      ((redsocksShutdown client side how).evshut which.other).read = true)
    (once : ∀ which, ((redsocksShutdown client side how).trace.filterMap
      (Call.closeOf which)).length =
        if ((redsocksShutdown client side how).evshut which).write then 1 else 0) :
    ShutOrder (redsocksShutdown client side how) := by
  refine ⟨half, ?_, ?_, ?_, ?_, once, ?_⟩
  · intro which shut
    obtain rfl | rfl := Side.eq_or_eq_other which side
    · simp only [evshut_shutdown_self, EvBits.union_read, Bool.or_eq_true] at shut
      rcases shut with shut | shut
      · simp [order.silentRead which shut]
      · simp [shut]
    · simpa using order.silentRead side.other (by simpa using shut)
  · intro which shut
    obtain rfl | rfl := Side.eq_or_eq_other which side
    · simp only [evshut_shutdown_self, EvBits.union_write, Bool.or_eq_true] at shut
      rcases shut with shut | shut
      · simp [order.silentWrite which shut]
      · simp [shut]
    · simpa using order.silentWrite side.other (by simpa using shut)
  · intro which events shut
    rw [mem_trace_shutdown_of_loud side how rfl (by simp)]
    exact order.enables which events shut
  · intro shut
    rw [mem_trace_shutdown_of_loud side how rfl (by simp)]
    exact order.connects shut
  · intro full
    rw [dropped_shutdown, full, Bool.or_true]

theorem ShutOrder.shutdown_rd (order : ShutOrder client) (side : Side) :
    ShutOrder (redsocksShutdown client side .rd) := by
  refine order.shutdown side .rd ?_ ?_
  · intro which shut
    obtain rfl | rfl := Side.eq_or_eq_other which side
    · simpa using order.half which (by simpa [How.events, EvBits.evRead] using shut)
    · simp [How.events, EvBits.evRead]
  · intro which
    rw [closes_shutdown]
    obtain rfl | rfl := Side.eq_or_eq_other which side
    · simpa [How.events, EvBits.evRead] using order.once which
    · simpa using order.once side.other

theorem ShutOrder.shutdown_wr (order : ShutOrder client) (side : Side)
    (ended : (client.evshut side.other).read = true)
    (unshut : (client.evshut side).write = false) :
    ShutOrder (redsocksShutdown client side .wr) := by
  refine order.shutdown side .wr ?_ ?_
  · intro which shut
    obtain rfl | rfl := Side.eq_or_eq_other which side
    · simpa using ended
    · simpa [How.events, EvBits.evWrite] using order.half side.other (by simpa using shut)
  · intro which
    rw [closes_shutdown]
    obtain rfl | rfl := Side.eq_or_eq_other which side
    · have none := order.once which
      simp only [unshut, Bool.false_eq_true, ↓reduceIte, List.length_eq_zero_iff] at none
      simp [How.events, EvBits.evWrite, none]
    · simpa using order.once side.other

theorem ShutOrder.dropped_shutdown_rd (order : ShutOrder client) (side : Side)
    (reading : (client.buf side).enabled.read = true) :
    (redsocksShutdown client side .rd).dropped = client.dropped := by
  have room : (redsocksShutdown client side .rd).bothShut = false := by
    by_contra full
    rw [Bool.not_eq_false, Client.bothShut_iff _ side] at full
    have shut : (client.evshut side.other).write = true := by
      simpa [EvBits.both] using congrArg EvBits.write full.2
    have ended := order.silentRead side (by simpa using order.half side.other shut)
    simp [ended] at reading
  rw [dropped_shutdown, room, Bool.or_false]

theorem ShutOrder.setRelay (order : ShutOrder client) (fresh : client.relayEvshut = EvBits.none)
    (buffer : Bufferevent) (opened : Bool) :
    ShutOrder { client with relay := buffer, relayOpen := opened } := by
  refine ⟨?_, ?_, ?_, order.enables, order.connects, ?_, order.full⟩
  · intro side
    cases side
    · exact order.half .client
    · exact order.half .relay
  · intro side shut
    cases side with
    | client => exact order.silentRead .client shut
    | relay => simp [Client.evshut, fresh, EvBits.none] at shut
  · intro side shut
    cases side with
    | client => exact order.silentWrite .client shut
    | relay => simp [Client.evshut, fresh, EvBits.none] at shut
  · intro side
    cases side
    · exact order.once .client
    · exact order.once .relay

theorem ShutOrder.connectRelay (order : ShutOrder client) (env : Env)
    (fresh : client.relayEvshut = EvBits.none) : ShutOrder (redsocksConnectRelay env client) := by
  unfold redsocksConnectRelay
  split
  · exact (order.setRelay fresh Bufferevent.null false).drop _
  · have called : ShutOrder (client.call (.connectRelay client.relayEvshut)) := by
      refine ⟨?_, ?_, ?_, ?_, ?_, ?_, order.full⟩
      · simpa using order.half
      · simpa using order.silentRead
      · simpa using order.silentWrite
      · simpa using order.enables
      · intro shut member
        simp only [Client.call_trace, List.mem_cons, Call.connectRelay.injEq] at member
        rcases member with rfl | earlier
        · exact fresh
        · exact order.connects shut earlier
      · simpa [List.filterMap_cons, Call.closeOf] using order.once
    exact called.setRelay fresh redConnectRelay true

theorem ShutOrder.startRelay (order : ShutOrder client) (env : Env) :
    ShutOrder (redsocksStartRelay env client) := by
  have apart : ∀ shut : EvBits, (shut.read && (EvBits.both.without shut).read) = false ∧
      (shut.write && (EvBits.both.without shut).write) = false := by
    intro shut
    simp [EvBits.both]
  let pump := fun buffer : Bufferevent =>
    { buffer.setwatermark EvBits.both 0 redsocksRelayHalfbuff with
      readcb := .pump, writecb := .pump }
  let started := (({ client.fini with state := .pumpActive }.call .startRelay).modify .client
    pump).modify .relay pump
  have startedOrder : ShutOrder started := order.sameBits ⟨rfl, id⟩
  let clientOn := started.enable .client (EvBits.both.without started.clientEvshut)
  have clientOrder : ShutOrder clientOn := startedOrder.enable .client _ (apart _).1 (apart _).2
  let relayOn := clientOn.enable .relay (EvBits.both.without clientOn.relayEvshut)
  have relayOrder : ShutOrder relayOn := clientOrder.enable .relay _ (apart _).1 (apart _).2
  change ShutOrder (if env.fails .startEnableClient then
      redsocksDropClient (clientOn.log .startEnableFailed)
    else if env.fails .startEnableRelay then redsocksDropClient (relayOn.log .startEnableFailed)
    else relayOn)
  split
  · exact clientOrder.drop _
  · split
    · exact relayOrder.drop _
    · exact relayOrder

end Operations

section Steps

variable {client next last : Client} {event : Event}

/-- A relay that is read, or that no request has been sent to, has not reported EOF. -/
theorem relay_unended (handshake : Handshake client) (order : ShutOrder client)
    (allowed : client.relay.enabled.read = true ∨ client.state.awaiting = true) :
    client.relayEvshut = EvBits.none := by
  have read : client.relayEvshut.read = false := by
    rcases allowed with reading | awaiting
    · by_contra ended
      have paused := order.silentRead .relay (by simpa [Client.evshut] using ended)
      simp [Client.buf, reading] at paused
    · exact (handshake.awaiting awaiting).2
  have write : client.relayEvshut.write = false := handshake.unshut .relay
  cases shut : client.relayEvshut
  simp_all [EvBits.none]

theorem Outcome.shutOrder (outcome : Outcome client next) (handshake : Handshake client)
    (order : ShutOrder client) : ShutOrder next := by
  cases outcome with
  | stay untouched => exact order.sameBits untouched.toSameBits
  | rest untouched => exact (order.sameBits untouched.toSameBits).disable .relay EvBits.evWrite
  | wait untouched _ _ allowed =>
      have fresh := relay_unended handshake order (allowed.imp_right And.left)
      have same := untouched.evshut .relay
      simp only [Client.evshut, fresh] at same
      refine (order.sameBits untouched.toSameBits).enable .relay EvBits.evRead ?_ ?_
      · simp [Client.evshut, same, EvBits.none]
      · simp [EvBits.evRead]
  | connect env untouched _ _ allowed =>
      have fresh := relay_unended handshake order allowed
      have same := untouched.evshut .relay
      simp only [Client.evshut, fresh] at same
      exact (order.sameBits untouched.toSameBits).connectRelay env same
  | start env untouched => exact (order.sameBits untouched.toSameBits).startRelay env

theorem startable_of_handshake (handshake : Handshake client) (order : ShutOrder client)
    (untouched : Untouched client last) (reading : client.relay.enabled.read = true)
    (live : last.dropped = false) : Startable last := by
  have later : ShutOrder last := order.sameBits untouched.toSameBits
  have unshut : ∀ side, (last.evshut side).write = false := by
    intro side
    rw [untouched.evshut]
    exact handshake.unshut side
  refine ⟨live, ?_, unshut, later.silentRead, ?_, ?_⟩
  · rw [untouched.relayOpen]
    by_contra closed
    have paused := (handshake.awaiting (handshake.unopened (by simpa using closed))).1
    simp [reading] at paused
  · intro side
    have none := later.once side
    simpa [unshut side] using none
  · intro side
    rw [untouched.mem_trace rfl]
    exact handshake.unwoken side

theorem Handshake.disable_relay (handshake : Handshake client) :
    Handshake (client.disable .relay EvBits.evWrite) := by
  refine ⟨handshake.state, handshake.callbacks, ?_, ?_, handshake.unopened, handshake.unwoken⟩
  · simpa using handshake.unshut
  · simpa [Client.setBuf, Client.buf, EvBits.evWrite] using handshake.awaiting

theorem handshakeCallbacks_shutdown (side : Side) (how : How) (callbacks : client.handshakeCallbacks) :
    (redsocksShutdown client side how).handshakeCallbacks := by
  have readcb : ∀ which, ((redsocksShutdown client side how).buf which).readcb =
      (client.buf which).readcb := by
    intro which
    obtain rfl | rfl := Side.eq_or_eq_other which side <;> simp
  have writecb : ∀ which, ((redsocksShutdown client side how).buf which).writecb =
      (client.buf which).writecb := by
    intro which
    obtain rfl | rfl := Side.eq_or_eq_other which side <;> simp
  have clientRead := readcb .client
  have clientWrite := writecb .client
  have relayRead := readcb .relay
  have relayWrite := writecb .relay
  simp only [Client.buf] at clientRead clientWrite relayRead relayWrite
  unfold Client.handshakeCallbacks
  rw [clientRead, clientWrite, relayRead, relayWrite, relayOpen_shutdown]
  exact callbacks

theorem Handshake.shutdown_rd (handshake : Handshake client) (side : Side)
    (reading : (client.buf side).enabled.read = true) :
    Handshake (redsocksShutdown client side .rd) := by
  refine ⟨by simpa using handshake.state, handshakeCallbacks_shutdown side .rd handshake.callbacks,
    ?_, ?_, by simpa using handshake.unopened, ?_⟩
  · intro which
    obtain rfl | rfl := Side.eq_or_eq_other which side
    · simpa [How.events, EvBits.evRead] using handshake.unshut which
    · simpa using handshake.unshut side.other
  · intro awaiting
    obtain ⟨unread, unended⟩ := handshake.awaiting (by simpa using awaiting)
    cases side with
    | client =>
        have relayBuf := buf_shutdown_other client .client .rd
        have relayShut := evshut_shutdown_other client .client .rd
        simp only [Side.other, Client.buf, Client.evshut] at relayBuf relayShut
        rw [relayBuf, relayShut]
        exact ⟨unread, unended⟩
    | relay => simp [Client.buf, unread] at reading
  · intro which
    rw [woken_shutdown]
    exact handshake.unwoken which

theorem Outcome.phase (outcome : Outcome client next) (handshake : Handshake client)
    (order : ShutOrder client) :
    next.dropped = true ∨ Handshake next ∨
      ∃ env last, Startable last ∧ next = redsocksStartRelay env last ∧ next.dropped = false := by
  cases outcome with
  | stay untouched state same => exact Or.inr (Or.inl (handshake.untouched untouched state same))
  | rest untouched state same =>
      exact Or.inr (Or.inl (handshake.untouched untouched state same).disable_relay)
  | @wait last untouched state sent allowed =>
      have opened : client.relayOpen = true := by
        rcases allowed with reading | ⟨-, opened⟩
        · by_contra closed
          have paused := (handshake.awaiting (handshake.unopened (by simpa using closed))).1
          simp [reading] at paused
        · exact opened
      refine Or.inr (Or.inl ⟨state, untouched.callbacks handshake.callbacks, ?_, ?_, ?_, ?_⟩)
      · intro side
        simpa [untouched.evshut] using handshake.unshut side
      · intro awaiting
        simp [sent] at awaiting
      · intro closed
        simp [untouched.relayOpen, opened] at closed
      · intro side
        simpa using (untouched.mem_trace rfl).not.mpr (handshake.unwoken side)
  | @connect env last untouched state awaits allowed =>
      unfold redsocksConnectRelay
      split
      · exact Or.inl rfl
      · have fresh := untouched.evshut .relay
        simp only [Client.evshut, relay_unended handshake order allowed] at fresh
        obtain ⟨clientRead, clientWrite, -⟩ := untouched.callbacks handshake.callbacks
        refine Or.inr (Or.inl ⟨state, ⟨clientRead, clientWrite, Or.inl rfl, ?_, ?_⟩,
          ?_, ?_, ?_, ?_⟩)
        · intro pump
          cases pump
        · intro closed
          cases closed
        · intro side
          have unshut := handshake.unshut side
          rw [← untouched.evshut] at unshut
          cases side <;> exact unshut
        · intro _
          exact ⟨rfl, by simp [fresh, EvBits.none]⟩
        · intro closed
          simp at closed
        · intro side
          simpa using (untouched.mem_trace rfl).not.mpr (handshake.unwoken side)
  | @start env last untouched reading =>
      cases started : (redsocksStartRelay env last).dropped with
      | true => exact Or.inl rfl
      | false =>
          have live : last.dropped = false := by
            rwa [startRelay_of_live started, dropped_startRelay] at started
          exact Or.inr (Or.inr ⟨env, last,
            startable_of_handshake handshake order untouched reading live, rfl, rfl⟩)

theorem ShutOrder.relayWritecb (order : ShutOrder client) (target : Side) :
    ShutOrder (client.call (.relayWritecb target)) := by
  refine ⟨?_, ?_, ?_, ?_, ?_, ?_, order.full⟩
  · simpa using order.half
  · simpa using order.silentRead
  · simpa using order.silentWrite
  · simpa using order.enables
  · simpa using order.connects
  · simpa [List.filterMap_cons, Call.closeOf] using order.once

theorem ShutOrder.writeBuffer (order : ShutOrder client) (source target : Side) :
    ShutOrder (client.writeBuffer source target) := by
  refine order.sameBits ⟨?_, id⟩
  cases source <;> cases target <;> rfl

theorem PumpStep.shutOrder (taken : PumpStep client event next) (pumping : Pumping client)
    (order : ShutOrder client) : ShutOrder next := by
  cases taken with
  | others => exact order
  | read side chunk env =>
      have received : ShutOrder (client.setBuf side ((client.buf side).receive chunk)) := by
        refine order.sameBits ⟨?_, id⟩
        cases side <;> rfl
      unfold redsocksRelayReadcb
      split
      · exact received.writeBuffer side side.other
      · split
        · exact received.disable side EvBits.evRead
        · exact received
  | sent side count env =>
      refine order.sameBits ⟨?_, id⟩
      cases side <;> rfl
  | drained side count env waiting =>
      have sent : ShutOrder (client.setBuf side ((client.buf side).transmit count)) := by
        refine order.sameBits ⟨?_, id⟩
        cases side <;> rfl
      have entered := sent.relayWritecb side
      unfold redsocksRelayWritecb
      dsimp only
      split
      · next finished =>
        refine entered.shutdown_wr side finished.2 ?_
        simpa [pumping.writing] using pumping.waiting side waiting
      · split
        · have moved := entered.writeBuffer side.other side
          split
          · next paused =>
            refine moved.enable side.other EvBits.evRead ?_ (by simp [EvBits.evRead])
            simp only [Bool.and_eq_true, Bool.not_eq_true'] at paused
            simpa [Client.writeBuffer, EvBits.evRead] using paused.1
          · exact moved
        · exact entered
  | eof side canRead =>
      rw [eventError_eof_pumping pumping]
      have reading := ((canRead_pumping pumping side).mp canRead).1
      have ended := order.shutdown_rd side
      split
      · refine ended.shutdown_wr side.other (by simp [How.events, EvBits.evRead]) ?_
        by_contra shut
        have silent := order.silentRead side
          (by simpa using order.half side.other (by simpa using shut))
        simp [silent] at reading
      · exact ended

end Steps

section Runs

/-- What holds of a client in every state it can reach. -/
structure Reached (client : Client) : Prop where
  order : ShutOrder client
  phase : client.dropped = true ∨ Handshake client ∨ Pumping client

theorem Reached.pumping {client : Client} (reached : Reached client)
    (state : client.state = .pumpActive) (live : client.dropped = false) : Pumping client := by
  rcases reached.phase with dropped | handshake | pumping
  · simp [live] at dropped
  · exact absurd state handshake.state
  · exact pumping

theorem Reached.handshake {client : Client} (reached : Reached client)
    (state : client.state ≠ .pumpActive) (live : client.dropped = false) : Handshake client := by
  rcases reached.phase with dropped | handshake | pumping
  · simp [live] at dropped
  · exact handshake
  · exact absurd pumping.state state

theorem Outcome.reached {client next : Client} (outcome : Outcome client next)
    (handshake : Handshake client) (order : ShutOrder client) : Reached next := by
  refine ⟨outcome.shutOrder handshake order, ?_⟩
  rcases outcome.phase handshake order with dropped | later | ⟨env, last, startable, rfl, started⟩
  · exact Or.inl dropped
  · exact Or.inr (Or.inl later)
  · rw [startRelay_of_live started]
    exact Or.inr (Or.inr (pumping_startRelay startable))

theorem HandshakeStep.reached {client next : Client} {event : Event}
    (taken : HandshakeStep client event next)
    (handshake : Handshake client) (order : ShutOrder client) : Reached next := by
  cases taken with
  | callback _ outcome => exact outcome.reached handshake order
  | eof side canRead =>
      simp only [Bufferevent.canRead, Bool.and_eq_true] at canRead
      exact ⟨order.shutdown_rd side, Or.inr (Or.inl (handshake.shutdown_rd side canRead.1))⟩
  | error side what => exact ⟨(order.disable side what.events).drop _, Or.inl rfl⟩

theorem HandshakeStep.started {client next : Client} {event : Event}
    (taken : HandshakeStep client event next)
    (handshake : Handshake client) (order : ShutOrder client) (after : next.state = .pumpActive)
    (live : next.dropped = false) :
    ∃ env last, Startable last ∧ next = redsocksStartRelay env last := by
  cases taken with
  | callback _ outcome =>
      rcases outcome.phase handshake order with dropped | later | ⟨env, last, startable, nextEq, -⟩
      · simp [live] at dropped
      · exact absurd after later.state
      · exact ⟨env, last, startable, nextEq⟩
  | eof side => exact absurd (by simpa using after) handshake.state
  | error side what => simp at live

theorem reached_step {world next : World} {event : Event} (reached : Reached world.client)
    (taken : step world event = some next) : Reached next.client := by
  obtain ⟨order, phase⟩ := reached
  rcases phase with dropped | handshake | pumping
  · simp [step_live taken] at dropped
  · exact (step_handshakeStep handshake taken).reached handshake order
  · cases failed : event.isSocketError with
    | true =>
        obtain ⟨side, what, -, nextEq⟩ := step_socketError failed taken
        rw [nextEq]
        exact ⟨(order.disable side what.events).drop _, Or.inl rfl⟩
    | false =>
        have pumped := step_pumpStep pumping failed taken
        exact ⟨pumped.shutOrder pumping order, Or.inr (Or.inr (pumped.pumping pumping))⟩

theorem shutOrder_newClient (config : Config) (subsys : Subsys) (address : SockaddrIn) :
    ShutOrder (newClient config subsys address) := by
  constructor
  case enables => intro side events shut member; simp [newClient] at member
  case connects => intro shut member; simp [newClient] at member
  case full => intro full; simp [newClient, Client.bothShut, EvBits.none, EvBits.both] at full
  all_goals
    intro side
    cases side <;> simp [newClient, Client.evshut, EvBits.none]

theorem handshake_newClient (config : Config) (subsys : Subsys) (address : SockaddrIn) :
    Handshake (newClient config subsys address) := by
  refine ⟨?_, ?_, ?_, ?_, ?_, ?_⟩
  · cases subsys <;> simp [newClient, initialState]
  · exact ⟨Or.inl rfl, rfl, Or.inl rfl, nofun, fun _ => ⟨rfl, rfl⟩⟩
  · intro side
    cases side <;> rfl
  · intro _
    exact ⟨rfl, rfl⟩
  · intro _
    cases subsys <;> rfl
  · simp [newClient]

theorem Handshake.enable_client {client : Client} (handshake : Handshake client) :
    Handshake (client.enable .client EvBits.evRead) := by
  refine ⟨handshake.state, handshake.callbacks, ?_, handshake.awaiting, handshake.unopened, ?_⟩
  · simpa using handshake.unshut
  · simpa using handshake.unwoken

theorem reached_accept (env : Env) (config : Config) (subsys : Subsys) (address : SockaddrIn) :
    Reached (redsocksAcceptClient env config subsys address) := by
  have order : ShutOrder ((newClient config subsys address).enable .client EvBits.evRead) :=
    (shutOrder_newClient config subsys address).enable .client EvBits.evRead rfl rfl
  have handshake : Handshake ((newClient config subsys address).enable .client EvBits.evRead) :=
    (handshake_newClient config subsys address).enable_client
  have awaiting : (initialState subsys).awaiting = true := by
    cases subsys <;> rfl
  have connected : Reached (redsocksConnectRelay env
      ((newClient config subsys address).enable .client EvBits.evRead)) :=
    (Outcome.connect env (.refl _) handshake.state awaiting (Or.inr awaiting)).reached handshake order
  unfold redsocksAcceptClient
  dsimp only
  split
  · exact ⟨order.drop _, Or.inl rfl⟩
  · split
    · have installed : Untouched ((newClient config .httpRelay address).enable .client EvBits.evRead)
          (((newClient config .httpRelay address).enable .client EvBits.evRead).modify .client
            fun buffer => { buffer with readcb := .httprClient }) :=
        ⟨⟨rfl, id⟩, fun callbacks => ⟨Or.inr rfl, callbacks.2⟩⟩
      have reading := (order.sameBits installed.toSameBits).enable .client EvBits.evRead rfl rfl
      unfold httprConnectRelay
      dsimp only
      split
      · exact ⟨reading.drop _, Or.inl rfl⟩
      · exact ⟨reading, Or.inr (Or.inl
          (handshake.untouched installed handshake.state rfl).enable_client)⟩
    · exact connected

variable {env : Env} {config : Config} {auth : HttpAuth} {subsys : Subsys} {address : SockaddrIn}
  {events : List Event} {final : World}

theorem run_reached
    (ran : run step events (acceptedWorld env config auth subsys address) = some final) :
    Reached final.client :=
  run_invariant (fun world => Reached world.client) (fun _ _ _ before taken => reached_step before taken)
    (reached_accept env config subsys address) ran

/-- The client whose pump a callback starts meets what `redsocks_start_relay` relies on. -/
theorem run_startable {event : Event} {next : World}
    (ran : run step events (acceptedWorld env config auth subsys address) = some final)
    (before : final.client.state ≠ .pumpActive) (taken : step final event = some next)
    (after : next.client.state = .pumpActive) (live : next.client.dropped = false) :
    ∃ env last, Startable last ∧ next.client = redsocksStartRelay env last := by
  obtain ⟨order, phase⟩ := run_reached ran
  rcases phase with dropped | handshake | pumping
  · simp [step_live taken] at dropped
  · exact (step_handshakeStep handshake taken).started handshake order after live
  · exact absurd pumping.state before

theorem shutdown_protocol
    (ran : run step events (acceptedWorld env config auth subsys address) = some final) :
    (∀ side, (final.client.evshut side).write = true →
      (final.client.evshut side.other).read = true) ∧
    (∀ side, ((final.client.evshut side).read = true →
        (final.client.buf side).enabled.read = false) ∧
      ((final.client.evshut side).write = true → (final.client.buf side).enabled.write = false)) ∧
    (∀ side events shut, Call.enable side events shut ∈ final.client.trace →
      (shut.read && events.read) = false ∧ (shut.write && events.write) = false) ∧
    (∀ shut, Call.connectRelay shut ∈ final.client.trace → shut = EvBits.none) ∧
    (∀ side, (final.client.trace.filterMap (Call.closeOf side)).length ≤ 1) ∧
    (∀ side, (final.client.buf side).canRead = true →
      (redsocksShutdown (final.client.disable side EvBits.evRead) side .rd).dropped =
        final.client.dropped) ∧
    (final.client.evshut .client = EvBits.both → final.client.evshut .relay = EvBits.both →
      final.client.dropped = true) := by
  obtain ⟨order, -⟩ := run_reached ran
  refine ⟨order.half, fun side => ⟨order.silentRead side, order.silentWrite side⟩, order.enables,
    order.connects, ?_, ?_, ?_⟩
  · intro side
    rw [order.once side]
    split <;> simp
  · intro side canRead
    simp only [Bufferevent.canRead, Bool.and_eq_true] at canRead
    have same := shutdown_disable final.client side .rd
    rw [show How.rd.events = EvBits.evRead from rfl] at same
    rw [same, order.dropped_shutdown_rd side canRead.1]
  · intro clientShut relayShut
    exact order.full ((Client.bothShut_iff final.client .client).mpr ⟨clientShut, relayShut⟩)

def halfClosedRun : Option World :=
  run step [.writeReady .relay 0 Env.ok, .writeReady .relay 9 Env.ok,
      .readData .relay [0, 90, 0, 0, 0, 0, 0, 0] Env.ok, .report .client .readEof]
    (plainWorld .socks4)

theorem shutdown_protocol_halfClosed :
    ∃ final, halfClosedRun = some final ∧ (final.client.evshut .relay).write = true ∧
      (final.client.evshut .client).read = true := by
  have shut : halfClosedRun.any (fun final => (final.client.evshut .relay).write) = true := by
    decide
  obtain ⟨final, ran, write⟩ := (Option.any_eq_true _ _).mp shut
  exact ⟨final, ran, write, (shutdown_protocol ran).1 .relay write⟩

end Runs

end ProxySet
