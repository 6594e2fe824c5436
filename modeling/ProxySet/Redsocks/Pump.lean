import ProxySet.Lib.RelayFlow
import ProxySet.Lib.StepRun
import ProxySet.Redsocks.Handshake

/-!
The pump that `redsocks_start_relay` starts: what one callback does to it, the
bytes of each direction, and when the write side is shut down.
-/

namespace ProxySet

open StepRun

structure Pumping (client : Client) : Prop where
  state : client.state = .pumpActive
  relayOpen : client.relayOpen = true
  readcb : ∀ side, (client.buf side).readcb = .pump
  writecb : ∀ side, (client.buf side).writecb = .pump
  wmRead : ∀ side, (client.buf side).wmRead = { low := 0, high := redsocksRelayHalfbuff }
  wmWrite : ∀ side, (client.buf side).wmWrite = { low := 0, high := redsocksRelayHalfbuff }
  writing : ∀ side, (client.buf side).enabled.write = !(client.evshut side).write
  waiting : ∀ side, (client.buf side).evWrite = true → (client.buf side).enabled.write = true

/-- The reports that end in `redsocks_drop_client` at once. -/
def Event.isSocketError : Event → Bool
  | .report _ what => decide (what ≠ .readEof)
  | _ => false

/-- What a callback of a started pump can do when the sockets do not fail. -/
inductive PumpStep (client : Client) : Event → Client → Prop where
  | others (auth : HttpAuth) : PumpStep client (.others auth) client
  | read (side : Side) (chunk : Bytes) (env : Env) : (client.buf side).canRead = true →
      (client.buf side).fits chunk = true →
      PumpStep client (.readData side chunk env) (redsocksRelayReadcb
        (client.setBuf side ((client.buf side).receive chunk)) side side.other)
  | sent (side : Side) (count : Nat) (env : Env) : (client.buf side).evWrite = true →
      (client.buf side).output.drop count ≠ [] →
      PumpStep client (.writeReady side count env)
        (client.setBuf side ((client.buf side).transmit count))
  | drained (side : Side) (count : Nat) (env : Env) : (client.buf side).evWrite = true →
      (client.buf side).output.drop count = [] →
      PumpStep client (.writeReady side count env) (redsocksRelayWritecb
        (client.setBuf side ((client.buf side).transmit count)) side.other side)
  | eof (side : Side) : (client.buf side).canRead = true →
      PumpStep client (.report side .readEof)
        (redsocksEventError (client.disable side EvBits.evRead) side .readEof)

theorem step_pumpStep {world next : World} {event : Event} (pumping : Pumping world.client)
    (calm : event.isSocketError = false) (taken : step world event = some next) :
    PumpStep world.client event next.client := by
  have live := step_live taken
  simp only [step, live, Bool.false_eq_true, ↓reduceIte] at taken
  cases event with
  | readData side chunk env =>
      simp only [pumping.wmRead, Nat.zero_le, ↓reduceIte, Option.ite_none_right_eq_some,
        Bool.and_eq_true] at taken
      obtain ⟨⟨canRead, fits⟩, taken⟩ := taken
      obtain rfl := returned taken
      simpa [runReadcb, World.withClient, pumping.readcb] using PumpStep.read side chunk env canRead fits
  | writeReady side count env =>
      simp only [pumping.wmWrite, Option.ite_none_right_eq_some, Bool.and_eq_true] at taken
      obtain ⟨⟨waiting, allowed⟩, taken⟩ := taken
      split at taken
      · next drained =>
        simp only [Option.some.injEq] at taken
        subst taken
        have empty : (world.client.buf side).output.drop count = [] :=
          List.length_eq_zero_iff.mp (by simpa using drained)
        simpa [runWritecb, World.withClient, pumping.writecb] using
          PumpStep.drained side count env waiting empty
      · next left =>
        simp only [Option.some.injEq] at taken
        subst taken
        refine PumpStep.sent side count env waiting ?_
        intro empty
        simp [empty] at left
  | report side what =>
      simp only [Option.ite_none_right_eq_some, Option.some.injEq] at taken
      obtain ⟨reported, rfl⟩ := taken
      have eof : what = .readEof := by simpa [Event.isSocketError] using calm
      subst eof
      exact PumpStep.eof side reported
  | others auth =>
      simp only [Option.some.injEq] at taken
      subst taken
      exact PumpStep.others auth

theorem step_socketError {world next : World} {event : Event}
    (failed : event.isSocketError = true) (taken : step world event = some next) :
    ∃ side what, what ≠ .readEof ∧ next.client =
      redsocksDropClient ((world.client.disable side what.events).log (.socketError side what)) := by
  have live := step_live taken
  simp only [step, live, Bool.false_eq_true, ↓reduceIte] at taken
  cases event with
  | report side what =>
      simp only [Option.ite_none_right_eq_some, Option.some.injEq] at taken
      obtain ⟨-, rfl⟩ := taken
      have other : what ≠ .readEof := by simpa [Event.isSocketError] using failed
      exact ⟨side, what, other, by simp [redsocksEventError, other, World.withClient]⟩
  | _ => simp [Event.isSocketError] at failed

section RelayFlow

/-- The calls of `shutdown(target, SHUT_WR)`, as the flow towards `target` records them. -/
def Call.closeOf (target : Side) : Call → Option (Bool × Bytes × Bytes)
  | .shutdown side .wr eof pending output =>
      if side = target then some (eof, pending, output) else none
  | _ => none

@[simps]
def Client.flow (client : Client) (target : Side) : RelayFlow UInt8 :=
  { received := (client.buf target.other).rcvd
    pending := (client.buf target.other).input
    queued := (client.buf target).output
    delivered := (client.buf target).sent
    reading := (client.buf target.other).enabled.read
    ended := (client.evshut target.other).read
    closed := (client.evshut target).write
    woken := decide (Call.relayWritecb target ∈ client.trace)
    closes := client.trace.filterMap (Call.closeOf target) }

variable (client : Client) (side target : Side)

theorem closes_shutdown (how : How) :
    (redsocksShutdown client side how).trace.filterMap (Call.closeOf target) =
      if how = .wr ∧ side = target then
        ((client.flow target).ended, (client.flow target).pending, (client.flow target).queued) ::
          (client.flow target).closes
      else (client.flow target).closes := by
  rw [filterMap_trace_shutdown]
  · cases how
    · simp only [Client.callShutdown]
      split <;> simp [Call.closeOf, List.filterMap_cons]
    · by_cases same : side = target
      · simp [Call.closeOf, same]
      · simp [Call.closeOf, same]
    · simp [Call.closeOf, List.filterMap_cons]
  · intro entry noted
    cases entry <;> simp [Call.isNote, Call.closeOf] at noted ⊢

theorem woken_shutdown (how : How) :
    Call.relayWritecb target ∈ (redsocksShutdown client side how).trace ↔
      Call.relayWritecb target ∈ client.trace := by
  rw [mem_trace_shutdown _ _ _ _ rfl]
  simp only [Client.callShutdown]
  split <;> simp

@[simp] theorem flow_shutdown_rd_other :
    (redsocksShutdown client side .rd).flow side.other =
      { client.flow side.other with reading := false, ended := true } := by
  simp [Client.flow, closes_shutdown, woken_shutdown, How.events, EvBits.evRead]

@[simp] theorem flow_shutdown_rd_self :
    (redsocksShutdown client side .rd).flow side = client.flow side := by
  simp [Client.flow, closes_shutdown, woken_shutdown, How.events, EvBits.evRead]

@[simp] theorem flow_shutdown_wr_self :
    (redsocksShutdown client side .wr).flow side =
      { client.flow side with
        closed := true
        closes := ((client.flow side).ended, (client.flow side).pending, (client.flow side).queued) ::
          (client.flow side).closes } := by
  simp [Client.flow, closes_shutdown, woken_shutdown, How.events, EvBits.evWrite]

@[simp] theorem flow_shutdown_wr_other :
    (redsocksShutdown client side .wr).flow side.other = client.flow side.other := by
  simp [Client.flow, closes_shutdown, woken_shutdown, How.events, EvBits.evWrite, Side.ne_other]

@[simp] theorem flow_receive_other (chunk : Bytes) :
    (client.setBuf side ((client.buf side).receive chunk)).flow side.other =
      { client.flow side.other with
        received := (client.flow side.other).received ++ chunk
        pending := (client.flow side.other).pending ++ chunk } := by
  simp [Client.flow]

@[simp] theorem flow_receive_self (chunk : Bytes) :
    (client.setBuf side ((client.buf side).receive chunk)).flow side = client.flow side := by
  simp [Client.flow]

@[simp] theorem flow_transmit_self (count : Nat) :
    (client.setBuf side ((client.buf side).transmit count)).flow side =
      { client.flow side with
        queued := (client.flow side).queued.drop count
        delivered := (client.flow side).delivered ++ (client.flow side).queued.take count } := by
  simp [Client.flow]

@[simp] theorem flow_transmit_other (count : Nat) :
    (client.setBuf side ((client.buf side).transmit count)).flow side.other =
      client.flow side.other := by
  simp [Client.flow]

@[simp] theorem flow_writeBuffer_target :
    (client.writeBuffer target.other target).flow target =
      { client.flow target with
        queued := (client.flow target).queued ++ (client.flow target).pending
        pending := [] } := by
  simp [Client.flow, Client.writeBuffer]

@[simp] theorem flow_writeBuffer_source :
    (client.writeBuffer target.other target).flow target.other = client.flow target.other := by
  simp [Client.flow, Client.writeBuffer]

theorem flow_disable_read_other :
    (client.disable side EvBits.evRead).flow side.other =
      { client.flow side.other with reading := false } := by
  simp [Client.flow, EvBits.evRead]

theorem flow_disable_read_self :
    (client.disable side EvBits.evRead).flow side = client.flow side := by
  simp [Client.flow, EvBits.evRead]

theorem flow_enable_read_other :
    (client.enable side EvBits.evRead).flow side.other =
      { client.flow side.other with reading := true } := by
  simp [Client.flow, EvBits.evRead, Call.closeOf, List.filterMap_cons]

theorem flow_enable_read_self :
    (client.enable side EvBits.evRead).flow side = client.flow side := by
  simp [Client.flow, EvBits.evRead, Call.closeOf, List.filterMap_cons]

theorem flow_relayReadcb_target :
    (redsocksRelayReadcb client target.other target).flow target =
      if (client.buf target).output.length < (client.buf target).wmWrite.high then
        { client.flow target with
          queued := (client.flow target).queued ++ (client.flow target).pending
          pending := [] }
      else { client.flow target with reading := false } := by
  simp only [redsocksRelayReadcb]
  split
  · exact flow_writeBuffer_target client target
  · split
    · simpa using flow_disable_read_other client target.other
    · next paused => simp [Client.flow, paused]

theorem flow_relayReadcb_source :
    (redsocksRelayReadcb client target.other target).flow target.other =
      client.flow target.other := by
  simp only [redsocksRelayReadcb]
  split
  · exact flow_writeBuffer_source client target
  · split
    · exact flow_disable_read_self client target.other
    · rfl

theorem flow_relayWritecb_source :
    (redsocksRelayWritecb client target.other target).flow target.other =
      client.flow target.other := by
  have entered : (client.call (.relayWritecb target)).flow target.other = client.flow target.other := by
    simp [Client.flow, Call.closeOf, List.filterMap_cons]
  simp only [redsocksRelayWritecb]
  split
  · rw [flow_shutdown_wr_other, entered]
  · split
    · split
      · rw [flow_enable_read_self, flow_writeBuffer_source, entered]
      · rw [flow_writeBuffer_source, entered]
    · exact entered

theorem flow_relayWritecb_target (drained : (client.buf target).output = [])
    (room : 0 < (client.buf target).wmWrite.high) :
    (redsocksRelayWritecb client target.other target).flow target =
      if (client.flow target).pending = [] ∧ (client.flow target).ended = true then
        { client.flow target with
          closed := true
          woken := true
          closes := (true, [], []) :: (client.flow target).closes }
      else
        { client.flow target with
          queued := (client.flow target).pending
          pending := []
          reading := (client.flow target).reading || !(client.flow target).ended
          woken := true } := by
  have entered : (client.call (.relayWritecb target)).flow target =
      { client.flow target with woken := true } := by
    simp [Client.flow, Call.closeOf, List.filterMap_cons]
  have empty : (client.flow target).queued = [] := drained
  simp only [redsocksRelayWritecb, Client.buf_call, Client.evshut_call, List.length_eq_zero_iff]
  by_cases finished : (client.buf target.other).input = [] ∧ (client.evshut target.other).read = true
  · have ended : (client.flow target).pending = [] ∧ (client.flow target).ended = true := finished
    rw [if_pos finished, if_pos ended, flow_shutdown_wr_self, entered]
    simp only [ended.1, ended.2, empty]
  · have more : ¬((client.flow target).pending = [] ∧ (client.flow target).ended = true) := finished
    rw [if_neg finished, if_neg more, if_pos (by simpa [drained] using room)]
    split
    · next paused =>
      have resumed := flow_enable_read_other
        ((client.call (.relayWritecb target)).writeBuffer target.other target) target.other
      rw [Side.other_other, flow_writeBuffer_target, entered] at resumed
      simp only [Bool.and_eq_true, Bool.not_eq_true'] at paused
      rw [resumed]
      simp [drained, paused.1]
    · next going =>
      rw [flow_writeBuffer_target, entered]
      simp only [empty, List.nil_append, Client.writeBuffer] at going ⊢
      cases eof : (client.evshut target.other).read <;> simp_all

end RelayFlow

section Simulation

variable {client next : Client} {event : Event}

theorem canRead_pumping (pumping : Pumping client) (side : Side) :
    (client.buf side).canRead = true ↔ (client.buf side).enabled.read = true ∧
      (client.buf side).input.length < redsocksRelayHalfbuff := by
  simp [Bufferevent.canRead, Bufferevent.readSuspended, pumping.wmRead, redsocksRelayHalfbuff]

theorem fits_pumping (pumping : Pumping client) (side : Side) (chunk : Bytes)
    (fits : (client.buf side).fits chunk = true) :
    (client.buf side).input.length + chunk.length ≤ redsocksRelayHalfbuff := by
  simp [Bufferevent.fits, pumping.wmRead, redsocksRelayHalfbuff] at fits ⊢
  omega

theorem eventError_eof_pumping (pumping : Pumping client) (side : Side) :
    redsocksEventError (client.disable side EvBits.evRead) side .readEof =
      if (client.buf side.other).output = [] then
        redsocksShutdown (redsocksShutdown client side .rd) side.other .wr
      else redsocksShutdown client side .rd := by
  have ended : redsocksShutdown (client.disable side EvBits.evRead) side .rd =
      redsocksShutdown client side .rd := shutdown_disable client side .rd
  simp only [redsocksEventError, ↓reduceIte, ended, state_shutdown, pumping.state,
    isOpen_shutdown, Client.isOpen_of_relayOpen client side.other pumping.relayOpen,
    buf_shutdown_other, List.length_eq_zero_iff, true_and]

theorem Pumping.setBuf (pumping : Pumping client) (side : Side) {buffer : Bufferevent}
    (readcb : buffer.readcb = (client.buf side).readcb)
    (writecb : buffer.writecb = (client.buf side).writecb)
    (wmRead : buffer.wmRead = (client.buf side).wmRead)
    (wmWrite : buffer.wmWrite = (client.buf side).wmWrite)
    (writing : buffer.enabled.write = (client.buf side).enabled.write)
    (waiting : buffer.evWrite = true → (client.buf side).enabled.write = true) :
    Pumping (client.setBuf side buffer) := by
  constructor
  · simpa using pumping.state
  · simpa using pumping.relayOpen
  all_goals
    intro which
    obtain rfl | rfl := Side.eq_or_eq_other which side
  · simpa [readcb] using pumping.readcb which
  · simpa using pumping.readcb side.other
  · simpa [writecb] using pumping.writecb which
  · simpa using pumping.writecb side.other
  · simpa [wmRead] using pumping.wmRead which
  · simpa using pumping.wmRead side.other
  · simpa [wmWrite] using pumping.wmWrite which
  · simpa using pumping.wmWrite side.other
  · simpa [writing] using pumping.writing which
  · simpa using pumping.writing side.other
  · simpa [writing] using waiting
  · simpa using pumping.waiting side.other

theorem Pumping.call (pumping : Pumping client) (entry : Call) : Pumping (client.call entry) := by
  constructor
  · simpa using pumping.state
  · simpa using pumping.relayOpen
  all_goals intro which
  · simpa using pumping.readcb which
  · simpa using pumping.writecb which
  · simpa using pumping.wmRead which
  · simpa using pumping.wmWrite which
  · simpa using pumping.writing which
  · simpa using pumping.waiting which

theorem Pumping.shutdown (pumping : Pumping client) (side : Side) (how : How) :
    Pumping (redsocksShutdown client side how) := by
  constructor
  · simpa using pumping.state
  · simpa using pumping.relayOpen
  all_goals
    intro which
    obtain rfl | rfl := Side.eq_or_eq_other which side
  · simpa using pumping.readcb which
  · simpa using pumping.readcb side.other
  · simpa using pumping.writecb which
  · simpa using pumping.writecb side.other
  · simpa using pumping.wmRead which
  · simpa using pumping.wmRead side.other
  · simpa using pumping.wmWrite which
  · simpa using pumping.wmWrite side.other
  · simp [pumping.writing]
  · simpa using pumping.writing side.other
  · simpa using fun waiting open' => ⟨pumping.waiting which waiting, open'⟩
  · simpa using pumping.waiting side.other

theorem Pumping.writeBuffer (pumping : Pumping client) (source target : Side) :
    Pumping (client.writeBuffer source target) := by
  have written : Pumping (client.modify target (·.write (client.buf source).input)) := by
    refine pumping.setBuf target rfl rfl rfl rfl rfl ?_
    intro waiting
    simp only [Bufferevent.write_evWrite, Bool.or_eq_true, Bool.and_eq_true] at waiting
    rcases waiting with waiting | ⟨-, enabled⟩
    · exact pumping.waiting target waiting
    · exact enabled
  exact written.setBuf source rfl rfl rfl rfl rfl (written.waiting source)

theorem PumpStep.pumping (taken : PumpStep client event next) (pumping : Pumping client) :
    Pumping next := by
  cases taken with
  | others => exact pumping
  | read side chunk env =>
      have received : Pumping (client.setBuf side ((client.buf side).receive chunk)) :=
        pumping.setBuf side rfl rfl rfl rfl rfl (pumping.waiting side)
      simp only [redsocksRelayReadcb]
      split
      · exact received.writeBuffer side side.other
      · split
        · refine received.setBuf side rfl rfl rfl rfl (by simp [EvBits.evRead]) ?_
          intro waiting
          exact received.waiting side (by simpa [EvBits.evRead] using waiting)
        · exact received
  | sent side count env waiting =>
      exact pumping.setBuf side rfl rfl rfl rfl rfl fun _ => pumping.waiting side waiting
  | drained side count env waiting =>
      have sent : Pumping (client.setBuf side ((client.buf side).transmit count)) :=
        pumping.setBuf side rfl rfl rfl rfl rfl fun _ => pumping.waiting side waiting
      have entered := sent.call (.relayWritecb side)
      simp only [redsocksRelayWritecb]
      split
      · exact entered.shutdown side .wr
      · split
        · have moved := entered.writeBuffer side.other side
          split
          · refine (moved.call _).setBuf side.other rfl rfl rfl rfl (by simp [EvBits.evRead]) ?_
            intro waiting
            exact moved.waiting side.other (by simpa [EvBits.evRead] using waiting)
          · exact moved
        · exact entered
  | eof side canRead =>
      rw [eventError_eof_pumping pumping]
      split
      · exact (pumping.shutdown side .rd).shutdown side.other .wr
      · exact pumping.shutdown side .rd

def Event.chunk (side : Side) : Event → Bytes
  | .readData which chunk _ => if which = side then chunk else []
  | _ => []

theorem rcvd_modify (client : Client) (which side : Side) (change : Bufferevent → Bufferevent)
    (kept : ∀ buffer, (change buffer).rcvd = buffer.rcvd) :
    ((client.modify which change).buf side).rcvd = (client.buf side).rcvd := by
  obtain rfl | rfl := Side.eq_or_eq_other side which <;> simp [kept]

theorem rcvd_writeBuffer (client : Client) (source target side : Side) :
    ((client.writeBuffer source target).buf side).rcvd = (client.buf side).rcvd := by
  unfold Client.writeBuffer
  rw [rcvd_modify _ source side _ (by simp), rcvd_modify _ target side _ (by simp)]

theorem rcvd_shutdown (client : Client) (which side : Side) (how : How) :
    ((redsocksShutdown client which how).buf side).rcvd = (client.buf side).rcvd := by
  obtain rfl | rfl := Side.eq_or_eq_other side which <;> simp

theorem PumpStep.received (taken : PumpStep client event next) (pumping : Pumping client)
    (side : Side) : (next.buf side).rcvd = (client.buf side).rcvd ++ event.chunk side := by
  cases taken with
  | others => simp [Event.chunk]
  | read which chunk env =>
      have received : ((client.setBuf which ((client.buf which).receive chunk)).buf side).rcvd =
          (client.buf side).rcvd ++ Event.chunk side (.readData which chunk env) := by
        obtain rfl | rfl := Side.eq_or_eq_other side which <;> simp [Event.chunk]
      unfold redsocksRelayReadcb
      split
      · rw [rcvd_writeBuffer, received]
      · split
        · rw [Client.disable, rcvd_modify _ which side _ (by simp), received]
        · exact received
  | sent which count env =>
      simpa [Event.chunk] using rcvd_modify client which side (·.transmit count) (by simp)
  | drained which count env =>
      have sent : ((client.setBuf which ((client.buf which).transmit count)).buf side).rcvd =
          (client.buf side).rcvd := by
        simpa using rcvd_modify client which side (·.transmit count) (by simp)
      simp only [Event.chunk, List.append_nil]
      unfold redsocksRelayWritecb
      dsimp only
      split
      · rw [rcvd_shutdown, Client.buf_call, sent]
      · split
        · split
          · rw [Client.enable, rcvd_modify _ which.other side _ (by simp), Client.buf_call,
              rcvd_writeBuffer, Client.buf_call, sent]
          · rw [rcvd_writeBuffer, Client.buf_call, sent]
        · rw [Client.buf_call, sent]
  | eof which =>
      rw [eventError_eof_pumping pumping]
      split <;> simp [rcvd_shutdown, Event.chunk]

/-- Each callback of the pump is one step of each of its two flows. -/
theorem PumpStep.flow (taken : PumpStep client event next) (pumping : Pumping client) (target : Side) :
    RelayFlow.Step redsocksRelayHalfbuff (client.flow target) (next.flow target) := by
  have unclosed : ∀ side, (client.buf side).evWrite = true → (client.flow side).closed = false := by
    intro side waiting
    simpa [pumping.writing] using pumping.waiting side waiting
  cases taken with
  | others => exact RelayFlow.Step.idle
  | read side chunk env canRead fits =>
      obtain rfl | rfl := Side.eq_or_eq_other side target
      · have same := flow_relayReadcb_source
          (client.setBuf side ((client.buf side).receive chunk)) side.other
        rw [Side.other_other] at same
        rw [same, flow_receive_self]
        exact RelayFlow.Step.idle
      · obtain ⟨reading, -⟩ := (canRead_pumping pumping _).mp canRead
        have bound := fits_pumping pumping _ chunk fits
        have received := flow_receive_other client target.other chunk
        rw [Side.other_other] at received ⊢
        rw [flow_relayReadcb_target, received]
        simp only [Client.buf_setBuf_of_other, pumping.wmWrite]
        split
        · next room => exact RelayFlow.Step.forward chunk reading bound room
        · next full => exact RelayFlow.Step.pause chunk reading bound (by simpa using full)
  | sent side count env waiting left =>
      obtain rfl | rfl := Side.eq_or_eq_other side target
      · rw [flow_transmit_self]
        exact RelayFlow.Step.send count (unclosed side waiting) left
      · have same := flow_transmit_other client target.other count
        rw [Side.other_other] at same
        rw [same]
        exact RelayFlow.Step.idle
  | drained side count env waiting empty =>
      obtain rfl | rfl := Side.eq_or_eq_other side target
      · rw [flow_relayWritecb_target _ _ (by simpa using empty)
          (by simp [pumping.wmWrite, redsocksRelayHalfbuff]), flow_transmit_self]
        have whole : (client.flow side).queued.take count = (client.flow side).queued :=
          List.take_of_length_le (List.drop_eq_nil_iff.mp empty)
        simp only [whole, show (client.flow side).queued.drop count = [] from empty]
        split
        · next finished =>
            exact RelayFlow.Step.finish (unclosed side waiting) finished.1 finished.2
        · next more => exact RelayFlow.Step.wake (unclosed side waiting) more
      · have same := flow_transmit_other client target.other count
        have called := flow_relayWritecb_source
          (client.setBuf target.other ((client.buf target.other).transmit count)) target.other
        rw [Side.other_other] at same called ⊢
        rw [called, same]
        exact RelayFlow.Step.idle
  | eof side canRead =>
      rw [eventError_eof_pumping pumping]
      obtain rfl | rfl := Side.eq_or_eq_other side target
      · split
        · have same := flow_shutdown_wr_other (redsocksShutdown client side .rd) side.other
          rw [Side.other_other] at same
          rw [same, flow_shutdown_rd_self]
          exact RelayFlow.Step.idle
        · rw [flow_shutdown_rd_self]
          exact RelayFlow.Step.idle
      · obtain ⟨reading, bound⟩ := (canRead_pumping pumping _).mp canRead
        have ended := flow_shutdown_rd_other client target.other
        rw [Side.other_other] at ended ⊢
        split
        · next drained =>
          have empty : (client.flow target).queued = [] := drained
          rw [flow_shutdown_wr_self, ended]
          have closing := RelayFlow.Step.eofClose reading bound empty
          simp only [empty] at closing ⊢
          exact closing
        · next left =>
          rw [ended]
          exact RelayFlow.Step.eof reading bound left

end Simulation

end ProxySet
