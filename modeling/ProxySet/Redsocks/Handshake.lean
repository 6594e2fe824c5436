import ProxySet.Redsocks.Client
import ProxySet.Redsocks.EventCore

/-!
What a callback can do before the pump has started.  Everything a subsystem does
on the way leaves the enabled bits, the `evshut` words and the calls about them
alone; a callback ends by going on as it was, waiting for a reply, giving up its
write event, connecting the relay, or starting the pump.
-/

namespace ProxySet

def State.awaiting : State → Bool
  | .socks4 .new | .socks5 .new | .httpc .new | .httpr .new | .httpr .recvRequestHeaders => true
  | _ => false

/-- The calls that do not concern the enabled bits, the `evshut` words or the pump. -/
def Call.isQuiet : Call → Bool
  | .enable _ _ _ | .shutdown _ _ _ _ _ | .relayWritecb _ | .connectRelay _ => false
  | _ => true

/-- The part of a client that the functions of a subsystem do not change by themselves. -/
structure Bits where
  client : EvBits
  relay : EvBits
  clientEvshut : EvBits
  relayEvshut : EvBits
  relayOpen : Bool
  loud : List Call

def Client.bits (client : Client) : Bits :=
  { client := client.client.enabled
    relay := client.relay.enabled
    clientEvshut := client.clientEvshut
    relayEvshut := client.relayEvshut
    relayOpen := client.relayOpen
    loud := client.trace.filter fun entry => !entry.isQuiet }

/-- Which callbacks are installed before the pump; a relay that is not open has none. -/
def Client.handshakeCallbacks (client : Client) : Prop :=
  (client.client.readcb = .none ∨ client.client.readcb = .httprClient) ∧
    client.client.writecb = .none ∧
    (client.relay.readcb = .none ∨ client.relay.readcb = .subsys) ∧ client.relay.writecb ≠ .pump ∧
    (client.relayOpen = false → client.relay.readcb = .none ∧ client.relay.writecb = .none)

@[simp] theorem bits_drop (client : Client) : (redsocksDropClient client).bits = client.bits := by
  simp [Client.bits, Call.isQuiet]

@[simp] theorem bits_log (client : Client) (message : LogMsg) :
    (client.log message).bits = client.bits := by
  simp [Client.bits, Call.isQuiet]

structure SameBits (client next : Client) : Prop where
  bits : next.bits = client.bits
  dropped : client.dropped = true → next.dropped = true

structure Untouched (client next : Client) : Prop extends SameBits client next where
  callbacks : client.handshakeCallbacks → next.handshakeCallbacks

section Bits

variable {client middle next : Client}

theorem SameBits.trans (first : SameBits client middle) (second : SameBits middle next) :
    SameBits client next :=
  ⟨second.bits.trans first.bits, second.dropped ∘ first.dropped⟩

theorem Untouched.refl (client : Client) : Untouched client client :=
  ⟨⟨rfl, id⟩, id⟩

theorem Untouched.trans (first : Untouched client middle) (second : Untouched middle next) :
    Untouched client next :=
  ⟨first.toSameBits.trans second.toSameBits, second.callbacks ∘ first.callbacks⟩

theorem mem_loud {entry : Call} (loud : entry.isQuiet = false) :
    entry ∈ client.bits.loud ↔ entry ∈ client.trace := by
  simp [Client.bits, loud]

theorem SameBits.mem_trace (same : SameBits client next) {entry : Call}
    (loud : entry.isQuiet = false) : entry ∈ next.trace ↔ entry ∈ client.trace := by
  rw [← mem_loud loud, ← mem_loud loud, same.bits]

theorem SameBits.evshut (same : SameBits client next) (side : Side) :
    next.evshut side = client.evshut side := by
  cases side
  · exact congrArg Bits.clientEvshut same.bits
  · exact congrArg Bits.relayEvshut same.bits

theorem SameBits.enabled (same : SameBits client next) (side : Side) :
    (next.buf side).enabled = (client.buf side).enabled := by
  cases side
  · exact congrArg Bits.client same.bits
  · exact congrArg Bits.relay same.bits

theorem SameBits.relayOpen (same : SameBits client next) : next.relayOpen = client.relayOpen :=
  congrArg Bits.relayOpen same.bits

end Bits

/-- What a callback that runs before the pump has done when it returns. -/
inductive Outcome (client : Client) : Client → Prop where
  | stay {last : Client} : Untouched client last → last.state ≠ .pumpActive →
      last.state.awaiting = client.state.awaiting → Outcome client last
  | rest {last : Client} : Untouched client last → last.state ≠ .pumpActive →
      last.state.awaiting = client.state.awaiting →
      Outcome client (last.disable .relay EvBits.evWrite)
  | wait {last : Client} : Untouched client last → last.state ≠ .pumpActive →
      last.state.awaiting = false →
      client.relay.enabled.read = true ∨ client.state.awaiting = true ∧ client.relayOpen = true →
      Outcome client (last.enable .relay EvBits.evRead)
  | connect (env : Env) {last : Client} : Untouched client last → last.state ≠ .pumpActive →
      last.state.awaiting = true →
      client.relay.enabled.read = true ∨ client.state.awaiting = true →
      Outcome client (redsocksConnectRelay env last)
  | start (env : Env) {last : Client} : Untouched client last →
      client.relay.enabled.read = true → Outcome client (redsocksStartRelay env last)

section Functions

variable {client last : Client} {env : Env}

theorem Outcome.after {next : Client} (outcome : Outcome last next)
    (untouched : Untouched client last) (same : last.state.awaiting = client.state.awaiting) :
    Outcome client next := by
  have relay : last.relay.enabled = client.relay.enabled := untouched.enabled .relay
  have opened := untouched.relayOpen
  cases outcome with
  | stay later handshake awaiting =>
      exact .stay (untouched.trans later) handshake (awaiting.trans same)
  | rest later handshake awaiting =>
      exact .rest (untouched.trans later) handshake (awaiting.trans same)
  | wait later handshake awaiting allowed =>
      exact .wait (untouched.trans later) handshake awaiting (by rwa [relay, opened, same] at allowed)
  | connect env later handshake awaiting allowed =>
      exact .connect env (untouched.trans later) handshake awaiting (by rwa [relay, same] at allowed)
  | start env later reading => exact .start env (untouched.trans later) (by rwa [relay] at reading)

theorem untouched_drop (untouched : Untouched client last) :
    Untouched client (redsocksDropClient last) :=
  untouched.trans ⟨⟨bits_drop last, fun _ => rfl⟩, id⟩

theorem Outcome.dropped (untouched : Untouched client last) (handshake : last.state ≠ .pumpActive)
    (awaiting : last.state.awaiting = client.state.awaiting) :
    Outcome client (redsocksDropClient last) :=
  .stay (untouched_drop untouched) handshake awaiting

theorem outcome_writeHelper {message : Message} {state : State} {wmLow wmHigh : Nat}
    (untouched : Untouched client last) (handshake : last.state ≠ .pumpActive)
    (same : last.state.awaiting = client.state.awaiting) (next : state ≠ .pumpActive)
    (sent : state.awaiting = false)
    (allowed : client.relay.enabled.read = true ∨
      client.state.awaiting = true ∧ client.relayOpen = true) :
    Outcome client (redsocksWriteHelperEx env last message state wmLow wmHigh) := by
  cases message with
  | noMaker => exact .wait (untouched.trans ⟨⟨rfl, id⟩, id⟩) next sent allowed
  | failed => exact .dropped untouched handshake same
  | made data =>
      simp only [redsocksWriteHelperEx]
      split
      · exact .dropped (untouched.trans ⟨⟨rfl, id⟩, id⟩) handshake same
      · exact .wait (untouched.trans ⟨⟨rfl, id⟩, id⟩) next sent allowed

end Functions

section Callbacks

variable {client : Client} (world : World)

theorem outcome_readExpected {comparator : Nat → Nat → Bool} {expected : Nat}
    {proceed : Bytes → Client → Client} (handshake : client.state ≠ .pumpActive)
    (proceeds : ∀ reply, Outcome client (proceed reply (client.modify .relay
      fun buffer => { buffer with input := buffer.input.drop expected }))) :
    Outcome client (match redsocksReadExpected client comparator expected with
      | (none, dropped) => dropped
      | (some reply, read) => proceed reply read) := by
  simp only [redsocksReadExpected]
  split
  · next read =>
    split at read
    · simp at read
    · obtain ⟨-, rfl⟩ := Prod.mk.inj read
      exact .dropped ⟨⟨rfl, id⟩, id⟩ handshake rfl
  · next read =>
    split at read
    · obtain ⟨-, rfl⟩ := Prod.mk.inj read
      exact proceeds _
    · simp at read

theorem outcome_socks4ReadCb (env : Env) (handshake : client.state ≠ .pumpActive)
    (reading : client.relay.enabled.read = true) : Outcome client (socks4ReadCb env client) := by
  unfold socks4ReadCb
  split
  · next sent =>
    have awaiting : client.state.awaiting = false := by rw [sent]; rfl
    refine outcome_readExpected handshake fun reply => ?_
    dsimp only
    split
    · exact .dropped ⟨⟨rfl, id⟩, id⟩ (by simp) awaiting.symm
    · split
      · exact .start env ⟨⟨rfl, id⟩, id⟩ reading
      · exact .dropped ⟨⟨rfl, id⟩, id⟩ (by simp) awaiting.symm
  · exact .stay (.refl client) handshake rfl
  · exact .stay ⟨⟨rfl, id⟩, id⟩ handshake rfl

theorem outcome_socks4WriteCb (env : Env) (config : Config) (handshake : client.state ≠ .pumpActive)
    (opened : client.relayOpen = true) : Outcome client (socks4WriteCb env config client) := by
  unfold socks4WriteCb
  split
  · next new =>
    exact outcome_writeHelper (.refl client) handshake rfl (by simp) rfl
      (Or.inr ⟨by rw [new]; rfl, opened⟩)
  · exact .rest (.refl client) handshake rfl
  · exact .stay (.refl client) handshake rfl

theorem outcome_socks5WriteCb (env : Env) (handshake : client.state ≠ .pumpActive)
    (opened : client.relayOpen = true) : Outcome client (socks5WriteCb env client) := by
  unfold socks5WriteCb
  split
  · next new =>
    exact outcome_writeHelper (.refl client) handshake rfl (by simp) rfl
      (Or.inr ⟨by rw [new]; rfl, opened⟩)
  · exact .stay (.refl client) handshake rfl

theorem outcome_socks5ReadAuthMethods (env : Env) (config : Config)
    (handshake : client.state ≠ .pumpActive) (reading : client.relay.enabled.read = true) :
    Outcome client (socks5ReadAuthMethods env config client) := by
  unfold socks5ReadAuthMethods
  refine outcome_readExpected handshake fun reply => ?_
  dsimp only
  split
  · exact .dropped ⟨⟨rfl, id⟩, id⟩ handshake rfl
  · split
    · exact outcome_writeHelper ⟨⟨rfl, id⟩, id⟩ handshake rfl (by simp) rfl (Or.inl reading)
    · split
      · exact outcome_writeHelper ⟨⟨rfl, id⟩, id⟩ handshake rfl (by simp) rfl (Or.inl reading)
      · exact .stay ⟨⟨rfl, id⟩, id⟩ handshake rfl

theorem outcome_socks5ReadAuthReply (env : Env) (handshake : client.state ≠ .pumpActive)
    (reading : client.relay.enabled.read = true) :
    Outcome client (socks5ReadAuthReply env client) := by
  unfold socks5ReadAuthReply
  refine outcome_readExpected handshake fun reply => ?_
  split
  · exact .dropped ⟨⟨rfl, id⟩, id⟩ handshake rfl
  · split
    · exact outcome_writeHelper ⟨⟨rfl, id⟩, id⟩ handshake rfl (by simp) rfl (Or.inl reading)
    · exact .dropped ⟨⟨rfl, id⟩, id⟩ handshake rfl

theorem outcome_socks5ReadReply (env : Env) (handshake : client.state ≠ .pumpActive)
    (reading : client.relay.enabled.read = true) : Outcome client (socks5ReadReply env client) := by
  unfold socks5ReadReply
  refine outcome_readExpected handshake fun reply => ?_
  dsimp only
  split
  · exact .dropped ⟨⟨rfl, id⟩, id⟩ handshake rfl
  · split
    · split
      · exact outcome_writeHelper ⟨⟨rfl, id⟩, id⟩ handshake rfl (by simp) rfl (Or.inl reading)
      · split
        · exact outcome_writeHelper ⟨⟨rfl, id⟩, id⟩ handshake rfl (by simp) rfl (Or.inl reading)
        · split
          · exact outcome_writeHelper ⟨⟨rfl, id⟩, id⟩ handshake rfl (by simp) rfl (Or.inl reading)
          · exact .dropped ⟨⟨rfl, id⟩, id⟩ handshake rfl
    · exact .dropped ⟨⟨rfl, id⟩, id⟩ handshake rfl

theorem outcome_socks5ReadCb (env : Env) (config : Config) (handshake : client.state ≠ .pumpActive)
    (reading : client.relay.enabled.read = true) :
    Outcome client (socks5ReadCb env config client) := by
  unfold socks5ReadCb
  split
  · exact outcome_socks5ReadAuthMethods env config handshake reading
  · exact outcome_socks5ReadAuthReply env handshake reading
  · exact outcome_socks5ReadReply env handshake reading
  · refine outcome_readExpected handshake fun reply => ?_
    exact outcome_writeHelper ⟨⟨rfl, id⟩, id⟩ handshake rfl (by simp) rfl (Or.inl reading)
  · refine outcome_readExpected handshake fun reply => ?_
    exact .start env ⟨⟨rfl, id⟩, id⟩ reading
  · exact .dropped (.refl client) handshake rfl

theorem outcome_authRequired (env : Env) (retry : State)
    (handshake : world.client.state ≠ .pumpActive)
    (reading : world.client.relay.enabled.read = true) (next : retry ≠ .pumpActive)
    (awaits : retry.awaiting = true) :
    Outcome world.client (authRequired env world retry).client := by
  unfold authRequired
  dsimp only
  split
  · exact .dropped ⟨⟨rfl, id⟩, id⟩ handshake rfl
  · split
    · exact .dropped ⟨⟨rfl, id⟩, id⟩ handshake rfl
    · split
      · exact .dropped ⟨⟨rfl, id⟩, id⟩ handshake rfl
      · next line rest _ =>
        have connected : Outcome world.client (redsocksConnectRelay env
            { (world.client.setInput .relay rest).call .closeRelay with state := retry }) :=
          .connect env ⟨⟨rfl, id⟩, id⟩ next awaits (Or.inl reading)
        exact connected

theorem outcome_httpcSkipHeaders (env : Env) {last : Client} (untouched : Untouched client last)
    (awaiting : client.state.awaiting = false) (reading : client.relay.enabled.read = true) :
    Outcome client (httpcSkipHeaders env last) := by
  have skipped : (State.httpc (redsocksEvbufferReadline.drain httpcSkipLine httpcSkipDone .replyCame
      last.relay.input).1).awaiting = false := by
    refine redsocksEvbufferReadline.drain_invariant httpcSkipLine httpcSkipDone
      (fun state => (State.httpc state).awaiting = false) ?_ _ _ rfl
    intro state line _ before
    unfold httpcSkipLine
    split
    · rfl
    · exact before
  simp only [httpcSkipHeaders]
  split
  · exact .start env (untouched.trans ⟨⟨rfl, id⟩, id⟩) reading
  · exact .stay (untouched.trans ⟨⟨rfl, id⟩, id⟩) (by simp) (skipped.trans awaiting.symm)

theorem outcome_httpcReadCb (env : Env) (handshake : world.client.state ≠ .pumpActive)
    (reading : world.client.relay.enabled.read = true) :
    Outcome world.client (httpcReadCb env world).client := by
  simp only [httpcReadCb]
  split
  · next sent =>
    have awaiting : world.client.state.awaiting = false := by rw [sent]; rfl
    split
    · next line rest _ =>
      split
      · split
        · exact (outcome_authRequired (world.withClient (world.client.setInput .relay rest)) env
            (.httpc .new) handshake reading (by simp) rfl).after ⟨⟨rfl, id⟩, id⟩ rfl
        · split
          · exact outcome_httpcSkipHeaders env ⟨⟨rfl, id⟩, id⟩ awaiting reading
          · exact .dropped ⟨⟨rfl, id⟩, id⟩ handshake rfl
      · exact .stay ⟨⟨rfl, id⟩, id⟩ handshake rfl
    · split
      · exact .dropped (.refl _) handshake rfl
      · exact .stay (.refl _) handshake rfl
  · next came =>
    exact outcome_httpcSkipHeaders env (.refl _) (by rw [came]; rfl) reading
  · exact .start env (.refl _) reading
  · exact .stay ⟨⟨rfl, id⟩, id⟩ handshake rfl

theorem outcome_httpcWriteCb (env : Env) (handshake : world.client.state ≠ .pumpActive)
    (opened : world.client.relayOpen = true) :
    Outcome world.client (httpcWriteCb env world).client := by
  simp only [httpcWriteCb]
  split
  · next new =>
    split
    · exact .dropped (.refl _) handshake rfl
    · dsimp only
      exact outcome_writeHelper ⟨⟨rfl, id⟩, id⟩ handshake rfl (by simp) rfl
        (Or.inr ⟨by rw [new]; rfl, opened⟩)
  · exact .rest (.refl _) handshake rfl
  · exact .stay (.refl _) handshake rfl

theorem outcome_httprRelayPump (env : Env) {last : Client} (untouched : Untouched client last)
    (handshake : last.state ≠ .pumpActive) (same : last.state.awaiting = client.state.awaiting)
    (reading : client.relay.enabled.read = true) : Outcome client (httprRelayPump env last) := by
  unfold httprRelayPump
  split
  · exact .dropped (untouched.trans ⟨⟨rfl, id⟩, id⟩) handshake same
  · exact .start env (untouched.trans ⟨⟨rfl, id⟩, id⟩) reading

theorem outcome_httprRelayReply (env : Env) {last : Client} (untouched : Untouched client last)
    (awaiting : client.state.awaiting = false) (reading : client.relay.enabled.read = true) :
    Outcome client (httprRelayReply env last) := by
  have replied : (State.httpr (redsocksEvbufferReadline.drain httprReplyLine httprReplyDone
      (.replyCame, last.httpr.relayBuffer) last.relay.input).1.1).awaiting = false := by
    refine redsocksEvbufferReadline.drain_invariant httprReplyLine httprReplyDone
      (fun reply => (State.httpr reply.1).awaiting = false) ?_ _ _ rfl
    intro reply line _ before
    simp only [httprReplyLine]
    split
    · rfl
    · exact before
  simp only [httprRelayReply]
  split
  · exact outcome_httprRelayPump env (untouched.trans ⟨⟨rfl, id⟩, id⟩) (by simp)
      (replied.trans awaiting.symm) reading
  · exact .stay (untouched.trans ⟨⟨rfl, id⟩, id⟩) (by simp) (replied.trans awaiting.symm)

theorem outcome_httprRelayReadCb (env : Env) (handshake : world.client.state ≠ .pumpActive)
    (reading : world.client.relay.enabled.read = true) :
    Outcome world.client (httprRelayReadCb env world).client := by
  simp only [httprRelayReadCb]
  split
  · next sent =>
    have awaiting : world.client.state.awaiting = false := by
      rw [show world.client.state = .httpr .requestSent from sent]
      rfl
    split
    · next line rest _ =>
      split
      · split
        · exact (outcome_authRequired (world.withClient
            (((world.client.setRelayBuffer []).setInput .relay rest).setRelayBuffer
              (httprAddLine [] line))) env (.httpr .recvRequestHeaders) handshake reading
            (by simp) rfl).after ⟨⟨rfl, id⟩, id⟩ rfl
        · split
          · exact outcome_httprRelayReply env ⟨⟨rfl, id⟩, id⟩ awaiting reading
          · exact .dropped ⟨⟨rfl, id⟩, id⟩ handshake rfl
      · exact .stay ⟨⟨rfl, id⟩, id⟩ handshake rfl
    · split
      · exact .dropped ⟨⟨rfl, id⟩, id⟩ handshake rfl
      · exact .stay ⟨⟨rfl, id⟩, id⟩ handshake rfl
  · next came =>
    have awaiting : world.client.state.awaiting = false := by
      rw [show world.client.state = .httpr .replyCame from came]
      rfl
    exact outcome_httprRelayReply env ⟨⟨rfl, id⟩, id⟩ awaiting reading
  · exact outcome_httprRelayPump env ⟨⟨rfl, id⟩, id⟩ handshake rfl reading
  · exact .stay ⟨⟨rfl, id⟩, id⟩ handshake rfl

theorem outcome_httprSendRequest (env : Env) {last : Client} (credentials : Option (Bytes × Bytes))
    (challenge : Option Bytes) (untouched : Untouched client last)
    (handshake : last.state ≠ .pumpActive) (same : last.state.awaiting = client.state.awaiting)
    (awaiting : client.state.awaiting = true) (opened : client.relayOpen = true) :
    Outcome client (httprSendRequest env last credentials challenge) := by
  simp only [httprSendRequest]
  split
  · exact .dropped (untouched.trans ⟨⟨rfl, id⟩, id⟩) handshake same
  · split
    · exact .dropped (untouched.trans ⟨⟨rfl, id⟩, id⟩) handshake same
    · exact .wait (untouched.trans ⟨⟨rfl, id⟩, id⟩) (by simp) rfl (Or.inr ⟨awaiting, opened⟩)

theorem outcome_httprRelayWriteCb (env : Env) (handshake : world.client.state ≠ .pumpActive)
    (opened : world.client.relayOpen = true) :
    Outcome world.client (httprRelayWriteCb env world).client := by
  simp only [httprRelayWriteCb]
  split
  · next received =>
    split
    · exact .dropped ⟨⟨rfl, id⟩, id⟩ handshake rfl
    · split
      · exact .dropped ⟨⟨rfl, id⟩, id⟩ handshake rfl
      · exact outcome_httprSendRequest env _ _ ⟨⟨rfl, id⟩, id⟩ handshake rfl
          (by rw [received]; rfl) opened
  · exact .stay ⟨⟨rfl, id⟩, id⟩ handshake rfl
  · exact .stay (.refl _) handshake rfl
  · exact .stay ⟨⟨rfl, id⟩, id⟩ handshake rfl

theorem untouched_httprClientReadContent (env : Env) (client : Client) :
    Untouched client (httprClientReadContent env client) ∧
      (httprClientReadContent env client).state = client.state := by
  simp only [httprClientReadContent]
  split
  · exact ⟨untouched_drop ⟨⟨bits_log _ _, id⟩, id⟩, by simp⟩
  · split
    · exact ⟨untouched_drop ⟨⟨bits_log _ _, id⟩, id⟩, by simp⟩
    · split
      · exact ⟨⟨⟨rfl, id⟩, id⟩, rfl⟩
      · split
        · exact ⟨untouched_drop ⟨⟨bits_log _ _, id⟩, id⟩, by simp [Client.setInput]⟩
        · exact ⟨⟨⟨rfl, id⟩, id⟩, rfl⟩

theorem outcome_httprClientReadCb (env : Env) (handshake : client.state ≠ .pumpActive) :
    Outcome client (httprClientReadCb env client) := by
  simp only [httprClientReadCb]
  split
  · next new =>
    have awaiting : client.state.awaiting = true := by rw [new]; rfl
    generalize redsocksEvbufferReadline.drain _ _ _ _ = drained
    have taken : ∀ state, Untouched client { client.setInput .client drained.2 with
        httpr := drained.1.httpr
        trace := drained.1.logs.map Call.log ++ client.trace
        state := state } := by
      intro state
      refine ⟨⟨?_, id⟩, id⟩
      simp [Client.bits, Client.setInput, Client.setBuf, List.filter_append, List.filter_eq_nil_iff,
        Call.isQuiet, Client.buf]
    split
    · exact .dropped (taken client.state) handshake rfl
    · split
      · obtain ⟨untouched, stateEq⟩ := untouched_httprClientReadContent env
          { client.setInput .client drained.2 with
            httpr := drained.1.httpr
            trace := drained.1.logs.map Call.log ++ client.trace
            state := .httpr .recvRequestHeaders }
        exact .connect env ((taken _).trans untouched) (by rw [stateEq]; simp) (by rw [stateEq]; rfl)
          (Or.inr awaiting)
      · exact .stay (taken client.state) handshake rfl
  · obtain ⟨untouched, stateEq⟩ := untouched_httprClientReadContent env client
    exact .stay untouched (by rwa [stateEq]) (by rw [stateEq])
  · exact .stay (.refl client) handshake rfl

theorem outcome_relaySsReadcb (env : Env) (handshake : world.client.state ≠ .pumpActive)
    (reading : world.client.relay.enabled.read = true) :
    Outcome world.client (relaySsReadcb env world).client := by
  unfold relaySsReadcb
  split
  · exact outcome_httpcReadCb world env handshake reading
  · exact outcome_httprRelayReadCb world env handshake reading
  · exact outcome_socks4ReadCb env handshake reading
  · exact outcome_socks5ReadCb env world.config handshake reading

theorem outcome_relaySsWritecb (env : Env) (handshake : world.client.state ≠ .pumpActive)
    (opened : world.client.relayOpen = true) :
    Outcome world.client (relaySsWritecb env world).client := by
  unfold relaySsWritecb
  split
  · exact outcome_httpcWriteCb world env handshake opened
  · exact outcome_httprRelayWriteCb world env handshake opened
  · exact outcome_socks4WriteCb env world.config handshake opened
  · exact outcome_socks5WriteCb env handshake opened

theorem outcome_redsocksRelayConnected (env : Env) (handshake : world.client.state ≠ .pumpActive)
    (opened : world.client.relayOpen = true) :
    Outcome world.client (redsocksRelayConnected env world).client := by
  unfold redsocksRelayConnected
  split
  · exact .dropped ⟨⟨rfl, id⟩, id⟩ handshake rfl
  · refine (outcome_relaySsWritecb (world.withClient (world.client.modify .relay
      fun buffer => { buffer with readcb := .subsys, writecb := .subsys })) env handshake opened).after
      ⟨⟨rfl, id⟩, ?_⟩ rfl
    rintro ⟨clientRead, clientWrite, -, -, -⟩
    refine ⟨clientRead, clientWrite, Or.inr rfl, nofun, fun closed => ?_⟩
    exact absurd (closed.symm.trans opened) (by simp)

end Callbacks

structure Handshake (client : Client) : Prop where
  state : client.state ≠ .pumpActive
  callbacks : client.handshakeCallbacks
  unshut : ∀ side, (client.evshut side).write = false
  awaiting : client.state.awaiting = true →
    client.relay.enabled.read = false ∧ client.relayEvshut.read = false
  unopened : client.relayOpen = false → client.state.awaiting = true
  unwoken : ∀ side, Call.relayWritecb side ∉ client.trace

theorem Handshake.untouched {client next : Client} (handshake : Handshake client)
    (untouched : Untouched client next) (state : next.state ≠ .pumpActive)
    (same : next.state.awaiting = client.state.awaiting) : Handshake next := by
  constructor
  · exact state
  · exact untouched.callbacks handshake.callbacks
  · intro side
    rw [untouched.evshut]
    exact handshake.unshut side
  · rw [same, show next.relay.enabled = _ from untouched.enabled .relay,
      show next.relayEvshut = _ from untouched.evshut .relay]
    exact handshake.awaiting
  · rw [same, untouched.relayOpen]
    exact handshake.unopened
  · intro side
    rw [untouched.mem_trace rfl]
    exact handshake.unwoken side

inductive HandshakeStep (client : Client) : Event → Client → Prop where
  | callback (event : Event) {next : Client} : Outcome client next → HandshakeStep client event next
  | eof (side : Side) : (client.buf side).canRead = true →
      HandshakeStep client (.report side .readEof) (redsocksShutdown client side .rd)
  | error (side : Side) (what : What) : what ≠ .readEof →
      HandshakeStep client (.report side what)
        (redsocksDropClient ((client.disable side what.events).log (.socketError side what)))

theorem outcome_runReadcb {world : World} (env : Env) (side : Side)
    (handshake : Handshake world.client) (reading : (world.client.buf side).enabled.read = true) :
    Outcome world.client (runReadcb env world side).client := by
  obtain ⟨clientRead, -, relayRead, -, -⟩ := handshake.callbacks
  cases side with
  | client =>
      rcases clientRead with none | httpr
      · simp only [runReadcb, Client.buf, none]
        exact .stay (.refl _) handshake.state rfl
      · simp only [runReadcb, Client.buf, httpr]
        exact outcome_httprClientReadCb env handshake.state
  | relay =>
      rcases relayRead with none | subsys
      · simp only [runReadcb, Client.buf, none]
        exact .stay (.refl _) handshake.state rfl
      · simp only [runReadcb, Client.buf, subsys]
        exact outcome_relaySsReadcb world env handshake.state reading

theorem outcome_runWritecb {world : World} (env : Env) (side : Side)
    (handshake : Handshake world.client) :
    Outcome world.client (runWritecb env world side).client := by
  obtain ⟨-, clientWrite, -, relayWrite, unopened⟩ := handshake.callbacks
  cases side with
  | client =>
      simp only [runWritecb, Client.buf, clientWrite]
      exact .stay (.refl _) handshake.state rfl
  | relay =>
      have opened : world.client.relay.writecb ≠ .none → world.client.relayOpen = true := by
        intro installed
        by_contra closed
        exact installed (unopened (by simpa using closed)).2
      simp only [runWritecb, Client.buf]
      split
      · exact .stay (.refl _) handshake.state rfl
      · next connected =>
        exact outcome_redsocksRelayConnected world env handshake.state (opened (by simp [connected]))
      · next subsys =>
        exact outcome_relaySsWritecb world env handshake.state (opened (by simp [subsys]))
      · next pump => exact absurd pump relayWrite

theorem step_live {world next : World} {event : Event} (taken : step world event = some next) :
    world.client.dropped = false := by
  unfold step at taken
  split at taken
  · simp at taken
  · next live => simpa using live

theorem eventError_eof_handshake {client : Client} (handshake : client.state ≠ .pumpActive) (side : Side) :
    redsocksEventError (client.disable side What.readEof.events) side .readEof =
      redsocksShutdown client side .rd := by
  have shut := shutdown_disable client side .rd
  simp only [redsocksEventError, ↓reduceIte]
  rw [show What.readEof.events = How.rd.events from rfl, shut]
  simp [handshake]

theorem step_handshakeStep {world next : World} {event : Event} (handshake : Handshake world.client)
    (taken : step world event = some next) : HandshakeStep world.client event next.client := by
  have live := step_live taken
  simp only [step, live, Bool.false_eq_true, ↓reduceIte] at taken
  cases event with
  | readData side chunk env =>
      simp only [Option.ite_none_right_eq_some, Bool.and_eq_true] at taken
      obtain ⟨⟨canRead, -⟩, taken⟩ := taken
      have reading : (world.client.buf side).enabled.read = true := by
        simp only [Bufferevent.canRead, Bool.and_eq_true] at canRead
        exact canRead.1
      have received : Untouched world.client
          (world.client.setBuf side ((world.client.buf side).receive chunk)) := by
        cases side <;> exact ⟨⟨rfl, id⟩, id⟩
      split at taken
      · obtain rfl := returned taken
        have shook := handshake.untouched received handshake.state rfl
        refine .callback _ ((outcome_runReadcb env side shook ?_).after received rfl)
        simpa using reading
      · obtain rfl := Option.some.inj taken
        exact .callback _ (.stay received handshake.state rfl)
  | writeReady side count env =>
      simp only [Option.ite_none_right_eq_some, Bool.and_eq_true] at taken
      obtain ⟨-, taken⟩ := taken
      have sent : Untouched world.client
          (world.client.setBuf side ((world.client.buf side).transmit count)) := by
        cases side <;> exact ⟨⟨rfl, id⟩, id⟩
      split at taken
      · obtain rfl := Option.some.inj taken
        have shook := handshake.untouched sent handshake.state rfl
        exact .callback _ ((outcome_runWritecb env side shook).after sent rfl)
      · obtain rfl := Option.some.inj taken
        exact .callback _ (.stay sent handshake.state rfl)
  | report side what =>
      simp only [Option.ite_none_right_eq_some, Option.some.injEq] at taken
      obtain ⟨reported, rfl⟩ := taken
      by_cases eof : what = .readEof
      · subst eof
        rw [World.withClient, eventError_eof_handshake handshake.state]
        exact .eof side reported
      · simp only [World.withClient, redsocksEventError, eof, ↓reduceIte]
        exact .error side what eof
  | others auth =>
      obtain rfl := Option.some.inj taken
      exact .callback _ (.stay (.refl _) handshake.state rfl)

/-! ### The configuration is only read -/

theorem authRequired_config (env : Env) (world : World) (retry : State) :
    (authRequired env world retry).config = world.config := by
  unfold authRequired
  dsimp only
  split
  · exact World.withClient_config world _
  · split
    · exact World.withClient_config world _
    · split
      · exact World.withClient_config world _
      · rfl

theorem relaySsReadcb_config (env : Env) (world : World) :
    (relaySsReadcb env world).config = world.config := by
  unfold relaySsReadcb
  split
  · unfold httpcReadCb
    dsimp only
    repeat' split
    all_goals simp only [World.withClient_config, authRequired_config]
  · unfold httprRelayReadCb
    dsimp only
    repeat' split
    all_goals simp only [World.withClient_config, authRequired_config]
  · exact World.withClient_config world _
  · exact World.withClient_config world _

theorem relaySsWritecb_config (env : Env) (world : World) :
    (relaySsWritecb env world).config = world.config := by
  unfold relaySsWritecb
  split
  · unfold httpcWriteCb
    dsimp only
    repeat' split
    all_goals simp only [World.withClient_config]
  · unfold httprRelayWriteCb
    dsimp only
    repeat' split
    all_goals simp only [World.withClient_config]
  · exact World.withClient_config world _
  · exact World.withClient_config world _

theorem runReadcb_config (env : Env) (world : World) (side : Side) :
    (runReadcb env world side).config = world.config := by
  unfold runReadcb
  split
  · rfl
  · exact relaySsReadcb_config env world
  · exact World.withClient_config world _
  · exact World.withClient_config world _

theorem runWritecb_config (env : Env) (world : World) (side : Side) :
    (runWritecb env world side).config = world.config := by
  unfold runWritecb
  split
  · rfl
  · unfold redsocksRelayConnected
    split
    · exact World.withClient_config world _
    · rw [relaySsWritecb_config, World.withClient_config]
  · exact relaySsWritecb_config env world
  · exact World.withClient_config world _

theorem step_config {world next : World} {event : Event} (taken : step world event = some next) :
    next.config = world.config := by
  simp only [step, step_live taken, Bool.false_eq_true, ↓reduceIte] at taken
  cases event with
  | readData side chunk env =>
      simp only [Option.ite_none_right_eq_some] at taken
      obtain ⟨-, taken⟩ := taken
      split at taken
      · obtain rfl := returned taken
        rw [runReadcb_config, World.withClient_config]
      · obtain rfl := Option.some.inj taken
        exact World.withClient_config world _
  | writeReady side count env =>
      simp only [Option.ite_none_right_eq_some] at taken
      obtain ⟨-, taken⟩ := taken
      split at taken
      · obtain rfl := Option.some.inj taken
        rw [runWritecb_config, World.withClient_config]
      · obtain rfl := Option.some.inj taken
        exact World.withClient_config world _
  | report side what =>
      simp only [Option.ite_none_right_eq_some] at taken
      obtain ⟨-, taken⟩ := taken
      obtain rfl := Option.some.inj taken
      exact World.withClient_config world _
  | others auth =>
      obtain rfl := Option.some.inj taken
      rfl

end ProxySet
