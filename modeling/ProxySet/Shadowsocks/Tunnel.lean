import ProxySet.Redsocks.Socks5Asked
import ProxySet.Shadowsocks.Forward

/-!
A socks5 client of redsocks whose proxy is the SOCKS server of `local.c`.  Each
reads what the other has written to their connection, and the callbacks of both run
in any order.
-/

namespace ProxySet.Shadowsocks

open StepRun FieldScript

structure Tunnel where
  world : World
  relay : Relay

inductive TunnelEvent where
  | redsocks (event : ProxySet.Event)
  | shadowsocks (event : Event)

/-- Neither side reads more than the other has sent. -/
def tunnelStep (settings : Settings) (tunnel : Tunnel) : TunnelEvent → Option Tunnel
  | .redsocks event =>
      (ProxySet.step tunnel.world event).bind fun world =>
        if world.client.relay.rcvd <+: tunnel.relay.toServer then some { tunnel with world := world }
        else none
  | .shadowsocks event =>
      (step settings tunnel.relay event).bind fun relay =>
        if relay.read <+: tunnel.world.client.relay.sent then
          some { tunnel with relay := relay }
        else none

/-- Nothing fails on the side of redsocks. -/
def TunnelEvent.smooth : TunnelEvent → Prop
  | .redsocks event => event.smooth
  | .shadowsocks _ => True

/-- During the handshake `local.c` reads a message in one piece and its own are taken in one piece,
and the remote waits to be spoken to. -/
def Prompt (tunnel : Tunnel) : TunnelEvent → Prop
  | .shadowsocks (.serverRecv (⟨.data chunk, first, second⟩ :: _)) =>
      tunnel.relay.stage = .five ∨ first = .taken bufSize ∧ second = .taken bufSize ∧
        tunnel.relay.read ++ chunk = tunnel.world.client.written
  | .shadowsocks (.remoteRecv _) => tunnel.relay.stage = .five
  | _ => True

instance (tunnel : Tunnel) : ∀ event, Decidable (Prompt tunnel event)
  | .redsocks _ => isTrue trivial
  | .shadowsocks (.serverRecv (⟨.data _, _, _⟩ :: _)) => inferInstanceAs (Decidable (_ ∨ _ ∧ _ ∧ _))
  | .shadowsocks (.serverRecv (⟨.closed, _, _⟩ :: _)) => isTrue trivial
  | .shadowsocks (.serverRecv (⟨.failed, _, _⟩ :: _)) => isTrue trivial
  | .shadowsocks (.serverRecv []) => isTrue trivial
  | .shadowsocks (.remoteRecv _) => inferInstanceAs (Decidable (tunnel.relay.stage = .five))
  | .shadowsocks (.serverSend _) => isTrue trivial
  | .shadowsocks (.remoteSend _ _) => isTrue trivial
  | .shadowsocks .remoteTimeout => isTrue trivial

def ahead (address : SockaddrIn) : Bytes :=
  1 :: (address.addrBytes ++ address.portBytes)

structure Unasked (relay : Relay) : Prop where
  header : relay.header = []
  heard : relay.heard = []
  told : relay.told = []

/-- How far the handshake has come at the side of `local.c`. -/
inductive Shaken (settings : Settings) (config : Config) (address : SockaddrIn) (relay : Relay) :
    Prop where
  | zero : relay.stage = .zero → relay.greeted = [] → relay.asked = [] → relay.answered = [] →
      Unasked relay → Shaken settings config address relay
  | one : relay.stage = .one → relay.greeted = config.greeting → relay.asked = [] →
      relay.answered = [5, 0] → Unasked relay → Shaken settings config address relay
  | five : relay.stage = .five → relay.greeted = config.greeting →
      relay.asked = socks5MkcommandPlain 1 address →
      relay.answered = [5, 0] ++ fakeReply settings → relay.header = ahead address →
      relay.headerTaken = relay.header.length → Shaken settings config address relay

section Local

variable {settings : Settings} {config : Config} {address : SockaddrIn} {ctx : Ctx}
  {relay next : Relay} {turn : Turn} {turns : List Turn}

theorem Shaken.frame (shaken : Shaken settings config address relay)
    (same : next.handshakeFields = relay.handshakeFields)
    (quiet : relay.stage ≠ .five → next.told = relay.told ∧ next.heard = relay.heard) :
    Shaken settings config address next := by
  simp only [Relay.handshakeFields, Prod.mk.injEq] at same
  obtain ⟨stage, greeted, asked, answered, header, headerTaken⟩ := same
  have unasked : relay.stage ≠ .five → Unasked relay → Unasked next := fun other before =>
    ⟨header.trans before.header, (quiet other).2.trans before.heard,
      (quiet other).1.trans before.told⟩
  cases shaken with
  | zero at_ silent nothing unanswered before =>
      exact .zero (stage.trans at_) (greeted.trans silent) (asked.trans nothing)
        (answered.trans unanswered) (unasked (by simp [at_]) before)
  | one at_ spoken nothing chosen before =>
      exact .one (stage.trans at_) (greeted.trans spoken) (asked.trans nothing)
        (answered.trans chosen) (unasked (by simp [at_]) before)
  | five at_ spoken requested replied sent whole =>
      exact .five (stage.trans at_) (greeted.trans spoken) (asked.trans requested)
        (answered.trans replied) (header.trans sent) (by rw [headerTaken, header, whole])

theorem Shaken.unasked (shaken : Shaken settings config address relay)
    (other : relay.stage ≠ .five) : Unasked relay := by
  cases shaken with
  | zero _ _ _ _ unasked => exact unasked
  | one _ _ _ _ unasked => exact unasked
  | five stage => exact absurd stage other

theorem Shaken.asked (shaken : Shaken settings config address relay) (five : relay.stage = .five) :
    relay.read = config.greeting ++ socks5MkcommandPlain 1 address ++ relay.heard ∧
      relay.answered = [5, 0] ++ fakeReply settings ∧ relay.header = ahead address ∧
      relay.headerTaken = relay.header.length := by
  cases shaken with
  | zero stage => simp [stage] at five
  | one stage => simp [stage] at five
  | five _ greeted asked answered header whole =>
      exact ⟨by rw [Relay.read, greeted, asked], answered, header, whole⟩

theorem Unasked.read (unasked : Unasked relay) : relay.read = relay.greeted ++ relay.asked := by
  rw [Relay.read, unasked.heard, List.append_nil]

theorem serverRequest_whole {chunk : Bytes} (buffered : ∃ rest, relay.serverBuf =
      socks5MkcommandPlain 1 address ++ rest) (began : relay.answered = [5, 0]) :
    ∃ asked, serverRequest settings relay (.whole chunk) = some (asked, true) ∧
      asked.stage = .five ∧ asked.greeted = relay.greeted ∧ asked.asked = relay.asked ∧
      asked.answered = [5, 0] ++ fakeReply settings ∧ asked.header = ahead address ∧
      asked.headerTaken = asked.header.length := by
  obtain ⟨rest, buffered⟩ := buffered
  have request : relay.serverBuf =
      [5, 1, 0, 1] ++ (address.addrBytes ++ address.portBytes) ++ rest := by
    rw [buffered, socks5MkcommandPlain]
    simp
  have whole : Address 1 (address.addrBytes ++ address.portBytes) := .ipv4 rfl
  obtain ⟨after, more, requested, greeted, asked, -, answered, header, headerTaken, ends⟩ :=
    @serverRequest_supported settings relay (.whole chunk) 5 0 1 _ rest whole (.inl rfl) request
  have reply : (fakeReply settings).take bufSize = fakeReply settings := by
    refine List.take_of_length_le ?_
    simp [fakeReply, bufSize]
  rw [if_neg (by simp [Turn.whole, Sent.part, reply])] at ends
  obtain ⟨rfl, five⟩ := ends
  refine ⟨after, requested, five, greeted, asked, by rw [answered, began], header, ?_⟩
  rw [headerTaken, header]
  simp only [Turn.whole, Sent.part, List.length_take, StreamCoder.length_code]
  simp [SockaddrIn.addrBytes, SockaddrIn.portBytes, bufSize]

theorem serverForward_toServer {chunk : Bytes} {sent : Sent} :
    (serverForward relay chunk sent).1.toServer = relay.toServer := by
  unfold serverForward
  cases sent with
  | again => rfl
  | failed => rfl
  | taken count =>
      dsimp only
      split
      · rfl
      · rfl

theorem serverRequest_grows {result : Relay × Bool}
    (taken : serverRequest settings relay turn = some result) :
    relay.toServer <+: result.1.toServer := by
  unfold serverRequest at taken
  split at taken
  · exact Option.some.inj taken ▸ List.prefix_append _ _
  · split at taken
    · exact Option.some.inj taken ▸ List.prefix_rfl
    · simp at taken
    · dsimp only at taken
      split at taken
      · exact Option.some.inj taken ▸ List.prefix_append _ _
      · exact Option.some.inj taken ▸ List.prefix_append _ _

theorem serverRecvTurn_grows {result : Relay × Bool}
    (taken : serverRecvTurn settings relay turn = some result) :
    relay.toServer <+: result.1.toServer := by
  unfold serverRecvTurn at taken
  split at taken
  · exact Option.some.inj taken ▸ List.prefix_rfl
  · exact Option.some.inj taken ▸ List.prefix_rfl
  · dsimp only at taken
    split at taken
    · refine Option.some.inj taken ▸ ?_
      rw [serverForward_toServer]
    · split at taken
      · exact Option.some.inj taken ▸ List.prefix_append _ _
      · have grown := serverRequest_grows taken
        exact grown

theorem remoteRecvTurn_grows : relay.toServer <+: (remoteRecvTurn relay turn).1.toServer := by
  unfold remoteRecvTurn
  split
  · exact List.prefix_rfl
  · exact List.prefix_rfl
  · dsimp only
    cases turn.first with
    | again => exact List.prefix_rfl
    | failed => exact List.prefix_rfl
    | taken count =>
        dsimp only
        split
        · exact List.prefix_append _ _
        · exact List.prefix_append _ _

theorem remoteSendCb_toServer {peer : Bool} {sent : Sent} :
    (remoteSendCb relay peer sent).toServer = relay.toServer := by
  unfold remoteSendCb
  split
  · split
    · rfl
    · rfl
  · split
    · rfl
    · cases sent with
      | again => rfl
      | failed => rfl
      | taken count =>
          dsimp only
          split
          · rfl
          · rfl

theorem toServer_grows {event : Event} (taken : step settings relay event = some next) :
    relay.toServer <+: next.toServer := by
  cases event with
  | serverRecv turns =>
      simp only [step, Option.ite_none_right_eq_some] at taken
      exact recvLoop_keeps (relay.toServer <+: ·.toServer)
        (fun _ _ _ grown taken => grown.trans (serverRecvTurn_grows taken)) List.prefix_rfl taken.2
  | serverSend sent =>
      simp only [step, Option.ite_none_right_eq_some, Option.some.injEq, serverSendCb] at taken
      obtain ⟨-, rfl⟩ := taken
      split
      · exact List.prefix_rfl
      · cases sent with
        | again => exact List.prefix_rfl
        | failed => exact List.prefix_rfl
        | taken count =>
            dsimp only
            split
            · exact List.prefix_append _ _
            · exact List.prefix_append _ _
  | remoteRecv turns =>
      simp only [step, Option.ite_none_right_eq_some] at taken
      refine recvLoop_keeps (relay.toServer <+: ·.toServer) (fun _ _ _ grown taken => ?_)
        List.prefix_rfl taken.2
      exact Option.some.inj taken ▸ grown.trans remoteRecvTurn_grows
  | remoteSend peer sent =>
      simp only [step, Option.ite_none_right_eq_some, Option.some.injEq] at taken
      obtain ⟨-, rfl⟩ := taken
      rw [remoteSendCb_toServer]
  | remoteTimeout =>
      simp only [step, Option.ite_none_right_eq_some, Option.some.injEq] at taken
      obtain ⟨-, rfl⟩ := taken
      exact List.prefix_rfl

theorem shaken_heard {written : Bytes} (shaken : Shaken settings config address relay)
    (filled : ∀ turn ∈ turns, turn.fits = true)
    (wholly : ∀ turn rest chunk, turns = turn :: rest → turn.received = .data chunk →
      relay.stage ≠ .five → turn = .whole chunk ∧ relay.read ++ chunk = written)
    (greets : relay.stage = .zero → written = [] ∨ written = config.greeting)
    (requests : relay.stage = .one → written = [] ∨ written = config.greeting ∨
      written = config.greeting ++ socks5MkcommandPlain 1 address)
    (heard : Heard settings relay turns next) : Shaken settings config address next := by
  have some_ : ∀ turn ∈ turns, ∀ chunk, turn.received = .data chunk → chunk ≠ [] := by
    intro turn member chunk received
    have fits := filled turn member
    simp only [Turn.fits, received, Bool.and_eq_true, Bool.not_eq_true',
      List.isEmpty_eq_false_iff] at fits
    exact fits.1
  -- the request, alone in its message
  have request : ∀ turn rest chunk, turns = turn :: rest → turn.received = .data chunk →
      relay.stage = .one → ∃ asked,
        serverRequest settings (relay.asking chunk) turn = some (asked, true) ∧
          Shaken settings config address asked := by
    intro turn rest chunk split received one
    obtain ⟨whole, said⟩ := wholly turn rest chunk split received (by simp [one])
    cases shaken with
    | zero stage => simp [stage] at one
    | five stage => simp [stage] at one
    | one stage greeted nothing answered unasked =>
        rw [unasked.read, greeted, nothing, List.append_nil] at said
        have requested : chunk = socks5MkcommandPlain 1 address := by
          have present := some_ turn (by simp [split]) chunk received
          rcases requests one with none | greeting | request
          · rw [none] at said
            exact absurd (List.append_eq_nil_iff.mp said).2 present
          · rw [greeting] at said
            exact absurd (List.append_right_eq_self.mp said) present
          · exact List.append_cancel_left (said.trans request)
        subst requested
        obtain ⟨after, taken, five, kept, text, replied, header, headerTaken⟩ :=
          @serverRequest_whole settings address
            (relay.asking (socks5MkcommandPlain 1 address)) (socks5MkcommandPlain 1 address)
            ⟨_, rfl⟩ answered
        refine ⟨after, whole ▸ taken, .five five (kept.trans greeted) ?_ replied header headerTaken⟩
        rw [text, Relay.asking, nothing]
        rfl
  cases heard with
  | idle => exact shaken
  | forwards five same => exact shaken.frame same fun other => absurd five other
  | ends ending other => exact shaken.frame rfl fun _ => ⟨rfl, rfl⟩
  | @greets turn rest chunk received zero =>
      obtain ⟨whole, said⟩ := wholly turn rest chunk rfl received (by simp [zero])
      cases shaken with
      | one stage => simp [stage] at zero
      | five stage => simp [stage] at zero
      | zero stage silent nothing unanswered unasked =>
          rw [unasked.read, silent, nothing, List.nil_append, List.nil_append] at said
          have greeted : chunk = config.greeting := by
            have present := some_ turn (by simp) chunk received
            exact said.trans ((greets zero).resolve_left fun none => present (said.trans none))
          refine .one rfl ?_ nothing ?_ ⟨unasked.header, unasked.heard, unasked.told⟩
          · simp [answer, silent, greeted]
          · simp [answer, unanswered]
  | @closes turn rest chunk next received one came =>
      obtain ⟨asked, goes, -⟩ := request turn rest chunk rfl received one
      rw [goes] at came
      cases came
  | @opens turn rest chunk asked next received one came same =>
      obtain ⟨after, goes, five⟩ := request turn rest chunk rfl received one
      obtain ⟨rfl, -⟩ := Prod.mk.inj (Option.some.inj (came.symm.trans goes))
      exact five.frame same fun other => absurd (serverRequest_stage came) other

theorem shaken_step {event : Event} {written : Bytes}
    (shaken : Shaken settings config address relay) (patient : Patient relay event)
    (wholly : ∀ turn rest, event = .serverRecv (turn :: rest) → ∀ chunk,
      turn.received = .data chunk → relay.stage ≠ .five →
        turn = .whole chunk ∧ relay.read ++ chunk = written)
    (greets : relay.stage = .zero → written = [] ∨ written = config.greeting)
    (requests : relay.stage = .one → written = [] ∨ written = config.greeting ∨
      written = config.greeting ++ socks5MkcommandPlain 1 address)
    (taken : step settings relay event = some next) : Shaken settings config address next := by
  cases event with
  | serverRecv turns =>
      simp only [step, Option.ite_none_right_eq_some, Bool.and_eq_true, List.all_eq_true] at taken
      obtain ⟨⟨-, fit⟩, ran⟩ := taken
      refine shaken_heard shaken fit (fun turn rest chunk split received other => ?_) greets requests
        (serverRecvCb_heard ran)
      exact wholly turn rest (by rw [split]) chunk received other
  | serverSend sent =>
      simp only [step, Option.ite_none_right_eq_some, Option.some.injEq] at taken
      obtain ⟨-, rfl⟩ := taken
      obtain ⟨same, heard, told⟩ := @serverSendCb_handshake relay sent
      exact shaken.frame same fun _ => ⟨told, heard⟩
  | remoteRecv turns =>
      simp only [step, Option.ite_none_right_eq_some] at taken
      exact shaken.frame (remoteRecvCb_handshake taken.2).1 fun other => absurd patient other
  | remoteSend peer sent =>
      simp only [step, Option.ite_none_right_eq_some, Option.some.injEq] at taken
      obtain ⟨-, rfl⟩ := taken
      obtain ⟨same, heard, told⟩ := @remoteSendCb_handshake relay peer sent
      exact shaken.frame same fun _ => ⟨told, heard⟩
  | remoteTimeout =>
      simp only [step, Option.ite_none_right_eq_some, Option.some.injEq] at taken
      obtain ⟨-, rfl⟩ := taken
      exact shaken.frame rfl fun _ => ⟨rfl, rfl⟩

end Local

section Runs

variable {settings : Settings} {config : Config} {address : SockaddrIn} {ctx : Ctx} {auth : HttpAuth}
  {env : Env} {tunnel next final : Tunnel} {event : TunnelEvent} {events : List TunnelEvent}

structure Joined (settings : Settings) (config : Config) (address : SockaddrIn) (ctx : Ctx)
    (tunnel : Tunnel) : Prop where
  ofInstance : tunnel.world.config = config
  ofAddress : tunnel.world.client.destaddr = address
  reached : Reached tunnel.world.client
  spoken : Spoken config tunnel.world.client
  progress : Socks5Progress (socks5IsValidCred config.login config.password) tunnel.world.client
  fed : tunnel.world.client.relay.rcvd <+: tunnel.relay.toServer
  asked : tunnel.relay.read <+: tunnel.world.client.written
  relay : Live True ctx tunnel.relay ∨ Over True ctx tunnel.relay
  shaken : Shaken settings config address tunnel.relay

/-- The answers of `local.c` make up a dialogue without a password. -/
theorem hear_answers (settings : Settings) (valid : Bool) (text : Bytes) :
    (methodScript valid).hear ([5, 0] ++ fakeReply settings ++ text) = .accepted text := by
  simp [methodScript, replyScript, addressScript, Script.hear, fakeReply]

theorem Joined.hears (joined : Joined settings config address ctx tunnel) :
    tunnel.world.client.relay.rcvd <+: tunnel.relay.served ctx := by
  refine joined.fed.trans ?_
  rcases joined.relay with live | past
  · exact live.downward.behind trivial
  · exact past.behind trivial

theorem Joined.unheard (joined : Joined settings config address ctx tunnel)
    (zero : tunnel.relay.stage = .zero) : tunnel.world.client.relay.rcvd = [] := by
  have hears := joined.hears
  cases joined.shaken with
  | zero stage greeted asked answered unasked =>
      rw [Relay.served, answered, unasked.told] at hears
      exact List.prefix_nil.mp hears
  | one stage => simp [stage] at zero
  | five stage => simp [stage] at zero

theorem Joined.chosen (joined : Joined settings config address ctx tunnel)
    (one : tunnel.relay.stage = .one) : tunnel.world.client.relay.rcvd <+: [5, 0] := by
  have hears := joined.hears
  cases joined.shaken with
  | zero stage => simp [stage] at one
  | one stage greeted asked answered unasked =>
      rw [Relay.served, answered, unasked.told] at hears
      exact hears
  | five stage => simp [stage] at one

/-- Whatever redsocks has read, it lies in front of a whole dialogue. -/
theorem Joined.within (joined : Joined settings config address ctx tunnel) :
    tunnel.world.client.relay.rcvd <+:
      [5, 0] ++ fakeReply settings ++ decrypt.code ctx tunnel.relay.told := by
  cases joined.shaken with
  | zero stage => simp [joined.unheard stage]
  | one stage =>
      refine (joined.chosen stage).trans ?_
      rw [List.append_assoc]
      exact List.prefix_append _ _
  | five stage greeted asked answered =>
      have hears := joined.hears
      rw [Relay.served, answered] at hears
      exact hears

theorem Joined.live (joined : Joined settings config address ctx tunnel) :
    tunnel.world.client.dropped = false := by
  cases joined.progress with
  | connecting shaking => exact shaking.live
  | talking talking => exact talking.live
  | dropped dropped unstarted reaches =>
      obtain ⟨rest, split⟩ := joined.within
      have rejected := Script.hear_of_reaches reaches rest
      rw [split, hear_answers] at rejected
      simp [Script.hear] at rejected
  | pumping pumping live => exact live

theorem Joined.said (joined : Joined settings config address ctx tunnel)
    (still : tunnel.world.client.state ≠ .pumpActive) : Said config tunnel.world.client := by
  cases joined.spoken with
  | dropped dropped => simp [joined.live] at dropped
  | speaking speaking => exact speaking.stage.said
  | pumping state => exact absurd state still

theorem Joined.pumped (joined : Joined settings config address ctx tunnel)
    (state : tunnel.world.client.state = .pumpActive) :
    ∃ front, Script.Reaches (methodScript (socks5IsValidCred config.login config.password)) front
        .accept ∧ tunnel.world.client.relay.rcvd = front ++ tunnel.world.client.handed := by
  cases joined.progress with
  | connecting shaking new => simp [state] at new
  | talking talking =>
      obtain ⟨phase, other, -⟩ := talking.phase
      simp [state] at other
  | dropped dropped => simp [joined.live] at dropped
  | pumping pumping live unended started reaches rcvd => exact ⟨_, reaches, rcvd⟩

/-- Behind the command, the client has written what the program has sent and it has taken. -/
theorem Joined.behind (joined : Joined settings config address ctx tunnel)
    (front : config.greeting ++ socks5MkcommandPlain 1 address <+: tunnel.world.client.written) :
    ∃ payload, tunnel.world.client.written =
        config.greeting ++ socks5MkcommandPlain 1 address ++ payload ∧
      payload ++ tunnel.world.client.client.input = tunnel.world.client.client.rcvd := by
  cases joined.spoken with
  | dropped dropped => simp [joined.live] at dropped
  | speaking speaking =>
      have plain : tunnel.world.client.written =
          config.greeting ++ socks5MkcommandPlain 1 address := by
        cases speaking.stage.said with
        | nothing written =>
            rw [written] at front
            simp [socks5MkcommandPlain] at front
        | greeting written =>
            rw [written] at front
            have sizes := front.length_le
            have long : 0 < (socks5MkcommandPlain 1 address).length := by
              simp [socks5MkcommandPlain]
            rw [List.length_append] at sizes
            omega
        | message written =>
            rw [written, List.prefix_append_right_inj] at front
            simp [socks5MkcommandPlain, Config.message, socks5MkpasswordPlain] at front
        | plain written =>
            rw [joined.ofAddress] at written
            exact written
        | password written =>
            rw [written, List.prefix_append_right_inj] at front
            simp [socks5MkcommandPlain, Config.message, socks5MkpasswordPlain] at front
      exact ⟨[], by simpa using plain, by simpa using speaking.unread⟩
  | pumping state started relaying =>
      obtain ⟨relayed, taken, requested⟩ := relaying
      generalize written : tunnel.world.client.written = said at requested front
      rw [joined.ofAddress] at requested
      cases requested with
      | plain chosen => exact ⟨relayed, (List.append_assoc _ _ _).symm, taken⟩
      | password chosen valid =>
          obtain ⟨payload, same⟩ := front
          rw [List.append_assoc] at same
          exact absurd (List.append_cancel_left same).symm (not_command_message _ _)

theorem Joined.greets (joined : Joined settings config address ctx tunnel)
    (zero : tunnel.relay.stage = .zero) :
    tunnel.world.client.written = [] ∨ tunnel.world.client.written = config.greeting := by
  have silent := joined.unheard zero
  by_cases state : tunnel.world.client.state = .pumpActive
  · cases joined.spoken with
    | dropped dropped => simp [joined.live] at dropped
    | speaking speaking => exact absurd state speaking.notPump
    | pumping state started relaying =>
        obtain ⟨relayed, -, requested⟩ := relaying
        exact absurd silent requested.heard_ne_nil
  · cases joined.said state with
    | nothing written => exact .inl written
    | greeting written => exact .inr written
    | message written heard => simp [silent] at heard
    | plain written heard => simp [silent] at heard
    | password written heard => simp [silent] at heard

theorem Joined.requests (joined : Joined settings config address ctx tunnel)
    (one : tunnel.relay.stage = .one) :
    tunnel.world.client.written = [] ∨ tunnel.world.client.written = config.greeting ∨
      tunnel.world.client.written = config.greeting ++ socks5MkcommandPlain 1 address := by
  have chosen := joined.chosen one
  by_cases state : tunnel.world.client.state = .pumpActive
  · obtain ⟨front, reaches, rcvd⟩ := joined.pumped state
    obtain ⟨rest, split⟩ := chosen
    have heard := Script.hear_of_reaches reaches (tunnel.world.client.handed ++ rest)
    rw [← List.append_assoc, ← rcvd, split] at heard
    simp [methodScript, replyScript, Script.hear] at heard
  · cases joined.said state with
    | nothing written => exact .inl written
    | greeting written => exact .inr (.inl written)
    | message written heard => exact absurd (heard.trans chosen) (by decide)
    | plain written =>
        rw [joined.ofAddress] at written
        exact .inr (.inr written)
    | password written heard => exact absurd (heard.trans chosen) (by decide)

theorem joined_step (joined : Joined settings config address ctx tunnel)
    (smooth : event.smooth) (prompt : Prompt tunnel event)
    (taken : tunnelStep settings tunnel event = some next) : Joined settings config address ctx next := by
  cases event with
  | redsocks event =>
      obtain ⟨world, stepped, taken⟩ := Option.bind_eq_some_iff.mp taken
      simp only [Option.ite_none_right_eq_some, Option.some.injEq] at taken
      obtain ⟨fed, rfl⟩ := taken
      obtain ⟨rfl, ofAddress, reached, spoken, progress, -, asked, relay, shaken⟩ := joined
      have asks := step_asks progress smooth stepped
      exact ⟨step_config stepped, asks.address.trans ofAddress, reached_step reached stepped,
        spoken_step reached spoken stepped, step_socks5Progress reached progress smooth stepped, fed,
        asked.trans asks.written, relay, shaken⟩
  | shadowsocks event =>
      obtain ⟨relay, stepped, taken⟩ := Option.bind_eq_some_iff.mp taken
      simp only [Option.ite_none_right_eq_some, Option.some.injEq] at taken
      obtain ⟨asked, rfl⟩ := taken
      have patient : Patient tunnel.relay event := by
        cases event with
        | remoteRecv turns => exact prompt
        | serverRecv turns =>
            match turns with
            | [] | ⟨.closed, _, _⟩ :: _ | ⟨.failed, _, _⟩ :: _ => trivial
            | ⟨.data chunk, first, second⟩ :: rest =>
                intro zero
                obtain ⟨rfl, -⟩ := Or.resolve_left prompt (by simp [zero])
                rfl
        | _ => trivial
      refine ⟨joined.ofInstance, joined.ofAddress, joined.reached, joined.spoken, joined.progress,
        joined.fed.trans (toServer_grows stepped), asked.trans (List.prefix_append _ _), ?_, ?_⟩
      · rcases joined.relay with live | past
        · exact step_live live (fun _ => patient) stepped
        · rw [step_over past] at stepped
          exact absurd stepped (by simp)
      · refine shaken_step joined.shaken patient ?_ joined.greets joined.requests stepped
        rintro ⟨received, first, second⟩ rest rfl chunk rfl unasked
        obtain ⟨rfl, rfl, said⟩ := Or.resolve_left prompt unasked
        exact ⟨rfl, said⟩

theorem joined_accepted (smooth : env.smooth) {serverBuf remoteBuf : Bytes}
    (serverRoom : serverBuf.length = bufSize) (remoteRoom : remoteBuf.length = bufSize) :
    Joined settings config address ctx
      { world := acceptedWorld env config auth .socks5 address
        relay := accepted ctx serverBuf remoteBuf } := by
  have progress : Socks5Progress (socks5IsValidCred config.login config.password)
      (redsocksAcceptClient env config .socks5 address) := socks5Progress_accepted smooth
  have spoken := spoken_accept env config address
  have client : (redsocksAcceptClient env config .socks5 address).destaddr = address ∧
      (redsocksAcceptClient env config .socks5 address).relay = redConnectRelay := by
    simp only [redsocksAcceptClient, smooth .acceptEnable, Bool.false_eq_true, ↓reduceIte,
      redsocksConnectRelay, smooth .connectRelay]
    exact ⟨rfl, trivial⟩
  obtain ⟨ofAddress, relay⟩ := client
  refine ⟨rfl, ofAddress, reached_accept env config .socks5 address, spoken, progress, ?_,
    List.nil_prefix, .inl (live_accepted True ctx serverRoom remoteRoom),
    .zero rfl rfl rfl rfl ⟨rfl, rfl, rfl⟩⟩
  simp only [acceptedWorld, relay]
  exact List.nil_prefix

theorem run_joined (smooth : env.smooth) {serverBuf remoteBuf : Bytes}
    (serverRoom : serverBuf.length = bufSize) (remoteRoom : remoteBuf.length = bufSize)
    (smoothly : ∀ event ∈ events, event.smooth)
    (prompt : Along (tunnelStep settings) Prompt events
      { world := acceptedWorld env config auth .socks5 address
        relay := accepted ctx serverBuf remoteBuf })
    (ran : run (tunnelStep settings) events
      { world := acceptedWorld env config auth .socks5 address
        relay := accepted ctx serverBuf remoteBuf } = some final) :
    Joined settings config address ctx final :=
  run_invariant_along (Joined settings config address ctx)
    (fun _ _ _ joined met taken => joined_step joined met.1 met.2 taken)
    (joined_accepted smooth serverRoom remoteRoom)
    (along_and (along_of_forall smoothly _) prompt) ran

/-- Nothing that the program has sent is still under way. -/
structure SentOn (tunnel : Tunnel) : Prop where
  five : tunnel.relay.stage = .five
  reading : tunnel.relay.serverRecv = true
  asked : tunnel.relay.read = tunnel.world.client.written
  input : tunnel.world.client.client.input = []

instance (tunnel : Tunnel) : Decidable (SentOn tunnel) :=
  decidable_of_iff (tunnel.relay.stage = .five ∧ tunnel.relay.serverRecv = true ∧
      tunnel.relay.read = tunnel.world.client.written ∧
      tunnel.world.client.client.input = [])
    ⟨fun ⟨five, reading, asked, input⟩ => ⟨five, reading, asked, input⟩,
      fun on => ⟨on.five, on.reading, on.asked, on.input⟩⟩

/-- Nothing that the remote has sent is still under way to redsocks. -/
structure HandedOn (tunnel : Tunnel) : Prop where
  pump : tunnel.world.client.state = .pumpActive
  reading : tunnel.relay.remoteRecv = true
  rcvd : tunnel.world.client.relay.rcvd = tunnel.relay.toServer

theorem Joined.toRemote (joined : Joined settings config address ctx tunnel) :
    tunnel.relay.toRemote <+: encrypt.code ctx (tunnel.relay.header ++ tunnel.relay.heard) ∧
      (tunnel.relay.serverRecv = true →
        tunnel.relay.toRemote = encrypt.code ctx (tunnel.relay.header ++ tunnel.relay.heard)) := by
  have spoken : tunnel.relay.toRemote <+: tunnel.relay.spoken ctx ∧
      (tunnel.relay.serverRecv = true → tunnel.relay.toRemote = tunnel.relay.spoken ctx) := by
    rcases joined.relay with live | past
    · exact ⟨live.upward.ahead, fun reading => (live.idle_up reading).2⟩
    · exact ⟨past.ahead, fun reading => by simp [past.still.1] at reading⟩
  have same : tunnel.relay.spoken ctx =
      encrypt.code ctx (tunnel.relay.header ++ tunnel.relay.heard) := by
    by_cases five : tunnel.relay.stage = .five
    · exact code_spoken (joined.shaken.asked five).2.2.2
    · have unasked := joined.shaken.unasked five
      simp [Relay.spoken, unasked.header, unasked.heard]
  rw [← same]
  exact spoken

theorem Joined.forwarded (joined : Joined settings config address ctx tunnel)
    (paired : Paired ctx ctx) :
    decrypt.code ctx tunnel.relay.toRemote <+: ahead address ++ tunnel.world.client.client.rcvd ∧
      (SentOn tunnel → decrypt.code ctx tunnel.relay.toRemote =
        ahead address ++ tunnel.world.client.client.rcvd) := by
  obtain ⟨sent, whole⟩ := joined.toRemote
  by_cases five : tunnel.relay.stage = .five
  · obtain ⟨requested, -, header, -⟩ := joined.shaken.asked five
    have asked := joined.asked
    rw [requested] at asked
    obtain ⟨payload, written, rcvd⟩ := joined.behind ((List.prefix_append _ _).trans asked)
    have heard : tunnel.relay.heard <+: payload := by
      rw [written, List.prefix_append_right_inj] at asked
      exact asked
    refine ⟨?_, fun on => ?_⟩
    · obtain ⟨rest, split⟩ := sent
      rw [decrypt_sent paired split, header]
      refine (List.take_prefix _ _).trans ((List.prefix_append_right_inj _).mpr (heard.trans ?_))
      exact ⟨_, rcvd⟩
    · have all : tunnel.relay.heard = payload := by
        have same := on.asked
        rw [requested, written] at same
        exact List.append_cancel_left same
      rw [whole on.reading, decrypt_undoes.code _ paired, header, all, ← rcvd, on.input,
        List.append_nil]
  · have unasked := joined.shaken.unasked five
    rw [unasked.header, unasked.heard] at sent
    have unsaid : tunnel.relay.toRemote = [] := List.prefix_nil.mp sent
    rw [unsaid]
    exact ⟨List.nil_prefix, fun on => absurd on.five five⟩

theorem Joined.handed (joined : Joined settings config address ctx tunnel) {text : Bytes}
    (told : decrypt.code ctx tunnel.relay.told = text) :
    tunnel.world.client.handed <+: text ∧
      (HandedOn tunnel → tunnel.world.client.handed = text) := by
  by_cases pump : tunnel.world.client.state = .pumpActive
  · obtain ⟨front, reaches, rcvd⟩ := joined.pumped pump
    obtain ⟨rest, split⟩ := joined.within
    have heard := Script.hear_of_reaches reaches (tunnel.world.client.handed ++ rest)
    rw [← List.append_assoc, ← rcvd, split, hear_answers, told] at heard
    have parts : text = tunnel.world.client.handed ++ rest := Heard.accepted.inj heard
    refine ⟨⟨rest, parts.symm⟩, fun on => ?_⟩
    have served : tunnel.world.client.relay.rcvd = tunnel.relay.served ctx := by
      rw [on.rcvd]
      rcases joined.relay with live | past
      · exact (live.idle_down on.reading).2 trivial
      · exact absurd on.reading (by simp [past.still.2.2.1])
    by_cases five : tunnel.relay.stage = .five
    · have sizes := congrArg List.length split
      rw [served, Relay.served, (joined.shaken.asked five).2.1, List.length_append] at sizes
      have done : rest = [] := List.length_eq_zero_iff.mp (by omega)
      rw [parts, done, List.append_nil]
    · have nothing := (joined.shaken.unasked five).told
      rw [nothing, StreamCoder.code_nil] at told
      rw [← told] at parts ⊢
      exact (List.append_eq_nil_iff.mp parts.symm).1
  · have shaking : Shaking tunnel.world.client := by
      cases joined.progress with
      | connecting shaking => exact shaking
      | talking talking => exact talking.toShaking
      | dropped dropped => simp [joined.live] at dropped
      | pumping pumping => exact absurd pumping.state pump
    have nothing : tunnel.world.client.handed = [] := by
      rw [Client.handed, shaking.unsent, if_neg pump]
      rfl
    rw [nothing]
    exact ⟨List.nil_prefix, fun on => absurd on.pump pump⟩

/-- The remote decrypts the address of the client and then what the program has sent to redsocks,
and the program is handed what the remote has encrypted, each in order and once, however the
callbacks of both programs alternate. -/
theorem tunnel_carries (made : newCtx settings.method settings.hash = some ctx) (smooth : env.smooth)
    {serverBuf remoteBuf : Bytes} (serverRoom : serverBuf.length = bufSize)
    (remoteRoom : remoteBuf.length = bufSize)
    (smoothly : ∀ event ∈ events, event.smooth)
    (prompt : Along (tunnelStep settings) Prompt events
      { world := acceptedWorld env config auth .socks5 address
        relay := accepted ctx serverBuf remoteBuf })
    (ran : run (tunnelStep settings) events
      { world := acceptedWorld env config auth .socks5 address
        relay := accepted ctx serverBuf remoteBuf } = some final) :
    final.world.client.dropped = false ∧
      decrypt.code ctx final.relay.toRemote <+: ahead address ++ final.world.client.client.rcvd ∧
      (SentOn final → decrypt.code ctx final.relay.toRemote =
        ahead address ++ final.world.client.client.rcvd) ∧
      ∀ text, final.relay.told = encrypt.code ctx text →
        final.world.client.handed <+: text ∧ (HandedOn final → final.world.client.handed = text) := by
  obtain ⟨_, sameCtx, paired⟩ := newCtx_paired settings.method settings.hash
  obtain rfl := Option.some.inj (made.symm.trans sameCtx)
  have joined := run_joined smooth serverRoom remoteRoom smoothly prompt ran
  obtain ⟨forwarded, all⟩ := joined.forwarded paired
  refine ⟨joined.live, forwarded, all, ?_⟩
  intro text told
  exact joined.handed (by rw [told, decrypt_undoes.code text paired])

/-- A program sends three bytes through both. -/
def tunnelRun : List TunnelEvent :=
  [.redsocks (.writeReady .relay 0 Env.ok), .redsocks (.writeReady .relay 3 Env.ok),
    .shadowsocks (.remoteSend true .again), .shadowsocks (.serverRecv [.whole [5, 1, 0]]),
    .redsocks (.readData .relay [5, 0] Env.ok), .redsocks (.writeReady .relay 10 Env.ok),
    .shadowsocks (.serverRecv [.whole [5, 1, 0, 1, 10, 0, 0, 1, 0, 80]]),
    .redsocks (.readData .relay [5, 0, 0, 1] Env.ok),
    .redsocks (.readData .relay [0, 0, 0, 0, 32, 196] Env.ok),
    .redsocks (.readData .client [71, 69, 84] Env.ok), .redsocks (.writeReady .relay 3 Env.ok),
    .shadowsocks (.serverRecv [.whole [71, 69, 84]])]

def tunnelAccepted : Tunnel :=
  { world := plainWorld .socks5, relay := rc4Accepted }

theorem tunnel_carries_sent :
    ∃ final, run (tunnelStep rc4Settings) tunnelRun tunnelAccepted = some final ∧
      final.world.client.client.rcvd = [71, 69, 84] ∧ SentOn final ∧
      final.world.client.dropped = false ∧
      decrypt.code (.rc4 (rc4SetKey [1, 2, 3])) final.relay.toRemote <+:
        ahead { a := 10, b := 0, c := 0, d := 1, port := 80 } ++ final.world.client.client.rcvd ∧
      (SentOn final → decrypt.code (.rc4 (rc4SetKey [1, 2, 3])) final.relay.toRemote =
        ahead { a := 10, b := 0, c := 0, d := 1, port := 80 } ++ final.world.client.client.rcvd) ∧
      ∀ text, final.relay.told = encrypt.code (.rc4 (rc4SetKey [1, 2, 3])) text →
        final.world.client.handed <+: text ∧
          (HandedOn final → final.world.client.handed = text) := by
  have goes : (run (tunnelStep rc4Settings) tunnelRun tunnelAccepted).any (fun final =>
      decide (final.world.client.client.rcvd = [71, 69, 84] ∧ SentOn final)) = true := by
    decide +kernel
  obtain ⟨final, ran, decided⟩ := (Option.any_eq_true _ _).mp goes
  obtain ⟨rcvd, sentOn⟩ := of_decide_eq_true decided
  have prompt : Along (tunnelStep rc4Settings) Prompt tunnelRun tunnelAccepted := by
    decide +kernel
  have smoothly : ∀ event ∈ tunnelRun, event.smooth := by
    simp only [tunnelRun, List.forall_mem_cons, List.not_mem_nil, false_implies, implies_true,
      and_true]
    refine ⟨?_, ?_, ?_, ?_, ?_, ?_, ?_, ?_, ?_, ?_, ?_, ?_⟩
    all_goals
      first
        | exact trivial
        | exact fun _ => rfl
  have room : (List.replicate bufSize (0 : UInt8)).length = bufSize := List.length_replicate ..
  exact ⟨final, ran, rcvd, sentOn,
    tunnel_carries rfl (fun _ => rfl) room room smoothly prompt ran⟩

end Runs

end ProxySet.Shadowsocks
