import ProxySet.Redsocks.Socks5Auth

/-!
The request of `socks5.c` word for word: before the pump, the client has written its
greeting, perhaps its credentials, and the request, and nothing else.  Each step adds to
what has been written.
-/

namespace ProxySet

open FieldScript

section Asked

variable {config : Config} {client : Client} {env : Env} {world next : World} {event : Event}
  {valid : Bool}

/-- A callback of the dialogue writes at most something more. -/
structure Asks (client after : Client) : Prop where
  written : client.written <+: after.written
  address : after.destaddr = client.destaddr

theorem Requested.heard_ne_nil {address : SockaddrIn} {heard relayed said : Bytes}
    (requested : Requested config address heard relayed said) : heard ≠ [] := by
  rintro rfl
  cases requested with
  | plain chosen => simp at chosen
  | password chosen => simp at chosen

/-- All that a client can have written before the pump, by what the server has chosen. -/
inductive Said (config : Config) (client : Client) : Prop where
  | nothing : client.written = [] → Said config client
  | greeting : client.written = config.greeting → Said config client
  | message : client.written = config.greeting ++ config.message → [5, 2] <+: client.relay.rcvd →
      Said config client
  | plain : client.written = config.greeting ++ socks5MkcommandPlain 1 client.destaddr →
      [5, 0] <+: client.relay.rcvd → Said config client
  | password : client.written =
        config.greeting ++ (config.message ++ socks5MkcommandPlain 1 client.destaddr) →
      [5, 2] <+: client.relay.rcvd → Said config client

/-- The message with the credentials does not begin like a command. -/
theorem not_command_message {address : SockaddrIn} (more rest : Bytes) :
    config.message ++ more ≠ socks5MkcommandPlain 1 address ++ rest := by
  intro same
  simp [socks5MkcommandPlain, Config.message, socks5MkpasswordPlain] at same

theorem Requested.said
    (requested : Requested config client.destaddr client.relay.rcvd [] client.written) :
    Said config client := by
  generalize written : client.written = text at requested
  cases requested with
  | plain chosen =>
      rw [List.append_nil] at written
      exact .plain written chosen
  | password chosen valid =>
      rw [List.append_nil] at written
      exact .password written (List.IsPrefix.trans ⟨[1, 0], rfl⟩ chosen)

theorem Stage.said (stage : Stage config client) : Said config client := by
  unfold Stage at stage
  split at stage
  · exact .nothing stage.1
  · exact .greeting stage.1
  · exact .message stage.2.1 ⟨_, stage.2.2.symm⟩
  · exact stage.said
  · exact stage.elim

theorem asks_made {read : Client} {data : Bytes} {phase : Socks5State} {count : Nat}
    (smooth : env.smooth) (written : read.written = client.written)
    (address : read.destaddr = client.destaddr) :
    Asks client (redsocksWriteHelper env read (.make env data) (.socks5 phase) count) := by
  rw [writeHelper_made smooth]
  refine ⟨⟨data, ?_⟩, address⟩
  rw [← written, Client.written, List.append_assoc]
  rfl

theorem asks_readCb {phase : Socks5State} {count : Nat} {following : Bytes → Script UInt8}
    (smooth : env.smooth) (state : client.state = .socks5 phase) (sent : phase ≠ .new)
    (script : phase.script client.socks5 = .need count following)
    (full : client.relay.input.length = count) : Asks client (socks5ReadCb env config client) := by
  have kept : ∀ after : Client, after.written = client.written →
      after.destaddr = client.destaddr → Asks client after :=
    fun after written address => ⟨written ▸ List.prefix_rfl, address⟩
  cases phase with
  | new => exact absurd rfl sent
  | methodSent =>
      obtain ⟨rfl, rfl⟩ := Script.need.inj script
      simp only [socks5ReadCb, state, socks5ReadAuthMethods,
        readExpected_whole (show sizesEqual 2 2 = true from rfl) full]
      split
      · exact kept _ rfl rfl
      · split
        · exact asks_made smooth rfl rfl
        · split
          · exact asks_made smooth rfl rfl
          · exact kept _ rfl rfl
  | authSent =>
      obtain ⟨rfl, rfl⟩ := Script.need.inj script
      simp only [socks5ReadCb, state, socks5ReadAuthReply,
        readExpected_whole (show sizesEqual 2 2 = true from rfl) full]
      split
      · exact kept _ rfl rfl
      · split
        · exact asks_made smooth rfl rfl
        · exact kept _ rfl rfl
  | requestSent =>
      obtain ⟨rfl, rfl⟩ := Script.need.inj script
      simp only [socks5ReadCb, state, socks5ReadReply,
        readExpected_whole (show sizesGreaterEqual 4 4 = true from rfl) full]
      split
      · exact kept _ rfl rfl
      · split
        · split
          · exact kept _ rfl rfl
          · split
            · exact kept _ rfl rfl
            · split
              · exact kept _ rfl rfl
              · exact kept _ rfl rfl
        · exact kept _ rfl rfl
  | skipDomain =>
      obtain ⟨rfl, rfl⟩ := Script.need.inj script
      simp only [socks5ReadCb, state,
        readExpected_whole (show sizesGreaterEqual 1 1 = true from rfl) full]
      exact kept _ rfl rfl
  | skipAddress =>
      obtain ⟨rfl, rfl⟩ := Script.need.inj script
      have fits : sizesGreaterEqual client.socks5.toSkip client.socks5.toSkip = true := by
        simp [sizesGreaterEqual]
      simp only [socks5ReadCb, state, readExpected_whole fits full]
      obtain ⟨written, -, -, address, -⟩ := fields_startRelay env _
      exact kept _ written address

theorem step_connecting_asks (shaking : Shaking world.client)
    (state : world.client.state = .socks5 .new) (relay : world.client.relay = redConnectRelay)
    (smooth : event.smooth) (other : event.ofClient = false) (taken : step world event = some next) :
    Asks world.client next.client := by
  have buffer : world.client.buf .relay = redConnectRelay := relay
  simp only [step, shaking.live, Bool.false_eq_true, ↓reduceIte] at taken
  cases event with
  | readData side chunk env =>
      cases side with
      | client => simp [Event.ofClient] at other
      | relay =>
          simp [buffer, Bufferevent.canRead, redConnectRelay, Bufferevent.new, EvBits.evWrite] at taken
  | writeReady side count env =>
      cases side with
      | client => simp [Event.ofClient] at other
      | relay =>
          simp only [Option.ite_none_right_eq_some] at taken
          obtain ⟨-, taken⟩ := taken
          rw [if_pos (by simp [buffer, redConnectRelay, Bufferevent.new])] at taken
          obtain rfl := Option.some.inj taken
          have connected : (redConnectRelay.transmit count).writecb = .connected := rfl
          have fine : env.fails .connected = false := smooth .connected
          simp only [runWritecb, World.withClient_client, Client.buf_setBuf_self, buffer, connected,
            redsocksRelayConnected, fine, Bool.false_eq_true, ↓reduceIte, relaySsWritecb,
            Client.modify, Client.setBuf_subsys, shaking.subsys, socks5WriteCb, Client.setBuf_state,
            state, writeHelper_made smooth]
          refine ⟨?_, rfl⟩
          rw [Client.written, relay]
          exact List.nil_prefix
  | report side what => exact smooth.elim
  | others auth => simp [Event.ofClient] at other

theorem step_asks (progress : Socks5Progress valid world.client) (smooth : event.smooth)
    (taken : step world event = some next) : Asks world.client next.client := by
  have own : Shaking world.client → event.ofClient = true → Asks world.client next.client := by
    intro shaking own
    obtain ⟨buffer, nextEq, -⟩ := step_ofClient shaking own taken
    rw [nextEq]
    exact ⟨List.prefix_rfl, rfl⟩
  cases progress with
  | connecting shaking state offered relay =>
      cases owned : event.ofClient with
      | true => exact own shaking owned
      | false => exact step_connecting_asks shaking state relay smooth owned taken
  | @talking front count following talking reaches rcvd =>
      obtain ⟨phase, state, sent, script⟩ := talking.phase
      cases owned : event.ofClient with
      | true => exact own talking.toShaking owned
      | false =>
          cases event with
          | readData side chunk env =>
              cases side with
              | client => simp [Event.ofClient] at owned
              | relay =>
                  obtain ⟨room, nextEq⟩ := step_talking_read talking taken
                  split at nextEq
                  · rw [nextEq]
                    exact ⟨List.prefix_rfl, rfl⟩
                  · next full =>
                    have whole := Nat.le_antisymm room (Nat.le_of_not_lt full)
                    have asks : Asks (world.client.setBuf .relay (world.client.relay.receive chunk))
                        (socks5ReadCb env world.config
                          (world.client.setBuf .relay (world.client.relay.receive chunk))) :=
                      asks_readCb smooth state sent script whole
                    rw [nextEq]
                    exact ⟨asks.written, asks.address⟩
          | writeReady side amount env =>
              cases side with
              | client => simp [Event.ofClient] at owned
              | relay =>
                  rw [step_talking_write talking taken]
                  refine ⟨?_, rfl⟩
                  simp [Client.written, Client.setBuf]
          | report side what => exact smooth.elim
          | others auth => simp [Event.ofClient] at owned
  | dropped dropped => simp [step_live taken] at dropped
  | pumping pumping live unended started reaches rcvd =>
      have pumped := step_pumpStep pumping (smooth_calm smooth) taken
      exact ⟨(pumped.flow pumping .relay).queues, pumped.destaddr⟩

end Asked

end ProxySet
