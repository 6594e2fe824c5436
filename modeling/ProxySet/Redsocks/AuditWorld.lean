import ProxySet.Redsocks.LifeCycle

/-!
The ledger is only kept beside the client: where no more calls fail than the plain
callbacks know of, the audited callbacks do to the world what the plain ones do.
-/

namespace ProxySet.Audit

open TokenReader

section Operations

variable (audited : Audited)

@[simp] theorem world_use : audited.use.world = audited.world := rfl

@[simp] theorem world_onClient (change : Client → Client) :
    (audited.onClient change).world = audited.world.withClient (change audited.world.client) := rfl

@[simp] theorem world_log (message : LogMsg) :
    (audited.log message).world = audited.world.withClient (audited.world.client.log message) := rfl

@[simp] theorem world_onLedger (change : Ledger → Ledger) :
    (audited.onLedger change).world = audited.world := rfl

@[simp] theorem world_onBuffer (change : Client → Client) :
    (audited.onBuffer change).world = audited.world.withClient (change audited.world.client) := rfl

@[simp] theorem world_fini :
    audited.fini.world = audited.world.withClient audited.world.client.fini := by
  unfold Audited.fini
  dsimp only
  split
  · rfl
  · rfl

@[simp] theorem world_drop :
    (redsocksDropClient audited).world =
      audited.world.withClient (ProxySet.redsocksDropClient audited.world.client) := by
  simp [redsocksDropClient, ProxySet.redsocksDropClient, World.withClient]

@[simp] theorem attempt_false (change : Client → Client) (client : Client) :
    attempt false change client = change client := rfl

@[simp] theorem withClient_withClient (world : World) (first second : Client) :
    (world.withClient first).withClient second = world.withClient second := rfl

theorem world_ite {test : Prop} [Decidable test] {yes no : Audited} {plainYes plainNo : Client}
    {world : World} (whenYes : test → yes.world = world.withClient plainYes)
    (whenNo : ¬test → no.world = world.withClient plainNo) :
    (if test then yes else no).world = world.withClient (if test then plainYes else plainNo) := by
  split
  next holds => exact whenYes holds
  next fails => exact whenNo fails

@[simp] theorem world_shutdown (side : Side) (how : How) :
    (redsocksShutdown audited side how).world =
      audited.world.withClient (ProxySet.redsocksShutdown audited.world.client side how) :=
  world_ite (fun _ => by simp [shutOne]) (fun _ => rfl)

@[simp] theorem world_eventError (side : Side) (what : What) :
    (redsocksEventError audited side what).world =
      audited.world.withClient (ProxySet.redsocksEventError audited.world.client side what) := by
  unfold redsocksEventError ProxySet.redsocksEventError
  refine world_ite (fun _ => ?_) (fun _ => by simp)
  simp only [world_use, world_shutdown, World.withClient_client]
  exact world_ite (fun _ => by simp) (fun _ => by simp)

@[simp] theorem world_relayReadcb (source target : Side) :
    (redsocksRelayReadcb Extras.none audited source target).world =
      audited.world.withClient (ProxySet.redsocksRelayReadcb audited.world.client source target) :=
  rfl

@[simp] theorem world_relayWritecb (source target : Side) :
    (redsocksRelayWritecb Extras.none audited source target).world =
      audited.world.withClient (ProxySet.redsocksRelayWritecb audited.world.client source target) :=
  world_ite (fun _ => by simp) (fun _ => rfl)

@[simp] theorem world_startRelay (env : Env) :
    (redsocksStartRelay env audited).world =
      audited.world.withClient (ProxySet.redsocksStartRelay env audited.world.client) := by
  refine world_ite (fun _ => ?_) (fun _ => world_ite (fun _ => ?_) (fun _ => ?_))
  · simp [startPump]
  · simp [startPump]
  · simp [startPump]

theorem world_readExpected (comparator : Nat → Nat → Bool) (expected : Nat) :
    (redsocksReadExpected Extras.none audited comparator expected).1 =
        (ProxySet.redsocksReadExpected audited.world.client comparator expected).1 ∧
      (redsocksReadExpected Extras.none audited comparator expected).2.world =
        audited.world.withClient
          (ProxySet.redsocksReadExpected audited.world.client comparator expected).2 := by
  unfold redsocksReadExpected ProxySet.redsocksReadExpected
  dsimp only
  split
  · exact ⟨rfl, rfl⟩
  · exact ⟨rfl, by simp⟩

@[simp] theorem world_writeHelperWait (state : State) (wmLow wmHigh : Nat) :
    (redsocksWriteHelperWait Extras.none audited state wmLow wmHigh).world =
      audited.world.withClient
        (ProxySet.redsocksWriteHelperWait audited.world.client state wmLow wmHigh) := rfl

@[simp] theorem world_writeHelperEx (env : Env) (message : Message) (state : State)
    (wmLow wmHigh : Nat) :
    (redsocksWriteHelperEx Extras.none env audited message state wmLow wmHigh).world =
      audited.world.withClient
        (ProxySet.redsocksWriteHelperEx env audited.world.client message state wmLow wmHigh) := by
  cases message with
  | noMaker => rfl
  | failed => exact world_drop audited
  | made data => exact world_ite (fun _ => by simp) (fun _ => rfl)

@[simp] theorem world_writeHelper (env : Env) (message : Message) (state : State) (wmOnly : Nat) :
    (redsocksWriteHelper Extras.none env audited message state wmOnly).world =
      audited.world.withClient
        (ProxySet.redsocksWriteHelper env audited.world.client message state wmOnly) :=
  world_writeHelperEx audited env message state wmOnly wmOnly

@[simp] theorem world_connectRelay (env : Env) :
    (redsocksConnectRelay env audited).world =
      audited.world.withClient (ProxySet.redsocksConnectRelay env audited.world.client) :=
  world_ite (fun _ => by simp) (fun _ => rfl)

theorem world_afterRead {comparator : Nat → Nat → Bool} {expected : Nat}
    {next : Bytes → Audited → Audited} {plainNext : Bytes → Client → Client}
    (same : ∀ reply read plainRead, read.world = audited.world.withClient plainRead →
      (next reply read).world = audited.world.withClient (plainNext reply plainRead)) :
    (match redsocksReadExpected Extras.none audited comparator expected with
      | (none, dropped) => dropped
      | (some reply, read) => next reply read).world =
    audited.world.withClient
      (match ProxySet.redsocksReadExpected audited.world.client comparator expected with
        | (none, dropped) => dropped
        | (some reply, read) => plainNext reply read) := by
  obtain ⟨sameReply, sameWorld⟩ := world_readExpected audited comparator expected
  generalize redsocksReadExpected Extras.none audited comparator expected = result
    at sameReply sameWorld
  generalize ProxySet.redsocksReadExpected audited.world.client comparator expected = plain
    at sameReply sameWorld
  obtain ⟨reply, read⟩ := result
  obtain ⟨plainReply, plainRead⟩ := plain
  dsimp only at sameReply sameWorld
  subst sameReply
  cases reply with
  | none => exact sameWorld
  | some reply => exact same reply read plainRead sameWorld

@[simp] theorem world_socks4ReadCb (env : Env) :
    (socks4ReadCb Extras.none env audited).world =
      audited.world.withClient (ProxySet.socks4ReadCb env audited.world.client) := by
  unfold socks4ReadCb ProxySet.socks4ReadCb
  generalize audited.world.client.state = state
  cases state with
  | socks4 state =>
      cases state with
      | requestSent =>
          refine world_afterRead audited.use fun reply read plainRead sameWorld => ?_
          refine world_ite (fun _ => ?_) (fun _ => world_ite (fun _ => ?_) (fun _ => ?_))
          · simp [sameWorld]
          · simp [sameWorld]
          · simp [sameWorld]
      | _ => rfl
  | _ => rfl

@[simp] theorem world_socks4WriteCb (env : Env) (config : Config) :
    (socks4WriteCb Extras.none env config audited).world =
      audited.world.withClient (ProxySet.socks4WriteCb env config audited.world.client) := by
  unfold socks4WriteCb ProxySet.socks4WriteCb
  generalize audited.world.client.state = state
  cases state with
  | socks4 state =>
      cases state with
      | new => simp
      | _ => rfl
  | _ => rfl

@[simp] theorem world_socks5WriteCb (env : Env) :
    (socks5WriteCb Extras.none env audited).world =
      audited.world.withClient (ProxySet.socks5WriteCb env audited.world.client) := by
  unfold socks5WriteCb ProxySet.socks5WriteCb
  generalize audited.world.client.state = state
  cases state with
  | socks5 state =>
      cases state with
      | new => simp
      | _ => rfl
  | _ => rfl

@[simp] theorem world_socks5ReadAuthMethods (env : Env) (config : Config) :
    (socks5ReadAuthMethods Extras.none env config audited).world =
      audited.world.withClient (ProxySet.socks5ReadAuthMethods env config audited.world.client) := by
  refine world_afterRead audited fun reply read plainRead sameWorld => ?_
  dsimp only
  rw [sameWorld, World.withClient_client]
  generalize socks5IsKnownAuthMethod (reply.getD 0 0) (reply.getD 1 0)
    plainRead.socks5.doPassword = known
  cases known with
  | some error => simp [sameWorld]
  | none =>
      refine world_ite (fun _ => ?_) (fun _ => world_ite (fun _ => ?_) (fun _ => ?_))
      · simp [sameWorld]
      · simp [sameWorld]
      · exact sameWorld

@[simp] theorem world_socks5ReadAuthReply (env : Env) :
    (socks5ReadAuthReply Extras.none env audited).world =
      audited.world.withClient (ProxySet.socks5ReadAuthReply env audited.world.client) := by
  refine world_afterRead audited fun reply read plainRead sameWorld => ?_
  refine world_ite (fun _ => ?_) (fun _ => world_ite (fun _ => ?_) (fun _ => ?_))
  · simp [sameWorld]
  · simp [sameWorld]
  · simp [sameWorld]

@[simp] theorem world_socks5ReadReply (env : Env) :
    (socks5ReadReply Extras.none env audited).world =
      audited.world.withClient (ProxySet.socks5ReadReply env audited.world.client) := by
  refine world_afterRead audited fun reply read plainRead sameWorld => ?_
  refine world_ite (fun _ => ?_) (fun _ => world_ite (fun _ => ?_) (fun _ => ?_))
  · simp [sameWorld]
  · refine world_ite (fun _ => ?_) (fun _ => world_ite (fun _ => ?_) (fun _ =>
      world_ite (fun _ => ?_) (fun _ => ?_)))
    · simp [sameWorld]
    · simp [sameWorld]
    · simp [sameWorld]
    · simp [sameWorld]
  · simp [sameWorld]

@[simp] theorem world_socks5ReadCb (env : Env) (config : Config) :
    (socks5ReadCb Extras.none env config audited).world =
      audited.world.withClient (ProxySet.socks5ReadCb env config audited.world.client) := by
  unfold socks5ReadCb ProxySet.socks5ReadCb
  generalize audited.world.client.state = state
  cases state with
  | socks5 state =>
      cases state with
      | new => exact world_drop audited.use
      | methodSent => exact world_socks5ReadAuthMethods audited.use env config
      | authSent => exact world_socks5ReadAuthReply audited.use env
      | requestSent => exact world_socks5ReadReply audited.use env
      | skipDomain =>
          refine world_afterRead audited.use fun reply read plainRead sameWorld => ?_
          simp [sameWorld]
      | skipAddress =>
          refine world_afterRead audited.use fun reply read plainRead sameWorld => ?_
          simp [sameWorld]
  | _ => exact world_drop audited.use

theorem world_ite_world {test : Prop} [Decidable test] {yes no : Audited} {plainYes plainNo : World}
    (whenYes : test → yes.world = plainYes) (whenNo : ¬test → no.world = plainNo) :
    (if test then yes else no).world = if test then plainYes else plainNo := by
  split
  next holds => exact whenYes holds
  next fails => exact whenNo fails

theorem world_authRequired (frees : FreesLine) (env : Env) (line : Nat) (retry : State) :
    (authRequired frees env audited line retry).world =
      ProxySet.authRequired env audited.world retry := by
  unfold authRequired ProxySet.authRequired
  refine world_ite_world (fun _ => by simp) (fun _ => world_ite_world (fun _ => by simp) (fun _ => ?_))
  have start : (if frees = .early then audited.onLedger (·.free line) else audited).world =
      audited.world := by
    split
    · rfl
    · rfl
  generalize (if frees = .early then audited.onLedger (·.free line) else audited) = started at start ⊢
  have plain := getAuthRequestHeader_eq started.ledger audited.world.client.relay.input
  unfold ProxySet.getAuthRequestHeader
  rw [plain]
  dsimp only
  generalize getAuthRequestHeader started.ledger audited.world.client.relay.input = found
  obtain ⟨⟨search, line, ledger⟩, rest⟩ := found
  cases search with
  | found challenge =>
      cases frees with
      | early => simp [start, World.withClient]
      | late => simp [start, World.withClient]
  | searching => simp [start]
  | absent => simp [start]

@[simp] theorem world_httpcSkipHeaders (env : Env) :
    (httpcSkipHeaders env audited).world =
      audited.world.withClient (ProxySet.httpcSkipHeaders env audited.world.client) := by
  have plain := redsocksEvbufferReadline.drain_map httpcSkipLine httpcSkipDone skipLine
    (fun reply => httpcSkipDone reply.1) Prod.fst (fun _ _ => rfl) (fun _ => rfl)
    (.replyCame, audited.ledger) audited.world.client.relay.input
  unfold httpcSkipHeaders ProxySet.httpcSkipHeaders
  generalize redsocksEvbufferReadline.drain skipLine (fun reply => httpcSkipDone reply.1)
    (.replyCame, audited.ledger) audited.world.client.relay.input = drained at plain ⊢
  obtain ⟨⟨state, ledger⟩, rest⟩ := drained
  rw [plain]
  exact world_ite (fun _ => by simp) (fun _ => rfl)

@[simp] theorem world_httprRelayPump (env : Env) :
    (httprRelayPump env audited).world =
      audited.world.withClient (ProxySet.httprRelayPump env audited.world.client) :=
  world_ite (fun _ => by simp) (fun _ => by simp)

@[simp] theorem world_httprRelayReply (env : Env) :
    (httprRelayReply env audited).world =
      audited.world.withClient (ProxySet.httprRelayReply env audited.world.client) := by
  have plain := redsocksEvbufferReadline.drain_map httprReplyLine httprReplyDone replyLine
    (fun reply => httprReplyDone reply.1) Prod.fst (fun _ _ => rfl) (fun _ => rfl)
    ((.replyCame, audited.world.client.httpr.relayBuffer), audited.ledger)
    audited.world.client.relay.input
  unfold httprRelayReply ProxySet.httprRelayReply
  generalize redsocksEvbufferReadline.drain replyLine (fun reply => httprReplyDone reply.1)
    ((.replyCame, audited.world.client.httpr.relayBuffer), audited.ledger)
    audited.world.client.relay.input = drained at plain ⊢
  obtain ⟨⟨⟨state, relayBuffer⟩, ledger⟩, rest⟩ := drained
  rw [plain]
  exact world_ite (fun _ => by simp) (fun _ => rfl)

theorem world_httpcReadCb (env : Env) :
    (httpcReadCb env audited).world = ProxySet.httpcReadCb env audited.world := by
  unfold httpcReadCb ProxySet.httpcReadCb
  dsimp only
  generalize audited.world.client.state = state
  cases state with
  | httpc state =>
      cases state with
      | requestSent =>
          dsimp only
          generalize redsocksEvbufferReadline.next audited.world.client.relay.input = next
          cases next with
          | none => exact world_ite_world (fun _ => by simp) (fun _ => rfl)
          | some pair =>
              obtain ⟨text, rest⟩ := pair
              dsimp only
              generalize sscanfHttpStatus text = status
              cases status with
              | none => rfl
              | some code =>
                  refine world_ite_world (fun _ => ?_)
                    (fun _ => world_ite_world (fun _ => ?_) (fun _ => ?_))
                  · rw [world_authRequired]
                    rfl
                  · simp
                  · simp
      | new => rfl
      | replyCame => simp
      | headersSkipped => simp
  | _ => rfl

theorem world_httpcWriteCb (env : Env) :
    (httpcWriteCb Extras.none env audited).world = ProxySet.httpcWriteCb env audited.world := by
  unfold httpcWriteCb ProxySet.httpcWriteCb
  dsimp only
  generalize audited.world.client.state = state
  cases state with
  | httpc state =>
      cases state with
      | new => exact world_ite_world (fun _ => by simp) (fun _ => by simp; rfl)
      | _ => rfl
  | _ => rfl

theorem world_httprRelayReadCb (env : Env) :
    (httprRelayReadCb env audited).world = ProxySet.httprRelayReadCb env audited.world := by
  unfold httprRelayReadCb ProxySet.httprRelayReadCb
  simp only [world_onClient, World.withClient_client]
  generalize (audited.world.client.setRelayBuffer []).state = state
  cases state with
  | httpr state =>
      cases state with
      | requestSent =>
          dsimp only
          generalize redsocksEvbufferReadline.next
            (audited.world.client.setRelayBuffer []).relay.input = next
          cases next with
          | none => exact world_ite_world (fun _ => by simp) (fun _ => rfl)
          | some pair =>
              obtain ⟨text, rest⟩ := pair
              dsimp only
              generalize sscanfHttpStatus text = status
              cases status with
              | none => rfl
              | some code =>
                  refine world_ite_world (fun _ => ?_)
                    (fun _ => world_ite_world (fun _ => ?_) (fun _ => ?_))
                  · rw [world_authRequired]
                    rfl
                  · simp
                  · simp
      | new => rfl
      | recvRequestHeaders => rfl
      | replyCame => simp
      | headersSkipped => simp
  | _ => rfl

theorem world_httprSendRequest (env : Env) (credentials : Option (Bytes × Bytes))
    (challenge : Option Bytes) :
    (httprSendRequest Extras.none env audited credentials challenge).world =
      audited.world.withClient
        (ProxySet.httprSendRequest env audited.world.client credentials challenge) :=
  world_ite (fun _ => by simp) (fun _ => world_ite (fun _ => by simp) (fun _ => rfl))

theorem world_httprRelayWriteCb (env : Env) :
    (httprRelayWriteCb Extras.none env audited).world = ProxySet.httprRelayWriteCb env audited.world := by
  unfold httprRelayWriteCb ProxySet.httprRelayWriteCb
  dsimp only
  generalize audited.world.client.state = state
  cases state with
  | httpr state =>
      cases state with
      | recvRequestHeaders =>
          refine world_ite_world (fun _ => by simp) (fun _ => ?_)
          generalize httprCredentials env audited.world.config audited.world.auth.count
            audited.world.client.httpr.firstline = made
          cases made with
          | error message => simp [World.withClient]
          | ok credentials => simp [world_httprSendRequest, World.withClient]
      | _ => rfl
  | _ => rfl

@[simp] theorem world_httprClientReadContent (env : Env) :
    (httprClientReadContent env audited).world =
      audited.world.withClient (ProxySet.httprClientReadContent env audited.world.client) := by
  unfold httprClientReadContent ProxySet.httprClientReadContent
  refine world_ite (fun _ => by simp) (fun _ => world_ite (fun _ => by simp) (fun _ => ?_))
  exact world_ite (fun _ => rfl) (fun _ => world_ite (fun _ => by simp) (fun _ => rfl))

@[simp] theorem world_httprClientReadCb (env : Env) :
    (httprClientReadCb env audited).world =
      audited.world.withClient (ProxySet.httprClientReadCb env audited.world.client) := by
  have plain := redsocksEvbufferReadline.drain_map (HttprRead.line env audited.world.client.destaddr)
    HttprRead.isDone (clientLine env audited.world.client.destaddr) (fun state => state.1.isDone)
    Prod.fst (fun _ _ => rfl) (fun _ => rfl)
    ({ httpr := audited.world.client.httpr, connectRelay := false, doDrop := false, logs := [] },
      audited.ledger.use) audited.world.client.client.input
  unfold httprClientReadCb ProxySet.httprClientReadCb
  dsimp only
  generalize audited.world.client.state = state
  cases state with
  | httpr state =>
      cases state with
      | new =>
          dsimp only
          generalize redsocksEvbufferReadline.drain (clientLine env audited.world.client.destaddr)
            (fun state => state.1.isDone)
            ({ httpr := audited.world.client.httpr, connectRelay := false, doDrop := false, logs := [] },
              audited.ledger.use) audited.world.client.client.input = drained at plain ⊢
          obtain ⟨⟨read, ledger⟩, rest⟩ := drained
          rw [plain]
          exact world_ite (fun _ => by simp) (fun _ => world_ite (fun _ => by simp) (fun _ => rfl))
      | _ => simp
  | _ => rfl

end Operations

section Events

variable (audited : Audited) (env : Env)

theorem world_relaySsReadcb :
    (relaySsReadcb Extras.none env audited).world = ProxySet.relaySsReadcb env audited.world := by
  unfold relaySsReadcb ProxySet.relaySsReadcb
  generalize audited.world.client.subsys = subsys
  cases subsys with
  | httpConnect => exact world_httpcReadCb audited env
  | httpRelay => exact world_httprRelayReadCb audited env
  | socks4 => exact world_socks4ReadCb audited env
  | socks5 => exact world_socks5ReadCb audited env audited.world.config

theorem world_relaySsWritecb :
    (relaySsWritecb Extras.none env audited).world = ProxySet.relaySsWritecb env audited.world := by
  unfold relaySsWritecb ProxySet.relaySsWritecb
  generalize audited.world.client.subsys = subsys
  cases subsys with
  | httpConnect => exact world_httpcWriteCb audited env
  | httpRelay => exact world_httprRelayWriteCb audited env
  | socks4 => exact world_socks4WriteCb audited env audited.world.config
  | socks5 => exact world_socks5WriteCb audited env

theorem world_relayConnected :
    (redsocksRelayConnected Extras.none env audited).world =
      ProxySet.redsocksRelayConnected env audited.world :=
  world_ite_world (fun _ => by simp) (fun _ => by rw [world_relaySsWritecb]; rfl)

theorem world_runReadcb (side : Side) :
    (runReadcb Extras.none env audited side).world = ProxySet.runReadcb env audited.world side := by
  unfold runReadcb ProxySet.runReadcb
  generalize (audited.world.client.buf side).readcb = installed
  cases installed with
  | none => rfl
  | subsys => exact world_relaySsReadcb audited env
  | httprClient => exact world_httprClientReadCb audited env
  | pump => rfl

theorem world_runWritecb (side : Side) :
    (runWritecb Extras.none env audited side).world = ProxySet.runWritecb env audited.world side := by
  unfold runWritecb ProxySet.runWritecb
  generalize (audited.world.client.buf side).writecb = installed
  cases installed with
  | none => rfl
  | connected => exact world_relayConnected audited env
  | subsys => exact world_relaySsWritecb audited env
  | pump => exact world_relayWritecb audited side.other side

end Events

/-- One callback with the ledger is the callback without it. -/
theorem world_auditStep (audited : Audited) (event : Event) :
    (auditStep audited (.event Extras.none event)).map Audited.world = step audited.world event := by
  unfold auditStep step
  dsimp only
  split
  · rfl
  · cases event with
    | readData side chunk env =>
        dsimp only
        split
        · split
          · have ran : (runReadcb Extras.none env (audited.onBuffer (·.setBuf side
                ((audited.world.client.buf side).receive chunk))) side).world =
                ProxySet.runReadcb env (audited.world.withClient (audited.world.client.setBuf side
                  ((audited.world.client.buf side).receive chunk))) side :=
              world_runReadcb _ env side
            rw [← ran]
            split
            · rfl
            · rfl
          · rfl
        · rfl
    | writeReady side count env =>
        dsimp only
        split
        · split
          · exact congrArg some (world_runWritecb _ env side)
          · rfl
        · rfl
    | report side what =>
        dsimp only
        split
        · exact congrArg some (world_eventError _ side what)
        · rfl
    | others auth => rfl

theorem world_accept (env : Env) (config : Config) (auth : HttpAuth) (subsys : Subsys)
    (address : SockaddrIn) :
    (redsocksAcceptClient env config auth subsys address).world =
      acceptedWorld env config auth subsys address := by
  unfold redsocksAcceptClient acceptedWorld ProxySet.redsocksAcceptClient
  dsimp only
  split
  · simp [newAudited, World.withClient]
  · cases subsys with
    | httpRelay =>
        unfold httprConnectRelay ProxySet.httprConnectRelay
        dsimp only
        split
        · simp [newAudited, World.withClient]
        · simp [newAudited, World.withClient]
    | _ => simp [newAudited, World.withClient]

/-- A run of the client with its ledger is a run of the client. -/
theorem world_auditRun (events : List Event) (audited : Audited) :
    (StepRun.run auditStep (events.map (.event Extras.none)) audited).map Audited.world =
      StepRun.run step events audited.world := by
  induction events generalizing audited with
  | nil => rfl
  | cons event events ih =>
      have first := world_auditStep audited event
      rw [List.map_cons, StepRun.run_cons, StepRun.run_cons, ← first]
      cases taken : auditStep audited (.event Extras.none event) with
      | none => rfl
      | some next => exact ih next

end ProxySet.Audit
