import ProxySet.Redsocks.Handshake
import ProxySet.Redsocks.HttpAnswer
import ProxySet.Redsocks.InstanceCore

/-!
What one callback of an HTTP client can do to the `http_auth` of its instance and
to the record of its own requests, refusals and reconnects.
-/

namespace ProxySet

open TokenReader

def Call.ofAuth : Call → Bool
  | .request _ _ | .closeRelay => true
  | .log .proxyAuthFailed | .log .noLogin | .log .noChallenge => true
  | _ => false

def Client.authTrace (client : Client) : List Call :=
  client.trace.filter Call.ofAuth

def State.pastRequest : State → Bool
  | .httpr .new => false
  | .httpr _ => true
  | _ => false

def Client.lined (client : Client) : Prop :=
  client.dropped = false → client.state.pastRequest = true → client.httpr.firstline.isSome = true

/-- The request has been sent, and nothing of its answer has been taken. -/
def State.asked : State → Bool
  | .httpc .requestSent | .httpr .requestSent => true
  | _ => false

def Client.asked (client : Client) : Bool :=
  !client.dropped && client.state.asked

/-- The step adds these calls to the record; who has sent a request then has done so before, or the
request is one of the calls. -/
structure Adds (entries : List Call) (client next : Client) : Prop where
  subsys : next.subsys = client.subsys
  lined : client.lined → next.lined
  calls : next.authTrace = entries ++ client.authTrace
  asked : next.asked = true → client.asked = true ∨ ∃ entry ∈ entries, entry.asked.isSome = true

/-- The text behind the status line, if that is the line to be read and a 407. -/
def Client.reads407 (client : Client) : Option Bytes :=
  if client.firstLineDue then
    match redsocksEvbufferReadline.next client.relay.input with
    | some (line, rest) => if sscanfHttpStatus line = some 407 then some rest else none
    | none => none
  else none

def Client.denied (client : Client) : Event → Option Bytes
  | .readData side chunk _ =>
      if (client.buf side).readcb = .subsys ∧
          (client.buf side).wmRead.low ≤ ((client.buf side).receive chunk).input.length then
        (client.setBuf side ((client.buf side).receive chunk)).reads407
      else none
  | _ => none

def answerable (config : Config) (query : Bytes) : Bool :=
  if isBasic query then (basicCredentials config).isSome
  else isDigest query && (digestCredentials Env.ok config query 1 [] []).isSome

/-- The credentials answer the stored challenge; a Digest answer is made with the current count. -/
def MadeFor (config : Config) (auth : HttpAuth) (credentials : Option Bytes) : Prop :=
  ∀ text, credentials = some text → ∃ query, auth.lastAuthQuery = some query ∧
    (isBasic query = true ∧ basicCredentials config = some (ascii "Basic", text) ∨
      isDigest query = true ∧ ∃ env method uri,
        digestCredentials env config query auth.lastAuthCount method uri =
          some (ascii "Digest", text))

/-- What becomes of a client that reads a 407. -/
inductive Denial (world : World) (behind : Bytes) (next : World) : Prop where
  | refused : world.auth.lastAuthQuery.isSome = true → world.auth.lastAuthCount = 1 →
      next.auth = world.auth → Adds [.log .proxyAuthFailed] world.client next.client →
      next.client.dropped = true → Denial world behind next
  | gone (message : LogMsg) : message = .noLogin ∨ message = .noChallenge →
      ¬(retries world.config world.auth = true ∧ (getAuthRequestHeader behind).1.isSome = true) →
      next.auth = world.auth → Adds [.log message] world.client next.client →
      next.client.dropped = true → Denial world behind next
  | retried (line : Bytes) : retries world.config world.auth = true →
      (getAuthRequestHeader behind).1 = some line →
      next.auth = { lastAuthQuery := some (challengeOf line), lastAuthCount := 0 } →
      Adds [.closeRelay] world.client next.client → next.client.asked = false →
      Denial world behind next

/-- What a callback does to the record and to the shared `http_auth`. -/
inductive AuthStep (world : World) (denied : Option Bytes) (next : World) : Prop where
  | quiet : denied = none → next.auth = world.auth → Adds [] world.client next.client →
      AuthStep world denied next
  | gaveUp : denied = none → next.auth = world.auth.count → Adds [] world.client next.client →
      next.client.dropped = true → AuthStep world denied next
  | asked (credentials : Option Bytes) : denied = none → next.auth = world.auth.count →
      Adds [.request credentials world.auth.lastAuthQuery] world.client next.client →
      (∀ query, world.auth.lastAuthQuery = some query → answerable world.config query = true →
        world.client.lined → credentials.isSome = true) →
      MadeFor world.config world.auth.count credentials → AuthStep world denied next
  | heard (behind : Bytes) : denied = some behind → Denial world behind next →
      AuthStep world denied next

section Record

variable {client middle next : Client} {first second : List Call}

theorem asked_of_dropped (dropped : client.dropped = true) : client.asked = false := by
  simp [Client.asked, dropped]

theorem asked_of_state (state : client.state.asked = false) : client.asked = false := by
  simp [Client.asked, state]

theorem Adds.refl (client : Client) : Adds [] client client :=
  ⟨rfl, id, rfl, Or.inl⟩

theorem Adds.trans (before : Adds first client middle) (after : Adds second middle next) :
    Adds (second ++ first) client next := by
  refine ⟨after.subsys.trans before.subsys, after.lined ∘ before.lined, ?_, fun asked => ?_⟩
  · rw [after.calls, before.calls, List.append_assoc]
  · rcases after.asked asked with earlier | ⟨entry, member, request⟩
    · refine (before.asked earlier).imp_right ?_
      rintro ⟨entry, member, request⟩
      exact ⟨entry, List.mem_append_right _ member, request⟩
    · exact .inr ⟨entry, List.mem_append_left _ member, request⟩

theorem Adds.after (before : Adds [] client middle) (after : Adds second middle next) :
    Adds second client next := by
  simpa using before.trans after

theorem Adds.then (before : Adds first client middle) (after : Adds [] middle next) :
    Adds first client next := by
  simpa using before.trans after

theorem Adds.same (subsys : next.subsys = client.subsys) (dropped : next.dropped = client.dropped)
    (state : next.state = client.state) (firstline : next.httpr.firstline = client.httpr.firstline)
    (calls : next.authTrace = client.authTrace) : Adds [] client next :=
  ⟨subsys, by simp [Client.lined, dropped, state, firstline], by simpa using calls,
    fun asked => .inl (by simpa [Client.asked, dropped, state] using asked)⟩

theorem adds_call (client : Client) (entry : Call) (other : entry.ofAuth = false) :
    Adds [] client (client.call entry) :=
  .same rfl rfl rfl rfl (by simp [Client.authTrace, other])

theorem adds_setBuf (client : Client) (side : Side) (buffer : Bufferevent) :
    Adds [] client (client.setBuf side buffer) :=
  .same rfl rfl rfl rfl rfl

theorem adds_setInput (client : Client) (side : Side) (input : Bytes) :
    Adds [] client (client.setInput side input) :=
  .same rfl rfl rfl rfl rfl

theorem adds_disable (client : Client) (side : Side) (events : EvBits) :
    Adds [] client (client.disable side events) :=
  .same rfl rfl rfl rfl rfl

theorem adds_enable (client : Client) (side : Side) (events : EvBits) :
    Adds [] client (client.enable side events) :=
  (adds_call client _ rfl).after (adds_setBuf _ _ _)

theorem adds_wait (client : Client) :
    Adds [] client ((client.modify .relay
      (·.setwatermark EvBits.evRead 1 httpHeadWmHigh)).enable .relay EvBits.evRead) :=
  (adds_setBuf _ _ _).after (adds_enable _ _ _)

theorem adds_drop (client : Client) : Adds [] client (redsocksDropClient client) :=
  ⟨by simp, fun _ live => by simp at live, by simp [Client.authTrace, Call.ofAuth],
    fun asked => by simp [asked_of_dropped] at asked⟩

theorem adds_dropLog (client : Client) (message : LogMsg) (other : (Call.log message).ofAuth = false) :
    Adds [] client (redsocksDropClient (client.log message)) :=
  (adds_call client _ other).after (adds_drop _)

theorem adds_refusal (client : Client) (message : LogMsg) (noted : (Call.log message).ofAuth = true) :
    Adds [.log message] client (redsocksDropClient (client.log message)) := by
  have logged : Adds [.log message] client (client.log message) :=
    ⟨rfl, id, List.filter_cons_of_pos noted, Or.inl⟩
  exact logged.then (adds_drop _)

theorem adds_startRelay (env : Env) (client : Client) :
    Adds [] client (redsocksStartRelay env client) := by
  refine ⟨?_, ?_, ?_, ?_⟩
  · simp only [redsocksStartRelay]
    split
    · simp
    · split <;> simp
  · intro _ _ past
    simp [state_startRelay env client, State.pastRequest] at past
  · simp only [redsocksStartRelay]
    split
    · simp [Client.authTrace, Call.ofAuth]
    · split <;> simp [Client.authTrace, Call.ofAuth]
  · intro asked
    simp [asked_of_state (congrArg State.asked (state_startRelay env client))] at asked

theorem adds_connectRelay (env : Env) (client : Client) :
    Adds [] client (redsocksConnectRelay env client) := by
  unfold redsocksConnectRelay
  split
  · exact ⟨by simp, fun _ live => by simp at live, by simp [Client.authTrace, Call.ofAuth],
      fun asked => by simp [asked_of_dropped] at asked⟩
  · exact .same rfl rfl rfl rfl (by simp [Client.authTrace, Call.ofAuth])

theorem adds_shutdown (client : Client) (side : Side) (how : How) :
    Adds [] client (redsocksShutdown client side how) := by
  have called : Adds [] client (client.callShutdown side how) := by
    refine .same rfl rfl rfl rfl ?_
    simp only [Client.authTrace, Client.callShutdown_trace]
    split
    · rfl
    · simp [Call.ofAuth]
  have closed : Adds [] client (((client.callShutdown side how).disable side how.events).setEvshut
      side (((client.callShutdown side how).evshut side).union how.events)) :=
    called.after (.same rfl rfl rfl rfl rfl)
  simp only [redsocksShutdown]
  split
  · exact closed.after (adds_dropLog _ _ rfl)
  · exact closed

theorem adds_eventError (client : Client) (side : Side) (what : What) :
    Adds [] client (redsocksEventError client side what) := by
  simp only [redsocksEventError]
  split
  · split
    · exact (adds_shutdown _ _ _).after (adds_shutdown _ _ _)
    · exact adds_shutdown _ _ _
  · exact adds_dropLog _ _ rfl

theorem adds_writeBuffer (client : Client) (source target : Side) :
    Adds [] client (client.writeBuffer source target) :=
  (adds_setBuf _ _ _).after (adds_setBuf _ _ _)

theorem adds_relayReadcb (client : Client) (source target : Side) :
    Adds [] client (redsocksRelayReadcb client source target) := by
  unfold redsocksRelayReadcb
  split
  · exact adds_writeBuffer _ _ _
  · split
    · exact adds_setBuf _ _ _
    · exact .refl client

theorem adds_relayWritecb (client : Client) (source target : Side) :
    Adds [] client (redsocksRelayWritecb client source target) := by
  have entered := adds_call client (.relayWritecb target) rfl
  simp only [redsocksRelayWritecb]
  split
  · exact entered.after (adds_shutdown _ _ _)
  · split
    · have moved := entered.after (adds_writeBuffer _ source target)
      split
      · exact moved.after (adds_enable _ _ _)
      · exact moved
    · exact entered

theorem Adds.leave (subsys : next.subsys = client.subsys) (state : next.state.pastRequest = false)
    (unasked : next.state.asked = false) (calls : next.authTrace = client.authTrace) :
    Adds [] client next :=
  ⟨subsys, fun _ _ past => by simp [state] at past, by simpa using calls,
    fun asked => by simp [asked_of_state unasked] at asked⟩

theorem Adds.goOn {entries : List Call} (subsys : next.subsys = client.subsys)
    (dropped : next.dropped = client.dropped)
    (state : next.state.pastRequest = true → client.state.pastRequest = true)
    (firstline : next.httpr.firstline = client.httpr.firstline)
    (calls : next.authTrace = entries ++ client.authTrace)
    (asked : next.state.asked = true → ∃ entry ∈ entries, entry.asked.isSome = true) :
    Adds entries client next := by
  refine ⟨subsys, ?_, calls, fun waits => .inr (asked (Bool.and_eq_true_iff.mp waits).2)⟩
  intro lined live past
  rw [firstline]
  exact lined (dropped ▸ live) (state past)

theorem adds_writeHelper (env : Env) {entries : List Call} {start : Client} (message : Message)
    (state : State) (wmLow wmHigh : Nat) (early : state.pastRequest = false)
    (noted : Adds entries start client) (request : ∃ entry ∈ entries, entry.asked.isSome = true) :
    Adds entries start (redsocksWriteHelperEx env client message state wmLow wmHigh) := by
  have waits {sent : Client} (noted : Adds entries start sent) :
      Adds entries start (redsocksWriteHelperWait sent state wmLow wmHigh) := by
    refine ⟨noted.subsys, fun _ _ past => ?_, ?_, fun _ => .inr request⟩
    · rw [show (redsocksWriteHelperWait sent state wmLow wmHigh).state = state from rfl, early] at past
      cases past
    · rw [← noted.calls]
      simp [redsocksWriteHelperWait, Client.authTrace, Call.ofAuth]
  cases message with
  | noMaker => exact waits noted
  | failed => exact noted.then (adds_drop client)
  | made data =>
      simp only [redsocksWriteHelperEx]
      split
      · exact noted.then (adds_dropLog client _ rfl)
      · exact waits (noted.then (adds_setBuf _ _ _))

theorem denial_authRequired (env : Env) (world : World) (retry : State)
    (again : retry.pastRequest = true → world.client.state.pastRequest = true)
    (unasked : retry.asked = false) :
    Denial world world.client.relay.input (authRequired env world retry) := by
  unfold authRequired
  dsimp only
  split
  · next failed => exact .refused failed.1 failed.2 (World.withClient_auth _ _) (adds_refusal _ _ rfl) rfl
  · next unfailed =>
    have open' : (world.auth.lastAuthQuery.isSome && world.auth.lastAuthCount == 1) = false := by
      rw [Bool.eq_false_iff]
      simpa using unfailed
    split
    · next missing =>
      refine .gone .noLogin (Or.inl rfl) ?_ (World.withClient_auth _ _) (adds_refusal _ _ rfl) rfl
      rintro ⟨able, -⟩
      rcases missing with missing | missing <;>
        simp [retries, Option.isNone_iff_eq_none.mp missing] at able
    · next complete =>
      rw [not_or, Bool.not_eq_true, Bool.not_eq_true, Option.isNone_eq_false_iff,
        Option.isNone_eq_false_iff] at complete
      split
      · next rest looked =>
        refine .gone .noChallenge (Or.inr rfl) (by simp [looked]) (World.withClient_auth _ _) ?_ rfl
        exact (adds_setInput _ _ _).after (adds_refusal _ _ rfl)
      · next line rest looked =>
        have closed : Adds [.closeRelay] world.client
            { ((world.client.setInput .relay rest).disable .relay EvBits.evWrite).call .closeRelay with
              state := retry } :=
          .goOn rfl rfl again rfl (List.filter_cons_of_pos rfl)
            fun asked => absurd (unasked.symm.trans asked) Bool.false_ne_true
        refine .retried line (by simp [retries, open', complete]) (by rw [looked]) rfl
          (closed.then (adds_connectRelay env _)) ?_
        · unfold redsocksConnectRelay
          dsimp only
          split
          · exact asked_of_dropped rfl
          · exact asked_of_state unasked

end Record

section Callbacks

variable {world next : World} {denied : Option Bytes}

theorem AuthStep.of_adds {client : Client} (added : Adds [] world.client client)
    (none : denied = none) : AuthStep world denied (world.withClient client) :=
  .quiet none (World.withClient_auth _ _) added

theorem AuthStep.after {client : Client} (added : Adds [] world.client client)
    (taken : AuthStep (world.withClient client) denied next) : AuthStep world denied next := by
  cases taken with
  | quiet none auth later => exact .quiet none auth (added.after later)
  | gaveUp none auth later dropped => exact .gaveUp none auth (added.after later) dropped
  | asked credentials none auth later answers made =>
      exact .asked credentials none auth (added.after later)
        (fun query stored able lined => answers query stored able (added.lined lined)) made
  | heard behind found denial =>
      refine .heard behind found ?_
      cases denial with
      | refused stored once auth later dropped =>
          exact .refused stored once auth (added.after later) dropped
      | gone message either final auth later dropped =>
          exact .gone message either final auth (added.after later) dropped
      | retried line able found auth later unasked =>
          exact .retried line able found auth (added.after later) unasked

theorem reads407_of_due {client : Client} (due : client.firstLineDue = true) :
    client.reads407 = match redsocksEvbufferReadline.next client.relay.input with
      | some (line, rest) => if sscanfHttpStatus line = some 407 then some rest else none
      | none => none := by
  simp [Client.reads407, due]

theorem reads407_of_not_due {client : Client} (other : client.firstLineDue = false) :
    client.reads407 = none := by
  simp [Client.reads407, other]

theorem adds_httpcSkipHeaders (env : Env) (client : Client) :
    Adds [] client (httpcSkipHeaders env client) := by
  simp only [httpcSkipHeaders]
  have past : (State.httpc (redsocksEvbufferReadline.drain httpcSkipLine httpcSkipDone .replyCame
      client.relay.input).1).asked = false := by
    rcases httpcSkip_state client.relay.input with came | skipped
    · rw [came]
      rfl
    · rw [skipped]
      rfl
  have read (rest : Bytes) : Adds [] client { client.setInput .relay rest with
      state := .httpc (redsocksEvbufferReadline.drain httpcSkipLine httpcSkipDone .replyCame
        client.relay.input).1 } :=
    .leave rfl rfl past rfl
  split
  · exact (read _).after (adds_startRelay env _)
  · exact read _

theorem authStep_httpcReadCb (env : Env) (subsys : world.client.subsys = .httpConnect) :
    AuthStep world world.client.reads407 (httpcReadCb env world) := by
  simp only [httpcReadCb]
  split
  · next state =>
    rw [reads407_of_due (by simp [Client.firstLineDue, subsys, state])]
    cases found : redsocksEvbufferReadline.next world.client.relay.input with
    | none =>
        dsimp only
        split
        · exact .of_adds (adds_drop _) rfl
        · exact .quiet rfl rfl (.refl _)
    | some pair =>
        obtain ⟨line, rest⟩ := pair
        dsimp only
        have taken : Adds [] world.client (world.client.setInput .relay rest) :=
          adds_setInput _ _ _
        cases status : sscanfHttpStatus line with
        | none => exact .of_adds taken (by simp)
        | some code =>
            dsimp only
            by_cases refusal : code = 407
            · rw [if_pos refusal]
              refine .after taken (.heard rest (by simp [refusal]) ?_)
              exact denial_authRequired env (world.withClient (world.client.setInput .relay rest))
                (.httpc .new) (by simp [State.pastRequest]) rfl
            · rw [if_neg refusal, if_neg (by simpa using refusal)]
              split
              · have came : Adds [] world.client
                    { world.client.setInput .relay rest with state := .httpc .replyCame } :=
                  .leave rfl rfl rfl rfl
                exact .of_adds (came.after (adds_httpcSkipHeaders env _)) rfl
              · exact .of_adds (taken.after (adds_dropLog _ (.unexpectedReply line) rfl)) rfl
  · next state =>
    rw [reads407_of_not_due (by simp [Client.firstLineDue, subsys, state])]
    exact .of_adds (adds_httpcSkipHeaders env _) rfl
  · next state =>
    rw [reads407_of_not_due (by simp [Client.firstLineDue, subsys, state])]
    exact .of_adds (adds_startRelay env _) rfl
  · next sent _ _ =>
    have other : world.client.firstLineDue = false := by
      rw [Bool.eq_false_iff, ne_eq, firstLineDue_iff]
      rintro (⟨-, state⟩ | ⟨relay, -⟩)
      · exact sent state
      · simp [subsys] at relay
    rw [reads407_of_not_due other]
    exact .of_adds (adds_call _ _ rfl) rfl

theorem adds_httprRelayPump (env : Env) (client : Client) :
    Adds [] client (httprRelayPump env client) := by
  unfold httprRelayPump
  split
  · exact adds_dropLog _ _ rfl
  · exact (adds_setBuf _ _ _).after (adds_startRelay env _)

theorem adds_httprRelayReply (env : Env) (client : Client) (past : client.state.pastRequest = true) :
    Adds [] client (httprRelayReply env client) := by
  have answered : (State.httpr (redsocksEvbufferReadline.drain httprReplyLine httprReplyDone
      (.replyCame, client.httpr.relayBuffer) client.relay.input).1.1).asked = false := by
    rcases httprReply_state client.httpr.relayBuffer client.relay.input with came | skipped
    · rw [came]
      rfl
    · rw [skipped]
      rfl
  have read (relayBuffer rest : Bytes) : Adds [] client
      { (client.setInput .relay rest).setRelayBuffer relayBuffer with
        state := .httpr (redsocksEvbufferReadline.drain httprReplyLine httprReplyDone
          (.replyCame, client.httpr.relayBuffer) client.relay.input).1.1 } :=
    .goOn rfl rfl (fun _ => past) rfl rfl
      fun asked => absurd (answered.symm.trans asked) Bool.false_ne_true
  simp only [httprRelayReply]
  split
  · exact (read _ _).after (adds_httprRelayPump env _)
  · exact read _ _

theorem authStep_httprRelayReadCb (env : Env) (subsys : world.client.subsys = .httpRelay) :
    AuthStep world world.client.reads407 (httprRelayReadCb env world) := by
  have anew : Adds [] world.client (world.client.setRelayBuffer []) := .same rfl rfl rfl rfl rfl
  have state : (world.client.setRelayBuffer []).state = world.client.state := rfl
  have input : (world.client.setRelayBuffer []).relay.input = world.client.relay.input := rfl
  simp only [httprRelayReadCb, state, input]
  split
  · next sent =>
    rw [reads407_of_due (by simp [Client.firstLineDue, subsys, sent])]
    have past : world.client.state.pastRequest = true := by simp [sent, State.pastRequest]
    cases found : redsocksEvbufferReadline.next world.client.relay.input with
    | none =>
        dsimp only
        split
        · exact .of_adds (anew.after (adds_drop _)) rfl
        · exact .of_adds anew rfl
    | some pair =>
        obtain ⟨line, rest⟩ := pair
        dsimp only
        have taken : Adds [] world.client (((world.client.setRelayBuffer []).setInput .relay
            rest).setRelayBuffer (httprAddLine [] line)) :=
          .same rfl rfl rfl rfl rfl
        cases status : sscanfHttpStatus line with
        | none => exact .of_adds taken (by simp)
        | some code =>
            dsimp only
            by_cases refusal : code = 407
            · rw [if_pos refusal]
              refine .after taken (.heard rest (by simp [refusal]) ?_)
              exact denial_authRequired env (world.withClient (((world.client.setRelayBuffer []).setInput
                .relay rest).setRelayBuffer (httprAddLine [] line))) (.httpr .recvRequestHeaders)
                (fun _ => past) rfl
            · rw [if_neg refusal, if_neg (by simpa using refusal)]
              split
              · have came : Adds [] world.client
                    { ((world.client.setRelayBuffer []).setInput .relay rest).setRelayBuffer
                        (httprAddLine [] line) with state := .httpr .replyCame } :=
                  .goOn rfl rfl (fun _ => past) rfl rfl
                    fun asked => absurd asked Bool.false_ne_true
                exact .of_adds (came.after (adds_httprRelayReply env _ rfl)) rfl
              · exact .of_adds (taken.after (adds_dropLog _ (.unexpectedReply line) rfl)) rfl
  · next came =>
    rw [reads407_of_not_due (by simp [Client.firstLineDue, subsys, came])]
    have past : world.client.state.pastRequest = true := by simp [came, State.pastRequest]
    exact .of_adds (anew.after (adds_httprRelayReply env _ past)) rfl
  · next skipped =>
    rw [reads407_of_not_due (by simp [Client.firstLineDue, subsys, skipped])]
    exact .of_adds (anew.after (adds_httprRelayPump env _)) rfl
  · next sent _ _ =>
    have other : world.client.firstLineDue = false := by
      rw [Bool.eq_false_iff, ne_eq, firstLineDue_iff]
      rintro (⟨connect, -⟩ | ⟨-, state⟩)
      · simp [subsys] at connect
      · exact sent state
    rw [reads407_of_not_due other]
    exact .of_adds (anew.after (adds_call _ _ rfl)) rfl

end Callbacks

section Requests

variable {env : Env} {config : Config} {auth : HttpAuth} {query : Bytes}

theorem digestCredentials_isSome (env other : Env) (config : Config) (query : Bytes)
    (count again : Nat) (method uri first second : Bytes) :
    (digestCredentials env config query count method uri).isSome =
      (digestCredentials other config query again first second).isSome := by
  unfold digestCredentials
  split
  · simp only [Option.isSome_map]
    unfold digestAuthenticationEncode
    dsimp only
    split
    · split <;> simp only [Option.isSome_some, Option.isSome_none]
    · rfl
  · rfl

theorem httpcCredentials_isSome (stored : auth.lastAuthQuery = some query)
    (able : answerable config query = true) (address : SockaddrIn) :
    (httpcCredentials env config auth address).isSome = true := by
  unfold answerable at able
  simp only [httpcCredentials, stored]
  split at able
  · next basic => simpa [basic] using able
  · next digest =>
    rw [Bool.and_eq_true] at able
    rw [if_neg digest, if_pos able.1,
      digestCredentials_isSome env Env.ok config query _ 1 _ _ [] []]
    exact able.2

theorem httprCredentials_isSome {line : Bytes} {credentials : Option (Bytes × Bytes)}
    (stored : auth.lastAuthQuery = some query) (able : answerable config query = true)
    (made : httprCredentials env config auth (some line) = .ok credentials) :
    credentials.isSome = true := by
  unfold answerable at able
  simp only [httprCredentials, stored] at made
  split at able
  · next basic =>
    rw [if_pos basic] at made
    rwa [← Except.ok.inj made]
  · next digest =>
    rw [Bool.and_eq_true] at able
    rw [if_neg digest, able.1] at made
    dsimp only at made
    split at made
    · simp at made
    · rw [← Except.ok.inj made, digestCredentials_isSome env Env.ok config query _ 1 _ _ [] []]
      exact able.2

theorem httprCredentials_error {firstline : Option Bytes} {message : LogMsg}
    (failed : httprCredentials env config auth firstline = .error message) :
    message = .malformedRequest := by
  unfold httprCredentials at failed
  split at failed
  · simp at failed
  · split at failed
    · simp at failed
    · split at failed
      · split at failed
        · exact (Except.error.inj failed).symm
        · simp at failed
      · simp at failed

variable {world next : World}

theorem digestCredentials_scheme {count : Nat} {method uri scheme text : Bytes}
    (made : digestCredentials env config query count method uri = some (scheme, text)) :
    digestCredentials env config query count method uri = some (ascii "Digest", text) := by
  unfold digestCredentials at made ⊢
  split at made
  · obtain ⟨other, encoded, same⟩ := Option.map_eq_some_iff.mp made
    rw [encoded, ← (Prod.mk.inj same).2]
    rfl
  · simp at made

theorem basicCredentials_scheme {scheme text : Bytes}
    (made : basicCredentials config = some (scheme, text)) :
    basicCredentials config = some (ascii "Basic", text) := by
  unfold basicCredentials at made ⊢
  split at made
  · obtain ⟨other, encoded, same⟩ := Option.map_eq_some_iff.mp made
    rw [encoded, ← (Prod.mk.inj same).2]
    rfl
  · simp at made

theorem httpcCredentials_made (env : Env) (config : Config) (auth : HttpAuth) (address : SockaddrIn) :
    MadeFor config auth ((httpcCredentials env config auth address).map Prod.snd) := by
  intro text sent
  obtain ⟨⟨scheme, other⟩, made, rfl⟩ := Option.map_eq_some_iff.mp sent
  unfold httpcCredentials at made
  split at made
  · simp at made
  · next query stored =>
    refine ⟨query, stored, ?_⟩
    split at made
    · next basic => exact Or.inl ⟨basic, basicCredentials_scheme made⟩
    · split at made
      · next digest => exact Or.inr ⟨digest, env, _, _, digestCredentials_scheme made⟩
      · simp at made

theorem httprCredentials_made {firstline : Option Bytes} {credentials : Option (Bytes × Bytes)}
    (made : httprCredentials env config auth firstline = .ok credentials) :
    MadeFor config auth (credentials.map Prod.snd) := by
  intro text sent
  obtain ⟨⟨scheme, other⟩, rfl, rfl⟩ := Option.map_eq_some_iff.mp sent
  unfold httprCredentials at made
  split at made
  · simp at made
  · next query stored =>
    refine ⟨query, stored, ?_⟩
    split at made
    · next basic => exact Or.inl ⟨basic, basicCredentials_scheme (Except.ok.inj made)⟩
    · split at made
      · next digest =>
        split at made
        · simp at made
        · exact Or.inr ⟨digest, env, _, _, digestCredentials_scheme (Except.ok.inj made)⟩
      · simp at made

theorem MadeFor.encoded {text : Bytes} (made : MadeFor config auth (some text))
    (stored : auth.lastAuthQuery = some query) : ∃ scheme, Encoded config query scheme text := by
  obtain ⟨other, same, answers⟩ := made text rfl
  obtain rfl := Option.some.inj (stored.symm.trans same)
  rcases answers with ⟨basic, encoded⟩ | ⟨digest, env, method, uri, encoded⟩
  · exact ⟨_, Or.inl ⟨basic, encoded⟩⟩
  · exact ⟨_, Or.inr ⟨digest, env, _, method, uri, encoded⟩⟩

theorem authStep_askedConnect (env : Env) (world : World) (credentials : Option Bytes)
    (message : Message)
    (answers : ∀ query, world.auth.lastAuthQuery = some query → answerable world.config query = true →
      credentials.isSome = true) (made : MadeFor world.config world.auth.count credentials) :
    AuthStep world none { world with
      auth := world.auth.count
      client := redsocksWriteHelperEx env
        (world.client.call (.request credentials world.auth.lastAuthQuery)) message
        (.httpc .requestSent) 1 httpHeadWmHigh } := by
  have asked : Adds [.request credentials world.auth.lastAuthQuery] world.client
      (world.client.call (.request credentials world.auth.lastAuthQuery)) :=
    .goOn rfl rfl id rfl (List.filter_cons_of_pos rfl)
      fun _ => ⟨_, List.mem_singleton_self _, rfl⟩
  exact .asked credentials rfl rfl
    (adds_writeHelper env message _ _ _ rfl asked ⟨_, List.mem_singleton_self _, rfl⟩)
    (fun query stored able _ => answers query stored able) made

theorem authStep_httpcWriteCb (env : Env) (world : World) :
    AuthStep world none (httpcWriteCb env world) := by
  simp only [httpcWriteCb]
  split
  · split
    · exact .of_adds (adds_drop _) rfl
    · refine authStep_askedConnect env world _ _ (fun query stored able => ?_)
        (httpcCredentials_made env world.config world.auth.count world.client.destaddr)
      have again : world.auth.count.lastAuthQuery = some query := stored
      rw [Option.isSome_map]
      exact httpcCredentials_isSome again able world.client.destaddr
  · exact .of_adds (adds_disable _ _ _) rfl
  · exact .quiet rfl rfl (.refl _)

theorem authStep_httprSendRequest (env : Env) {client : Client} (credentials : Option (Bytes × Bytes))
    (added : Adds [] world.client client) (past : client.state.pastRequest = true)
    (answers : ∀ query, world.auth.lastAuthQuery = some query → answerable world.config query = true →
      world.client.lined → credentials.isSome = true)
    (made : MadeFor world.config world.auth.count (credentials.map Prod.snd)) :
    AuthStep world none { world with
      auth := world.auth.count
      client := httprSendRequest env client credentials world.auth.lastAuthQuery } := by
  have asked (data : Bytes) :
      Adds [.request (credentials.map Prod.snd) world.auth.lastAuthQuery] client
        { (client.modify .relay (·.write data)).call
            (.request (credentials.map Prod.snd) world.auth.lastAuthQuery) with
          state := .httpr .requestSent } :=
    .goOn rfl rfl (fun _ => past) rfl (List.filter_cons_of_pos rfl)
      fun _ => ⟨_, List.mem_singleton_self _, rfl⟩
  simp only [httprSendRequest]
  split
  · exact .gaveUp rfl rfl (added.after (adds_dropLog _ _ rfl)) rfl
  · split
    · exact .gaveUp rfl rfl (added.after (adds_dropLog _ _ rfl)) rfl
    · refine .asked (credentials.map Prod.snd) rfl rfl ?_ ?_ made
      · exact (added.after (asked _)).then (adds_wait _)
      · intro query stored able lined
        rw [Option.isSome_map]
        exact answers query stored able lined

theorem authStep_httprRelayWriteCb (env : Env) (world : World) (live : world.client.dropped = false) :
    AuthStep world none (httprRelayWriteCb env world) := by
  simp only [httprRelayWriteCb]
  split
  · next received =>
    have past : world.client.state.pastRequest = true := by simp [received, State.pastRequest]
    split
    · exact .of_adds (adds_dropLog _ _ rfl) rfl
    · have started : Adds [] world.client (world.client.modify .relay
          (·.write (world.client.httpr.firstline.getD []))) := .same rfl rfl rfl rfl rfl
      split
      · next message failed =>
        obtain rfl := httprCredentials_error failed
        exact .gaveUp rfl rfl (started.after (adds_dropLog _ _ rfl)) rfl
      · next credentials made =>
        refine authStep_httprSendRequest env credentials started past ?_ (httprCredentials_made made)
        intro query stored able lined
        obtain ⟨line, present⟩ := Option.isSome_iff_exists.mp (lined live past)
        rw [present] at made
        have again : world.auth.count.lastAuthQuery = some query := stored
        exact httprCredentials_isSome again able made
  · exact .of_adds (adds_call _ _ rfl) rfl
  · exact .quiet rfl rfl (.refl _)
  · exact .of_adds (adds_call _ _ rfl) rfl

end Requests

section ClientRequest

/-- A request that has been read to its end has a first line, and nothing but its mistakes has been
logged. -/
def HttprRead.sound (read : HttprRead) : Prop :=
  (read.connectRelay = true → read.doDrop = false → read.httpr.firstline.isSome = true) ∧
    ∀ message ∈ read.logs, (Call.log message).ofAuth = false

theorem HttprRead.append_frame (env : Env) (read : HttprRead) (line : Bytes) :
    (read.append env line).connectRelay = read.connectRelay ∧
      (read.append env line).logs = read.logs ∧
      (read.append env line).httpr.firstline = read.httpr.firstline ∧
      ((read.append env line).doDrop = false → read.doDrop = false) := by
  unfold HttprRead.append
  split <;> simp

theorem HttprRead.toss_sound (env : Env) (read : HttprRead) (address : SockaddrIn)
    (quiet : ∀ message ∈ read.logs, (Call.log message).ofAuth = false) :
    ((read.toss env address).doDrop = false →
        (read.toss env address).httpr.firstline.isSome = true) ∧
      ∀ message ∈ (read.toss env address).logs, (Call.log message).ofAuth = false := by
  unfold HttprRead.toss
  split
  · exact ⟨fun kept => by simp at kept, quiet⟩
  · split
    · next logs failed =>
      refine ⟨fun kept => by simp at kept, ?_⟩
      intro message member
      rcases List.mem_append.mp member with tossed | earlier
      · simp only [httprTossHttpFirstline] at failed
        split at failed
        · rw [← Except.error.inj failed] at tossed
          simp only [List.mem_cons, List.not_mem_nil, or_false] at tossed
          rcases tossed with rfl | rfl <;> rfl
        · split at failed
          · rw [← Except.error.inj failed, List.mem_singleton] at tossed
            rw [tossed]
            rfl
          · simp at failed
      · exact quiet message earlier
    · exact ⟨fun _ => rfl, quiet⟩

theorem HttprRead.finish_sound (env : Env) (read : HttprRead) (address : SockaddrIn)
    (quiet : ∀ message ∈ read.logs, (Call.log message).ofAuth = false) :
    (read.finish env address).sound := by
  obtain ⟨tossed, logs⟩ := HttprRead.toss_sound env read address quiet
  simp only [HttprRead.finish, HttprRead.sound]
  split
  · simp only [(HttprRead.append_frame env _ _).2.1, (HttprRead.append_frame env _ _).2.2.1]
    refine ⟨fun _ kept => tossed ?_, logs⟩
    exact (HttprRead.append_frame env _ _).2.2.2 ((HttprRead.append_frame env _ _).2.2.2
      ((HttprRead.append_frame env _ _).2.2.2 kept))
  · simp only [(HttprRead.append_frame env _ _).2.1, (HttprRead.append_frame env _ _).2.2.1]
    refine ⟨fun _ kept => tossed ?_, logs⟩
    exact (HttprRead.append_frame env _ _).2.2.2 ((HttprRead.append_frame env _ _).2.2.2
      ((HttprRead.append_frame env _ _).2.2.2 ((HttprRead.append_frame env _ _).2.2.2 kept)))

theorem HttprRead.line_sound (env : Env) (address : SockaddrIn) (read : HttprRead) (line : Bytes)
    (running : read.isDone = false) (before : read.sound) : (read.line env address line).sound := by
  have reading : read.connectRelay = false := by
    simp only [HttprRead.isDone, Bool.or_eq_false_iff] at running
    exact running.1
  have appended (line : Bytes) (later : HttprRead) (same : later.connectRelay = false)
      (logs : later.logs = read.logs) : (later.append env line).sound := by
    obtain ⟨connect, logged, -, -⟩ := HttprRead.append_frame env later line
    refine ⟨fun done => ?_, ?_⟩
    · rw [connect, same] at done
      simp at done
    · rw [logged, logs]
      exact before.2
  unfold HttprRead.line
  split
  · exact HttprRead.finish_sound env read address before.2
  · split
    · exact ⟨fun _ _ => rfl, before.2⟩
    · split
      · exact appended line _ reading rfl
      · split
        · exact before
        · split
          · exact before
          · exact appended line read reading rfl

theorem adds_httprClientReadContent (env : Env) (client : Client) :
    Adds [] client (httprClientReadContent env client) := by
  simp only [httprClientReadContent]
  have kept : Adds [] client { client.setInput .client [] with
      httpr := { client.httpr with
        clientBuffer := client.httpr.clientBuffer ++ client.client.input } } :=
    .same rfl rfl rfl rfl rfl
  split
  · exact adds_dropLog _ _ rfl
  · split
    · exact adds_dropLog _ _ rfl
    · split
      · exact kept
      · split
        · exact kept.after (adds_dropLog _ _ rfl)
        · exact kept.after (adds_setBuf _ _ _)

theorem adds_httprClientReadCb (env : Env) (client : Client) :
    Adds [] client (httprClientReadCb env client) := by
  simp only [httprClientReadCb]
  split
  · next new =>
    have sound := redsocksEvbufferReadline.drain_invariant (HttprRead.line env client.destaddr)
      HttprRead.isDone HttprRead.sound
      (fun read line running before => HttprRead.line_sound env client.destaddr read line running before)
      { httpr := client.httpr, connectRelay := false, doDrop := false, logs := [] }
      client.client.input ⟨fun done => by simp at done, by simp⟩
    generalize redsocksEvbufferReadline.drain _ _ _ _ = drained at sound
    have calls (state : State) : Client.authTrace { client.setInput .client drained.2 with
        httpr := drained.1.httpr
        trace := drained.1.logs.map Call.log ++ client.trace
        state := state } = client.authTrace := by
      have skipped : (drained.1.logs.map Call.log).filter Call.ofAuth = [] := by
        rw [List.filter_eq_nil_iff]
        intro entry member
        obtain ⟨message, logged, rfl⟩ := List.mem_map.mp member
        simp [sound.2 message logged]
      simp [Client.authTrace, skipped]
    have taken : Adds [] client { client.setInput .client drained.2 with
        httpr := drained.1.httpr
        trace := drained.1.logs.map Call.log ++ client.trace } :=
      .leave rfl ((congrArg State.pastRequest new).trans rfl) ((congrArg State.asked new).trans rfl)
        (calls client.state)
    split
    · exact taken.after (adds_drop _)
    · next kept =>
      split
      · next connects =>
        have received : Adds [] client { client.setInput .client drained.2 with
            httpr := drained.1.httpr
            trace := drained.1.logs.map Call.log ++ client.trace
            state := .httpr .recvRequestHeaders } :=
          ⟨rfl, fun _ _ _ => sound.1 connects (by simpa using kept), by simpa using calls _,
            fun asked => by
              rw [asked_of_state rfl] at asked
              cases asked⟩
        exact (received.after (adds_httprClientReadContent env _)).after (adds_connectRelay env _)
      · exact taken
  · exact adds_httprClientReadContent env client
  · exact .refl client

end ClientRequest

section Steps

variable {world next : World} {event : Event}

theorem authStep_relaySsReadcb (env : Env) (world : World)
    (http : world.client.subsys = .httpConnect ∨ world.client.subsys = .httpRelay) :
    AuthStep world world.client.reads407 (relaySsReadcb env world) := by
  unfold relaySsReadcb
  rcases http with connect | relay
  · rw [connect]
    exact authStep_httpcReadCb env connect
  · rw [relay]
    exact authStep_httprRelayReadCb env relay

theorem authStep_relaySsWritecb (env : Env) (world : World)
    (http : world.client.subsys = .httpConnect ∨ world.client.subsys = .httpRelay)
    (live : world.client.dropped = false) : AuthStep world none (relaySsWritecb env world) := by
  unfold relaySsWritecb
  rcases http with connect | relay
  · rw [connect]
    exact authStep_httpcWriteCb env world
  · rw [relay]
    exact authStep_httprRelayWriteCb env world live

theorem authStep_runReadcb (env : Env) (world : World) (side : Side)
    (http : world.client.subsys = .httpConnect ∨ world.client.subsys = .httpRelay) :
    AuthStep world (if (world.client.buf side).readcb = .subsys then world.client.reads407 else none)
      (runReadcb env world side) := by
  unfold runReadcb
  cases readcb : (world.client.buf side).readcb with
  | none => exact .quiet rfl rfl (.refl _)
  | subsys => exact authStep_relaySsReadcb env world http
  | httprClient => exact .of_adds (adds_httprClientReadCb env _) rfl
  | pump => exact .of_adds (adds_relayReadcb _ _ _) rfl

theorem authStep_runWritecb (env : Env) (world : World) (side : Side)
    (http : world.client.subsys = .httpConnect ∨ world.client.subsys = .httpRelay)
    (live : world.client.dropped = false) : AuthStep world none (runWritecb env world side) := by
  unfold runWritecb
  cases (world.client.buf side).writecb with
  | none => exact .quiet rfl rfl (.refl _)
  | connected =>
      simp only [redsocksRelayConnected]
      split
      · exact .of_adds (adds_dropLog _ _ rfl) rfl
      · exact .after (adds_setBuf _ _ _) (authStep_relaySsWritecb env _ http live)
  | subsys => exact authStep_relaySsWritecb env world http live
  | pump => exact .of_adds (adds_relayWritecb _ _ _) rfl

/-- What one callback of an HTTP client does to the record and to the shared `http_auth`. -/
theorem step_authStep
    (http : world.client.subsys = .httpConnect ∨ world.client.subsys = .httpRelay)
    (own : event.isOthers = false) (taken : step world event = some next) :
    AuthStep world (world.client.denied event) next := by
  have live := step_live taken
  simp only [step, live, Bool.false_eq_true, ↓reduceIte] at taken
  cases event with
  | readData side chunk env =>
      simp only [Option.ite_none_right_eq_some] at taken
      obtain ⟨-, taken⟩ := taken
      have received : Adds [] world.client
          (world.client.setBuf side ((world.client.buf side).receive chunk)) := adds_setBuf _ _ _
      split at taken
      · next full =>
        obtain rfl := returned taken
        have ran := authStep_runReadcb env (world.withClient
          (world.client.setBuf side ((world.client.buf side).receive chunk))) side http
        simp only [World.withClient_client, Client.buf_setBuf_self, Bufferevent.receive_readcb] at ran
        simp only [Client.denied, full, and_true]
        exact .after received ran
      · next short =>
        obtain rfl := Option.some.inj taken
        exact .of_adds received (by simp only [Client.denied, short, and_false, ↓reduceIte])
  | writeReady side count env =>
      simp only [Option.ite_none_right_eq_some] at taken
      obtain ⟨-, taken⟩ := taken
      have sent : Adds [] world.client
          (world.client.setBuf side ((world.client.buf side).transmit count)) := adds_setBuf _ _ _
      split at taken
      · obtain rfl := Option.some.inj taken
        exact .after sent (authStep_runWritecb env _ side http live)
      · obtain rfl := Option.some.inj taken
        exact .of_adds sent rfl
  | report side what =>
      simp only [Option.ite_none_right_eq_some, Option.some.injEq] at taken
      obtain ⟨-, rfl⟩ := taken
      exact .of_adds ((adds_disable _ _ _).after (adds_eventError _ _ _)) rfl
  | others auth => simp [Event.isOthers] at own

end Steps

end ProxySet
