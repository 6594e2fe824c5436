import ProxySet.Redsocks.HttpRequest
import ProxySet.Redsocks.Socks5

/-!
What a socks5 client tells the server, as the server reads it: the methods of the greeting and
the message with the credentials.
-/

namespace ProxySet

open StepRun

/-! ### What the server reads -/

def readField : Bytes → Option (Bytes × Bytes)
  | [] => none
  | size :: rest =>
      if size.toNat ≤ rest.length then some (rest.take size.toNat, rest.drop size.toNat) else none

def readMethods : Bytes → Option (Bytes × Bytes)
  | 5 :: rest => readField rest
  | _ => none

/-- Login and password of a message of RFC 1929, and what is behind it. -/
def readPassword : Bytes → Option ((Bytes × Bytes) × Bytes)
  | 1 :: rest => do
      let (login, rest) ← readField rest
      let (password, rest) ← readField rest
      return ((login, password), rest)
  | _ => none

theorem readField_of_length {field : Bytes} (short : field.length ≤ 255) (rest : Bytes) :
    readField (field.length.toUInt8 :: field ++ rest) = some (field, rest) := by
  have size : field.length.toUInt8.toNat = field.length := by
    rw [UInt8.toNat_ofNat']
    exact Nat.mod_eq_of_lt (by omega)
  simp only [List.cons_append, readField, size, List.length_append]
  rw [if_pos (by omega), List.take_left, List.drop_left]

theorem readPassword_message {login password : Bytes} (loginShort : login.length ≤ 255)
    (passwordShort : password.length ≤ 255) (rest : Bytes) :
    readPassword (socks5MkpasswordPlain login password ++ rest) =
      some ((login, password), rest) := by
  have message : socks5MkpasswordPlain login password ++ rest =
      1 :: (login.length.toUInt8 :: login ++ (password.length.toUInt8 :: password ++ rest)) := by
    simp [socks5MkpasswordPlain]
  rw [message]
  simp only [readPassword, readField_of_length loginShort, Option.bind_eq_bind, Option.bind_some,
    readField_of_length passwordShort]
  rfl

/-- The credentials of an instance, where a message can hold them. -/
structure Config.Credentials (config : Config) (login password : Bytes) : Prop where
  hasLogin : config.login = some login
  hasPassword : config.password = some password
  loginShort : login.length ≤ 255
  passwordShort : password.length ≤ 255

theorem socks5IsValidCred_iff (config : Config) :
    socks5IsValidCred config.login config.password = true ↔
      ∃ login password, config.Credentials login password := by
  constructor
  · intro valid
    cases hasLogin : config.login with
    | none => simp [socks5IsValidCred, hasLogin] at valid
    | some login =>
        cases hasPassword : config.password with
        | none => simp [socks5IsValidCred, hasLogin, hasPassword] at valid
        | some password =>
            simp only [socks5IsValidCred, hasLogin, hasPassword, Bool.and_eq_true,
              decide_eq_true_eq] at valid
            exact ⟨login, password, hasLogin, hasPassword, valid.1, valid.2⟩
  · rintro ⟨login, password, hasLogin, hasPassword, loginShort, passwordShort⟩
    simp [socks5IsValidCred, hasLogin, hasPassword, loginShort, passwordShort]

/-- What follows the greeting, by what the server has said: the command at once where it has chosen
no authentication, the credentials where it has chosen method 2, and the command behind them.
Behind the command there is what the client's program has sent, and nothing else. -/
inductive Answered (config : Config) (address : SockaddrIn) (heard relayed : Bytes) :
    Bytes → Prop where
  | unanswered : relayed = [] → Answered config address heard relayed []
  | command : [5, 0] <+: heard →
      Answered config address heard relayed (socks5MkcommandPlain 1 address ++ relayed)
  | credentials {login password message : Bytes} : relayed = [] → [5, 2] <+: heard →
      config.Credentials login password → readPassword message = some ((login, password), []) →
      Answered config address heard relayed message
  | both {login password message : Bytes} : [5, 2, 1, 0] <+: heard →
      config.Credentials login password → readPassword message = some ((login, password), []) →
      Answered config address heard relayed
        (message ++ (socks5MkcommandPlain 1 address ++ relayed))

/-- What a server that has said `heard` has been told, where `relayed` has been taken from the
client's program. -/
inductive Told (config : Config) (address : SockaddrIn) (heard relayed : Bytes) :
    Bytes → Prop where
  | nothing : relayed = [] → Told config address heard relayed []
  | greeting {said methods rest : Bytes} : readMethods said = some (methods, rest) →
      (2 ∈ methods ↔ ∃ login password, config.Credentials login password) →
      Answered config address heard relayed rest → Told config address heard relayed said

/-- What the server has been told, with what has been taken from the client's program: nothing
before the pump has started. -/
def Client.Tells (client : Client) (config : Config) : Prop :=
  ∃ relayed, relayed ++ client.client.input = client.client.rcvd ∧
    (relayed ≠ [] → .startRelay ∈ client.trace) ∧
    Told config client.destaddr client.relay.rcvd relayed client.written

/-! ### What the client says -/

def Config.greeting (config : Config) : Bytes :=
  socks5MkmethodsPlain (socks5IsValidCred config.login config.password)

def Config.message (config : Config) : Bytes :=
  socks5MkpasswordPlain (config.login.getD []) (config.password.getD [])

theorem readMethods_greeting (config : Config) (rest : Bytes) :
    ∃ methods, readMethods (config.greeting ++ rest) = some (methods, rest) ∧
      (2 ∈ methods ↔ ∃ login password, config.Credentials login password) := by
  rw [← socks5IsValidCred_iff, Config.greeting]
  cases socks5IsValidCred config.login config.password with
  | true => exact ⟨[0, 2], by simp [socks5MkmethodsPlain, readMethods, readField], by simp⟩
  | false => exact ⟨[0], by simp [socks5MkmethodsPlain, readMethods, readField], by simp⟩

theorem Config.Credentials.read {config : Config} {login password : Bytes}
    (credentials : config.Credentials login password) :
    readPassword config.message = some ((login, password), []) := by
  have whole := readPassword_message credentials.loginShort credentials.passwordShort []
  rw [List.append_nil] at whole
  rw [Config.message, credentials.hasLogin, credentials.hasPassword]
  exact whole

inductive Requested (config : Config) (address : SockaddrIn) (heard relayed : Bytes) :
    Bytes → Prop where
  | plain : [5, 0] <+: heard → Requested config address heard relayed
      (config.greeting ++ (socks5MkcommandPlain 1 address ++ relayed))
  | password : [5, 2, 1, 0] <+: heard →
      socks5IsValidCred config.login config.password = true →
      Requested config address heard relayed
        (config.greeting ++ (config.message ++ (socks5MkcommandPlain 1 address ++ relayed)))

/-- A client at each place of the dialogue, with what has been said and heard until there. -/
def Stage (config : Config) (client : Client) : Prop :=
  match client.state with
  | .socks5 .new => client.written = [] ∧ client.relay.rcvd = client.relay.input
  | .socks5 .methodSent =>
      client.written = config.greeting ∧ client.relay.rcvd = client.relay.input
  | .socks5 .authSent => socks5IsValidCred config.login config.password = true ∧
      client.written = config.greeting ++ config.message ∧
      client.relay.rcvd = [5, 2] ++ client.relay.input
  | .socks5 _ => Requested config client.destaddr client.relay.rcvd [] client.written
  | _ => False

section Told

variable {config : Config} {address : SockaddrIn} {heard relayed said : Bytes} {client : Client}

theorem told_greeting {rest : Bytes} (answered : Answered config address heard relayed rest) :
    Told config address heard relayed (config.greeting ++ rest) := by
  obtain ⟨methods, read, offered⟩ := readMethods_greeting config rest
  exact .greeting read offered answered

theorem Requested.told (requested : Requested config address heard relayed said) :
    Told config address heard relayed said := by
  cases requested with
  | plain chosen => exact told_greeting (.command chosen)
  | password chosen valid =>
      obtain ⟨login, password, credentials⟩ := (socks5IsValidCred_iff config).mp valid
      exact told_greeting (.both chosen credentials credentials.read)

theorem Stage.told (stage : Stage config client) :
    Told config client.destaddr client.relay.rcvd [] client.written := by
  unfold Stage at stage
  split at stage
  · rw [stage.1]
    exact .nothing rfl
  · rw [stage.1, ← List.append_nil config.greeting]
    exact told_greeting (.unanswered rfl)
  · obtain ⟨valid, written, rcvd⟩ := stage
    obtain ⟨login, password, credentials⟩ := (socks5IsValidCred_iff config).mp valid
    rw [written, rcvd]
    exact told_greeting (.credentials rfl (List.prefix_append _ _) credentials credentials.read)
  · exact stage.told
  · exact stage.elim

theorem Requested.grow {later : Bytes} (requested : Requested config address heard relayed said)
    (more : Bytes) (hears : heard <+: later) :
    Requested config address later (relayed ++ more) (said ++ more) := by
  cases requested with
  | plain chosen =>
      have longer : Requested config address later (relayed ++ more) _ :=
        .plain (chosen.trans hears)
      simpa using longer
  | password chosen valid =>
      have longer : Requested config address later (relayed ++ more) _ :=
        .password (chosen.trans hears) valid
      simpa using longer

end Told

/-! ### Steps -/

structure Speaking (config : Config) (client : Client) : Prop where
  subsys : client.subsys = .socks5
  offered : client.socks5.doPassword = socks5IsValidCred config.login config.password
  clientRead : client.client.readcb = .none
  unread : client.client.input = client.client.rcvd
  stage : Stage config client

/-- A client in the pump, with what it has passed on. -/
def Relaying (config : Config) (client : Client) : Prop :=
  ∃ relayed, relayed ++ client.client.input = client.client.rcvd ∧
    Requested config client.destaddr client.relay.rcvd relayed client.written

inductive Spoken (config : Config) (client : Client) : Prop where
  | dropped : client.dropped = true → client.Tells config → Spoken config client
  | speaking : Speaking config client → Spoken config client
  | pumping : client.state = .pumpActive → .startRelay ∈ client.trace →
      Relaying config client → Spoken config client

section Steps

variable {config : Config} {client : Client} {env : Env}

theorem Stage.congr {next : Client} (stage : Stage config client)
    (state : next.state = client.state) (address : next.destaddr = client.destaddr)
    (written : next.written = client.written)
    (rcvd : next.relay.rcvd = client.relay.rcvd) (input : next.relay.input = client.relay.input) :
    Stage config next := by
  unfold Stage
  rw [state, address, written, rcvd, input]
  exact stage

theorem Stage.receive (stage : Stage config client) (chunk : Bytes) :
    Stage config (client.setBuf .relay ((client.buf .relay).receive chunk)) := by
  unfold Stage at stage ⊢
  have state : (client.setBuf .relay ((client.buf .relay).receive chunk)).state = client.state :=
    rfl
  have same : (client.setBuf .relay ((client.buf .relay).receive chunk)).written = client.written :=
    rfl
  have rcvd : (client.setBuf .relay ((client.buf .relay).receive chunk)).relay.rcvd =
      client.relay.rcvd ++ chunk := rfl
  have input : (client.setBuf .relay ((client.buf .relay).receive chunk)).relay.input =
      client.relay.input ++ chunk := rfl
  rw [state, same, rcvd, input]
  split at stage
  · exact ⟨stage.1, by rw [stage.2]⟩
  · exact ⟨stage.1, by rw [stage.2]⟩
  · exact ⟨stage.1, stage.2.1, by rw [stage.2.2, List.append_assoc]⟩
  · have later := stage.grow [] (List.prefix_append client.relay.rcvd chunk)
    rwa [List.append_nil, List.append_nil] at later
  · exact stage

theorem Speaking.setRelay (speaking : Speaking config client) {buffer : Bufferevent}
    (stage : Stage config (client.setBuf .relay buffer)) :
    Speaking config (client.setBuf .relay buffer) :=
  ⟨speaking.subsys, speaking.offered, speaking.clientRead, speaking.unread, stage⟩

theorem Speaking.notPump (speaking : Speaking config client) : client.state ≠ .pumpActive := by
  intro pump
  have stage := speaking.stage
  simp [Stage, pump] at stage

theorem spoken_drop (unread : client.client.input = client.client.rcvd)
    (told : Told config client.destaddr client.relay.rcvd [] client.written) :
    Spoken config (redsocksDropClient client) :=
  .dropped rfl ⟨[], unread, fun some => absurd rfl some, told⟩

theorem spoken_writeHelper {data : Bytes} {state : State} {count : Nat}
    (subsys : client.subsys = .socks5)
    (offered : client.socks5.doPassword = socks5IsValidCred config.login config.password)
    (clientRead : client.client.readcb = .none)
    (unread : client.client.input = client.client.rcvd)
    (told : Told config client.destaddr client.relay.rcvd [] client.written)
    (stage : ∀ next : Client, next.state = state → next.destaddr = client.destaddr →
      next.written = client.written ++ data → next.relay.rcvd = client.relay.rcvd →
      next.relay.input = client.relay.input → Stage config next) :
    Spoken config (redsocksWriteHelper env client (.make env data) state count) := by
  unfold redsocksWriteHelper Message.make
  split
  · exact spoken_drop unread told
  · unfold redsocksWriteHelperEx
    dsimp only
    split
    · exact spoken_drop unread told
    · refine .speaking ⟨subsys, offered, clientRead, unread, stage _ rfl rfl ?_ rfl rfl⟩
      rw [Client.written, Client.written, List.append_assoc]
      rfl

theorem rcvd_startRelay (env : Env) (client : Client) :
    (redsocksStartRelay env client).relay.rcvd = client.relay.rcvd := by
  simp only [redsocksStartRelay]
  split
  · simp [Client.setBuf, Client.buf]
  · split <;> simp [Client.setBuf, Client.buf]

theorem started_startRelay (env : Env) (client : Client) :
    .startRelay ∈ (redsocksStartRelay env client).trace := by
  simp only [redsocksStartRelay]
  split
  · simp
  · split <;> simp

theorem spoken_startRelay (unread : client.client.input = client.client.rcvd)
    (requested : Requested config client.destaddr client.relay.rcvd [] client.written) :
    Spoken config (redsocksStartRelay env client) := by
  obtain ⟨written, rcvd, input, address, -⟩ := fields_startRelay env client
  refine .pumping (state_startRelay env client) (started_startRelay env client) ⟨[], ?_, ?_⟩
  · rw [input, rcvd]
    exact unread
  · rw [address, rcvd_startRelay, written]
    exact requested

theorem spoken_readExpected {comparator : Nat → Nat → Bool} {expected : Nat}
    {proceed : Bytes → Client → Client} (speaking : Speaking config client)
    (proceeds : comparator client.relay.input.length expected = true →
      Spoken config (proceed (client.relay.input.take expected) (client.modify .relay
        fun buffer => { buffer with input := buffer.input.drop expected }))) :
    Spoken config (match redsocksReadExpected client comparator expected with
      | (none, dropped) => dropped
      | (some reply, read) => proceed reply read) := by
  simp only [redsocksReadExpected]
  split
  · next read =>
    split at read
    · simp at read
    · obtain ⟨-, rfl⟩ := Prod.mk.inj read
      exact spoken_drop speaking.unread speaking.stage.told
  · next read =>
    split at read
    · next fits =>
      obtain ⟨reply, rfl⟩ := Prod.mk.inj read
      obtain rfl := Option.some.inj reply
      exact proceeds fits
    · simp at read

theorem spoken_readAuthMethods (speaking : Speaking config client)
    (state : client.state = .socks5 .methodSent) :
    Spoken config (socks5ReadAuthMethods env config client) := by
  have stage := speaking.stage
  simp only [Stage, state] at stage
  obtain ⟨written, rcvd⟩ := stage
  unfold socks5ReadAuthMethods
  refine spoken_readExpected speaking fun full => ?_
  obtain ⟨version, method, input⟩ := List.length_eq_two.mp (of_decide_eq_true full)
  have unread := speaking.unread
  have told := speaking.stage.told
  simp only [input, List.take_succ_cons, List.take_zero, List.getD_cons_zero, List.getD_cons_succ]
  split
  · exact spoken_drop unread told
  · next known =>
    obtain ⟨rfl, chosen⟩ := (socks5IsKnownAuthMethod_eq_none_iff _ version method).mp known
    split
    · next plain =>
      subst plain
      refine spoken_writeHelper speaking.subsys speaking.offered speaking.clientRead unread told ?_
      intro next nextState address said heard _
      simp only [Stage, nextState]
      rw [said.trans (congrArg (· ++ _) written), heard, address,
        ← List.append_nil (socks5Mkconnect _)]
      exact .plain ⟨[], by rw [List.append_nil, ← input, ← rcvd]; rfl⟩
    · next other =>
      obtain ⟨rfl, offered⟩ := chosen.resolve_left other
      rw [if_pos rfl]
      refine spoken_writeHelper speaking.subsys speaking.offered speaking.clientRead unread told ?_
      intro next nextState address said heard left
      simp only [Stage, nextState]
      refine ⟨speaking.offered ▸ offered, ?_, ?_⟩
      · exact said.trans (congrArg (· ++ _) written)
      · rw [heard, left]
        exact rcvd.trans (by simp [input, Client.setBuf, Client.buf])

theorem spoken_readAuthReply (speaking : Speaking config client)
    (state : client.state = .socks5 .authSent) :
    Spoken config (socks5ReadAuthReply env client) := by
  have stage := speaking.stage
  simp only [Stage, state] at stage
  obtain ⟨valid, written, rcvd⟩ := stage
  unfold socks5ReadAuthReply
  refine spoken_readExpected speaking fun full => ?_
  obtain ⟨version, status, input⟩ := List.length_eq_two.mp (of_decide_eq_true full)
  have unread := speaking.unread
  have told := speaking.stage.told
  simp only [input, List.take_succ_cons, List.take_zero, List.getD_cons_zero, List.getD_cons_succ]
  split
  · exact spoken_drop unread told
  · next known =>
    rw [not_not] at known
    split
    · next passed =>
      subst known passed
      refine spoken_writeHelper speaking.subsys speaking.offered speaking.clientRead unread told ?_
      intro next nextState address said heard _
      simp only [Stage, nextState]
      rw [said.trans (congrArg (· ++ _) written), heard, address,
        ← List.append_nil (socks5Mkconnect _), List.append_assoc]
      exact .password ⟨[], by rw [List.append_nil]; exact (rcvd.trans (by rw [input]; rfl)).symm⟩
        valid
    · exact spoken_drop unread told

theorem spoken_wait {state : Socks5State} {count : Nat} {next : Client}
    (speaking : Speaking config client)
    (requested : Requested config client.destaddr client.relay.rcvd [] client.written)
    (subsys : next.subsys = client.subsys)
    (offered : next.socks5.doPassword = client.socks5.doPassword)
    (clientSame : next.client = client.client)
    (address : next.destaddr = client.destaddr) (said : next.written = client.written)
    (heard : next.relay.rcvd = client.relay.rcvd)
    (later : state = .requestSent ∨ state = .skipDomain ∨ state = .skipAddress) :
    Spoken config (redsocksWriteHelper env next .noMaker (.socks5 state) count) := by
  refine .speaking ⟨subsys.trans speaking.subsys, offered.trans speaking.offered,
    clientSame ▸ speaking.clientRead, clientSame ▸ speaking.unread, ?_⟩
  have same : Requested config next.destaddr next.relay.rcvd [] next.written := by
    rw [address, heard, said]
    exact requested
  rcases later with rfl | rfl | rfl
  · exact same
  · exact same
  · exact same

theorem spoken_readReply (speaking : Speaking config client)
    (requested : Requested config client.destaddr client.relay.rcvd [] client.written) :
    Spoken config (socks5ReadReply env client) := by
  unfold socks5ReadReply
  refine spoken_readExpected speaking fun _ => ?_
  have unread := speaking.unread
  have told := speaking.stage.told
  dsimp only
  split
  · exact spoken_drop unread told
  · split
    · split
      · exact spoken_wait speaking requested rfl rfl rfl rfl rfl rfl (by simp)
      · split
        · exact spoken_wait speaking requested rfl rfl rfl rfl rfl rfl (by simp)
        · split
          · exact spoken_wait speaking requested rfl rfl rfl rfl rfl rfl (by simp)
          · exact spoken_drop unread told
    · exact spoken_drop unread told

theorem spoken_readCb (speaking : Speaking config client) :
    Spoken config (socks5ReadCb env config client) := by
  have stage := speaking.stage
  unfold socks5ReadCb
  split
  · next state => exact spoken_readAuthMethods speaking state
  · next state => exact spoken_readAuthReply speaking state
  · next state =>
    simp only [Stage, state] at stage
    exact spoken_readReply speaking stage
  · next state =>
    simp only [Stage, state] at stage
    refine spoken_readExpected speaking fun _ => ?_
    exact spoken_wait speaking stage rfl rfl rfl rfl rfl rfl (by simp)
  · next state =>
    simp only [Stage, state] at stage
    exact spoken_readExpected speaking fun _ => spoken_startRelay speaking.unread stage
  · exact spoken_drop speaking.unread stage.told

theorem spoken_writeCb (speaking : Speaking config client) :
    Spoken config (socks5WriteCb env client) := by
  unfold socks5WriteCb
  split
  · next state =>
    have stage := speaking.stage
    simp only [Stage, state] at stage
    refine spoken_writeHelper speaking.subsys speaking.offered speaking.clientRead speaking.unread
      speaking.stage.told ?_
    intro next nextState address said heard left
    simp only [Stage, nextState]
    rw [said, heard, left, stage.1, speaking.offered]
    exact ⟨rfl, stage.2⟩
  · exact .speaking speaking

end Steps

/-! ### Runs -/

section Runs

variable {world next : World} {event : Event}

theorem Relaying.tells {config : Config} {client : Client} (started : .startRelay ∈ client.trace)
    (relaying : Relaying config client) : client.Tells config := by
  obtain ⟨relayed, taken, requested⟩ := relaying
  exact ⟨relayed, taken, fun _ => started, requested.told⟩

theorem Relaying.grow {config : Config} {client after : Client} (relaying : Relaying config client)
    (address : after.destaddr = client.destaddr) (hears : client.relay.rcvd <+: after.relay.rcvd)
    (flows : RelayFlow.Step redsocksRelayHalfbuff (client.flow .relay) (after.flow .relay)) :
    Relaying config after := by
  obtain ⟨relayed, taken, requested⟩ := relaying
  obtain ⟨more, written⟩ := flows.queues
  obtain ⟨arrived, left, receivedEq, deliveredEq, moved⟩ := flows.carries
  simp only [Client.flow, Side.other, Client.buf] at written receivedEq deliveredEq moved
  have tail : more ++ after.client.input = client.client.input ++ arrived := by
    have whole : client.relay.sent ++ client.relay.output ++ (more ++ after.client.input) =
        client.relay.sent ++ client.relay.output ++ (client.client.input ++ arrived) := calc
      client.relay.sent ++ client.relay.output ++ (more ++ after.client.input)
        = after.relay.sent ++ after.relay.output ++ after.client.input := by
          rw [← written]
          simp
      _ = client.relay.sent ++ (left ++ after.relay.output ++ after.client.input) := by
          rw [deliveredEq]
          simp
      _ = client.relay.sent ++ client.relay.output ++ (client.client.input ++ arrived) := by
          rw [moved]
          simp
    exact List.append_cancel_left whole
  refine ⟨relayed ++ more, ?_, ?_⟩
  · rw [List.append_assoc, tail, receivedEq, ← taken, List.append_assoc]
  · have later := requested.grow more hears
    rwa [Client.written, written, ← address] at later

theorem started_shutdown {client : Client} (side : Side) (how : How)
    (started : .startRelay ∈ client.trace) :
    .startRelay ∈ (redsocksShutdown client side how).trace := by
  rw [mem_trace_shutdown _ _ _ _ rfl, Client.callShutdown_trace]
  split
  · exact started
  · exact List.mem_cons_of_mem _ started

theorem PumpStep.started {client after : Client} {event : Event}
    (taken : PumpStep client event after) (started : .startRelay ∈ client.trace) :
    .startRelay ∈ after.trace := by
  cases taken with
  | others => exact started
  | read side chunk env =>
      unfold redsocksRelayReadcb
      split
      · simpa [Client.writeBuffer] using started
      · split
        · simpa using started
        · simpa using started
  | sent side amount env => simpa using started
  | drained side amount env =>
      unfold redsocksRelayWritecb
      dsimp only
      split
      · exact started_shutdown _ _ (by simpa using started)
      · split
        · split
          · simpa [Client.writeBuffer] using started
          · simpa [Client.writeBuffer] using started
        · simpa using started
  | eof side =>
      have ended : .startRelay ∈
          (redsocksShutdown (client.disable side EvBits.evRead) side .rd).trace :=
        started_shutdown _ _ (by simpa using started)
      simp only [redsocksEventError, ↓reduceIte]
      split
      · exact started_shutdown _ _ ended
      · exact ended

theorem spoken_pump (pumping : Pumping world.client) (started : .startRelay ∈ world.client.trace)
    (relaying : Relaying world.config world.client) (taken : step world event = some next) :
    Spoken world.config next.client := by
  cases failed : event.isSocketError with
  | true =>
      obtain ⟨side, what, -, nextEq⟩ := step_socketError failed taken
      rw [nextEq]
      refine .dropped rfl (Relaying.tells (by simp [redsocksDropClient, started]) ?_)
      cases side with
      | client => exact relaying
      | relay => exact relaying
  | false =>
      have pumped := step_pumpStep pumping failed taken
      have heard : world.client.relay.rcvd <+: next.client.relay.rcvd :=
        ⟨_, (pumped.received pumping .relay).symm⟩
      exact .pumping (pumped.pumping pumping).state (pumped.started started)
        (relaying.grow pumped.destaddr heard (pumped.flow pumping .relay))

theorem Speaking.written_congr {config : Config} {client after : Client}
    (speaking : Speaking config client) (subsys : after.subsys = client.subsys)
    (offered : after.socks5 = client.socks5)
    (clientRead : after.client.readcb = client.client.readcb)
    (unread : after.client.input = after.client.rcvd)
    (state : after.state = client.state) (address : after.destaddr = client.destaddr)
    (relay : after.written = client.written ∧ after.relay.rcvd = client.relay.rcvd ∧
      after.relay.input = client.relay.input) : Speaking config after :=
  ⟨subsys.trans speaking.subsys, offered ▸ speaking.offered, clientRead.trans speaking.clientRead,
    unread, speaking.stage.congr state address relay.1 relay.2.1 relay.2.2⟩

theorem spoken_shutdown {config : Config} {client : Client} (speaking : Speaking config client)
    (side : Side) (how : How) : Spoken config (redsocksShutdown client side how) := by
  have unread := speaking.unread
  have told := speaking.stage.told
  simp only [redsocksShutdown]
  split
  · cases side with
    | client => exact spoken_drop unread told
    | relay => exact spoken_drop unread told
  · cases side with
    | client => exact .speaking (speaking.written_congr rfl rfl rfl unread rfl rfl ⟨rfl, rfl, rfl⟩)
    | relay => exact .speaking (speaking.written_congr rfl rfl rfl unread rfl rfl ⟨rfl, rfl, rfl⟩)

theorem Speaking.readcb (speaking : Speaking world.config world.client)
    (handshake : Handshake world.client) (side : Side) :
    (world.client.buf side).readcb = .none ∨ (world.client.buf side).readcb = .subsys := by
  cases side with
  | client => exact .inl speaking.clientRead
  | relay => exact handshake.callbacks.2.2.1

theorem spoken_runReadcb (world : World) (env : Env) (side : Side)
    (handshake : Handshake world.client) (speaking : Speaking world.config world.client) :
    Spoken world.config (runReadcb env world side).client := by
  rcases speaking.readcb handshake side with none | subsys
  · simp only [runReadcb, none]
    exact .speaking speaking
  · simp only [runReadcb, subsys, relaySsReadcb, speaking.subsys]
    exact spoken_readCb speaking

theorem spoken_runWritecb (world : World) (env : Env) (side : Side)
    (handshake : Handshake world.client) (speaking : Speaking world.config world.client) :
    Spoken world.config (runWritecb env world side).client := by
  unfold runWritecb
  split
  · exact .speaking speaking
  · unfold redsocksRelayConnected
    split
    · exact spoken_drop speaking.unread speaking.stage.told
    · simp only [relaySsWritecb, World.withClient_client, Client.modify, Client.setBuf_subsys,
        speaking.subsys]
      exact spoken_writeCb
        (speaking.written_congr rfl rfl rfl speaking.unread rfl rfl ⟨rfl, rfl, rfl⟩)
  · simp only [relaySsWritecb, speaking.subsys]
    exact spoken_writeCb speaking
  · next installed =>
    cases side with
    | client =>
        rw [show (world.client.buf .client).writecb = _ from handshake.callbacks.2.1] at installed
        cases installed
    | relay => exact absurd installed handshake.callbacks.2.2.2.1

theorem Handshake.receive {client : Client} (handshake : Handshake client) (side : Side)
    (chunk : Bytes) : Handshake (client.setBuf side ((client.buf side).receive chunk)) := by
  cases side with
  | client => exact handshake.untouched ⟨⟨rfl, id⟩, id⟩ handshake.state rfl
  | relay => exact handshake.untouched ⟨⟨rfl, id⟩, id⟩ handshake.state rfl

theorem Handshake.transmit_client {client : Client} (handshake : Handshake client) (count : Nat) :
    Handshake (client.setBuf .client ((client.buf .client).transmit count)) :=
  handshake.untouched ⟨⟨rfl, id⟩, id⟩ handshake.state rfl

theorem spoken_step (reached : Reached world.client) (spoken : Spoken world.config world.client)
    (taken : step world event = some next) : Spoken world.config next.client := by
  have live := step_live taken
  cases spoken with
  | dropped dropped =>
      rw [live] at dropped
      cases dropped
  | pumping state started relaying =>
      exact spoken_pump (reached.pumping state live) started relaying taken
  | speaking speaking =>
      have handshake := reached.handshake speaking.notPump live
      simp only [step, live, Bool.false_eq_true, ↓reduceIte] at taken
      cases event with
      | readData side chunk env =>
          simp only [Option.ite_none_right_eq_some] at taken
          obtain ⟨-, taken⟩ := taken
          have later := handshake.receive side chunk
          have heard : Speaking world.config
              (world.client.setBuf side ((world.client.buf side).receive chunk)) := by
            cases side with
            | client =>
                exact speaking.written_congr rfl rfl rfl (congrArg (· ++ chunk) speaking.unread) rfl
                  rfl ⟨rfl, rfl, rfl⟩
            | relay => exact speaking.setRelay (speaking.stage.receive chunk)
          split at taken
          · obtain rfl := returned taken
            exact spoken_runReadcb (world.withClient _) env side later heard
          · obtain rfl := Option.some.inj taken
            exact .speaking heard
      | writeReady side count env =>
          simp only [Option.ite_none_right_eq_some] at taken
          obtain ⟨-, taken⟩ := taken
          have written : Handshake
              (world.client.setBuf side ((world.client.buf side).transmit count)) ∧
              Speaking world.config
                (world.client.setBuf side ((world.client.buf side).transmit count)) := by
            cases side with
            | client =>
                refine ⟨handshake.transmit_client count, ?_⟩
                exact speaking.written_congr rfl rfl rfl speaking.unread rfl rfl ⟨rfl, rfl, rfl⟩
            | relay =>
                refine ⟨handshake.transmit count, ?_⟩
                refine speaking.written_congr rfl rfl rfl speaking.unread rfl rfl ⟨?_, rfl, rfl⟩
                simp [Client.written, Client.setBuf, Client.buf]
          split at taken
          · obtain rfl := Option.some.inj taken
            exact spoken_runWritecb (world.withClient _) env side written.1 written.2
          · obtain rfl := Option.some.inj taken
            exact .speaking written.2
      | report side what =>
          simp only [Option.ite_none_right_eq_some, Option.some.injEq] at taken
          obtain ⟨-, rfl⟩ := taken
          by_cases eof : what = .readEof
          · subst eof
            rw [World.withClient, eventError_eof_handshake handshake.state]
            exact spoken_shutdown speaking side .rd
          · simp only [World.withClient, redsocksEventError, eof, ↓reduceIte]
            cases side with
            | client => exact spoken_drop speaking.unread speaking.stage.told
            | relay => exact spoken_drop speaking.unread speaking.stage.told
      | others auth =>
          obtain rfl := Option.some.inj taken
          exact .speaking speaking

variable {env : Env} {config : Config} {auth : HttpAuth} {address : SockaddrIn}
  {events : List Event} {final : World}

theorem spoken_accept (env : Env) (config : Config) (address : SockaddrIn) :
    Spoken config (redsocksAcceptClient env config .socks5 address) := by
  unfold redsocksAcceptClient
  dsimp only
  split
  · exact spoken_drop rfl (.nothing rfl)
  · unfold redsocksConnectRelay
    split
    · exact spoken_drop rfl (.nothing rfl)
    · exact .speaking ⟨rfl, rfl, rfl, rfl, ⟨rfl, rfl⟩⟩

theorem run_spoken
    (ran : run step events (acceptedWorld env config auth .socks5 address) = some final) :
    final.config = config ∧ Reached final.client ∧ Spoken config final.client := by
  refine run_invariant (fun world => world.config = config ∧ Reached world.client ∧
    Spoken config world.client) ?_
    ⟨rfl, reached_accept env config .socks5 address, spoken_accept env config address⟩ ran
  rintro world event next ⟨rfl, reached, spoken⟩ taken
  exact ⟨step_config taken, reached_step reached taken, spoken_step reached spoken taken⟩

theorem Spoken.tells {client : Client} (spoken : Spoken config client) : client.Tells config := by
  cases spoken with
  | dropped dropped tells => exact tells
  | speaking speaking =>
      exact ⟨[], speaking.unread, fun some => absurd rfl some, speaking.stage.told⟩
  | pumping state started relaying => exact relaying.tells started

/-- A client without failures greets the server, and answers the choice of method 2. -/
theorem run_password {login password : Bytes} (credentials : config.Credentials login password) :
    ∃ final, run step [.writeReady .relay 0 Env.ok, .readData .relay [5, 2] Env.ok]
        (acceptedWorld Env.ok config auth .socks5 address) = some final ∧
      final.client.state = .socks5 .authSent ∧ final.client.dropped = false ∧
      final.client.written = config.greeting ++ config.message := by
  have valid : socks5IsValidCred config.login config.password = true :=
    (socks5IsValidCred_iff config).mpr ⟨login, password, credentials⟩
  have start : acceptedWorld Env.ok config auth .socks5 address =
      { config := config, auth := auth, client :=
        { redsocksAcceptClient Env.ok config .socks5 address with
          socks5 := { doPassword := true, toSkip := 0 } } } := by
    rw [← valid]
    rfl
  rw [start, Config.greeting, valid]
  exact ⟨_, rfl, rfl, rfl, rfl⟩

/-- In every run, whatever fails in it: the greeting offers method 2 exactly if there are
credentials that a message can hold, the message with the credentials goes out only behind the
server's choice of method 2, and the server reads from it the login and the password.  All else
behind the command are the bytes taken from the client's program, in order and none before the
pump.  Without failures the choice of method 2 is answered. -/
theorem socks5_credentials_told
    (ran : run step events (acceptedWorld env config auth .socks5 address) = some final) :
    final.client.Tells config ∧
      ∀ login password, config.Credentials login password →
        ∃ answered methods message,
          run step [.writeReady .relay 0 Env.ok, .readData .relay [5, 2] Env.ok]
            (acceptedWorld Env.ok config auth .socks5 address) = some answered ∧
          readMethods answered.client.written = some (methods, message) ∧
          readPassword message = some ((login, password), []) := by
  refine ⟨(run_spoken ran).2.2.tells, ?_⟩
  intro login password credentials
  obtain ⟨answered, went, -, -, written⟩ := run_password credentials
  obtain ⟨methods, read, -⟩ := readMethods_greeting config config.message
  exact ⟨answered, methods, config.message, went, written ▸ read, credentials.read⟩

/-- Login and password are `u` and `p`, and the server chooses method 2. -/
theorem socks5_credentials_told_short :
    ∃ final, run step [.writeReady .relay 0 Env.ok, .readData .relay [5, 2] Env.ok]
        (acceptedWorld Env.ok { login := some (ascii "u"), password := some (ascii "p") }
          { lastAuthQuery := none, lastAuthCount := 0 } .socks5
          { a := 10, b := 0, c := 0, d := 1, port := 80 }) = some final ∧
      final.client.written = [5, 2, 0, 2, 1, 1, 117, 1, 112] ∧
      final.client.Tells { login := some (ascii "u"), password := some (ascii "p") } := by
  have goes : (run step [.writeReady .relay 0 Env.ok, .readData .relay [5, 2] Env.ok]
      (acceptedWorld Env.ok { login := some (ascii "u"), password := some (ascii "p") }
        { lastAuthQuery := none, lastAuthCount := 0 } .socks5
        { a := 10, b := 0, c := 0, d := 1, port := 80 })).any (fun final =>
          final.client.written == [5, 2, 0, 2, 1, 1, 117, 1, 112]) = true := by
    decide +kernel
  obtain ⟨final, ran, said⟩ := (Option.any_eq_true _ _).mp goes
  exact ⟨final, ran, beq_iff_eq.mp said, (socks5_credentials_told ran).1⟩

end Runs

end ProxySet
