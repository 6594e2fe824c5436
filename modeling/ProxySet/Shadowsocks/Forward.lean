import ProxySet.Shadowsocks.Relay

/-!
What the two sides of a connection of `local.c` are told: the program the answers of the
SOCKS server and then the text of the remote, and the remote the address of the request
and then what the program sends behind it.
-/

namespace ProxySet.Shadowsocks

open StepRun

variable {settings : Settings} {ctx : Ctx} {relay next : Relay} {turn : Turn}
  {turns : List Turn} {chunk : Bytes}

/-! ### The dialogue with the program -/

def Relay.handshakeFields (relay : Relay) :=
  (relay.stage, relay.greeted, relay.asked, relay.answered, relay.header, relay.headerTaken)

theorem recvLoop_keeps {turnOf : Relay → Turn → Option (Relay × Bool)} (holds : Relay → Prop)
    (one : ∀ relay turn result, holds relay → turnOf relay turn = some result → holds result.1)
    (start : holds relay) (ran : recvLoop turnOf turns relay = some next) : holds next := by
  induction turns generalizing relay with
  | nil => exact Option.some.inj ran ▸ start
  | cons turn rest ih =>
      rw [recvLoop] at ran
      split at ran
      · simp at ran
      · next after more taken =>
        have kept := one _ _ _ start taken
        split at ran
        · exact ih kept ran
        · exact Option.some.inj ran ▸ kept

theorem serverForward_handshake {sent : Sent} :
    (serverForward relay chunk sent).1.handshakeFields = relay.handshakeFields := by
  unfold serverForward
  cases sent with
  | again => rfl
  | failed => rfl
  | taken count =>
      dsimp only
      split
      · rfl
      · rfl

theorem serverRecvTurn_handshake {result : Relay × Bool} (five : relay.stage = .five)
    (taken : serverRecvTurn settings relay turn = some result) :
    result.1.handshakeFields = relay.handshakeFields := by
  unfold serverRecvTurn at taken
  split at taken
  · exact Option.some.inj taken ▸ rfl
  · exact Option.some.inj taken ▸ rfl
  · dsimp only at taken
    rw [if_pos five] at taken
    exact Option.some.inj taken ▸ serverForward_handshake

theorem recvLoop_handshake (five : relay.stage = .five)
    (ran : recvLoop (serverRecvTurn settings) turns relay = some next) :
    next.handshakeFields = relay.handshakeFields := by
  refine (recvLoop_keeps (fun later =>
    later.stage = .five ∧ later.handshakeFields = relay.handshakeFields) ?_ ⟨five, rfl⟩ ran).2
  rintro later turn result ⟨stage, same⟩ taken
  have kept := serverRecvTurn_handshake stage taken
  exact ⟨(congrArg Prod.fst kept).trans stage, kept.trans same⟩

theorem remoteRecvTurn_handshake :
    (remoteRecvTurn relay turn).1.handshakeFields = relay.handshakeFields ∧
      (remoteRecvTurn relay turn).1.heard = relay.heard := by
  unfold remoteRecvTurn
  split
  · exact ⟨rfl, rfl⟩
  · exact ⟨rfl, rfl⟩
  · dsimp only
    cases turn.first with
    | again => exact ⟨rfl, rfl⟩
    | failed => exact ⟨rfl, rfl⟩
    | taken count =>
        dsimp only
        split
        · exact ⟨rfl, rfl⟩
        · exact ⟨rfl, rfl⟩

theorem remoteRecvCb_handshake (ran : remoteRecvCb turns relay = some next) :
    next.handshakeFields = relay.handshakeFields ∧ next.heard = relay.heard := by
  refine recvLoop_keeps (fun later =>
    later.handshakeFields = relay.handshakeFields ∧ later.heard = relay.heard) ?_ ⟨rfl, rfl⟩ ran
  rintro later turn result ⟨same, heard⟩ taken
  obtain rfl := Option.some.inj taken
  have kept := @remoteRecvTurn_handshake later turn
  exact ⟨kept.1.trans same, kept.2.trans heard⟩

theorem remoteRecvTurn_told (received : turn.received = .data chunk) :
    (remoteRecvTurn relay turn).1.told = relay.told ++ chunk := by
  unfold remoteRecvTurn
  rw [received]
  dsimp only
  cases turn.first with
  | again => rfl
  | failed => rfl
  | taken count =>
      dsimp only
      split
      · rfl
      · rfl

theorem step_remoteRecv_told (received : turn.received = .data chunk)
    (taken : step settings relay (.remoteRecv [turn]) = some next) :
    next.told = relay.told ++ chunk := by
  simp only [step, Option.ite_none_right_eq_some] at taken
  have loop := taken.2
  rw [remoteRecvCb, recvLoop] at loop
  rw [← remoteRecvTurn_told received]
  dsimp only at loop
  split at loop
  · exact Option.some.inj loop ▸ rfl
  · exact Option.some.inj loop ▸ rfl

theorem serverSendCb_handshake {sent : Sent} :
    (serverSendCb relay sent).handshakeFields = relay.handshakeFields ∧
      (serverSendCb relay sent).heard = relay.heard ∧ (serverSendCb relay sent).told = relay.told := by
  unfold serverSendCb
  split
  · exact ⟨rfl, rfl, rfl⟩
  · cases sent with
    | again => exact ⟨rfl, rfl, rfl⟩
    | failed => exact ⟨rfl, rfl, rfl⟩
    | taken count =>
        dsimp only
        split
        · exact ⟨rfl, rfl, rfl⟩
        · exact ⟨rfl, rfl, rfl⟩

theorem remoteSendCb_handshake {peer : Bool} {sent : Sent} :
    (remoteSendCb relay peer sent).handshakeFields = relay.handshakeFields ∧
      (remoteSendCb relay peer sent).heard = relay.heard ∧
      (remoteSendCb relay peer sent).told = relay.told := by
  unfold remoteSendCb
  split
  · split
    · exact ⟨rfl, rfl, rfl⟩
    · exact ⟨rfl, rfl, rfl⟩
  · split
    · exact ⟨rfl, rfl, rfl⟩
    · cases sent with
      | again => exact ⟨rfl, rfl, rfl⟩
      | failed => exact ⟨rfl, rfl, rfl⟩
      | taken count =>
          dsimp only
          split
          · exact ⟨rfl, rfl, rfl⟩
          · exact ⟨rfl, rfl, rfl⟩

theorem step_handshake {event : Event} (taken : step settings relay event = some next)
    (other : ∀ turns, event ≠ .serverRecv turns) :
    next.handshakeFields = relay.handshakeFields ∧ next.heard = relay.heard := by
  cases event with
  | serverRecv turns => exact absurd rfl (other turns)
  | serverSend sent =>
      simp only [step, Option.ite_none_right_eq_some, Option.some.injEq] at taken
      obtain ⟨-, rfl⟩ := taken
      exact ⟨serverSendCb_handshake.1, serverSendCb_handshake.2.1⟩
  | remoteRecv turns =>
      simp only [step, Option.ite_none_right_eq_some] at taken
      exact remoteRecvCb_handshake taken.2
  | remoteSend peer sent =>
      simp only [step, Option.ite_none_right_eq_some, Option.some.injEq] at taken
      obtain ⟨-, rfl⟩ := taken
      exact ⟨remoteSendCb_handshake.1, remoteSendCb_handshake.2.1⟩
  | remoteTimeout =>
      simp only [step, Option.ite_none_right_eq_some, Option.some.injEq] at taken
      obtain ⟨-, rfl⟩ := taken
      exact ⟨rfl, rfl⟩

def Relay.asking (relay : Relay) (chunk : Bytes) : Relay :=
  { relay with
    serverBuf := overwrite relay.serverBuf chunk
    asked := relay.asked ++ chunk }

theorem serverRequest_stage {asked : Relay}
    (taken : serverRequest settings relay turn = some (asked, true)) : asked.stage = .five := by
  unfold serverRequest at taken
  split at taken
  · simp at taken
  · split at taken
    · simp at taken
    · simp at taken
    · dsimp only at taken
      split at taken
      · simp at taken
      · obtain ⟨rfl, -⟩ := Prod.mk.inj (Option.some.inj taken)
        rfl

/-- What a callback that reads from the program makes of the dialogue. -/
inductive Heard (settings : Settings) (relay : Relay) : List Turn → Relay → Prop where
  | idle : Heard settings relay [] relay
  | forwards {turns : List Turn} {next : Relay} : relay.stage = .five →
      next.handshakeFields = relay.handshakeFields → Heard settings relay turns next
  | ends {turns : List Turn} (ending : Ending) : relay.stage ≠ .five →
      Heard settings relay turns (closeAndFree ending relay)
  | greets {turn : Turn} {rest : List Turn} {chunk : Bytes} : turn.received = .data chunk →
      relay.stage = .zero → Heard settings relay (turn :: rest) (answer { relay with
        serverBuf := overwrite relay.serverBuf chunk
        greeted := relay.greeted ++ chunk
        stage := .one } [5, 0] turn.first)
  | closes {turn : Turn} {rest : List Turn} {chunk : Bytes} {next : Relay} :
      turn.received = .data chunk → relay.stage = .one →
      serverRequest settings (relay.asking chunk) turn = some (next, false) →
      Heard settings relay (turn :: rest) next
  | opens {turn : Turn} {rest : List Turn} {chunk : Bytes} {asked next : Relay} :
      turn.received = .data chunk → relay.stage = .one →
      serverRequest settings (relay.asking chunk) turn = some (asked, true) →
      next.handshakeFields = asked.handshakeFields → Heard settings relay (turn :: rest) next

theorem serverRecvCb_heard (taken : serverRecvCb settings turns relay = some next) :
    Heard settings relay turns next := by
  by_cases five : relay.stage = .five
  · exact .forwards five (recvLoop_handshake five taken)
  · cases turns with
    | nil => exact Option.some.inj taken ▸ .idle
    | cons turn rest =>
        rw [serverRecvCb, recvLoop] at taken
        cases received : turn.received with
        | closed =>
            simp only [serverRecvTurn, received] at taken
            exact Option.some.inj taken ▸ .ends _ five
        | failed =>
            simp only [serverRecvTurn, received] at taken
            exact Option.some.inj taken ▸ .ends _ five
        | data chunk =>
            simp only [serverRecvTurn, received, if_neg five] at taken
            cases stage : relay.stage with
            | zero =>
                rw [if_pos stage] at taken
                exact Option.some.inj taken ▸ .greets received stage
            | one =>
                rw [if_neg (by simp [stage])] at taken
                split at taken
                · simp at taken
                · next asked more came =>
                  cases more with
                  | false => exact Option.some.inj taken ▸ .closes received stage came
                  | true =>
                      have same := recvLoop_handshake (serverRequest_stage came) taken
                      exact .opens received stage came same
            | five => exact absurd stage five

/-! ### The answers -/

/-- What the SOCKS server has answered by now.  A connection is closed behind a refusal, and behind
a reply that is not taken whole. -/
def Answers (settings : Settings) (relay : Relay) : Prop :=
  match relay.stage with
  | .zero => relay.answered = []
  | .one => relay.answered = [5, 0] ∨ relay.freed = true ∧
      (relay.answered = [5, 0] ++ [5, 7, 0, 1] ∨ relay.answered = [5, 0] ++ fakeReply settings)
  | .five => relay.answered = [5, 0] ++ fakeReply settings

theorem Answers.frame (answers : Answers settings relay) (unfreed : relay.freed = false)
    (same : next.handshakeFields = relay.handshakeFields) : Answers settings next := by
  simp only [Relay.handshakeFields, Prod.mk.injEq] at same
  obtain ⟨stage, -, -, answered, -, -⟩ := same
  unfold Answers at answers ⊢
  rw [stage, answered]
  rw [unfreed] at answers
  cases at_ : relay.stage with
  | zero => simpa [at_] using answers
  | one =>
      simp only [at_, Bool.false_eq_true, false_and, or_false] at answers
      exact .inl answers
  | five => simpa [at_] using answers

theorem Answers.request {asked : Relay} {more : Bool} (stage : relay.stage = .one)
    (answered : relay.answered = [5, 0])
    (taken : serverRequest settings relay turn = some (asked, more)) : Answers settings asked := by
  unfold serverRequest at taken
  split at taken
  · obtain ⟨rfl, -⟩ := Prod.mk.inj (Option.some.inj taken)
    simp [Answers, closeAndFree, answer, stage, answered]
  · split at taken
    · obtain ⟨rfl, -⟩ := Prod.mk.inj (Option.some.inj taken)
      simp [Answers, closeAndFree, stage, answered]
    · simp at taken
    · dsimp only at taken
      split at taken
      · obtain ⟨rfl, -⟩ := Prod.mk.inj (Option.some.inj taken)
        simp [Answers, closeAndFree, answer, stage, answered]
      · obtain ⟨rfl, -⟩ := Prod.mk.inj (Option.some.inj taken)
        simp [Answers, answer, answered]

theorem answers_step {event : Event} (answers : Answers settings relay)
    (unfreed : relay.freed = false) (taken : step settings relay event = some next) :
    Answers settings next := by
  by_cases hears : ∃ turns, event = .serverRecv turns
  · obtain ⟨turns, rfl⟩ := hears
    simp only [step, Option.ite_none_right_eq_some] at taken
    have begun : relay.stage = .one → relay.answered = [5, 0] := by
      intro one
      simpa [Answers, one, unfreed] using answers
    cases serverRecvCb_heard taken.2 with
    | idle => exact answers
    | forwards five same => exact answers.frame unfreed same
    | ends ending other => exact answers.frame unfreed rfl
    | greets received zero =>
        have nothing : relay.answered = [] := by simpa [Answers, zero] using answers
        simp [Answers, answer, nothing]
    | @closes turn rest chunk _ received one came =>
        have begins : (relay.asking chunk).stage = .one := one
        exact Answers.request begins (begun one) came
    | @opens turn rest chunk asked _ received one came same =>
        have begins : (relay.asking chunk).stage = .one := one
        have opened : Answers settings asked := Answers.request begins (begun one) came
        have five := serverRequest_stage came
        unfold Answers at opened ⊢
        simp only [Relay.handshakeFields, Prod.mk.injEq] at same
        rw [same.1, same.2.2.2.1, five]
        simpa [five] using opened
  · exact answers.frame unfreed (step_handshake taken fun turns same => hears ⟨turns, same⟩).1

/-! ### The address and what follows it -/

/-- What the remote is to be told: nothing until there is a request, and then its address and what
the program has sent behind it. -/
inductive Owed (relay : Relay) : Bytes → Prop where
  | nothing : relay.stage ≠ .five → relay.asked = [] → Owed relay []
  | forwarded {version reserved kind : UInt8} {address : Bytes} : Address kind address →
      relay.asked = [version, 1, reserved, kind] ++ address →
      Owed relay (kind :: address ++ relay.heard)

/-- The program's request is a whole one with an address that can be sent ahead, nothing comes with
it, and the remote's `send` takes the address whole. -/
def Proper (relay : Relay) : Event → Prop
  | .serverRecv (⟨.data chunk, first, _⟩ :: _) => relay.stage = .one →
      ∃ version reserved kind address count, chunk = [version, 1, reserved, kind] ++ address ∧
        Address kind address ∧ Supported kind address ∧
        first = .taken count ∧ address.length < count
  | _ => True

theorem serverRequest_supported {version reserved kind : UInt8} {address rest : Bytes}
    (asked : Address kind address) (supported : Supported kind address)
    (buffered : relay.serverBuf = [version, 1, reserved, kind] ++ address ++ rest) :
    ∃ after more, serverRequest settings relay turn = some (after, more) ∧
      after.greeted = relay.greeted ∧ after.asked = relay.asked ∧ after.heard = relay.heard ∧
      after.answered = relay.answered ++ fakeReply settings ∧ after.header = kind :: address ∧
      after.headerTaken = (turn.first.part (encrypt.code relay.eCtx (kind :: address))).length ∧
      (if (turn.second.part (fakeReply settings)).length < (fakeReply settings).length then
        more = false ∧ after.freed = true
      else more = true ∧ after.stage = .five) := by
  obtain ⟨addr, made, holds⟩ := @addrToSend_supported address version 1 reserved kind asked
    supported rest
  have connects : ¬relay.serverBuf.getD 1 0 ≠ 1 := by simp [buffered]
  rw [← buffered] at made
  simp only [serverRequest, if_neg connects, made, holds.take_len]
  split
  · exact ⟨_, _, rfl, rfl, rfl, rfl, rfl, rfl, rfl, rfl, rfl⟩
  · exact ⟨_, _, rfl, rfl, rfl, rfl, rfl, rfl, rfl, rfl, rfl⟩

inductive Sends (relay : Relay) : Prop where
  | before : relay.stage ≠ .five → relay.asked = [] → relay.header = [] → relay.headerTaken = 0 →
      relay.heard = [] → Sends relay
  | behind {version reserved kind : UInt8} {address : Bytes} :
      relay.stage = .five ∨ relay.freed = true → Address kind address →
      relay.asked = [version, 1, reserved, kind] ++ address → relay.header = kind :: address →
      relay.headerTaken = relay.header.length → Sends relay

theorem Sends.frame (sends : Sends relay) (unfreed : relay.freed = false)
    (same : next.handshakeFields = relay.handshakeFields)
    (silent : relay.stage ≠ .five → next.heard = relay.heard) : Sends next := by
  simp only [Relay.handshakeFields, Prod.mk.injEq] at same
  obtain ⟨stage, -, asked, -, header, headerTaken⟩ := same
  cases sends with
  | before other unasked none noneTaken unheard =>
      exact .before (stage ▸ other) (asked.trans unasked) (header.trans none)
        (headerTaken.trans noneTaken) ((silent other).trans unheard)
  | behind begun whole text sent all =>
      have five : relay.stage = .five := begun.resolve_right (by simp [unfreed])
      exact .behind (.inl (stage.trans five)) whole (asked.trans text) (header.trans sent)
        (by rw [headerTaken, header, all])

theorem Sends.request {asked : Relay} {more : Bool} {rest : List Turn} (sends : Sends relay)
    (one : relay.stage = .one) (unfreed : relay.freed = false)
    (received : turn.received = .data chunk) (proper : Proper relay (.serverRecv (turn :: rest)))
    (taken : serverRequest settings (relay.asking chunk) turn = some (asked, more)) :
    Sends asked := by
  obtain ⟨_, first, second⟩ := turn
  obtain rfl : _ = _ := received
  obtain ⟨version, reserved, kind, address, count, rfl, whole, supported, rfl, enough⟩ := proper one
  have unasked : relay.asked = [] := by
    cases sends with
    | before _ unasked => exact unasked
    | behind begun =>
        rcases begun with five | freed
        · simp [one] at five
        · simp [unfreed] at freed
  have buffered : (relay.asking ([version, 1, reserved, kind] ++ address)).serverBuf =
      [version, 1, reserved, kind] ++ address ++
        relay.serverBuf.drop ([version, 1, reserved, kind] ++ address).length := rfl
  obtain ⟨after, goes, requested, -, text, -, -, header, headerTaken, ends⟩ :=
    @serverRequest_supported settings _ _ version reserved kind address _ whole supported buffered
  obtain ⟨rfl, rfl⟩ := Prod.mk.inj (Option.some.inj (taken.symm.trans requested))
  have told : asked.asked = [version, 1, reserved, kind] ++ address := by
    rw [text, Relay.asking, unasked]
    rfl
  refine .behind ?_ whole told header ?_
  · split at ends
    · exact .inr ends.2
    · exact .inl ends.2
  · rw [headerTaken, header]
    simp only [Sent.part, List.length_take, StreamCoder.length_code, List.length_cons]
    omega

theorem sends_step {event : Event} (sends : Sends relay) (unfreed : relay.freed = false)
    (proper : Proper relay event) (taken : step settings relay event = some next) : Sends next := by
  by_cases hears : ∃ turns, event = .serverRecv turns
  · obtain ⟨turns, rfl⟩ := hears
    simp only [step, Option.ite_none_right_eq_some] at taken
    cases serverRecvCb_heard taken.2 with
    | idle => exact sends
    | forwards five same => exact sends.frame unfreed same fun other => absurd five other
    | ends ending other => exact sends.frame unfreed rfl fun _ => rfl
    | greets received zero =>
        cases sends with
        | before _ unasked none noneTaken unheard =>
            exact .before (by simp [answer]) unasked none noneTaken unheard
        | behind begun =>
            rcases begun with five | freed
            · simp [zero] at five
            · simp [unfreed] at freed
    | closes received one came => exact sends.request one unfreed received proper came
    | opens received one came same =>
        have opened := sends.request one unfreed received proper came
        have five := serverRequest_stage came
        simp only [Relay.handshakeFields, Prod.mk.injEq] at same
        obtain ⟨stage, -, asked, -, header, headerTaken⟩ := same
        cases opened with
        | before other => exact absurd five other
        | behind begun whole text sent all =>
            exact .behind (.inl (stage.trans five)) whole (asked.trans text) (header.trans sent)
              (by rw [headerTaken, header, all])
  · obtain ⟨same, heard⟩ := step_handshake taken fun turns same => hears ⟨turns, same⟩
    exact sends.frame unfreed same fun _ => heard

section Runs

variable {events : List Event} {final : Relay} {serverBuf remoteBuf : Bytes}

theorem run_answers (serverRoom : serverBuf.length = bufSize) (remoteRoom : remoteBuf.length = bufSize)
    (ran : run (step settings) events (accepted ctx serverBuf remoteBuf) = some final) :
    Answers settings final := by
  refine (run_invariant (fun relay => (Live False ctx relay ∨ Over False ctx relay) ∧
    Answers settings relay) ?_ ⟨.inl (live_accepted False ctx serverRoom remoteRoom), rfl⟩ ran).2
  rintro relay event next ⟨live | past, answers⟩ taken
  · exact ⟨step_live live False.elim taken, answers_step answers live.unfreed taken⟩
  · rw [step_over past] at taken
    exact absurd taken (by simp)

theorem run_sends (serverRoom : serverBuf.length = bufSize) (remoteRoom : remoteBuf.length = bufSize)
    (proper : Along (step settings) Proper events (accepted ctx serverBuf remoteBuf))
    (ran : run (step settings) events (accepted ctx serverBuf remoteBuf) = some final) :
    Sends final := by
  refine (run_invariant_along (fun relay => (Live False ctx relay ∨ Over False ctx relay) ∧
    Sends relay) ?_ ⟨.inl (live_accepted False ctx serverRoom remoteRoom),
      .before (by simp [accepted]) rfl rfl rfl rfl⟩ proper ran).2
  rintro relay event next ⟨live | past, sends⟩ proper taken
  · exact ⟨step_live live False.elim taken, sends_step sends live.unfreed proper taken⟩
  · rw [step_over past] at taken
    exact absurd taken (by simp)

theorem code_spoken (whole : relay.headerTaken = relay.header.length) :
    relay.spoken ctx = encrypt.code ctx (relay.header ++ relay.heard) := by
  rw [Relay.spoken, whole, List.take_of_length_le (by simp), StreamCoder.code_append]

theorem decrypt_sent (paired : Paired ctx ctx) {text sent rest : Bytes}
    (split : sent ++ rest = encrypt.code ctx text) :
    decrypt.code ctx sent = text.take sent.length := by
  have whole := decrypt_undoes.code text paired
  rw [← split, StreamCoder.code_append] at whole
  rw [← whole, List.take_left' (decrypt.length_code _ _)]

theorem length_unsent (relay : Relay) : relay.unsent.length ≤ relay.remoteLen := by
  unfold Relay.unsent
  split
  · simp only [List.length_take]
    omega
  · exact Nat.zero_le _

/-- What is held back for the remote is all that it does not have yet. -/
theorem held_of_run (paired : Paired ctx ctx) (serverRoom : serverBuf.length = bufSize)
    (remoteRoom : remoteBuf.length = bufSize)
    (ran : run (step settings) events (accepted ctx serverBuf remoteBuf) = some final)
    (whole : final.headerTaken = final.header.length) :
    ∃ missing, decrypt.code ctx final.toRemote ++ missing = final.header ++ final.heard ∧
      (final.freed = false → missing.length ≤ bufSize) ∧
      (final.serverRecv = true ∨ final.ending = some .serverClosed → missing = []) := by
  refine ⟨(final.header ++ final.heard).drop final.toRemote.length, ?_, ?_⟩
  · have ahead : final.toRemote <+: encrypt.code ctx (final.header ++ final.heard) := by
      rw [← code_spoken whole]
      rcases run_live serverRoom remoteRoom ran with live | past
      · exact live.upward.ahead
      · exact past.ahead
    obtain ⟨rest, split⟩ := ahead
    rw [decrypt_sent paired split, List.take_append_drop]
  · rcases run_live serverRoom remoteRoom ran with live | past
    · have sizes := congrArg List.length live.upward.spoken
      rw [code_spoken whole, StreamCoder.length_code, List.length_append] at sizes
      refine ⟨fun _ => ?_, fun reads => ?_⟩
      · have bound : final.unsent.length ≤ bufSize := by
          by_cases sending : final.connected = true ∧ final.remoteSend = true
          · exact (length_unsent final).trans (live.upward.held sending.1 sending.2).2.1
          · simp [Relay.unsent, sending]
        rw [List.length_drop]
        omega
      · have reading : final.serverRecv = true := by simpa [live.unended] using reads
        have sent := congrArg List.length (live.idle_up reading).2
        rw [code_spoken whole, StreamCoder.length_code] at sent
        exact List.drop_eq_nil_of_le (by omega)
    · refine ⟨fun unfreed => by simp [past.freed] at unfreed, fun closed => ?_⟩
      have ended : final.ending = some .serverClosed := by simpa [past.still.1] using closed
      have sent := congrArg List.length (past.spoken ended)
      rw [code_spoken whole, StreamCoder.length_code] at sent
      exact List.drop_eq_nil_of_le (by omega)

/-- The remote decrypts the address of the request and then what the program has sent behind it, in
order and once.  What it does not have yet is what is held back for it, and that is nothing while the
program is read and when the program has closed the connection. -/
theorem forwards_in_order (made : newCtx settings.method settings.hash = some ctx)
    (serverRoom : serverBuf.length = bufSize) (remoteRoom : remoteBuf.length = bufSize)
    (proper : Along (step settings) Proper events (accepted ctx serverBuf remoteBuf))
    (ran : run (step settings) events (accepted ctx serverBuf remoteBuf) = some final) :
    ∃ owed missing, Owed final owed ∧ decrypt.code ctx final.toRemote ++ missing = owed ∧
      (final.freed = false → missing.length ≤ bufSize) ∧
      (final.serverRecv = true ∨ final.ending = some .serverClosed → missing = []) := by
  obtain ⟨_, sameCtx, paired⟩ := newCtx_paired settings.method settings.hash
  obtain rfl := Option.some.inj (made.symm.trans sameCtx)
  cases run_sends serverRoom remoteRoom proper ran with
  | before other unasked none noneTaken unheard =>
      obtain ⟨missing, whole, held⟩ := held_of_run paired serverRoom remoteRoom ran
        (by rw [none, noneTaken]; rfl)
      rw [none, unheard] at whole
      exact ⟨[], missing, .nothing other unasked, whole, held⟩
  | behind begun asked text header all =>
      obtain ⟨missing, whole, held⟩ := held_of_run paired serverRoom remoteRoom ran all
      rw [header] at whole
      exact ⟨_, missing, .forwarded asked text, whole, held⟩

theorem forwards_in_order_held :
    ∃ final, run (step rc4Settings) heldRun rc4Accepted = some final ∧
      ∃ owed missing, Owed final owed ∧
        decrypt.code (.rc4 (rc4SetKey [1, 2, 3])) final.toRemote ++ missing = owed ∧
        (final.freed = false → missing.length ≤ bufSize) ∧
        (final.serverRecv = true ∨ final.ending = some .serverClosed → missing = []) := by
  have goes : (run (step rc4Settings) heldRun rc4Accepted).isSome = true := by
    decide +kernel
  obtain ⟨final, ran⟩ := Option.isSome_iff_exists.mp goes
  have five : (run (step rc4Settings) handshake rc4Accepted).all (fun later =>
      decide (later.stage = .five)) = true := by
    decide +kernel
  have proper : Along (step rc4Settings) Proper heldRun rc4Accepted := by
    refine along_concat ⟨trivial, fun started taken => ⟨?_, fun _ _ => ⟨?_, fun _ _ => trivial⟩⟩⟩ ?_
    · obtain rfl := Option.some.inj taken
      exact fun one => absurd one (by decide)
    · exact fun _ => ⟨5, 0, 1, [10, 0, 0, 1, 0, 80], bufSize, rfl, .ipv4 rfl, .inl rfl, rfl, by decide⟩
    · intro later taken one
      rw [taken, Option.all_some, decide_eq_true_eq, one] at five
      cases five
  have room : (List.replicate bufSize (0 : UInt8)).length = bufSize := List.length_replicate ..
  exact ⟨final, ran, forwards_in_order rfl room room proper ran⟩

def answeredRun : List Event :=
  handshake ++ [.remoteRecv [.whole (encrypt.code (.rc4 (rc4SetKey [1, 2, 3])) [104, 105])]]

end Runs

end ProxySet.Shadowsocks
