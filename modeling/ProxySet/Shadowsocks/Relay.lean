import ProxySet.Lib.StepRun
import ProxySet.Shadowsocks.Cipher
import ProxySet.Shadowsocks.Request

/-!
What passes through a connection of `local.c`.  Either direction holds back at most
one buffer, reads nothing while it does, and hands on every byte once and in order.
-/

namespace ProxySet.Shadowsocks

open StepRun

variable {patient : Prop} {settings : Settings} {ctx : Ctx} {relay : Relay} {turn : Turn}
  {turns : List Turn} {buf data chunk : Bytes} {length count : Nat} {ending : Ending}

theorem take_overwrite (buf data : Bytes) : (overwrite buf data).take data.length = data := by
  simp [overwrite]

theorem length_overwrite (fits : data.length ≤ buf.length) :
    (overwrite buf data).length = buf.length := by
  simp [overwrite, fits]

theorem length_moveFront (fits : length ≤ buf.length) :
    (moveFront buf length count).length = buf.length := by
  refine length_overwrite ?_
  simp only [List.length_drop, List.length_take]
  omega

theorem take_moveFront (fits : length ≤ buf.length) :
    (moveFront buf length count).take (length - count) = (buf.take length).drop count := by
  have size : ((buf.take length).drop count).length = length - count := by
    simp only [List.length_drop, List.length_take]
    omega
  rw [← size]
  exact take_overwrite _ _

theorem take_append_moveFront (fits : length ≤ buf.length) (count : Nat) :
    (buf.take length).take count ++ (moveFront buf length count).take (length - count) =
      buf.take length := by
  rw [take_moveFront fits, List.take_append_drop]

def Relay.unsent (relay : Relay) : Bytes :=
  if relay.connected && relay.remoteSend then relay.remoteBuf.take relay.remoteLen else []

def Relay.unserved (relay : Relay) : Bytes :=
  if relay.serverSend then relay.serverBuf.take relay.serverLen else []

/-- What the remote is to get: of the address what its `send` has taken, and all that follows. -/
def Relay.spoken (ctx : Ctx) (relay : Relay) : Bytes :=
  (encrypt.code ctx relay.header).take relay.headerTaken ++
    encrypt.code (encrypt.after ctx relay.header) relay.heard

def Relay.served (ctx : Ctx) (relay : Relay) : Bytes :=
  relay.answered ++ decrypt.code ctx relay.told

structure Upward (ctx : Ctx) (relay : Relay) : Prop where
  eCtx : relay.eCtx = encrypt.after ctx (relay.header ++ relay.heard)
  room : relay.remoteBuf.length = bufSize
  unasked : relay.stage ≠ .five →
    relay.header = [] ∧ relay.headerTaken = 0 ∧ relay.heard = [] ∧ relay.toRemote = []
  reads : relay.connected = true → relay.serverRecv = !relay.remoteSend
  held : relay.connected = true → relay.remoteSend = true →
    0 < relay.remoteLen ∧ relay.remoteLen ≤ bufSize ∧ relay.stage = .five
  spoken : relay.toRemote ++ relay.unsent = relay.spoken ctx

/-- `patient` says that the remote is silent until it has been spoken to, and that the program takes
the first answer whole. -/
structure Downward (patient : Prop) (ctx : Ctx) (relay : Relay) : Prop where
  dCtx : relay.dCtx = decrypt.after ctx relay.told
  room : relay.serverBuf.length = bufSize
  hears : relay.connected = true → relay.remoteRecv = !relay.serverSend
  held : relay.serverSend = true → 0 < relay.serverLen ∧ relay.serverLen ≤ bufSize
  silent : patient → relay.stage ≠ .five → relay.told = [] ∧ relay.serverSend = false
  served : patient → relay.toServer ++ relay.unserved = relay.served ctx

/-- Before the remote is connected, only that and its timer are waited for. -/
structure Waiting (relay : Relay) : Prop where
  stage : relay.stage = .zero
  serverRecv : relay.serverRecv = false
  serverSend : relay.serverSend = false
  remoteRecv : relay.remoteRecv = false
  remoteSend : relay.remoteSend = true
  timer : relay.timer = true

structure Live (patient : Prop) (ctx : Ctx) (relay : Relay) : Prop where
  upward : Upward ctx relay
  downward : Downward patient ctx relay
  unfreed : relay.freed = false
  unended : relay.ending = none
  waiting : relay.connected = false → Waiting relay
  timer : relay.connected = true → relay.timer = false

structure Over (patient : Prop) (ctx : Ctx) (relay : Relay) : Prop where
  freed : relay.freed = true
  still : relay.serverRecv = false ∧ relay.serverSend = false ∧ relay.remoteRecv = false ∧
    relay.remoteSend = false ∧ relay.timer = false
  ahead : relay.toRemote <+: relay.spoken ctx
  spoken : relay.ending = some .serverClosed → relay.toRemote = relay.spoken ctx
  behind : patient → relay.toServer <+: relay.served ctx
  served : patient → relay.ending = some .remoteClosed → relay.toServer = relay.served ctx

def Relay.downFields (relay : Relay) :=
  ((relay.stage, relay.connected, relay.dCtx, relay.told, relay.answered, relay.toServer),
    relay.serverBuf, relay.serverLen, relay.serverSend, relay.remoteRecv)

def Relay.upFields (relay : Relay) :=
  ((relay.stage, relay.connected, relay.eCtx, relay.header, relay.headerTaken, relay.heard),
    relay.toRemote, relay.remoteBuf, relay.remoteLen, relay.remoteSend, relay.serverRecv)

theorem Downward.frame {next : Relay} (downward : Downward patient ctx relay)
    (same : next.downFields = relay.downFields) : Downward patient ctx next := by
  simp only [Relay.downFields, Prod.mk.injEq] at same
  obtain ⟨⟨stage, connected, dCtx, told, answered, toServer⟩, serverBuf, serverLen, serverSend,
    remoteRecv⟩ := same
  have unserved : next.unserved = relay.unserved := by
    rw [Relay.unserved, Relay.unserved, serverSend, serverBuf, serverLen]
  have served : next.served ctx = relay.served ctx := by rw [Relay.served, Relay.served, answered, told]
  refine ⟨?_, ?_, ?_, ?_, ?_, ?_⟩
  · rw [dCtx, told, downward.dCtx]
  · rw [serverBuf, downward.room]
  · rw [connected, remoteRecv, serverSend]
    exact downward.hears
  · rw [serverSend, serverLen]
    exact downward.held
  · rw [stage, told, serverSend]
    exact downward.silent
  · rw [toServer, unserved, served]
    exact downward.served

theorem Upward.frame {next : Relay} (upward : Upward ctx relay)
    (same : next.upFields = relay.upFields) : Upward ctx next := by
  simp only [Relay.upFields, Prod.mk.injEq] at same
  obtain ⟨⟨stage, connected, eCtx, header, headerTaken, heard⟩, toRemote, remoteBuf, remoteLen,
    remoteSend, serverRecv⟩ := same
  have unsent : next.unsent = relay.unsent := by
    rw [Relay.unsent, Relay.unsent, connected, remoteSend, remoteBuf, remoteLen]
  have spoken : next.spoken ctx = relay.spoken ctx := by
    rw [Relay.spoken, Relay.spoken, header, headerTaken, heard]
  refine ⟨?_, ?_, ?_, ?_, ?_, ?_⟩
  · rw [eCtx, header, heard, upward.eCtx]
  · rw [remoteBuf, upward.room]
  · rw [stage, header, headerTaken, heard, toRemote]
    exact upward.unasked
  · rw [connected, serverRecv, remoteSend]
    exact upward.reads
  · rw [connected, remoteSend, remoteLen, stage]
    exact upward.held
  · rw [toRemote, unsent, spoken, upward.spoken]

theorem waiting_of_connected {next : Relay} (connected : next.connected = true)
    (unconnected : next.connected = false) : Waiting next := by
  simp [connected] at unconnected

section Callbacks

theorem over_close (ahead : relay.toRemote <+: relay.spoken ctx)
    (spoken : ending = .serverClosed → relay.toRemote = relay.spoken ctx)
    (behind : patient → relay.toServer <+: relay.served ctx)
    (served : patient → ending = .remoteClosed → relay.toServer = relay.served ctx) :
    Over patient ctx (closeAndFree ending relay) :=
  ⟨rfl, ⟨rfl, rfl, rfl, rfl, rfl⟩, ahead, fun closed => spoken (Option.some.inj closed), behind,
    fun waited closed => served waited (Option.some.inj closed)⟩

theorem Upward.ahead (upward : Upward ctx relay) : relay.toRemote <+: relay.spoken ctx :=
  ⟨relay.unsent, upward.spoken⟩

theorem Downward.behind (downward : Downward patient ctx relay) (waited : patient) :
    relay.toServer <+: relay.served ctx :=
  ⟨relay.unserved, downward.served waited⟩

theorem Live.close (live : Live patient ctx relay) : Over patient ctx (closeAndFree .otherwise relay) :=
  over_close live.upward.ahead nofun live.downward.behind nofun

theorem Live.connected (live : Live patient ctx relay)
    (started : relay.serverRecv = true ∨ relay.serverSend = true ∨ relay.remoteRecv = true) :
    relay.connected = true := by
  by_contra unconnected
  have waiting := live.waiting (by simpa using unconnected)
  simp [waiting.serverRecv, waiting.serverSend, waiting.remoteRecv] at started

theorem Live.idle_up (live : Live patient ctx relay) (reading : relay.serverRecv = true) :
    relay.remoteSend = false ∧ relay.toRemote = relay.spoken ctx := by
  have reads := live.upward.reads (live.connected (.inl reading))
  have idle : relay.remoteSend = false := by simpa [reading] using reads
  have spoken := live.upward.spoken
  rw [Relay.unsent, idle, Bool.and_false] at spoken
  exact ⟨idle, by simpa using spoken⟩

theorem Live.idle_down (live : Live patient ctx relay) (reading : relay.remoteRecv = true) :
    relay.serverSend = false ∧ (patient → relay.toServer = relay.served ctx) := by
  have hears := live.downward.hears (live.connected (.inr (.inr reading)))
  have idle : relay.serverSend = false := by simpa [reading] using hears
  refine ⟨idle, fun waited => ?_⟩
  have served := live.downward.served waited
  rw [Relay.unserved, idle] at served
  simpa using served

inductive Outcome (patient : Prop) (ctx : Ctx) (reading : Relay → Prop) : Relay × Bool → Prop where
  | goes {next : Relay} : Live patient ctx next → reading next →
      Outcome patient ctx reading (next, true)
  | stops {next : Relay} : Live patient ctx next → Outcome patient ctx reading (next, false)
  | past {next : Relay} : Over patient ctx next → Outcome patient ctx reading (next, false)

theorem recvLoop_head {turnOf : Relay → Turn → Option (Relay × Bool)} {reading : Relay → Prop}
    {next : Relay}
    (head : ∀ result, turnOf relay turn = some result → Outcome patient ctx reading result)
    (outcome : ∀ relay turn result, Live patient ctx relay → reading relay → turn.fits = true →
      turnOf relay turn = some result → Outcome patient ctx reading result)
    (fit : turns.all Turn.fits = true) (ran : recvLoop turnOf (turn :: turns) relay = some next) :
    Live patient ctx next ∨ Over patient ctx next := by
  induction turns generalizing relay turn with
  | nil =>
      rw [recvLoop] at ran
      split at ran
      · simp at ran
      · next after more taken =>
        have came := head _ taken
        have same : after = next := by
          split at ran
          · exact Option.some.inj ran
          · exact Option.some.inj ran
        subst same
        cases came with
        | goes live started => exact .inl live
        | stops live => exact .inl live
        | past past => exact .inr past
  | cons later rest ih =>
      simp only [List.all_cons, Bool.and_eq_true] at fit
      rw [recvLoop] at ran
      split at ran
      · simp at ran
      · next after more taken =>
        cases head _ taken with
        | goes live started =>
            exact ih (fun result taken => outcome _ _ _ live started fit.1 taken) fit.2 ran
        | stops live => exact .inl (Option.some.inj ran ▸ live)
        | past past => exact .inr (Option.some.inj ran ▸ past)

/-- What has been read and encrypted is what the remote is to get next. -/
theorem spoken_heard (upward : Upward ctx relay) (chunk : Bytes) :
    Relay.spoken ctx { relay with heard := relay.heard ++ chunk } =
      relay.spoken ctx ++ encrypt.code relay.eCtx chunk := by
  simp only [Relay.spoken, StreamCoder.code_append, upward.eCtx, StreamCoder.after_append,
    List.append_assoc]

theorem served_told (downward : Downward patient ctx relay) (chunk : Bytes) :
    Relay.served ctx { relay with told := relay.told ++ chunk } =
      relay.served ctx ++ decrypt.code relay.dCtx chunk := by
  simp only [Relay.served, StreamCoder.code_append, downward.dCtx, List.append_assoc]

theorem serverForward_outcome {sent : Sent} (live : Live patient ctx relay)
    (reading : relay.serverRecv = true) (five : relay.stage = .five) (filled : chunk ≠ [])
    (fits : chunk.length ≤ bufSize) :
    Outcome patient ctx (fun next => next.serverRecv = true ∧ next.stage = .five)
      (serverForward relay chunk sent) := by
  obtain ⟨idle, whole⟩ := live.idle_up reading
  have connected := live.connected (.inl reading)
  have positive : 0 < chunk.length := List.length_pos_iff.mpr filled
  have size : (encrypt.code relay.eCtx chunk).length = chunk.length := encrypt.length_code _ _
  have room : (encrypt.code relay.eCtx chunk).length ≤ relay.remoteBuf.length := by
    rw [size, live.upward.room]
    exact fits
  have within : chunk.length ≤ (overwrite relay.remoteBuf (encrypt.code relay.eCtx chunk)).length := by
    rw [length_overwrite room, live.upward.room]
    exact fits
  have stored : (overwrite relay.remoteBuf (encrypt.code relay.eCtx chunk)).take chunk.length =
      encrypt.code relay.eCtx chunk := by
    rw [← size]
    exact take_overwrite _ _
  have context : encrypt.after relay.eCtx chunk =
      encrypt.after ctx (relay.header ++ (relay.heard ++ chunk)) := by
    rw [live.upward.eCtx, ← List.append_assoc, ← StreamCoder.after_append]
  have spoken := spoken_heard live.upward chunk
  rw [← whole] at spoken
  have asked : relay.stage ≠ .five → False := fun other => other five
  unfold serverForward
  dsimp only
  cases sent with
  | again =>
      dsimp only
      refine .stops ⟨⟨context, ?_, fun other => (asked other).elim, fun _ => rfl,
        fun _ _ => ⟨positive, fits, five⟩, ?_⟩, live.downward.frame rfl, live.unfreed, live.unended,
        waiting_of_connected connected, live.timer⟩
      · rw [length_overwrite room, live.upward.room]
      · simp only [Relay.unsent, connected, Bool.and_self, ↓reduceIte, stored]
        exact spoken.symm
  | failed =>
      dsimp only
      refine .past (over_close ?_ nofun live.downward.behind nofun)
      exact ⟨encrypt.code relay.eCtx chunk, spoken.symm⟩
  | taken count =>
      dsimp only
      split
      · next short =>
        refine .stops ⟨⟨context, ?_, fun other => (asked other).elim, fun _ => rfl,
          fun _ _ => ⟨by simp only; omega, by simp only; omega, five⟩, ?_⟩,
          live.downward.frame rfl, live.unfreed, live.unended, waiting_of_connected connected, live.timer⟩
        · rw [length_moveFront within, length_overwrite room, live.upward.room]
        · have parts := take_append_moveFront within count
          rw [stored] at parts
          simp only [Relay.unsent, connected, Bool.and_self, ↓reduceIte, List.append_assoc]
          rw [parts]
          exact spoken.symm
      · refine .goes ⟨⟨context, ?_, fun other => (asked other).elim, live.upward.reads,
          fun _ sending => absurd idle (by simp [show relay.remoteSend = true from sending]), ?_⟩,
          live.downward.frame rfl, live.unfreed, live.unended, waiting_of_connected connected,
          live.timer⟩ ⟨reading, five⟩
        · rw [length_overwrite room, live.upward.room]
        · simp only [Relay.unsent, idle, Bool.and_false, Bool.false_eq_true, ↓reduceIte,
            List.append_nil]
          exact spoken.symm

theorem take_length_part (sent : Sent) (message : Bytes) :
    message.take (sent.part message).length = sent.part message := by
  cases sent with
  | taken count => simp [Sent.part]
  | again => rfl
  | failed => rfl

theorem part_begins (sent : Sent) (message : Bytes) : sent.part message <+: message := by
  cases sent with
  | taken count => exact List.take_prefix _ _
  | again => exact List.nil_prefix
  | failed => exact List.nil_prefix

theorem part_whole {sent : Sent} {message : Bytes}
    (enough : ¬(sent.part message).length < message.length) : sent.part message = message :=
  (part_begins sent message).eq_of_length_le (Nat.le_of_not_lt enough)

/-- The SOCKS server answers before anything of the remote is served. -/
theorem Downward.unanswered (downward : Downward patient ctx relay) (unasked : relay.stage ≠ .five)
    (waited : patient) : relay.told = [] ∧ relay.serverSend = false ∧
      relay.toServer = relay.answered := by
  obtain ⟨untold, unserving⟩ := downward.silent waited unasked
  have served := downward.served waited
  rw [Relay.unserved, unserving, Relay.served, untold] at served
  exact ⟨untold, unserving, by simpa using served⟩

theorem Downward.answer {message : Bytes} (downward : Downward patient ctx relay) (sent : Sent)
    (unasked : relay.stage ≠ .five) (room : buf.length = bufSize)
    (taken : patient → sent.part message = message) :
    Downward patient ctx (Shadowsocks.answer { relay with serverBuf := buf } message sent) := by
  refine ⟨downward.dCtx, room, downward.hears, downward.held, downward.silent, fun waited => ?_⟩
  obtain ⟨untold, unserving, same⟩ := downward.unanswered unasked waited
  simp [Shadowsocks.answer, Relay.unserved, Relay.served, unserving, untold, same, taken waited]

/-- The last answer of a connection that is closed may be taken in part. -/
theorem Downward.answer_behind {message : Bytes} {sent : Sent}
    (downward : Downward patient ctx relay) (unasked : relay.stage ≠ .five) (waited : patient) :
    relay.toServer ++ sent.part message <+: relay.answered ++ message ++ decrypt.code ctx relay.told := by
  obtain ⟨untold, -, same⟩ := downward.unanswered unasked waited
  rw [same, untold, StreamCoder.code_nil, List.append_nil]
  exact (List.prefix_append_right_inj _).mpr (part_begins sent message)

theorem Downward.restage (downward : Downward patient ctx relay) (unasked : relay.stage ≠ .five)
    (stage : Stage) : Downward patient ctx { relay with stage := stage } :=
  ⟨downward.dCtx, downward.room, downward.hears, downward.held,
    fun waited _ => downward.silent waited unasked, downward.served⟩

theorem serverRequest_outcome {result : Relay × Bool} (live : Live patient ctx relay)
    (reading : relay.serverRecv = true) (unasked : relay.stage ≠ .five)
    (taken : serverRequest settings relay turn = some result) :
    Outcome patient ctx (fun next => next.serverRecv = true ∧ next.stage = .five) result := by
  obtain ⟨idle, whole⟩ := live.idle_up reading
  have connected := live.connected (.inl reading)
  unfold serverRequest at taken
  split at taken
  · obtain rfl := Option.some.inj taken
    refine .past (over_close live.upward.ahead nofun (fun waited => ?_) nofun)
    exact live.downward.answer_behind unasked waited
  · split at taken
    · obtain rfl := Option.some.inj taken
      exact .past live.close
    · simp at taken
    · next addr found =>
      dsimp only at taken
      obtain ⟨noHeader, noTaken, noHeard, unsaid⟩ := live.upward.unasked unasked
      have begun : relay.eCtx = ctx := by
        rw [live.upward.eCtx, noHeader, noHeard]
        rfl
      have room : (overwrite relay.serverBuf (fakeReply settings)).length = bufSize := by
        rw [length_overwrite (by rw [live.downward.room]; simp [fakeReply, bufSize]),
          live.downward.room]
      split at taken
      · obtain rfl := Option.some.inj taken
        refine .past (over_close ?_ nofun (fun waited => ?_) nofun)
        · simp [answer, Relay.spoken, unsaid, noHeard, begun, take_length_part]
        · exact live.downward.answer_behind unasked waited
      · next enough =>
        obtain rfl := Option.some.inj taken
        have replied := (live.downward.answer _ unasked room fun _ => part_whole enough).restage
          unasked .five
        refine .goes ⟨⟨?_, live.upward.room, fun other => absurd rfl other, live.upward.reads,
          fun _ sending => absurd idle (by simp [show relay.remoteSend = true from sending]), ?_⟩,
          replied.frame rfl, live.unfreed, live.unended,
          waiting_of_connected connected, live.timer⟩ ⟨reading, rfl⟩
        · simp [answer, noHeard, begun]
        · simp [answer, Relay.spoken, Relay.unsent, idle, unsaid, noHeard, begun, take_length_part]

theorem serverRecvTurn_outcome {result : Relay × Bool} (live : Live patient ctx relay)
    (reading : relay.serverRecv = true) (fits : turn.fits = true)
    (greeted : patient → ∀ chunk, turn.received = .data chunk → relay.stage = .zero →
      turn.first.part [5, 0] = [5, 0])
    (taken : serverRecvTurn settings relay turn = some result) :
    Outcome patient ctx (fun next => next.serverRecv = true ∧ next.stage = .five) result := by
  obtain ⟨idle, whole⟩ := live.idle_up reading
  have connected := live.connected (.inl reading)
  unfold serverRecvTurn at taken
  cases received : turn.received with
  | closed =>
      simp only [received] at taken
      obtain rfl := Option.some.inj taken
      exact .past (over_close live.upward.ahead (fun _ => whole) live.downward.behind nofun)
  | failed =>
      simp only [received] at taken
      obtain rfl := Option.some.inj taken
      exact .past live.close
  | data chunk =>
      simp only [received] at taken
      simp only [Turn.fits, received, Bool.and_eq_true, Bool.not_eq_true', List.isEmpty_eq_false_iff,
        decide_eq_true_eq] at fits
      have room : (overwrite relay.serverBuf chunk).length = bufSize := by
        rw [length_overwrite (by rw [live.downward.room]; exact fits.2), live.downward.room]
      split at taken
      · next five =>
        obtain rfl := Option.some.inj taken
        exact serverForward_outcome live reading five fits.1 fits.2
      · next unasked =>
        split at taken
        · next zero =>
          obtain rfl := Option.some.inj taken
          have answered := live.downward.answer turn.first unasked room fun waited =>
            greeted waited chunk received zero
          refine .stops ⟨⟨live.upward.eCtx, live.upward.room,
            fun _ => live.upward.unasked unasked, live.upward.reads,
            fun _ sending => absurd idle (by simp [show relay.remoteSend = true from sending]),
            live.upward.spoken⟩, (answered.restage unasked .one).frame rfl, live.unfreed,
            live.unended, waiting_of_connected connected, live.timer⟩
        · have stored : Downward patient ctx { relay with
              serverBuf := overwrite relay.serverBuf chunk
              asked := relay.asked ++ chunk } := by
            refine ⟨live.downward.dCtx, room, live.downward.hears, live.downward.held,
              live.downward.silent, fun waited => ?_⟩
            obtain ⟨untold, unserving, same⟩ := live.downward.unanswered unasked waited
            simp [Relay.unserved, Relay.served, unserving, untold, same]
          have filled : Live patient ctx { relay with
              serverBuf := overwrite relay.serverBuf chunk
              asked := relay.asked ++ chunk } :=
            ⟨live.upward.frame rfl, stored, live.unfreed, live.unended,
              waiting_of_connected connected, live.timer⟩
          exact serverRequest_outcome filled reading unasked taken

theorem serverSendCb_outcome {sent : Sent} (live : Live patient ctx relay)
    (sending : relay.serverSend = true) :
    Live patient ctx (serverSendCb relay sent) ∨ Over patient ctx (serverSendCb relay sent) := by
  have connected := live.connected (.inr (.inl sending))
  obtain ⟨positive, fits⟩ := live.downward.held sending
  have five : patient → relay.stage = .five := by
    intro waited
    by_contra unasked
    simp [(live.downward.silent waited unasked).2] at sending
  have within : relay.serverLen ≤ relay.serverBuf.length := by
    rw [live.downward.room]
    exact fits
  unfold serverSendCb
  rw [if_neg (by omega)]
  cases sent with
  | again => exact .inl live
  | failed => exact .inr live.close
  | taken count =>
      dsimp only
      split
      · next short =>
        refine .inl ⟨live.upward.frame rfl, ⟨live.downward.dCtx, ?_, live.downward.hears,
          fun _ => ⟨by simp only; omega, by simp only; omega⟩, live.downward.silent, fun waited => ?_⟩,
          live.unfreed, live.unended, waiting_of_connected connected, live.timer⟩
        · rw [length_moveFront within, live.downward.room]
        · have served := live.downward.served waited
          rw [Relay.unserved, if_pos sending, ← take_append_moveFront within count] at served
          simpa [Relay.unserved, Relay.served, sending] using served
      · next enough =>
        refine .inl ⟨live.upward.frame rfl, ⟨live.downward.dCtx, live.downward.room, fun _ => rfl,
          nofun, fun waited other => absurd (five waited) other, fun waited => ?_⟩,
          live.unfreed, live.unended, waiting_of_connected connected, live.timer⟩
        have served := live.downward.served waited
        rw [Relay.unserved, if_pos sending] at served
        have all : (relay.serverBuf.take relay.serverLen).take count =
            relay.serverBuf.take relay.serverLen := by
          refine List.take_of_length_le ?_
          simp only [List.length_take]
          omega
        simpa [Relay.unserved, Relay.served, all] using served

theorem remoteRecvTurn_outcome (live : Live patient ctx relay) (reading : relay.remoteRecv = true)
    (asked : patient → relay.stage = .five) (fits : turn.fits = true) :
    Outcome patient ctx (fun next => next.remoteRecv = true ∧ (patient → next.stage = .five))
      (remoteRecvTurn relay turn) := by
  obtain ⟨idle, whole⟩ := live.idle_down reading
  have connected := live.connected (.inr (.inr reading))
  unfold remoteRecvTurn
  cases received : turn.received with
  | closed =>
      exact .past (over_close live.upward.ahead nofun live.downward.behind fun waited _ => whole waited)
  | failed => exact .past live.close
  | data chunk =>
      simp only [Turn.fits, received, Bool.and_eq_true, Bool.not_eq_true', List.isEmpty_eq_false_iff,
        decide_eq_true_eq] at fits
      have positive : 0 < chunk.length := List.length_pos_iff.mpr fits.1
      have size : (decrypt.code relay.dCtx chunk).length = chunk.length := decrypt.length_code _ _
      have room : (decrypt.code relay.dCtx chunk).length ≤ relay.serverBuf.length := by
        rw [size, live.downward.room]
        exact fits.2
      have within : chunk.length ≤ (overwrite relay.serverBuf (decrypt.code relay.dCtx chunk)).length := by
        rw [length_overwrite room, live.downward.room]
        exact fits.2
      have stored : (overwrite relay.serverBuf (decrypt.code relay.dCtx chunk)).take chunk.length =
          decrypt.code relay.dCtx chunk := by
        rw [← size]
        exact take_overwrite _ _
      have context : decrypt.after relay.dCtx chunk = decrypt.after ctx (relay.told ++ chunk) := by
        rw [live.downward.dCtx, ← StreamCoder.after_append]
      have served : patient → relay.toServer ++ decrypt.code relay.dCtx chunk =
          relay.answered ++ decrypt.code ctx (relay.told ++ chunk) := by
        intro waited
        have told := served_told live.downward chunk
        rw [← whole waited] at told
        exact told.symm
      dsimp only
      cases turn.first with
      | again =>
          dsimp only
          refine .stops ⟨live.upward.frame rfl, ⟨context, ?_, fun _ => rfl,
            fun _ => ⟨positive, fits.2⟩, fun waited other => absurd (asked waited) other,
            fun waited => ?_⟩, live.unfreed, live.unended, waiting_of_connected connected, live.timer⟩
          · rw [length_overwrite room, live.downward.room]
          · simp only [Relay.unserved, ↓reduceIte, stored]
            exact served waited
      | failed =>
          dsimp only
          refine .past (over_close live.upward.ahead nofun (fun waited => ?_) nofun)
          exact ⟨decrypt.code relay.dCtx chunk, served waited⟩
      | taken count =>
          dsimp only
          split
          · next short =>
            refine .stops ⟨live.upward.frame rfl, ⟨context, ?_, fun _ => rfl,
              fun _ => ⟨by simp only; omega, by simp only; omega⟩,
              fun waited other => absurd (asked waited) other, fun waited => ?_⟩,
              live.unfreed, live.unended, waiting_of_connected connected, live.timer⟩
            · rw [length_moveFront within, length_overwrite room, live.downward.room]
            · have parts := take_append_moveFront within count
              rw [stored] at parts
              simp only [Relay.unserved, ↓reduceIte, List.append_assoc]
              rw [parts]
              exact served waited
          · refine .goes ⟨live.upward.frame rfl, ⟨context, ?_, live.downward.hears,
              fun sending => absurd idle (by simp [show relay.serverSend = true from sending]),
              fun waited other => absurd (asked waited) other, fun waited => ?_⟩,
              live.unfreed, live.unended, waiting_of_connected connected, live.timer⟩ ⟨reading, asked⟩
            · rw [length_overwrite room, live.downward.room]
            · simp only [Relay.unserved, idle, Bool.false_eq_true, ↓reduceIte, List.append_nil]
              exact served waited

theorem remoteSendCb_outcome {peer : Bool} {sent : Sent} (live : Live patient ctx relay)
    (sending : relay.remoteSend = true) :
    Live patient ctx (remoteSendCb relay peer sent) ∨
      Over patient ctx (remoteSendCb relay peer sent) := by
  unfold remoteSendCb
  by_cases connected : relay.connected = true
  · obtain ⟨positive, fits, five⟩ := live.upward.held connected sending
    have within : relay.remoteLen ≤ relay.remoteBuf.length := by
      rw [live.upward.room]
      exact fits
    have spoken := live.upward.spoken
    rw [Relay.unsent, connected, sending, Bool.and_self, if_pos rfl] at spoken
    rw [if_neg (by simp [connected]), if_neg (by omega)]
    cases sent with
    | again => exact .inl live
    | failed => exact .inr live.close
    | taken count =>
        dsimp only
        split
        · next short =>
          refine .inl ⟨⟨live.upward.eCtx, ?_, fun other => absurd five other, live.upward.reads,
            fun _ _ => ⟨by simp only; omega, by simp only; omega, five⟩, ?_⟩,
            live.downward.frame rfl, live.unfreed, live.unended, waiting_of_connected connected,
            live.timer⟩
          · rw [length_moveFront within, live.upward.room]
          · rw [← take_append_moveFront within count] at spoken
            simpa [Relay.unsent, Relay.spoken, connected, sending] using spoken
        · next enough =>
          refine .inl ⟨⟨live.upward.eCtx, live.upward.room, fun other => absurd five other,
            fun _ => rfl, nofun, ?_⟩, live.downward.frame rfl, live.unfreed, live.unended,
            waiting_of_connected connected, live.timer⟩
          have all : (relay.remoteBuf.take relay.remoteLen).take count =
              relay.remoteBuf.take relay.remoteLen := by
            refine List.take_of_length_le ?_
            simp only [List.length_take]
            omega
          simpa [Relay.unsent, Relay.spoken, all] using spoken
  · have waiting := live.waiting (by simpa using connected)
    rw [if_pos (by simpa using connected)]
    split
    · refine .inl ⟨⟨live.upward.eCtx, live.upward.room, live.upward.unasked, fun _ => rfl, nofun, ?_⟩,
        ⟨live.downward.dCtx, live.downward.room, ?_, live.downward.held, live.downward.silent,
          live.downward.served⟩, live.unfreed, live.unended, nofun, fun _ => rfl⟩
      · have spoken := live.upward.spoken
        rw [Relay.unsent, show relay.connected = false by simpa using connected,
          Bool.false_and] at spoken
        simpa [Relay.unsent, Relay.spoken] using spoken
      · intro _
        simp [waiting.serverSend]
    · exact .inr live.close

end Callbacks

section Runs

variable {events : List Event} {event : Event} {next final : Relay} {serverBuf remoteBuf : Bytes}

/-- The remote says nothing before the address has been sent to it, and the first answer to the
program is taken whole. -/
def Patient (relay : Relay) : Event → Prop
  | .remoteRecv _ => relay.stage = .five
  | .serverRecv (⟨.data _, first, _⟩ :: _) => relay.stage = .zero → first.part [5, 0] = [5, 0]
  | _ => True

instance (relay : Relay) : ∀ event, Decidable (Patient relay event)
  | .remoteRecv _ => inferInstanceAs (Decidable (relay.stage = .five))
  | .serverRecv (⟨.data _, first, _⟩ :: _) =>
      inferInstanceAs (Decidable (relay.stage = .zero → first.part [5, 0] = [5, 0]))
  | .serverRecv [] | .serverRecv (⟨.closed, _, _⟩ :: _) | .serverRecv (⟨.failed, _, _⟩ :: _)
  | .serverSend _ | .remoteSend _ _ | .remoteTimeout => isTrue trivial

theorem live_accepted (patient : Prop) (ctx : Ctx) (serverRoom : serverBuf.length = bufSize)
    (remoteRoom : remoteBuf.length = bufSize) :
    Live patient ctx (accepted ctx serverBuf remoteBuf) where
  upward := ⟨rfl, remoteRoom, fun _ => ⟨rfl, rfl, rfl, rfl⟩, nofun, nofun, rfl⟩
  downward := ⟨rfl, serverRoom, nofun, nofun, fun _ _ => ⟨rfl, rfl⟩, fun _ => rfl⟩
  unfreed := rfl
  unended := rfl
  waiting := fun _ => ⟨rfl, rfl, rfl, rfl, rfl, rfl⟩
  timer := nofun

theorem step_live (live : Live patient ctx relay) (waits : patient → Patient relay event)
    (taken : step settings relay event = some next) : Live patient ctx next ∨ Over patient ctx next := by
  cases event with
  | serverRecv turns =>
      simp only [step, Option.ite_none_right_eq_some, Bool.and_eq_true] at taken
      obtain ⟨⟨reading, fit⟩, ran⟩ := taken
      cases turns with
      | nil => exact .inl (Option.some.inj ran ▸ live)
      | cons turn rest =>
          simp only [List.all_cons, Bool.and_eq_true] at fit
          refine recvLoop_head (fun result => serverRecvTurn_outcome live reading fit.1 ?_)
            (fun _ _ _ live on fits => serverRecvTurn_outcome live on.1 fits ?_) fit.2 ran
          · obtain ⟨received, first, second⟩ := turn
            rintro waited chunk rfl
            exact waits waited
          · intro _ _ _ zero
            simp [on.2] at zero
  | serverSend sent =>
      simp only [step, Option.ite_none_right_eq_some, Option.some.injEq] at taken
      obtain ⟨sending, rfl⟩ := taken
      exact serverSendCb_outcome live sending
  | remoteRecv turns =>
      simp only [step, Option.ite_none_right_eq_some, Bool.and_eq_true] at taken
      obtain ⟨⟨reading, fit⟩, ran⟩ := taken
      cases turns with
      | nil => exact .inl (Option.some.inj ran ▸ live)
      | cons turn rest =>
          simp only [List.all_cons, Bool.and_eq_true] at fit
          have outcome : ∀ (relay : Relay) (turn : Turn) (result : Relay × Bool),
              Live patient ctx relay →
              (relay.remoteRecv = true ∧ (patient → relay.stage = .five)) → turn.fits = true →
              some (remoteRecvTurn relay turn) = some result →
              Outcome patient ctx (fun next => next.remoteRecv = true ∧
                (patient → next.stage = .five)) result :=
            fun _ _ _ live on fits same =>
              Option.some.inj same ▸ remoteRecvTurn_outcome live on.1 on.2 fits
          exact recvLoop_head (fun _ => outcome relay turn _ live ⟨reading, waits⟩ fit.1) outcome
            fit.2 ran
  | remoteSend peer sent =>
      simp only [step, Option.ite_none_right_eq_some, Option.some.injEq] at taken
      obtain ⟨sending, rfl⟩ := taken
      exact remoteSendCb_outcome live sending
  | remoteTimeout =>
      simp only [step, Option.ite_none_right_eq_some, Option.some.injEq] at taken
      obtain ⟨-, rfl⟩ := taken
      exact .inr live.close

theorem step_over (past : Over patient ctx relay) : step settings relay event = none := by
  obtain ⟨serverRecv, serverSend, remoteRecv, remoteSend, timer⟩ := past.still
  cases event <;> simp [step, serverRecv, serverSend, remoteRecv, remoteSend, timer]

theorem run_live (serverRoom : serverBuf.length = bufSize) (remoteRoom : remoteBuf.length = bufSize)
    (ran : run (step settings) events (accepted ctx serverBuf remoteBuf) = some final) :
    let patient := Along (step settings) Patient events (accepted ctx serverBuf remoteBuf)
    Live patient ctx final ∨ Over patient ctx final := by
  intro patient
  have waits : Along (step settings) (fun relay event => patient → Patient relay event) events
      (accepted ctx serverBuf remoteBuf) := by
    by_cases waited : patient
    · exact along_of_along (fun _ => True) (fun _ _ _ _ _ _ => trivial)
        (fun _ _ _ quiet _ => quiet) trivial waited
    · exact along_iff_at.mpr fun _ _ _ _ _ _ held => absurd held waited
  refine run_invariant_along (fun relay => Live patient ctx relay ∨ Over patient ctx relay) ?_
    (.inl (live_accepted patient ctx serverRoom remoteRoom)) waits ran
  intro relay event next held quiet taken
  rcases held with live | past
  · exact step_live live quiet taken
  · rw [step_over past] at taken
    exact absurd taken (by simp)

def rc4Settings : Settings :=
  { method := .rc4, hash := [1, 2, 3], remotePort := 8388 }

def rc4Accepted : Relay :=
  accepted (.rc4 (rc4SetKey [1, 2, 3])) (List.replicate bufSize 0) (List.replicate bufSize 0)

def Turn.whole (chunk : Bytes) : Turn :=
  { received := .data chunk, first := .taken bufSize, second := .taken bufSize }

def handshake : List Event :=
  [.remoteSend true .again, .serverRecv [.whole [5, 1, 0]],
    .serverRecv [.whole [5, 1, 0, 1, 10, 0, 0, 1, 0, 80]]]

/-- Of three bytes behind the handshake, `send` has taken one. -/
def heldRun : List Event :=
  handshake ++ [.serverRecv [{ Turn.whole [71, 69, 84] with first := .taken 1 }]]

def closedTurn : Turn :=
  { received := .closed, first := .again, second := .again }

/-- While a connection lasts, either direction is read or has a rest of at most one buffer to send,
and only the timer of the connection attempt can run; afterwards no callback runs again. -/
theorem relay_watchers (serverRoom : serverBuf.length = bufSize)
    (remoteRoom : remoteBuf.length = bufSize)
    (ran : run (step settings) events (accepted ctx serverBuf remoteBuf) = some final) :
    if final.freed then ∀ event, step settings final event = none
    else if final.connected then
      final.timer = false ∧ final.serverRecv = !final.remoteSend ∧
        final.remoteRecv = !final.serverSend ∧
        (final.remoteSend = true → 0 < final.unsent.length ∧ final.unsent.length ≤ bufSize) ∧
        (final.serverSend = true → 0 < final.unserved.length ∧ final.unserved.length ≤ bufSize)
    else
      final.timer = true ∧ final.remoteSend = true ∧ final.serverRecv = false ∧
        final.serverSend = false ∧ final.remoteRecv = false := by
  rcases run_live serverRoom remoteRoom ran with live | past
  · rw [if_neg (by simp [live.unfreed])]
    split
    · next connected =>
      refine ⟨live.timer connected, live.upward.reads connected, live.downward.hears connected, ?_, ?_⟩
      · intro sending
        obtain ⟨positive, fits, -⟩ := live.upward.held connected sending
        have room := live.upward.room
        simp only [Relay.unsent, connected, sending, Bool.and_self, ↓reduceIte, List.length_take]
        omega
      · intro sending
        obtain ⟨positive, fits⟩ := live.downward.held sending
        have room := live.downward.room
        simp only [Relay.unserved, sending, ↓reduceIte, List.length_take]
        omega
    · next unconnected =>
      have waiting := live.waiting (by simpa using unconnected)
      exact ⟨waiting.timer, waiting.remoteSend, waiting.serverRecv, waiting.serverSend,
        waiting.remoteRecv⟩
  · rw [if_pos past.freed]
    exact fun event => step_over past

/-- A connection that holds back a rest for the remote, and its end when the remote closes. -/
theorem relay_watchers_connected :
    (∃ held, run (step rc4Settings) heldRun rc4Accepted = some held ∧ held.remoteSend = true ∧
      held.timer = false ∧ held.serverRecv = !held.remoteSend ∧
      held.remoteRecv = !held.serverSend ∧
      (held.remoteSend = true → 0 < held.unsent.length ∧ held.unsent.length ≤ bufSize) ∧
      (held.serverSend = true → 0 < held.unserved.length ∧ held.unserved.length ≤ bufSize)) ∧
    ∃ ended, run (step rc4Settings) (heldRun ++ [.remoteRecv [closedTurn]]) rc4Accepted =
      some ended ∧ ∀ event, step rc4Settings ended event = none := by
  have room : (List.replicate bufSize (0 : UInt8)).length = bufSize := List.length_replicate ..
  have holds : (run (step rc4Settings) heldRun rc4Accepted).any (fun held =>
      decide (held.freed = false ∧ held.connected = true ∧ held.remoteSend = true)) = true := by
    decide +kernel
  have ends : (run (step rc4Settings) (heldRun ++ [.remoteRecv [closedTurn]]) rc4Accepted).any
      (fun ended => ended.freed) = true := by
    decide +kernel
  obtain ⟨held, ranHeld, decided⟩ := (Option.any_eq_true _ _).mp holds
  obtain ⟨unfreed, connected, sending⟩ := of_decide_eq_true decided
  obtain ⟨ended, ranEnded, freed⟩ := (Option.any_eq_true _ _).mp ends
  have watched := relay_watchers room room ranHeld
  rw [unfreed, connected, if_neg Bool.false_ne_true, if_pos rfl] at watched
  have still := relay_watchers room room ranEnded
  rw [freed, if_pos rfl] at still
  exact ⟨⟨held, ranHeld, sending, watched⟩, ended, ranEnded, still⟩

end Runs

end ProxySet.Shadowsocks
