import ProxySet.Redsocks.HttpWait
import ProxySet.Redsocks.Shutdown

/-!
The proxy's answer on its way through `http-relay.c` to the client: the header
is collected in `relay_buffer`, line by line, over as many reads as it takes, and
the rest of the answer goes through the pump.
-/

namespace ProxySet

open StepRun TokenReader

/-- The lines of a header without their ends, up to the empty line, and what comes behind it. -/
inductive HeadBlock : Bytes → List Bytes → Bytes → Prop where
  | finish {raw body : Bytes} : 10 ∉ raw → 0 ∉ raw → stripCr raw = [] →
      HeadBlock (raw ++ 10 :: body) [] body
  | line {raw rest body : Bytes} {lines : List Bytes} : 10 ∉ raw → 0 ∉ raw → stripCr raw ≠ [] →
      HeadBlock rest lines body → HeadBlock (raw ++ 10 :: rest) (stripCr raw :: lines) body

/-- An answer whose first line is a status line that `http-relay.c` passes on. -/
structure Response where
  raw : Bytes
  code : Nat
  rest : Bytes
  lines : List Bytes
  body : Bytes
  oneLine : 10 ∉ raw
  noNul : 0 ∉ raw
  short : raw.length < httpHeadWmHigh
  status : sscanfHttpStatus (stripCr raw) = some code
  range : 100 ≤ code ∧ code ≤ 999
  authorized : code ≠ 407
  head : HeadBlock rest lines body

namespace Response

def bytes (response : Response) : Bytes :=
  response.raw ++ 10 :: response.rest

def headText (response : Response) : Bytes :=
  (stripCr response.raw :: response.lines ++ [[]]).flatMap (· ++ crlf)

def text (response : Response) : Bytes :=
  response.headText ++ response.body

def lineEnd (response : Response) : Nat :=
  response.raw.length + 1

def headEnd (response : Response) : Nat :=
  response.bytes.length - response.body.length

def inside (response : Response) (position : Nat) : Prop :=
  response.lineEnd ≤ position ∧ position < response.headEnd

end Response

section Lines

variable {raw rest body : Bytes} {lines : List Bytes}

theorem cstr_of_noNul {text : Bytes} (noNul : 0 ∉ text) : cstr text = text := by
  refine List.takeWhile_eq_self_iff.mpr fun byte member => ?_
  simp only [ne_eq, decide_not, Bool.not_eq_true', decide_eq_false_iff_not]
  rintro rfl
  exact noNul member

theorem next_rawLine (oneLine : 10 ∉ raw) (noNul : 0 ∉ raw) (rest : Bytes) :
    redsocksEvbufferReadline.next (raw ++ 10 :: rest) = some (stripCr raw, rest) := by
  have stripped : 0 ∉ stripCr raw := by
    unfold stripCr
    split
    · exact fun member => noNul (List.dropLast_subset raw member)
    · exact noNul
  refine (delimited_next_eq_some_iff 10 _ _ _ _).mpr ⟨raw, oneLine, rfl, ?_⟩
  exact cstr_of_noNul stripped

theorem drain_headBlock (head : HeadBlock rest lines body) (collected : Bytes) :
    redsocksEvbufferReadline.drain httprReplyLine httprReplyDone (.replyCame, collected) rest =
      ((.headersSkipped, collected ++ (lines ++ [[]]).flatMap (· ++ crlf)), body) := by
  induction head generalizing collected with
  | finish oneLine noNul empty =>
      rw [redsocksEvbufferReadline.drain_of_some _ _ rfl (next_rawLine oneLine noNul _), empty,
        redsocksEvbufferReadline.drain_of_done _ _ rfl]
      simp [httprReplyLine, httprAddLine]
  | line oneLine noNul present head ih =>
      rw [redsocksEvbufferReadline.drain_of_some _ _ rfl (next_rawLine oneLine noNul _)]
      simp [httprReplyLine, httprAddLine, List.isEmpty_eq_false_iff.mpr present, ih]

theorem drain_collected (before : Bytes) (reply : HttprState × Bytes) (buffer : Bytes) :
    redsocksEvbufferReadline.drain httprReplyLine httprReplyDone (reply.1, before ++ reply.2) buffer =
      (((redsocksEvbufferReadline.drain httprReplyLine httprReplyDone reply buffer).1.1,
        before ++ (redsocksEvbufferReadline.drain httprReplyLine httprReplyDone reply buffer).1.2),
        (redsocksEvbufferReadline.drain httprReplyLine httprReplyDone reply buffer).2) := by
  induction reply, buffer using
      redsocksEvbufferReadline.drain_induction httprReplyLine httprReplyDone with
  | stop reply buffer stopped =>
      rcases stopped with stopped | missing
      · rw [redsocksEvbufferReadline.drain_of_done _ _ stopped,
          redsocksEvbufferReadline.drain_of_done _ _ (by simpa [httprReplyDone] using stopped)]
      · rw [redsocksEvbufferReadline.drain_of_none _ _ missing,
          redsocksEvbufferReadline.drain_of_none _ _ missing]
  | take reply buffer line rest running found ih =>
      rw [redsocksEvbufferReadline.drain_of_some _ _ running found,
        redsocksEvbufferReadline.drain_of_some _ _ (by simpa [httprReplyDone] using running) found,
        ← ih]
      simp [httprReplyLine, httprAddLine]

/-- A header that ends somewhere is read up to its end by the first part, or the first part leaves
the rest of it to be collected. -/
theorem drain_split {collected head buffer more : Bytes}
    (whole : redsocksEvbufferReadline.drain httprReplyLine httprReplyDone (.replyCame, collected)
      (buffer ++ more) = ((.headersSkipped, head), body)) :
    (more.length ≤ body.length ∧ ∃ left, body = left ++ more ∧
        redsocksEvbufferReadline.drain httprReplyLine httprReplyDone (.replyCame, collected) buffer =
          ((.headersSkipped, head), left)) ∨
      (body.length < more.length ∧ ∃ taken left later, head = collected ++ taken ++ later ∧
        redsocksEvbufferReadline.drain httprReplyLine httprReplyDone (.replyCame, collected) buffer =
          ((.replyCame, collected ++ taken), left) ∧
        redsocksEvbufferReadline.drain httprReplyLine httprReplyDone (.replyCame, []) (left ++ more) =
          ((.headersSkipped, later), body)) := by
  have reaches := redsocksEvbufferReadline.drain_done_iff httprReplyLine httprReplyDone whole rfl
  have state := httprReply_state collected buffer
  have grown := drain_collected collected (.replyCame, []) buffer
  rw [redsocksEvbufferReadline.drain_append] at whole
  simp only [List.append_nil] at grown
  generalize redsocksEvbufferReadline.drain httprReplyLine httprReplyDone (.replyCame, collected)
    buffer = first at whole reaches state grown ⊢
  obtain ⟨⟨phase, text⟩, left⟩ := first
  simp only at state
  rcases state with rfl | rfl
  · have late : body.length < more.length := by simpa [httprReplyDone] using reaches
    have text' : text = collected ++ _ := (Prod.mk.inj (Prod.mk.inj grown).1).2
    generalize (redsocksEvbufferReadline.drain httprReplyLine httprReplyDone
      (.replyCame, []) buffer).1.2 = taken at text'
    subst text'
    have rest := drain_collected (collected ++ taken) (.replyCame, []) (left ++ more)
    rw [List.append_nil, whole, Prod.mk.injEq, Prod.mk.injEq] at rest
    refine Or.inr ⟨late, taken, left, _, rest.1.2, rfl, ?_⟩
    exact Prod.ext (Prod.ext rest.1.1.symm rfl) rest.2.symm
  · have early : more.length ≤ body.length := by simpa [httprReplyDone] using reaches
    rw [redsocksEvbufferReadline.drain_of_done _ _ rfl, Prod.mk.injEq, Prod.mk.injEq] at whole
    exact Or.inl ⟨early, left, whole.2.symm, by rw [whole.1.2]⟩

end Lines

section Response

variable (response : Response)

theorem Response.next_bytes :
    redsocksEvbufferReadline.next response.bytes = some (stripCr response.raw, response.rest) :=
  next_rawLine response.oneLine response.noNul response.rest

theorem Response.drain_rest :
    redsocksEvbufferReadline.drain httprReplyLine httprReplyDone
        (.replyCame, httprAddLine [] (stripCr response.raw)) response.rest =
      ((.headersSkipped, response.headText), response.body) := by
  rw [drain_headBlock response.head]
  simp [Response.headText, httprAddLine]

theorem Response.body_length : response.body.length < response.rest.length := by
  have nonempty : redsocksEvbufferReadline.next response.rest ≠ none := by
    intro missing
    have drained := response.drain_rest
    rw [redsocksEvbufferReadline.drain_of_none _ _ missing] at drained
    simp at drained
  have shorter := redsocksEvbufferReadline.drain_shorter httprReplyLine httprReplyDone
    (by rfl : httprReplyDone (.replyCame, httprAddLine [] (stripCr response.raw)) = false) nonempty
  rwa [response.drain_rest] at shorter

theorem Response.lt_headEnd_iff {done more : Bytes} (split : response.bytes = done ++ more) :
    done.length < response.headEnd ↔ response.body.length < more.length := by
  have total := congrArg List.length split
  have inner := response.body_length
  simp only [Response.headEnd, Response.bytes, List.length_append, List.length_cons] at total ⊢
  omega

theorem Response.lt_lineEnd_iff {done more : Bytes} (split : response.bytes = done ++ more) :
    done.length < response.lineEnd ↔ response.rest.length < more.length := by
  have total := congrArg List.length split
  simp only [Response.lineEnd, Response.bytes, List.length_append, List.length_cons] at total ⊢
  omega

end Response

/-- An http-relay client that is reading the proxy's answer; `input` is what it has not used. -/
structure Replying (client : Client) (phase : HttprState) (input : Bytes) : Prop where
  reached : Reached client
  live : client.dropped = false
  subsys : client.subsys = .httpRelay
  state : client.state = .httpr phase
  reading : client.relay.enabled.read = true
  readcb : client.relay.readcb = .subsys
  writecb : client.relay.writecb = .subsys
  watermark : client.relay.wmRead = { low := 1, high := httpHeadWmHigh }
  input : client.relay.input = input

structure ReplyView where
  dropped : Bool
  subsys : Subsys
  state : State
  relay : EvBits
  readcb : ReadCb
  writecb : WriteCb
  wmRead : Watermark
  input : Bytes
  toClient : Bytes

def Client.replyView (client : Client) : ReplyView :=
  { dropped := client.dropped
    subsys := client.subsys
    state := client.state
    relay := client.relay.enabled
    readcb := client.relay.readcb
    writecb := client.relay.writecb
    wmRead := client.relay.wmRead
    input := client.relay.input
    toClient := client.client.sent ++ client.client.output }

section Replying

variable {client next : Client} {phase : HttprState} {input : Bytes}

theorem Replying.update {later : HttprState} {left : Bytes} (replying : Replying client phase input)
    (reached : Reached next)
    (view : next.replyView = { client.replyView with state := .httpr later, input := left }) :
    Replying next later left ∧ next.handed = client.handed := by
  have state : next.state = .httpr later := congrArg ReplyView.state view
  refine ⟨⟨reached, ?_, ?_, state, ?_, ?_, ?_, ?_, ?_⟩, ?_⟩
  · exact (congrArg ReplyView.dropped view).trans replying.live
  · exact (congrArg ReplyView.subsys view).trans replying.subsys
  · exact (congrArg (fun view => view.relay.read) view).trans replying.reading
  · exact (congrArg ReplyView.readcb view).trans replying.readcb
  · exact (congrArg ReplyView.writecb view).trans replying.writecb
  · exact (congrArg ReplyView.wmRead view).trans replying.watermark
  · exact congrArg ReplyView.input view
  · have toClient : next.client.sent ++ next.client.output =
        client.client.sent ++ client.client.output := congrArg ReplyView.toClient view
    simp [Client.handed, state, replying.state, toClient]

theorem Replying.frame (replying : Replying client phase input) (reached : Reached next)
    (same : next.replyView = client.replyView) :
    Replying next phase input ∧ next.handed = client.handed := by
  refine replying.update reached ?_
  rw [same, ← replying.state, ← replying.input]
  rfl

theorem replyView_httprClientReadContent {env : Env} (smooth : env.smooth) (client : Client) :
    (httprClientReadContent env client).replyView = client.replyView := by
  simp only [httprClientReadContent, smooth .contentAlloc, smooth .contentRemove,
    smooth .contentWrite, Bool.false_eq_true, ↓reduceIte]
  split <;> rfl

theorem replyView_httprClientReadCb {env : Env} (smooth : env.smooth)
    (state : client.state = .httpr phase) (started : phase ≠ .new) :
    (httprClientReadCb env client).replyView = client.replyView := by
  unfold httprClientReadCb
  rw [state]
  cases phase with
  | new => exact absurd rfl started
  | _ => exact replyView_httprClientReadContent smooth client

theorem Replying.handshake (replying : Replying client phase input) : Handshake client :=
  replying.reached.handshake (by simp [replying.state]) replying.live

theorem step_replying_other {world next : World} {event : Event}
    (replying : Replying world.client phase input) (sent : phase ≠ .new ∧ phase ≠ .recvRequestHeaders)
    (smooth : event.smooth) (other : event.chunk .relay = []) (taken : step world event = some next) :
    next.client.replyView = world.client.replyView := by
  have handshake := replying.handshake
  have live := replying.live
  simp only [step, live, Bool.false_eq_true, ↓reduceIte] at taken
  cases event with
  | readData side chunk env =>
      simp only [Option.ite_none_right_eq_some, Bool.and_eq_true] at taken
      obtain ⟨⟨-, fits⟩, taken⟩ := taken
      cases side with
      | relay =>
          obtain rfl : chunk = [] := by simpa [Event.chunk] using other
          simp [Bufferevent.fits] at fits
      | client =>
          split at taken
          · obtain rfl := returned taken
            have clientRead : (world.client.buf .client).readcb = .none ∨
                (world.client.buf .client).readcb = .httprClient := handshake.callbacks.1
            rcases clientRead with none | httpr
            · simp only [runReadcb, World.withClient_client, Client.buf_setBuf_self,
                Bufferevent.receive_readcb, none]
              rfl
            · simp only [runReadcb, World.withClient_client, Client.buf_setBuf_self,
                Bufferevent.receive_readcb, httpr]
              rw [replyView_httprClientReadCb smooth (by simpa using replying.state) sent.1]
              rfl
          · obtain rfl := Option.some.inj taken
            rfl
  | writeReady side count env =>
      simp only [Option.ite_none_right_eq_some, Bool.and_eq_true] at taken
      obtain ⟨-, taken⟩ := taken
      cases side with
      | client =>
          have clientWrite : (world.client.buf .client).writecb = .none := handshake.callbacks.2.1
          have sentView : (world.client.setBuf .client
              ((world.client.buf .client).transmit count)).replyView = world.client.replyView := by
            simp [Client.replyView, Client.setBuf, Client.buf, List.append_assoc]
          split at taken
          · obtain rfl := Option.some.inj taken
            simpa only [runWritecb, World.withClient_client, Client.buf_setBuf_self,
              Bufferevent.transmit_writecb, clientWrite] using sentView
          · obtain rfl := Option.some.inj taken
            exact sentView
      | relay =>
          have relayWrite : (world.client.buf .relay).writecb = .subsys := replying.writecb
          split at taken
          · obtain rfl := Option.some.inj taken
            simp only [runWritecb, World.withClient_client, Client.buf_setBuf_self,
              Bufferevent.transmit_writecb, relayWrite, relaySsWritecb, Client.setBuf_subsys,
              replying.subsys, httprRelayWriteCb, Client.setBuf_state, replying.state]
            cases phase with
            | new => exact absurd rfl sent.1
            | recvRequestHeaders => exact absurd rfl sent.2
            | _ => rfl
          · obtain rfl := Option.some.inj taken
            rfl
  | report side what => exact smooth.elim
  | others auth =>
      obtain rfl := Option.some.inj taken
      rfl

theorem step_replying_read {world next : World} {chunk : Bytes} {env : Env}
    (replying : Replying world.client phase input)
    (taken : step world (.readData .relay chunk env) = some next) :
    chunk ≠ [] ∧ input.length + chunk.length ≤ httpHeadWmHigh ∧
      next = httprRelayReadCb env
        (world.withClient (world.client.setBuf .relay (world.client.relay.receive chunk))) := by
  have installed : (world.client.buf .relay).readcb = .subsys := replying.readcb
  simp only [step, replying.live, Bool.false_eq_true, ↓reduceIte, Option.ite_none_right_eq_some,
    Bool.and_eq_true] at taken
  obtain ⟨⟨-, fits⟩, taken⟩ := taken
  simp only [Bufferevent.fits, Client.buf, replying.watermark, replying.input, httpHeadWmHigh,
    Bool.and_eq_true, Bool.not_eq_true', List.isEmpty_eq_false_iff, Bool.or_eq_true,
    decide_eq_true_eq] at fits
  have nonempty : 0 < chunk.length := List.length_pos_iff.mpr fits.1
  have low : (world.client.buf .relay).wmRead.low ≤
      ((world.client.buf .relay).receive chunk).input.length := by
    simp only [Client.buf, replying.watermark, Bufferevent.receive_input, List.length_append]
    omega
  rw [if_pos low] at taken
  refine ⟨fits.1, fits.2.resolve_left (by simp), ?_⟩
  rw [← returned taken]
  simp only [runReadcb, World.withClient_client, Client.buf_setBuf_self, Bufferevent.receive_readcb,
    installed, relaySsReadcb, Client.setBuf_subsys, replying.subsys]
  rfl

theorem httprRelayReply_skipped {env : Env} (smooth : env.smooth) {collected rest : Bytes}
    (drained : redsocksEvbufferReadline.drain httprReplyLine httprReplyDone
      (.replyCame, client.httpr.relayBuffer) client.relay.input =
        ((.headersSkipped, collected), rest)) :
    (httprRelayReply env client).state = .pumpActive ∧
      (httprRelayReply env client).dropped = client.dropped ∧
      (httprRelayReply env client).handed =
        client.client.sent ++ client.client.output ++ collected ++ rest := by
  simp only [httprRelayReply, drained, ↓reduceIte, httprRelayPump, smooth .httprReplyWrite,
    Bool.false_eq_true, startRelay_smooth smooth]
  refine ⟨rfl, rfl, ?_⟩
  rw [handed_startRelay]
  simp [Client.setInput, Client.setRelayBuffer, Client.setBuf, Client.buf]

theorem httprRelayReply_waiting {env : Env} {collected rest : Bytes}
    (drained : redsocksEvbufferReadline.drain httprReplyLine httprReplyDone
      (.replyCame, client.httpr.relayBuffer) client.relay.input = ((.replyCame, collected), rest)) :
    (httprRelayReply env client).replyView =
      { client.replyView with state := .httpr .replyCame, input := rest } := by
  simp only [httprRelayReply, drained]
  rfl

variable {world : World} (env : Env) {chunk : Bytes}

def Client.entered (client : Client) (chunk : Bytes) : Client :=
  (client.setBuf .relay (client.relay.receive chunk)).setRelayBuffer []

theorem entered_input (replying : Replying client phase input) (chunk : Bytes) :
    (client.entered chunk).relay.input = input ++ chunk := by
  simp [Client.entered, Client.setRelayBuffer, Client.setBuf, replying.input]

theorem entered_state (replying : Replying client phase input) (chunk : Bytes) :
    (client.entered chunk).state = .httpr phase :=
  replying.state

theorem readCb_firstLine_none (replying : Replying world.client .requestSent input)
    (missing : redsocksEvbufferReadline.next (input ++ chunk) = none)
    (short : (input ++ chunk).length < httpHeadWmHigh) :
    (httprRelayReadCb env
        (world.withClient (world.client.setBuf .relay (world.client.relay.receive chunk)))).client.replyView =
      { world.client.replyView with state := .httpr .requestSent, input := input ++ chunk } := by
  have state := entered_state replying chunk
  have left := entered_input replying chunk
  unfold Client.entered at state left
  simp only [httprRelayReadCb, World.withClient_client, state, left, missing]
  rw [if_neg (Nat.not_le.mpr short), ← left, ← replying.state]
  rfl

theorem readCb_firstLine_some {line rest : Bytes} {code : Nat}
    (replying : Replying world.client .requestSent input)
    (found : redsocksEvbufferReadline.next (input ++ chunk) = some (line, rest))
    (status : sscanfHttpStatus line = some code) (range : 100 ≤ code ∧ code ≤ 999)
    (authorized : code ≠ 407) :
    ∃ read : Client, read.httpr.relayBuffer = httprAddLine [] line ∧ read.relay.input = rest ∧
      read.replyView = { world.client.replyView with state := .httpr .replyCame, input := rest } ∧
      (httprRelayReadCb env (world.withClient
        (world.client.setBuf .relay (world.client.relay.receive chunk)))).client =
          httprRelayReply env read := by
  have state := entered_state replying chunk
  have left := entered_input replying chunk
  unfold Client.entered at state left
  simp only [httprRelayReadCb, World.withClient_client, state, left, found, status, authorized,
    ↓reduceIte, range, and_self]
  exact ⟨_, rfl, rfl, rfl, rfl⟩

theorem readCb_headers (replying : Replying world.client .replyCame input) :
    ∃ read : Client, read.httpr.relayBuffer = [] ∧ read.relay.input = input ++ chunk ∧
      read.replyView =
        { world.client.replyView with state := .httpr .replyCame, input := input ++ chunk } ∧
      (httprRelayReadCb env (world.withClient
        (world.client.setBuf .relay (world.client.relay.receive chunk)))).client =
          httprRelayReply env read := by
  have state := entered_state replying chunk
  have left := entered_input replying chunk
  refine ⟨world.client.entered chunk, rfl, left, ?_, ?_⟩
  · rw [← left, ← replying.state]
    rfl
  · unfold Client.entered at state ⊢
    simp only [httprRelayReadCb, World.withClient_client, state]

variable {env}

/-- What collecting more of the header comes to, when the whole header is known. -/
theorem replying_reply {read : Client} {buffer more collected head body : Bytes}
    (replying : Replying client phase input) (smooth : env.smooth)
    (view : read.replyView = { client.replyView with state := .httpr .replyCame, input := buffer })
    (collecting : read.httpr.relayBuffer = collected) (unread : read.relay.input = buffer)
    (reached : Reached (httprRelayReply env read))
    (whole : redsocksEvbufferReadline.drain httprReplyLine httprReplyDone (.replyCame, collected)
      (buffer ++ more) = ((.headersSkipped, head), body)) :
    (more.length ≤ body.length ∧ ∃ left, body = left ++ more ∧
        Pumping (httprRelayReply env read) ∧
        (httprRelayReply env read).handed = client.handed ++ head ++ left) ∨
      (body.length < more.length ∧ ∃ taken left later, head = collected ++ taken ++ later ∧
        Replying (httprRelayReply env read) .replyCame left ∧
        (httprRelayReply env read).handed = client.handed ∧
        redsocksEvbufferReadline.drain httprReplyLine httprReplyDone (.replyCame, []) (left ++ more) =
          ((.headersSkipped, later), body)) := by
  subst collecting unread
  rcases drain_split whole with ⟨early, left, bodyEq, drained⟩ |
    ⟨late, taken, left, later, headEq, drained, rest⟩
  · obtain ⟨state, dropped, handed⟩ := httprRelayReply_skipped smooth drained
    refine Or.inl ⟨early, left, bodyEq, ?_, ?_⟩
    · have live : read.dropped = false := (congrArg ReplyView.dropped view).trans replying.live
      exact reached.pumping state (dropped.trans live)
    · have toClient : read.client.sent ++ read.client.output =
          client.client.sent ++ client.client.output := congrArg ReplyView.toClient view
      rw [handed, toClient]
      simp [Client.handed, replying.state]
  · have updated := replying.update reached (by rw [httprRelayReply_waiting drained, view])
    exact Or.inr ⟨late, taken, left, later, headEq, updated.1, updated.2, rest⟩

end Replying

section Segmentation

variable {response : Response} {start : Bytes} {world next final : World} {event : Event}
  {events : List Event}

def received (events : List Event) : Bytes :=
  (events.map (Event.chunk .relay)).flatten

@[simp] theorem received_snoc (events : List Event) (event : Event) :
    received (events ++ [event]) = received events ++ event.chunk .relay := by
  simp [received]

/-- One read ended, and the next began, between the status line and the end of the header. -/
def Response.cutBy (response : Response) (events : List Event) : Prop :=
  ∃ taken rest, events = taken ++ rest ∧ response.inside (received taken).length

theorem cutBy_snoc : response.cutBy (events ++ [event]) ↔
    response.cutBy events ∨ response.inside (received (events ++ [event])).length := by
  constructor
  · rintro ⟨taken, rest, split, inside⟩
    rcases List.eq_nil_or_concat rest with rfl | ⟨front, last, rfl⟩
    · rw [List.append_nil] at split
      exact Or.inr (split ▸ inside)
    · rw [List.concat_eq_append, ← List.append_assoc] at split
      exact Or.inl ⟨taken, front, (List.append_inj' split rfl).1, inside⟩
  · rintro (⟨taken, rest, split, inside⟩ | inside)
    · exact ⟨taken, rest ++ [event], by simp [split], inside⟩
    · exact ⟨events ++ [event], [], by simp, inside⟩

/-- How far the answer has come after some events. -/
inductive Progress (response : Response) (start : Bytes) (events : List Event) (client : Client) :
    Prop where
  | firstLine : Replying client .requestSent (received events) → client.handed = start →
      (received events).length < response.lineEnd → ¬response.cutBy events →
      Progress response start events client
  | headers {input more lost later : Bytes} : Replying client .replyCame input →
      client.handed = start → response.bytes = received events ++ more →
      response.body.length < more.length → response.headText = lost ++ later → lost ≠ [] →
      redsocksEvbufferReadline.drain httprReplyLine httprReplyDone (.replyCame, []) (input ++ more) =
        ((.headersSkipped, later), response.body) →
      response.cutBy events → Progress response start events client
  | pump : Pumping client → response.headEnd ≤ (received events).length →
      client.handed = start ++ response.headText ++ (received events).drop response.headEnd →
      ¬response.cutBy events → Progress response start events client
  | pumpCut {lost later : Bytes} : Pumping client → response.headEnd ≤ (received events).length →
      response.headText = lost ++ later → lost ≠ [] →
      client.handed = start ++ later ++ (received events).drop response.headEnd →
      response.cutBy events → Progress response start events client

theorem event_of_chunk (present : event.chunk .relay ≠ []) :
    ∃ chunk env, event = .readData .relay chunk env := by
  cases event with
  | readData side chunk env =>
      cases side with
      | relay => exact ⟨chunk, env, rfl⟩
      | client => simp [Event.chunk] at present
  | _ => simp [Event.chunk] at present

theorem drop_headEnd {done more left : Bytes} (split : response.bytes = done ++ more)
    (bodyEq : response.body = left ++ more) : done.drop response.headEnd = left := by
  obtain ⟨front, frontEq⟩ : response.body <:+ response.bytes := by
    have suffix := redsocksEvbufferReadline.drain_suffix httprReplyLine httprReplyDone
      (.replyCame, httprAddLine [] (stripCr response.raw)) response.rest
    rw [response.drain_rest] at suffix
    exact suffix.trans ((List.suffix_cons 10 response.rest).trans (List.suffix_append _ _))
  have headEnd : response.headEnd = front.length := by
    rw [Response.headEnd, ← frontEq, List.length_append]
    omega
  have doneEq : done = front ++ left := by
    have whole : done ++ more = (front ++ left) ++ more := by
      rw [← split, ← frontEq, bodyEq, List.append_assoc]
    exact List.append_cancel_right whole
  rw [doneEq, headEnd, List.drop_left]

theorem cutBy_snoc_of_quiet (quiet : event.chunk .relay = []) :
    response.cutBy (events ++ [event]) ↔ response.cutBy events := by
  rw [cutBy_snoc]
  constructor
  · rintro (cut | inside)
    · exact cut
    · exact ⟨events, [], by simp, by simpa [quiet] using inside⟩
  · exact Or.inl

theorem progress_firstLine {more : Bytes}
    (replying : Replying world.client .requestSent (received events))
    (handed : world.client.handed = start) (uncut : ¬response.cutBy events)
    {chunk : Bytes} {env : Env} (smooth : env.smooth)
    (taken : step world (.readData .relay chunk env) = some next)
    (split : response.bytes = received (events ++ [.readData .relay chunk env]) ++ more) :
    Progress response start (events ++ [.readData .relay chunk env]) next.client := by
  have reached := reached_step replying.reached taken
  obtain ⟨-, bound, nextEq⟩ := step_replying_read replying taken
  have all : received (events ++ [.readData .relay chunk env]) = received events ++ chunk := by
    simp [Event.chunk]
  rw [all] at split
  have line := response.next_bytes
  rw [split] at line
  have late := redsocksEvbufferReadline.next_eq_none_iff_late line
  have lineEnd := response.lt_lineEnd_iff split
  have headEnd := response.lt_headEnd_iff split
  by_cases before : response.rest.length < more.length
  · have short : (received events ++ chunk).length < httpHeadWmHigh := by
      have position := lineEnd.mpr before
      have limit := response.short
      simp only [Response.lineEnd] at position
      omega
    have view := readCb_firstLine_none env replying (late.mpr before) short
    rw [← nextEq] at view
    obtain ⟨waiting, same⟩ := replying.update reached view
    refine .firstLine (by rwa [all]) (same.trans handed) (by rwa [all, lineEnd]) ?_
    rw [cutBy_snoc, all]
    rintro (cut | inside)
    · exact uncut cut
    · exact absurd inside.1 (Nat.not_le.mpr (lineEnd.mpr before))
  · obtain ⟨⟨other, after⟩, found⟩ := Option.ne_none_iff_exists'.mp (late.not.mpr before)
    have whole := redsocksEvbufferReadline.next_append more found
    rw [line, Option.some.injEq, Prod.mk.injEq] at whole
    obtain ⟨rfl, restEq⟩ := whole
    obtain ⟨read, collecting, unread, view, callback⟩ := readCb_firstLine_some env replying found
      response.status response.range response.authorized
    rw [← nextEq] at callback
    have drained := response.drain_rest
    rw [restEq] at drained
    rw [callback] at reached ⊢
    rcases replying_reply replying smooth view collecting unread reached drained with
      ⟨early, left, bodyEq, pumping, sent⟩ | ⟨later, taken, left, rest, textEq, waiting, sent, more⟩
    · refine .pump pumping ?_ ?_ ?_
      · rw [all]
        exact Nat.le_of_not_lt (headEnd.not.mpr (Nat.not_lt.mpr early))
      · rw [all, drop_headEnd split bodyEq, sent, handed]
      · rw [cutBy_snoc, all]
        rintro (cut | inside)
        · exact uncut cut
        · exact absurd (headEnd.mp inside.2) (Nat.not_lt.mpr early)
    · refine .headers waiting (sent.trans handed) (by rwa [all]) later textEq ?_ more ?_
      · simp [httprAddLine, crlf]
      · rw [cutBy_snoc, all]
        exact Or.inr ⟨Nat.le_of_not_lt (lineEnd.not.mpr before), headEnd.mpr later⟩

theorem progress_headers {input more lost later : Bytes}
    (replying : Replying world.client .replyCame input) (handed : world.client.handed = start)
    (textEq : response.headText = lost ++ later) (lostSome : lost ≠ [])
    (cut : response.cutBy events) {chunk : Bytes} {env : Env} (smooth : env.smooth)
    (taken : step world (.readData .relay chunk env) = some next)
    (split : response.bytes = received (events ++ [.readData .relay chunk env]) ++ more)
    (drained : redsocksEvbufferReadline.drain httprReplyLine httprReplyDone (.replyCame, [])
      (input ++ chunk ++ more) = ((.headersSkipped, later), response.body)) :
    Progress response start (events ++ [.readData .relay chunk env]) next.client := by
  have reached := reached_step replying.reached taken
  obtain ⟨-, -, nextEq⟩ := step_replying_read replying taken
  obtain ⟨read, collecting, unread, view, callback⟩ := readCb_headers env replying
  rw [← nextEq] at callback
  rw [callback] at reached ⊢
  have headEnd := response.lt_headEnd_iff split
  have cutLater : response.cutBy (events ++ [.readData .relay chunk env]) :=
    cutBy_snoc.mpr (Or.inl cut)
  rcases replying_reply replying smooth view collecting unread reached drained with
    ⟨early, left, bodyEq, pumping, sent⟩ | ⟨late, got, left, rest, laterEq, waiting, sent, more⟩
  · refine .pumpCut pumping ?_ textEq lostSome ?_ cutLater
    · exact Nat.le_of_not_lt (headEnd.not.mpr (Nat.not_lt.mpr early))
    · rw [drop_headEnd split bodyEq, sent, handed]
  · have lostMore : response.headText = lost ++ got ++ rest := by
      rw [textEq, laterEq]
      simp
    exact .headers waiting (sent.trans handed) split late lostMore (by simp [lostSome]) more cutLater

theorem progress_step {more : Bytes} (progress : Progress response start events world.client)
    (smooth : event.smooth) (taken : step world event = some next)
    (split : response.bytes = received (events ++ [event]) ++ more) :
    Progress response start (events ++ [event]) next.client := by
  cases progress with
  | firstLine replying handed before uncut =>
      by_cases quiet : event.chunk .relay = []
      · have view := step_replying_other replying (by simp) smooth quiet taken
        obtain ⟨waiting, same⟩ := replying.frame (reached_step replying.reached taken) view
        exact .firstLine (by simpa [quiet] using waiting) (same.trans handed)
          (by simpa [quiet] using before) ((cutBy_snoc_of_quiet quiet).not.mpr uncut)
      · obtain ⟨chunk, env, rfl⟩ := event_of_chunk quiet
        exact progress_firstLine replying handed uncut smooth taken split
  | headers replying handed known late textEq lostSome drained cut =>
      by_cases quiet : event.chunk .relay = []
      · have view := step_replying_other replying (by simp) smooth quiet taken
        obtain ⟨waiting, same⟩ := replying.frame (reached_step replying.reached taken) view
        exact .headers waiting (same.trans handed) (by simpa [quiet] using known) late textEq lostSome
          drained ((cutBy_snoc_of_quiet quiet).mpr cut)
      · obtain ⟨chunk, env, rfl⟩ := event_of_chunk quiet
        refine progress_headers replying handed textEq lostSome cut smooth taken split ?_
        have rest := List.append_cancel_left (known.symm.trans (by simpa [Event.chunk] using split))
        rw [rest] at drained
        simpa using drained
  | pump pumping behind handed uncut =>
      have pumped := step_pumpStep pumping (smooth_calm smooth) taken
      refine .pump (pumped.pumping pumping) (by simp; omega) ?_ ?_
      · rw [handed_pumpStep pumped pumping, handed, received_snoc,
          List.drop_append_of_le_length behind]
        simp
      · rw [cutBy_snoc]
        rintro (cut | inside)
        · exact uncut cut
        · have position := inside.2
          simp only [received_snoc, List.length_append] at position
          omega
  | pumpCut pumping behind textEq lostSome handed cut =>
      have pumped := step_pumpStep pumping (smooth_calm smooth) taken
      refine .pumpCut (pumped.pumping pumping) (by simp; omega) textEq lostSome ?_
        (cutBy_snoc.mpr (Or.inl cut))
      rw [handed_pumpStep pumped pumping, handed, received_snoc,
        List.drop_append_of_le_length behind]
      simp

theorem run_progress (smooth : ∀ event ∈ events, event.smooth) {taken : List Event} {more : Bytes}
    (progress : Progress response start taken world.client)
    (ran : run step events world = some final)
    (split : response.bytes = received (taken ++ events) ++ more) :
    Progress response start (taken ++ events) final.client := by
  induction events generalizing taken world with
  | nil =>
      obtain rfl := Option.some.inj ran
      simpa using progress
  | cons event events ih =>
      obtain ⟨next, first, rest⟩ := run_cons_some ran
      have shifted : taken ++ event :: events = taken ++ [event] ++ events := by simp
      rw [shifted] at split ⊢
      have soFar : response.bytes = received (taken ++ [event]) ++ (received events ++ more) := by
        rw [split]
        simp [received]
      exact ih (fun other member => smooth other (by simp [member]))
        (progress_step progress (smooth event (by simp)) first soFar) rest split

theorem httpr_reply_handed_iff (response : Response)
    (asked : Replying world.client .requestSent [])
    (smooth : ∀ event ∈ events, event.smooth) (all : received events = response.bytes)
    (ran : run step events world = some final) :
    final.client.handed = world.client.handed ++ response.text ↔ ¬response.cutBy events := by
  have uncut : ¬response.cutBy [] := by
    rintro ⟨taken, rest, split, inside⟩
    obtain ⟨rfl, -⟩ := List.append_eq_nil_iff.mp split.symm
    simp [received, Response.inside, Response.lineEnd] at inside
  have start : Progress response world.client.handed [] world.client :=
    .firstLine asked rfl (by simp [received, Response.lineEnd]) uncut
  have split : response.bytes = received ([] ++ events) ++ [] := by simp [all]
  have progress := run_progress smooth start ran split
  have whole : response.bytes.drop response.headEnd = response.body :=
    drop_headEnd (List.append_nil _).symm (List.append_nil _).symm
  rw [List.nil_append] at progress
  cases progress with
  | firstLine _ _ before =>
      rw [all] at before
      simp only [Response.bytes, Response.lineEnd, List.length_append, List.length_cons] at before
      omega
  | headers _ _ known late =>
      have more := List.append_cancel_left (known.symm.trans ((by simpa using split) :
        response.bytes = received events ++ []))
      simp [more] at late
  | pump pumping behind handed notCut =>
      rw [all, whole] at handed
      simp [handed, Response.text, notCut]
  | pumpCut pumping behind textEq lostSome handed cut =>
      rw [all, whole] at handed
      simp [handed, Response.text, cut, textEq, lostSome]

def relayAskedWorld : World :=
  (run step [.readData .client (ascii "GET / HTTP/1.0\r\n\r\n") Env.ok, .writeReady .relay 0 Env.ok]
    (plainWorld .httpRelay)).getD (plainWorld .httpRelay)

theorem relayAskedWorld_replying : Replying relayAskedWorld.client .requestSent [] := by
  have ran : run step [.readData .client (ascii "GET / HTTP/1.0\r\n\r\n") Env.ok,
      .writeReady .relay 0 Env.ok] (plainWorld .httpRelay) = some relayAskedWorld := by
    decide +kernel
  exact ⟨run_reached ran, by decide +kernel, by decide +kernel, by decide +kernel, by decide +kernel,
    by decide +kernel, by decide +kernel, by decide +kernel, by decide +kernel⟩

def okResponse : Response where
  raw := ascii "HTTP/1.0 200 OK\r"
  code := 200
  rest := ascii "A: b\r" ++ 10 :: (ascii "\r" ++ 10 :: ascii "hi")
  lines := [stripCr (ascii "A: b\r")]
  body := ascii "hi"
  oneLine := by decide
  noNul := by decide
  short := by decide
  status := by decide
  range := by decide
  authorized := by decide
  head := .line (by decide) (by decide) (by decide) (.finish (by decide) (by decide) (by decide))

theorem httpr_reply_handed_iff_whole :
    ∃ final, run step [.readData .relay okResponse.bytes Env.ok] relayAskedWorld = some final ∧
      (final.client.handed = relayAskedWorld.client.handed ++ okResponse.text ↔
        ¬okResponse.cutBy [.readData .relay okResponse.bytes Env.ok]) := by
  have goes : (run step [.readData .relay okResponse.bytes Env.ok] relayAskedWorld).isSome = true := by
    decide +kernel
  obtain ⟨final, ran⟩ := Option.isSome_iff_exists.mp goes
  refine ⟨final, ran, httpr_reply_handed_iff okResponse relayAskedWorld_replying ?_ ?_ ran⟩
  · intro event member
    obtain rfl := List.mem_singleton.mp member
    exact fun _ => rfl
  · simp [received, Event.chunk]

/-- The status line comes in one read and the rest in the next. -/
def cutReads : List Event :=
  [.readData .relay (ascii "HTTP/1.0 200 OK\r\n") Env.ok,
    .readData .relay (ascii "A: b\r\n\r\nhi") Env.ok]

theorem httpr_reply_loses_status_line :
    received cutReads = okResponse.bytes ∧ ∃ final, run step cutReads relayAskedWorld = some final ∧
      final.client.handed ≠ relayAskedWorld.client.handed ++ okResponse.text := by
  have lost : (run step cutReads relayAskedWorld).any (fun final =>
      final.client.handed != relayAskedWorld.client.handed ++ okResponse.text) = true := by
    decide +kernel
  obtain ⟨final, ran, differs⟩ := (Option.any_eq_true _ _).mp lost
  exact ⟨by decide, final, ran, by simpa using differs⟩

end Segmentation

end ProxySet
