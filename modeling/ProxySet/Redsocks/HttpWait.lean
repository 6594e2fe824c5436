import ProxySet.Lib.StepRun
import ProxySet.Redsocks.Client
import ProxySet.Redsocks.EventCore

/-!
The answer of an HTTP proxy as it comes in, one read after the other: in which
states the two read callbacks of `http-connect.c` and `http-relay.c` wait for
more of it, and whether what they wait for can still come.
-/

namespace ProxySet

open StepRun TokenReader

def Client.firstLineDue (client : Client) : Bool :=
  match client.subsys, client.state with
  | .httpConnect, .httpc .requestSent | .httpRelay, .httpr .requestSent => true
  | _, _ => false

def Client.headersDue (client : Client) : Bool :=
  match client.subsys, client.state with
  | .httpConnect, .httpc .replyCame | .httpRelay, .httpr .replyCame => true
  | _, _ => false

/-- Not dropped, not reconnected, not in the pump. -/
def Client.waitsReply (client : Client) : Bool :=
  !client.dropped && (client.firstLineDue || client.headersDue)

/-- One read from the proxy, with what the surroundings decide in it and what the other clients of
the instance have left of `http_auth`. -/
structure Piece where
  data : Bytes
  env : Env
  auth : HttpAuth

/-- A read of a waiting client; the watermark keeps it from more than `HTTP_HEAD_WM_HIGH` bytes. -/
def readPiece (world : World) (piece : Piece) : Option World :=
  if world.client.waitsReply ∧ piece.data ≠ [] ∧
      world.client.relay.input.length + piece.data.length ≤ httpHeadWmHigh then
    some (relaySsReadcb piece.env
      { world with
        auth := piece.auth
        client := world.client.setBuf .relay (world.client.relay.receive piece.data) })
  else none

/-- Reading goes on, and no line is left that the handler would take. -/
def Client.flowing (client : Client) : Prop :=
  client.waitsReply = true → client.relay.input.length < httpHeadWmHigh ∧
    redsocksEvbufferReadline.next client.relay.input = none

/-- A complete line follows a first line that is no status line. -/
def hidesLine (buffer : Bytes) : Prop :=
  ∃ line rest, redsocksEvbufferReadline.next buffer = some (line, rest) ∧
    sscanfHttpStatus line = none ∧ redsocksEvbufferReadline.next rest ≠ none

/-- A first line that is no status line hides the line behind it, and a header line that fills the
buffer is never given up. -/
def Client.overlooks (client : Client) (data : Bytes) : Prop :=
  client.firstLineDue = true ∧ hidesLine (client.relay.input ++ data) ∨
    client.headersDue = true ∧
      redsocksEvbufferReadline.next (client.relay.input ++ data) = none ∧
        httpHeadWmHigh ≤ (client.relay.input ++ data).length

section Callbacks

variable {world : World} {env : Env} {client : Client}

theorem flowing_of_not_waits (gone : client.waitsReply = false) : client.flowing := by
  intro waits
  simp [gone] at waits

theorem flowing_drop (client : Client) : (redsocksDropClient client).flowing :=
  flowing_of_not_waits (by simp [Client.waitsReply])

theorem waitsReply_of_state (other : client.state = .pumpActive ∨ client.state = .httpc .new ∨
    client.state = .httpr .recvRequestHeaders) : client.waitsReply = false := by
  rcases other with state | state | state <;>
    cases subsys : client.subsys <;>
      simp [Client.waitsReply, Client.firstLineDue, Client.headersDue, state, subsys]

theorem flowing_startRelay (env : Env) (client : Client) : (redsocksStartRelay env client).flowing :=
  flowing_of_not_waits (waitsReply_of_state (Or.inl (state_startRelay env client)))

theorem flowing_authRequired (env : Env) (world : World) (retry : State)
    (again : retry = .httpc .new ∨ retry = .httpr .recvRequestHeaders) :
    (authRequired env world retry).client.flowing := by
  unfold authRequired
  dsimp only
  split
  · exact flowing_drop _
  · split
    · exact flowing_drop _
    · split
      · exact flowing_drop _
      · unfold redsocksConnectRelay
        split
        · exact flowing_drop _
        · exact flowing_of_not_waits (waitsReply_of_state (Or.inr again))

variable {Reply : Type} (take : Reply → Bytes → Reply) (done : Reply → Bool) (reply : Reply)
  {buffer : Bytes}

theorem drain_left_iff (running : done reply = false) (bound : buffer.length ≤ httpHeadWmHigh)
    (more : done (redsocksEvbufferReadline.drain take done reply buffer).1 = false) :
    ((redsocksEvbufferReadline.drain take done reply buffer).2.length < httpHeadWmHigh ∧
        redsocksEvbufferReadline.next (redsocksEvbufferReadline.drain take done reply buffer).2 =
          none) ↔
      ¬(redsocksEvbufferReadline.next buffer = none ∧ httpHeadWmHigh ≤ buffer.length) := by
  have stopped : redsocksEvbufferReadline.next
      (redsocksEvbufferReadline.drain take done reply buffer).2 = none := by
    rcases redsocksEvbufferReadline.drain_stops take done reply buffer with stopped | missing
    · simp [more] at stopped
    · exact missing
  by_cases missing : redsocksEvbufferReadline.next buffer = none
  · rw [redsocksEvbufferReadline.drain_of_none take done missing]
    simp [missing]
  · have shorter := redsocksEvbufferReadline.drain_shorter take done running missing
    simp only [stopped, missing, false_and, not_false_eq_true, and_true, iff_true]
    omega

theorem httpcSkip_state (buffer : Bytes) :
    (redsocksEvbufferReadline.drain httpcSkipLine httpcSkipDone .replyCame buffer).1 = .replyCame ∨
      (redsocksEvbufferReadline.drain httpcSkipLine httpcSkipDone .replyCame buffer).1 =
        .headersSkipped := by
  refine redsocksEvbufferReadline.drain_invariant httpcSkipLine httpcSkipDone
    (fun state => state = .replyCame ∨ state = .headersSkipped) ?_ .replyCame buffer (Or.inl rfl)
  intro state line _ before
  unfold httpcSkipLine
  split
  · exact Or.inr rfl
  · exact before

theorem httprReply_state (relayBuffer buffer : Bytes) :
    (redsocksEvbufferReadline.drain httprReplyLine httprReplyDone (.replyCame, relayBuffer)
        buffer).1.1 = .replyCame ∨
      (redsocksEvbufferReadline.drain httprReplyLine httprReplyDone (.replyCame, relayBuffer)
        buffer).1.1 = .headersSkipped := by
  refine redsocksEvbufferReadline.drain_invariant httprReplyLine httprReplyDone
    (fun reply => reply.1 = .replyCame ∨ reply.1 = .headersSkipped) ?_ _ buffer (Or.inl rfl)
  intro reply line _ before
  simp only [httprReplyLine]
  split
  · exact Or.inr rfl
  · exact before

theorem httpcSkipHeaders_flowing_iff (subsys : client.subsys = .httpConnect)
    (live : client.dropped = false) (bound : client.relay.input.length ≤ httpHeadWmHigh) :
    (httpcSkipHeaders env client).flowing ↔
      ¬(redsocksEvbufferReadline.next client.relay.input = none ∧
        httpHeadWmHigh ≤ client.relay.input.length) := by
  have left := drain_left_iff httpcSkipLine httpcSkipDone HttpcState.replyCame rfl bound
  simp only [httpcSkipHeaders]
  rcases httpcSkip_state client.relay.input with came | skipped
  · rw [if_neg (by simp [came]), ← left (by simp [came, httpcSkipDone])]
    simp [Client.flowing, Client.waitsReply, Client.firstLineDue, Client.headersDue, came, subsys,
      live, Client.setInput, Client.setBuf, Client.buf]
  · rw [if_pos skipped, iff_true_left (flowing_startRelay env _)]
    rintro ⟨missing, -⟩
    rw [redsocksEvbufferReadline.drain_of_none _ _ missing] at skipped
    simp at skipped

theorem httpcSkipHeaders_flowing (env : Env) (client : Client) (subsys : client.subsys = .httpConnect)
    (live : client.dropped = false) (short : client.relay.input.length < httpHeadWmHigh) :
    (httpcSkipHeaders env client).flowing :=
  (httpcSkipHeaders_flowing_iff subsys live (Nat.le_of_lt short)).mpr
    fun overlooked => absurd overlooked.2 (Nat.not_le.mpr short)

theorem httprRelayPump_flowing (env : Env) (client : Client) :
    (httprRelayPump env client).flowing := by
  unfold httprRelayPump
  split
  · exact flowing_drop _
  · exact flowing_startRelay env _

theorem httprRelayReply_flowing_iff (subsys : client.subsys = .httpRelay)
    (live : client.dropped = false) (bound : client.relay.input.length ≤ httpHeadWmHigh) :
    (httprRelayReply env client).flowing ↔
      ¬(redsocksEvbufferReadline.next client.relay.input = none ∧
        httpHeadWmHigh ≤ client.relay.input.length) := by
  have left := drain_left_iff httprReplyLine httprReplyDone
    (HttprState.replyCame, client.httpr.relayBuffer) rfl bound
  simp only [httprRelayReply]
  rcases httprReply_state client.httpr.relayBuffer client.relay.input with came | skipped
  · rw [if_neg (by simp [came]), ← left (by simp [came, httprReplyDone])]
    simp [Client.flowing, Client.waitsReply, Client.firstLineDue, Client.headersDue, came, subsys,
      live, Client.setInput, Client.setBuf, Client.buf, Client.setRelayBuffer]
  · rw [if_pos skipped, iff_true_left (httprRelayPump_flowing env _)]
    rintro ⟨missing, -⟩
    rw [redsocksEvbufferReadline.drain_of_none _ _ missing] at skipped
    simp at skipped

theorem httprRelayReply_flowing (env : Env) (client : Client) (subsys : client.subsys = .httpRelay)
    (live : client.dropped = false) (short : client.relay.input.length < httpHeadWmHigh) :
    (httprRelayReply env client).flowing :=
  (httprRelayReply_flowing_iff subsys live (Nat.le_of_lt short)).mpr
    fun overlooked => absurd overlooked.2 (Nat.not_le.mpr short)

theorem not_hidesLine_of_none (missing : redsocksEvbufferReadline.next buffer = none) :
    ¬hidesLine buffer := by
  rintro ⟨line, rest, found, -⟩
  simp [missing] at found

theorem not_hidesLine_of_status {line rest : Bytes} {code : Nat}
    (found : redsocksEvbufferReadline.next buffer = some (line, rest))
    (status : sscanfHttpStatus line = some code) : ¬hidesLine buffer := by
  rintro ⟨other, after, again, noStatus, -⟩
  obtain ⟨rfl, rfl⟩ := Prod.mk.inj (Option.some.inj (found.symm.trans again))
  simp [status] at noStatus

theorem hidesLine_iff_of_other {line rest : Bytes}
    (found : redsocksEvbufferReadline.next buffer = some (line, rest))
    (noStatus : sscanfHttpStatus line = none) :
    hidesLine buffer ↔ redsocksEvbufferReadline.next rest ≠ none := by
  constructor
  · rintro ⟨other, after, again, -, hidden⟩
    obtain ⟨rfl, rfl⟩ := Prod.mk.inj (Option.some.inj (found.symm.trans again))
    exact hidden
  · exact fun hidden => ⟨line, rest, found, noStatus, hidden⟩

theorem httpcReadCb_flowing_iff (due : world.client.state = .httpc .requestSent)
    (subsys : world.client.subsys = .httpConnect) (live : world.client.dropped = false)
    (bound : world.client.relay.input.length ≤ httpHeadWmHigh) :
    (httpcReadCb env world).client.flowing ↔ ¬hidesLine world.client.relay.input := by
  simp only [httpcReadCb, due]
  cases found : redsocksEvbufferReadline.next world.client.relay.input with
  | none =>
      rw [iff_true_right (not_hidesLine_of_none found)]
      dsimp only
      split
      · exact flowing_drop _
      · next short => exact fun _ => ⟨by omega, found⟩
  | some pair =>
      obtain ⟨line, rest⟩ := pair
      have shorter := redsocksEvbufferReadline.next_shorter found
      dsimp only
      cases status : sscanfHttpStatus line with
      | some code =>
          rw [iff_true_right (not_hidesLine_of_status found status)]
          dsimp only
          split
          · exact flowing_authRequired env _ _ (Or.inl rfl)
          · split
            · rw [World.withClient_client]
              exact httpcSkipHeaders_flowing env _ subsys live (Nat.lt_of_lt_of_le shorter bound)
            · exact flowing_drop _
      | none =>
          rw [hidesLine_iff_of_other found status]
          simp only [Client.flowing, Client.waitsReply, Client.firstLineDue, Client.headersDue, due,
            subsys, live, Client.setInput, Client.modify, Client.setBuf, World.withClient, Client.buf]
          simp
          intro _
          omega

theorem httprRelayReadCb_flowing_iff (due : world.client.state = .httpr .requestSent)
    (subsys : world.client.subsys = .httpRelay) (live : world.client.dropped = false)
    (bound : world.client.relay.input.length ≤ httpHeadWmHigh) :
    (httprRelayReadCb env world).client.flowing ↔ ¬hidesLine world.client.relay.input := by
  have dueAgain : (world.client.setRelayBuffer []).state = .httpr .requestSent := due
  have input : (world.client.setRelayBuffer []).relay.input = world.client.relay.input := rfl
  simp only [httprRelayReadCb, dueAgain, input]
  cases found : redsocksEvbufferReadline.next world.client.relay.input with
  | none =>
      rw [iff_true_right (not_hidesLine_of_none found)]
      dsimp only
      split
      · exact flowing_drop _
      · next short => exact fun _ => ⟨Nat.lt_of_not_le short, found⟩
  | some pair =>
      obtain ⟨line, rest⟩ := pair
      have shorter := redsocksEvbufferReadline.next_shorter found
      dsimp only
      cases status : sscanfHttpStatus line with
      | some code =>
          rw [iff_true_right (not_hidesLine_of_status found status)]
          dsimp only
          split
          · exact flowing_authRequired env _ _ (Or.inr rfl)
          · split
            · rw [World.withClient_client]
              exact httprRelayReply_flowing env _ subsys live (Nat.lt_of_lt_of_le shorter bound)
            · exact flowing_drop _
      | none =>
          rw [hidesLine_iff_of_other found status]
          simp only [Client.flowing, Client.waitsReply, Client.firstLineDue, Client.headersDue, due,
            subsys, live, Client.setInput, Client.modify, Client.setBuf, World.withClient, Client.buf,
            Client.setRelayBuffer]
          simp
          intro _
          exact Nat.lt_of_lt_of_le shorter bound

theorem firstLineDue_iff : client.firstLineDue = true ↔
    client.subsys = .httpConnect ∧ client.state = .httpc .requestSent ∨
      client.subsys = .httpRelay ∧ client.state = .httpr .requestSent := by
  unfold Client.firstLineDue
  split <;> simp_all

theorem headersDue_iff : client.headersDue = true ↔
    client.subsys = .httpConnect ∧ client.state = .httpc .replyCame ∨
      client.subsys = .httpRelay ∧ client.state = .httpr .replyCame := by
  unfold Client.headersDue
  split <;> simp_all

theorem relaySsReadcb_flowing_iff (env : Env) (world : World) (live : world.client.dropped = false)
    (due : world.client.firstLineDue = true ∨ world.client.headersDue = true)
    (bound : world.client.relay.input.length ≤ httpHeadWmHigh) :
    (relaySsReadcb env world).client.flowing ↔ ¬world.client.overlooks [] := by
  unfold Client.overlooks
  rw [List.append_nil]
  rcases due with due | due
  · rcases firstLineDue_iff.mp due with ⟨subsys, state⟩ | ⟨subsys, state⟩
    · have later : world.client.headersDue = false := by simp [Client.headersDue, subsys, state]
      simp only [relaySsReadcb, subsys, due, later, Bool.false_eq_true, true_and, false_and, or_false]
      exact httpcReadCb_flowing_iff state subsys live bound
    · have later : world.client.headersDue = false := by simp [Client.headersDue, subsys, state]
      simp only [relaySsReadcb, subsys, due, later, Bool.false_eq_true, true_and, false_and, or_false]
      exact httprRelayReadCb_flowing_iff state subsys live bound
  · rcases headersDue_iff.mp due with ⟨subsys, state⟩ | ⟨subsys, state⟩
    · have past : world.client.firstLineDue = false := by simp [Client.firstLineDue, subsys, state]
      simp only [relaySsReadcb, subsys, due, past, Bool.false_eq_true, true_and, false_and, false_or,
        httpcReadCb, state, World.withClient_client]
      exact httpcSkipHeaders_flowing_iff subsys live bound
    · have past : world.client.firstLineDue = false := by simp [Client.firstLineDue, subsys, state]
      have again : (world.client.setRelayBuffer []).state = .httpr .replyCame := state
      simp only [relaySsReadcb, subsys, due, past, Bool.false_eq_true, true_and, false_and, false_or,
        httprRelayReadCb, again, World.withClient_client]
      exact httprRelayReply_flowing_iff subsys live bound

end Callbacks

section Runs

variable {world next : World} {piece : Piece}

theorem readPiece_flowing_iff (taken : readPiece world piece = some next) :
    next.client.flowing ↔ ¬world.client.overlooks piece.data := by
  simp only [readPiece, Option.ite_none_right_eq_some, Option.some.injEq] at taken
  obtain ⟨⟨waits, -, bound⟩, rfl⟩ := taken
  simp only [Client.waitsReply, Bool.and_eq_true, Bool.not_eq_true', Bool.or_eq_true] at waits
  have decides := relaySsReadcb_flowing_iff piece.env
    { world with
      auth := piece.auth
      client := world.client.setBuf .relay (world.client.relay.receive piece.data) }
    waits.1 waits.2 (by simpa [Client.setBuf] using bound)
  refine decides.trans ?_
  simp [Client.overlooks, Client.setBuf, Client.firstLineDue, Client.headersDue]

/-- The read callback that libevent runs with the watermarks the request was sent with. -/
theorem step_readData_eq_readPiece (waits : world.client.waitsReply = true)
    (reading : world.client.relay.enabled.read = true) (installed : world.client.relay.readcb = .subsys)
    (watermark : world.client.relay.wmRead = { low := 1, high := httpHeadWmHigh }) :
    step { world with auth := piece.auth } (.readData .relay piece.data piece.env) =
      readPiece world piece := by
  have live : world.client.dropped = false := by
    simp only [Client.waitsReply, Bool.and_eq_true, Bool.not_eq_true'] at waits
    exact waits.1
  simp only [step, readPiece, live, waits, Client.buf, Bufferevent.canRead, Bufferevent.readSuspended,
    Bufferevent.fits, watermark, httpHeadWmHigh, reading]
  by_cases fits : piece.data ≠ [] ∧ world.client.relay.input.length + piece.data.length ≤ 4096
  · have nonempty : 0 < piece.data.length := List.length_pos_iff.mpr fits.1
    have room : world.client.relay.input.length < 4096 := by omega
    simp [fits, room, runReadcb, World.withClient, Client.buf, Client.setBuf, installed]
  · have tooLong : piece.data ≠ [] →
        4096 < world.client.relay.input.length + piece.data.length := by
      simpa using fits
    rw [if_neg (by simp), if_neg (by simpa using fun _ => tooLong), if_neg (by simpa using tooLong)]

/-- The read, if there is one, leaves nothing behind that only more data could bring up again. -/
def Noticed (world : World) (piece : Piece) : Prop :=
  (readPiece world piece).isSome = true → ¬world.client.overlooks piece.data

theorem handshake_flowing_iff (pieces : List Piece) (initial : world.client.flowing) :
    (∀ taken rest next, pieces = taken ++ rest → run readPiece taken world = some next →
      next.client.flowing) ↔ Along readPiece Noticed pieces world := by
  refine good_along_iff (fun world : World => world.client.flowing) ?_ ?_ pieces initial
  · intro state piece next _ taken
    rw [readPiece_flowing_iff taken, Noticed, taken]
    simp
  · intro state piece blocked
    simp [Noticed, blocked]

def askedWorld : World :=
  (run step [.writeReady .relay 0 Env.ok] (plainWorld .httpConnect)).getD (plainWorld .httpConnect)

def okPieces : List Piece :=
  [{ data := ascii "HTTP/1.0 200 OK\r\nVia: a", env := Env.ok, auth := askedWorld.auth }]

theorem handshake_flowing_iff_asked :
    (∀ taken rest next, okPieces = taken ++ rest → run readPiece taken askedWorld = some next →
      next.client.flowing) ↔ Along readPiece Noticed okPieces askedWorld :=
  handshake_flowing_iff okPieces fun _ => ⟨by decide, by decide⟩

/-- The status line comes in one read with a line before it. -/
def hiddenPieces : List Piece :=
  [{ data := ascii "hello\r\nHTTP/1.0 200 OK\r\n\r\n", env := Env.ok, auth := askedWorld.auth }]

theorem status_line_hidden :
    askedWorld.client.flowing ∧ ∃ next, run readPiece hiddenPieces askedWorld = some next ∧
      ¬next.client.flowing := by
  refine ⟨fun _ => ⟨by decide, by decide⟩, ?_⟩
  have left : (run readPiece hiddenPieces askedWorld).any (fun next => next.client.waitsReply &&
      (redsocksEvbufferReadline.next next.client.relay.input).isSome) = true := by
    decide +kernel
  obtain ⟨next, ran, waits⟩ := (Option.any_eq_true _ _).mp left
  rw [Bool.and_eq_true] at waits
  refine ⟨next, ran, fun flowing => ?_⟩
  simp [(flowing waits.1).2] at waits

end Runs

end ProxySet
