import ProxySet.Redsocks.HttpRelay

/-!
One answer of the proxy to the CONNECT of an http-connect client, cut into reads
at any places: which cuts change what becomes of the client.
-/

namespace ProxySet

open TokenReader

inductive Verdict where
  | undecided
  | dropped
  | reconnected (challenge : Option Bytes)
  | pumping (left : Bytes)
deriving DecidableEq, Repr

/-- `unread` is what the proxy has sent but the client has not read. -/
def World.verdict (world : World) (unread : Bytes) : Verdict :=
  if world.client.dropped then .dropped
  else match world.client.state with
    | .httpc .new =>
        if world.client.relay = redConnectRelay then .reconnected world.auth.lastAuthQuery
        else .undecided
    | .pumpActive => .pumping (world.client.relay.input ++ unread)
    | _ => .undecided

def httpcHear (env : Env) (world : World) (piece : Bytes) : World :=
  httpcReadCb env (world.withClient
    (world.client.setBuf .relay (world.client.relay.receive piece)))

/-- The reads go to the callback until it has decided. -/
def httpcAnswer (env : Env) : World → List Bytes → Verdict
  | world, [] => world.verdict []
  | world, piece :: rest =>
      if world.client.waitsReply then httpcAnswer env (httpcHear env world piece) rest
      else world.verdict (piece :: rest).flatten

/-- A client that has sent its CONNECT and read nothing yet. -/
structure Asked (client : Client) : Prop where
  subsys : client.subsys = .httpConnect
  state : client.state = .httpc .requestSent
  live : client.dropped = false
  unread : client.relay.input = []

def ShortLines (text : Bytes) : Prop :=
  ∀ line, line <:+: text → 10 ∉ line → line.length < httpHeadWmHigh

/-- The code of the first status line that the reads come to when each takes one line, with what
the buffer holds behind it then and the reads that are still to come. -/
def statusRead (buffer : Bytes) : List Bytes → Option (Nat × Bytes × List Bytes)
  | [] => none
  | piece :: rest =>
      match redsocksEvbufferReadline.next (buffer ++ piece) with
      | none => statusRead (buffer ++ piece) rest
      | some (line, after) =>
          match sscanfHttpStatus line with
          | none => statusRead after rest
          | some code => some (code, after, rest)

def retries (config : Config) (auth : HttpAuth) : Bool :=
  !(auth.lastAuthQuery.isSome && auth.lastAuthCount == 1) && config.login.isSome &&
    config.password.isSome

def headVerdict (buffer : Bytes) : Verdict :=
  match redsocksEvbufferReadline.drain httpcSkipLine httpcSkipDone .replyCame buffer with
  | (.headersSkipped, left) => .pumping left
  | _ => .undecided

def retryVerdict (config : Config) (auth : HttpAuth) (buffer : Bytes) : Verdict :=
  if retries config auth then
    match (getAuthRequestHeader buffer).1 with
    | none => .dropped
    | some line => .reconnected (some (challengeOf line))
  else .dropped

def statusVerdict (config : Config) (auth : HttpAuth) : Option (Nat × Bytes × List Bytes) → Verdict
  | none => .undecided
  | some (code, buffer, unread) =>
      if code = 407 then retryVerdict config auth buffer
      else if 200 ≤ code ∧ code ≤ 299 then headVerdict (buffer ++ unread.flatten)
      else .dropped

/-! ### What an answer says -/

/-- The lines of an answer up to the first status line, its code and what stands behind it. -/
inductive FirstStatus : Bytes → List Bytes → Nat → Bytes → Prop where
  | status {raw behind : Bytes} {code : Nat} : 10 ∉ raw →
      sscanfHttpStatus (stripCr raw) = some code →
      FirstStatus (raw ++ 10 :: behind) [raw] code behind
  | other {raw rest behind : Bytes} {lines : List Bytes} {code : Nat} : 10 ∉ raw →
      sscanfHttpStatus (stripCr raw) = none → FirstStatus rest lines code behind →
      FirstStatus (raw ++ 10 :: rest) (raw :: lines) code behind

/-- The challenge of the first `Proxy-Authenticate` line of a header, and what stands behind it. -/
inductive ChallengeIn : Bytes → Bytes → Bytes → Prop where
  | here {raw left : Bytes} : 10 ∉ raw →
      strncasecmpEq (stripCr raw) authRequestHeader authRequestHeader.length = true →
      ChallengeIn (raw ++ 10 :: left) (challengeOf (stripCr raw)) left
  | behind {raw rest challenge left : Bytes} : 10 ∉ raw → 58 ∈ stripCr raw →
      strncasecmpEq (stripCr raw) authRequestHeader authRequestHeader.length = false →
      ChallengeIn rest challenge left → ChallengeIn (raw ++ 10 :: rest) challenge left

/-- What an answer decides when it comes in one read. -/
inductive Decides (config : Config) (auth : HttpAuth) (answer : Bytes) : Verdict → Prop where
  | unfinished : 10 ∉ answer → Decides config auth answer .undecided
  | noStatus {raw rest : Bytes} : answer = raw ++ 10 :: rest → 10 ∉ raw →
      sscanfHttpStatus (stripCr raw) = none → Decides config auth answer .undecided
  | refused {raw behind : Bytes} {code : Nat} : FirstStatus answer [raw] code behind →
      code ≠ 407 → ¬(200 ≤ code ∧ code ≤ 299) → Decides config auth answer .dropped
  | denied {raw behind : Bytes} : FirstStatus answer [raw] 407 behind →
      (retries config auth = true → ¬∃ challenge left, ChallengeIn behind challenge left) →
      Decides config auth answer .dropped
  | challenged {raw behind challenge left : Bytes} : FirstStatus answer [raw] 407 behind →
      retries config auth = true → ChallengeIn behind challenge left →
      Decides config auth answer (.reconnected (some challenge))
  | connected {raw behind left : Bytes} {code : Nat} {lines : List Bytes} :
      FirstStatus answer [raw] code behind → 200 ≤ code ∧ code ≤ 299 →
      HeadBlock behind lines left → Decides config auth answer (.pumping left)
  | headerDue {raw behind : Bytes} {code : Nat} : FirstStatus answer [raw] code behind →
      200 ≤ code ∧ code ≤ 299 → (¬∃ lines left, HeadBlock behind lines left) →
      Decides config auth answer .undecided

/-- How many of the reads behind the first `read` bytes end at this place of the answer or later. -/
def readsFrom (place : Nat) : Nat → List Bytes → Nat
  | _, [] => 0
  | read, piece :: pieces =>
      if place ≤ read + piece.length then pieces.length + 1
      else readsFrom place (read + piece.length) pieces

/-- Every read takes one line: from the end of each line on there are reads enough for it and the
lines behind it. -/
def LinesTaken (read : Nat) (pieces : List Bytes) : Nat → List Bytes → Prop
  | _, [] => True
  | place, raw :: later =>
      later.length + 1 ≤ readsFrom (place + raw.length + 1) read pieces ∧
        LinesTaken read pieces (place + raw.length + 1) later

structure CutsAgree (config : Config) (auth : HttpAuth) (pieces : List Bytes) : Prop where
  /-- No read cuts the challenge off a 407 that would be answered. -/
  challenge : ∀ raw behind challenge left, FirstStatus pieces.flatten [raw] 407 behind →
    retries config auth = true → ChallengeIn behind challenge left →
    ∀ read unread, pieces = read ++ unread → unread.flatten.length ≤ behind.length →
      unread.flatten.length ≤ left.length
  /-- The reads do not come to a status line behind others, or to a 2xx one whose header does not
  end. -/
  status : ∀ lines code behind, FirstStatus pieces.flatten lines code behind →
    2 ≤ lines.length → LinesTaken 0 pieces 0 lines →
    (200 ≤ code ∧ code ≤ 299) ∧ ¬∃ lines left, HeadBlock behind lines left

section Callback

variable {env : Env} {world : World} {client : Client}

theorem httpcAnswer_decided (decided : world.client.waitsReply = false) (pieces : List Bytes) :
    httpcAnswer env world pieces = world.verdict pieces.flatten := by
  cases pieces with
  | nil => rfl
  | cons piece rest => simp [httpcAnswer, decided]

theorem httpcAnswer_dropped (world : World) (client : Client) (pieces : List Bytes) :
    httpcAnswer env (world.withClient (redsocksDropClient client)) pieces = .dropped := by
  rw [httpcAnswer_decided (by simp [Client.waitsReply])]
  simp [World.verdict]

theorem httpcAnswer_startRelay (smooth : env.smooth) (world : World) (live : client.dropped = false)
    (pieces : List Bytes) :
    httpcAnswer env (world.withClient (redsocksStartRelay env client)) pieces =
      .pumping (client.relay.input ++ pieces.flatten) := by
  have state := state_startRelay env client
  rw [httpcAnswer_decided (waitsReply_of_state (Or.inl state))]
  simp only [World.verdict, World.withClient_client, state]
  rw [startRelay_smooth smooth]
  simp [redsocksStartRelay, Env.ok, live, Client.setBuf, Client.buf, Client.fini]

theorem httpcSkip_cases (buffer : Bytes) :
    (∃ left, redsocksEvbufferReadline.drain httpcSkipLine httpcSkipDone .replyCame buffer =
        (.headersSkipped, left)) ∨
      ∃ left, redsocksEvbufferReadline.drain httpcSkipLine httpcSkipDone .replyCame buffer =
        (.replyCame, left) := by
  rcases httpcSkip_state buffer with came | skipped
  · exact Or.inr ⟨_, Prod.ext came rfl⟩
  · exact Or.inl ⟨_, Prod.ext skipped rfl⟩

theorem headVerdict_of_skipped {buffer left : Bytes} (more : Bytes)
    (drained : redsocksEvbufferReadline.drain httpcSkipLine httpcSkipDone .replyCame buffer =
      (.headersSkipped, left)) :
    headVerdict (buffer ++ more) = .pumping (left ++ more) := by
  unfold headVerdict
  rw [redsocksEvbufferReadline.drain_append, drained,
    redsocksEvbufferReadline.drain_of_done _ _ (by rfl)]

theorem headVerdict_of_came {buffer left : Bytes} (more : Bytes)
    (drained : redsocksEvbufferReadline.drain httpcSkipLine httpcSkipDone .replyCame buffer =
      (.replyCame, left)) :
    headVerdict (buffer ++ more) = headVerdict (left ++ more) := by
  unfold headVerdict
  rw [redsocksEvbufferReadline.drain_append, drained]

theorem httpcAnswer_headers (smooth : env.smooth) (pieces : List Bytes) :
    ∀ (world : World) (client : Client), client.subsys = .httpConnect → client.dropped = false →
      httpcAnswer env (world.withClient (httpcSkipHeaders env client)) pieces =
        headVerdict (client.relay.input ++ pieces.flatten) := by
  induction pieces with
  | nil =>
      intro world client subsys live
      rcases httpcSkip_cases client.relay.input with ⟨left, drained⟩ | ⟨left, drained⟩
      · simp only [httpcSkipHeaders, drained, ↓reduceIte]
        rw [httpcAnswer_startRelay smooth world (by exact live), headVerdict_of_skipped _ drained]
        rfl
      · simp [httpcSkipHeaders, headVerdict, drained, httpcAnswer, World.verdict, live,
          Client.setInput]
  | cons piece pieces ih =>
      intro world client subsys live
      rcases httpcSkip_cases client.relay.input with ⟨left, drained⟩ | ⟨left, drained⟩
      · simp only [httpcSkipHeaders, drained, ↓reduceIte]
        rw [httpcAnswer_startRelay smooth world (by exact live), headVerdict_of_skipped _ drained]
        rfl
      · have waits : ({ client.setInput .relay left with
            state := .httpc .replyCame } : Client).waitsReply = true := by
          simp [Client.waitsReply, Client.headersDue, Client.setInput, subsys, live]
        simp only [httpcSkipHeaders, drained, reduceCtorEq, ↓reduceIte, httpcAnswer,
          World.withClient_client, waits]
        rw [headVerdict_of_came _ drained, List.flatten_cons, ← List.append_assoc]
        exact ih world (({ client.setInput .relay left with state := .httpc .replyCame } : Client).setBuf
          .relay ((client.setInput .relay left).relay.receive piece)) subsys live

theorem httpcAnswer_authRequired (smooth : env.smooth) (world : World)
    (live : world.client.dropped = false) (pieces : List Bytes) :
    httpcAnswer env (authRequired env world (.httpc .new)) pieces =
      retryVerdict world.config world.auth world.client.relay.input := by
  unfold authRequired retryVerdict
  by_cases failed : world.auth.lastAuthQuery.isSome ∧ world.auth.lastAuthCount = 1
  · rw [if_pos failed, httpcAnswer_dropped, if_neg (by simp [retries, failed])]
  · rw [if_neg failed]
    by_cases missing : world.config.login.isNone ∨ world.config.password.isNone
    · rw [if_pos missing, httpcAnswer_dropped, if_neg]
      rcases missing with missing | missing <;>
        simp [retries, Option.isNone_iff_eq_none.mp missing]
    · have again : retries world.config world.auth = true := by
        simp only [not_or, Bool.not_eq_true, Option.isNone_eq_false_iff] at missing
        have unasked : (world.auth.lastAuthQuery.isSome && world.auth.lastAuthCount == 1) = false := by
          rw [Bool.eq_false_iff]
          simpa using failed
        simp [retries, missing, unasked]
      rw [if_neg missing, if_pos again]
      cases looked : getAuthRequestHeader world.client.relay.input with
      | mk found rest =>
          cases found with
          | none => exact httpcAnswer_dropped world _ pieces
          | some line =>
              simp only [redsocksConnectRelay, smooth .connectRelay, Bool.false_eq_true, ↓reduceIte]
              rw [httpcAnswer_decided (waitsReply_of_state (by simp))]
              simp [World.verdict, live, Client.setInput]

theorem ShortLines.suffix {text rest : Bytes} (short : ShortLines text) (behind : rest <:+ text) :
    ShortLines rest :=
  fun line inside => short line (inside.trans behind.isInfix)

/-- What becomes of the client depends on the first status line the reads come to. -/
theorem httpcAnswer_eq (smooth : env.smooth) (pieces : List Bytes) :
    ∀ world : World, world.client.subsys = .httpConnect →
      world.client.state = .httpc .requestSent → world.client.dropped = false →
        ShortLines (world.client.relay.input ++ pieces.flatten) →
          httpcAnswer env world pieces =
            statusVerdict world.config world.auth (statusRead world.client.relay.input pieces) := by
  induction pieces with
  | nil =>
      intro world subsys state live short
      simp [httpcAnswer, World.verdict, live, state, statusRead, statusVerdict]
  | cons piece pieces ih =>
      intro world subsys state live short
      have waits : world.client.waitsReply = true := by
        simp [Client.waitsReply, Client.firstLineDue, subsys, state, live]
      simp only [httpcAnswer, waits, ↓reduceIte, httpcHear, httpcReadCb, World.withClient_client,
        Client.setBuf_state, state, statusRead]
      rw [List.flatten_cons, ← List.append_assoc] at short
      have input : (world.client.setBuf .relay (world.client.relay.receive piece)).relay.input =
          world.client.relay.input ++ piece := rfl
      rw [input]
      cases found : redsocksEvbufferReadline.next (world.client.relay.input ++ piece) with
      | none =>
          have oneLine := (delimited_next_eq_none_iff 10 _ _).mp found
          have room := short _ (List.prefix_append _ _).isInfix oneLine
          dsimp only
          rw [if_neg (Nat.not_le.mpr room)]
          exact ih _ subsys state live short
      | some pair =>
          obtain ⟨line, after⟩ := pair
          have behind : after ++ pieces.flatten <:+ world.client.relay.input ++ piece ++ pieces.flatten := by
            obtain ⟨front, frontEq⟩ := redsocksEvbufferReadline.next_suffix found
            exact ⟨front, by rw [← List.append_assoc, frontEq]⟩
          dsimp only
          cases status : sscanfHttpStatus line with
          | none => exact ih _ subsys state live (short.suffix behind)
          | some code =>
              simp only [statusVerdict]
              split
              · exact httpcAnswer_authRequired smooth _ (by exact live) pieces
              · split
                · exact httpcAnswer_headers smooth pieces world _ subsys live
                · exact httpcAnswer_dropped world _ pieces

end Callback

section Cuts

theorem statusRead_first {line behind : Bytes} {code : Nat} (status : sscanfHttpStatus line = some code)
    (pieces : List Bytes) : ∀ buffer : Bytes, redsocksEvbufferReadline.next buffer = none →
      redsocksEvbufferReadline.next (buffer ++ pieces.flatten) = some (line, behind) →
        ∃ read after unread, pieces = read ++ unread ∧
          statusRead buffer pieces = some (code, after, unread) ∧ after ++ unread.flatten = behind ∧
          ∀ sooner later, pieces = sooner ++ later → later.flatten.length ≤ behind.length →
            later.flatten.length ≤ unread.flatten.length := by
  induction pieces with
  | nil =>
      intro buffer missing found
      simp [missing] at found
  | cons piece pieces ih =>
      intro buffer missing found
      have late : behind.length < (piece :: pieces).flatten.length :=
        redsocksEvbufferReadline.next_late missing found
      rw [List.flatten_cons, ← List.append_assoc] at found
      cases early : redsocksEvbufferReadline.next (buffer ++ piece) with
      | none =>
          obtain ⟨read, after, unread, split, reads, behindEq, last⟩ := ih (buffer ++ piece) early found
          refine ⟨piece :: read, after, unread, by simp [split], ?_, behindEq, ?_⟩
          · simpa [statusRead, early] using reads
          · intro sooner later cut reached
            cases sooner with
            | nil =>
                rw [List.nil_append] at cut
                rw [← cut] at reached
                omega
            | cons first sooner => exact last sooner later (List.cons.inj cut).2 reached
      | some pair =>
          obtain ⟨other, after⟩ := pair
          have whole := redsocksEvbufferReadline.next_append pieces.flatten early
          rw [found, Option.some.injEq, Prod.mk.injEq] at whole
          obtain ⟨rfl, behindEq⟩ := whole
          refine ⟨[piece], after, pieces, rfl, by simp [statusRead, early, status], behindEq.symm, ?_⟩
          intro sooner later cut reached
          cases sooner with
          | nil =>
              rw [List.nil_append] at cut
              rw [← cut] at reached
              omega
          | cons first sooner =>
              have split : pieces = sooner ++ later := (List.cons.inj cut).2
              rw [split, List.flatten_append, List.length_append]
              omega

theorem getAuthRequestHeader_found_iff {buffer line left : Bytes} :
    getAuthRequestHeader buffer = (some line, left) ↔
      redsocksEvbufferReadline.drain HeaderSearch.look HeaderSearch.isDone .searching buffer =
        (.found line, left) := by
  unfold getAuthRequestHeader
  cases redsocksEvbufferReadline.drain HeaderSearch.look HeaderSearch.isDone .searching buffer with
  | mk search rest => cases search <;> simp

/-- A challenge that is found somewhere behind the status line is found by the read that takes the
line exactly when it has come whole by then. -/
theorem getAuthRequestHeader_cut {after more line left : Bytes}
    (whole : getAuthRequestHeader (after ++ more) = (some line, left)) :
    (getAuthRequestHeader after).1 = if more.length ≤ left.length then some line else none := by
  rw [getAuthRequestHeader_found_iff] at whole
  have reaches := redsocksEvbufferReadline.drain_done_iff _ _ whole rfl
  rw [redsocksEvbufferReadline.drain_append] at whole
  unfold getAuthRequestHeader
  cases drained : redsocksEvbufferReadline.drain HeaderSearch.look HeaderSearch.isDone .searching
      after with
  | mk search rest =>
      rw [drained] at whole reaches
      cases search with
      | searching => rw [if_neg (reaches.not.mp (by simp [HeaderSearch.isDone]))]
      | absent =>
          rw [redsocksEvbufferReadline.drain_of_done _ _ (by rfl)] at whole
          simp at whole
      | found other =>
          rw [redsocksEvbufferReadline.drain_of_done _ _ (by rfl), Prod.mk.injEq] at whole
          rw [if_pos (reaches.mp rfl), HeaderSearch.found.inj whole.1]

theorem getAuthRequestHeader_none {after more : Bytes}
    (missing : (getAuthRequestHeader (after ++ more)).1 = none) :
    (getAuthRequestHeader after).1 = none := by
  unfold getAuthRequestHeader at missing ⊢
  rw [redsocksEvbufferReadline.drain_append] at missing
  cases drained : redsocksEvbufferReadline.drain HeaderSearch.look HeaderSearch.isDone .searching
      after with
  | mk search rest =>
      rw [drained] at missing
      cases search with
      | found other =>
          rw [redsocksEvbufferReadline.drain_of_done _ _ (by rfl)] at missing
          simp at missing
      | _ => rfl

theorem statusRead_unfinished (pieces : List Bytes) : ∀ buffer : Bytes,
    redsocksEvbufferReadline.next (buffer ++ pieces.flatten) = none →
      statusRead buffer pieces = none := by
  induction pieces with
  | nil => exact fun _ _ => rfl
  | cons piece pieces ih =>
      intro buffer missing
      rw [List.flatten_cons, ← List.append_assoc] at missing
      have early : redsocksEvbufferReadline.next (buffer ++ piece) = none := by
        cases found : redsocksEvbufferReadline.next (buffer ++ piece) with
        | none => rfl
        | some pair =>
            rw [redsocksEvbufferReadline.next_append pieces.flatten found] at missing
            simp at missing
      simp [statusRead, early, ih _ missing]

variable {config : Config} {auth : HttpAuth} {pieces : List Bytes} {line behind : Bytes} {code : Nat}

theorem statusVerdict_eq_undecided_iff (status : Option (Nat × Bytes × List Bytes)) :
    statusVerdict config auth status = .undecided ↔
      ∀ code after unread, status = some (code, after, unread) →
        (200 ≤ code ∧ code ≤ 299) ∧ headVerdict (after ++ unread.flatten) = .undecided := by
  rcases status with _ | ⟨code, after, unread⟩
  · simp [statusVerdict]
  · have retry : retryVerdict config auth after ≠ .undecided := by
      unfold retryVerdict
      split
      · split <;> simp
      · simp
    simp only [statusVerdict, Option.some.injEq, Prod.mk.injEq]
    constructor
    · rintro undecided _ _ _ ⟨rfl, rfl, rfl⟩
      split at undecided
      · exact (retry undecided).elim
      · split at undecided
        · next success => exact ⟨success, undecided⟩
        · simp at undecided
    · intro unfinished
      obtain ⟨success, unfinished⟩ := unfinished code after unread ⟨rfl, rfl, rfl⟩
      rw [if_neg (by omega), if_pos success]
      exact unfinished

/-! ### The text and the reader -/

theorem next_cases (text : Bytes) (noNul : 0 ∉ text) :
    10 ∉ text ∧ redsocksEvbufferReadline.next text = none ∨
      ∃ raw rest, 10 ∉ raw ∧ 0 ∉ raw ∧ 0 ∉ rest ∧ text = raw ++ 10 :: rest ∧
        redsocksEvbufferReadline.next text = some (stripCr raw, rest) := by
  cases split : splitAtFirst 10 text with
  | none =>
      have oneLine := (splitAtFirst_eq_none_iff 10 text).mp split
      exact .inl ⟨oneLine, (delimited_next_eq_none_iff 10 _ _).mpr oneLine⟩
  | some pair =>
      obtain ⟨raw, rest⟩ := pair
      obtain ⟨oneLine, rfl⟩ := (splitAtFirst_eq_some_iff 10 text raw rest).mp split
      rw [List.mem_append, not_or, List.mem_cons, not_or] at noNul
      exact .inr ⟨raw, rest, oneLine, noNul.1, noNul.2.2, rfl, next_rawLine oneLine noNul.1 rest⟩

theorem headVerdict_headBlock {text left : Bytes} {lines : List Bytes}
    (head : HeadBlock text lines left) : headVerdict text = .pumping left := by
  have drained : redsocksEvbufferReadline.drain httpcSkipLine httpcSkipDone .replyCame text =
      (.headersSkipped, left) := by
    induction head with
    | finish oneLine noNul empty =>
        rw [redsocksEvbufferReadline.drain_of_some _ _ rfl (next_rawLine oneLine noNul _)]
        simp only [httpcSkipLine, empty, List.isEmpty_nil, if_true]
        exact redsocksEvbufferReadline.drain_of_done _ _ rfl _
    | line oneLine noNul full _ ih =>
        rw [redsocksEvbufferReadline.drain_of_some _ _ rfl (next_rawLine oneLine noNul _)]
        simp only [httpcSkipLine, List.isEmpty_iff, full, if_false]
        exact ih
  rw [headVerdict, drained]

/-- What the loop over the header lines leaves is what stands behind the first empty line. -/
theorem headBlock_of_drain (text : Bytes) (noNul : 0 ∉ text) {left : Bytes}
    (drained : redsocksEvbufferReadline.drain httpcSkipLine httpcSkipDone .replyCame text =
      (.headersSkipped, left)) : ∃ lines, HeadBlock text lines left := by
  induction size : text.length using Nat.strongRecOn generalizing text with
  | ind size ih =>
      rcases next_cases text noNul with ⟨-, missing⟩ | ⟨raw, rest, oneLine, noNulRaw, noNulRest,
        rfl, found⟩
      · rw [redsocksEvbufferReadline.drain_of_none _ _ missing] at drained
        cases drained
      · rw [redsocksEvbufferReadline.drain_of_some _ _ rfl found, httpcSkipLine] at drained
        by_cases empty : stripCr raw = []
        · rw [if_pos (List.isEmpty_iff.mpr empty),
            redsocksEvbufferReadline.drain_of_done _ _ rfl] at drained
          obtain ⟨-, rfl⟩ := Prod.mk.inj drained
          exact ⟨[], .finish oneLine noNulRaw empty⟩
        · rw [if_neg (by rwa [List.isEmpty_iff])] at drained
          have shorter := redsocksEvbufferReadline.next_shorter found
          obtain ⟨lines, head⟩ := ih rest.length (by omega) rest noNulRest drained rfl
          exact ⟨_, .line oneLine noNulRaw empty head⟩

theorem headVerdict_eq_pumping_iff {text : Bytes} (noNul : 0 ∉ text) (left : Bytes) :
    headVerdict text = .pumping left ↔ ∃ lines, HeadBlock text lines left := by
  constructor
  · intro pumping
    rcases httpcSkip_cases text with ⟨other, drained⟩ | ⟨other, drained⟩
    · rw [headVerdict, drained] at pumping
      exact headBlock_of_drain text noNul (Verdict.pumping.inj pumping ▸ drained)
    · rw [headVerdict, drained] at pumping
      cases pumping
  · rintro ⟨lines, head⟩
    exact headVerdict_headBlock head

theorem headVerdict_cases (text : Bytes) :
    headVerdict text = .undecided ∨ ∃ left, headVerdict text = .pumping left := by
  rcases httpcSkip_cases text with ⟨left, drained⟩ | ⟨left, drained⟩
  · exact .inr ⟨left, by rw [headVerdict, drained]⟩
  · exact .inl (by rw [headVerdict, drained])

theorem headVerdict_undecided_iff_text {text : Bytes} (noNul : 0 ∉ text) :
    headVerdict text = .undecided ↔ ¬∃ lines left, HeadBlock text lines left := by
  constructor
  · rintro undecided ⟨lines, left, head⟩
    rw [headVerdict_headBlock head] at undecided
    cases undecided
  · intro open'
    rcases headVerdict_cases text with undecided | ⟨left, pumping⟩
    · exact undecided
    · obtain ⟨lines, head⟩ := (headVerdict_eq_pumping_iff noNul left).mp pumping
      exact absurd ⟨lines, left, head⟩ open'

theorem colon_of_named {line : Bytes}
    (named : strncasecmpEq line authRequestHeader authRequestHeader.length = true) : 58 ∈ line := by
  have same := eq_of_beq named
  have colon : (58 : UInt8) ∈
      ((authRequestHeader ++ [0]).take authRequestHeader.length).map tolower := by decide
  rw [← same] at colon
  obtain ⟨byte, inside, lower⟩ := List.mem_map.mp colon
  have exact58 : byte = 58 := by
    have each := forall_byte (fun byte => decide (tolower byte = 58 → byte = 58))
      (by decide +kernel) byte
    exact of_decide_eq_true each lower
  subst exact58
  have member := List.mem_of_mem_take inside
  simpa using member

theorem strchr_isNone (line : Bytes) (byte : UInt8) :
    (strchr line byte).isNone = decide (byte ∉ line) := by
  unfold strchr
  cases rest : line.dropWhile (· ≠ byte) with
  | nil =>
      have absent : byte ∉ line := by
        intro member
        have every := List.dropWhile_eq_nil_iff.mp rest byte member
        simp at every
      simp [absent]
  | cons first later =>
      have member : byte ∈ line := by
        by_contra absent
        have empty : line.dropWhile (· ≠ byte) = [] := by
          refine List.dropWhile_eq_nil_iff.mpr fun other inside => ?_
          refine decide_eq_true ?_
          rintro rfl
          exact absent inside
        rw [empty] at rest
        cases rest
      simp [member]

theorem look_eq (line : Bytes) : HeaderSearch.searching.look line =
    if strncasecmpEq line authRequestHeader authRequestHeader.length then .found line
    else if 58 ∈ line then .searching else .absent := by
  rw [HeaderSearch.look, strchr_isNone]
  by_cases colon : 58 ∈ line
  · have full : line.isEmpty = false := List.isEmpty_eq_false_iff.mpr (List.ne_nil_of_mem colon)
    simp [full, colon]
  · cases named : strncasecmpEq line authRequestHeader authRequestHeader.length with
    | true => exact absurd (colon_of_named named) colon
    | false => simp [colon]

theorem getAuthRequestHeader_challengeIn {text challenge left : Bytes} (noNul : 0 ∉ text)
    (inside : ChallengeIn text challenge left) :
    ∃ line, getAuthRequestHeader text = (some line, left) ∧ challengeOf line = challenge := by
  induction inside with
  | @here raw left oneLine named =>
      rw [List.mem_append, not_or] at noNul
      refine ⟨stripCr raw, ?_, rfl⟩
      rw [getAuthRequestHeader_found_iff, redsocksEvbufferReadline.drain_of_some _ _ rfl
        (next_rawLine oneLine noNul.1 _), look_eq, if_pos named]
      exact redsocksEvbufferReadline.drain_of_done _ _ rfl _
  | @behind raw rest challenge left oneLine colon unnamed _ ih =>
      rw [List.mem_append, not_or, List.mem_cons, not_or] at noNul
      obtain ⟨line, found, same⟩ := ih noNul.2.2
      refine ⟨line, ?_, same⟩
      rw [getAuthRequestHeader_found_iff] at found ⊢
      rw [redsocksEvbufferReadline.drain_of_some _ _ rfl (next_rawLine oneLine noNul.1 _), look_eq,
        if_neg (by simp [unnamed]), if_pos colon]
      exact found

theorem challengeIn_of_found (text : Bytes) (noNul : 0 ∉ text) {line left : Bytes}
    (found : getAuthRequestHeader text = (some line, left)) :
    ChallengeIn text (challengeOf line) left := by
  rw [getAuthRequestHeader_found_iff] at found
  induction size : text.length using Nat.strongRecOn generalizing text with
  | ind size ih =>
      rcases next_cases text noNul with ⟨-, missing⟩ | ⟨raw, rest, oneLine, -, noNulRest, rfl, next⟩
      · rw [redsocksEvbufferReadline.drain_of_none _ _ missing] at found
        cases found
      · rw [redsocksEvbufferReadline.drain_of_some _ _ rfl next, look_eq] at found
        cases named : strncasecmpEq (stripCr raw) authRequestHeader authRequestHeader.length with
        | true =>
            rw [named, if_pos rfl, redsocksEvbufferReadline.drain_of_done _ _ rfl] at found
            obtain ⟨same, rfl⟩ := Prod.mk.inj found
            obtain rfl := HeaderSearch.found.inj same
            exact .here oneLine named
        | false =>
            rw [named, if_neg Bool.false_ne_true] at found
            by_cases colon : 58 ∈ stripCr raw
            · rw [if_pos colon] at found
              have shorter := redsocksEvbufferReadline.next_shorter next
              exact .behind oneLine colon named (ih rest.length (by omega) rest noNulRest found rfl)
            · rw [if_neg colon, redsocksEvbufferReadline.drain_of_done _ _ rfl] at found
              cases found

theorem challengeIn_iff {text challenge left : Bytes} (noNul : 0 ∉ text) :
    ChallengeIn text challenge left ↔
      ∃ line, getAuthRequestHeader text = (some line, left) ∧ challengeOf line = challenge := by
  constructor
  · exact getAuthRequestHeader_challengeIn noNul
  · rintro ⟨line, found, rfl⟩
    exact challengeIn_of_found text noNul found

theorem retryVerdict_cut_iff {after : Bytes} {unread sooner : List Bytes}
    (split : pieces = sooner ++ unread) (behindEq : after ++ unread.flatten = behind)
    (noNul : 0 ∉ behind)
    (last : ∀ sooner later, pieces = sooner ++ later → later.flatten.length ≤ behind.length →
      later.flatten.length ≤ unread.flatten.length) :
    retryVerdict config auth after = retryVerdict config auth behind ↔
      (retries config auth = true → ∀ challenge left, ChallengeIn behind challenge left →
        ∀ read later, pieces = read ++ later → later.flatten.length ≤ behind.length →
          later.flatten.length ≤ left.length) := by
  unfold retryVerdict
  by_cases again : retries config auth = true
  · simp only [again, ↓reduceIte, forall_const, challengeIn_iff noNul]
    cases whole : getAuthRequestHeader behind with
    | mk found left =>
        cases found with
        | none =>
            have missing : (getAuthRequestHeader (after ++ unread.flatten)).1 = none := by
              rw [behindEq, whole]
            simp [getAuthRequestHeader_none missing]
        | some line =>
            have reaches := getAuthRequestHeader_cut (behindEq.symm ▸ whole)
            have inside : unread.flatten.length ≤ behind.length := by simp [← behindEq]
            rw [reaches]
            constructor
            · intro same challenge other found read later cut reached
              obtain ⟨otherLine, otherFound, -⟩ := found
              obtain ⟨-, rfl⟩ := Prod.mk.inj otherFound
              have bound := last read later cut reached
              by_contra late
              rw [if_neg (by omega)] at same
              cases same
            · intro uncut
              have early := uncut _ left ⟨line, rfl, rfl⟩ sooner unread split inside
              rw [if_pos early]
  · simp [again]

/-! ### The lines that the reads take -/

theorem firstStatus_cons_iff {raw rest : Bytes} {lines : List Bytes} (oneLine : 10 ∉ raw) :
    FirstStatus (raw ++ 10 :: rest) lines code behind ↔
      (sscanfHttpStatus (stripCr raw) = some code ∧ lines = [raw] ∧ behind = rest) ∨
        (sscanfHttpStatus (stripCr raw) = none ∧
          ∃ others, lines = raw :: others ∧ FirstStatus rest others code behind) := by
  constructor
  · intro first
    generalize whole : raw ++ 10 :: rest = answer at first
    cases first with
    | status otherLine status =>
        obtain ⟨rfl, rfl⟩ := cut_unique oneLine otherLine whole
        exact .inl ⟨status, rfl, rfl⟩
    | other otherLine status first =>
        obtain ⟨rfl, rfl⟩ := cut_unique oneLine otherLine whole
        exact .inr ⟨status, _, rfl, first⟩
  · rintro (⟨status, rfl, rfl⟩ | ⟨status, others, rfl, first⟩)
    · exact .status oneLine status
    · exact .other oneLine status first

theorem FirstStatus.lines_ne_nil {answer : Bytes} {lines : List Bytes}
    (first : FirstStatus answer lines code behind) : lines ≠ [] := by
  cases first <;> simp

theorem FirstStatus.suffix {answer : Bytes} {lines : List Bytes}
    (first : FirstStatus answer lines code behind) : 10 :: behind <:+ answer := by
  induction first with
  | status _ _ => exact List.suffix_append _ _
  | other _ _ _ ih =>
      exact ih.trans ((List.suffix_cons _ _).trans (List.suffix_append _ _))

theorem FirstStatus.late {front rest raw : Bytes} {later : List Bytes}
    (first : FirstStatus (front ++ rest) (raw :: later) code behind) (oneLine : 10 ∉ front) :
    front.length ≤ raw.length := by
  have whole : raw ++ [10] <+: front ++ rest := by
    generalize front ++ rest = answer at first
    cases first with
    | status => exact ⟨behind, by simp⟩
    | other _ _ _ => exact ⟨_, by simp; rfl⟩
  by_contra inside
  have short : (raw ++ [10]).length ≤ front.length := by
    rw [List.length_append]
    exact Nat.lt_of_not_le inside
  have part := List.prefix_of_prefix_length_le whole (List.prefix_append front rest) short
  exact oneLine (part.subset (by simp))

theorem readsFrom_le_length (place read : Nat) (pieces : List Bytes) :
    readsFrom place read pieces ≤ pieces.length := by
  induction pieces generalizing read with
  | nil => exact Nat.le_refl _
  | cons piece pieces ih =>
      rw [readsFrom]
      split
      · exact Nat.le_refl _
      · exact Nat.le_succ_of_le (ih _)

theorem readsFrom_of_le {place read : Nat} (reached : place ≤ read) (pieces : List Bytes) :
    readsFrom place read pieces = pieces.length := by
  cases pieces with
  | nil => rfl
  | cons piece pieces => exact if_pos (by omega)

theorem readsFrom_add (more place read : Nat) (pieces : List Bytes) :
    readsFrom (more + place) (more + read) pieces = readsFrom place read pieces := by
  induction pieces generalizing read with
  | nil => rfl
  | cons piece pieces ih =>
      rw [readsFrom, readsFrom, Nat.add_assoc, ih]
      exact if_congr Nat.add_le_add_iff_left rfl rfl

theorem linesTaken_add (more read place : Nat) (lines : List Bytes) :
    LinesTaken (more + read) pieces (more + place) lines ↔ LinesTaken read pieces place lines := by
  induction lines generalizing place with
  | nil => exact Iff.rfl
  | cons raw later ih =>
      simp only [LinesTaken, Nat.add_assoc, readsFrom_add, ih]

theorem LinesTaken.length_le {read place : Nat} {lines : List Bytes}
    (taken : LinesTaken read pieces place lines) : lines.length ≤ pieces.length := by
  cases lines with
  | nil => exact Nat.zero_le _
  | cons raw later => exact Nat.le_trans taken.1 (readsFrom_le_length _ _ _)

theorem linesTaken_cons_iff {piece : Bytes} {read place : Nat} {lines : List Bytes}
    (short : lines.length ≤ pieces.length) :
    LinesTaken read (piece :: pieces) place lines ↔
      LinesTaken (read + piece.length) pieces place lines := by
  induction lines generalizing place with
  | nil => exact Iff.rfl
  | cons raw later ih =>
      rw [List.length_cons] at short
      rw [LinesTaken, LinesTaken, ih (by omega)]
      refine and_congr_left fun _ => ?_
      rw [readsFrom]
      split
      · next reached =>
        rw [readsFrom_of_le reached]
        omega
      · exact Iff.rfl

theorem linesTaken_line_iff {piece raw after : Bytes} {read : Nat} {others : List Bytes}
    (sizes : read + piece.length = raw.length + (after.length + 1)) :
    LinesTaken read (piece :: pieces) 0 (raw :: others) ↔ LinesTaken after.length pieces 0 others := by
  have reached : readsFrom (0 + raw.length + 1) read (piece :: pieces) = pieces.length + 1 :=
    if_pos (by omega)
  have moved : LinesTaken (read + piece.length) pieces (0 + raw.length + 1) others ↔
      LinesTaken after.length pieces 0 others := by
    have shift := @linesTaken_add pieces (raw.length + 1) after.length 0 others
    rwa [show raw.length + 1 + after.length = read + piece.length by omega,
      show raw.length + 1 + 0 = 0 + raw.length + 1 by omega] at shift
  rw [LinesTaken, reached]
  constructor
  · rintro ⟨enough, taken⟩
    exact moved.mp ((linesTaken_cons_iff (by omega)).mp taken)
  · intro taken
    have short := taken.length_le
    exact ⟨by omega, (linesTaken_cons_iff short).mpr (moved.mpr taken)⟩

/-- The reads come to the first status line exactly if they take all the lines up to it. -/
theorem statusRead_iff (pieces : List Bytes) : ∀ buffer : Bytes, 0 ∉ buffer ++ pieces.flatten →
    ((∃ after unread, statusRead buffer pieces = some (code, after, unread) ∧
        after ++ unread.flatten = behind) ↔
      ∃ lines, FirstStatus (buffer ++ pieces.flatten) lines code behind ∧
        LinesTaken buffer.length pieces 0 lines) := by
  induction pieces with
  | nil =>
      intro buffer noNul
      constructor
      · rintro ⟨after, unread, reads, -⟩
        cases reads
      · rintro ⟨lines, first, taken⟩
        exact absurd (List.length_eq_zero_iff.mp (Nat.le_zero.mp taken.length_le))
          first.lines_ne_nil
  | cons piece pieces ih =>
      intro buffer noNul
      rw [List.flatten_cons, ← List.append_assoc] at noNul ⊢
      have front : 0 ∉ buffer ++ piece := fun member => noNul (List.mem_append_left _ member)
      rcases next_cases _ front with ⟨oneLine, missing⟩ | ⟨raw, after, oneLine, -, -, whole, found⟩
      · rw [statusRead, missing]
        dsimp only
        rw [ih _ noNul, List.length_append]
        refine exists_congr fun lines => and_congr_right fun first => ?_
        -- The first line ends behind this read, which takes none then.
        cases lines with
        | nil => exact Iff.rfl
        | cons raw later =>
            have late := first.late oneLine
            rw [List.length_append] at late
            constructor
            · intro taken
              exact (linesTaken_cons_iff taken.length_le).mpr taken
            · intro taken
              refine (linesTaken_cons_iff ?_).mp taken
              have enough := taken.1
              rw [readsFrom, if_neg (by omega)] at enough
              exact Nat.le_trans enough (readsFrom_le_length _ _ _)
      · rw [statusRead, found, whole, List.append_assoc, List.cons_append]
        dsimp only
        have sizes := congrArg List.length whole
        simp only [List.length_append, List.length_cons] at sizes
        rw [whole, List.append_assoc, List.cons_append, List.mem_append, not_or, List.mem_cons,
          not_or] at noNul
        simp only [firstStatus_cons_iff oneLine]
        cases status : sscanfHttpStatus (stripCr raw) with
        | none =>
            dsimp only
            rw [ih after noNul.2.2]
            constructor
            · rintro ⟨others, first, taken⟩
              refine ⟨raw :: others, .inr ⟨rfl, others, rfl, first⟩, ?_⟩
              exact (linesTaken_line_iff sizes).mpr taken
            · rintro ⟨lines, ⟨same, -, -⟩ | ⟨-, others, rfl, first⟩, taken⟩
              · cases same
              · exact ⟨others, first, (linesTaken_line_iff sizes).mp taken⟩
        | some other =>
            dsimp only
            constructor
            · rintro ⟨held, unread, same, rfl⟩
              obtain ⟨rfl, rest⟩ := Prod.mk.inj (Option.some.inj same)
              obtain ⟨rfl, rfl⟩ := Prod.mk.inj rest
              refine ⟨[raw], .inl ⟨rfl, rfl, rfl⟩, ?_, trivial⟩
              rw [readsFrom, if_pos (by omega)]
              exact Nat.succ_le_succ (Nat.zero_le _)
            · rintro ⟨lines, ⟨same, -, rfl⟩ | ⟨none, -⟩, -⟩
              · exact ⟨after, pieces, by rw [Option.some.inj same], rfl⟩
              · cases none

theorem statusVerdict_decides (answer : Bytes) (noNul : 0 ∉ answer) :
    Decides config auth answer (statusVerdict config auth (statusRead [] [answer])) := by
  rcases next_cases answer noNul with ⟨oneLine, missing⟩ | ⟨raw, behind, oneLine, -, noNulBehind, rfl,
    found⟩
  · simp only [statusRead, List.nil_append, missing, statusVerdict]
    exact .unfinished oneLine
  · simp only [statusRead, List.nil_append, found]
    cases status : sscanfHttpStatus (stripCr raw) with
    | none => exact .noStatus rfl oneLine status
    | some code =>
        have first : FirstStatus (raw ++ 10 :: behind) [raw] code behind := .status oneLine status
        simp only [statusVerdict, List.flatten_nil, List.append_nil]
        by_cases denied : code = 407
        · subst denied
          rw [if_pos rfl, retryVerdict]
          by_cases again : retries config auth = true
          · rw [if_pos again]
            cases whole : getAuthRequestHeader behind with
            | mk line left =>
                cases line with
                | none =>
                    refine .denied first fun _ => ?_
                    rintro ⟨challenge, other, inside⟩
                    obtain ⟨line, found, -⟩ := (challengeIn_iff noNulBehind).mp inside
                    rw [whole] at found
                    cases found
                | some line =>
                    exact .challenged first again
                      ((challengeIn_iff noNulBehind).mpr ⟨line, whole, rfl⟩)
          · rw [if_neg again]
            exact .denied first fun able => absurd able again
        · rw [if_neg denied]
          by_cases success : 200 ≤ code ∧ code ≤ 299
          · rw [if_pos success]
            rcases headVerdict_cases behind with undecided | ⟨left, pumping⟩
            · rw [undecided]
              exact .headerDue first success ((headVerdict_undecided_iff_text noNulBehind).mp undecided)
            · rw [pumping]
              obtain ⟨lines, head⟩ := (headVerdict_eq_pumping_iff noNulBehind left).mp pumping
              exact .connected first success head
          · rw [if_neg success]
            exact .refused first denied success

theorem statusVerdict_undecided_iff_text (noNul : 0 ∉ pieces.flatten) :
    statusVerdict config auth (statusRead [] pieces) = .undecided ↔
      ∀ lines code behind, FirstStatus pieces.flatten lines code behind → LinesTaken 0 pieces 0 lines →
        (200 ≤ code ∧ code ≤ 299) ∧ ¬∃ lines left, HeadBlock behind lines left := by
  have reads : ∀ code behind, (∃ after unread, statusRead [] pieces = some (code, after, unread) ∧
      after ++ unread.flatten = behind) ↔
        ∃ lines, FirstStatus pieces.flatten lines code behind ∧ LinesTaken 0 pieces 0 lines :=
    fun code behind => statusRead_iff pieces [] noNul
  have inside : ∀ code after unread, statusRead [] pieces = some (code, after, unread) →
      0 ∉ after ++ unread.flatten := by
    intro code after unread read member
    obtain ⟨lines, first, -⟩ := (reads code _).mp ⟨after, unread, read, rfl⟩
    exact noNul (first.suffix.subset (List.mem_cons_of_mem _ member))
  rw [statusVerdict_eq_undecided_iff]
  constructor
  · intro undecided lines code behind first taken
    obtain ⟨after, unread, read, rfl⟩ := (reads code behind).mpr ⟨lines, first, taken⟩
    obtain ⟨success, head⟩ := undecided code after unread read
    exact ⟨success, (headVerdict_undecided_iff_text (inside _ _ _ read)).mp head⟩
  · intro undecided code after unread read
    obtain ⟨lines, first, taken⟩ := (reads code _).mp ⟨after, unread, read, rfl⟩
    obtain ⟨success, head⟩ := undecided lines code _ first taken
    exact ⟨success, (headVerdict_undecided_iff_text (inside _ _ _ read)).mpr head⟩

theorem cutsAgree_other_iff {raw rest : Bytes} (oneLine : 10 ∉ raw)
    (whole : pieces.flatten = raw ++ 10 :: rest) (other : sscanfHttpStatus (stripCr raw) = none) :
    CutsAgree config auth pieces ↔
      ∀ lines code behind, FirstStatus pieces.flatten lines code behind → LinesTaken 0 pieces 0 lines →
        (200 ≤ code ∧ code ≤ 299) ∧ ¬∃ lines left, HeadBlock behind lines left := by
  have several : ∀ lines code behind, FirstStatus pieces.flatten lines code behind →
      2 ≤ lines.length := by
    intro lines code behind first
    rw [whole, firstStatus_cons_iff oneLine, other] at first
    obtain ⟨same, -, -⟩ | ⟨-, others, rfl, later⟩ := first
    · cases same
    · have more := List.length_pos_iff.mpr later.lines_ne_nil
      exact Nat.succ_le_succ more
  constructor
  · intro agree lines code behind first
    exact agree.status lines code behind first (several _ _ _ first)
  · intro undecided
    refine ⟨fun raw behind challenge left first => ?_, fun lines code behind first _ =>
      undecided lines code behind first⟩
    exact absurd (several _ _ _ first) (by simp)

theorem cutsAgree_status_iff {raw behind : Bytes} {code : Nat} (oneLine : 10 ∉ raw)
    (whole : pieces.flatten = raw ++ 10 :: behind)
    (status : sscanfHttpStatus (stripCr raw) = some code) :
    CutsAgree config auth pieces ↔
      (code = 407 → retries config auth = true →
        ∀ challenge left, ChallengeIn behind challenge left →
          ∀ read later, pieces = read ++ later → later.flatten.length ≤ behind.length →
            later.flatten.length ≤ left.length) := by
  have only : ∀ lines other after, FirstStatus pieces.flatten lines other after →
      code = other ∧ lines = [raw] ∧ after = behind := by
    intro lines other after first
    rw [whole, firstStatus_cons_iff oneLine, status] at first
    obtain ⟨same, rest⟩ | ⟨none, -⟩ := first
    · exact ⟨Option.some.inj same, rest⟩
    · cases none
  have first : FirstStatus pieces.flatten [raw] code behind := by
    rw [whole]
    exact .status oneLine status
  constructor
  · rintro agree rfl able challenge left inside
    exact agree.challenge raw behind challenge left first able inside
  · intro uncut
    refine ⟨?_, fun lines other after first more => ?_⟩
    · intro other after challenge left first able inside
      obtain ⟨denied, -, rfl⟩ := only _ _ _ first
      exact uncut denied able challenge left inside
    · rw [(only _ _ _ first).2.1] at more
      exact absurd more (by simp)

/-- One read of an answer makes of the client what the answer says; cut into reads, the answer makes
the same of it exactly if the cuts agree with it. -/
theorem httpc_answer_split_iff {env : Env} {world : World} (asked : Asked world.client)
    (smooth : env.smooth) (pieces : List Bytes) (short : ShortLines pieces.flatten)
    (noNul : 0 ∉ pieces.flatten) :
    Decides world.config world.auth pieces.flatten (httpcAnswer env world [pieces.flatten]) ∧
      (httpcAnswer env world pieces = httpcAnswer env world [pieces.flatten] ↔
        CutsAgree world.config world.auth pieces) := by
  rw [httpcAnswer_eq smooth pieces world asked.subsys asked.state asked.live
      (by simpa [asked.unread] using short),
    httpcAnswer_eq smooth [pieces.flatten] world asked.subsys asked.state asked.live
      (by simpa [asked.unread] using short), asked.unread]
  refine ⟨statusVerdict_decides pieces.flatten noNul, ?_⟩
  rcases next_cases pieces.flatten noNul with ⟨oneLine, missing⟩ | ⟨raw, behind, oneLine, -,
    noNulBehind, whole, found⟩
  · have none : ∀ lines code behind, ¬FirstStatus pieces.flatten lines code behind :=
      fun lines code behind first => oneLine (first.suffix.subset (List.mem_cons_self ..))
    have agree : CutsAgree world.config world.auth pieces :=
      ⟨fun _ _ _ _ first => absurd first (none _ _ _), fun _ _ _ first => absurd first (none _ _ _)⟩
    simp [statusRead, missing, statusRead_unfinished pieces [] missing, agree]
  · cases status : sscanfHttpStatus (stripCr raw) with
    | none =>
        have once : statusRead [] [pieces.flatten] = none := by simp [statusRead, found, status]
        rw [once, statusVerdict, statusVerdict_undecided_iff_text noNul]
        exact (cutsAgree_other_iff oneLine whole status).symm
    | some code =>
        have once : statusRead [] [pieces.flatten] = some (code, behind, []) := by
          simp [statusRead, found, status]
        obtain ⟨sooner, after, unread, split, reads, behindEq, last⟩ :=
          statusRead_first status pieces [] redsocksEvbufferReadline.next_nil found
        have agree := @cutsAgree_status_iff world.config world.auth pieces raw behind code oneLine
          whole status
        rw [once, reads, agree]
        simp only [statusVerdict, List.flatten_nil, List.append_nil, behindEq]
        by_cases denied : code = 407
        · simp only [denied, if_true, forall_const]
          exact retryVerdict_cut_iff split behindEq noNulBehind last
        · simp [denied]

def challengedWorld : World :=
  let start := acceptedWorld Env.ok { login := some (ascii "u"), password := some (ascii "p") }
    { lastAuthQuery := none, lastAuthCount := 0 } .httpConnect
    { a := 10, b := 0, c := 0, d := 1, port := 80 }
  (step start (.writeReady .relay 0 Env.ok)).getD start

theorem challengedWorld_asked : Asked challengedWorld.client := by
  constructor <;> decide

def cutChallenge : List Bytes :=
  [ascii "HTTP/1.0 407 No\r\n", ascii "Proxy-Authenticate: Basic\r\n\r\n"]

theorem shortLines_of_short {text : Bytes} (short : text.length < httpHeadWmHigh) :
    ShortLines text :=
  fun _ inside _ => Nat.lt_of_le_of_lt inside.length_le short

theorem httpc_answer_split_iff_challenge :
    Decides challengedWorld.config challengedWorld.auth cutChallenge.flatten
        (httpcAnswer Env.ok challengedWorld [cutChallenge.flatten]) ∧
      (httpcAnswer Env.ok challengedWorld cutChallenge =
          httpcAnswer Env.ok challengedWorld [cutChallenge.flatten] ↔
        CutsAgree challengedWorld.config challengedWorld.auth cutChallenge) :=
  httpc_answer_split_iff challengedWorld_asked (fun _ => rfl) cutChallenge
    (shortLines_of_short (by decide)) (by decide)

theorem httpc_answer_cut_drops :
    Asked challengedWorld.client ∧ ShortLines cutChallenge.flatten ∧ 0 ∉ cutChallenge.flatten ∧
      httpcAnswer Env.ok challengedWorld [cutChallenge.flatten] =
        .reconnected (some (ascii "Basic")) ∧
      httpcAnswer Env.ok challengedWorld cutChallenge = .dropped :=
  ⟨challengedWorld_asked, shortLines_of_short (by decide), by decide, by decide +kernel,
    by decide +kernel⟩

end Cuts

end ProxySet
