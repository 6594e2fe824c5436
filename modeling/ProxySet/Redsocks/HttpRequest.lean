import ProxySet.Redsocks.HttpWait
import ProxySet.Redsocks.Shutdown

/-!
The request of an http-relay client on its way to the proxy.  The request is read
line by line and rewritten; it waits for the connection in `client_buffer`, where
its body is collected as well, and is sent again on every new connection.
-/

namespace ProxySet

open StepRun TokenReader

structure HttpRequest where
  first : Bytes
  lines : List Bytes
  body : Bytes

def isHostLine (line : Bytes) : Bool :=
  strncasecmpEq line (ascii "Host") 4

def isKept (line : Bytes) : Bool :=
  isHostLine line || !(strncasecmpEq line (ascii "Proxy-Connection") 16 ||
    strncasecmpEq line (ascii "Connection") 10)

def hostValue (lines : List Bytes) : Option Bytes :=
  (lines.filter isHostLine).getLast?.map fun line => (line.drop 5).dropWhile isspace

namespace HttpRequest

/-- The bytes begin with the lines of the request; what follows them is its body. -/
structure Received (request : HttpRequest) (received : Bytes) : Prop where
  reads : redsocksEvbufferReadline.Reads received (request.first :: request.lines ++ [[]]) request.body
  first : request.first ≠ []
  lines : [] ∉ request.lines

def firstline (request : HttpRequest) (address : SockaddrIn) : Bytes :=
  request.first.takeWhile (· ≠ 32) ++ [32] ++ ascii "http://" ++
    (hostValue request.lines).getD (fmtHttpHost address) ++
    (request.first.dropWhile (· ≠ 32)).drop 1 ++ crlf

def headers (request : HttpRequest) (address : SockaddrIn) : Bytes :=
  (request.lines.filter isKept ++
    (if (hostValue request.lines).isSome then [] else [ascii "Host: " ++ fmtHttpHost address]) ++
    [ascii "Proxy-Connection: close", ascii "Connection: close", []]).flatMap (· ++ crlf)

/-- What one connection to the proxy is sent; `authorization` is the added header line, if any. -/
def stream (request : HttpRequest) (address : SockaddrIn) (authorization : Bytes) : Bytes :=
  request.firstline address ++ authorization ++ request.headers address ++ request.body

end HttpRequest

/-- The header line for the request that was made last: none if it has no credentials, or the one
`Proxy-Authorization` line with what an encoder has made of the instance's login and password for
the challenge that was stored. -/
def IsAuthorization (config : Config) (asked : Option (Option Bytes × Option Bytes))
    (authorization : Bytes) : Prop :=
  (∃ challenge, asked = some (none, challenge)) ∧ authorization = [] ∨
    ∃ scheme text query, asked = some (some text, some query) ∧ Encoded config query scheme text ∧
      authorization = authLine scheme text

section Reading

variable {address : SockaddrIn} {env : Env}

def requestStart : HttprRead :=
  { httpr := {
      firstline := none, host := none, hasHost := false, clientBuffer := [], relayBuffer := [] }
    connectRelay := false
    doDrop := false
    logs := [] }

/-- What has been read of all that a client has sent, when no call fails. -/
def requestRead (address : SockaddrIn) (received : Bytes) : HttprRead × Bytes :=
  redsocksEvbufferReadline.drain (HttprRead.line Env.ok address) HttprRead.isDone requestStart received

/-- What is known of a request after its first line and some header lines. -/
def headerRead (first : Bytes) (lines : List Bytes) : HttprRead :=
  { requestStart with
    httpr := {
      firstline := some first
      host := hostValue lines
      hasHost := (hostValue lines).isSome
      clientBuffer := (lines.filter isKept).flatMap (· ++ crlf)
      relayBuffer := [] } }

theorem hostValue_append (lines : List Bytes) (line : Bytes) :
    hostValue (lines ++ [line]) =
      if isHostLine line then some ((line.drop 5).dropWhile isspace) else hostValue lines := by
  unfold hostValue
  rw [List.filter_append]
  cases host : isHostLine line <;> simp [host]

theorem line_headerRead (first : Bytes) (lines : List Bytes) {line : Bytes} (present : line ≠ []) :
    HttprRead.line Env.ok address (headerRead first lines) line = headerRead first (lines ++ [line]) := by
  have full : line.isEmpty = false := List.isEmpty_eq_false_iff.mpr present
  have value := hostValue_append lines line
  have kept : (lines ++ [line]).filter isKept =
      lines.filter isKept ++ if isKept line then [line] else [] := by
    rw [List.filter_append]
    cases keep : isKept line <;> simp [keep]
  simp only [headerRead, value, kept]
  cases host : isHostLine line <;>
    cases proxy : strncasecmpEq line (ascii "Proxy-Connection") 16 <;>
    cases connection : strncasecmpEq line (ascii "Connection") 10 <;>
    simp [isHostLine] at host <;>
    simp [HttprRead.line, HttprRead.append, httprAddLine, full, isKept, isHostLine, host, proxy,
      connection, Env.ok]

theorem fold_headerRead (first : Bytes) (lines : List Bytes) (present : first ≠ []) (full : [] ∉ lines) :
    (first :: lines).foldl (HttprRead.line Env.ok address) requestStart = headerRead first lines := by
  induction lines using List.reverseRecOn with
  | nil =>
      have some : first.isEmpty = false := List.isEmpty_eq_false_iff.mpr present
      simp [HttprRead.line, requestStart, headerRead, some, hostValue]
  | append_singleton lines line ih =>
      simp only [List.mem_append, List.mem_singleton, not_or] at full
      rw [← List.cons_append, List.foldl_append, ih full.1]
      exact line_headerRead first lines (Ne.symm full.2)

theorem append_ok (read : HttprRead) (line : Bytes) : read.append Env.ok line =
    { read with httpr := { read.httpr with
      clientBuffer := httprAddLine read.httpr.clientBuffer line } } := rfl

theorem finish_ok (address : SockaddrIn) (read : HttprRead) :
    (read.finish Env.ok address).doDrop = (read.toss Env.ok address).doDrop ∧
      (read.finish Env.ok address).httpr.firstline = (read.toss Env.ok address).httpr.firstline ∧
      (read.finish Env.ok address).httpr.clientBuffer =
        (read.toss Env.ok address).httpr.clientBuffer ++
          ((if (read.toss Env.ok address).httpr.hasHost then []
            else [ascii "Host: " ++ fmtHttpHost address]) ++
          [ascii "Proxy-Connection: close", ascii "Connection: close", []]).flatMap (· ++ crlf) := by
  unfold HttprRead.finish
  dsimp only
  split <;> simp [append_ok, httprAddLine, *]

theorem finish_start : (requestStart.finish Env.ok address).doDrop = true := by
  rw [(finish_ok address requestStart).1]
  rfl

theorem finish_headerRead (request : HttpRequest)
    (kept : ((headerRead request.first request.lines).finish Env.ok address).doDrop = false) :
    ((headerRead request.first request.lines).finish Env.ok address).httpr.firstline =
        some (request.firstline address) ∧
      ((headerRead request.first request.lines).finish Env.ok address).httpr.clientBuffer =
        request.headers address := by
  obtain ⟨drops, first, buffer⟩ := finish_ok address
    (headerRead request.first request.lines)
  rw [drops] at kept
  rw [first, buffer]
  have host : (if (headerRead request.first request.lines).httpr.hasHost then
      (headerRead request.first request.lines).httpr.host.getD [] else fmtHttpHost address) =
        (hostValue request.lines).getD (fmtHttpHost address) := by
    cases value : hostValue request.lines <;> simp [headerRead, value]
  simp only [HttprRead.toss, httprTossHttpFirstline, host] at kept ⊢
  cases space : strchr request.first 32 with
  | none => simp [headerRead, space] at kept
  | some found =>
      have foundEq : found = request.first.dropWhile (· ≠ 32) := by
        unfold strchr at space
        split at space
        · simp at space
        · exact (Option.some.inj space).symm
      simp [headerRead, space, Env.ok, HttpRequest.firstline, HttpRequest.headers, foundEq]

theorem line_cases (address : SockaddrIn) (read : HttprRead) {line : Bytes} (full : line.isEmpty = false) :
    ∃ httpr, (∀ env, HttprRead.line env address read line = { read with httpr := httpr }) ∨
      ∀ env, HttprRead.line env address read line = { read with httpr := httpr }.append env line := by
  simp only [HttprRead.line, full, Bool.false_eq_true, ↓reduceIte]
  by_cases first : read.httpr.firstline.isNone = true
  · exact ⟨_, Or.inl fun env => if_pos first⟩
  · simp only [first, Bool.false_eq_true, ↓reduceIte]
    by_cases host : strncasecmpEq line (ascii "Host") 4 = true
    · exact ⟨_, Or.inr fun env => if_pos host⟩
    · simp only [host, Bool.false_eq_true, ↓reduceIte]
      by_cases proxy : strncasecmpEq line (ascii "Proxy-Connection") 16 = true
      · exact ⟨read.httpr, Or.inl fun env => if_pos proxy⟩
      · simp only [proxy, Bool.false_eq_true, ↓reduceIte]
        by_cases connection : strncasecmpEq line (ascii "Connection") 10 = true
        · exact ⟨read.httpr, Or.inl fun env => if_pos connection⟩
        · exact ⟨read.httpr, Or.inr fun env => if_neg connection⟩

theorem line_empty (read : HttprRead) {line : Bytes} (empty : line.isEmpty = true) :
    HttprRead.line env address read line = read.finish env address :=
  if_pos empty

theorem line_unfinished {read : HttprRead} {line : Bytes} (before : read.connectRelay = false) :
    (HttprRead.line Env.ok address read line).connectRelay = line.isEmpty := by
  cases empty : line.isEmpty with
  | true =>
      rw [line_empty read empty]
      rfl
  | false =>
      obtain ⟨httpr, same | appended⟩ := line_cases address read empty
      · rw [same]
        exact before
      · rw [appended]
        exact before

/-- A request that has been read to its end is the one that was sent. -/
theorem requestRead_done {received body : Bytes} {read : HttprRead}
    (whole : requestRead address received = (read, body)) (ended : read.connectRelay = true)
    (kept : read.doDrop = false) :
    ∃ request : HttpRequest, request.Received received ∧ request.body = body ∧
      read.httpr.firstline = some (request.firstline address) ∧
      read.httpr.clientBuffer = request.headers address := by
  obtain ⟨tokens, reads, folded, early⟩ := redsocksEvbufferReadline.drain_reads
    (HttprRead.line Env.ok address) HttprRead.isDone requestStart received
  rw [← requestRead, whole] at reads folded
  dsimp only at reads folded
  -- No line before the last one is empty, since an empty line ends the loop.
  have full : ∀ front line later, tokens = front ++ line :: later → later ≠ [] → line ≠ [] := by
    rintro front line later split more rfl
    obtain ⟨other, later, rfl⟩ := List.exists_cons_of_ne_nil more
    have running := early front [] (other :: later) split
    have next := early (front ++ [[]]) other later (by simp [split])
    have before : (front.foldl (HttprRead.line Env.ok address) requestStart).connectRelay = false :=
      (Bool.or_eq_false_iff.mp running).1
    rw [List.foldl_append, List.foldl_cons, List.foldl_nil, HttprRead.isDone,
      line_unfinished before] at next
    simp at next
  rcases List.eq_nil_or_concat tokens with rfl | ⟨front, last, rfl⟩
  · simp [folded, requestStart] at ended
  rw [List.concat_eq_append] at *
  have before : (front.foldl (HttprRead.line Env.ok address) requestStart).connectRelay = false :=
    (Bool.or_eq_false_iff.mp (early front last [] rfl)).1
  rw [List.foldl_append, List.foldl_cons, List.foldl_nil] at folded
  rw [folded, line_unfinished before, List.isEmpty_iff] at ended
  subst ended
  cases front with
  | nil =>
      rw [folded] at kept
      exact absurd (finish_start.symm.trans kept) (by simp)
  | cons first lines =>
      have present : first ≠ [] := full [] first (lines ++ [[]]) rfl (by simp)
      have filled : [] ∉ lines := by
        intro member
        obtain ⟨left, right, rfl⟩ := List.append_of_mem member
        exact full (first :: left) [] (right ++ [[]]) (by simp) (by simp) rfl
      rw [fold_headerRead first lines present filled] at folded
      refine ⟨{ first := first, lines := lines, body := body }, ⟨reads, present, filled⟩, rfl, ?_⟩
      rw [folded] at kept ⊢
      exact finish_headerRead { first := first, lines := lines, body := body } kept

theorem append_env {read : HttprRead} {line : Bytes} (kept : (read.append env line).doDrop = false) :
    read.append env line = read.append Env.ok line := by
  unfold HttprRead.append at kept ⊢
  split at kept
  · simp at kept
  · next works => simp [works, Env.ok]

theorem append_kept {read : HttprRead} {line : Bytes} (kept : (read.append env line).doDrop = false) :
    read.doDrop = false := by
  rw [append_env kept, append_ok] at kept
  exact kept

theorem toss_env {read : HttprRead} (kept : (read.toss env address).doDrop = false) :
    read.toss env address = read.toss Env.ok address := by
  unfold HttprRead.toss httprTossHttpFirstline at kept ⊢
  split at kept
  · simp at kept
  · next present =>
    rw [if_neg present, if_neg present]
    dsimp only at kept ⊢
    cases space : strchr (read.httpr.firstline.getD []) 32 with
    | none => rfl
    | some found =>
        rw [space] at kept
        dsimp only at kept ⊢
        cases fails : env.fails .httprToss with
        | true => simp [fails] at kept
        | false => simp [Env.ok]

theorem finish_env {read : HttprRead} (kept : (read.finish env address).doDrop = false) :
    read.finish env address = read.finish Env.ok address := by
  unfold HttprRead.finish at kept ⊢
  dsimp only at kept ⊢
  have closed := append_kept kept
  have proxied := append_kept closed
  have hosted := append_kept proxied
  rw [append_env kept, append_env closed, append_env proxied]
  have tossed : (read.toss env address).doDrop = false := by
    split at hosted
    · exact hosted
    · exact append_kept hosted
  rw [toss_env tossed] at hosted ⊢
  split
  · rfl
  · next absent =>
    rw [if_neg absent] at hosted
    rw [append_env hosted]

/-- A call that fails drops the client, so what has been read without that does not depend on them. -/
theorem line_env {read : HttprRead} {line : Bytes}
    (kept : (HttprRead.line env address read line).doDrop = false) :
    HttprRead.line env address read line = HttprRead.line Env.ok address read line := by
  cases empty : line.isEmpty with
  | true =>
      rw [line_empty read empty] at kept ⊢
      rw [line_empty read empty, finish_env kept]
  | false =>
      obtain ⟨httpr, same | appended⟩ := line_cases address read empty
      · rw [same, same]
      · rw [appended] at kept ⊢
        rw [appended, append_env kept]

theorem drain_env (env : Env) (address : SockaddrIn) (read : HttprRead) (buffer : Bytes)
    (kept : (redsocksEvbufferReadline.drain (HttprRead.line env address) HttprRead.isDone read
      buffer).1.doDrop = false) :
    redsocksEvbufferReadline.drain (HttprRead.line env address) HttprRead.isDone read buffer =
      redsocksEvbufferReadline.drain (HttprRead.line Env.ok address) HttprRead.isDone read buffer := by
  induction read, buffer using
      redsocksEvbufferReadline.drain_induction (HttprRead.line env address) HttprRead.isDone with
  | stop read buffer stopped =>
      rcases stopped with stopped | missing
      · rw [redsocksEvbufferReadline.drain_of_done _ _ stopped,
          redsocksEvbufferReadline.drain_of_done _ _ stopped]
      · rw [redsocksEvbufferReadline.drain_of_none _ _ missing,
          redsocksEvbufferReadline.drain_of_none _ _ missing]
  | take read buffer line rest running found ih =>
      rw [redsocksEvbufferReadline.drain_of_some _ _ running found] at kept ⊢
      rw [redsocksEvbufferReadline.drain_of_some _ _ running found]
      have taken : (HttprRead.line env address read line).doDrop = false := by
        cases drops : (HttprRead.line env address read line).doDrop with
        | false => rfl
        | true =>
            have done : (HttprRead.line env address read line).isDone = true := by
              simp [HttprRead.isDone, drops]
            rw [redsocksEvbufferReadline.drain_of_done _ _ done, drops] at kept
            simp at kept
      rw [ih kept, line_env taken]

theorem toss_logs {read : HttprRead} (silent : read.doDrop = false → read.logs = [])
    (kept : (read.toss Env.ok address).doDrop = false) : (read.toss Env.ok address).logs = [] := by
  unfold HttprRead.toss at kept ⊢
  split
  · next none => simp [none] at kept
  · next present =>
    rw [if_neg present] at kept
    cases made : httprTossHttpFirstline Env.ok read.httpr address with
    | error messages => simp [made] at kept
    | ok first =>
        rw [made] at kept
        exact silent kept

theorem line_logs {read : HttprRead} {line : Bytes}
    (silent : read.doDrop = false → read.logs = [])
    (kept : (HttprRead.line Env.ok address read line).doDrop = false) :
    (HttprRead.line Env.ok address read line).logs = [] := by
  cases empty : line.isEmpty with
  | true =>
      rw [line_empty read empty] at kept ⊢
      have logs : (read.finish Env.ok address).logs = (read.toss Env.ok address).logs := by
        unfold HttprRead.finish
        dsimp only
        split <;> rfl
      rw [logs]
      exact toss_logs silent ((finish_ok address read).1 ▸ kept)
  | false =>
      obtain ⟨httpr, same | appended⟩ := line_cases address read empty
      · rw [same] at kept ⊢
        exact silent kept
      · rw [appended] at kept ⊢
        exact silent kept

theorem requestRead_logs (address : SockaddrIn) (received : Bytes) (kept : (requestRead address received).1.doDrop = false) :
    (requestRead address received).1.logs = [] := by
  refine redsocksEvbufferReadline.drain_invariant (HttprRead.line Env.ok address) HttprRead.isDone
    (fun read => read.doDrop = false → read.logs = []) ?_ requestStart received (fun _ => rfl) kept
  intro read line _ silent
  exact line_logs silent

end Reading

def Client.written (client : Client) : Bytes :=
  client.relay.sent ++ client.relay.output

structure AskView where
  subsys : Subsys
  destaddr : SockaddrIn
  readcb : ReadCb
  low : Nat
  state : State
  rcvd : Bytes
  input : Bytes
  httpr : HttprClient
  written : Bytes
  asked : Option (Option Bytes × Option Bytes)

@[simps]
def Client.askView (client : Client) : AskView :=
  { subsys := client.subsys
    destaddr := client.destaddr
    readcb := client.client.readcb
    low := client.client.wmRead.low
    state := client.state
    rcvd := client.client.rcvd
    input := client.client.input
    httpr := client.httpr
    written := client.written
    asked := client.lastRequest }

/-- The request has been read; the body that is still in the input belongs to it. -/
structure Collecting (view : AskView) (request : HttpRequest) : Prop where
  received : request.Received view.rcvd
  firstline : view.httpr.firstline = some (request.firstline view.destaddr)
  buffer : view.httpr.clientBuffer ++ view.input = request.headers view.destaddr ++ request.body

/-- How far the request of a client has come before the pump. -/
inductive Asking (config : Config) (view : AskView) : Prop where
  | reading : view.state = .httpr .new → view.written = [] →
      requestRead view.destaddr view.rcvd = ({ requestStart with httpr := view.httpr }, view.input) →
      Asking config view
  | waiting (request : HttpRequest) : view.state = .httpr .recvRequestHeaders →
      Collecting view request → view.input = [] → view.written = [] → Asking config view
  | asked (request : HttpRequest) (authorization : Bytes) : view.state.httprRequestSent = true →
      Collecting view request → view.input = [] → IsAuthorization config view.asked authorization →
      view.written = request.stream view.destaddr authorization → Asking config view

structure Listening (view : AskView) : Prop where
  subsys : view.subsys = .httpRelay
  readcb : view.readcb = .httprClient
  low : view.low = 0

def Begun (config : Config) (view : AskView) : Prop :=
  view.written = [] ∨ ∃ request : HttpRequest, request.Received view.rcvd ∧
    (view.written = request.firstline view.destaddr ∨
      ∃ authorization, IsAuthorization config view.asked authorization ∧
        view.written <+: request.stream view.destaddr authorization)

/-- What has been written and what the pump still has to move are the request. -/
def Streamed (config : Config) (view : AskView) : Prop :=
  ∃ (request : HttpRequest) (authorization : Bytes), request.Received view.rcvd ∧
    IsAuthorization config view.asked authorization ∧
    view.written ++ view.input = request.stream view.destaddr authorization

inductive Served (config : Config) (client : Client) : Prop where
  | dropped : client.dropped = true → Begun config client.askView → Served config client
  | asking : client.dropped = false → Listening client.askView → Asking config client.askView →
      Served config client
  | pumping : client.dropped = false → client.state = .pumpActive →
      Streamed config client.askView → Served config client

def HttpRequest.extend (request : HttpRequest) (chunk : Bytes) : HttpRequest :=
  { request with body := request.body ++ chunk }

section Views

variable {view : AskView} {request : HttpRequest} {address : SockaddrIn}

theorem HttpRequest.Received.extend {received : Bytes} (whole : request.Received received)
    (chunk : Bytes) : (request.extend chunk).Received (received ++ chunk) :=
  ⟨whole.reads.append chunk, whole.first, whole.lines⟩

theorem HttpRequest.stream_extend (chunk authorization : Bytes) :
    (request.extend chunk).stream address authorization =
      request.stream address authorization ++ chunk :=
  (List.append_assoc _ _ _).symm

theorem askView_content {env : Env} {client : Client}
    (live : (httprClientReadContent env client).dropped = false) :
    (httprClientReadContent env client).askView =
      { client.askView with
        input := []
        httpr := { client.httpr with
          clientBuffer := client.httpr.clientBuffer ++ client.client.input }
        written := client.written ++
          if client.relayOpen && client.state.httprRequestSent then client.client.input else [] } := by
  simp only [httprClientReadContent] at live ⊢
  split at live
  · simp at live
  · next allocated =>
    split at live
    · simp at live
    · next removed =>
      rw [if_neg allocated, if_neg removed]
      split at live
      · next still =>
        rw [if_pos still]
        rcases Bool.or_eq_true_iff.mp still with empty | closed
        · simp [Client.askView, Client.setInput, Client.written, Client.setBuf, Client.buf,
            Client.lastRequest, List.isEmpty_iff.mp empty]
        · simp only [Bool.not_eq_true'] at closed
          rw [show (client.relayOpen && client.state.httprRequestSent) = false from closed]
          simp [Client.askView, Client.setInput, Client.written, Client.setBuf, Client.buf,
            Client.lastRequest]
      · next moving =>
        split at live
        · simp at live
        · next wrote =>
          rw [if_neg moving, if_neg wrote]
          simp only [Bool.or_eq_true, Bool.not_eq_true', not_or, Bool.not_eq_false] at moving
          rw [show (client.relayOpen && client.state.httprRequestSent) = true from moving.2]
          simp [Client.askView, Client.setInput, Client.written, Client.setBuf, Client.buf,
            Client.lastRequest]

theorem written_content_dropped {env : Env} {client : Client} (before : client.dropped = false)
    (dropped : (httprClientReadContent env client).dropped = true) :
    (httprClientReadContent env client).written = client.written ∧
      (httprClientReadContent env client).client.rcvd = client.client.rcvd ∧
      (httprClientReadContent env client).destaddr = client.destaddr ∧
      (httprClientReadContent env client).lastRequest = client.lastRequest := by
  simp only [httprClientReadContent] at dropped ⊢
  split
  · simp [Client.written, Client.lastRequest, Call.asked, List.findSome?_cons]
  · next allocated =>
    split
    · simp [Client.written, Client.lastRequest, Call.asked, List.findSome?_cons]
    · next removed =>
      rw [if_neg allocated, if_neg removed] at dropped
      split
      · next still =>
        rw [if_pos still] at dropped
        simp [Client.setInput, before] at dropped
      · next moving =>
        rw [if_neg moving] at dropped
        split
        · simp [Client.written, Client.setInput, Client.setBuf, Client.buf, Client.lastRequest,
            Call.asked, List.findSome?_cons]
        · next wrote =>
          rw [if_neg wrote] at dropped
          simp [Client.setInput, before] at dropped

end Views

section Callbacks

variable {config : Config} {client : Client} {env : Env} {request : HttpRequest}

theorem served_content (live : client.dropped = false) (listening : Listening client.askView)
    (collecting : Collecting client.askView request)
    (phase : client.state = .httpr .recvRequestHeaders ∧ client.written = [] ∨
      client.state.httprRequestSent = true ∧ client.relayOpen = true ∧
        ∃ authorization, IsAuthorization config client.lastRequest authorization ∧
          client.written ++ client.client.input = request.stream client.destaddr authorization) :
    Served config (httprClientReadContent env client) := by
  cases dropped : (httprClientReadContent env client).dropped with
  | true =>
      obtain ⟨written, rcvd, address, asked⟩ := written_content_dropped live dropped
      refine .dropped dropped ?_
      unfold Begun
      simp only [Client.askView, written, rcvd, address, asked]
      rcases phase with ⟨-, empty⟩ | ⟨-, -, authorization, valid, whole⟩
      · exact Or.inl empty
      · exact Or.inr ⟨request, collecting.received, Or.inr ⟨authorization, valid,
          whole ▸ List.prefix_append _ _⟩⟩
  | false =>
      have view := askView_content dropped
      refine .asking dropped ?_ ?_
      · rw [view]
        exact ⟨listening.subsys, listening.readcb, listening.low⟩
      · rw [view]
        have collected : Collecting { client.askView with
            input := []
            httpr := { client.httpr with
              clientBuffer := client.httpr.clientBuffer ++ client.client.input }
            written := client.written ++
              if client.relayOpen && client.state.httprRequestSent then client.client.input
              else [] } request :=
          ⟨collecting.received, collecting.firstline, by simpa using collecting.buffer⟩
        rcases phase with ⟨state, empty⟩ | ⟨state, opened, authorization, valid, whole⟩
        · refine .waiting request state collected rfl ?_
          simp [empty, state, State.httprRequestSent]
        · refine .asked request authorization state collected rfl valid ?_
          simpa [opened, state] using whole

theorem served_connectRelay (request : HttpRequest)
    (ready : client.dropped = true ∨ client.dropped = false ∧ Listening client.askView ∧
      client.state = .httpr .recvRequestHeaders ∧ client.client.input = [] ∧
        Collecting client.askView request) :
    Served config (redsocksConnectRelay env client) := by
  unfold redsocksConnectRelay
  split
  · exact .dropped rfl (Or.inl rfl)
  · rcases ready with dropped | ⟨live, listening, state, input, collecting⟩
    · exact .dropped dropped (Or.inl rfl)
    · refine .asking live ⟨listening.subsys, listening.readcb, listening.low⟩ ?_
      exact .waiting request state ⟨collecting.received, collecting.firstline, collecting.buffer⟩
        input rfl

theorem served_requestRead (request : HttpRequest) (listening : Listening client.askView)
    (state : client.state = .httpr .recvRequestHeaders) (collecting : Collecting client.askView request) :
    Served config (redsocksConnectRelay env (httprClientReadContent env client)) := by
  refine served_connectRelay request ?_
  cases dropped : (httprClientReadContent env client).dropped with
  | true => exact Or.inl rfl
  | false =>
      have view := askView_content dropped
      refine Or.inr ⟨rfl, ?_, ?_, ?_, ?_⟩
      · rw [view]
        exact ⟨listening.subsys, listening.readcb, listening.low⟩
      · exact (congrArg AskView.state view).trans state
      · exact congrArg AskView.input view
      · rw [view]
        exact ⟨collecting.received, collecting.firstline, by simpa using collecting.buffer⟩

theorem served_clientRead_new (live : client.dropped = false) (listening : Listening client.askView)
    (state : client.state = .httpr .new) (written : client.written = [])
    {before more : Bytes} (rcvd : client.client.rcvd = before ++ more)
    {input : Bytes} (inputEq : client.client.input = input ++ more)
    (whole : requestRead client.destaddr before = ({ requestStart with httpr := client.httpr }, input)) :
    Served config (httprClientReadCb env client) := by
  have start : ({ httpr := client.httpr, connectRelay := false, doDrop := false, logs := [] } :
      HttprRead) = { requestStart with httpr := client.httpr } := rfl
  have later : requestRead client.destaddr client.client.rcvd =
      redsocksEvbufferReadline.drain (HttprRead.line Env.ok client.destaddr) HttprRead.isDone
        { requestStart with httpr := client.httpr } client.client.input := by
    rw [rcvd, inputEq, requestRead, redsocksEvbufferReadline.drain_append, ← requestRead, whole]
  have logs := requestRead_logs client.destaddr client.client.rcvd
  have env_free := drain_env env client.destaddr { requestStart with httpr := client.httpr }
    client.client.input
  simp only [httprClientReadCb, state, start]
  generalize redsocksEvbufferReadline.drain (HttprRead.line env client.destaddr) HttprRead.isDone
    { requestStart with httpr := client.httpr } client.client.input = drained at env_free ⊢
  cases drop : drained.1.doDrop with
  | true => exact .dropped rfl (Or.inl written)
  | false =>
      rw [← env_free drop] at later
      rw [later] at logs
      cases ended : drained.1.connectRelay with
      | true =>
          obtain ⟨request, received, body, firstline, buffer⟩ :=
            requestRead_done later ended drop
          refine served_requestRead request
            ⟨listening.subsys, listening.readcb, listening.low⟩ rfl ⟨received, firstline, ?_⟩
          exact congrArg₂ (· ++ ·) buffer body.symm
      | false =>
          refine .asking live ⟨listening.subsys, listening.readcb, listening.low⟩ ?_
          refine .reading state written (later.trans (Prod.ext ?_ rfl))
          have silent := logs drop
          obtain ⟨⟨httpr, connects, drops, messages⟩, rest⟩ := drained
          simp only at drop ended silent
          subst drop ended silent
          rfl

theorem Collecting.receive (collecting : Collecting client.askView request) (chunk : Bytes) :
    Collecting (client.setBuf .client (client.client.receive chunk)).askView (request.extend chunk) := by
  refine ⟨collecting.received.extend chunk, collecting.firstline, ?_⟩
  have buffer := collecting.buffer
  simp only [Client.askView] at buffer ⊢
  calc client.httpr.clientBuffer ++ (client.client.input ++ chunk)
      = client.httpr.clientBuffer ++ client.client.input ++ chunk := (List.append_assoc _ _ _).symm
    _ = request.headers client.destaddr ++ (request.body ++ chunk) := by
        rw [buffer, List.append_assoc]

theorem clientReadCb_past {phase : HttprState} (state : client.state = .httpr phase)
    (past : phase ≠ .new) : httprClientReadCb env client = httprClientReadContent env client := by
  unfold httprClientReadCb
  rw [state]
  cases phase with
  | new => exact absurd rfl past
  | _ => rfl

theorem phase_of_sent {state : State} (sent : state.httprRequestSent = true) :
    ∃ phase, state = .httpr phase ∧ phase ≠ .new := by
  unfold State.httprRequestSent at sent
  split at sent
  · exact ⟨.requestSent, rfl, by simp⟩
  · exact ⟨.replyCame, rfl, by simp⟩
  · exact ⟨.headersSkipped, rfl, by simp⟩
  · simp at sent

theorem served_clientRead (live : client.dropped = false) (listening : Listening client.askView)
    (asking : Asking config client.askView)
    (opened : client.state.httprRequestSent = true → client.relayOpen = true) (chunk : Bytes) :
    Served config (httprClientReadCb env (client.setBuf .client (client.client.receive chunk))) := by
  cases asking with
  | reading state written whole =>
      exact served_clientRead_new live ⟨listening.subsys, listening.readcb, listening.low⟩ state written
        rfl rfl whole
  | waiting request state collecting input written =>
      rw [show httprClientReadCb env (client.setBuf .client (client.client.receive chunk)) = _ from
        clientReadCb_past state (by simp)]
      exact served_content live ⟨listening.subsys, listening.readcb, listening.low⟩
        (collecting.receive chunk) (Or.inl ⟨state, written⟩)
  | asked request authorization state collecting input valid written =>
      obtain ⟨phase, stateEq, past⟩ := phase_of_sent state
      rw [show httprClientReadCb env (client.setBuf .client (client.client.receive chunk)) = _ from
        clientReadCb_past stateEq past]
      refine served_content live ⟨listening.subsys, listening.readcb, listening.low⟩
        (collecting.receive chunk) (Or.inr ⟨state, opened state, authorization, valid, ?_⟩)
      rw [HttpRequest.stream_extend]
      exact congrArg₂ (· ++ ·) written (congrArg (· ++ chunk) input)

theorem written_write (data : Bytes) :
    (client.modify .relay (·.write data)).written = client.written ++ data :=
  (List.append_assoc _ _ _).symm

theorem askView_ask (credentials challenge : Option Bytes) (data : Bytes) :
    ((({ (client.modify .relay (·.write data)).call (.request credentials challenge) with
      state := .httpr .requestSent }).modify .relay
        (·.setwatermark EvBits.evRead 1 httpHeadWmHigh)).enable .relay EvBits.evRead).askView =
      { client.askView with
        state := .httpr .requestSent
        written := client.written ++ data
        asked := some (credentials, challenge) } := by
  rw [← written_write]
  rfl

theorem served_drop {last : Client} (begun : Begun config last.askView) :
    Served config (redsocksDropClient last) := by
  refine .dropped rfl ?_
  unfold Begun at begun ⊢
  simpa [Client.written, Client.lastRequest, Call.asked, List.findSome?_cons] using begun

def credentialsLine : Option (Bytes × Bytes) → Bytes
  | some (scheme, text) => authLine scheme text
  | none => []

theorem isAuthorization_made {auth : HttpAuth} {firstline : Option Bytes}
    {credentials : Option (Bytes × Bytes)}
    (made : httprCredentials env config auth firstline = .ok credentials) :
    IsAuthorization config (some (credentials.map Prod.snd, auth.lastAuthQuery))
      (credentialsLine credentials) := by
  rcases credentials with _ | ⟨scheme, text⟩
  · exact .inl ⟨⟨_, rfl⟩, rfl⟩
  · unfold httprCredentials at made
    split at made
    · cases made
    · next query stored =>
      refine .inr ⟨scheme, text, query, by rw [stored]; rfl, ?_, rfl⟩
      split at made
      · next basic => exact .inl ⟨basic, Except.ok.inj made⟩
      · cases digest : isDigest query with
        | false => simp [digest] at made
        | true =>
            rw [digest] at made
            cases firstline with
            | none => cases made
            | some line =>
                dsimp only at made
                split at made
                · cases made
                · exact .inr ⟨digest, env, _, _, _, Except.ok.inj made⟩

theorem begun_firstline (collecting : Collecting client.askView request)
    (written : client.written = request.firstline client.destaddr) : Begun config client.askView :=
  Or.inr ⟨request, collecting.received, Or.inl written⟩

theorem served_sendRequest (live : client.dropped = false) (listening : Listening client.askView)
    (collecting : Collecting client.askView request) (input : client.client.input = [])
    (written : client.written = request.firstline client.destaddr)
    {credentials : Option (Bytes × Bytes)} {challenge : Option Bytes}
    (valid : IsAuthorization config (some (credentials.map Prod.snd, challenge))
      (credentialsLine credentials)) :
    Served config (httprSendRequest env client credentials challenge) := by
  simp only [httprSendRequest]
  split
  · exact served_drop (begun_firstline collecting written)
  · split
    · exact served_drop (begun_firstline collecting written)
    · have buffer : client.httpr.clientBuffer = request.headers client.destaddr ++ request.body := by
        have whole := collecting.buffer
        simpa [Client.askView, input] using whole
      refine .asking live ?_ ?_
      · rw [askView_ask]
        exact ⟨listening.subsys, listening.readcb, listening.low⟩
      · rw [askView_ask]
        have still (sent : Bytes) : Collecting { client.askView with
            state := .httpr .requestSent
            written := sent
            asked := some (credentials.map Prod.snd, challenge) } request :=
          ⟨collecting.received, collecting.firstline, collecting.buffer⟩
        refine .asked request (credentialsLine credentials) rfl (still _) input valid ?_
        rcases credentials with _ | ⟨scheme, text⟩
        · simp [written, buffer, HttpRequest.stream, credentialsLine]
        · simp [written, buffer, HttpRequest.stream, credentialsLine]

theorem served_relayWrite {world : World} (same : world.config = config)
    (live : world.client.dropped = false) (listening : Listening world.client.askView)
    (asking : Asking config world.client.askView) :
    Served config (httprRelayWriteCb env world).client := by
  subst same
  cases asking with
  | reading state written whole =>
      simp only [httprRelayWriteCb, show world.client.state = _ from state]
      exact .asking live ⟨listening.subsys, listening.readcb, listening.low⟩ (.reading state written whole)
  | waiting request state collecting input written =>
      simp only [httprRelayWriteCb, show world.client.state = _ from state]
      split
      · exact served_drop (Or.inl written)
      · have started : (world.client.modify .relay
            (·.write (world.client.httpr.firstline.getD []))).written =
              request.firstline world.client.destaddr := by
          rw [written_write, show world.client.written = [] from written,
            show world.client.httpr.firstline = _ from collecting.firstline]
          rfl
        have still : Collecting (world.client.modify .relay
            (·.write (world.client.httpr.firstline.getD []))).askView request :=
          ⟨collecting.received, collecting.firstline, collecting.buffer⟩
        have heard : Listening (world.client.modify .relay
            (·.write (world.client.httpr.firstline.getD []))).askView :=
          ⟨listening.subsys, listening.readcb, listening.low⟩
        split
        · exact served_drop (begun_firstline still started)
        · next made =>
          exact served_sendRequest (by simpa using live) heard still input started
            (isAuthorization_made made)
  | asked request authorization state collecting input valid written =>
      obtain ⟨phase, stateEq, past⟩ := phase_of_sent state
      have same : (httprRelayWriteCb env world).client = world.client := by
        simp only [httprRelayWriteCb, show world.client.state = _ from stateEq]
        cases phase with
        | new => exact absurd rfl past
        | recvRequestHeaders =>
            rw [stateEq] at state
            simp [State.httprRequestSent] at state
        | _ => rfl
      rw [same]
      exact .asking live listening (.asked request authorization state collecting input valid written)

/-- A client whose request has been sent as far as it has come. -/
structure Answering (config : Config) (client : Client) (request : HttpRequest)
    (authorization : Bytes) : Prop where
  live : client.dropped = false
  listening : Listening client.askView
  collecting : Collecting client.askView request
  input : client.client.input = []
  valid : IsAuthorization config client.lastRequest authorization
  written : client.written = request.stream client.destaddr authorization

variable {authorization : Bytes}

theorem Answering.frame {next : Client} {state : State} {relayBuffer : Bytes}
    (answering : Answering config client request authorization) (dropped : next.dropped = client.dropped)
    (view : next.askView = { client.askView with
      state := state, httpr := { client.httpr with relayBuffer := relayBuffer } }) :
    Answering config next request authorization := by
  have asked : next.lastRequest = client.lastRequest := congrArg AskView.asked view
  refine ⟨dropped.trans answering.live, ?_, ?_, (congrArg AskView.input view).trans answering.input,
    asked ▸ answering.valid, ?_⟩
  · rw [view]
    exact ⟨answering.listening.subsys, answering.listening.readcb, answering.listening.low⟩
  · rw [view]
    exact ⟨answering.collecting.received, answering.collecting.firstline, answering.collecting.buffer⟩
  · rw [show next.written = _ from congrArg AskView.written view,
      show next.destaddr = _ from congrArg AskView.destaddr view]
    exact answering.written

theorem Answering.served (answering : Answering config client request authorization)
    (state : client.state.httprRequestSent = true) : Served config client :=
  .asking answering.live answering.listening (.asked request authorization state
    answering.collecting answering.input answering.valid answering.written)

theorem Answering.begun (answering : Answering config client request authorization) :
    Begun config client.askView := by
  refine Or.inr ⟨request, answering.collecting.received, Or.inr ⟨authorization, answering.valid, ?_⟩⟩
  rw [show client.askView.written = _ from answering.written]
  exact List.prefix_rfl

theorem Answering.drop (answering : Answering config client request authorization) (message : LogMsg) :
    Served config (redsocksDropClient (client.log message)) :=
  served_drop (answering.frame rfl rfl).begun

theorem fields_startRelay (env : Env) (client : Client) :
    (redsocksStartRelay env client).written = client.written ∧
      (redsocksStartRelay env client).client.rcvd = client.client.rcvd ∧
      (redsocksStartRelay env client).client.input = client.client.input ∧
      (redsocksStartRelay env client).destaddr = client.destaddr ∧
      (redsocksStartRelay env client).lastRequest = client.lastRequest := by
  simp only [redsocksStartRelay]
  split
  · simp [Client.written, Client.setBuf, Client.buf, Client.lastRequest, Call.asked,
      List.findSome?_cons]
  · split <;> simp [Client.written, Client.setBuf, Client.buf, Client.lastRequest, Call.asked,
      List.findSome?_cons]

theorem Answering.startRelay (answering : Answering config client request authorization) :
    Served config (redsocksStartRelay env client) := by
  obtain ⟨written, rcvd, input, address, asked⟩ := fields_startRelay env client
  cases dropped : (redsocksStartRelay env client).dropped with
  | true =>
      refine .dropped dropped ?_
      have begun := answering.begun
      simp only [Begun, Client.askView, written, rcvd, address, asked] at begun ⊢
      exact begun
  | false =>
      refine .pumping dropped (state_startRelay env client) ?_
      refine ⟨request, authorization, ?_, by rw [Client.askView_asked, asked]; exact answering.valid, ?_⟩
      · rw [Client.askView_rcvd, rcvd]
        exact answering.collecting.received
      · simp only [Client.askView, written, input, address, answering.input, answering.written,
          List.append_nil]

theorem Answering.authRequired {world : World}
    (answering : Answering config world.client request authorization) :
    Served config (authRequired env world (.httpr .recvRequestHeaders)).client := by
  unfold ProxySet.authRequired
  dsimp only
  split
  · exact answering.drop _
  · split
    · exact answering.drop _
    · split
      · next rest _ =>
        have read : Answering config (world.client.setInput .relay rest) request authorization :=
          answering.frame rfl rfl
        exact read.drop _
      · next line rest _ =>
        have closed : Answering config { ((world.client.setInput .relay rest).disable .relay
            EvBits.evWrite).call .closeRelay with state := .httpr .recvRequestHeaders } request
            authorization :=
          answering.frame rfl rfl
        exact served_connectRelay request (Or.inr ⟨closed.live, closed.listening, rfl, closed.input,
          closed.collecting⟩)

theorem Answering.relayPump (answering : Answering config client request authorization) :
    Served config (httprRelayPump env client) := by
  unfold httprRelayPump
  split
  · exact answering.drop _
  · have handed : Answering config (client.modify .client (·.write client.httpr.relayBuffer)) request
        authorization :=
      answering.frame rfl rfl
    exact handed.startRelay

theorem Answering.relayReply (answering : Answering config client request authorization) :
    Served config (httprRelayReply env client) := by
  simp only [httprRelayReply]
  have state := httprReply_state client.httpr.relayBuffer client.relay.input
  generalize redsocksEvbufferReadline.drain httprReplyLine httprReplyDone
    (.replyCame, client.httpr.relayBuffer) client.relay.input = drained at state ⊢
  have read : Answering config { (client.setInput .relay drained.2).setRelayBuffer drained.1.2 with
      state := .httpr drained.1.1 } request authorization :=
    answering.frame rfl rfl
  split
  · exact read.relayPump
  · refine read.served ?_
    rcases state with same | same <;> simp only [same] <;> rfl

theorem served_relayRead {world : World} (answering : Answering config world.client request authorization)
    (state : world.client.state.httprRequestSent = true) :
    Served config (httprRelayReadCb env world).client := by
  have entered : Answering config (world.client.setRelayBuffer []) request authorization :=
    answering.frame rfl rfl
  have sent : (world.client.setRelayBuffer []).state.httprRequestSent = true := state
  simp only [httprRelayReadCb]
  generalize world.client.setRelayBuffer [] = client at entered sent ⊢
  split
  · split
    · next line rest _ =>
      have taken : Answering config ((client.setInput .relay rest).setRelayBuffer (httprAddLine [] line))
          request authorization :=
        entered.frame rfl rfl
      split
      · split
        · have asked : Answering config (world.withClient ((client.setInput .relay rest).setRelayBuffer
              (httprAddLine [] line))).client request authorization := taken
          exact asked.authRequired
        · split
          · have came : Answering config { (client.setInput .relay rest).setRelayBuffer
                (httprAddLine [] line) with state := .httpr .replyCame } request authorization :=
              taken.frame rfl rfl
            exact came.relayReply
          · exact taken.drop _
      · exact taken.served sent
    · split
      · exact served_drop entered.begun
      · exact entered.served sent
  · exact entered.relayReply
  · exact entered.relayPump
  · have failed : Answering config client.assertFail request authorization := entered.frame rfl rfl
    exact failed.served sent

end Callbacks

section Runs

variable {config : Config} {world next : World} {event : Event}

theorem Asking.begun {view : AskView} (asking : Asking config view) : Begun config view := by
  cases asking with
  | reading _ written => exact Or.inl written
  | waiting _ _ _ _ written => exact Or.inl written
  | asked request authorization _ collecting _ valid written =>
      exact Or.inr ⟨request, collecting.received, Or.inr ⟨authorization, valid,
        written ▸ List.prefix_rfl⟩⟩

theorem Asking.notPump {view : AskView} (asking : Asking config view) : view.state ≠ .pumpActive := by
  cases asking with
  | reading state => simp [state]
  | waiting _ state => simp [state]
  | asked _ _ state =>
      obtain ⟨phase, stateEq, -⟩ := phase_of_sent state
      simp [stateEq]

theorem askView_log (client : Client) (message : LogMsg) :
    (client.log message).askView = client.askView :=
  rfl

theorem lastRequest_callShutdown (client : Client) (side : Side) (how : How) :
    (client.callShutdown side how).lastRequest = client.lastRequest := by
  simp only [Client.lastRequest, Client.callShutdown_trace]
  split <;> rfl

theorem served_same {client after : Client} (live : client.dropped = false)
    (listening : Listening client.askView) (asking : Asking config client.askView)
    (dropped : after.dropped = client.dropped) (view : after.askView = client.askView) :
    Served config after :=
  .asking (dropped.trans live) (view ▸ listening) (view ▸ asking)

theorem served_shutdown {client : Client} (live : client.dropped = false)
    (listening : Listening client.askView) (asking : Asking config client.askView) (side : Side) (how : How) :
    Served config (redsocksShutdown client side how) := by
  have view : (((client.callShutdown side how).disable side how.events).setEvshut side
      (((client.callShutdown side how).evshut side).union how.events)).askView = client.askView := by
    have asked := lastRequest_callShutdown client side how
    cases side <;> exact congrArg (fun asked => { client.askView with asked := asked }) asked
  simp only [redsocksShutdown]
  split
  · refine served_drop ?_
    rw [askView_log, view]
    exact asking.begun
  · exact served_same live listening asking rfl view

theorem destaddr_shutdown (client : Client) (side : Side) (how : How) :
    (redsocksShutdown client side how).destaddr = client.destaddr := by
  simp only [redsocksShutdown]
  split <;> rfl

theorem lastRequest_shutdown (client : Client) (side : Side) (how : How) :
    (redsocksShutdown client side how).lastRequest = client.lastRequest := by
  simp only [redsocksShutdown]
  split <;> exact lastRequest_callShutdown client side how

theorem PumpStep.lastRequest {client after : Client} (taken : PumpStep client event after) :
    after.lastRequest = client.lastRequest := by
  cases taken with
  | others => rfl
  | read side chunk env =>
      unfold redsocksRelayReadcb
      split
      · rfl
      · split <;> rfl
  | sent => rfl
  | drained side count env =>
      simp only [redsocksRelayWritecb]
      split
      · rw [lastRequest_shutdown]
        rfl
      · split
        · split <;> rfl
        · rfl
  | eof side =>
      simp only [redsocksEventError, ↓reduceIte]
      split
      · rw [lastRequest_shutdown, lastRequest_shutdown]
        rfl
      · rw [lastRequest_shutdown]
        rfl

theorem PumpStep.destaddr {client after : Client} (taken : PumpStep client event after) :
    after.destaddr = client.destaddr := by
  cases taken with
  | others => rfl
  | read side chunk env =>
      unfold redsocksRelayReadcb
      split
      · rfl
      · split <;> rfl
  | sent => rfl
  | drained side count env =>
      simp only [redsocksRelayWritecb]
      split
      · rw [destaddr_shutdown]
        rfl
      · split
        · split <;> rfl
        · rfl
  | eof side =>
      simp only [redsocksEventError, ↓reduceIte]
      split
      · rw [destaddr_shutdown, destaddr_shutdown]
        rfl
      · rw [destaddr_shutdown]
        rfl

/-- What the pump has taken over goes on where the handshake has stopped. -/
theorem Streamed.carry {client after : Client} (streamed : Streamed config client.askView)
    (address : after.destaddr = client.destaddr) (asked : after.lastRequest = client.lastRequest)
    (carries : (client.flow .relay).Carries (after.flow .relay)) :
    Streamed config after.askView := by
  obtain ⟨request, authorization, received, valid, whole⟩ := streamed
  obtain ⟨arrived, left, receivedEq, deliveredEq, moved⟩ := carries
  simp only [Client.flow, Side.other, Client.buf] at receivedEq deliveredEq moved
  refine ⟨request.extend arrived, authorization, ?_, by rwa [Client.askView_asked, asked], ?_⟩
  · rw [Client.askView_rcvd, receivedEq]
    exact received.extend arrived
  · rw [HttpRequest.stream_extend]
    simp only [Client.askView, Client.written, address] at whole ⊢
    calc after.relay.sent ++ after.relay.output ++ after.client.input
        = client.relay.sent ++ (left ++ after.relay.output ++ after.client.input) := by
          rw [deliveredEq]
          simp
      _ = client.relay.sent ++ client.relay.output ++ client.client.input ++ arrived := by
          rw [moved]
          simp
      _ = request.stream client.destaddr authorization ++ arrived := by rw [whole]

theorem Streamed.begun {view : AskView} (streamed : Streamed config view) : Begun config view := by
  obtain ⟨request, authorization, received, valid, whole⟩ := streamed
  exact Or.inr ⟨request, received, Or.inr ⟨authorization, valid, whole ▸ List.prefix_append _ _⟩⟩

theorem served_pump (pumping : Pumping world.client)
    (streamed : Streamed config world.client.askView)
    (taken : step world event = some next) : Served config next.client := by
  cases failed : event.isSocketError with
  | true =>
      obtain ⟨side, what, -, nextEq⟩ := step_socketError failed taken
      rw [nextEq]
      refine served_drop ?_
      have view : ((world.client.disable side what.events).log (.socketError side what)).askView =
          world.client.askView := by
        cases side <;> rfl
      rw [view]
      exact streamed.begun
  | false =>
      have pumped := step_pumpStep pumping failed taken
      have later := streamed.carry pumped.destaddr pumped.lastRequest
        (pumped.flow pumping .relay).carries
      cases dropped : next.client.dropped with
      | true => exact .dropped dropped later.begun
      | false => exact .pumping dropped (pumped.pumping pumping).state later

theorem Asking.answering {client : Client} (live : client.dropped = false)
    (listening : Listening client.askView) (asking : Asking config client.askView)
    (asked : client.state.awaiting = false) :
    client.state.httprRequestSent = true ∧
      ∃ request authorization, Answering config client request authorization := by
  cases asking with
  | reading state =>
      rw [show client.state = _ from state] at asked
      simp [State.awaiting] at asked
  | waiting _ state =>
      rw [show client.state = _ from state] at asked
      simp [State.awaiting] at asked
  | asked request authorization state collecting input valid written =>
      exact ⟨state, request, authorization, live, listening, collecting, input, valid, written⟩

theorem relaySsReadcb_httpRelay {env : Env} (subsys : world.client.subsys = .httpRelay) :
    relaySsReadcb env world = httprRelayReadCb env world := by
  simp only [relaySsReadcb, subsys]

theorem relaySsWritecb_httpRelay {env : Env} (subsys : world.client.subsys = .httpRelay) :
    relaySsWritecb env world = httprRelayWriteCb env world := by
  simp only [relaySsWritecb, subsys]

theorem served_readRelay {chunk : Bytes} {env : Env} (handshake : Handshake world.client)
    (live : world.client.dropped = false) (listening : Listening world.client.askView)
    (asking : Asking config world.client.askView) (canRead : world.client.relay.canRead = true) :
    Served config (runReadcb env (world.withClient (world.client.setBuf .relay
      (world.client.relay.receive chunk))) .relay).client := by
  have asked : world.client.state.awaiting = false := by
    by_contra awaiting
    have paused := (handshake.awaiting (by simpa using awaiting)).1
    simp [Bufferevent.canRead, paused] at canRead
  obtain ⟨state, request, authorization, answering⟩ := asking.answering live listening asked
  have received : Answering config (world.withClient (world.client.setBuf .relay
      (world.client.relay.receive chunk))).client request authorization :=
    answering.frame rfl rfl
  have relayRead : world.client.relay.readcb = .none ∨ world.client.relay.readcb = .subsys :=
    handshake.callbacks.2.2.1
  have readcb : ((world.withClient (world.client.setBuf .relay
      (world.client.relay.receive chunk))).client.buf .relay).readcb = world.client.relay.readcb := rfl
  unfold runReadcb
  rcases relayRead with none | subsys
  · rw [readcb, none]
    exact received.served state
  · rw [readcb, subsys]
    dsimp only
    rw [relaySsReadcb_httpRelay received.listening.subsys]
    exact served_relayRead received state

theorem served_writeRelay {env : Env} (same : world.config = config)
    (handshake : Handshake world.client) (live : world.client.dropped = false)
    (listening : Listening world.client.askView) (asking : Asking config world.client.askView) :
    Served config (runWritecb env world .relay).client := by
  have relayWrite : world.client.relay.writecb ≠ .pump := handshake.callbacks.2.2.2.1
  simp only [runWritecb, Client.buf]
  split
  · exact .asking live listening asking
  · unfold redsocksRelayConnected
    split
    · exact served_drop asking.begun
    · have subsys : (world.withClient (world.client.modify .relay
          fun buffer => { buffer with readcb := .subsys, writecb := .subsys })).client.subsys =
            .httpRelay := listening.subsys
      rw [relaySsWritecb_httpRelay subsys]
      exact served_relayWrite same live listening asking
  · rw [relaySsWritecb_httpRelay listening.subsys]
    exact served_relayWrite same live listening asking
  · next pump => exact absurd pump relayWrite

theorem Handshake.transmit {client : Client} (handshake : Handshake client) (count : Nat) :
    Handshake (client.setBuf .relay ((client.buf .relay).transmit count)) :=
  handshake.untouched ⟨⟨rfl, id⟩, id⟩ handshake.state rfl

theorem served_readData {side : Side} {chunk : Bytes} {env : Env}
    (handshake : Handshake world.client) (live : world.client.dropped = false)
    (listening : Listening world.client.askView) (asking : Asking world.config world.client.askView)
    (taken : step world (.readData side chunk env) = some next) :
    Served world.config next.client := by
  simp only [step, live, Bool.false_eq_true, ↓reduceIte, Option.ite_none_right_eq_some,
    Bool.and_eq_true] at taken
  obtain ⟨⟨canRead, -⟩, taken⟩ := taken
  cases side with
  | client =>
      rw [if_pos (by simp [Client.buf, show world.client.client.wmRead.low = _ from listening.low])]
        at taken
      obtain rfl := returned taken
      simp only [runReadcb, World.withClient_client, Client.buf_setBuf_self,
        Bufferevent.receive_readcb]
      simp only [Client.buf, show world.client.client.readcb = _ from listening.readcb]
      refine served_clientRead live listening asking ?_ chunk
      intro sent
      by_contra closed
      have awaiting := handshake.unopened (by simpa using closed)
      obtain ⟨phase, stateEq, -⟩ := phase_of_sent sent
      rw [stateEq] at sent awaiting
      cases phase <;> simp [State.awaiting, State.httprRequestSent] at awaiting sent
  | relay =>
      split at taken
      · obtain rfl := returned taken
        exact served_readRelay handshake live listening asking canRead
      · obtain rfl := Option.some.inj taken
        exact served_same live listening asking rfl rfl

theorem served_writeReady {side : Side} {count : Nat} {env : Env}
    (handshake : Handshake world.client) (live : world.client.dropped = false)
    (listening : Listening world.client.askView) (asking : Asking world.config world.client.askView)
    (taken : step world (.writeReady side count env) = some next) :
    Served world.config next.client := by
  simp only [step, live, Bool.false_eq_true, ↓reduceIte, Option.ite_none_right_eq_some,
    Bool.and_eq_true] at taken
  obtain ⟨-, taken⟩ := taken
  cases side with
  | client =>
      have clientWrite : (world.client.buf .client).writecb = .none := handshake.callbacks.2.1
      have transmitted : Served world.config (world.withClient (world.client.setBuf .client
          ((world.client.buf .client).transmit count))).client :=
        served_same live listening asking rfl rfl
      split at taken
      · obtain rfl := Option.some.inj taken
        simpa only [runWritecb, World.withClient_client, Client.buf_setBuf_self,
          Bufferevent.transmit_writecb, clientWrite] using transmitted
      · obtain rfl := Option.some.inj taken
        exact transmitted
  | relay =>
      have view : (world.withClient (world.client.setBuf .relay
          ((world.client.buf .relay).transmit count))).client.askView =
            world.client.askView := by
        simp [Client.askView, Client.written, Client.setBuf, Client.buf,
          Client.lastRequest]
      split at taken
      · obtain rfl := Option.some.inj taken
        exact served_writeRelay rfl (handshake.transmit count) live (view ▸ listening)
          (view ▸ asking)
      · obtain rfl := Option.some.inj taken
        exact served_same live listening asking rfl view

theorem served_report {side : Side} {what : What}
    (handshake : Handshake world.client) (live : world.client.dropped = false)
    (listening : Listening world.client.askView) (asking : Asking world.config world.client.askView)
    (taken : step world (.report side what) = some next) :
    Served world.config next.client := by
  simp only [step, live, Bool.false_eq_true, ↓reduceIte, Option.ite_none_right_eq_some,
    Option.some.injEq] at taken
  obtain ⟨-, rfl⟩ := taken
  by_cases eof : what = .readEof
  · subst eof
    rw [World.withClient, eventError_eof_handshake handshake.state]
    exact served_shutdown live listening asking side .rd
  · simp only [World.withClient, redsocksEventError, eof, ↓reduceIte]
    refine served_drop ?_
    have view : ((world.client.disable side what.events).log (.socketError side what)).askView =
        world.client.askView := by
      cases side <;> rfl
    rw [view]
    exact asking.begun

theorem served_step (reached : Reached world.client) (served : Served world.config world.client)
    (taken : step world event = some next) : Served world.config next.client := by
  have live := step_live taken
  cases served with
  | dropped dropped => simp [live] at dropped
  | pumping _ state streamed =>
      exact served_pump (reached.pumping state live) streamed taken
  | asking _ listening asking =>
      have handshake := reached.handshake asking.notPump live
      cases event with
      | readData side chunk env => exact served_readData handshake live listening asking taken
      | writeReady side count env => exact served_writeReady handshake live listening asking taken
      | report side what => exact served_report handshake live listening asking taken
      | others auth =>
          simp only [step, live, Bool.false_eq_true, ↓reduceIte] at taken
          obtain rfl := Option.some.inj taken
          exact .asking live listening asking

variable {env : Env} {auth : HttpAuth} {address : SockaddrIn} {events : List Event}
  {final : World}

theorem served_accept (env : Env) (config : Config) (address : SockaddrIn) :
    Served config (redsocksAcceptClient env config .httpRelay address) := by
  unfold redsocksAcceptClient
  dsimp only
  split
  · exact .dropped rfl (Or.inl rfl)
  · unfold httprConnectRelay
    dsimp only
    split
    · exact .dropped rfl (Or.inl rfl)
    · exact .asking rfl ⟨rfl, rfl, rfl⟩ (.reading rfl rfl rfl)

theorem run_served
    (ran : run step events (acceptedWorld env config auth .httpRelay address) = some final) :
    Reached final.client ∧ Served config final.client := by
  have kept := run_invariant (fun world => world.config = config ∧ Reached world.client ∧
    Served config world.client) ?_ ⟨rfl, reached_accept env config .httpRelay address,
      served_accept env config address⟩ ran
  · exact kept.2
  rintro world event next ⟨rfl, reached, served⟩ taken
  exact ⟨step_config taken, reached_step reached taken, served_step reached served taken⟩

/-- A request with a body in two pieces; the proxy asks for credentials in between. -/
def postedTwice : List Event :=
  [.readData .client (ascii "POST / HTTP/1.0\r\n\r\na") Env.ok, .writeReady .relay 0 Env.ok,
    .readData .relay (ascii "HTTP/1.0 407 No\r\nProxy-Authenticate: Basic\r\n\r\n") Env.ok,
    .readData .client (ascii "b") Env.ok, .writeReady .relay 0 Env.ok]

end Runs

end ProxySet
