import ProxySet.Redsocks.HttpRelay
import ProxySet.Redsocks.HttpRequest
import ProxySet.Redsocks.Numbers

/-!
What http-relay makes of a request in HTTP's own terms: names of headers and their values.
The program compares the beginnings of lines, and finds the value of `Host` by its place.
-/

namespace ProxySet

open StepRun TokenReader

/-! ### Requests -/

structure Header where
  name : Bytes
  /-- What stands behind the colon. -/
  content : Bytes

namespace Header

def line (header : Header) : Bytes :=
  header.name ++ 58 :: header.content

def value (header : Header) : Bytes :=
  header.content.dropWhile isspace

def isNamed (header : Header) (name : Bytes) : Bool :=
  header.name.map tolower == name.map tolower

end Header

def NoEnds (text : Bytes) : Prop :=
  0 ∉ text ∧ 10 ∉ text ∧ 13 ∉ text

instance (text : Bytes) : Decidable (NoEnds text) :=
  inferInstanceAs (Decidable (_ ∧ _))

/-- A request with a target in origin form; `target` goes on to the end of the first line. -/
structure ClientRequest where
  method : Bytes
  target : Bytes
  headers : List Header
  body : Bytes
  method_ne_nil : method ≠ []
  method_noSpace : 32 ∉ method
  method_noEnds : NoEnds method
  target_origin : target.head? = some 47
  target_noEnds : NoEnds target
  names : ∀ header ∈ headers, header.name ≠ [] ∧ 58 ∉ header.name ∧ NoEnds header.name
  contents : ∀ header ∈ headers, NoEnds header.content

namespace ClientRequest

variable (request : ClientRequest) (address : SockaddrIn)

def first : Bytes :=
  request.method ++ 32 :: request.target

def lines : List Bytes :=
  request.headers.map Header.line

def text : Bytes :=
  (request.first :: request.lines ++ [[]]).flatMap (· ++ crlf) ++ request.body

/-- The value of the header `Host`; of several ones, the last. -/
def host : Option Bytes :=
  (request.headers.filter (·.isNamed (ascii "Host"))).getLast?.map Header.value

def isHop (header : Header) : Bool :=
  header.isNamed (ascii "Proxy-Connection") || header.isNamed (ascii "Connection")

def properFirst : Bytes :=
  request.method ++ [32] ++ ascii "http://" ++ request.host.getD (fmtHttpHost address) ++
    request.target ++ crlf

def properHeaders : Bytes :=
  ((request.headers.filter (!isHop ·)).map Header.line ++
    (if request.host.isSome then [] else [ascii "Host: " ++ fmtHttpHost address]) ++
    [ascii "Proxy-Connection: close", ascii "Connection: close", []]).flatMap (· ++ crlf)

/-- The request that the proxy should get, with a header line for its credentials. -/
def proper (authorization : Bytes) : Bytes :=
  request.properFirst address ++ authorization ++ request.properHeaders address ++ request.body

/-- The request as the program reads it. -/
def asRead : HttpRequest where
  first := request.first
  lines := request.lines
  body := request.body

end ClientRequest

/-- No name is mistaken for another: none begins like one of the two that are left out, and the
last line that begins like `Host` has the value of the header in its place. -/
structure ClientRequest.Unmistaken (request : ClientRequest) : Prop where
  hops : ∀ header ∈ request.headers,
    strncasecmpEq header.line (ascii "Proxy-Connection") 16 = true ∨
      strncasecmpEq header.line (ascii "Connection") 10 = true → ClientRequest.isHop header = true
  host : ((request.headers.filter fun header =>
    strncasecmpEq header.line (ascii "Host") 4).getLast?.map fun header =>
      (header.line.drop 5).dropWhile isspace) = request.host

/-- The strings that the program keeps of the request have room: the first line that it makes, and
the header with the body. -/
structure ClientRequest.Fits (request : ClientRequest) (address : SockaddrIn) : Prop where
  firstline : (request.asRead.firstline address).length < httprBufferRoom
  rest : (request.asRead.headers address ++ request.body).length < httprBufferRoom

/-! ### Names and the beginnings of lines -/

theorem strncasecmpEq_of_named {header : Header} {name : Bytes}
    (named : header.isNamed name = true) :
    strncasecmpEq header.line name name.length = true := by
  have same : header.name.map tolower = name.map tolower := by
    simpa [Header.isNamed] using named
  have length : header.name.length = name.length := by
    simpa using congrArg List.length same
  have front : (header.line ++ [0]).take name.length = header.name := by
    rw [Header.line, List.append_assoc]
    exact List.take_left' length
  simp [strncasecmpEq, front, same]

namespace ClientRequest

variable (request : ClientRequest)

def leavesOut (header : Header) : Bool :=
  strncasecmpEq header.line (ascii "Proxy-Connection") 16 ||
    strncasecmpEq header.line (ascii "Connection") 10

theorem leavesOut_of_isHop {header : Header} (hop : isHop header = true) :
    leavesOut header = true := by
  rcases Bool.or_eq_true_iff.mp hop with proxy | connection
  · exact Bool.or_eq_true_iff.mpr (.inl (strncasecmpEq_of_named proxy))
  · exact Bool.or_eq_true_iff.mpr (.inr (strncasecmpEq_of_named connection))

theorem not_host_of_leavesOut {header : Header} (left : leavesOut header = true) :
    isHostLine header.line = false := by
  cases host : isHostLine header.line with
  | false => rfl
  | true =>
      have hostHead := strncasecmpEq_head (by decide) host
      rcases Bool.or_eq_true_iff.mp left with proxy | connection
      · have other := hostHead.symm.trans (strncasecmpEq_head (by decide) proxy)
        exact absurd other (by decide)
      · have other := hostHead.symm.trans (strncasecmpEq_head (by decide) connection)
        exact absurd other (by decide)

theorem isKept_line (header : Header) : isKept header.line = !leavesOut header := by
  cases left : leavesOut header with
  | false =>
      have neither := left
      rw [leavesOut] at neither
      rw [isKept, neither, Bool.not_false, Bool.or_true]
  | true =>
      have either := left
      rw [leavesOut] at either
      rw [isKept, not_host_of_leavesOut left, either]
      rfl

theorem hostValue_lines : hostValue request.lines =
    (request.headers.filter fun header => strncasecmpEq header.line (ascii "Host") 4).getLast?.map
      fun header => (header.line.drop 5).dropWhile isspace := by
  rw [hostValue, lines, List.filter_map, List.getLast?_map, Option.map_map]
  rfl

theorem filter_isKept_lines : request.lines.filter isKept =
    (request.headers.filter (!leavesOut ·)).map Header.line := by
  rw [lines, List.filter_map]
  congr 1
  exact List.filter_congr fun header _ => isKept_line header

theorem method_plain : ∀ byte ∈ request.method, decide (byte ≠ 32) = true := by
  intro byte member
  refine decide_eq_true ?_
  rintro rfl
  exact request.method_noSpace member

theorem takeWhile_first : request.first.takeWhile (· ≠ 32) = request.method := by
  rw [first, List.takeWhile_append_of_pos request.method_plain]
  simp

theorem dropWhile_first : (request.first.dropWhile (· ≠ 32)).drop 1 = request.target := by
  rw [first, List.dropWhile_append_of_pos request.method_plain]
  simp

variable (address : SockaddrIn)

theorem asRead_firstline : request.asRead.firstline address =
    request.method ++ [32] ++ ascii "http://" ++
      (hostValue request.lines).getD (fmtHttpHost address) ++ request.target ++ crlf := by
  rw [HttpRequest.firstline]
  simp only [asRead, takeWhile_first, dropWhile_first]

theorem asRead_headers : request.asRead.headers address =
    ((request.headers.filter (!leavesOut ·)).map Header.line ++
      (if (hostValue request.lines).isSome then [] else [ascii "Host: " ++ fmtHttpHost address]) ++
      [ascii "Proxy-Connection: close", ascii "Connection: close", []]).flatMap (· ++ crlf) := by
  have kept : request.asRead.lines.filter isKept =
      (request.headers.filter (!leavesOut ·)).map Header.line := filter_isKept_lines request
  rw [HttpRequest.headers, kept]
  rfl

theorem stream_proper (unmistaken : request.Unmistaken) (authorization : Bytes) :
    request.asRead.stream address authorization = request.proper address authorization := by
  have hosts : hostValue request.lines = request.host :=
    (hostValue_lines request).trans unmistaken.host
  have kept : request.headers.filter (!leavesOut ·) = request.headers.filter (!isHop ·) := by
    refine List.filter_congr fun header member => congrArg not ?_
    cases left : leavesOut header with
    | true => exact (unmistaken.hops header member (Bool.or_eq_true_iff.mp left)).symm
    | false =>
        cases hop : isHop header with
        | false => rfl
        | true =>
            rw [leavesOut_of_isHop hop] at left
            cases left
  rw [HttpRequest.stream, proper, asRead_firstline, asRead_headers, hosts, kept]
  rfl

end ClientRequest

/-! ### Reading a request -/

theorem NoEnds.append {first second : Bytes} (firstNone : NoEnds first)
    (secondNone : NoEnds second) : NoEnds (first ++ second) := by
  obtain ⟨firstNul, firstLf, firstCr⟩ := firstNone
  obtain ⟨secondNul, secondLf, secondCr⟩ := secondNone
  simp [NoEnds, firstNul, firstLf, firstCr, secondNul, secondLf, secondCr]

theorem next_line {line : Bytes} (noEnds : NoEnds line) (rest : Bytes) :
    redsocksEvbufferReadline.next (line ++ crlf ++ rest) = some (line, rest) := by
  obtain ⟨noNul, noLf, noCr⟩ := noEnds
  have raw : line ++ crlf ++ rest = (line ++ [13]) ++ 10 :: rest := by simp [crlf]
  have stripped : stripCr (line ++ [13]) = line := by simp [stripCr]
  rw [raw, next_rawLine (by simp [noLf]) (by simp [noNul]), stripped]

theorem reads_lines {lines : List Bytes} (noEnds : ∀ line ∈ lines, NoEnds line) (rest : Bytes) :
    redsocksEvbufferReadline.Reads (lines.flatMap (· ++ crlf) ++ rest) lines rest := by
  induction lines with
  | nil => exact .stop rest
  | cons line lines ih =>
      rw [List.flatMap_cons, List.append_assoc]
      refine .token (next_line (noEnds line (List.mem_cons_self ..)) _) (ih ?_)
      exact fun other member => noEnds other (List.mem_cons_of_mem _ member)

namespace ClientRequest

variable (request : ClientRequest)

theorem noEnds_first : NoEnds request.first := by
  have space : NoEnds [32] := by simp [NoEnds]
  have whole := (NoEnds.append request.method_noEnds space).append request.target_noEnds
  rwa [List.append_assoc, List.singleton_append] at whole

theorem noEnds_line {header : Header} (member : header ∈ request.headers) : NoEnds header.line := by
  have colon : NoEnds [58] := by simp [NoEnds]
  have whole := (NoEnds.append (request.names header member).2.2 colon).append
    (request.contents header member)
  rwa [List.append_assoc, List.singleton_append] at whole

theorem text_ne_nil : request.text ≠ [] := by
  simp [text, crlf]

theorem received_text : request.asRead.Received request.text := by
  refine ⟨reads_lines ?_ request.body, ?_, ?_⟩
  · intro line member
    simp only [lines, List.cons_append, List.mem_cons, List.mem_append, List.mem_map,
      List.not_mem_nil, or_false] at member
    rcases member with rfl | ⟨header, inside, rfl⟩ | rfl
    · exact request.noEnds_first
    · exact request.noEnds_line inside
    · simp [NoEnds]
  · simp [asRead, first]
  · simp [asRead, lines, Header.line]

end ClientRequest

theorem reads_unique {buffer : Bytes} {first second : List Bytes} {firstRest secondRest : Bytes}
    (firstReads : redsocksEvbufferReadline.Reads buffer (first ++ [[]]) firstRest)
    (secondReads : redsocksEvbufferReadline.Reads buffer (second ++ [[]]) secondRest)
    (firstFull : [] ∉ first) (secondFull : [] ∉ second) :
    first = second ∧ firstRest = secondRest := by
  induction first generalizing buffer second with
  | nil =>
      cases firstReads with
      | token found rest =>
          cases rest
          cases second with
          | nil =>
              cases secondReads with
              | token foundSecond restSecond =>
                  cases restSecond
                  have same := Option.some.inj (found.symm.trans foundSecond)
                  exact ⟨rfl, (Prod.mk.inj same).2⟩
          | cons line second =>
              cases secondReads with
              | token foundSecond restSecond =>
                  have same := Option.some.inj (found.symm.trans foundSecond)
                  obtain ⟨rfl, -⟩ := Prod.mk.inj same
                  simp at secondFull
  | cons line first ih =>
      cases firstReads with
      | token found rest =>
          cases second with
          | nil =>
              cases secondReads with
              | token foundSecond restSecond =>
                  have same := Option.some.inj (found.symm.trans foundSecond)
                  obtain ⟨rfl, -⟩ := Prod.mk.inj same
                  simp at firstFull
          | cons other second =>
              cases secondReads with
              | token foundSecond restSecond =>
                  have same := Option.some.inj (found.symm.trans foundSecond)
                  obtain ⟨rfl, rfl⟩ := Prod.mk.inj same
                  simp only [List.mem_cons, not_or] at firstFull secondFull
                  obtain ⟨rfl, rest⟩ := ih rest restSecond firstFull.2 secondFull.2
                  exact ⟨rfl, rest⟩

theorem HttpRequest.Received.unique {first second : HttpRequest} {received : Bytes}
    (isFirst : first.Received received) (isSecond : second.Received received) : first = second := by
  have firstFull : [] ∉ first.first :: first.lines := by
    simp [isFirst.lines, isFirst.first.symm]
  have secondFull : [] ∉ second.first :: second.lines := by
    simp [isSecond.lines, isSecond.first.symm]
  obtain ⟨lines, body⟩ := reads_unique isFirst.reads isSecond.reads firstFull secondFull
  obtain ⟨line, others⟩ := List.cons.inj lines
  cases first
  cases second
  simp only at line others body
  rw [line, others, body]

/-! ### A request that is sent -/

/-- The whole request is read, and nothing in it drops the client. -/
theorem requestRead_text (request : ClientRequest) (address : SockaddrIn) :
    requestRead address request.text =
      ((headerRead request.first request.lines).finish Env.ok address, request.body) := by
  obtain ⟨reads, first, full⟩ := request.received_text
  have folds : ∀ lines, [] ∉ lines →
      (request.first :: lines).foldl (HttprRead.line Env.ok address) requestStart =
        headerRead request.first lines := fun lines => fold_headerRead request.first lines first
  have all : (request.first :: request.lines ++ [[]]).foldl (HttprRead.line Env.ok address)
      requestStart = (headerRead request.first request.lines).finish Env.ok address := by
    rw [List.foldl_append, folds request.lines full]
    rfl
  have running : ∀ front line later, request.first :: request.lines ++ [[]] =
      front ++ line :: later →
      (front.foldl (HttprRead.line Env.ok address) requestStart).isDone = false := by
    intro front line later split
    cases front with
    | nil => rfl
    | cons other front =>
        obtain ⟨rfl, rest⟩ := List.cons.inj split
        rw [folds front]
        · rfl
        · have short : front.length ≤ request.lines.length := by
            have lengths := congrArg List.length rest
            simp only [List.append_eq, List.length_append, List.length_cons,
              List.length_nil] at lengths
            omega
          have earlier : front <+: request.lines ++ [[]] := ⟨line :: later, rest.symm⟩
          have inside := List.prefix_of_prefix_length_le earlier (List.prefix_append _ _) short
          exact fun empty => full (inside.subset empty)
  have stopped : ((request.first :: request.lines ++ [[]]).foldl (HttprRead.line Env.ok address)
      requestStart).isDone = true := congrArg HttprRead.isDone all
  rw [requestRead, redsocksEvbufferReadline.drain_of_reads _ _ reads running stopped]
  exact congrArg (·, request.body) all

theorem requestRead_kept (request : ClientRequest) (address : SockaddrIn) :
    (requestRead address request.text).1.doDrop = false := by
  have space : strchr request.first 32 = some (32 :: request.target) := by
    rw [strchr, ClientRequest.first, List.dropWhile_append_of_pos request.method_plain,
      List.dropWhile_cons_of_neg (by simp)]
  rw [requestRead_text, (finish_ok address _).1]
  simp [HttprRead.toss, httprTossHttpFirstline, headerRead, space, Env.ok, requestStart]

theorem requestRead_front (request : ClientRequest) (address : SockaddrIn) {front rest : Bytes}
    (split : request.text = front ++ rest) : (requestRead address front).1.doDrop = false := by
  cases drops : (requestRead address front).1.doDrop with
  | false => rfl
  | true =>
      have done : (requestRead address front).1.isDone = true := by
        simp [HttprRead.isDone, drops]
      have whole := requestRead_kept request address
      rw [split, requestRead, redsocksEvbufferReadline.drain_append, ← requestRead,
        redsocksEvbufferReadline.drain_of_done _ _ done] at whole
      exact drops.symm.trans whole

theorem line_longer (address : SockaddrIn) (read : HttprRead) (line : Bytes) :
    read.httpr.clientBuffer.length ≤
      (HttprRead.line Env.ok address read line).httpr.clientBuffer.length := by
  have appended (read : HttprRead) :
      read.httpr.clientBuffer.length ≤ (read.append Env.ok line).httpr.clientBuffer.length := by
    simp [append_ok, httprAddLine]
  unfold HttprRead.line
  split
  · have tossed : (read.toss Env.ok address).httpr.clientBuffer = read.httpr.clientBuffer := by
      unfold HttprRead.toss
      split
      · rfl
      · split <;> rfl
    rw [(finish_ok address read).2.2, tossed, List.length_append]
    exact Nat.le_add_right _ _
  · split
    · exact Nat.le_refl _
    · split
      · exact appended { read with httpr := { read.httpr with
          hasHost := true, host := some ((line.drop 5).dropWhile isspace) } }
      · split
        · exact Nat.le_refl _
        · split
          · exact Nat.le_refl _
          · exact appended read

theorem requestRead_longer (address : SockaddrIn) (front rest : Bytes) :
    (requestRead address front).1.httpr.clientBuffer.length ≤
      (requestRead address (front ++ rest)).1.httpr.clientBuffer.length := by
  rw [requestRead, requestRead, redsocksEvbufferReadline.drain_append, ← requestRead]
  exact redsocksEvbufferReadline.drain_invariant _ _
    (fun read => (requestRead address front).1.httpr.clientBuffer.length ≤
      read.httpr.clientBuffer.length)
    (fun read line _ longer => Nat.le_trans longer (line_longer address read line)) _ _
    (Nat.le_refl _)

/-- A client whose socket is read and whose calls have not failed, before the request is sent. -/
structure Ready (client : Client) : Prop where
  live : client.dropped = false
  subsys : client.subsys = .httpRelay
  readcb : client.client.readcb = .httprClient
  enabled : client.client.enabled.read = true
  watermark : client.client.wmRead = ⟨0, 0⟩
  phase : (client.state = .httpr .new ∧ requestRead client.destaddr client.client.rcvd =
      ({ requestStart with httpr := client.httpr }, client.client.input)) ∨
    (client.state = .httpr .recvRequestHeaders ∧ client.relay = redConnectRelay ∧
      client.relayOpen = true ∧ client.client.input = [] ∧
      ∃ request, Collecting client.askView request)

theorem ready_accepted (config : Config) (auth : HttpAuth) (address : SockaddrIn) :
    Ready (acceptedWorld Env.ok config auth .httpRelay address).client :=
  ⟨rfl, rfl, rfl, rfl, rfl, .inl ⟨rfl, rfl⟩⟩

theorem readContent_waiting {client : Client} (state : client.state = .httpr .recvRequestHeaders) :
    httprClientReadContent Env.ok client = { client.setInput .client [] with
      httpr := { client.httpr with
        clientBuffer := client.httpr.clientBuffer ++ client.client.input } } := by
  have early : State.httprRequestSent (.httpr .recvRequestHeaders) = false := rfl
  have unchanged : (client.setInput .client []).state = .httpr .recvRequestHeaders := state
  simp [httprClientReadContent, Env.ok, unchanged, early]

structure Advanced (before after : Client) : Prop where
  ready : Ready after
  rcvd : after.client.rcvd = before.client.rcvd
  destaddr : after.destaddr = before.destaddr

theorem advanced_new {client : Client} (live : client.dropped = false)
    (subsys : client.subsys = .httpRelay) (readcb : client.client.readcb = .httprClient)
    (enabled : client.client.enabled.read = true) (watermark : client.client.wmRead = ⟨0, 0⟩)
    (state : client.state = .httpr .new)
    (whole : requestRead client.destaddr client.client.rcvd =
      redsocksEvbufferReadline.drain (HttprRead.line Env.ok client.destaddr) HttprRead.isDone
        { requestStart with httpr := client.httpr } client.client.input)
    (kept : (requestRead client.destaddr client.client.rcvd).1.doDrop = false) :
    Advanced client (httprClientReadCb Env.ok client) := by
  have logs := requestRead_logs client.destaddr client.client.rcvd kept
  have start : ({ httpr := client.httpr, connectRelay := false, doDrop := false, logs := [] } :
      HttprRead) = { requestStart with httpr := client.httpr } := rfl
  simp only [httprClientReadCb, state, start, ← whole]
  rw [if_neg (by simp [kept])]
  cases ended : (requestRead client.destaddr client.client.rcvd).1.connectRelay with
  | true =>
      rw [if_pos rfl, readContent_waiting rfl]
      obtain ⟨request, received, body, firstline, buffer⟩ := requestRead_done
        (Prod.eta (requestRead client.destaddr client.client.rcvd)).symm ended kept
      refine ⟨⟨live, subsys, readcb, enabled, watermark, .inr ⟨rfl, rfl, rfl, rfl, request,
        received, firstline, ?_⟩⟩, rfl, rfl⟩
      exact (List.append_nil _).trans (congrArg₂ (· ++ ·) buffer body.symm)
  | false =>
      rw [if_neg (by simp)]
      refine ⟨⟨live, subsys, readcb, enabled, watermark, .inl ⟨state, ?_⟩⟩, rfl, rfl⟩
      have read : (requestRead client.destaddr client.client.rcvd).1 =
          { requestStart with
            httpr := (requestRead client.destaddr client.client.rcvd).1.httpr } := by
        generalize (requestRead client.destaddr client.client.rcvd).1 = read at kept logs ended
        obtain ⟨httpr, connects, drops, messages⟩ := read
        simp only at kept logs ended
        subst kept logs ended
        rfl
      exact Prod.ext read rfl

theorem advanced_readCb {client : Client} (ready : Ready client) (chunk : Bytes)
    (kept : (requestRead client.destaddr (client.client.rcvd ++ chunk)).1.doDrop = false) :
    Advanced (client.setBuf .client (client.client.receive chunk))
      (httprClientReadCb Env.ok (client.setBuf .client (client.client.receive chunk))) := by
  obtain ⟨live, subsys, readcb, enabled, watermark,
    ⟨state, whole⟩ | ⟨state, relay, opened, input, request, collecting⟩⟩ := ready
  · refine advanced_new live subsys readcb enabled watermark state ?_ kept
    have later : requestRead client.destaddr (client.client.rcvd ++ chunk) =
        redsocksEvbufferReadline.drain (HttprRead.line Env.ok client.destaddr) HttprRead.isDone
          { requestStart with httpr := client.httpr } (client.client.input ++ chunk) := by
      rw [requestRead, redsocksEvbufferReadline.drain_append, ← requestRead, whole]
    exact later
  · have waiting : (client.setBuf .client (client.client.receive chunk)).state =
        .httpr .recvRequestHeaders := state
    have later := collecting.receive chunk
    rw [clientReadCb_past waiting (by simp), readContent_waiting waiting]
    exact ⟨⟨live, subsys, readcb, enabled, watermark, .inr ⟨state, relay, opened, rfl,
      request.extend chunk, later.received, later.firstline,
      (List.append_nil _).trans later.buffer⟩⟩, rfl, rfl⟩

namespace Ready

variable {client : Client} (ready : Ready client) (request : ClientRequest)

include ready

theorem whole (rcvd : client.client.rcvd = request.text) :
    client.state = .httpr .recvRequestHeaders ∧ client.client.input = [] ∧
      Collecting client.askView request.asRead := by
  rcases ready.phase with ⟨-, read⟩ | ⟨state, -, -, input, other, collecting⟩
  · rw [rcvd, requestRead_text] at read
    exact absurd (congrArg (fun read => read.1.connectRelay) read) (by simp [HttprRead.finish,
      requestStart])
  · have received := collecting.received
    rw [show client.askView.rcvd = request.text from rcvd] at received
    exact ⟨state, input, received.unique request.received_text ▸ collecting⟩

theorem returns_iff (rcvd : client.client.rcvd = request.text) :
    endless .httprClient client = false ↔ request.Fits client.destaddr := by
  obtain ⟨state, input, collecting⟩ := ready.whole request rcvd
  have buffer : client.httpr.clientBuffer =
      request.asRead.headers client.destaddr ++ request.body := by
    have whole := collecting.buffer
    rw [show client.askView.input = [] from input, List.append_nil] at whole
    exact whole
  have firstline : client.httpr.firstline = some (request.asRead.firstline client.destaddr) :=
    collecting.firstline
  have past : (client.state != .httpr .new) = true := by
    rw [state]
    rfl
  rw [endless, ready.live, past, firstline, buffer, Option.getD_some]
  simp only [beq_self_eq_true, Bool.not_false, Bool.and_true, Bool.true_and, Bool.or_eq_false_iff,
    decide_eq_false_iff_not, Nat.not_le]
  exact ⟨fun ⟨rest, first⟩ => ⟨first, rest⟩, fun fits => ⟨fits.rest, fits.firstline⟩⟩

theorem returns {request : ClientRequest} {rest : Bytes} (fits : request.Fits client.destaddr)
    (split : request.text = client.client.rcvd ++ rest) : endless .httprClient client = false := by
  have finished : (requestRead client.destaddr request.text).1.httpr.clientBuffer =
      request.asRead.headers client.destaddr := by
    have kept := requestRead_kept request client.destaddr
    rw [requestRead_text] at kept ⊢
    exact (finish_headerRead request.asRead kept).2
  have room := fits.rest
  rw [List.length_append] at room
  rcases ready.phase with ⟨state, read⟩ | ⟨state, -, -, input, other, collecting⟩
  · have longer := requestRead_longer client.destaddr client.client.rcvd rest
    rw [← split, finished, read] at longer
    have short : client.httpr.clientBuffer.length < httprBufferRoom := by
      exact Nat.lt_of_le_of_lt longer (by omega)
    simp [endless, state, Nat.not_le.mpr short]
  · have whole := (HttpRequest.Received.extend collecting.received rest)
    rw [show client.askView.rcvd ++ rest = request.text from split.symm] at whole
    have same := whole.unique request.received_text
    have firstline : other.firstline client.destaddr = request.asRead.firstline client.destaddr :=
      congrArg (·.firstline client.destaddr) same
    have headers : other.headers client.destaddr = request.asRead.headers client.destaddr :=
      congrArg (·.headers client.destaddr) same
    have body : other.body ++ rest = request.body := congrArg HttpRequest.body same
    have buffer : client.httpr.clientBuffer = request.asRead.headers client.destaddr ++ other.body := by
      have whole := collecting.buffer
      rw [show client.askView.input = [] from input, List.append_nil] at whole
      exact whole.trans (congrArg (· ++ other.body) headers)
    have first : client.httpr.firstline = some (request.asRead.firstline client.destaddr) :=
      collecting.firstline.trans (congrArg some firstline)
    have lengths := congrArg List.length body
    rw [List.length_append] at lengths
    have short : client.httpr.clientBuffer.length < httprBufferRoom := by
      rw [buffer, List.length_append]
      omega
    have fitting := fits.firstline
    simp [endless, first, Nat.not_le.mpr short, Nat.not_le.mpr fitting]

end Ready

theorem step_read {world : World} (ready : Ready world.client) {chunk : Bytes}
    (present : chunk ≠ []) : step world (.readData .client chunk Env.ok) =
      if endless .httprClient (httprClientReadCb Env.ok
        (world.client.setBuf .client (world.client.client.receive chunk))) then none
      else some (world.withClient (httprClientReadCb Env.ok
        (world.client.setBuf .client (world.client.client.receive chunk)))) := by
  have canRead : (world.client.buf .client).canRead = true := by
    simp [Client.buf, Bufferevent.canRead, Bufferevent.readSuspended, ready.enabled,
      ready.watermark]
  have fits : (world.client.buf .client).fits chunk = true := by
    simp [Client.buf, Bufferevent.fits, ready.watermark, present]
  have low : (world.client.buf .client).wmRead.low = 0 := by
    simp [Client.buf, ready.watermark]
  have readcb : (world.client.buf .client).readcb = .httprClient := ready.readcb
  have callback : runReadcb Env.ok (world.withClient (world.client.setBuf .client
      ((world.client.buf .client).receive chunk))) .client =
        world.withClient (httprClientReadCb Env.ok (world.client.setBuf .client
          (world.client.client.receive chunk))) := by
    have still : ((world.withClient (world.client.setBuf .client
      ((world.client.buf .client).receive chunk))).client.buf .client).readcb = .httprClient :=
        ready.readcb
    rw [runReadcb, still]
    rfl
  simp only [step, ready.live, canRead, fits, low, Bool.and_self, Bool.false_eq_true, if_true,
    if_false, Nat.zero_le, callback, readcb, World.withClient_client]

theorem step_ready {world : World} (ready : Ready world.client) {request : ClientRequest}
    (fits : request.Fits world.client.destaddr) {chunk rest : Bytes} (present : chunk ≠ [])
    (split : request.text = world.client.client.rcvd ++ chunk ++ rest) :
    ∃ next, step world (.readData .client chunk Env.ok) = some next ∧ Ready next.client ∧
      next.client.client.rcvd = world.client.client.rcvd ++ chunk ∧
      next.client.destaddr = world.client.destaddr ∧ next.auth = world.auth := by
  have advanced := advanced_readCb ready chunk (requestRead_front request _ split)
  refine ⟨world.withClient (httprClientReadCb Env.ok (world.client.setBuf .client
    (world.client.client.receive chunk))), ?_, advanced.ready, advanced.rcvd,
    advanced.destaddr, rfl⟩
  have room : request.Fits (httprClientReadCb Env.ok (world.client.setBuf .client
      (world.client.client.receive chunk))).destaddr := by
    rw [advanced.destaddr]
    exact fits
  have arrived : request.text = (httprClientReadCb Env.ok (world.client.setBuf .client
      (world.client.client.receive chunk))).client.rcvd ++ rest := by
    rw [advanced.rcvd]
    exact split
  have part := advanced.ready.returns room arrived
  rw [step_read ready present, part, if_neg Bool.false_ne_true]

theorem run_ready (request : ClientRequest) {world : World} (ready : Ready world.client)
    (fits : request.Fits world.client.destaddr) {chunks : List Bytes} (present : [] ∉ chunks)
    (split : request.text = world.client.client.rcvd ++ chunks.flatten) :
    ∃ next, run step (chunks.map (.readData .client · Env.ok)) world = some next ∧
      Ready next.client ∧ next.client.client.rcvd = request.text ∧
      next.client.destaddr = world.client.destaddr ∧ next.auth = world.auth := by
  induction chunks generalizing world with
  | nil => exact ⟨world, rfl, ready, by simpa using split.symm, rfl, rfl⟩
  | cons chunk chunks ih =>
      rw [List.mem_cons, not_or] at present
      rw [List.flatten_cons, ← List.append_assoc] at split
      obtain ⟨middle, stepped, readyNext, rcvd, destaddr, auth⟩ :=
        step_ready ready fits (Ne.symm present.1) split
      obtain ⟨next, ran, ready, whole, address, same⟩ :=
        ih readyNext (destaddr ▸ fits) present.2 (rcvd ▸ split)
      refine ⟨next, ?_, ready, whole, address.trans destaddr, same.trans auth⟩
      rw [List.map_cons, run_cons, stepped, Option.bind_some, ran]

theorem ask_ready {world : World} (ready : Ready world.client) {first : Bytes}
    (waiting : world.client.state = .httpr .recvRequestHeaders)
    (line : world.client.httpr.firstline = some first) (unasked : world.auth.lastAuthQuery = none) :
    ∃ next, step world (.writeReady .relay 0 Env.ok) = some next ∧ next.client.dropped = false ∧
      next.client.state = .httpr .requestSent ∧ next.client.client = world.client.client ∧
      next.client.destaddr = world.client.destaddr ∧
      next.client.written = first ++ world.client.httpr.clientBuffer := by
  obtain ⟨live, subsys, -, -, -, ⟨state, -⟩ | ⟨-, relay, opened, -, -⟩⟩ := ready
  · rw [waiting] at state
    cases state
  · obtain ⟨config, ⟨query, count⟩, client⟩ := world
    obtain ⟨clientSubsys, clientBuffer, relayBuffer, relayOpen, destaddr, clientState, clientEvshut,
      relayEvshut, socks5, ⟨firstline, host, hasHost, headers, reply⟩, dropped, trace⟩ := client
    simp only at live subsys relay opened waiting line unasked
    subst live subsys relay opened waiting line unasked
    refine ⟨_, rfl, rfl, rfl, rfl, rfl, ?_⟩
    rfl

/-- However a request that fits is cut into reads, it is sent when the connection is there. -/
theorem request_sent (request : ClientRequest) (config : Config) (auth : HttpAuth)
    (address : SockaddrIn) (fits : request.Fits address) (chunks : List Bytes)
    (unasked : auth.lastAuthQuery = none) (present : [] ∉ chunks)
    (split : chunks.flatten = request.text) :
    ∃ final, run step (chunks.map (.readData .client · Env.ok) ++ [.writeReady .relay 0 Env.ok])
        (acceptedWorld Env.ok config auth .httpRelay address) = some final ∧
      final.client.dropped = false ∧ final.client.state = .httpr .requestSent ∧
      final.client.client.rcvd = request.text ∧ final.client.client.input = [] ∧
      final.client.written = request.asRead.stream final.client.destaddr [] := by
  obtain ⟨middle, ran, ready, rcvd, -, sameAuth⟩ :=
    run_ready request (ready_accepted config auth address) fits present split.symm
  obtain ⟨state, input, collecting⟩ := ready.whole request rcvd
  obtain ⟨final, asked, live, sent, client, destaddr, written⟩ := ask_ready ready state
    collecting.firstline (sameAuth ▸ unasked)
  have buffer : middle.client.httpr.clientBuffer =
      request.asRead.headers middle.client.destaddr ++ request.asRead.body := by
    have whole := collecting.buffer
    rw [show middle.client.askView.input = [] from input, List.append_nil] at whole
    exact whole
  refine ⟨final, ?_, live, sent, client ▸ rcvd, client ▸ input, ?_⟩
  · rw [run_append, ran, Option.bind_some, run_cons, asked, Option.bind_some, run_nil]
  · rw [written, destaddr, buffer, HttpRequest.stream, List.append_nil, List.append_assoc]
    rfl

theorem fits_of_read (request : ClientRequest) (config : Config) (auth : HttpAuth)
    (address : SockaddrIn) {events : List Event} {final : World}
    (ran : run step (.readData .client request.text Env.ok :: events)
      (acceptedWorld Env.ok config auth .httpRelay address) = some final) :
    request.Fits address := by
  have ready := ready_accepted config auth address
  have advanced := advanced_readCb ready request.text (requestRead_kept request address)
  rw [run_cons, step_read ready request.text_ne_nil] at ran
  obtain ⟨middle, stepped, -⟩ := Option.bind_eq_some_iff.mp ran
  have returned := Bool.eq_false_iff.mpr (Option.ite_none_left_eq_some.mp stepped).1
  have whole := (advanced.ready.returns_iff request advanced.rcvd).mp returned
  rw [advanced.destaddr] at whole
  exact whole

/-! ### What is sent and what should be -/

theorem noLf_decimal (value : Nat) : 10 ∉ decimal value := by
  intro member
  exact absurd (decimal_isdigit value 10 member) (by decide)

theorem noLf_fmtHttpHost (address : SockaddrIn) : 10 ∉ fmtHttpHost address := by
  unfold fmtHttpHost hostPort inetNtoa
  split <;> simp [noLf_decimal]

namespace ClientRequest

variable (request : ClientRequest) (address : SockaddrIn)

theorem noLf_hostValue {value : Bytes} (found : hostValue request.lines = some value) :
    10 ∉ value := by
  rw [hostValue_lines] at found
  obtain ⟨header, last, rfl⟩ := Option.map_eq_some_iff.mp found
  have inside := (List.mem_filter.mp (List.mem_of_getLast? last)).1
  intro member
  have whole := List.mem_of_mem_drop ((List.dropWhile_suffix _).subset member)
  exact (request.noEnds_line inside).2.1 whole

theorem noLf_host {value : Bytes} (found : request.host = some value) : 10 ∉ value := by
  obtain ⟨header, last, rfl⟩ := Option.map_eq_some_iff.mp found
  have inside := (List.mem_filter.mp (List.mem_of_getLast? last)).1
  intro member
  have whole := (List.dropWhile_suffix _).subset member
  exact (request.contents header inside).2.1 whole

theorem hostValue_isSome_of_host (found : request.host.isSome = true) :
    (hostValue request.lines).isSome = true := by
  obtain ⟨value, host⟩ := Option.isSome_iff_exists.mp found
  obtain ⟨header, last, -⟩ := Option.map_eq_some_iff.mp host
  obtain ⟨inside, named⟩ := List.mem_filter.mp (List.mem_of_getLast? last)
  rw [hostValue_lines, Option.isSome_map, List.getLast?_isSome]
  refine List.ne_nil_of_mem (List.mem_filter.mpr ⟨inside, ?_⟩)
  exact strncasecmpEq_of_named named

end ClientRequest

def linesLength (lines : List Bytes) : Nat :=
  (lines.flatMap (· ++ crlf)).length

theorem linesLength_append (first second : List Bytes) :
    linesLength (first ++ second) = linesLength first + linesLength second := by
  rw [linesLength, List.flatMap_append, List.length_append]
  rfl

theorem linesLength_filter {keep should : Header → Bool} (headers : List Header)
    (fewer : ∀ header, keep header = true → should header = true) :
    linesLength ((headers.filter keep).map Header.line) ≤
        linesLength ((headers.filter should).map Header.line) ∧
      (linesLength ((headers.filter keep).map Header.line) =
          linesLength ((headers.filter should).map Header.line) →
        ∀ header ∈ headers, should header = true → keep header = true) := by
  induction headers with
  | nil => simp [linesLength]
  | cons header headers ih =>
      have one : ∀ others : List Header, linesLength ((header :: others).map Header.line) =
          header.line.length + 2 + linesLength (others.map Header.line) := by
        intro others
        simp [linesLength, crlf]
        omega
      rw [List.forall_mem_cons]
      cases keeps : keep header with
      | true =>
          have wanted := fewer header keeps
          rw [List.filter_cons_of_pos keeps, List.filter_cons_of_pos wanted, one, one]
          refine ⟨by omega, fun same => ⟨fun _ => rfl, ih.2 (by omega)⟩⟩
      | false =>
          rw [List.filter_cons_of_neg (by simp [keeps])]
          cases wanted : should header with
          | true =>
              rw [List.filter_cons_of_pos wanted, one]
              exact ⟨by omega, fun same => by omega⟩
          | false =>
              rw [List.filter_cons_of_neg (by simp [wanted])]
              exact ⟨ih.1, fun same => ⟨by simp, ih.2 same⟩⟩

theorem firstLine_inj {first second firstRest secondRest : Bytes} (firstLf : 10 ∉ first)
    (secondLf : 10 ∉ second) (same : first ++ crlf ++ firstRest = second ++ crlf ++ secondRest) :
    first = second ∧ firstRest = secondRest := by
  have raw : ∀ line rest : Bytes, line ++ crlf ++ rest = (line ++ [13]) ++ 10 :: rest := by
    simp [crlf]
  rw [raw, raw] at same
  have firstSplit := (splitAtFirst_eq_some_iff 10 _ (first ++ [13]) firstRest).mpr
    ⟨by simp [firstLf], rfl⟩
  have secondSplit := (splitAtFirst_eq_some_iff 10 _ (second ++ [13]) secondRest).mpr
    ⟨by simp [secondLf], rfl⟩
  rw [same, secondSplit, Option.some.injEq, Prod.mk.injEq] at firstSplit
  exact ⟨(List.append_cancel_right firstSplit.1).symm, firstSplit.2.symm⟩

namespace ClientRequest

variable (request : ClientRequest) (address : SockaddrIn)

theorem parts_of_stream {authorization : Bytes}
    (same : request.asRead.stream address [] = request.proper address authorization) :
    (hostValue request.lines).getD (fmtHttpHost address) =
        request.host.getD (fmtHttpHost address) ∧
      request.asRead.headers address = authorization ++ request.properHeaders address := by
  have taken : 10 ∉ (hostValue request.lines).getD (fmtHttpHost address) := by
    cases found : hostValue request.lines with
    | none => exact noLf_fmtHttpHost address
    | some value => exact request.noLf_hostValue found
  have meant : 10 ∉ request.host.getD (fmtHttpHost address) := by
    cases found : request.host with
    | none => exact noLf_fmtHttpHost address
    | some value => exact request.noLf_host found
  have target := request.target_noEnds.2.1
  rw [HttpRequest.stream, asRead_firstline, proper, properFirst, List.append_nil] at same
  simp only [List.append_assoc] at same
  have behind := List.append_cancel_left (List.append_cancel_left (List.append_cancel_left same))
  simp only [← List.append_assoc] at behind
  rw [List.append_assoc _ (request.asRead.headers address),
    List.append_assoc _ (request.properHeaders address),
    List.append_assoc _ authorization] at behind
  obtain ⟨hosts, rest⟩ := firstLine_inj (by simp [taken, target]) (by simp [meant, target]) behind
  refine ⟨List.append_cancel_right hosts, ?_⟩
  rw [← List.append_assoc] at rest
  exact List.append_cancel_right rest

theorem headers_length :
    (request.asRead.headers address).length ≤ (request.properHeaders address).length ∧
      ((request.asRead.headers address).length = (request.properHeaders address).length →
        (hostValue request.lines).isSome = request.host.isSome ∧
          ∀ header ∈ request.headers, leavesOut header = true → isHop header = true) := by
  have fewer : ∀ header, (!leavesOut header) = true → (!isHop header) = true := by
    intro header kept
    cases hop : isHop header with
    | false => rfl
    | true =>
        rw [leavesOut_of_isHop hop] at kept
        cases kept
  obtain ⟨shorter, equal⟩ := linesLength_filter request.headers fewer
  have some : linesLength [ascii "Host: " ++ fmtHttpHost address] ≠ 0 := by
    simp [linesLength, crlf]
  have none : linesLength [] = 0 := rfl
  have implied := request.hostValue_isSome_of_host
  have left : (request.asRead.headers address).length = linesLength _ :=
    congrArg List.length (request.asRead_headers address)
  have right : (request.properHeaders address).length = linesLength _ := rfl
  rw [left, right, linesLength_append, linesLength_append, linesLength_append, linesLength_append]
  have back : (∀ header ∈ request.headers, (!isHop header) = true → (!leavesOut header) = true) →
      ∀ header ∈ request.headers, leavesOut header = true → isHop header = true := by
    intro kept header member left
    cases hop : isHop header with
    | true => rfl
    | false =>
        have still := kept header member (by simp [hop])
        simp [left] at still
  cases taken : (hostValue request.lines).isSome with
  | true =>
      cases meant : request.host.isSome with
      | true =>
          simp only [if_true]
          exact ⟨by omega, fun same => ⟨trivial, back (equal (by omega))⟩⟩
      | false =>
          simp only [if_true, Bool.false_eq_true, if_false]
          exact ⟨by omega, fun same => by omega⟩
  | false =>
      cases meant : request.host.isSome with
      | true =>
          rw [implied meant] at taken
          cases taken
      | false =>
          simp only [Bool.false_eq_true, if_false]
          exact ⟨by omega, fun same => ⟨trivial, back (equal (by omega))⟩⟩

theorem unmistaken_of_stream {authorization : Bytes}
    (same : request.asRead.stream address [] = request.proper address authorization) :
    request.Unmistaken := by
  obtain ⟨hosts, headers⟩ := request.parts_of_stream address same
  obtain ⟨shorter, equal⟩ := request.headers_length address
  have lengths := congrArg List.length headers
  rw [List.length_append] at lengths
  obtain ⟨present, hops⟩ := equal (by omega)
  constructor
  · intro header member begins
    exact hops header member (Bool.or_eq_true_iff.mpr begins)
  · rw [← hostValue_lines]
    cases taken : hostValue request.lines with
    | none =>
        rw [taken] at present
        exact (Option.isNone_iff_eq_none.mp (by simpa using present.symm)).symm
    | some value =>
        rw [taken] at present hosts
        obtain ⟨other, meant⟩ := Option.isSome_iff_exists.mp present.symm
        rw [meant, Option.getD_some, Option.getD_some] at hosts
        rw [meant, hosts]

/-- What a client sends of the request is proper: in every run where the request has come in, in
whatever pieces, and has been sent, the proxy has got it, except for what the pump has just read. -/
def Faithful : Prop :=
  ∀ (env : Env) (config : Config) (auth : HttpAuth) (events : List Event) (final : World),
    run step events (acceptedWorld env config auth .httpRelay address) = some final →
    final.client.dropped = false → final.client.client.rcvd = request.text →
    (final.client.state.httprRequestSent = true ∨ final.client.state = .pumpActive) →
    ∃ authorization, IsAuthorization config final.client.lastRequest authorization ∧
      final.client.written ++ final.client.client.input =
        request.proper final.client.destaddr authorization

/-- In whatever pieces the request comes, it is sent when the connection is there and no challenge
is known. -/
def Sends : Prop :=
  ∀ (config : Config) (auth : HttpAuth) (chunks : List Bytes),
    auth.lastAuthQuery = none → [] ∉ chunks → chunks.flatten = request.text →
    ∃ final, run step (chunks.map (.readData .client · Env.ok) ++ [.writeReady .relay 0 Env.ok])
        (acceptedWorld Env.ok config auth .httpRelay address) = some final ∧
      final.client.dropped = false ∧ final.client.client.rcvd = request.text ∧
      final.client.state.httprRequestSent = true

theorem faithful_of_unmistaken (unmistaken : request.Unmistaken) : request.Faithful address := by
  intro env config auth events final ran live rcvd sent
  cases (run_served ran).2 with
  | dropped dropped begun =>
      rw [live] at dropped
      cases dropped
  | pumping live state streamed =>
      obtain ⟨other, authorization, received, valid, whole⟩ := streamed
      rw [show final.client.askView.rcvd = request.text from rcvd] at received
      obtain rfl := received.unique request.received_text
      refine ⟨authorization, valid, ?_⟩
      rw [← request.stream_proper _ unmistaken]
      exact whole
  | asking live listening asking =>
      cases asking with
      | reading state written whole =>
          rw [show final.client.state = _ from state] at sent
          simp [State.httprRequestSent] at sent
      | waiting other state collecting input written =>
          rw [show final.client.state = _ from state] at sent
          simp [State.httprRequestSent] at sent
      | asked other authorization state collecting input valid written =>
          have received := collecting.received
          rw [show final.client.askView.rcvd = request.text from rcvd] at received
          obtain rfl := received.unique request.received_text
          refine ⟨authorization, valid, ?_⟩
          rw [show final.client.client.input = [] from input, List.append_nil,
            ← request.stream_proper _ unmistaken]
          exact written

theorem unmistaken_of_faithful (fits : request.Fits address)
    (faithful : request.Faithful address) : request.Unmistaken := by
  obtain ⟨final, ran, live, sent, rcvd, input, written⟩ := request_sent request
    { login := none, password := none } { lastAuthQuery := none, lastAuthCount := 0 } address fits
    [request.text] rfl (by simpa using request.text_ne_nil.symm) (by simp)
  have requestSent : final.client.state.httprRequestSent = true := by
    rw [sent]
    rfl
  obtain ⟨authorization, -, proper⟩ := faithful _ _ _ _ final ran live rcvd (.inl requestSent)
  rw [input, List.append_nil, written] at proper
  exact request.unmistaken_of_stream final.client.destaddr proper

theorem fits_of_sends (sends : request.Sends address) : request.Fits address := by
  obtain ⟨final, ran, -⟩ := sends { login := none, password := none }
    { lastAuthQuery := none, lastAuthCount := 0 } [request.text] rfl
    (by simpa using request.text_ne_nil.symm) (by simp)
  exact fits_of_read request _ _ address ran

def hostnamed : ClientRequest where
  method := ascii "GET"
  target := ascii "/ HTTP/1.1"
  headers := [⟨ascii "Host", ascii " a"⟩, ⟨ascii "Hostname", ascii " b"⟩]
  body := []
  method_ne_nil := by decide
  method_noSpace := by decide
  method_noEnds := by decide
  target_origin := by decide
  target_noEnds := by decide
  names := by decide
  contents := by decide

theorem fits_hostnamed (address : SockaddrIn) : hostnamed.Fits address := by
  have firstline : hostnamed.asRead.firstline address =
      ascii "GET http://ame: b/ HTTP/1.1\r\n" := rfl
  have rest : hostnamed.asRead.headers address ++ hostnamed.body =
      ascii "Host: a\r\nHostname: b\r\nProxy-Connection: close\r\nConnection: close\r\n\r\n" := rfl
  constructor
  · rw [firstline]
    decide
  · rw [rest]
    decide

end ClientRequest

end ProxySet
