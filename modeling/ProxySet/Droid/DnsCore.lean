import Mathlib.Data.Finset.Basic
import ProxySet.Droid.Settings
import ProxySet.Lib.StepRun

/-!
`DNSProxy`: the packets that it reads and makes, and its receive loop with the workers
that it submits to its thread pool.  A run takes the next step of the loop or of any
worker; a synchronized block or method is one step.
-/

namespace ProxySet.Droid.Dns

/-! ### Packets -/

structure Platform where
  /-- `new String(bytes)` in the default charset -/
  newString : Bytes → Bytes
  toLowerCase : Bytes → Bytes
  isValid : Bytes → Bool
  /-- The address of mail.google.com, or the one that stands in for it. -/
  dnsRelay : Bytes

/-- `parseDomain` on a text of at most so many parts; without a first byte it throws. -/
def parseParts (platform : Platform) : Nat → Bytes → Option Bytes
  | _, [] => none
  | 0, _ :: _ => some []
  | fuel + 1, partLength :: rest =>
      if partLength = 0 then some []
      else if partLength < 128 ∧ partLength.toNat ≤ rest.length then
        some (platform.newString (rest.take partLength.toNat) ++ ascii "." ++
          (parseParts platform fuel (rest.drop partLength.toNat)).getD [])
      else some []

def parseDomain (platform : Platform) (request : Bytes) : Bytes :=
  (parseParts platform request.length request).getD []

def getRequestDomain (platform : Platform) (request : Bytes) : Bytes :=
  if 13 < request.length then
    let requestDomain := parseDomain platform (request.drop 12)
    if 1 < requestDomain.length then requestDomain.dropLast else requestDomain
  else []

def dnsPayload : Bytes :=
  [0xc0, 0x0c, 0x00, 0x01, 0x00, 0x01, 0x00, 0x00, 0x00, 0x3c, 0x00, 0x04]

def createDNSResponse (quest : Bytes) (ips : Option Bytes) : Option Bytes :=
  match ips with
  | none => none
  | some ips =>
      if 12 ≤ quest.length ∧ quest.length + dnsPayload.length + ips.length ≤ 1024 then
        some (quest.take 2 ++ [0x81, 0x80] ++ (quest.drop 4).take 2 ++ (quest.drop 4).take 2 ++
          [0, 0, 0, 0] ++ quest.drop 12 ++ dnsPayload ++ ips)
      else none

def parseSections (index : Nat) : List Bytes → Option Bytes
  | [] => some []
  | part :: rest =>
      match integerValueOf part with
      | none => none
      | some value =>
          if (index = 0 ∨ index = 3) ∧ value = 0 then none
          else (parseSections (index + 1) rest).map ((value % 256).toNat.toUInt8 :: ·)

def parseIPString (ip : Bytes) : Option Bytes :=
  let ips := (ip.splitOn 46).rdropWhile List.isEmpty
  if ips.length = 4 then parseSections 0 ips else none

inductive Resolved where
  | line (ip : Bytes)
  | missing
  | exception

inductive Fetched where
  | answer (packet : Bytes)
  | missing
  | exception

def Fetched.ofResponse : Option Bytes → Fetched
  | some packet => .answer packet
  | none => .exception

def fetchAnswerHTTP (platform : Platform) (resolved : Resolved) (quest : Bytes) : Fetched :=
  let domain := getRequestDomain platform quest
  if (ascii "ip6.arpa").isSuffixOf domain || (ascii "in-addr.arpa").isSuffixOf domain ||
      !platform.isValid domain then
    .ofResponse (createDNSResponse quest (parseIPString (ascii "127.0.0.1")))
  else
    match resolved with
    | .exception => .exception
    | .missing => .missing
    | .line ip =>
        if ip = ascii "Error" then .missing
        else
          match parseIPString ip with
          | none => .missing
          | some ips => .ofResponse (createDNSResponse quest (some ips))

def isAppspot (platform : Platform) (questDomain : Bytes) : Bool :=
  (ascii ".appspot.com").isSuffixOf (platform.toLowerCase questDomain)

/-! ### The proxy -/

structure Endpoint where
  address : Bytes
  port : Nat
  deriving DecidableEq

/-- A datagram with its bytes as `udpreq` copies them; its `dnsq` keeps the sender alone. -/
structure Query where
  source : Endpoint
  udpreq : Bytes
  deriving DecidableEq

def Query.domain (platform : Platform) (query : Query) : Bytes :=
  getRequestDomain platform query.udpreq

structure Answer where
  packet : Bytes
  asked : Bytes
  deriving DecidableEq

structure Sent where
  destination : Endpoint
  payload : Bytes
  /-- The query that is answered. -/
  query : Query
  deriving DecidableEq

inductive Loop where
  | receiving
  /-- Before `queryFromCache`. -/
  | looking (query : Query)
  /-- Before `addToCache`, for appspot.com. -/
  | storing (query : Query) (answer : Answer)
  /-- Before `sendDns`. -/
  | replying (query : Query) (answer : Answer)
  /-- Before the synchronized test of `domains`. -/
  | entering (query : Query)
  /-- Before `mThreadPool.execute`. -/
  | submitting (query : Query)
  | stopped
  deriving DecidableEq

inductive Phase where
  | fetching
  | storing (answer : Answer)
  | replying (answer : Answer)
  | removing
  deriving DecidableEq

structure Worker where
  query : Query
  phase : Phase
  deriving DecidableEq

inductive Outcome where
  | answered
  | submitted
  | ignored
  | crashed
  deriving DecidableEq

structure World where
  qbuffer : Bytes
  /-- The rows of the database, by `request`. -/
  cache : Bytes → Option Answer
  domains : Finset Bytes
  loop : Loop
  workers : List Worker
  /-- The datagram that has written to the buffer last. -/
  filler : Option Query
  /-- What has been received, sent and done, for the statements below. -/
  received : List Query
  sent : List Sent
  outcomes : List (Query × Outcome)
  /-- The names whose worker has ended. -/
  ended : List Bytes

def World.start : World where
  qbuffer := List.replicate 576 0
  cache := fun _ => none
  domains := ∅
  loop := .receiving
  workers := []
  filler := none
  received := []
  sent := []
  outcomes := []
  ended := []

inductive Label where
  | receive (source : Endpoint) (payload : Bytes)
  /-- An `IOException`, which ends the loop if it is a `SocketException`. -/
  | receiveFails (socket : Bool)
  /-- The steps of the loop; a call that fails is caught where it is made. -/
  | look (works : Bool)
  | store (works : Bool)
  | reply (works : Bool)
  | enter
  | submit
  /-- The steps of a worker. -/
  | fetch (index : Nat) (resolved : Resolved)
  | workerStore (index : Nat) (works : Bool)
  | workerReply (index : Nat) (works : Bool)
  | remove (index : Nat)
  /-- Another `DNSProxy` on the same database, less what `loadCache` finds expired. -/
  | restart (kept : Bytes → Bool)

/-- What `receive` leaves in the buffer that all packets share. -/
def fill (qbuffer udpreq : Bytes) : Bytes :=
  udpreq ++ qbuffer.drop udpreq.length

/-- The datagram of `sendDns`, with the first bytes of the buffer as its identifier; a response
without room for them throws. -/
def sendDns (qbuffer response : Bytes) : Option Bytes :=
  if 2 ≤ response.length then some (qbuffer.take 2 ++ response.drop 2) else none

namespace World

def addToCache (world : World) (questDomain : Bytes) (answer : Answer) (works : Bool) : World :=
  if works then
    { world with
      cache := fun name => if name = questDomain then some answer else world.cache name }
  else world

def queryFromCache (world : World) (questDomain : Bytes) (works : Bool) : Option Answer :=
  if works then world.cache questDomain else none

def deliver (world : World) (query : Query) (payload : Bytes) (works : Bool) : World :=
  if works then { world with sent := world.sent ++ [⟨query.source, payload, query⟩] } else world

def done (world : World) (query : Query) (outcome : Outcome) (loop : Loop) : World :=
  { world with loop := loop, outcomes := world.outcomes ++ [(query, outcome)] }

def setWorker (world : World) (index : Nat) (query : Query) (phase : Phase) : World :=
  { world with workers := world.workers.set index ⟨query, phase⟩ }

end World

def looked (platform : Platform) (world : World) (query : Query) : Option Answer → World
  | some answer => { world with loop := .replying query answer }
  | none =>
      if isAppspot platform (query.domain platform) then
        match createDNSResponse query.udpreq (parseIPString platform.dnsRelay) with
        | some packet => { world with loop := .storing query ⟨packet, query.udpreq⟩ }
        | none => world.done query .crashed .stopped
      else { world with loop := .entering query }

def fetched (query : Query) : Fetched → Phase
  | .answer packet => if packet.length = 0 then .removing else .storing ⟨packet, query.udpreq⟩
  | .missing => .removing
  | .exception => .removing

def loopStep (platform : Platform) (world : World) : Loop → Label → Option World
  | .receiving, .receive source payload =>
      let query : Query := ⟨source, payload.take 576⟩
      some
        { world with
          qbuffer := fill world.qbuffer query.udpreq
          filler := if query.udpreq = [] then world.filler else some query
          received := world.received ++ [query]
          loop := .looking query }
  | .receiving, .receiveFails socket =>
      some (if socket then { world with loop := .stopped } else world)
  | .looking query, .look works =>
      some (looked platform world query (world.queryFromCache (query.domain platform) works))
  | .storing query answer, .store works =>
      some { world.addToCache (query.domain platform) answer works with
        loop := .replying query answer }
  | .replying query answer, .reply works =>
      match sendDns world.qbuffer answer.packet with
      | some payload => some ((world.deliver query payload works).done query .answered .receiving)
      | none => some (world.done query .crashed .stopped)
  | .entering query, .enter =>
      if query.domain platform ∈ world.domains then some (world.done query .ignored .receiving)
      else some
        { world with
          domains := insert (query.domain platform) world.domains
          loop := .submitting query }
  | .submitting query, .submit =>
      some { (world.done query .submitted .receiving) with
        workers := world.workers ++ [⟨query, .fetching⟩] }
  | _, _ => none

def workerStep (platform : Platform) (world : World) (index : Nat) (query : Query) :
    Phase → Label → Option World
  | .fetching, .fetch _ resolved =>
      some (world.setWorker index query
        (fetched query (fetchAnswerHTTP platform resolved query.udpreq)))
  | .storing answer, .workerStore _ works =>
      some ((world.addToCache (query.domain platform) answer works).setWorker index query
        (.replying answer))
  | .replying answer, .workerReply _ works =>
      match sendDns world.qbuffer answer.packet with
      | some payload => some ((world.deliver query payload works).setWorker index query .removing)
      | none => some (world.setWorker index query .removing)
  | .removing, .remove _ =>
      some
        { world with
          domains := world.domains.erase (query.domain platform)
          workers := world.workers.eraseIdx index
          ended := world.ended ++ [query.domain platform] }
  | _, _ => none

def Label.worker? : Label → Option Nat
  | .fetch index _ => some index
  | .workerStore index _ => some index
  | .workerReply index _ => some index
  | .remove index => some index
  | _ => none

/-- The database outlives the proxy; what is on its way in the old one has no socket left. -/
def restarted (world : World) (kept : Bytes → Bool) : World :=
  { World.start with
    cache := fun name => if kept name then world.cache name else none
    sent := world.sent
    received := world.received
    outcomes := world.outcomes }

def step (platform : Platform) (world : World) (label : Label) : Option World :=
  match label with
  | .restart kept => some (restarted world kept)
  | _ =>
      match label.worker? with
      | none => loopStep platform world world.loop label
      | some index =>
          match world.workers[index]? with
          | some ⟨query, phase⟩ => workerStep platform world index query phase label
          | none => none

/-! ### What one step can do -/

section

variable {platform : Platform} {world next : World}

inductive Stepped (platform : Platform) (world : World) : Label → World → Prop where
  | receive (source : Endpoint) (payload : Bytes) (query : Query) :
      world.loop = .receiving → query = ⟨source, payload.take 576⟩ →
      Stepped platform world (.receive source payload)
        { world with
          qbuffer := fill world.qbuffer query.udpreq
          filler := if query.udpreq = [] then world.filler else some query
          received := world.received ++ [query]
          loop := .looking query }
  | receiveFails (socket : Bool) :
      world.loop = .receiving →
      Stepped platform world (.receiveFails socket)
        (if socket then { world with loop := .stopped } else world)
  | look (query : Query) (works : Bool) :
      world.loop = .looking query →
      Stepped platform world (.look works)
        (looked platform world query (world.queryFromCache (query.domain platform) works))
  | store (query : Query) (answer : Answer) (works : Bool) :
      world.loop = .storing query answer →
      Stepped platform world (.store works)
        { world.addToCache (query.domain platform) answer works with
          loop := .replying query answer }
  | reply (query : Query) (answer : Answer) (payload : Bytes) (works : Bool) :
      world.loop = .replying query answer →
      sendDns world.qbuffer answer.packet = some payload →
      Stepped platform world (.reply works)
        ((world.deliver query payload works).done query .answered .receiving)
  | replyThrows (query : Query) (answer : Answer) (works : Bool) :
      world.loop = .replying query answer → sendDns world.qbuffer answer.packet = none →
      Stepped platform world (.reply works) (world.done query .crashed .stopped)
  | ignore (query : Query) :
      world.loop = .entering query → query.domain platform ∈ world.domains →
      Stepped platform world .enter (world.done query .ignored .receiving)
  | enter (query : Query) :
      world.loop = .entering query → query.domain platform ∉ world.domains →
      Stepped platform world .enter
        { world with
          domains := insert (query.domain platform) world.domains
          loop := .submitting query }
  | submit (query : Query) :
      world.loop = .submitting query →
      Stepped platform world .submit
        { (world.done query .submitted .receiving) with
          workers := world.workers ++ [⟨query, .fetching⟩] }
  | fetch (index : Nat) (query : Query) (resolved : Resolved) :
      world.workers[index]? = some ⟨query, .fetching⟩ →
      Stepped platform world (.fetch index resolved)
        (world.setWorker index query
          (fetched query (fetchAnswerHTTP platform resolved query.udpreq)))
  | workerStore (index : Nat) (query : Query) (answer : Answer) (works : Bool) :
      world.workers[index]? = some ⟨query, .storing answer⟩ →
      Stepped platform world (.workerStore index works)
        ((world.addToCache (query.domain platform) answer works).setWorker index query
          (.replying answer))
  | workerReply (index : Nat) (query : Query) (answer : Answer) (payload : Bytes) (works : Bool) :
      world.workers[index]? = some ⟨query, .replying answer⟩ →
      sendDns world.qbuffer answer.packet = some payload →
      Stepped platform world (.workerReply index works)
        ((world.deliver query payload works).setWorker index query .removing)
  | workerReplyThrows (index : Nat) (query : Query) (answer : Answer) (works : Bool) :
      world.workers[index]? = some ⟨query, .replying answer⟩ →
      sendDns world.qbuffer answer.packet = none →
      Stepped platform world (.workerReply index works) (world.setWorker index query .removing)
  | remove (index : Nat) (query : Query) :
      world.workers[index]? = some ⟨query, .removing⟩ →
      Stepped platform world (.remove index)
        { world with
          domains := world.domains.erase (query.domain platform)
          workers := world.workers.eraseIdx index
          ended := world.ended ++ [query.domain platform] }
  | restart (kept : Bytes → Bool) :
      Stepped platform world (.restart kept) (restarted world kept)

theorem loopStep_stepped {label : Label}
    (taken : loopStep platform world world.loop label = some next) :
    Stepped platform world label next := by
  generalize here : world.loop = loop at taken
  unfold loopStep at taken
  split at taken
  · exact Option.some.inj taken ▸ .receive _ _ _ here rfl
  · exact Option.some.inj taken ▸ .receiveFails _ here
  · exact Option.some.inj taken ▸ .look _ _ here
  · exact Option.some.inj taken ▸ .store _ _ _ here
  · split at taken
    · exact Option.some.inj taken ▸ .reply _ _ _ _ here ‹_›
    · exact Option.some.inj taken ▸ .replyThrows _ _ _ here ‹_›
  · split at taken
    · exact Option.some.inj taken ▸ .ignore _ here ‹_›
    · exact Option.some.inj taken ▸ .enter _ here ‹_›
  · exact Option.some.inj taken ▸ .submit _ here
  · cases taken

theorem workerStep_stepped {index : Nat} {query : Query} {phase : Phase} {label : Label}
    (numbered : label.worker? = some index)
    (here : world.workers[index]? = some ⟨query, phase⟩)
    (taken : workerStep platform world index query phase label = some next) :
    Stepped platform world label next := by
  unfold workerStep at taken
  split at taken
  · obtain rfl := Option.some.inj numbered
    exact Option.some.inj taken ▸ .fetch _ _ _ here
  · obtain rfl := Option.some.inj numbered
    exact Option.some.inj taken ▸ .workerStore _ _ _ _ here
  · obtain rfl := Option.some.inj numbered
    split at taken
    · exact Option.some.inj taken ▸ .workerReply _ _ _ _ _ here ‹_›
    · exact Option.some.inj taken ▸ .workerReplyThrows _ _ _ _ here ‹_›
  · obtain rfl := Option.some.inj numbered
    exact Option.some.inj taken ▸ .remove _ _ here
  · cases taken

theorem step_stepped {label : Label} (taken : step platform world label = some next) :
    Stepped platform world label next := by
  unfold step at taken
  split at taken
  · exact Option.some.inj taken ▸ .restart _
  · split at taken
    · exact loopStep_stepped taken
    · split at taken
      · exact workerStep_stepped ‹_› ‹_› taken
      · cases taken

end

end ProxySet.Droid.Dns
