import ProxySet.Droid.DnsCore

/-!
The datagrams that `DNSProxy` sends: whose identifier they carry, and whose question
they answer.
-/

namespace ProxySet.Droid.Dns

open StepRun

/-! ### The question section -/

def question : Nat → Bytes → Option Bytes
  | _, [] => none
  | 0, _ :: _ => none
  | fuel + 1, size :: rest =>
      if size = 0 then if 4 ≤ rest.length then some (0 :: rest.take 4) else none
      else if size < 64 ∧ size.toNat ≤ rest.length then
        (question fuel (rest.drop size.toNat)).map fun more => size :: rest.take size.toNat ++ more
      else none

def questionOf (packet : Bytes) : Option Bytes :=
  question packet.length (packet.drop 12)

theorem question_again {fuel : Nat} {body asked : Bytes} (read : question fuel body = some asked) :
    ∃ rest, body = asked ++ rest ∧
      ∀ other more, asked.length ≤ other → question other (asked ++ more) = some asked := by
  induction fuel generalizing body asked with
  | zero => cases body <;> simp [question] at read
  | succ fuel ih =>
      cases body with
      | nil => simp [question] at read
      | cons size rest =>
          rw [question] at read
          split at read
          case isTrue zero =>
            split at read
            case isFalse => cases read
            case isTrue long =>
              obtain rfl := Option.some.inj read
              have size4 : (rest.take 4).length = 4 := by simp [long]
              refine ⟨rest.drop 4, by simp [zero], ?_⟩
              intro other more bound
              cases other with
              | zero => simp at bound
              | succ other =>
                  rw [List.cons_append, question, if_pos rfl, if_pos (by simp [size4]),
                    List.take_append_of_le_length (by omega), List.take_of_length_le (by omega)]
          case isFalse nonzero =>
            split at read
            case isFalse => cases read
            case isTrue fits =>
              obtain ⟨later, found, rfl⟩ := Option.map_eq_some_iff.mp read
              obtain ⟨behind, split, again⟩ := ih found
              have label : (rest.take size.toNat).length = size.toNat := by simp [fits.2]
              refine ⟨behind, ?_, ?_⟩
              · rw [List.cons_append, List.cons_append, List.append_assoc, ← split,
                  List.take_append_drop]
              · intro other more bound
                cases other with
                | zero => simp at bound
                | succ other =>
                    have enough : later.length ≤ other := by
                      simp only [List.cons_append, List.length_cons, List.length_append] at bound
                      omega
                    have whole : size :: rest.take size.toNat ++ later ++ more =
                        size :: (rest.take size.toNat ++ (later ++ more)) := by simp
                    rw [whole, question, if_neg nonzero,
                      if_pos ⟨fits.1, by simp [label]⟩, List.drop_append_of_le_length (by omega),
                      List.drop_of_length_le (by omega), List.nil_append, again other more enough,
                      List.take_append_of_le_length (by omega),
                      List.take_of_length_le (by omega), Option.map_some]

theorem questionOf_split {packet asked : Bytes} (read : questionOf packet = some asked) :
    ∃ rest, packet.drop 12 = asked ++ rest := by
  obtain ⟨rest, split, -⟩ := question_again read
  exact ⟨rest, split⟩

theorem questionOf_of_split {packet other asked more : Bytes}
    (read : questionOf packet = some asked) (body : other.drop 12 = asked ++ more) :
    questionOf other = some asked := by
  obtain ⟨rest, -, again⟩ := question_again read
  have bound : asked.length ≤ other.length := by
    have sizes := congrArg List.length body
    rw [List.length_drop, List.length_append] at sizes
    omega
  rw [questionOf, body]
  exact again other.length more bound

/-! ### Responses -/

theorem createDNSResponse_shape {quest packet : Bytes} {ips : Option Bytes}
    (made : createDNSResponse quest ips = some packet) :
    12 ≤ packet.length ∧ ∃ more, packet.drop 12 = quest.drop 12 ++ more := by
  cases ips with
  | none => cases made
  | some ips =>
      rw [createDNSResponse] at made
      split at made
      case isFalse => cases made
      case isTrue fits =>
        obtain rfl := Option.some.inj made
        have header : (quest.take 2 ++ [0x81, 0x80] ++ (quest.drop 4).take 2 ++
            (quest.drop 4).take 2 ++ [0, 0, 0, 0]).length = 12 := by
          simp only [List.length_append, List.length_take, List.length_drop, List.length_cons,
            List.length_nil]
          omega
        refine ⟨?_, dnsPayload ++ ips, ?_⟩
        · simp only [List.length_append, List.length_take, List.length_drop, List.length_cons,
            List.length_nil] at header ⊢
          omega
        · rw [List.append_assoc _ dnsPayload, List.append_assoc _ (quest.drop 12)]
          exact List.drop_left' header

theorem sendDns_shape {qbuffer response payload : Bytes} (size : 2 ≤ qbuffer.length)
    (sent : sendDns qbuffer response = some payload) :
    payload.take 2 = qbuffer.take 2 ∧ payload.length = response.length ∧
      payload.drop 12 = response.drop 12 := by
  rw [sendDns] at sent
  split at sent
  case isFalse => cases sent
  case isTrue room =>
    obtain rfl := Option.some.inj sent
    have identifier : (qbuffer.take 2).length = 2 := by simp [size]
    refine ⟨List.take_left' identifier, ?_, ?_⟩
    · rw [List.length_append, identifier, List.length_drop]
      omega
    · have cut : (qbuffer.take 2 ++ response.drop 2).drop (2 + 10) = response.drop (2 + 10) := by
        rw [← List.drop_drop, List.drop_left' identifier, List.drop_drop]
      exact cut

theorem questionOf_sendDns {qbuffer response payload : Bytes} (size : 2 ≤ qbuffer.length)
    (sent : sendDns qbuffer response = some payload) : questionOf payload = questionOf response := by
  obtain ⟨-, same, body⟩ := sendDns_shape size sent
  rw [questionOf, questionOf, same, body]

/-- What holds of every response to a request. -/
def Makes (holds : Answer → Prop) (quest : Bytes) : Prop :=
  ∀ ips packet, createDNSResponse quest ips = some packet → holds ⟨packet, quest⟩

def Answer.Repeats (answer : Answer) : Prop :=
  ∃ asked, questionOf answer.asked = some asked ∧ questionOf answer.packet = some asked

theorem makes_long (quest : Bytes) : Makes (fun answer => 12 ≤ answer.packet.length) quest :=
  fun _ _ made => (createDNSResponse_shape made).1

theorem makes_repeats {quest : Bytes} (asks : (questionOf quest).isSome = true) :
    Makes Answer.Repeats quest := by
  intro ips packet made
  obtain ⟨asked, read⟩ := Option.isSome_iff_exists.mp asks
  obtain ⟨-, more, body⟩ := createDNSResponse_shape made
  obtain ⟨rest, split⟩ := questionOf_split read
  rw [split, List.append_assoc] at body
  exact ⟨asked, read, questionOf_of_split read body⟩

theorem fetched_holds {holds : Answer → Prop} {platform : Platform} {resolved : Resolved}
    {quest packet : Bytes} (makes : Makes holds quest)
    (answered : fetchAnswerHTTP platform resolved quest = .answer packet) :
    holds ⟨packet, quest⟩ := by
  have response : ∀ ips, Fetched.ofResponse (createDNSResponse quest ips) = .answer packet →
      holds ⟨packet, quest⟩ := by
    intro ips same
    cases made : createDNSResponse quest ips with
    | none => simp [made, Fetched.ofResponse] at same
    | some other =>
        rw [made, Fetched.ofResponse, Fetched.answer.injEq] at same
        exact same ▸ makes ips other made
  simp only [fetchAnswerHTTP] at answered
  split at answered
  · exact response _ answered
  · split at answered
    · cases answered
    · cases answered
    · split at answered
      · cases answered
      · split at answered
        · cases answered
        · exact response _ answered

def Loop.query? : Loop → Option Query
  | .looking query => some query
  | .storing query _ => some query
  | .replying query _ => some query
  | .entering query => some query
  | .submitting query => some query
  | _ => none

def Loop.answer? : Loop → Option Answer
  | .storing _ answer => some answer
  | .replying _ answer => some answer
  | _ => none

def Phase.answer? : Phase → Option Answer
  | .storing answer => some answer
  | .replying answer => some answer
  | _ => none

section

variable {platform : Platform} {world next : World} {holds : Answer → Prop}

theorem addToCache_eq (world : World) (name : Bytes) (answer : Answer) (works : Bool) :
    world.addToCache name answer works =
      { world with cache := (world.addToCache name answer works).cache } := by
  cases works <;> rfl

theorem deliver_eq (world : World) (query : Query) (payload : Bytes) (works : Bool) :
    world.deliver query payload works =
      { world with
        sent := world.sent ++ if works then [⟨query.source, payload, query⟩] else [] } := by
  cases works <;> simp [World.deliver]

theorem looked_eq (platform : Platform) (world : World) (query : Query) (found : Option Answer) :
    looked platform world query found =
      { world with
        loop := (looked platform world query found).loop
        outcomes := (looked platform world query found).outcomes } := by
  unfold looked World.done
  repeat' split
  all_goals rfl

/-! ### The buffer -/

/-- What the shared buffer starts with, and where the queries in flight come from. -/
structure Buffered (world : World) : Prop where
  size : world.qbuffer.length = 576
  filled : ∀ last, world.filler = some last → last ∈ world.received ∧
    (2 ≤ last.udpreq.length → world.qbuffer.take 2 = last.udpreq.take 2)
  looping : ∀ query, world.loop.query? = some query →
    query ∈ world.received ∧ (query.udpreq ≠ [] → world.filler = some query)
  working : ∀ worker ∈ world.workers, worker.query ∈ world.received

theorem buffered_start : Buffered .start where
  size := List.length_replicate
  filled := fun last here => by cases here
  looping := fun query here => by cases here
  working := fun worker member => by cases member

theorem Buffered.carry (buffered : Buffered world) (qbuffer : next.qbuffer = world.qbuffer)
    (filler : next.filler = world.filler) (received : next.received = world.received)
    (looping : ∀ query, next.loop.query? = some query → world.loop.query? = some query)
    (working : ∀ worker ∈ next.workers, worker.query ∈ world.received) : Buffered next where
  size := qbuffer ▸ buffered.size
  filled := by
    rw [filler, received, qbuffer]
    exact buffered.filled
  looping := by
    rw [received, filler]
    exact fun query here => buffered.looping query (looping query here)
  working := received ▸ working

theorem looked_query {query other : Query} {found : Option Answer}
    (here : (looked platform world query found).loop.query? = some other) : other = query := by
  unfold looked World.done at here
  repeat' split at here
  all_goals first | exact (Option.some.inj here).symm | cases here

theorem setWorker_query {index : Nat} {query : Query} {old phase : Phase}
    (working : ∀ worker ∈ world.workers, worker.query ∈ world.received)
    (here : world.workers[index]? = some ⟨query, old⟩) :
    ∀ worker ∈ (world.setWorker index query phase).workers, worker.query ∈ world.received := by
  intro worker member
  rcases List.mem_or_eq_of_mem_set member with kept | rfl
  · exact working worker kept
  · exact working ⟨query, old⟩ (List.mem_of_getElem? here)

theorem fill_take {qbuffer udpreq : Bytes} (long : 2 ≤ udpreq.length) :
    (fill qbuffer udpreq).take 2 = udpreq.take 2 :=
  List.take_append_of_le_length long

theorem buffered_receive (buffered : Buffered world) {source : Endpoint} {payload : Bytes}
    {query : Query} (asked : query = ⟨source, payload.take 576⟩) :
    Buffered { world with
      qbuffer := fill world.qbuffer query.udpreq
      filler := if query.udpreq = [] then world.filler else some query
      received := world.received ++ [query]
      loop := .looking query } where
  size := by
    have short : query.udpreq.length ≤ 576 := by simp [asked]
    have size := buffered.size
    simp only [fill, List.length_append, List.length_drop]
    omega
  filled := by
    intro last here
    by_cases silent : query.udpreq = []
    · simp only [silent, if_true] at here
      obtain ⟨member, starts⟩ := buffered.filled last here
      refine ⟨List.mem_append_left _ member, fun long => ?_⟩
      simpa [fill, silent] using starts long
    · simp only [silent, if_false, Option.some.injEq] at here
      exact here ▸ ⟨by simp, fill_take⟩
  looping := by
    intro other here
    obtain rfl := Option.some.inj here
    exact ⟨by simp, fun spoken => if_neg spoken⟩
  working := fun worker member => List.mem_append_left _ (buffered.working worker member)

theorem buffered_step {label : Label} (buffered : Buffered world)
    (stepped : Stepped platform world label next) : Buffered next := by
  cases stepped with
  | receive source payload query here asked => exact buffered_receive buffered asked
  | receiveFails socket here =>
      cases socket with
      | false => exact buffered
      | true => exact buffered.carry rfl rfl rfl (fun query here => by cases here) buffered.working
  | look query works here =>
      refine buffered.carry ?_ ?_ ?_ (fun other now => ?_) ?_
      · rw [looked_eq]
      · rw [looked_eq]
      · rw [looked_eq]
      · rw [here, looked_query now]
        rfl
      · rw [looked_eq]
        exact buffered.working
  | store query answer works here =>
      rw [addToCache_eq]
      exact buffered.carry rfl rfl rfl (fun other now => by rw [here]; exact now) buffered.working
  | reply query answer payload works here _ =>
      rw [deliver_eq]
      exact buffered.carry rfl rfl rfl (fun other now => by cases now) buffered.working
  | replyThrows query answer works here _ =>
      exact buffered.carry rfl rfl rfl (fun other now => by cases now) buffered.working
  | ignore query here _ =>
      exact buffered.carry rfl rfl rfl (fun other now => by cases now) buffered.working
  | enter query here _ =>
      exact buffered.carry rfl rfl rfl (fun other now => by rw [here]; exact now) buffered.working
  | submit query here =>
      refine buffered.carry rfl rfl rfl (fun other now => by cases now) fun worker member => ?_
      rcases List.mem_append.mp member with old | new
      · exact buffered.working worker old
      · rw [List.mem_singleton.mp new]
        exact (buffered.looping query (by rw [here]; rfl)).1
  | fetch index query resolved here =>
      exact buffered.carry rfl rfl rfl (fun _ now => now) (setWorker_query buffered.working here)
  | workerStore index query answer works here =>
      rw [addToCache_eq]
      exact buffered.carry rfl rfl rfl (fun _ now => now) (setWorker_query buffered.working here)
  | workerReply index query answer payload works here _ =>
      rw [deliver_eq]
      exact buffered.carry rfl rfl rfl (fun _ now => now) (setWorker_query buffered.working here)
  | workerReplyThrows index query answer works here _ =>
      exact buffered.carry rfl rfl rfl (fun _ now => now) (setWorker_query buffered.working here)
  | remove index query here =>
      exact buffered.carry rfl rfl rfl (fun _ now => now) fun worker member =>
        buffered.working worker (List.mem_of_mem_eraseIdx member)
  | restart kept =>
      exact ⟨List.length_replicate, (fun last here => by cases here),
        (fun query here => by cases here), (fun worker member => by cases member)⟩

/-! ### Answers on their way -/

def Worker.Sound (holds : Answer → Prop) (worker : Worker) : Prop :=
  ∀ answer, worker.phase.answer? = some answer → holds answer ∧ answer.asked = worker.query.udpreq

structure Supplied (holds : Answer → Prop) (world : World) : Prop where
  cached : ∀ name answer, world.cache name = some answer → holds answer
  looping : ∀ answer, world.loop.answer? = some answer → holds answer
  working : ∀ worker ∈ world.workers, worker.Sound holds

theorem supplied_start : Supplied holds .start where
  cached := fun name answer here => by cases here
  looping := fun answer here => by cases here
  working := fun worker member => by cases member

theorem addToCache_cached {name other : Bytes} {answer found : Answer} {works : Bool}
    (cached : ∀ name answer, world.cache name = some answer → holds answer) (held : holds answer)
    (here : (world.addToCache name answer works).cache other = some found) : holds found := by
  cases works with
  | false => exact cached other found here
  | true =>
      simp only [World.addToCache, if_true] at here
      split at here
      · exact Option.some.inj here ▸ held
      · exact cached other found here

theorem looked_answer {query : Query} {works : Bool} {answer : Answer}
    (cached : ∀ name answer, world.cache name = some answer → holds answer)
    (makes : Makes holds query.udpreq)
    (here : (looked platform world query
      (world.queryFromCache (query.domain platform) works)).loop.answer? = some answer) :
    holds answer := by
  cases found : world.queryFromCache (query.domain platform) works with
  | some stored =>
      rw [found, looked, Loop.answer?, Option.some.injEq] at here
      rw [World.queryFromCache] at found
      split at found
      · exact here ▸ cached _ _ found
      · cases found
  | none =>
      rw [found, looked] at here
      split at here
      · split at here
        case h_1 packet made =>
          rw [Loop.answer?, Option.some.injEq] at here
          exact here ▸ makes _ _ made
        case h_2 => cases here
      · cases here

theorem setWorker_sound {index : Nat} {query : Query} {phase : Phase}
    (working : ∀ worker ∈ world.workers, worker.Sound holds)
    (sound : Worker.Sound holds ⟨query, phase⟩) :
    ∀ worker ∈ (world.setWorker index query phase).workers, worker.Sound holds := by
  intro worker member
  rcases List.mem_or_eq_of_mem_set member with old | rfl
  · exact working worker old
  · exact sound

theorem fetched_sound {query : Query} (makes : Makes holds query.udpreq) (resolved : Resolved) :
    Worker.Sound holds ⟨query, fetched query (fetchAnswerHTTP platform resolved query.udpreq)⟩ := by
  intro answer here
  cases answered : fetchAnswerHTTP platform resolved query.udpreq with
  | answer packet =>
      simp only [answered, fetched] at here
      split at here
      · cases here
      · obtain rfl := Option.some.inj here
        exact ⟨fetched_holds makes answered, rfl⟩
  | missing => simp [answered, fetched, Phase.answer?] at here
  | exception => simp [answered, fetched, Phase.answer?] at here

theorem worker_sound {index : Nat} {worker : Worker} (supplied : Supplied holds world)
    (here : world.workers[index]? = some worker) : worker.Sound holds :=
  supplied.working worker (List.mem_of_getElem? here)

theorem supplied_step {label : Label} (buffered : Buffered world) (supplied : Supplied holds world)
    (makes : ∀ query ∈ world.received, Makes holds query.udpreq)
    (stepped : Stepped platform world label next) : Supplied holds next := by
  cases stepped with
  | receive source payload query _ _ =>
      exact ⟨supplied.cached, by simp [Loop.answer?], supplied.working⟩
  | receiveFails socket here =>
      cases socket with
      | false => exact supplied
      | true => exact ⟨supplied.cached, by simp [Loop.answer?], supplied.working⟩
  | look query works here =>
      have asked := makes query (buffered.looping query (by rw [here]; rfl)).1
      refine ⟨?_, fun answer => looked_answer supplied.cached asked, ?_⟩
      · rw [looked_eq]
        exact supplied.cached
      · rw [looked_eq]
        exact supplied.working
  | store query answer works here =>
      have held : holds answer := supplied.looping answer (by rw [here]; rfl)
      refine ⟨fun name found => addToCache_cached supplied.cached held, ?_, ?_⟩
      · rintro other same
        exact Option.some.inj same ▸ held
      · rw [addToCache_eq]
        exact supplied.working
  | reply query answer payload works here _ =>
      rw [deliver_eq]
      exact ⟨supplied.cached, by simp [Loop.answer?, World.done], supplied.working⟩
  | replyThrows query answer works here _ =>
      exact ⟨supplied.cached, by simp [Loop.answer?, World.done], supplied.working⟩
  | ignore query here _ =>
      exact ⟨supplied.cached, by simp [Loop.answer?, World.done], supplied.working⟩
  | enter query here _ => exact ⟨supplied.cached, by simp [Loop.answer?], supplied.working⟩
  | submit query here =>
      refine ⟨supplied.cached, by simp [Loop.answer?, World.done], ?_⟩
      intro worker member
      rcases List.mem_append.mp member with old | new
      · exact supplied.working worker old
      · rw [List.mem_singleton.mp new]
        exact fun answer missing => by cases missing
  | fetch index query resolved here =>
      have asked := makes query (buffered.working _ (List.mem_of_getElem? here))
      exact ⟨supplied.cached, supplied.looping,
        setWorker_sound supplied.working (fetched_sound asked resolved)⟩
  | workerStore index query answer works here =>
      have sound := worker_sound supplied here
      have held : holds answer := (sound answer rfl).1
      rw [addToCache_eq]
      exact ⟨fun name found => addToCache_cached supplied.cached held, supplied.looping,
        setWorker_sound supplied.working sound⟩
  | workerReply index query answer payload works here _ =>
      rw [deliver_eq]
      exact ⟨supplied.cached, supplied.looping,
        setWorker_sound supplied.working fun answer missing => by cases missing⟩
  | workerReplyThrows index query answer works here _ =>
      exact ⟨supplied.cached, supplied.looping,
        setWorker_sound supplied.working fun answer missing => by cases missing⟩
  | remove index query here =>
      exact ⟨supplied.cached, supplied.looping, fun worker member =>
        supplied.working worker (List.mem_of_mem_eraseIdx member)⟩
  | restart kept =>
      refine ⟨fun name answer here => ?_, fun answer here => ?_, fun worker member => ?_⟩
      · simp only [restarted] at here
        split at here
        · exact supplied.cached name answer here
        · cases here
      · change none = some answer at here
        cases here
      · change worker ∈ [] at member
        cases member

/-! ### What is sent -/

inductive Sends (world : World) : Label → Sent → Prop where
  | loop (query : Query) (answer : Answer) (payload : Bytes) :
      world.loop = .replying query answer →
      sendDns world.qbuffer answer.packet = some payload →
      Sends world (.reply true) ⟨query.source, payload, query⟩
  | worker (index : Nat) (query : Query) (answer : Answer) (payload : Bytes) :
      world.workers[index]? = some ⟨query, .replying answer⟩ →
      sendDns world.qbuffer answer.packet = some payload →
      Sends world (.workerReply index true) ⟨query.source, payload, query⟩

theorem step_sent {label : Label} (stepped : Stepped platform world label next) :
    next.sent = world.sent ∨ ∃ sent, Sends world label sent ∧ next.sent = world.sent ++ [sent] := by
  cases stepped with
  | reply query answer payload works here made =>
      rw [deliver_eq]
      cases works with
      | false => exact .inl (List.append_nil _)
      | true => exact .inr ⟨_, .loop query answer payload here made, rfl⟩
  | workerReply index query answer payload works here made =>
      rw [deliver_eq]
      cases works with
      | false => exact .inl (List.append_nil _)
      | true => exact .inr ⟨_, .worker index query answer payload here made, rfl⟩
  | receiveFails socket here => exact .inl (by cases socket <;> rfl)
  | look query works here => exact .inl (by rw [looked_eq])
  | store query answer works here => exact .inl (by rw [addToCache_eq])
  | workerStore index query answer works here => exact .inl (by rw [addToCache_eq]; rfl)
  | _ => exact .inl rfl

theorem step_received {label : Label} (stepped : Stepped platform world label next) :
    ∀ query ∈ world.received, query ∈ next.received := by
  intro query member
  cases stepped with
  | receive source payload other here asked => exact List.mem_append_left _ member
  | receiveFails socket here => cases socket <;> exact member
  | look other works here =>
      rw [looked_eq]
      exact member
  | store other answer works here =>
      rw [addToCache_eq]
      exact member
  | workerStore index other answer works here =>
      rw [addToCache_eq]
      exact member
  | reply other answer payload works here made =>
      rw [deliver_eq]
      exact member
  | workerReply index other answer payload works here made =>
      rw [deliver_eq]
      exact member
  | _ => exact member

/-! ### Identifiers -/

/-- Everything sent goes to the sender of a datagram and has its first two bytes. -/
def Identified (world : World) : Prop :=
  ∀ sent ∈ world.sent, ∃ query ∈ world.received, 2 ≤ query.udpreq.length ∧
    sent.destination = query.source ∧ sent.payload.take 2 = query.udpreq.take 2

/-- The loop answers no datagram without an identifier; and when a worker answers, the datagram
that has filled the shared buffer last has the identifier or the sender of the worker's query. -/
def InTime (world : World) : Label → Prop
  | .reply true => ∀ query ∈ world.loop.query?, 2 ≤ query.udpreq.length
  | .workerReply index true => ∀ worker ∈ world.workers[index]?,
      ∃ last ∈ world.filler, 2 ≤ last.udpreq.length ∧
        (last.udpreq.take 2 = worker.query.udpreq.take 2 ∨ last.source = worker.query.source)
  | _ => True

theorem sends_identified {label : Label} {sent : Sent} (buffered : Buffered world)
    (inTime : InTime world label) (sends : Sends world label sent) :
    ∃ query ∈ world.received, 2 ≤ query.udpreq.length ∧
      sent.destination = query.source ∧ sent.payload.take 2 = query.udpreq.take 2 := by
  have size : 2 ≤ world.qbuffer.length := by
    have whole := buffered.size
    omega
  cases sends with
  | loop query answer payload here made =>
      have long : 2 ≤ query.udpreq.length := inTime query (by rw [here]; rfl)
      have spoken : query.udpreq ≠ [] := by
        rintro silent
        simp [silent] at long
      obtain ⟨member, last⟩ := buffered.looping query (by rw [here]; rfl)
      refine ⟨query, member, long, rfl, ?_⟩
      rw [(sendDns_shape size made).1, (buffered.filled query (last spoken)).2 long]
  | worker index query answer payload here made =>
      obtain ⟨last, filled, long, alike⟩ := inTime _ here
      obtain ⟨member, starts⟩ := buffered.filled last filled
      have identifier : payload.take 2 = last.udpreq.take 2 :=
        (sendDns_shape size made).1.trans (starts long)
      rcases alike with same | same
      · have asked := buffered.working _ (List.mem_of_getElem? here)
        have enough : 2 ≤ query.udpreq.length := by
          have sizes : min 2 last.udpreq.length = min 2 query.udpreq.length := by
            simpa only [List.length_take] using congrArg List.length same
          omega
        exact ⟨query, asked, enough, rfl, identifier.trans same⟩
      · exact ⟨last, member, long, same.symm, identifier⟩

end

theorem replies_identified (platform : Platform) {labels : List Label} {world : World}
    (inTime : Along (step platform) InTime labels .start)
    (ran : run (step platform) labels .start = some world) : Identified world := by
  have start : Buffered .start ∧ Identified .start :=
    ⟨buffered_start, fun sent member => by cases member⟩
  refine (run_invariant_along (fun world => Buffered world ∧ Identified world) ?_ start inTime
    ran).2
  rintro world label next ⟨buffered, identified⟩ allowed taken
  have stepped := step_stepped taken
  refine ⟨buffered_step buffered stepped, ?_⟩
  intro sent member
  -- Both the old replies and a new one have their query among those received so far.
  have found : ∃ query ∈ world.received, 2 ≤ query.udpreq.length ∧
      sent.destination = query.source ∧ sent.payload.take 2 = query.udpreq.take 2 := by
    rcases step_sent stepped with same | ⟨new, sends, grown⟩
    · exact identified sent (same ▸ member)
    · rw [grown, List.mem_append, List.mem_singleton] at member
      rcases member with old | rfl
      · exact identified sent old
      · exact sends_identified buffered allowed sends
  obtain ⟨query, asked, rest⟩ := found
  exact ⟨query, step_received stepped query asked, rest⟩

def asciiPlatform : Platform where
  newString := id
  toLowerCase := List.map tolower
  isValid := fun _ => true
  dnsRelay := ascii "74.125.224.208"

def queryFor (identifier letter type : UInt8) : Bytes :=
  [identifier, identifier, 1, 0, 0, 1, 0, 0, 0, 0, 0, 0, 1, letter, 3, 99, 111, 109, 0, 0, type, 0, 1]

def localPort (port : Nat) : Endpoint := ⟨ascii "127.0.0.1", port⟩

def resolvedAfter (between : List Label) : List Label :=
  [.receive (localPort 4001) (queryFor 1 97 1), .look true, .enter, .submit] ++ between ++
    [.fetch 0 (.line (ascii "93.184.216.34")), .workerStore 0 true, .workerReply 0 true]

instance (world : World) : DecidablePred (InTime world)
  | .reply true => inferInstanceAs (Decidable (∀ query ∈ world.loop.query?, _))
  | .workerReply index true => inferInstanceAs (Decidable (∀ worker ∈ world.workers[index]?, _))
  | .reply false => .isTrue trivial
  | .workerReply _ false => .isTrue trivial
  | .receive _ _ => .isTrue trivial
  | .receiveFails _ => .isTrue trivial
  | .look _ => .isTrue trivial
  | .store _ => .isTrue trivial
  | .enter => .isTrue trivial
  | .submit => .isTrue trivial
  | .fetch _ _ => .isTrue trivial
  | .workerStore _ _ => .isTrue trivial
  | .remove _ => .isTrue trivial
  | .restart _ => .isTrue trivial

theorem replies_identified_alone :
    ∃ world, run (step asciiPlatform) (resolvedAfter []) .start = some world ∧
      world.sent ≠ [] ∧ Identified world := by
  have sends : (run (step asciiPlatform) (resolvedAfter []) .start).any
      (fun world => decide (world.sent ≠ [])) = true := by decide +kernel
  obtain ⟨world, ran, some⟩ := (Option.any_eq_true _ _).mp sends
  have inTime : Along (step asciiPlatform) InTime (resolvedAfter []) .start := by decide +kernel
  exact ⟨world, ran, of_decide_eq_true some, replies_identified asciiPlatform inTime ran⟩

/-- Another query comes from elsewhere before the answer. -/
theorem replies_identified_late :
    ∃ world, run (step asciiPlatform)
      (resolvedAfter [.receive (localPort 4002) (queryFor 2 98 1)]) .start = some world ∧
      ¬Identified world := by
  have shown : (run (step asciiPlatform)
      (resolvedAfter [.receive (localPort 4002) (queryFor 2 98 1)]) .start).any
      (fun world => decide ((world.sent.map fun sent => (sent.destination, sent.payload.take 2)) =
        [(localPort 4001, [2, 2])] ∧ (world.received.map fun query =>
          (query.source, query.udpreq.take 2)) = [(localPort 4001, [1, 1]),
            (localPort 4002, [2, 2])])) = true := by decide +kernel
  obtain ⟨world, ran, facts⟩ := (Option.any_eq_true _ _).mp shown
  obtain ⟨sent, received⟩ := of_decide_eq_true facts
  refine ⟨world, ran, fun identified => ?_⟩
  have reply : (localPort 4001, ([2, 2] : Bytes)) ∈
      world.sent.map fun sent => (sent.destination, sent.payload.take 2) := by simp [sent]
  obtain ⟨wrong, member, same⟩ := List.mem_map.mp reply
  obtain ⟨query, asked, -, source, identifier⟩ := identified wrong member
  have known : (query.source, query.udpreq.take 2) ∈
      world.received.map fun query => (query.source, query.udpreq.take 2) :=
    List.mem_map_of_mem asked
  rw [received, ← source, ← identifier] at known
  rw [Prod.mk.injEq] at same
  rw [same.1, same.2] at known
  exact absurd known (by decide +kernel)

/-! ### Questions -/

/-- A packet with a header and one question, with a name of at most 255 bytes. -/
structure WellFormed (payload : Bytes) : Prop where
  single : (payload.drop 4).take 2 = [0, 1]
  asks : ∃ asked, questionOf payload = some asked ∧ asked.length ≤ 259

def Label.WellFormed : Label → Prop
  | .receive _ payload => Dns.WellFormed payload
  | _ => True

theorem questionOf_take {payload : Bytes} (wellFormed : WellFormed payload) :
    (questionOf (payload.take 576)).isSome = true := by
  obtain ⟨asked, read, short⟩ := wellFormed.asks
  obtain ⟨rest, split⟩ := questionOf_split read
  have body : (payload.take 576).drop 12 = asked ++ rest.take (564 - asked.length) := by
    rw [List.drop_take, split, List.take_append, List.take_of_length_le (by omega)]
  rw [questionOf_of_split read body]
  rfl

/-- A reply has the question of the query that it answers. -/
def Answered (world : World) : Prop :=
  ∀ sent ∈ world.sent, questionOf sent.payload = questionOf sent.query.udpreq

/-- An answer that the loop sends was made for a request with the same question. -/
def SameQuestion (world : World) : Label → Prop
  | .reply true => ∀ query answer, world.loop = .replying query answer →
      questionOf query.udpreq = questionOf answer.asked
  | _ => True

structure Asking (world : World) : Prop where
  buffered : Buffered world
  supplied : Supplied Answer.Repeats world
  asks : ∀ query ∈ world.received, (questionOf query.udpreq).isSome = true

section

variable {platform : Platform} {world next : World} {label : Label}

theorem asking_step (asking : Asking world) (wellFormed : label.WellFormed)
    (stepped : Stepped platform world label next) : Asking next := by
  refine ⟨buffered_step asking.buffered stepped, supplied_step asking.buffered asking.supplied
    (fun query asked => makes_repeats (asking.asks query asked)) stepped, ?_⟩
  intro query member
  cases stepped with
  | receive source payload other here asked =>
      rcases List.mem_append.mp member with old | new
      · exact asking.asks query old
      · rw [List.mem_singleton.mp new, asked]
        exact questionOf_take wellFormed
  | receiveFails socket here => cases socket <;> exact asking.asks query member
  | look other works here =>
      rw [looked_eq] at member
      exact asking.asks query member
  | store other answer works here =>
      rw [addToCache_eq] at member
      exact asking.asks query member
  | workerStore index other answer works here =>
      rw [addToCache_eq] at member
      exact asking.asks query member
  | reply other answer payload works here made =>
      rw [deliver_eq] at member
      exact asking.asks query member
  | workerReply index other answer payload works here made =>
      rw [deliver_eq] at member
      exact asking.asks query member
  | _ => exact asking.asks query member

theorem questionOf_sent {answer : Answer} {payload : Bytes} (buffered : Buffered world)
    (repeats : answer.Repeats) (made : sendDns world.qbuffer answer.packet = some payload) :
    questionOf payload = questionOf answer.asked := by
  obtain ⟨asked, read, again⟩ := repeats
  have size : 2 ≤ world.qbuffer.length := by
    have whole := buffered.size
    omega
  rw [questionOf_sendDns size made, again, read]

theorem sends_answered_iff {sent : Sent} (asking : Asking world) (sends : Sends world label sent) :
    questionOf sent.payload = questionOf sent.query.udpreq ↔ SameQuestion world label := by
  cases sends with
  | loop query answer payload here made =>
      have repeats := asking.supplied.looping answer (by rw [here]; rfl)
      simp only [questionOf_sent asking.buffered repeats made, SameQuestion]
      constructor
      · intro same other found replying
        obtain ⟨rfl, rfl⟩ := Loop.replying.inj (here.symm.trans replying)
        exact same.symm
      · intro same
        exact (same query answer here).symm
  | worker index query answer payload here made =>
      obtain ⟨repeats, own⟩ := worker_sound asking.supplied here answer rfl
      refine iff_of_true ?_ trivial
      rw [questionOf_sent asking.buffered repeats made, own]

theorem sameQuestion_unsent (asking : Asking world) (stepped : Stepped platform world label next)
    (unsent : next.sent = world.sent) : SameQuestion world label := by
  cases stepped with
  | reply query answer payload works here made =>
      cases works with
      | false => trivial
      | true =>
          rw [deliver_eq] at unsent
          simp [World.done] at unsent
  | replyThrows query answer works here thrown =>
      obtain ⟨asked, -, again⟩ := asking.supplied.looping answer (by rw [here]; rfl)
      rw [sendDns] at thrown
      split at thrown
      · cases thrown
      · obtain ⟨rest, split⟩ := questionOf_split again
        have short : answer.packet.drop 12 = [] := List.drop_of_length_le (by omega)
        rw [questionOf, short] at again
        cases answer.packet.length <;> simp [question] at again
  | _ => trivial

theorem sameQuestion_blocked (label : Label) (blocked : step platform world label = none) :
    SameQuestion world label := by
  cases label with
  | reply works =>
      cases works with
      | false => trivial
      | true =>
          intro query answer here
          simp only [step, Label.worker?, here, loopStep] at blocked
          split at blocked
          · cases blocked
          · cases blocked
  | _ => trivial

theorem answered_step_iff (asking : Asking world) (before : Answered world)
    (stepped : Stepped platform world label next) :
    Answered next ↔ SameQuestion world label := by
  by_cases sending : ∃ sent, Sends world label sent ∧ next.sent = world.sent ++ [sent]
  · obtain ⟨sent, sends, grown⟩ := sending
    rw [← sends_answered_iff asking sends, Answered, grown]
    constructor
    · intro all
      exact all sent (by simp)
    · intro new other member
      rcases List.mem_append.mp member with old | last
      · exact before other old
      · rw [List.mem_singleton.mp last]
        exact new
  · have same : next.sent = world.sent := (step_sent stepped).resolve_right sending
    refine iff_of_true ?_ (sameQuestion_unsent asking stepped same)
    rw [Answered, same]
    exact before

end

theorem replies_answer_iff (platform : Platform) {labels : List Label}
    (wellFormed : ∀ label ∈ labels, label.WellFormed) :
    (∀ taken rest world, labels = taken ++ rest → run (step platform) taken .start = some world →
      Answered world) ↔ Along (step platform) SameQuestion labels .start := by
  have start : Asking .start :=
    ⟨buffered_start, supplied_start, fun query member => by cases member⟩
  refine always_iff_along Asking Answered ?_ ?_ ?_ wellFormed start
    (fun sent member => by cases member)
  · intro world label next asking permitted taken
    exact asking_step asking permitted (step_stepped taken)
  · intro world label next asking before permitted taken
    exact answered_step_iff asking before (step_stepped taken)
  · intro world label _ blocked
    exact sameQuestion_blocked label blocked

instance (payload : Bytes) : Decidable (WellFormed payload) :=
  decidable_of_iff ((payload.drop 4).take 2 = [0, 1] ∧
    (questionOf payload).any (fun asked => decide (asked.length ≤ 259)) = true) <| by
    rw [Option.any_eq_true]
    simp only [decide_eq_true_eq]
    exact ⟨fun both => ⟨both.1, both.2⟩, fun both => ⟨both.single, both.asks⟩⟩

def askedTwice (type : UInt8) : List Label :=
  resolvedAfter [] ++ [.remove 0, .receive (localPort 4002) (queryFor 2 97 type), .look true,
    .reply true]

theorem askedTwice_wellFormed (type : UInt8)
    (known : type = 1 ∨ type = 28) : ∀ label ∈ askedTwice type, label.WellFormed := by
  have first : WellFormed (queryFor 1 97 1) := by decide +kernel
  have second : WellFormed (queryFor 2 97 type) := by
    rcases known with rfl | rfl
    · decide +kernel
    · decide +kernel
  intro label member
  simp only [askedTwice, resolvedAfter, List.append_nil, List.cons_append, List.nil_append,
    List.mem_cons, List.not_mem_nil, or_false] at member
  rcases member with rfl | rfl | rfl | rfl | rfl | rfl | rfl | rfl | rfl | rfl | rfl
  all_goals first | exact first | exact second | trivial

instance (world : World) : DecidablePred (SameQuestion world)
  | .reply true =>
      match here : world.loop with
      | .replying query answer =>
          decidable_of_iff (questionOf query.udpreq = questionOf answer.asked) <| by
            refine ⟨fun same other found replying => ?_, fun same => same query answer here⟩
            obtain ⟨rfl, rfl⟩ := Loop.replying.inj (here.symm.trans replying)
            exact same
      | .receiving => .isTrue (by simp [SameQuestion, here])
      | .looking _ => .isTrue (by simp [SameQuestion, here])
      | .storing _ _ => .isTrue (by simp [SameQuestion, here])
      | .entering _ => .isTrue (by simp [SameQuestion, here])
      | .submitting _ => .isTrue (by simp [SameQuestion, here])
      | .stopped => .isTrue (by simp [SameQuestion, here])
  | .reply false => .isTrue trivial
  | .workerReply _ _ => .isTrue trivial
  | .receive _ _ => .isTrue trivial
  | .receiveFails _ => .isTrue trivial
  | .look _ => .isTrue trivial
  | .store _ => .isTrue trivial
  | .enter => .isTrue trivial
  | .submit => .isTrue trivial
  | .fetch _ _ => .isTrue trivial
  | .workerStore _ _ => .isTrue trivial
  | .remove _ => .isTrue trivial
  | .restart _ => .isTrue trivial

theorem replies_answer_same_type :
    (∀ label ∈ askedTwice 1, label.WellFormed) ∧
      ∀ taken rest world, askedTwice 1 = taken ++ rest →
        run (step asciiPlatform) taken .start = some world → Answered world := by
  have wellFormed := askedTwice_wellFormed 1 (.inl rfl)
  have same : Along (step asciiPlatform) SameQuestion (askedTwice 1) .start := by decide +kernel
  exact ⟨wellFormed, (replies_answer_iff asciiPlatform wellFormed).mpr same⟩

/-- The second query asks for an address of another type. -/
theorem replies_answer_other_type :
    (∀ label ∈ askedTwice 28, label.WellFormed) ∧
      ∃ world, run (step asciiPlatform) (askedTwice 28) .start = some world ∧ ¬Answered world := by
  have shown : (run (step asciiPlatform) (askedTwice 28) .start).any (fun world =>
      world.sent.any fun sent =>
        decide (questionOf sent.payload ≠ questionOf sent.query.udpreq)) = true := by
    decide +kernel
  obtain ⟨world, ran, wrong⟩ := (Option.any_eq_true _ _).mp shown
  refine ⟨askedTwice_wellFormed 28 (.inr rfl), world, ran, fun answered => ?_⟩
  obtain ⟨sent, member, differs⟩ := List.any_eq_true.mp wrong
  exact of_decide_eq_true differs (answered sent member)

end ProxySet.Droid.Dns
