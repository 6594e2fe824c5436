import ProxySet.Redsocks.UdpBound

/-!
The datagrams of each client of `redudp`: those that came for it, those that wait for its
association and those that have been given to `sendmsg`, over every run.
-/

namespace ProxySet.Redudp

open LifeLog StepRun

/-- A datagram that came from a client, and what its client was like then. -/
structure Arrival where
  payload : Bytes
  associated : Bool
  full : Bool

def Arrival.isAdmitted (arrival : Arrival) : Bool :=
  arrival.associated || !arrival.full

/-- All payloads but those that found the queue full before the association. -/
def admitted (arrivals : List Arrival) : List Bytes :=
  (arrivals.filter Arrival.isAdmitted).map Arrival.payload

def Forwarded.payload (forwarded : Forwarded) : Bytes :=
  forwarded.message.drop 10

/-- A world with what came from each client, and the payloads sent for it. -/
structure Traffic where
  world : World
  arrivals : Nat → List Arrival
  sent : Nat → List Bytes

namespace Traffic

def start (config : UdpConfig) : Traffic where
  world := .start config
  arrivals := fun _ => []
  sent := fun _ => []

end Traffic

def UdpClient.arrival (config : UdpConfig) (client : UdpClient) (datagram : Datagram) : Arrival where
  payload := datagram.payload
  associated := client.udprelay.isSome
  full := decide (config.maxPktqueue ≤ client.queueLen)

def World.servedClient (world : World) : Label → Option UdpClient
  | .fromClient datagram calls =>
      if datagram.received world.config then
        match world.clients.find? (·.clientaddr = datagram.source) with
        | some client => some client
        | none =>
            if calls.callocClient then some (newClient world.config world.nextId datagram) else none
      else none
  | label => label.id?.bind world.client?

def Label.arrivals (config : UdpConfig) (client : UdpClient) : Label → List Arrival
  | .fromClient datagram _ => [client.arrival config datagram]
  | _ => []

def Traffic.step (traffic : Traffic) (label : Label) : Option Traffic :=
  (Redudp.step traffic.world label).map fun next =>
    match traffic.world.servedClient label with
    | none => { traffic with world := next }
    | some client =>
        { world := next
          arrivals := Function.update traffic.arrivals client.id
            (traffic.arrivals client.id ++ label.arrivals traffic.world.config client)
          sent := Function.update traffic.sent client.id
            (traffic.sent client.id ++
              (next.forwarded.drop traffic.world.forwarded.length).map Forwarded.payload) }

/-- Memory is allocated and timers and events are added. -/
def Label.Succeeds : Label → Prop
  | .fromClient _ calls =>
      calls.callocClient = true ∧ calls.callocPacket = true ∧ calls.addTimeout = true
  | .relayRead _ _ calls => calls.addEvent = true
  | .fromSocks _ _ _ _ calls => calls.addTimeout = true
  | _ => True

/-- The queue of a client, against what came for it and what has been sent. -/
structure Queued (config : UdpConfig) (client : UdpClient) (arrivals : List Arrival)
    (sent : List Bytes) : Prop where
  count : client.queueLen = client.queue.length
  bounded : client.queueLen ≤ config.maxPktqueue
  flushed : client.udprelay.isSome = true → client.queue = []
  ordered : sent ++ client.queue.map EnqueuedPacket.data = admitted arrivals

/-- What a callback does to the queue of its client, which is `client` before it. -/
structure Verdict.Passes (config : UdpConfig) (verdict : Verdict) (client : UdpClient)
    (more : List Arrival) : Prop where
  kept : verdict.ending = .kept → ∀ arrivals sent, Queued config client arrivals sent →
    Queued config verdict.client (arrivals ++ more)
      (sent ++ verdict.forwarded.map Forwarded.payload)
  gone : verdict.ending ≠ .kept → verdict.forwarded = []

section

variable {config : UdpConfig} {world next : World} {client changed : UdpClient}
  {verdict : Verdict} {label : Label} {arrivals : List Arrival} {sent : List Bytes}

@[simp] theorem admitted_nil : admitted [] = [] := rfl

@[simp] theorem admitted_append (first second : List Arrival) :
    admitted (first ++ second) = admitted first ++ admitted second := by
  simp [admitted]

@[simp] theorem payload_forwardPkt (config : UdpConfig) (client : UdpClient)
    (packet : EnqueuedPacket) : (redudpForwardPkt config client packet).payload = packet.data :=
  List.drop_left' (preamble_length config client)

theorem Queued.congr (queued : Queued config client arrivals sent)
    (queueLen : changed.queueLen = client.queueLen) (queue : changed.queue = client.queue)
    (udprelay : changed.udprelay = client.udprelay) : Queued config changed arrivals sent := by
  obtain ⟨count, bounded, flushed, ordered⟩ := queued
  refine ⟨?_, queueLen ▸ bounded, ?_, ?_⟩
  · rw [queueLen, queue]
    exact count
  · rw [udprelay, queue]
    exact flushed
  · rw [queue]
    exact ordered

theorem Queued.all_sent (queued : Queued config client arrivals sent)
    (associated : client.udprelay.isSome = true) : sent = admitted arrivals := by
  have ordered := queued.ordered
  rw [queued.flushed associated, List.map_nil, List.append_nil] at ordered
  exact ordered

/-! ### Callbacks -/

theorem passes_keep (events : List (LifeLog.Event Nat)) (queueLen : changed.queueLen = client.queueLen)
    (queue : changed.queue = client.queue) (udprelay : changed.udprelay = client.udprelay) :
    (Verdict.keep changed events []).Passes config client [] := by
  refine ⟨fun _ arrivals sent queued => ?_, fun other => absurd rfl other⟩
  simpa [Verdict.keep] using queued.congr queueLen queue udprelay

theorem passes_drop (dropped : UdpClient) (events : List (LifeLog.Event Nat)) (more : List Arrival) :
    (Verdict.drop dropped events).Passes config client more :=
  ⟨fun ending => (by cases ending), fun _ => rfl⟩

theorem passes_lose (dropped : UdpClient) (events : List (LifeLog.Event Nat)) (more : List Arrival) :
    (Verdict.lose dropped events).Passes config client more :=
  ⟨fun ending => (by cases ending), fun _ => rfl⟩

theorem passes_write (message : Bytes) (readcb : Readcb) (calls : RelayCalls) :
    (client.write message readcb calls).Passes config client [] := by
  unfold UdpClient.write
  split
  · exact passes_keep _ rfl rfl rfl
  · exact passes_drop client _ []

theorem passes_relayConnected (connected : Bool) (calls : RelayCalls) :
    (redudpRelayConnected config client connected calls).Passes config client [] := by
  unfold redudpRelayConnected
  split
  · obtain ⟨kept, gone⟩ : Verdict.Passes config (({ client with connecting := false }).write
        (socks5MkmethodsPlain (socks5IsValidCred config.login config.password)) .authMethods calls)
        { client with connecting := false } [] := passes_write _ _ calls
    refine ⟨fun ending arrivals sent queued => ?_, gone⟩
    exact kept ending arrivals sent (queued.congr rfl rfl rfl)
  · exact passes_drop client _ []

theorem passes_readAuthMethods (input : Bytes) (calls : RelayCalls) :
    (redudpReadAuthMethods config client input calls).Passes config client [] := by
  unfold redudpReadAuthMethods
  dsimp only
  split
  · exact passes_drop client _ []
  · split
    · exact passes_drop client _ []
    · split
      · exact passes_write _ _ calls
      · split
        · exact passes_write _ _ calls
        · exact passes_keep _ rfl rfl rfl

theorem passes_readAuthReply (input : Bytes) (calls : RelayCalls) :
    (redudpReadAuthReply client input calls).Passes config client [] := by
  unfold redudpReadAuthReply
  dsimp only
  split
  · exact passes_drop client _ []
  · split
    · exact passes_drop client _ []
    · exact passes_write _ _ calls

/-- The whole queue is sent with the association; a later reply finds it empty. -/
theorem passes_flush (events : List (LifeLog.Event Nat)) (changed : UdpClient) :
    (Verdict.keep { changed with queueLen := 0, queue := [] } events
      (client.queue.map (redudpForwardPkt config changed))).Passes config client [] := by
  refine ⟨fun _ arrivals sent queued => ?_, fun other => absurd rfl other⟩
  refine ⟨rfl, Nat.zero_le _, fun _ => rfl, ?_⟩
  have carried : (client.queue.map (redudpForwardPkt config changed)).map Forwarded.payload =
      client.queue.map EnqueuedPacket.data := by
    rw [List.map_map]
    exact List.map_congr_left fun packet _ => payload_forwardPkt config changed packet
  simp only [Verdict.keep, carried, List.map_nil, List.append_nil]
  exact queued.ordered

theorem passes_readAssocReply (fd : Nat) (input : Bytes) (calls : RelayCalls) :
    (redudpReadAssocReply config fd client input calls).Passes config client [] := by
  unfold redudpReadAssocReply
  dsimp only
  split
  · split
    · split
      · split
        · exact passes_flush _ { client with
            udprelayaddr := replyAddress (input.take 10), udprelay := some fd }
        · exact passes_drop _ _ []
      · exact passes_drop _ _ []
    · exact passes_drop _ _ []
  · exact passes_drop client _ []

theorem passes_readcb (fd : Nat) (input : Bytes) (calls : RelayCalls) (readcb : Readcb) :
    (runReadcb config fd client input calls readcb).Passes config client [] := by
  cases readcb with
  | authMethods => exact passes_readAuthMethods input calls
  | authReply => exact passes_readAuthReply input calls
  | assocReply => exact passes_readAssocReply fd input calls

/-! ### Datagrams -/

theorem Queued.enqeue (queued : Queued config client arrivals sent) (none : client.udprelay = none)
    (datagram : Datagram) :
    Queued config ((redudpEnqeuePkt config client datagram.packet true).getD client)
      (arrivals ++ [client.arrival config datagram]) sent := by
  unfold redudpEnqeuePkt
  by_cases full : config.maxPktqueue ≤ client.queueLen
  · have refused : admitted [client.arrival config datagram] = [] := by
      simp [admitted, UdpClient.arrival, Arrival.isAdmitted, none, full]
    rw [if_pos full, Option.getD_none]
    refine ⟨queued.count, queued.bounded, queued.flushed, ?_⟩
    rw [admitted_append, refused, List.append_nil]
    exact queued.ordered
  · have taken : admitted [client.arrival config datagram] = [datagram.payload] := by
      simp [admitted, UdpClient.arrival, Arrival.isAdmitted, full]
    rw [if_neg full, if_pos rfl, Option.getD_some]
    refine ⟨?_, Nat.lt_of_not_le full, ?_, ?_⟩
    · rw [List.length_append, List.length_singleton, queued.count]
    · intro associated
      rw [none] at associated
      cases associated
    · rw [admitted_append, taken, ← queued.ordered, List.map_append, List.append_assoc]
      rfl

/-- A client with an association has nothing in its queue, so the datagram is the next to go. -/
theorem Queued.forward (queued : Queued config client arrivals sent)
    (associated : client.udprelay.isSome = true) (datagram : Datagram) :
    Queued config client (arrivals ++ [client.arrival config datagram])
      (sent ++ [datagram.payload]) := by
  have taken : admitted [client.arrival config datagram] = [datagram.payload] := by
    simp [admitted, UdpClient.arrival, Arrival.isAdmitted, associated]
  refine ⟨queued.count, queued.bounded, queued.flushed, ?_⟩
  rw [queued.flushed associated, admitted_append, taken, queued.all_sent associated, List.map_nil,
    List.append_nil]

theorem passes_next {datagram : Datagram} {calls : ClientCalls} (succeeds : calls.callocPacket = true) :
    (redudpNextPktFromClient config client datagram calls).Passes config client
      [client.arrival config datagram] := by
  unfold redudpNextPktFromClient
  split
  · split
    · rename_i fd associated
      refine ⟨fun _ arrivals sent queued => ?_, fun other => absurd rfl other⟩
      have forwarded := queued.forward (by rw [associated]; rfl) datagram
      simpa [Verdict.keep, Datagram.packet] using forwarded
    · rename_i none
      refine ⟨fun _ arrivals sent queued => ?_, fun other => absurd rfl other⟩
      rw [succeeds]
      simpa [Verdict.keep] using queued.enqeue none datagram
  · exact passes_lose client _ _

theorem passes_first (id fd : Nat) (datagram : Datagram) (calls : ClientCalls) :
    (redudpFirstPktFromClient config id fd datagram calls).Passes config
      (newClient config id datagram) [(newClient config id datagram).arrival config datagram] := by
  unfold redudpFirstPktFromClient
  dsimp only
  split
  · exact passes_drop _ _ _
  · exact passes_drop _ _ _
  · split
    · split
      · split
        · rename_i entered
          refine ⟨fun _ arrivals sent queued => ?_, fun other => absurd rfl other⟩
          have allocated : calls.callocPacket = true := by
            unfold redudpEnqeuePkt at entered
            split at entered
            · cases entered
            · split at entered
              · assumption
              · cases entered
          rw [allocated] at entered
          have connected : Queued config
              { newClient config id datagram with relay := some fd, connecting := true }
              arrivals sent := queued.congr rfl rfl rfl
          have enqeued := connected.enqeue rfl datagram
          rw [entered] at enqeued
          simpa [Verdict.keep, UdpClient.arrival] using enqeued
        · exact passes_drop _ _ _
      · exact passes_lose _ _ _
    · exact passes_drop _ _ _

end

/-! ### Runs -/

structure Flowing (config : UdpConfig) (traffic : Traffic) : Prop where
  tabled : Tabled traffic.world
  configured : traffic.world.config = config
  queued : ∀ client ∈ traffic.world.clients,
    Queued config client (traffic.arrivals client.id) (traffic.sent client.id)
  unborn : ∀ id, traffic.world.nextId ≤ id → traffic.arrivals id = [] ∧ traffic.sent id = []
  front : ∀ id, traffic.sent id <+: admitted (traffic.arrivals id)

def Traffic.served (traffic : Traffic) (next : World) (client : UdpClient) (more : List Arrival) :
    Traffic where
  world := next
  arrivals := Function.update traffic.arrivals client.id (traffic.arrivals client.id ++ more)
  sent := Function.update traffic.sent client.id
    (traffic.sent client.id ++
      (next.forwarded.drop traffic.world.forwarded.length).map Forwarded.payload)

section

variable {config : UdpConfig} {traffic after : Traffic} {next : World}
  {client changed : UdpClient} {verdict : Verdict} {label : Label} {more : List Arrival}

theorem Traffic.step_some (taken : traffic.step label = some after) :
    ∃ next, Stepped traffic.world label next ∧ after =
      match traffic.world.servedClient label with
      | none => { traffic with world := next }
      | some client => traffic.served next client (label.arrivals traffic.world.config client) := by
  obtain ⟨next, stepped, noted⟩ := Option.map_eq_some_iff.mp taken
  exact ⟨next, (step_stepped stepped).2, noted.symm⟩

/-- A run with its traffic is a run. -/
theorem run_traffic (labels : List Label) (traffic : Traffic) :
    (run Traffic.step labels traffic).map Traffic.world = run step labels traffic.world := by
  induction labels generalizing traffic with
  | nil => rfl
  | cons label labels ih =>
      rw [run_cons, run_cons, Traffic.step]
      cases step traffic.world label with
      | none => rfl
      | some next =>
          rw [Option.map_some, Option.bind_some, Option.bind_some, ih]
          cases traffic.world.servedClient label with
          | none => rfl
          | some client => rfl

theorem Flowing.same (flowing : Flowing config traffic) (tabled : Tabled next)
    (sameConfig : next.config = traffic.world.config) (nextId : traffic.world.nextId ≤ next.nextId)
    (listed : ∀ other ∈ next.clients, other ∈ traffic.world.clients) :
    Flowing config { traffic with world := next } where
  tabled := tabled
  configured := sameConfig.trans flowing.configured
  queued := fun other member => flowing.queued other (listed other member)
  unborn := fun id later => flowing.unborn id (Nat.le_trans nextId later)
  front := flowing.front

theorem served_none (forwarded : next.forwarded = traffic.world.forwarded) :
    traffic.served next client [] = { traffic with world := next } := by
  simp [Traffic.served, forwarded]

theorem flowing_settle (world : World) (flowing : Flowing config traffic)
    (clients : world.clients = traffic.world.clients)
    (forwarded : world.forwarded = traffic.world.forwarded)
    (sameConfig : world.config = traffic.world.config)
    (nextId : traffic.world.nextId ≤ world.nextId) (born : client.id < world.nextId)
    (queued : Queued config client (traffic.arrivals client.id) (traffic.sent client.id))
    (passes : verdict.Passes config client more) (id : verdict.client.id = client.id)
    {kept : List UdpClient} (tabled : Tabled (world.settle verdict kept))
    (listed : ∀ other ∈ kept, other = verdict.client ∨
      other ∈ traffic.world.clients ∧ other.id ≠ client.id) :
    Flowing config (traffic.served (world.settle verdict kept) client more) := by
  have sent : (world.settle verdict kept).forwarded.drop traffic.world.forwarded.length =
      verdict.forwarded := by
    rw [settle_eq, forwarded]
    exact List.drop_left
  refine ⟨tabled, ?_, fun other member => ?_, fun number later => ?_, fun number => ?_⟩
  · simp only [Traffic.served, settle_eq]
    exact sameConfig.trans flowing.configured
  · have cases' : verdict.ending = .kept ∧ other = verdict.client ∨
        other ∈ traffic.world.clients ∧ other.id ≠ client.id := by
      simp only [Traffic.served, settle_eq, Verdict.clients] at member
      split at member
      · rcases listed other member with here | before
        · exact .inl ⟨‹_›, here⟩
        · exact .inr before
      · obtain ⟨before, different⟩ := List.mem_filter.mp member
        refine .inr ⟨clients ▸ before, fun same => ?_⟩
        exact (of_decide_eq_true different) (same.trans id.symm)
    simp only [Traffic.served, sent]
    rcases cases' with ⟨ending, rfl⟩ | ⟨before, different⟩
    · rw [id, Function.update_self, Function.update_self]
      exact passes.kept ending _ _ queued
    · rw [Function.update_of_ne different, Function.update_of_ne different]
      exact flowing.queued other before
  · have later' : world.nextId ≤ number := by
      simpa only [Traffic.served, settle_eq] using later
    have different : number ≠ client.id := by omega
    simp only [Traffic.served]
    rw [Function.update_of_ne different, Function.update_of_ne different]
    exact flowing.unborn number (Nat.le_trans nextId later')
  · simp only [Traffic.served, sent]
    by_cases here : number = client.id
    · subst here
      rw [Function.update_self, Function.update_self]
      by_cases ending : verdict.ending = .kept
      · exact ⟨_, (passes.kept ending _ _ queued).ordered⟩
      · rw [passes.gone ending, List.map_nil, List.append_nil, admitted_append]
        exact (flowing.front client.id).trans (List.prefix_append _ _)
    · rw [Function.update_of_ne here, Function.update_of_ne here]
      exact flowing.front number

theorem flowing_callback (flowing : Flowing config traffic) (listed : client ∈ traffic.world.clients)
    (passes : verdict.Passes config client more) (serves : verdict.Serves client) :
    Flowing config (traffic.served (traffic.world.callback verdict) client more) := by
  refine flowing_settle traffic.world flowing rfl rfl rfl (Nat.le_refl _) (flowing.tabled.fresh client listed)
    (flowing.queued client listed) passes serves.id (tabled_callback flowing.tabled listed serves)
    fun other member => ?_
  rw [← serves.id]
  exact (mem_replaced_iff ⟨client, listed, serves.id.symm⟩).mp member

theorem flowing_pktFromSocks (flowing : Flowing config traffic)
    (listed : client ∈ traffic.world.clients) {source : SockaddrIn} {pkt : Bytes}
    {stale : Nat → UInt8} {calls : SocksCalls}
    (tabled : Tabled next) (stepped : SocksStepped traffic.world client source pkt stale calls next) :
    Flowing config { traffic with world := next } ∧
      next.forwarded = traffic.world.forwarded := by
  cases stepped with
  | ignored =>
      exact ⟨flowing.same tabled rfl (Nat.le_refl _) fun _ member => member, rfl⟩
  | lost =>
      refine ⟨flowing.same tabled ?_ ?_ fun other member => ?_, ?_⟩
      · rw [settle_eq]
      · simp [settle_eq]
      · rw [settle_eq] at member
        exact (List.mem_filter.mp member).1
      · rw [settle_eq]
        exact List.append_nil _
  | unbound got _ _ _ _ got' =>
      have same := sameClients_of_get got'
      refine ⟨flowing.same tabled same.config (Nat.le_of_eq same.nextId.symm) fun other member => ?_,
        same.forwarded⟩
      exact same.clients ▸ member
  | bound got fd changed _ _ _ _ got' made =>
      have same := sameClients_of_get got'
      refine ⟨⟨tabled, same.config.trans flowing.configured, fun other member => ?_,
        fun id later => flowing.unborn id (same.nextId ▸ later), flowing.front⟩, same.forwarded⟩
      rcases (mem_replaced_iff ⟨client, listed, by rw [made]⟩).mp member with rfl | ⟨before, -⟩
      · rw [made]
        exact (flowing.queued client listed).congr rfl rfl rfl
      · exact flowing.queued other before
  | sent =>
      exact ⟨flowing.same tabled rfl (Nat.le_refl _) fun _ member => member, rfl⟩

theorem dropAll_same (clients : List UdpClient) (world : World) :
    (clients.foldl redudpDropClient world).config = world.config ∧
      (clients.foldl redudpDropClient world).nextId = world.nextId ∧
      ∀ other ∈ (clients.foldl redudpDropClient world).clients, other ∈ world.clients := by
  induction clients generalizing world with
  | nil => exact ⟨rfl, rfl, fun _ member => member⟩
  | cons client clients ih =>
      obtain ⟨config, nextId, listed⟩ := ih (redudpDropClient world client)
      have dropped := redudpDropClient_eq world client
      refine ⟨config.trans (by rw [dropped]), nextId.trans (by rw [dropped]), fun other member => ?_⟩
      have left := listed other member
      rw [dropped] at left
      exact (List.mem_filter.mp left).1

theorem flowing_step (flowing : Flowing config traffic) (succeeds : label.Succeeds)
    (taken : traffic.step label = some after) : Flowing config after := by
  obtain ⟨next, stepped, rfl⟩ := Traffic.step_some taken
  have tabled := tabled_step flowing.tabled stepped
  have sameConfig := flowing.configured
  cases stepped with
  | unread datagram calls unread =>
      simp only [World.servedClient, unread]
      exact flowing
  | noMemory datagram calls received unlisted memory =>
      simp only [World.servedClient, received, unlisted, memory]
      exact flowing
  | next client datagram calls received listed found =>
      simp only [World.servedClient, received, found, if_true]
      refine flowing_callback flowing listed ?_ (serves_next _ _ _ _)
      rw [sameConfig]
      exact passes_next succeeds.2.1
  | first datagram calls verdict received unlisted memory made =>
      simp only [World.servedClient, received, unlisted, memory, if_true]
      obtain ⟨id, -⟩ := first_client traffic.world.config traffic.world.nextId traffic.world.nextFd
        datagram calls
      rw [← made] at id
      have passes : verdict.Passes config (newClient traffic.world.config traffic.world.nextId datagram)
          (Label.arrivals traffic.world.config
            (newClient traffic.world.config traffic.world.nextId datagram)
            (.fromClient datagram calls)) := by
        rw [made, sameConfig]
        exact passes_first _ _ datagram calls
      obtain ⟨noArrivals, nothing⟩ := flowing.unborn traffic.world.nextId (Nat.le_refl _)
      have empty : Queued config (newClient traffic.world.config traffic.world.nextId datagram)
          (traffic.arrivals traffic.world.nextId) (traffic.sent traffic.world.nextId) := by
        rw [noArrivals, nothing]
        exact ⟨rfl, Nat.zero_le _, fun _ => rfl, rfl⟩
      refine flowing_settle { traffic.world with nextId := traffic.world.nextId + 1 } flowing rfl rfl rfl
        (Nat.le_succ _) (Nat.lt_succ_self _) empty passes id tabled fun other member => ?_
      rcases List.mem_cons.mp member with here | before
      · exact .inl here
      · exact .inr ⟨before, Nat.ne_of_lt (flowing.tabled.fresh other before)⟩
  | connected client connected calls found waiting =>
      simp only [World.servedClient, Label.id?, Option.bind_some, found]
      refine flowing_callback flowing (mem_of_client? found).1 ?_ (serves_relayConnected _ _ _ _)
      rw [sameConfig]
      exact passes_relayConnected connected calls
  | read client input calls readcb found here =>
      simp only [World.servedClient, Label.id?, Option.bind_some, found]
      refine flowing_callback flowing (mem_of_client? found).1 ?_ (serves_readcb _ _ _ _ _ _)
      rw [sameConfig]
      exact passes_readcb _ input calls readcb
  | failed client found =>
      simp only [World.servedClient, Label.id?, Option.bind_some, found]
      exact flowing_callback flowing (mem_of_client? found).1 (passes_drop client _ _)
        (serves_drop client _)
  | timedOut client found =>
      simp only [World.servedClient, Label.id?, Option.bind_some, found]
      exact flowing_callback flowing (mem_of_client? found).1 (passes_drop client _ _)
        (serves_drop client _)
  | fromSocks client source pkt stale calls found associated =>
      simp only [World.servedClient, Label.id?, Option.bind_some, found]
      obtain ⟨kept, forwarded⟩ := flowing_pktFromSocks flowing (mem_of_client? found).1 tabled
        (pktFromSocks_stepped traffic.world client source pkt stale calls)
      exact (served_none forwarded).symm ▸ kept
  | fini =>
      obtain ⟨config, nextId, listed⟩ := dropAll_same traffic.world.clients traffic.world
      exact flowing.same tabled config (Nat.le_of_eq nextId.symm) listed

end

theorem packets_kept_in_order {config : UdpConfig} {labels : List Label}
    (succeeds : ∀ label ∈ labels, label.Succeeds) {traffic : Traffic}
    (ran : run Traffic.step labels (.start config) = some traffic) :
    (∀ client ∈ traffic.world.clients,
      Queued config client (traffic.arrivals client.id) (traffic.sent client.id) ∧
        (client.udprelay.isSome = true →
          traffic.sent client.id = admitted (traffic.arrivals client.id))) ∧
      ∀ id, traffic.sent id <+: admitted (traffic.arrivals id) := by
  have start : Flowing config (.start config) := by
    refine ⟨tabled_start config, rfl, fun client member => ?_, fun _ _ => ⟨rfl, rfl⟩, fun _ => ?_⟩
    · cases member
    · exact List.prefix_refl []
  have flowing := run_invariant_along (Flowing config)
    (fun _ _ _ flowing succeeds taken => flowing_step flowing succeeds taken) start
    (along_of_forall succeeds (Traffic.start config)) ran
  refine ⟨fun client listed => ?_, flowing.front⟩
  have queued := flowing.queued client listed
  exact ⟨queued, queued.all_sent⟩

instance : DecidablePred Label.Succeeds
  | .fromClient _ calls =>
      inferInstanceAs (Decidable (calls.callocClient = true ∧ calls.callocPacket = true ∧
        calls.addTimeout = true))
  | .relayConnected _ _ _ => .isTrue trivial
  | .relayRead _ _ calls => inferInstanceAs (Decidable (calls.addEvent = true))
  | .relayError _ => .isTrue trivial
  | .timeout _ => .isTrue trivial
  | .fromSocks _ _ _ _ calls => inferInstanceAs (Decidable (calls.addTimeout = true))
  | .finiInstance => .isTrue trivial

/-- One datagram waits for the association with the first, and one comes after it. -/
def waitedFor : List Label :=
  [sentTo ⟨8, 8, 8, 8, 53⟩ [1], sentTo ⟨8, 8, 8, 8, 53⟩ [2], .relayConnected 0 true .succeed,
    .relayRead 0 [5, 0] .succeed, .relayRead 0 [5, 0, 0, 1, 127, 0, 0, 1, 4, 56] .succeed,
    sentTo ⟨8, 8, 8, 8, 53⟩ [3]]

theorem waited_packets_in_order :
    ∃ traffic, run Traffic.step waitedFor (.start tproxyConfig) = some traffic ∧
      traffic.sent 0 = [[1], [2], [3]] ∧
      (∀ client ∈ traffic.world.clients,
        Queued tproxyConfig client (traffic.arrivals client.id) (traffic.sent client.id) ∧
          (client.udprelay.isSome = true →
            traffic.sent client.id = admitted (traffic.arrivals client.id))) ∧
      ∀ id, traffic.sent id <+: admitted (traffic.arrivals id) := by
  have shown : (run Traffic.step waitedFor (.start tproxyConfig)).any
      (fun traffic => decide (traffic.sent 0 = [[1], [2], [3]])) = true := by decide +kernel
  obtain ⟨traffic, ran, sent⟩ := (Option.any_eq_true _ _).mp shown
  exact ⟨traffic, ran, of_decide_eq_true sent, packets_kept_in_order (by decide +kernel) ran⟩

end ProxySet.Redudp
