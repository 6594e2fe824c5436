import ProxySet.Redsocks.UdpCore

/-!
What a step of a `redudp` instance can do, and what it leaves as it was.
-/

namespace ProxySet.Redudp

open LifeLog StepRun

section

variable {world next : World} {client changed : UdpClient} {verdict : Verdict} {label : Label}

/-! ### Frames -/

theorem boundUdp4Put_eq (world : World) (addr : SockaddrIn) :
    boundUdp4Put world addr =
      { world with
        bound := (boundUdp4Put world addr).bound
        putAbsent := (boundUdp4Put world addr).putAbsent
        boundClosed := (boundUdp4Put world addr).boundClosed } := by
  unfold boundUdp4Put
  split
  · rfl
  · split <;> rfl

/-- What `bound_udp4_get` does not write. -/
structure SameClients (got world : World) : Prop where
  config : got.config = world.config
  clients : got.clients = world.clients
  nextId : got.nextId = world.nextId
  phase : got.phase = world.phase
  forwarded : got.forwarded = world.forwarded
  delivered : got.delivered = world.delivered
  history : got.history = world.history
  putAbsent : got.putAbsent = world.putAbsent
  nextFd : world.nextFd ≤ got.nextFd

theorem boundUdp4Get_same (world : World) (addr : SockaddrIn) (binding : Binding) :
    SameClients (boundUdp4Get world addr binding).1 world := by
  unfold boundUdp4Get
  split
  · exact ⟨rfl, rfl, rfl, rfl, rfl, rfl, rfl, rfl, Nat.le_refl _⟩
  · cases binding with
    | noSocket => exact ⟨rfl, rfl, rfl, rfl, rfl, rfl, rfl, rfl, Nat.le_refl _⟩
    | closes => exact ⟨rfl, rfl, rfl, rfl, rfl, rfl, rfl, rfl, Nat.le_succ _⟩
    | binds => exact ⟨rfl, rfl, rfl, rfl, rfl, rfl, rfl, rfl, Nat.le_succ _⟩

theorem sameClients_of_get {got : World} {fd : Option Nat} {addr : SockaddrIn} {binding : Binding}
    (here : boundUdp4Get world addr binding = (got, fd)) : SameClients got world := by
  have same := boundUdp4Get_same world addr binding
  rw [here] at same
  exact same

theorem boundUdp4Get_notes (world : World) (id : Nat) (events : List (LifeLog.Event Nat))
    (addr : SockaddrIn) (binding : Binding) :
    boundUdp4Get (world.notes id events) addr binding =
      ((boundUdp4Get world addr binding).1.notes id events, (boundUdp4Get world addr binding).2) := by
  have same : (world.notes id events).bound = world.bound := rfl
  unfold boundUdp4Get
  rw [same]
  cases world.bound addr with
  | some node => rfl
  | none => cases binding <;> rfl

def World.released (world : World) (client : UdpClient) : World :=
  match client.senderFd with
  | some _ => boundUdp4Put world client.destaddr
  | none => world

def UdpClient.dropEvents (client : UdpClient) : List (LifeLog.Event Nat) :=
  .used :: client.closes.map .closed ++ [LifeLog.Event.dropped]

theorem released_eq (world : World) (client : UdpClient) :
    world.released client =
      { world with
        bound := (world.released client).bound
        putAbsent := (world.released client).putAbsent
        boundClosed := (world.released client).boundClosed } := by
  unfold World.released
  split
  · exact boundUdp4Put_eq world client.destaddr
  · rfl

theorem redudpDropClient_eq (world : World) (client : UdpClient) :
    redudpDropClient world client =
      { world with
        clients := world.clients.filter (·.id ≠ client.id)
        bound := (world.released client).bound
        putAbsent := (world.released client).putAbsent
        boundClosed := (world.released client).boundClosed
        history := Function.update world.history client.id
          (world.history client.id ++ client.dropEvents) } := by
  have same : redudpDropClient world client =
      { (world.released client).notes client.id client.dropEvents with
        clients := world.clients.filter (·.id ≠ client.id) } := rfl
  rw [same, released_eq]
  rfl

def Verdict.allEvents (verdict : Verdict) : List (LifeLog.Event Nat) :=
  match verdict.ending with
  | .kept => verdict.events
  | .dropped => verdict.events ++ verdict.client.dropEvents
  | .lost => verdict.events ++ verdict.client.dropEvents ++ [LifeLog.Event.used]

def Verdict.clients (verdict : Verdict) (before kept : List UdpClient) : List UdpClient :=
  match verdict.ending with
  | .kept => kept
  | _ => before.filter (·.id ≠ verdict.client.id)

def Verdict.release (verdict : Verdict) (world : World) : World :=
  match verdict.ending with
  | .kept => world
  | _ => world.released verdict.client

theorem released_congr {other : World} (bound : other.bound = world.bound)
    (putAbsent : other.putAbsent = world.putAbsent)
    (boundClosed : other.boundClosed = world.boundClosed) (client : UdpClient) :
    (other.released client).bound = (world.released client).bound ∧
      (other.released client).putAbsent = (world.released client).putAbsent ∧
      (other.released client).boundClosed = (world.released client).boundClosed := by
  unfold World.released
  cases client.senderFd with
  | none => exact ⟨bound, putAbsent, boundClosed⟩
  | some fd =>
      simp only [boundUdp4Put, bound]
      cases world.bound client.destaddr with
      | none => exact ⟨rfl, rfl, boundClosed⟩
      | some node =>
          dsimp only
          split
          · exact ⟨rfl, putAbsent, boundClosed⟩
          · exact ⟨rfl, putAbsent, congrArg (· ++ [node.fd]) boundClosed⟩

theorem settle_eq (world : World) (verdict : Verdict) (kept : List UdpClient) :
    world.settle verdict kept =
      { world with
        clients := verdict.clients world.clients kept
        bound := (verdict.release world).bound
        putAbsent := (verdict.release world).putAbsent
        boundClosed := (verdict.release world).boundClosed
        nextFd := world.nextFd + 1
        phase := if verdict.ending = .lost then .undefined else world.phase
        forwarded := world.forwarded ++ verdict.forwarded
        history := Function.update world.history verdict.client.id
          (world.history verdict.client.id ++ verdict.allEvents) } := by
  obtain ⟨client, events, forwarded, ending⟩ := verdict
  cases ending with
  | kept => rfl
  | dropped =>
      obtain ⟨bound, putAbsent, boundClosed⟩ :=
        @released_congr world
          { world.notes client.id events with
            nextFd := world.nextFd + 1
            forwarded := world.forwarded ++ forwarded } rfl rfl rfl client
      simp only [World.settle, redudpDropClient_eq, bound, putAbsent, boundClosed]
      simp [Verdict.clients, Verdict.release, Verdict.allEvents, World.notes]
  | lost =>
      obtain ⟨bound, putAbsent, boundClosed⟩ :=
        @released_congr world
          { world.notes client.id events with
            nextFd := world.nextFd + 1
            forwarded := world.forwarded ++ forwarded } rfl rfl rfl client
      simp only [World.settle, redudpDropClient_eq, bound, putAbsent, boundClosed]
      simp [Verdict.clients, Verdict.release, Verdict.allEvents, World.notes]

theorem mem_replaced_iff {other : UdpClient} (listed : ∃ old ∈ world.clients, old.id = changed.id) :
    other ∈ world.replaced changed ↔
      other = changed ∨ other ∈ world.clients ∧ other.id ≠ changed.id := by
  rw [World.replaced, List.mem_map]
  constructor
  · rintro ⟨before, member, rfl⟩
    split
    · exact .inl rfl
    · exact .inr ⟨member, ‹_›⟩
  · rintro (rfl | ⟨member, different⟩)
    · obtain ⟨old, member, same⟩ := listed
      exact ⟨old, member, if_pos same⟩
    · exact ⟨other, member, if_neg different⟩

theorem mem_of_client? {id : Nat} (found : world.client? id = some client) :
    client ∈ world.clients ∧ client.id = id :=
  ⟨List.mem_of_find?_eq_some found, by simpa using List.find?_some found⟩

/-! ### What a step can do -/

inductive Stepped (world : World) : Label → World → Prop where
  | unread (datagram : Datagram) (calls : ClientCalls) :
      datagram.received world.config = false → Stepped world (.fromClient datagram calls) world
  | next (client : UdpClient) (datagram : Datagram) (calls : ClientCalls) :
      datagram.received world.config = true → client ∈ world.clients →
      world.clients.find? (·.clientaddr = datagram.source) = some client →
      Stepped world (.fromClient datagram calls)
        (world.callback (redudpNextPktFromClient world.config client datagram calls))
  | noMemory (datagram : Datagram) (calls : ClientCalls) :
      datagram.received world.config = true →
      world.clients.find? (·.clientaddr = datagram.source) = none → calls.callocClient = false →
      Stepped world (.fromClient datagram calls) world
  | first (datagram : Datagram) (calls : ClientCalls) (verdict : Verdict) :
      datagram.received world.config = true →
      world.clients.find? (·.clientaddr = datagram.source) = none → calls.callocClient = true →
      verdict = redudpFirstPktFromClient world.config world.nextId world.nextFd datagram calls →
      Stepped world (.fromClient datagram calls)
        ({ world with nextId := world.nextId + 1 }.settle verdict (verdict.client :: world.clients))
  | connected (client : UdpClient) (connected : Bool) (calls : RelayCalls) :
      world.client? client.id = some client → client.connecting = true →
      Stepped world (.relayConnected client.id connected calls)
        (world.callback (redudpRelayConnected world.config client connected calls))
  | read (client : UdpClient) (input : Bytes) (calls : RelayCalls) (readcb : Readcb) :
      world.client? client.id = some client → client.readcb = some readcb →
      Stepped world (.relayRead client.id input calls)
        (world.callback (runReadcb world.config world.nextFd client input calls readcb))
  | failed (client : UdpClient) :
      world.client? client.id = some client →
      Stepped world (.relayError client.id) (world.callback (.drop client [.used]))
  | timedOut (client : UdpClient) :
      world.client? client.id = some client →
      Stepped world (.timeout client.id) (world.callback (.drop client [.used]))
  | fromSocks (client : UdpClient) (source : SockaddrIn) (pkt : Bytes) (stale : Nat → UInt8)
      (calls : SocksCalls) :
      world.client? client.id = some client → client.udprelay.isSome = true →
      Stepped world (.fromSocks client.id source pkt stale calls)
        (redudpPktFromSocks world client source pkt stale calls)
  | fini : Stepped world .finiInstance (redudpFiniInstance world)

inductive SocksStepped (world : World) (client : UdpClient) (source : SockaddrIn) (pkt : Bytes)
    (stale : Nat → UInt8) (calls : SocksCalls) : World → Prop where
  | ignored : ¬(pkt.length < buflen ∧ isExpected world.config client source pkt stale = true) →
      SocksStepped world client source pkt stale calls (world.notes client.id [.used])
  | lost : pkt.length < buflen ∧ isExpected world.config client source pkt stale = true →
      calls.addTimeout = false →
      SocksStepped world client source pkt stale calls (world.settle (.lose client [.used]) [])
  | unbound (got : World) :
      pkt.length < buflen ∧ isExpected world.config client source pkt stale = true →
      calls.addTimeout = true → doTproxy world.config = true → client.senderFd = none →
      boundUdp4Get world client.destaddr calls.binding = (got, none) →
      SocksStepped world client source pkt stale calls (got.notes client.id [.used])
  | bound (got : World) (fd : Nat) (changed : UdpClient) :
      pkt.length < buflen ∧ isExpected world.config client source pkt stale = true →
      calls.addTimeout = true → doTproxy world.config = true → client.senderFd = none →
      boundUdp4Get world client.destaddr calls.binding = (got, some fd) →
      changed = { client with senderFd := some fd } →
      SocksStepped world client source pkt stale calls
        ({ got.notes client.id [.used] with clients := world.replaced changed }.sendBack changed pkt)
  | sent : pkt.length < buflen ∧ isExpected world.config client source pkt stale = true →
      calls.addTimeout = true → ¬(doTproxy world.config = true ∧ client.senderFd = none) →
      SocksStepped world client source pkt stale calls
        ((world.notes client.id [.used]).sendBack client pkt)

theorem pktFromSocks_stepped (world : World) (client : UdpClient) (source : SockaddrIn)
    (pkt : Bytes) (stale : Nat → UInt8) (calls : SocksCalls) :
    SocksStepped world client source pkt stale calls
      (redudpPktFromSocks world client source pkt stale calls) := by
  have same := boundUdp4Get_same world client.destaddr calls.binding
  unfold redudpPktFromSocks
  dsimp only
  split
  · rename_i expected
    split
    · rename_i added
      split
      · rename_i first
        rw [boundUdp4Get_notes]
        cases got : boundUdp4Get world client.destaddr calls.binding with
        | mk table fd =>
            rw [got] at same
            cases fd with
            | none => exact .unbound table expected added first.1 first.2 got
            | some fd =>
                have listed : (table.notes client.id [.used]).replaced
                    { client with senderFd := some fd } =
                      world.replaced { client with senderFd := some fd } := by
                  rw [World.replaced, World.replaced]
                  exact congrArg (List.map _) same.clients
                dsimp only
                rw [listed]
                exact .bound table fd _ expected added first.1 first.2 got rfl
      · exact .sent expected added ‹_›
    · exact .lost expected (by simpa using ‹¬calls.addTimeout = true›)
  · exact .ignored ‹_›

theorem pktFromClient_stepped (datagram : Datagram) (calls : ClientCalls) :
    Stepped world (.fromClient datagram calls) (redudpPktFromClient world datagram calls) := by
  unfold redudpPktFromClient
  split
  · split
    · exact .next _ datagram calls ‹_› (List.mem_of_find?_eq_some ‹_›) ‹_›
    · split
      · exact .first datagram calls _ ‹_› ‹_› ‹_› rfl
      · exact .noMemory datagram calls ‹_› ‹_› (by simpa using ‹¬calls.callocClient = true›)
  · exact .unread datagram calls (by simpa using ‹¬datagram.received world.config = true›)

theorem clientStep_stepped {id : Nat} (numbered : label.id? = some id)
    (found : world.client? id = some client)
    (taken : clientStep world client label = some next) : Stepped world label next := by
  obtain rfl := (mem_of_client? found).2
  unfold clientStep at taken
  split at taken
  · obtain rfl := Option.some.inj numbered
    split at taken
    · exact Option.some.inj taken ▸ .connected client _ _ found ‹_›
    · cases taken
  · obtain rfl := Option.some.inj numbered
    obtain ⟨readcb, here, rfl⟩ := Option.map_eq_some_iff.mp taken
    exact .read client _ _ readcb found here
  · obtain rfl := Option.some.inj numbered
    exact Option.some.inj taken ▸ .failed client found
  · obtain rfl := Option.some.inj numbered
    exact Option.some.inj taken ▸ .timedOut client found
  · obtain rfl := Option.some.inj numbered
    split at taken
    · exact Option.some.inj taken ▸ .fromSocks client _ _ _ _ found ‹_›
    · cases taken
  · cases taken

theorem step_stepped (taken : step world label = some next) :
    world.phase = .running ∧ Stepped world label next := by
  unfold step at taken
  split at taken
  · refine ⟨‹_›, ?_⟩
    split at taken
    · exact Option.some.inj taken ▸ pktFromClient_stepped _ _
    · exact Option.some.inj taken ▸ .fini
    · obtain ⟨client, found, here⟩ := Option.bind_eq_some_iff.mp taken
      obtain ⟨id, numbered, listed⟩ := Option.bind_eq_some_iff.mp found
      exact clientStep_stepped numbered listed here
  · cases taken

/-! ### What a callback leaves of its client -/

/-- The fields that no callback of a listed client writes. -/
structure Verdict.Serves (verdict : Verdict) (client : UdpClient) : Prop where
  id : verdict.client.id = client.id
  destaddr : verdict.client.destaddr = client.destaddr
  senderFd : verdict.client.senderFd = client.senderFd
  relay : verdict.client.relay = client.relay

theorem serves_drop (client : UdpClient) (events : List (LifeLog.Event Nat)) :
    (Verdict.drop client events).Serves client :=
  ⟨rfl, rfl, rfl, rfl⟩

theorem serves_write (client : UdpClient) (message : Bytes) (readcb : Readcb) (calls : RelayCalls) :
    (client.write message readcb calls).Serves client := by
  unfold UdpClient.write
  split
  · exact ⟨rfl, rfl, rfl, rfl⟩
  · exact serves_drop client _

theorem serves_relayConnected (config : UdpConfig) (client : UdpClient) (connected : Bool)
    (calls : RelayCalls) : (redudpRelayConnected config client connected calls).Serves client := by
  unfold redudpRelayConnected
  split
  · obtain ⟨id, destaddr, senderFd, relay⟩ := serves_write { client with connecting := false }
      (socks5MkmethodsPlain (socks5IsValidCred config.login config.password)) .authMethods calls
    exact ⟨id, destaddr, senderFd, relay⟩
  · exact serves_drop client _

theorem serves_readcb (config : UdpConfig) (fd : Nat) (client : UdpClient) (input : Bytes)
    (calls : RelayCalls) (readcb : Readcb) :
    (runReadcb config fd client input calls readcb).Serves client := by
  cases readcb with
  | authMethods =>
      simp only [runReadcb, redudpReadAuthMethods]
      split
      · exact serves_drop client _
      · split
        · exact serves_drop client _
        · split
          · exact serves_write client _ _ calls
          · split
            · exact serves_write client _ _ calls
            · exact ⟨rfl, rfl, rfl, rfl⟩
  | authReply =>
      simp only [runReadcb, redudpReadAuthReply]
      split
      · exact serves_drop client _
      · split
        · exact serves_drop client _
        · exact serves_write client _ _ calls
  | assocReply =>
      simp only [runReadcb, redudpReadAssocReply]
      repeat' split
      all_goals exact ⟨rfl, rfl, rfl, rfl⟩

theorem enqeuePkt_some {config : UdpConfig} {packet : EnqueuedPacket} {calloc : Bool}
    (queued : redudpEnqeuePkt config client packet calloc = some changed) :
    changed = { client with queueLen := client.queueLen + 1, queue := client.queue ++ [packet] } := by
  unfold redudpEnqeuePkt at queued
  split at queued
  · cases queued
  · split at queued
    · exact (Option.some.inj queued).symm
    · cases queued

theorem serves_next (config : UdpConfig) (client : UdpClient) (datagram : Datagram)
    (calls : ClientCalls) : (redudpNextPktFromClient config client datagram calls).Serves client := by
  unfold redudpNextPktFromClient
  split
  · split
    · exact ⟨rfl, rfl, rfl, rfl⟩
    · cases queued : redudpEnqeuePkt config client datagram.packet calls.callocPacket with
      | none => exact ⟨rfl, rfl, rfl, rfl⟩
      | some changed =>
          rw [enqeuePkt_some queued]
          exact ⟨rfl, rfl, rfl, rfl⟩
  · exact ⟨rfl, rfl, rfl, rfl⟩

theorem first_client (config : UdpConfig) (id fd : Nat) (datagram : Datagram) (calls : ClientCalls) :
    (redudpFirstPktFromClient config id fd datagram calls).client.id = id ∧
      (redudpFirstPktFromClient config id fd datagram calls).client.senderFd = none := by
  unfold redudpFirstPktFromClient
  dsimp only
  split
  · exact ⟨rfl, rfl⟩
  · exact ⟨rfl, rfl⟩
  · split
    · split
      · split
        · rename_i queued
          rw [enqeuePkt_some queued]
          exact ⟨rfl, rfl⟩
        · exact ⟨rfl, rfl⟩
      · exact ⟨rfl, rfl⟩
    · exact ⟨rfl, rfl⟩

end

end ProxySet.Redudp
