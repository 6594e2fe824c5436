import ProxySet.Redsocks.UdpSteps

/-!
The headers of the datagrams that `redudp` exchanges with the relay: where those of the clients
are sent, and which of the relay's reach a client.
-/

namespace ProxySet.Redudp

open LifeLog StepRun

/-! ### Destinations -/

/-- The header names the destination that the datagram had. -/
def Forwarded.OwnDestination (forwarded : Forwarded) : Prop :=
  ∃ destaddr, forwarded.origin = some destaddr ∧
    forwarded.message.take 10 = [0, 0, 0, 1] ++ destaddr.addrBytes ++ destaddr.portBytes

/-- A source that has a client sends to the destination of that client. -/
def SameDestination (world : World) : Label → Prop
  | .fromClient datagram _ => ∀ client ∈ world.clients, client.clientaddr = datagram.source →
      datagram.destaddr = some client.destaddr
  | _ => True

/-- What waits for the association has the destination that is kept for all of it. -/
def UdpClient.QueuedOwn (client : UdpClient) : Prop :=
  ∀ packet ∈ client.queue, packet.origin = some client.destaddr

structure Routed (world : World) : Prop where
  tproxy : doTproxy world.config = true
  queued : ∀ client ∈ world.clients, client.QueuedOwn
  forwarded : ∀ forwarded ∈ world.forwarded, forwarded.OwnDestination

structure Verdict.Own (verdict : Verdict) : Prop where
  queued : verdict.ending = .kept → verdict.client.QueuedOwn
  forwarded : ∀ forwarded ∈ verdict.forwarded, forwarded.OwnDestination

section

variable {config : UdpConfig} {world next : World} {client : UdpClient} {verdict : Verdict}
  {label : Label}

theorem preamble_length (config : UdpConfig) (client : UdpClient) :
    (redudpFillPreamble config client).length = 10 := rfl

theorem forwardPkt_own (tproxy : doTproxy config = true) {packet : EnqueuedPacket}
    (origin : packet.origin = some client.destaddr) :
    (redudpForwardPkt config client packet).OwnDestination := by
  refine ⟨client.destaddr, origin, ?_⟩
  have header : (redudpFillPreamble config client ++ packet.data).take 10 =
      redudpFillPreamble config client := List.take_left' (preamble_length config client)
  rw [redudpForwardPkt, header, redudpFillPreamble, getDestaddr, if_pos tproxy]

theorem own_drop (client : UdpClient) (events : List (LifeLog.Event Nat)) :
    (Verdict.drop client events).Own :=
  ⟨fun ending => (by cases ending), fun _ member => by cases member⟩

theorem own_lose (client : UdpClient) (events : List (LifeLog.Event Nat)) :
    (Verdict.lose client events).Own :=
  ⟨fun ending => (by cases ending), fun _ member => by cases member⟩

theorem own_write (queued : client.QueuedOwn) (message : Bytes) (readcb : Readcb)
    (calls : RelayCalls) : (client.write message readcb calls).Own := by
  unfold UdpClient.write
  split
  · exact ⟨fun _ => queued, fun _ member => by cases member⟩
  · exact own_drop client _

theorem own_relayConnected (queued : client.QueuedOwn) (connected : Bool) (calls : RelayCalls) :
    (redudpRelayConnected config client connected calls).Own := by
  unfold redudpRelayConnected
  split
  · have same : UdpClient.QueuedOwn { client with connecting := false } := queued
    exact own_write same _ _ calls
  · exact own_drop client _

theorem own_readcb (tproxy : doTproxy config = true) (queued : client.QueuedOwn) (fd : Nat)
    (input : Bytes) (calls : RelayCalls) (readcb : Readcb) :
    (runReadcb config fd client input calls readcb).Own := by
  cases readcb with
  | authMethods =>
      simp only [runReadcb, redudpReadAuthMethods]
      split
      · exact own_drop client _
      · split
        · exact own_drop client _
        · split
          · exact own_write queued _ _ calls
          · split
            · exact own_write queued _ _ calls
            · exact ⟨fun _ => queued, fun _ member => by cases member⟩
  | authReply =>
      simp only [runReadcb, redudpReadAuthReply]
      split
      · exact own_drop client _
      · split
        · exact own_drop client _
        · exact own_write queued _ _ calls
  | assocReply =>
      simp only [runReadcb, redudpReadAssocReply]
      split
      · split
        · split
          · split
            · refine ⟨fun _ packet member => (by cases member), fun forwarded member => ?_⟩
              obtain ⟨packet, waiting, rfl⟩ := List.mem_map.mp member
              exact forwardPkt_own tproxy (queued packet waiting)
            · exact own_drop _ _
          · exact own_drop _ _
        · exact own_drop _ _
      · exact own_drop client _

theorem enqeuePkt_own {packet : EnqueuedPacket} {calloc : Bool} {changed : UdpClient}
    (queued : client.QueuedOwn) (origin : packet.origin = some client.destaddr)
    (added : redudpEnqeuePkt config client packet calloc = some changed) : changed.QueuedOwn := by
  rw [enqeuePkt_some added]
  intro other member
  rcases List.mem_append.mp member with before | now
  · exact queued other before
  · rw [List.mem_singleton.mp now]
    exact origin

theorem own_next (tproxy : doTproxy config = true) (queued : client.QueuedOwn) {datagram : Datagram}
    (origin : datagram.destaddr = some client.destaddr) (calls : ClientCalls) :
    (redudpNextPktFromClient config client datagram calls).Own := by
  unfold redudpNextPktFromClient
  split
  · split
    · refine ⟨fun _ => queued, fun forwarded member => ?_⟩
      rw [List.mem_singleton.mp member]
      exact forwardPkt_own tproxy origin
    · refine ⟨fun _ => ?_, fun _ member => by cases member⟩
      cases added : redudpEnqeuePkt config client datagram.packet calls.callocPacket with
      | none => exact queued
      | some changed => exact enqeuePkt_own queued origin added
  · exact own_lose client _

theorem own_first (tproxy : doTproxy config = true) {datagram : Datagram}
    (received : datagram.received config = true) (id fd : Nat) (calls : ClientCalls) :
    (redudpFirstPktFromClient config id fd datagram calls).Own := by
  have known : datagram.destaddr.isSome = true := by
    simp only [Datagram.received, tproxy, Bool.not_true, Bool.false_or, Bool.and_eq_true] at received
    exact received.1
  obtain ⟨destaddr, origin⟩ := Option.isSome_iff_exists.mp known
  unfold redudpFirstPktFromClient
  dsimp only
  split
  · exact own_drop _ _
  · exact own_drop _ _
  · split
    · split
      · split
        · rename_i added
          refine ⟨fun _ => ?_, fun _ member => by cases member⟩
          refine enqeuePkt_own (fun packet member => by cases member) ?_ added
          simp [Datagram.packet, newClient, tproxy, origin]
        · exact own_drop _ _
      · exact own_lose _ _
    · exact own_drop _ _

theorem routed_settle (routed : Routed world) (own : verdict.Own) {kept : List UdpClient}
    (listed : ∀ client ∈ kept, client = verdict.client ∨ client ∈ world.clients) :
    Routed (world.settle verdict kept) := by
  rw [settle_eq]
  refine ⟨routed.tproxy, fun client member => ?_, fun forwarded member => ?_⟩
  · cases ending : verdict.ending with
    | kept =>
        simp only [Verdict.clients, ending] at member
        rcases listed client member with rfl | before
        · exact own.queued ending
        · exact routed.queued client before
    | dropped | lost =>
        simp only [Verdict.clients, ending] at member
        exact routed.queued client (List.mem_filter.mp member).1
  · rcases List.mem_append.mp member with before | now
    · exact routed.forwarded forwarded before
    · exact own.forwarded forwarded now

theorem routed_callback (routed : Routed world) (own : verdict.Own)
    (listed : ∃ old ∈ world.clients, old.id = verdict.client.id) : Routed (world.callback verdict) := by
  refine routed_settle routed own fun client member => ?_
  rcases (mem_replaced_iff listed).mp member with rfl | ⟨before, -⟩
  · exact .inl rfl
  · exact .inr before

theorem routed_drop (routed : Routed world) (client : UdpClient) :
    Routed (redudpDropClient world client) := by
  rw [redudpDropClient_eq]
  refine ⟨routed.tproxy, fun other member => ?_, routed.forwarded⟩
  exact routed.queued other (List.mem_filter.mp member).1

theorem routed_pktFromSocks (routed : Routed world) (listed : client ∈ world.clients)
    {source : SockaddrIn} {pkt : Bytes} {stale : Nat → UInt8} {calls : SocksCalls}
    (stepped : SocksStepped world client source pkt stale calls next) : Routed next := by
  cases stepped with
  | ignored => exact ⟨routed.tproxy, routed.queued, routed.forwarded⟩
  | lost => exact routed_settle routed (own_lose client _) fun other member => by cases member
  | unbound got _ _ _ _ got' =>
      have same := sameClients_of_get got'
      refine ⟨same.config ▸ routed.tproxy, ?_, ?_⟩
      · exact same.clients ▸ routed.queued
      · exact same.forwarded ▸ routed.forwarded
  | bound got fd changed _ _ _ _ got' made =>
      have same := sameClients_of_get got'
      refine ⟨same.config ▸ routed.tproxy, fun other member => ?_, same.forwarded ▸ routed.forwarded⟩
      rcases (mem_replaced_iff ⟨client, listed, by rw [made]⟩).mp member with rfl | ⟨before, -⟩
      · rw [made]
        exact routed.queued client listed
      · exact routed.queued other before
  | sent => exact ⟨routed.tproxy, routed.queued, routed.forwarded⟩

theorem routed_fini (routed : Routed world) : Routed (redudpFiniInstance world) := by
  have dropped (clients : List UdpClient) {world : World} (routed : Routed world) :
      Routed (clients.foldl redudpDropClient world) := by
    induction clients generalizing world with
    | nil => exact routed
    | cons client clients ih => exact ih (routed_drop routed client)
  obtain ⟨tproxy, queued, forwarded⟩ := dropped world.clients routed
  exact ⟨tproxy, queued, forwarded⟩

theorem routed_step (routed : Routed world) (same : SameDestination world label)
    (stepped : Stepped world label next) : Routed next := by
  cases stepped with
  | unread => exact routed
  | noMemory => exact routed
  | next client datagram calls received listed found =>
      have source : client.clientaddr = datagram.source := by simpa using List.find?_some found
      have own := own_next routed.tproxy (routed.queued client listed) (same client listed source) calls
      exact routed_callback routed own ⟨client, listed, (serves_next _ _ _ _).id.symm⟩
  | first datagram calls verdict received found allocated made =>
      have counted : Routed { world with nextId := world.nextId + 1 } :=
        ⟨routed.tproxy, routed.queued, routed.forwarded⟩
      refine routed_settle counted ?_ fun client member => List.mem_cons.mp member
      rw [made]
      exact own_first routed.tproxy received _ _ calls
  | connected client connected calls found waiting =>
      have listed := (mem_of_client? found).1
      exact routed_callback routed (own_relayConnected (routed.queued client listed) connected calls)
        ⟨client, listed, (serves_relayConnected _ _ _ _).id.symm⟩
  | read client input calls readcb found here =>
      have listed := (mem_of_client? found).1
      exact routed_callback routed
        (own_readcb routed.tproxy (routed.queued client listed) _ input calls readcb)
        ⟨client, listed, (serves_readcb _ _ _ _ _ _).id.symm⟩
  | failed client found =>
      exact routed_callback routed (own_drop client _) ⟨client, (mem_of_client? found).1, rfl⟩
  | timedOut client found =>
      exact routed_callback routed (own_drop client _) ⟨client, (mem_of_client? found).1, rfl⟩
  | fromSocks client source pkt stale calls found associated =>
      exact routed_pktFromSocks routed (mem_of_client? found).1
        (pktFromSocks_stepped world client source pkt stale calls)
  | fini => exact routed_fini routed

end

theorem forwarded_to_own_destination {config : UdpConfig} (tproxy : doTproxy config = true)
    {labels : List Label} (same : Along step SameDestination labels (.start config)) {world : World}
    (ran : run step labels (.start config) = some world) :
    ∀ forwarded ∈ world.forwarded, forwarded.OwnDestination := by
  have start : Routed (.start config) :=
    ⟨tproxy, (fun client member => by cases member), fun forwarded member => by cases member⟩
  refine (run_invariant_along Routed ?_ start same ran).forwarded
  intro world label next routed allowed taken
  exact routed_step routed allowed (step_stepped taken).2

instance (world : World) : DecidablePred (SameDestination world)
  | .fromClient _ _ => inferInstanceAs (Decidable (∀ client ∈ world.clients, _))
  | .relayConnected _ _ _ => .isTrue trivial
  | .relayRead _ _ _ => .isTrue trivial
  | .relayError _ => .isTrue trivial
  | .timeout _ => .isTrue trivial
  | .fromSocks _ _ _ _ _ => .isTrue trivial
  | .finiInstance => .isTrue trivial

def tproxyConfig : UdpConfig where
  destaddr := ⟨0, 0, 0, 0, 0⟩
  login := none
  password := none
  maxPktqueue := 5

def ClientCalls.succeed : ClientCalls := ⟨true, .connects, true, true, true⟩

def RelayCalls.succeed : RelayCalls := ⟨true, true, true, true⟩

def SocksCalls.succeed : SocksCalls := ⟨true, .binds⟩

def sentTo (destaddr : SockaddrIn) (payload : Bytes) : Label :=
  .fromClient ⟨⟨10, 0, 0, 2, 4000⟩, some destaddr, payload⟩ .succeed

def associated : List Label :=
  [sentTo ⟨8, 8, 8, 8, 53⟩ [1], .relayConnected 0 true .succeed, .relayRead 0 [5, 0] .succeed,
    .relayRead 0 [5, 0, 0, 1, 127, 0, 0, 1, 4, 56] .succeed]

theorem forwarded_to_one_server :
    ∃ world, run step (associated ++ [sentTo ⟨8, 8, 8, 8, 53⟩ [2]]) (.start tproxyConfig) = some world ∧
      world.forwarded.length = 2 ∧ ∀ forwarded ∈ world.forwarded, forwarded.OwnDestination := by
  have shown : (run step (associated ++ [sentTo ⟨8, 8, 8, 8, 53⟩ [2]]) (.start tproxyConfig)).any
      (fun world => decide (world.forwarded.length = 2)) = true := by decide +kernel
  obtain ⟨world, ran, two⟩ := (Option.any_eq_true _ _).mp shown
  have same : Along step SameDestination (associated ++ [sentTo ⟨8, 8, 8, 8, 53⟩ [2]])
      (.start tproxyConfig) := by decide +kernel
  exact ⟨world, ran, of_decide_eq_true two, forwarded_to_own_destination (by decide) same ran⟩

/-- The same socket sends to another server. -/
theorem second_server_gets_nothing :
    doTproxy tproxyConfig = true ∧
      ∃ world, run step (associated ++ [sentTo ⟨9, 9, 9, 9, 53⟩ [2]]) (.start tproxyConfig) =
          some world ∧
        ∃ forwarded ∈ world.forwarded, ¬forwarded.OwnDestination := by
  have shown : (run step (associated ++ [sentTo ⟨9, 9, 9, 9, 53⟩ [2]]) (.start tproxyConfig)).any
      (fun world => decide
        (⟨[0, 0, 0, 1, 8, 8, 8, 8, 0, 53, 2], some ⟨9, 9, 9, 9, 53⟩⟩ ∈ world.forwarded)) = true := by
    decide +kernel
  obtain ⟨world, ran, member⟩ := (Option.any_eq_true _ _).mp shown
  refine ⟨by decide, world, ran, _, of_decide_eq_true member, ?_⟩
  rintro ⟨destaddr, origin, header⟩
  obtain rfl := Option.some.inj origin
  revert header
  decide

/-! ### Payloads -/

/-- The datagram of the relay that the header describes: whole, not fragmented and from the
destination of the client. -/
structure FromDestination (config : UdpConfig) (client : UdpClient) (source : SockaddrIn)
    (pkt : Bytes) : Prop where
  source : source = client.udprelayaddr
  long : 10 ≤ pkt.length
  fragment : pkt[2]? = some 0
  addrtype : pkt[3]? = some 1
  addr : (pkt.drop 4).take 4 = (getDestaddr config client).addrBytes
  port : (pkt.drop 8).take 2 = (getDestaddr config client).portBytes

/-- The payload of such a datagram is sent to the client, and nothing of any other. -/
def Decapsulated (world : World) (client : UdpClient) (source : SockaddrIn) (pkt : Bytes)
    (stale : Nat → UInt8) : Prop :=
  ∀ next, next = redudpPktFromSocks world client source pkt stale .succeed →
    (next.delivered ≠ world.delivered ↔ FromDestination world.config client source pkt) ∧
    ∀ sent, next.delivered = world.delivered ++ [sent] →
      sent.destination = client.clientaddr ∧ sent.data = pkt.drop 10 ∧
        0 ≤ sent.fwdlen ∧ sent.fwdlen = sent.data.length

section

variable {config : UdpConfig} {client : UdpClient} {source : SockaddrIn} {pkt : Bytes}
  {stale : Nat → UInt8}

theorem bufferBytes_of_le {first count : Nat} (long : first + count ≤ pkt.length) :
    bufferBytes pkt stale first count = (pkt.drop first).take count := by
  refine List.ext_getElem (by simp [bufferBytes]; omega) fun index left right => ?_
  have bound : index < count := by simpa [bufferBytes] using left
  have inside : first + index < pkt.length := by omega
  simp [bufferBytes, bufferByte, inside]

theorem isExpected_iff (long : 10 ≤ pkt.length) :
    isExpected config client source pkt stale = true ↔ FromDestination config client source pkt := by
  have byte (index : Nat) (value : UInt8) (bound : index < 10) :
      bufferByte pkt stale index = value ↔ pkt[index]? = some value := by
    have inside : index < pkt.length := by omega
    simp [bufferByte, inside]
  simp only [isExpected, Bool.and_eq_true, beq_iff_eq, byte 2 0 (by omega), byte 3 1 (by omega),
    bufferBytes_of_le (by omega : 8 + 2 ≤ pkt.length),
    bufferBytes_of_le (by omega : 4 + 4 ≤ pkt.length)]
  constructor
  · rintro ⟨⟨⟨⟨source, fragment⟩, addrtype⟩, port⟩, addr⟩
    exact ⟨source, long, fragment, addrtype, addr, port⟩
  · intro from'
    exact ⟨⟨⟨⟨from'.source, from'.fragment⟩, from'.addrtype⟩, from'.port⟩, from'.addr⟩

theorem boundUdp4Get_binds (world : World) (addr : SockaddrIn) :
    (boundUdp4Get world addr .binds).2 ≠ none := by
  unfold boundUdp4Get
  split <;> simp

theorem delivered_pktFromSocks (world : World) (short : pkt.length < buflen) :
    (isExpected world.config client source pkt stale = false →
      (redudpPktFromSocks world client source pkt stale .succeed).delivered = world.delivered) ∧
    (isExpected world.config client source pkt stale = true →
      ∃ fd, (redudpPktFromSocks world client source pkt stale .succeed).delivered =
        world.delivered ++ [⟨fd, client.clientaddr, pkt.length - 10, pkt.drop 10⟩]) := by
  have stepped := pktFromSocks_stepped world client source pkt stale .succeed
  generalize redudpPktFromSocks world client source pkt stale .succeed = next at stepped ⊢
  cases stepped with
  | ignored unexpected =>
      refine ⟨fun _ => rfl, fun expected => ?_⟩
      exact absurd ⟨short, expected⟩ unexpected
  | lost expected added => cases added
  | unbound got expected added tproxy first none =>
      exact absurd (congrArg Prod.snd none) (boundUdp4Get_binds world client.destaddr)
  | bound got fd changed expected added tproxy first some made =>
      refine ⟨fun unexpected => ?_, fun _ => ?_⟩
      · rw [expected.2] at unexpected
        cases unexpected
      · have same := sameClients_of_get some
        exact ⟨_, by rw [made]; exact congrArg (· ++ _) same.delivered⟩
  | sent expected added held =>
      refine ⟨fun unexpected => ?_, fun _ => ⟨_, rfl⟩⟩
      rw [expected.2] at unexpected
      cases unexpected

/-- A datagram without a whole header is decapsulated well exactly when what was in the buffer
does not make up for it. -/
theorem decapsulated_iff_expected (world : World) (short : pkt.length < buflen) :
    Decapsulated world client source pkt stale ↔
      (10 ≤ pkt.length ∨ isExpected world.config client source pkt stale = false) := by
  obtain ⟨ignored, sent⟩ :=
    @delivered_pktFromSocks client source pkt stale world short
  constructor
  · intro decapsulated
    by_contra neither
    obtain ⟨headless, expected⟩ := not_or.mp neither
    obtain ⟨fd, delivered⟩ := sent (by simpa using expected)
    have described := (decapsulated _ rfl).1.mp (by rw [delivered]; simp)
    exact headless described.long
  · rintro condition next rfl
    cases expected : isExpected world.config client source pkt stale with
    | false =>
        rw [ignored expected]
        refine ⟨iff_of_false (fun changed => changed rfl) fun described => ?_, ?_⟩
        · rw [(isExpected_iff described.long).mpr described] at expected
          cases expected
        · intro sent same
          simp at same
    | true =>
        have long : 10 ≤ pkt.length := by simpa [expected] using condition
        obtain ⟨fd, delivered⟩ := sent expected
        rw [delivered]
        refine ⟨iff_of_true (by simp) ((isExpected_iff long).mp expected), fun other same => ?_⟩
        obtain rfl := List.singleton_inj.mp (List.append_cancel_left same)
        refine ⟨rfl, rfl, ?_, ?_⟩
        · dsimp only
          omega
        · simp only [List.length_drop]
          omega

/-- What `redudp_forward_pkt` has built is what a reply of the destination looks like. -/
theorem fromDestination_forwardPkt (config : UdpConfig) (client : UdpClient)
    (packet : EnqueuedPacket) :
    FromDestination config client client.udprelayaddr
      (redudpForwardPkt config client packet).message where
  source := rfl
  long := by
    rw [redudpForwardPkt, List.length_append, preamble_length]
    omega
  fragment := rfl
  addrtype := rfl
  addr := rfl
  port := rfl

theorem forwarded_comes_back (world : World) (client : UdpClient) (packet : EnqueuedPacket)
    (short : (redudpForwardPkt world.config client packet).message.length < buflen) :
    ∃ fd, (redudpPktFromSocks world client client.udprelayaddr
        (redudpForwardPkt world.config client packet).message stale .succeed).delivered =
      world.delivered ++ [⟨fd, client.clientaddr, packet.data.length, packet.data⟩] := by
  have described := fromDestination_forwardPkt world.config client packet
  obtain ⟨-, sent⟩ := @delivered_pktFromSocks client client.udprelayaddr _ stale world short
  obtain ⟨fd, delivered⟩ := sent ((isExpected_iff described.long).mpr described)
  refine ⟨fd, delivered.trans ?_⟩
  have length : ((redudpForwardPkt world.config client packet).message.length : Int) - 10 =
      packet.data.length := by
    rw [redudpForwardPkt, List.length_append, preamble_length]
    omega
  have payload : (redudpForwardPkt world.config client packet).message.drop 10 = packet.data :=
    List.drop_left' (preamble_length world.config client)
  rw [length, payload]

end

theorem decapsulated_iff (world : World) (client : UdpClient) (stale : Nat → UInt8) :
    (∀ source pkt, pkt.length < buflen →
      (Decapsulated world client source pkt stale ↔
        (10 ≤ pkt.length ∨ isExpected world.config client source pkt stale = false))) ∧
    ∀ packet : EnqueuedPacket,
      (redudpForwardPkt world.config client packet).message.length < buflen →
      ∃ fd, (redudpPktFromSocks world client client.udprelayaddr
          (redudpForwardPkt world.config client packet).message stale .succeed).delivered =
        world.delivered ++ [⟨fd, client.clientaddr, packet.data.length, packet.data⟩] :=
  ⟨fun _ _ short => decapsulated_iff_expected world short,
    fun packet short => forwarded_comes_back world client packet short⟩

/-- The header of a datagram that has come before and still stands in the buffer. -/
def staleHeader (index : Nat) : UInt8 :=
  [0, 0, 0, 1, 8, 8, 8, 8, 0, 53].getD index 0

theorem whole_reply_decapsulated :
    ∃ world client, run step associated (.start tproxyConfig) = some world ∧
      client ∈ world.clients ∧ Decapsulated world client ⟨127, 0, 0, 1, 1080⟩
        [0, 0, 0, 1, 8, 8, 8, 8, 0, 53, 7] staleHeader := by
  have shown : (run step associated (.start tproxyConfig)).any
      (fun world => decide (world.clients ≠ [])) = true := by decide +kernel
  obtain ⟨world, ran, some⟩ := (Option.any_eq_true _ _).mp shown
  obtain ⟨client, listed⟩ := List.exists_mem_of_ne_nil _ (of_decide_eq_true some)
  refine ⟨world, client, ran, listed, ?_⟩
  exact ((decapsulated_iff world client staleHeader).1 _ _ (by decide)).mpr (.inl (by decide))

theorem empty_datagram_passed_on :
    ∃ world client, run step associated (.start tproxyConfig) = some world ∧
      client ∈ world.clients ∧ ¬Decapsulated world client ⟨127, 0, 0, 1, 1080⟩ [] staleHeader := by
  have shown : (run step associated (.start tproxyConfig)).any (fun world =>
      world.clients.any fun client => decide
        ((redudpPktFromSocks world client ⟨127, 0, 0, 1, 1080⟩ [] staleHeader .succeed).delivered.map
          (·.fwdlen) = [-10] ∧ world.delivered = [])) = true := by decide +kernel
  obtain ⟨world, ran, some⟩ := (Option.any_eq_true _ _).mp shown
  obtain ⟨client, listed, facts⟩ := List.any_eq_true.mp some
  obtain ⟨negative, nothing⟩ := of_decide_eq_true facts
  refine ⟨world, client, ran, listed, fun decapsulated => ?_⟩
  obtain ⟨sent, one, length⟩ := List.map_eq_singleton_iff.mp negative
  have described := ((decapsulated _ rfl).2 sent (by rw [one, nothing]; rfl)).2.2.1
  rw [length] at described
  exact absurd described (by decide)

end ProxySet.Redudp
