import ProxySet.Redsocks.UdpBound

/-!
The lives of the clients of `redudp` and of the descriptors that are opened for them, over
every run and with any calls that fail.
-/

namespace ProxySet.Redudp

open LifeLog StepRun

/-- No client is used after its end or ends twice, what was opened for it is closed once by
then, and it never has two sockets for its association. -/
def Orderly (world : World) : Prop :=
  ∀ id, Lawful (world.history id)

/-- The timeout of a client can be set, the association is answered once, and the event of its
socket can be added. -/
def Unfailing (world : World) (label : Label) : Prop :=
  world.phase = .running →
    match label with
    | .fromClient datagram calls =>
        datagram.received world.config = true →
          if (world.clients.find? (·.clientaddr = datagram.source)).isSome then
            calls.addTimeout = true
          else
            calls.callocClient = true → calls.connectRelay = .connects → calls.time = true →
              calls.addTimeout = true
    | .relayRead id input calls =>
        ∀ client, world.client? id = some client → client.readcb = some .assocReply →
          isAssocReply (input.take 10) = true → calls.socket = true →
            client.udprelay = none ∧ (calls.connect = true → calls.addEvent = true)
    | .fromSocks id source pkt stale calls =>
        ∀ client, world.client? id = some client → client.udprelay.isSome = true →
          pkt.length < buflen ∧ isExpected world.config client source pkt stale = true →
            calls.addTimeout = true
    | _ => True

/-! ### One client -/

def UdpClient.held (client : UdpClient) : List (Nat × Bool) :=
  client.relay.toList.map (·, false) ++ client.udprelay.toList.map (·, true)

/-- The events so far have left what the client knows of. -/
structure Fit (log : List (LifeLog.Event Nat)) (fd : Nat) (client : UdpClient) : Prop where
  holds : Holds log client.held
  distinct : client.closes.Nodup
  numbered : ∀ other ∈ client.closes, other < fd

/-- A verdict is lawful exactly when the condition is met, and then it keeps the client fit. -/
structure Verdict.Outcome (verdict : Verdict) (log : List (LifeLog.Event Nat)) (fd : Nat)
    (fine : Prop) : Prop where
  lawful : Continues log verdict.allEvents ↔ fine
  fit : fine → verdict.ending = .kept → Fit (log ++ verdict.events) (fd + 1) verdict.client

section

variable {log : List (LifeLog.Event Nat)} {fd : Nat} {client changed : UdpClient} {config : UdpConfig}

theorem closes_eq_held (client : UdpClient) : client.closes = client.held.map (·.1) := by
  simp [UdpClient.closes, UdpClient.held, Function.comp_def]

theorem Fit.use (fit : Fit log fd client) : Fit (log ++ [LifeLog.Event.used]) (fd + 1) client :=
  ⟨fit.holds.use, fit.distinct, fun other member => Nat.lt_succ_of_lt (fit.numbered other member)⟩

theorem Fit.same (fit : Fit log fd client) (relay : changed.relay = client.relay)
    (udprelay : changed.udprelay = client.udprelay) : Fit log fd changed := by
  have held : changed.held = client.held := by
    rw [UdpClient.held, UdpClient.held, relay, udprelay]
  have closes : changed.closes = client.closes := by
    rw [closes_eq_held, closes_eq_held, held]
  refine ⟨held ▸ fit.holds, closes ▸ fit.distinct, closes ▸ fit.numbered⟩

theorem Fit.continues_drop (fit : Fit log fd client) : Continues log client.dropEvents := by
  refine ⟨fit.holds.use_permitted, fit.holds.use.continues_close fit.distinct ?_⟩
  intro entry member
  rw [closes_eq_held]
  exact List.mem_map_of_mem member

theorem outcome_keep (fit : Fit log fd client) (relay : changed.relay = client.relay)
    (udprelay : changed.udprelay = client.udprelay) (forwarded : List Forwarded) :
    (Verdict.keep changed [.used] forwarded).Outcome log fd True where
  lawful := iff_of_true ⟨fit.holds.use_permitted, trivial⟩ trivial
  fit := fun _ _ => fit.use.same relay udprelay

theorem outcome_drop (fit : Fit log fd client) (relay : changed.relay = client.relay)
    (udprelay : changed.udprelay = client.udprelay) :
    (Verdict.drop changed [.used]).Outcome log fd True where
  lawful := by
    refine iff_of_true (continues_append.mpr ⟨⟨fit.holds.use_permitted, trivial⟩, ?_⟩) trivial
    exact (fit.use.same relay udprelay).continues_drop
  fit := fun _ kept => by cases kept

theorem outcome_lose (client : UdpClient) (events : List (LifeLog.Event Nat)) :
    (Verdict.lose client events).Outcome log fd False where
  lawful := by
    refine iff_of_false (fun continues => ?_) id
    have ends := (continues_append.mp continues).2
    refine not_continues_of_dropped ?_ (by simp) ends
    simp [UdpClient.dropEvents, Verdict.lose]
  fit := fun impossible => impossible.elim

theorem outcome_write (fit : Fit log fd client) (message : Bytes) (readcb : Readcb)
    (calls : RelayCalls) : (client.write message readcb calls).Outcome log fd True := by
  unfold UdpClient.write
  split
  · exact outcome_keep fit (by rfl) (by rfl) []
  · exact outcome_drop fit (by rfl) (by rfl)

theorem outcome_relayConnected (fit : Fit log fd client) (connected : Bool) (calls : RelayCalls) :
    (redudpRelayConnected config client connected calls).Outcome log fd True := by
  unfold redudpRelayConnected
  split
  · have same : Fit log fd { client with connecting := false } := fit.same rfl rfl
    exact outcome_write same _ _ calls
  · exact outcome_drop fit (by rfl) (by rfl)

theorem outcome_readAuthMethods (fit : Fit log fd client) (input : Bytes) (calls : RelayCalls) :
    (redudpReadAuthMethods config client input calls).Outcome log fd True := by
  unfold redudpReadAuthMethods
  dsimp only
  split
  · exact outcome_drop fit (by rfl) (by rfl)
  · split
    · exact outcome_drop fit (by rfl) (by rfl)
    · split
      · exact outcome_write fit _ _ calls
      · split
        · exact outcome_write fit _ _ calls
        · exact outcome_keep fit (by rfl) (by rfl) []

theorem outcome_readAuthReply (fit : Fit log fd client) (input : Bytes) (calls : RelayCalls) :
    (redudpReadAuthReply client input calls).Outcome log fd True := by
  unfold redudpReadAuthReply
  dsimp only
  split
  · exact outcome_drop fit (by rfl) (by rfl)
  · split
    · exact outcome_drop fit (by rfl) (by rfl)
    · exact outcome_write fit _ _ calls

/-! ### The socket of the association -/

theorem Fit.opens_iff (fit : Fit log fd client) :
    Permitted (log ++ [LifeLog.Event.used]) (.opened fd true) ↔ client.udprelay = none := by
  rw [fit.holds.use.open_permitted_iff]
  cases here : client.udprelay with
  | none => simp [UdpClient.held, here]
  | some other => simp [UdpClient.held, here]

theorem Fit.opened (fit : Fit log fd client) (none : client.udprelay = none)
    (relay : changed.relay = client.relay) (udprelay : changed.udprelay = some fd) :
    Fit (log ++ [LifeLog.Event.used, .opened fd true]) (fd + 1) changed := by
  have closes : changed.closes = client.closes ++ [fd] := by
    simp [UdpClient.closes, relay, udprelay, none]
  have split : log ++ [LifeLog.Event.used, .opened fd true] =
      log ++ [LifeLog.Event.used] ++ [LifeLog.Event.opened fd true] := by simp
  have opened := fit.holds.use.open fd true
  refine ⟨⟨split ▸ opened.alive, fun handle single => ?_, split ▸ opened.unclosed⟩, ?_, ?_⟩
  · rw [split, opened.opens]
    simp [UdpClient.held, relay, udprelay, none, or_comm]
  · rw [closes, List.nodup_append]
    refine ⟨fit.distinct, List.nodup_singleton _, fun handle member other single equal => ?_⟩
    rw [List.mem_singleton] at single
    exact Nat.ne_of_lt (fit.numbered handle member) (equal.trans single)
  · intro handle member
    rw [closes, List.mem_append, List.mem_singleton] at member
    rcases member with before | rfl
    · exact Nat.lt_succ_of_lt (fit.numbered handle before)
    · exact Nat.lt_succ_self _

theorem Fit.continues_drop_closed (fit : Fit log fd client) (single : Bool) :
    Continues (log ++ [LifeLog.Event.used, .opened fd single, .closed fd]) client.dropEvents := by
  have alive : .dropped ∉ log := fit.holds.alive
  refine ⟨⟨by simp [alive], trivial⟩, (continues_close_iff (by simp [alive])).mpr ?_⟩
  refine ⟨fit.distinct, fun handle member => ?_, fun handle kind opened => ?_⟩
  · have different : handle ≠ fd := Nat.ne_of_lt (fit.numbered handle member)
    simp [fit.holds.unclosed, different]
  · simp only [List.mem_append, List.mem_cons, List.not_mem_nil, or_false, reduceCtorEq, false_or,
      LifeLog.Event.opened.injEq, LifeLog.Event.closed.injEq, fit.holds.opens] at opened ⊢
    rcases opened with before | ⟨now, -⟩
    · refine .inr ?_
      rw [closes_eq_held]
      exact List.mem_map_of_mem before
    · exact .inl (.inr now)

theorem outcome_reopened (fit : Fit log fd client) (relay : changed.relay = client.relay)
    (udprelay : changed.udprelay = client.udprelay) :
    (Verdict.drop changed [.used, .opened fd true, .closed fd]).Outcome log fd
      (client.udprelay = none) where
  lawful := by
    refine Iff.trans continues_append ⟨fun both => ?_, fun none => ⟨?_, ?_⟩⟩
    · exact fit.opens_iff.mp both.1.2.1
    · refine ⟨fit.holds.use_permitted, fit.opens_iff.mpr none, ⟨?_, ?_⟩, trivial⟩
      · simp [fit.holds.alive]
      · simp [fit.holds.unclosed]
    · exact (fit.same relay udprelay).continues_drop_closed true
  fit := fun _ kept => by cases kept

/-- The socket is closed twice if its event cannot be added. -/
theorem outcome_unadded (udprelay : changed.udprelay = some fd) :
    (Verdict.drop changed [.used, .opened fd true, .closed fd]).Outcome log fd False where
  lawful := by
    refine iff_of_false (fun continues => ?_) id
    obtain ⟨first, second⟩ := continues_append.mp continues
    have alive : .dropped ∉
        log ++ [LifeLog.Event.used, .opened fd true, .closed fd] ++ [LifeLog.Event.used] := by
      simpa using first.1.1
    obtain ⟨-, fresh, -⟩ := (continues_close_iff alive).mp second.2
    refine fresh fd ?_ (by simp)
    simp [UdpClient.closes, Verdict.drop, udprelay]
  fit := fun impossible => impossible.elim

theorem outcome_opened (fit : Fit log fd client) (relay : changed.relay = client.relay)
    (udprelay : changed.udprelay = some fd) (forwarded : List Forwarded) :
    (Verdict.keep changed [.used, .opened fd true] forwarded).Outcome log fd
      (client.udprelay = none) where
  lawful := by
    refine ⟨fun continues => fit.opens_iff.mp continues.2.1, fun none => ?_⟩
    exact ⟨fit.holds.use_permitted, fit.opens_iff.mpr none, trivial⟩
  fit := fun none _ => fit.opened none relay udprelay

theorem Verdict.Outcome.congr {verdict : Verdict} {fine other : Prop}
    (outcome : verdict.Outcome log fd fine) (same : fine ↔ other) : verdict.Outcome log fd other :=
  ⟨outcome.lawful.trans same, fun met => outcome.fit (same.mpr met)⟩

theorem outcome_readAssocReply (fit : Fit log fd client) (input : Bytes) (calls : RelayCalls) :
    (redudpReadAssocReply config fd client input calls).Outcome log fd
      (isAssocReply (input.take 10) = true → calls.socket = true →
        client.udprelay = none ∧ (calls.connect = true → calls.addEvent = true)) := by
  unfold redudpReadAssocReply
  dsimp only
  split
  · rename_i good
    split
    · rename_i opened
      split
      · rename_i connected
        split
        · rename_i added
          exact (outcome_opened fit (by rfl) (by rfl) _).congr
            (by simp [good, opened, connected, added])
        · rename_i unadded
          exact (outcome_unadded (by rfl)).congr (by simp [good, opened, connected, unadded])
      · rename_i refused
        exact (outcome_reopened fit (by rfl) (by rfl)).congr (by simp [good, opened, refused])
    · rename_i unopened
      exact (outcome_drop fit (by rfl) (by rfl)).congr (by simp [unopened])
  · rename_i bad
    exact (outcome_drop fit (by rfl) (by rfl)).congr (by simp [bad])

theorem outcome_readcb (fit : Fit log fd client) (input : Bytes) (calls : RelayCalls)
    (readcb : Readcb) :
    (runReadcb config fd client input calls readcb).Outcome log fd
      (readcb = .assocReply → isAssocReply (input.take 10) = true → calls.socket = true →
        client.udprelay = none ∧ (calls.connect = true → calls.addEvent = true)) := by
  cases readcb with
  | authMethods => exact (outcome_readAuthMethods fit input calls).congr (by simp)
  | authReply => exact (outcome_readAuthReply fit input calls).congr (by simp)
  | assocReply => exact (outcome_readAssocReply fit input calls).congr (by simp)

/-! ### Datagrams of a client -/

theorem outcome_next (fit : Fit log fd client) (datagram : Datagram) (calls : ClientCalls) :
    (redudpNextPktFromClient config client datagram calls).Outcome log fd
      (calls.addTimeout = true) := by
  unfold redudpNextPktFromClient
  split
  · rename_i added
    split
    · exact (outcome_keep fit (by rfl) (by rfl) _).congr (by simp [added])
    · cases queued : redudpEnqeuePkt config client datagram.packet calls.callocPacket with
      | none => exact (outcome_keep fit (by rfl) (by rfl) _).congr (by simp [added])
      | some changed =>
          have made := enqeuePkt_some queued
          refine (outcome_keep fit ?_ ?_ _).congr (by simp [added])
          · rw [made]
            rfl
          · rw [made]
            rfl
  · rename_i failed
    exact (outcome_lose client _).congr (by simp [failed])

theorem fit_connected (fd : Nat) (relay : client.relay = some fd) (udprelay : client.udprelay = none) :
    Fit [.used, .opened fd false] (fd + 1) client := by
  refine ⟨⟨by simp, fun handle single => ?_, by simp⟩, ?_, ?_⟩
  · simp [UdpClient.held, relay, udprelay]
  · simp [UdpClient.closes, relay, udprelay]
  · simp [UdpClient.closes, relay, udprelay]

theorem continues_connected (fd : Nat) : Continues [] [LifeLog.Event.used, .opened fd false] :=
  ⟨⟨by simp, trivial⟩, ⟨by simp, trivial⟩, trivial⟩

theorem outcome_first (id : Nat) (datagram : Datagram) (calls : ClientCalls) :
    (redudpFirstPktFromClient config id fd datagram calls).Outcome [] fd
      (calls.connectRelay = .connects → calls.time = true → calls.addTimeout = true) := by
  have bare : Fit [] fd (newClient config id datagram) :=
    ⟨holds_nil, List.nodup_nil, fun other member => by cases member⟩
  unfold redudpFirstPktFromClient
  dsimp only
  split
  · rename_i refused
    exact (outcome_drop bare (by rfl) (by rfl)).congr (by simp [refused])
  · rename_i closed
    refine ⟨iff_of_true (continues_append.mpr ⟨?_, bare.continues_drop_closed false⟩) ?_, ?_⟩
    · exact ⟨⟨by simp, trivial⟩, ⟨by simp, trivial⟩, ⟨by simp, by simp⟩, trivial⟩
    · simp [closed]
    · exact fun _ kept => by cases kept
  · rename_i connects
    have fit (changed : UdpClient) (relay : changed.relay = some fd)
        (udprelay : changed.udprelay = none) :
        Continues [] ([.used, .opened fd false] ++ changed.dropEvents) :=
      continues_append.mpr ⟨continues_connected fd, (fit_connected fd relay udprelay).continues_drop⟩
    split
    · rename_i timed
      split
      · rename_i added
        split
        · rename_i changed queued
          have made := enqeuePkt_some queued
          refine ⟨iff_of_true (continues_connected fd) (by simp [added]), fun _ _ => ?_⟩
          exact fit_connected fd (congrArg UdpClient.relay made) (congrArg UdpClient.udprelay made)
        · exact ⟨iff_of_true (fit _ rfl rfl) (by simp [added]), fun _ kept => by cases kept⟩
      · rename_i failed
        exact (outcome_lose _ _).congr (by simp [connects, timed, failed])
    · rename_i untimed
      exact ⟨iff_of_true (fit _ rfl rfl) (by simp [untimed]), fun _ kept => by cases kept⟩

end

/-! ### All clients -/

structure Living (world : World) : Prop where
  tabled : Tabled world
  unborn : ∀ id, world.nextId ≤ id → world.history id = []
  living : ∀ client ∈ world.clients, Fit (world.history client.id) world.nextFd client

/-- A step is orderly exactly when the condition is met, and then it keeps the clients living. -/
def Turns (next : World) (fine : Prop) : Prop :=
  (Orderly next ↔ fine) ∧ (fine → Living next)

section

variable {world next : World} {client : UdpClient} {verdict : Verdict} {fine : Prop} {label : Label}

theorem Turns.congr {other : Prop} (turns : Turns next fine) (same : fine ↔ other) :
    Turns next other :=
  ⟨turns.1.trans same, fun met => turns.2 (same.mpr met)⟩

theorem Fit.later {log : List (LifeLog.Event Nat)} {fd later : Nat} (fit : Fit log fd client)
    (le : fd ≤ later) : Fit log later client :=
  ⟨fit.holds, fit.distinct, fun other member => Nat.lt_of_lt_of_le (fit.numbered other member) le⟩

theorem orderly_update_iff (orderly : Orderly world) {id : Nat} {events : List (LifeLog.Event Nat)}
    (history : next.history = Function.update world.history id (world.history id ++ events)) :
    Orderly next ↔ Continues (world.history id) events := by
  constructor
  · intro lawful
    have here := lawful id
    rw [history, Function.update_self, lawful_append] at here
    exact here.2
  · intro continues other
    rw [history]
    by_cases same : other = id
    · subst same
      rw [Function.update_self, lawful_append]
      exact ⟨orderly other, continues⟩
    · rw [Function.update_of_ne same]
      exact orderly other

theorem living_update (living : Living world) (tabled : Tabled next) {id : Nat}
    {events : List (LifeLog.Event Nat)}
    (history : next.history = Function.update world.history id (world.history id ++ events))
    (born : id < next.nextId) (nextId : world.nextId ≤ next.nextId)
    (nextFd : world.nextFd ≤ next.nextFd)
    (others : ∀ client ∈ next.clients, client.id ≠ id → client ∈ world.clients)
    (own : ∀ client ∈ next.clients, client.id = id →
      Fit (world.history id ++ events) next.nextFd client) : Living next where
  tabled := tabled
  unborn := by
    intro other unborn
    have different : other ≠ id := by omega
    rw [history, Function.update_of_ne different]
    exact living.unborn other (by omega)
  living := by
    intro client member
    rw [history]
    by_cases same : client.id = id
    · rw [same, Function.update_self]
      exact own client member same
    · rw [Function.update_of_ne same]
      exact (living.living client (others client member same)).later nextFd

theorem turns_callback (living : Living world) (orderly : Orderly world)
    (listed : client ∈ world.clients) (serves : verdict.Serves client)
    (outcome : verdict.Outcome (world.history client.id) world.nextFd fine) :
    Turns (world.callback verdict) fine := by
  have tabled := tabled_callback living.tabled listed serves
  rw [World.callback, settle_eq, serves.id] at tabled ⊢
  refine ⟨(orderly_update_iff orderly rfl).trans outcome.lawful, fun met => ?_⟩
  refine living_update living tabled rfl (living.tabled.fresh client listed) (Nat.le_refl _)
    (Nat.le_succ _) ?_ ?_
  · intro other member different
    cases ending : verdict.ending with
    | kept =>
        simp only [Verdict.clients, ending] at member
        rcases (mem_replaced_iff ⟨client, listed, serves.id.symm⟩).mp member with rfl | ⟨before, -⟩
        · exact absurd serves.id different
        · exact before
    | dropped | lost =>
        simp only [Verdict.clients, ending] at member
        exact (List.mem_filter.mp member).1
  · intro other member same
    cases ending : verdict.ending with
    | kept =>
        simp only [Verdict.clients, ending] at member
        rcases (mem_replaced_iff ⟨client, listed, serves.id.symm⟩).mp member with rfl | ⟨-, different⟩
        · simp only [Verdict.allEvents, ending]
          exact outcome.fit met ending
        · exact absurd (same.trans serves.id.symm) different
    | dropped | lost =>
        simp only [Verdict.clients, ending, serves.id] at member
        exact absurd same (by simpa using (List.mem_filter.mp member).2)

theorem turns_first (living : Living world) (orderly : Orderly world)
    (id : verdict.client.id = world.nextId) (none : verdict.client.senderFd = none)
    (outcome : verdict.Outcome [] world.nextFd fine) :
    Turns ({ world with nextId := world.nextId + 1 }.settle verdict
      (verdict.client :: world.clients)) fine := by
  have tabled := tabled_first living.tabled id none
  have empty := living.unborn world.nextId (Nat.le_refl _)
  have lawful := outcome.lawful
  have fit := outcome.fit
  rw [settle_eq, id] at tabled ⊢
  rw [← empty] at lawful fit
  refine ⟨(orderly_update_iff orderly rfl).trans lawful, fun met => ?_⟩
  refine living_update living tabled rfl (Nat.lt_succ_self _) (Nat.le_succ _) (Nat.le_succ _) ?_ ?_
  · intro other member different
    cases ending : verdict.ending with
    | kept =>
        simp only [Verdict.clients, ending] at member
        rcases List.mem_cons.mp member with rfl | before
        · exact absurd id different
        · exact before
    | dropped | lost =>
        simp only [Verdict.clients, ending] at member
        exact (List.mem_filter.mp member).1
  · intro other member same
    have unlisted (before : other ∈ world.clients) : False :=
      Nat.ne_of_lt (living.tabled.fresh other before) same
    cases ending : verdict.ending with
    | kept =>
        simp only [Verdict.clients, ending] at member
        rcases List.mem_cons.mp member with rfl | before
        · simp only [Verdict.allEvents, ending]
          exact fit met ending
        · exact (unlisted before).elim
    | dropped | lost =>
        simp only [Verdict.clients, ending] at member
        exact (unlisted (List.mem_filter.mp member).1).elim

theorem turns_used (living : Living world) (orderly : Orderly world) (listed : client ∈ world.clients)
    (tabled : Tabled next)
    (history : next.history =
      Function.update world.history client.id (world.history client.id ++ [LifeLog.Event.used]))
    (nextId : world.nextId = next.nextId) (nextFd : world.nextFd ≤ next.nextFd)
    (others : ∀ other ∈ next.clients, other.id ≠ client.id → other ∈ world.clients)
    (own : ∀ other ∈ next.clients, other.id = client.id →
      other.relay = client.relay ∧ other.udprelay = client.udprelay) : Turns next True := by
  have fit := living.living client listed
  refine ⟨(orderly_update_iff orderly history).trans (iff_of_true ?_ trivial), fun _ => ?_⟩
  · exact ⟨fit.holds.use_permitted, trivial⟩
  · refine living_update living tabled history (nextId ▸ living.tabled.fresh client listed)
      (Nat.le_of_eq nextId) nextFd others fun other member same => ?_
    obtain ⟨relay, udprelay⟩ := own other member same
    have used : Fit (world.history client.id ++ [LifeLog.Event.used]) world.nextFd client :=
      ⟨fit.holds.use, fit.distinct, fit.numbered⟩
    exact (used.later nextFd).same relay udprelay

theorem eq_of_id (tabled : Tabled world) {other : UdpClient} (listed : client ∈ world.clients)
    (member : other ∈ world.clients) (same : other.id = client.id) : other = client :=
  List.inj_on_of_nodup_map tabled.ids member listed same

theorem turns_pktFromSocks (living : Living world) (orderly : Orderly world)
    (listed : client ∈ world.clients) {source : SockaddrIn} {pkt : Bytes} {stale : Nat → UInt8}
    {calls : SocksCalls} (stepped : SocksStepped world client source pkt stale calls next) :
    Turns next (pkt.length < buflen ∧ isExpected world.config client source pkt stale = true →
      calls.addTimeout = true) := by
  have tabled := tabled_pktFromSocks living.tabled listed stepped
  have itself (other : UdpClient) (member : other ∈ world.clients) (same : other.id = client.id) :
      other.relay = client.relay ∧ other.udprelay = client.udprelay := by
    rw [eq_of_id living.tabled listed member same]
    exact ⟨rfl, rfl⟩
  cases stepped with
  | ignored unexpected =>
      refine (turns_used living orderly listed tabled rfl rfl (Nat.le_refl _)
        (fun other member _ => member) itself).congr ?_
      exact iff_of_true trivial fun expected => absurd expected unexpected
  | lost expected failed =>
      have serves : (Verdict.lose client [.used]).Serves client := ⟨rfl, rfl, rfl, rfl⟩
      refine (turns_callback living orderly listed serves (outcome_lose client [.used])).congr ?_
      refine iff_of_false id fun added => ?_
      rw [failed] at added
      cases added expected
  | unbound got expected added tproxy none here =>
      have same := sameClients_of_get here
      have history : (got.notes client.id [.used]).history =
          Function.update world.history client.id
            (world.history client.id ++ [LifeLog.Event.used]) := by
        simp only [World.notes, same.history]
      refine (turns_used living orderly listed tabled history same.nextId.symm same.nextFd
        (fun other member _ => same.clients ▸ member)
        fun other member => itself other (same.clients ▸ member)).congr ?_
      exact iff_of_true trivial fun _ => added
  | bound got fd changed expected added tproxy none here made =>
      have same := sameClients_of_get here
      have id : changed.id = client.id := by rw [made]
      have known : ∃ old ∈ world.clients, old.id = changed.id := ⟨client, listed, id.symm⟩
      have history : ({ got.notes client.id [.used] with
          clients := world.replaced changed }.sendBack changed pkt).history =
          Function.update world.history client.id
            (world.history client.id ++ [LifeLog.Event.used]) := by
        simp only [World.sendBack, World.notes, same.history]
      refine (turns_used living orderly listed tabled history same.nextId.symm same.nextFd
        (fun other member different => ?_) fun other member equal => ?_).congr
          (iff_of_true trivial fun _ => added)
      · rcases (mem_replaced_iff known).mp member with rfl | ⟨before, -⟩
        · exact absurd id different
        · exact before
      · rcases (mem_replaced_iff known).mp member with rfl | ⟨-, different⟩
        · rw [made]
          exact ⟨rfl, rfl⟩
        · exact absurd (equal.trans id.symm) different
  | sent expected added held =>
      refine (turns_used living orderly listed tabled rfl rfl (Nat.le_refl _)
        (fun other member _ => member) itself).congr ?_
      exact iff_of_true trivial fun _ => added

theorem turns_dropClient (living : Living world) (orderly : Orderly world)
    (listed : client ∈ world.clients) : Turns (redudpDropClient world client) True := by
  have tabled := tabled_dropClient living.tabled listed
  rw [redudpDropClient_eq] at tabled ⊢
  have fit := living.living client listed
  refine ⟨(orderly_update_iff orderly rfl).trans (iff_of_true fit.continues_drop trivial),
    fun _ => ?_⟩
  refine living_update living tabled rfl (living.tabled.fresh client listed) (Nat.le_refl _)
    (Nat.le_refl _) ?_ ?_
  · exact fun other member _ => (List.mem_filter.mp member).1
  · intro other member same
    exact absurd same (by simpa using (List.mem_filter.mp member).2)

theorem turns_dropAll {clients : List UdpClient} (ids : (clients.map (·.id)).Nodup) :
    ∀ {world : World}, Living world → Orderly world → (∀ client ∈ clients, client ∈ world.clients) →
      Turns (clients.foldl redudpDropClient world) True := by
  induction clients with
  | nil => exact fun living orderly _ => ⟨iff_of_true orderly trivial, fun _ => living⟩
  | cons client clients ih =>
      intro world living orderly listed
      rw [List.map_cons, List.nodup_cons] at ids
      have turns := turns_dropClient living orderly (listed client (by simp))
      refine ih ids.2 (turns.2 trivial) (turns.1.mpr trivial) fun other member => ?_
      rw [redudpDropClient_eq]
      refine List.mem_filter.mpr ⟨listed other (by simp [member]), decide_eq_true fun same => ids.1 ?_⟩
      exact same ▸ List.mem_map_of_mem member

theorem turns_step (living : Living world) (orderly : Orderly world)
    (running : world.phase = .running) (stepped : Stepped world label next) :
    Turns next (Unfailing world label) := by
  have unchanged (met : Unfailing world label) : Turns world (Unfailing world label) :=
    ⟨iff_of_true orderly met, fun _ => living⟩
  cases stepped with
  | unread datagram calls unread =>
      refine unchanged fun _ received => ?_
      rw [unread] at received
      cases received
  | noMemory datagram calls received found failed =>
      refine unchanged fun _ _ => ?_
      simp [found, failed]
  | next client datagram calls received listed found =>
      refine (turns_callback living orderly listed (serves_next _ _ _ _)
        (outcome_next (living.living client listed) datagram calls)).congr ?_
      simp [Unfailing, running, received, found]
  | first datagram calls verdict received found allocated made =>
      obtain ⟨id, none⟩ := first_client world.config world.nextId world.nextFd datagram calls
      rw [made]
      refine (turns_first living orderly id none (outcome_first world.nextId datagram calls)).congr ?_
      simp [Unfailing, running, received, found, allocated]
  | connected client connected calls found waiting =>
      have listed := (mem_of_client? found).1
      refine (turns_callback living orderly listed (serves_relayConnected _ _ _ _)
        (outcome_relayConnected (living.living client listed) connected calls)).congr ?_
      exact iff_of_true trivial fun _ => trivial
  | read client input calls readcb found here =>
      have listed := (mem_of_client? found).1
      refine (turns_callback living orderly listed (serves_readcb _ _ _ _ _ _)
        (outcome_readcb (living.living client listed) input calls readcb)).congr ?_
      simp [Unfailing, running, found, here]
  | failed client found =>
      have listed := (mem_of_client? found).1
      refine (turns_callback living orderly listed (serves_drop client _)
        (outcome_drop (living.living client listed) rfl rfl)).congr ?_
      exact iff_of_true trivial fun _ => trivial
  | timedOut client found =>
      have listed := (mem_of_client? found).1
      refine (turns_callback living orderly listed (serves_drop client _)
        (outcome_drop (living.living client listed) rfl rfl)).congr ?_
      exact iff_of_true trivial fun _ => trivial
  | fromSocks client source pkt stale calls found associated =>
      refine (turns_pktFromSocks living orderly (mem_of_client? found).1
        (pktFromSocks_stepped world client source pkt stale calls)).congr ?_
      simp [Unfailing, running, found, associated]
  | fini =>
      obtain ⟨same, alive⟩ := turns_dropAll living.tabled.ids living orderly fun _ member => member
      have tabled := tabled_step living.tabled (@Stepped.fini world)
      refine ⟨same.trans (iff_of_true trivial fun _ => trivial), fun _ => ?_⟩
      exact ⟨tabled, (alive trivial).unborn, (alive trivial).living⟩

theorem unfailing_blocked (blocked : step world label = none) : Unfailing world label := by
  intro running
  cases label with
  | fromClient datagram calls => simp [step, running] at blocked
  | relayRead id input calls =>
      intro client found here
      simp [step, running, Label.id?, found, clientStep, here] at blocked
  | fromSocks id source pkt stale calls =>
      intro client found associated
      simp [step, running, Label.id?, found, clientStep, associated] at blocked
  | relayConnected | relayError | timeout | finiInstance => trivial

end

theorem lives_orderly_iff (config : UdpConfig) (labels : List Label) :
    (∀ taken rest world, labels = taken ++ rest → run step taken (.start config) = some world →
      Orderly world) ↔ Along step Unfailing labels (.start config) := by
  have living : Living (.start config) :=
    ⟨tabled_start config, fun _ _ => rfl, fun client member => by cases member⟩
  refine good_iff_along Living Orderly ?_ ?_ ?_ (fun _ _ => trivial : ∀ label ∈ labels, True) living
    fun _ => lawful_nil
  · intro world label next living orderly _ taken orderlyNext
    obtain ⟨running, stepped⟩ := step_stepped taken
    have turns := turns_step living orderly running stepped
    exact turns.2 (turns.1.mp orderlyNext)
  · intro world label next living orderly _ taken
    obtain ⟨running, stepped⟩ := step_stepped taken
    exact (turns_step living orderly running stepped).1
  · intro world label _ blocked
    exact unfailing_blocked blocked

/-- The relay sends a second reply, which the callback takes as it took the first. -/
theorem surplus_reply_opens_socket :
    ∃ world, run step (associated ++ [.relayRead 0 [5, 0, 0, 1, 127, 0, 0, 1, 4, 57] .succeed])
      (.start tproxyConfig) = some world ∧ ¬Orderly world := by
  have shown : (run step (associated ++ [.relayRead 0 [5, 0, 0, 1, 127, 0, 0, 1, 4, 57] .succeed])
      (.start tproxyConfig)).any (fun world => decide (world.history 0 =
        [.used, .opened 0 false, .used, .used, .used, .opened 3 true, .used] ++
          [.opened 4 true])) = true := by decide +kernel
  obtain ⟨world, ran, history⟩ := (Option.any_eq_true _ _).mp shown
  refine ⟨world, ran, fun orderly => ?_⟩
  have second := orderly 0 _ _ [] (of_decide_eq_true history)
  have closed := second.2 3 (by simp)
  simp at closed

end ProxySet.Redudp
