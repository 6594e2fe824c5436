import ProxySet.Droid.DnsAnswers

/-!
The receive loop of `DNSProxy.run`: which steps throw an exception that leaves it.
-/

namespace ProxySet.Droid.Dns

open StepRun

/-- A proxy that begins on a database with any rows. -/
def World.startOn (cache : Bytes → Option Answer) : World :=
  { World.start with cache := cache }

/-- The socket stays open: no `SocketException` comes out of `receive`. -/
def Label.SocketOpen : Label → Prop
  | .receiveFails socket => socket = false
  | _ => True

/-- No query for appspot.com is answered with a relay that `parseIPString` refuses, and no row
without room for an identifier is sent. -/
def Survivable (platform : Platform) (world : World) : Label → Prop
  | .look works => ∀ query, world.loop = .looking query →
      world.queryFromCache (query.domain platform) works = none →
      isAppspot platform (query.domain platform) = true →
      (parseIPString platform.dnsRelay).isSome = true
  | .reply _ => ∀ query answer, world.loop = .replying query answer → 2 ≤ answer.packet.length
  | _ => True

theorem parseSections_length {index : Nat} {parts : List Bytes} {ips : Bytes}
    (parsed : parseSections index parts = some ips) : ips.length = parts.length := by
  induction parts generalizing index ips with
  | nil =>
      obtain rfl := Option.some.inj parsed
      rfl
  | cons part rest ih =>
      rw [parseSections] at parsed
      split at parsed
      · cases parsed
      · split at parsed
        · cases parsed
        · obtain ⟨bytes, later, rfl⟩ := Option.map_eq_some_iff.mp parsed
          rw [List.length_cons, List.length_cons, ih later]

theorem parseIPString_length {ip ips : Bytes} (parsed : parseIPString ip = some ips) :
    ips.length = 4 := by
  unfold parseIPString at parsed
  dsimp only at parsed
  split at parsed
  · rw [parseSections_length parsed]
    assumption
  · cases parsed

section

variable {platform : Platform} {world next : World} {label : Label}

theorem long_of_isAppspot (lower : platform.toLowerCase [] = []) {query : Query}
    (appspot : isAppspot platform (query.domain platform) = true) : 13 < query.udpreq.length := by
  by_contra short
  have silent : query.domain platform = [] := if_neg short
  rw [isAppspot, silent, lower] at appspot
  exact absurd appspot (by decide +kernel)

theorem createDNSResponse_isSome_iff {quest : Bytes} {ips : Option Bytes}
    (long : 12 ≤ quest.length) (short : quest.length ≤ 576)
    (four : ∀ bytes, ips = some bytes → bytes.length = 4) :
    (createDNSResponse quest ips).isSome = true ↔ ips.isSome = true := by
  cases ips with
  | none => rfl
  | some bytes =>
      have size := four bytes rfl
      have fits : 12 ≤ quest.length ∧ quest.length + dnsPayload.length + bytes.length ≤ 1024 := by
        have payload : dnsPayload.length = 12 := rfl
        omega
      rw [createDNSResponse, if_pos fits]
      rfl

def Fitting (world : World) : Prop :=
  ∀ query, world.loop = .looking query → query.udpreq.length ≤ 576

theorem looked_not_looking {query other : Query} {found : Option Answer} :
    (looked platform world query found).loop ≠ .looking other := by
  unfold looked World.done
  repeat' split
  all_goals exact Loop.noConfusion

theorem fitting_step (fitting : Fitting world) (stepped : Stepped platform world label next) :
    Fitting next := by
  intro query here
  cases stepped with
  | receive source payload asked _ same =>
      obtain rfl := Loop.looking.inj here
      rw [same, List.length_take]
      omega
  | receiveFails socket before =>
      cases socket with
      | false => exact fitting query here
      | true => cases here
  | look asked works before => exact absurd here looked_not_looking
  | store | replyThrows | ignore | enter | submit | restart => cases here
  | reply _ _ payload works _ _ =>
      rw [deliver_eq] at here
      cases here
  | workerStore index _ answer works _ =>
      rw [addToCache_eq] at here
      exact fitting query here
  | workerReply index _ answer payload works _ _ =>
      rw [deliver_eq] at here
      exact fitting query here
  | fetch | workerReplyThrows | remove => exact fitting query here

theorem looked_stopped_iff (query : Query) (found : Option Answer) :
    (looked platform world query found).loop = .stopped ↔
      found = none ∧ isAppspot platform (query.domain platform) = true ∧
        createDNSResponse query.udpreq (parseIPString platform.dnsRelay) = none := by
  cases found with
  | some answer => simp [looked]
  | none =>
      cases appspot : isAppspot platform (query.domain platform) with
      | false => simp [looked, appspot]
      | true =>
          cases made : createDNSResponse query.udpreq (parseIPString platform.dnsRelay) with
          | none => simp [looked, appspot, made, World.done]
          | some packet => simp [looked, appspot, made]

theorem look_survives_iff (lower : platform.toLowerCase [] = []) (fitting : Fitting world)
    {query : Query} {works : Bool} (here : world.loop = .looking query) :
    (looked platform world query
        (world.queryFromCache (query.domain platform) works)).loop ≠ .stopped ↔
      Survivable platform world (.look works) := by
  rw [ne_eq, looked_stopped_iff]
  have made (appspot : isAppspot platform (query.domain platform) = true) :
      (createDNSResponse query.udpreq (parseIPString platform.dnsRelay)).isSome = true ↔
        (parseIPString platform.dnsRelay).isSome = true :=
    createDNSResponse_isSome_iff (Nat.le_of_lt (Nat.lt_of_succ_lt (long_of_isAppspot lower appspot)))
      (fitting query here) fun _ => parseIPString_length
  constructor
  · intro runs other same missing appspot
    obtain rfl := Loop.looking.inj (here.symm.trans same)
    rw [← made appspot, Option.isSome_iff_ne_none]
    exact fun none => runs ⟨missing, appspot, none⟩
  · rintro survivable ⟨missing, appspot, none⟩
    have parsed := (made appspot).mpr (survivable query here missing appspot)
    rw [none] at parsed
    cases parsed

/-- Of the steps of an open proxy, those that throw are the ones that are not survivable. -/
theorem survives_step_iff (lower : platform.toLowerCase [] = []) (fitting : Fitting world)
    (runs : world.loop ≠ .stopped) (opened : label.SocketOpen)
    (stepped : Stepped platform world label next) :
    next.loop ≠ .stopped ↔ Survivable platform world label := by
  cases stepped with
  | look query works here => exact look_survives_iff lower fitting here
  | reply query answer payload works here sends =>
      refine iff_of_true (by rw [deliver_eq]; exact Loop.noConfusion) fun other found same => ?_
      obtain ⟨rfl, rfl⟩ := Loop.replying.inj (here.symm.trans same)
      by_contra short
      rw [sendDns, if_neg short] at sends
      cases sends
  | replyThrows query answer works here throws =>
      refine iff_of_false (fun runs => runs rfl) fun survivable => ?_
      have long := survivable query answer here
      rw [sendDns, if_pos long] at throws
      cases throws
  | receiveFails socket here =>
      obtain rfl : socket = false := opened
      exact iff_of_true runs trivial
  | workerStore index query answer works here =>
      rw [addToCache_eq]
      exact iff_of_true runs trivial
  | workerReply index query answer payload works here sends =>
      rw [deliver_eq]
      exact iff_of_true runs trivial
  | receive | store | ignore | enter | submit | restart =>
      exact iff_of_true Loop.noConfusion trivial
  | fetch | workerReplyThrows | remove => exact iff_of_true runs trivial

theorem survivable_blocked (blocked : step platform world label = none) :
    Survivable platform world label := by
  cases label with
  | look works =>
      intro query here
      simp [step, Label.worker?, loopStep, here] at blocked
  | reply works =>
      intro query answer here
      simp only [step, Label.worker?, loopStep, here] at blocked
      split at blocked <;> cases blocked
  | _ => trivial

end

theorem loop_runs_iff (platform : Platform) (lower : platform.toLowerCase [] = [])
    (cache : Bytes → Option Answer) {labels : List Label}
    (opened : ∀ label ∈ labels, label.SocketOpen) :
    (∀ taken rest world, labels = taken ++ rest →
      run (step platform) taken (.startOn cache) = some world → world.loop ≠ .stopped) ↔
      Along (step platform) (Survivable platform) labels (.startOn cache) := by
  refine always_iff_along Fitting (·.loop ≠ .stopped) ?_ ?_ ?_ opened
    (fun query here => by cases here) Loop.noConfusion
  · intro world label next fitting _ taken
    exact fitting_step fitting (step_stepped taken)
  · intro world label next fitting runs open' taken
    exact survives_step_iff lower fitting runs open' (step_stepped taken)
  · intro world label _ blocked
    exact survivable_blocked blocked

def appspotQuery : Bytes :=
  [1, 1, 1, 0, 0, 1, 0, 0, 0, 0, 0, 0, 1, 120, 7] ++ ascii "appspot" ++ [3] ++ ascii "com" ++
    [0, 0, 1, 0, 1]

def appspotAsked : List Label :=
  [.receive (localPort 4001) appspotQuery, .look true]

theorem appspotAsked_open : ∀ label ∈ appspotAsked, label.SocketOpen := by
  intro label member
  rcases List.mem_cons.mp member with rfl | member
  · trivial
  · rw [List.mem_singleton.mp member]
    trivial

theorem loop_runs_on_default_relay :
    (∀ label ∈ appspotAsked, label.SocketOpen) ∧
      ∀ taken rest world, appspotAsked = taken ++ rest →
        run (step asciiPlatform) taken (.startOn fun _ => none) = some world →
        world.loop ≠ .stopped := by
  have relay : (parseIPString asciiPlatform.dnsRelay).isSome = true := by decide +kernel
  refine ⟨appspotAsked_open,
    (loop_runs_iff asciiPlatform rfl (fun _ => none) appspotAsked_open).mpr ?_⟩
  exact ⟨trivial, fun next _ => ⟨fun _ _ _ _ => relay, fun _ _ => trivial⟩⟩

def platformOnIPv6 : Platform :=
  { asciiPlatform with dnsRelay := ascii "2607:f8b0:4004:c06::53" }

theorem appspot_query_stops_loop :
    (∀ label ∈ appspotAsked, label.SocketOpen) ∧
      ∃ world, run (step platformOnIPv6) appspotAsked (.startOn fun _ => none) = some world ∧
        world.loop = .stopped := by
  have shown : (run (step platformOnIPv6) appspotAsked (.startOn fun _ => none)).any
      (fun world => decide (world.loop = .stopped)) = true := by decide +kernel
  obtain ⟨world, ran, stopped⟩ := (Option.any_eq_true _ _).mp shown
  exact ⟨appspotAsked_open, world, ran, of_decide_eq_true stopped⟩

end ProxySet.Droid.Dns
