import ProxySet.Lib.StepRun
import ProxySet.Redsocks.Auth

/-!
The clients of one HTTP instance side by side.  `last_auth_query` and
`last_auth_count` are one pair for all of them, but a client whose 407 arrives
reads them as if they told of its own last request.
-/

namespace ProxySet

open StepRun

def Client.refused (client : Client) : Prop :=
  .log .proxyAuthFailed ∈ client.trace

instance (client : Client) : Decidable client.refused :=
  inferInstanceAs (Decidable (_ ∈ client.trace))

def Call.isClose : Call → Bool
  | .closeRelay => true
  | _ => false

/-- Every 407 leaves one such call. -/
def Call.isDenial : Call → Bool
  | .closeRelay | .log .proxyAuthFailed | .log .noLogin | .log .noChallenge => true
  | _ => false

def Client.closes (client : Client) : Nat :=
  client.trace.countP Call.isClose

def Client.denials (client : Client) : Nat :=
  client.trace.countP Call.isDenial

section Record

variable {client next : Client}

theorem countP_authTrace (client : Client) {pick : Call → Bool}
    (noted : ∀ entry, pick entry = true → entry.ofAuth = true) :
    client.trace.countP pick = client.authTrace.countP pick := by
  rw [Client.authTrace, List.countP_filter]
  refine List.countP_congr fun entry _ => ?_
  simp only [Bool.and_eq_true]
  exact ⟨fun picked => ⟨picked, noted entry picked⟩, And.left⟩

theorem closes_eq (client : Client) : client.closes = client.authTrace.countP Call.isClose := by
  refine countP_authTrace client fun entry picked => ?_
  unfold Call.isClose at picked
  split at picked
  · rfl
  · simp at picked

theorem denials_eq (client : Client) : client.denials = client.authTrace.countP Call.isDenial := by
  refine countP_authTrace client fun entry picked => ?_
  unfold Call.isDenial at picked
  split at picked
  all_goals first | rfl | simp at picked

theorem lastRequest_eq (client : Client) :
    client.lastRequest = client.authTrace.findSome? Call.asked := by
  unfold Client.lastRequest Client.authTrace
  induction client.trace with
  | nil => rfl
  | cons entry trace ih =>
      cases noted : entry.ofAuth with
      | true => rw [List.filter_cons_of_pos noted, List.findSome?_cons, List.findSome?_cons, ih]
      | false =>
          have silent : entry.asked = none := by
            unfold Call.asked
            split
            · simp [Call.ofAuth] at noted
            · rfl
          rw [List.filter_cons_of_neg (by simp [noted]), List.findSome?_cons, silent, ih]

theorem refused_iff (client : Client) :
    client.refused ↔ .log .proxyAuthFailed ∈ client.authTrace := by
  simp [Client.refused, Client.authTrace, Call.ofAuth]

theorem adds_httprConnectRelay (env : Env) (client : Client) :
    Adds [] client (httprConnectRelay env client) := by
  have reading : Adds [] client ((client.modify .client
      fun buffer => { buffer with readcb := .httprClient }).enable .client EvBits.evRead) :=
    (adds_setBuf _ _ _).after (adds_enable _ _ _)
  simp only [httprConnectRelay]
  split
  · exact reading.after (adds_dropLog _ _ rfl)
  · exact reading

theorem adds_accept (env : Env) (config : Config) (subsys : Subsys) (address : SockaddrIn) :
    Adds [] (newClient config subsys address) (redsocksAcceptClient env config subsys address) := by
  have reading := adds_enable (newClient config subsys address) .client EvBits.evRead
  simp only [redsocksAcceptClient]
  split
  · exact reading.after (adds_dropLog _ _ rfl)
  · split
    · exact reading.after (adds_httprConnectRelay env _)
    · exact reading.after (adds_connectRelay env _)

end Record

structure ClientSound (subsys : Subsys) (client : Client) : Prop where
  subsys : client.subsys = subsys
  lined : client.lined
  denials : client.dropped = false → client.denials = client.closes

/-- The client's last request was made with the challenge stored, and answers it if it can. -/
def Client.answers (client : Client) (config : Config) (query : Bytes) : Prop :=
  client.dropped = true ∨ ∃ credentials, client.lastRequest = some (credentials, some query) ∧
    (answerable config query = true → credentials.isSome = true) ∧
    ∀ text ∈ credentials, ∃ scheme, Encoded config query scheme text

/-- A counter of one tells of the last request of the client that counted it. -/
structure Instance.Sound (inst : Instance) : Prop where
  clients : ∀ client ∈ inst.clients, ClientSound inst.subsys client
  asked : ∀ index query, inst.asker = some index → inst.auth.lastAuthQuery = some query →
    inst.auth.lastAuthCount = 1 →
    ∃ client, inst.clients[index]? = some client ∧ client.answers inst.config query

inductive InstanceChange (inst : Instance) : InstanceEvent → Instance → Prop where
  | accept (env : Env) (address : SockaddrIn) : InstanceChange inst (.accept env address)
      { inst with
        clients := inst.clients ++ [redsocksAcceptClient env inst.config inst.subsys address] }
  | client (index : Nat) (event : Event) {client : Client} {world : World} :
      inst.clients[index]? = some client → client.dropped = false →
      AuthStep (inst.world client) (client.denied event) world →
      InstanceChange inst (.client index event) (inst.update index world)

section Steps

variable {inst next : Instance} {label : InstanceEvent}

theorem instanceStep_change (http : inst.subsys = .httpConnect ∨ inst.subsys = .httpRelay)
    (sound : inst.Sound) (taken : instanceStep inst label = some next) :
    InstanceChange inst label next := by
  cases label with
  | accept env address =>
      obtain rfl := Option.some.inj taken
      exact .accept env address
  | client index event =>
      simp only [instanceStep, Option.ite_none_left_eq_some, Option.bind_eq_some_iff,
        Option.map_eq_some_iff] at taken
      obtain ⟨own, client, found, world, stepped, rfl⟩ := taken
      have subsys := (sound.clients client (List.mem_of_getElem? found)).subsys
      refine .client index event found (step_live stepped) (step_authStep ?_ (by simpa using own) stepped)
      rw [Instance.world_client, subsys]
      exact http

theorem clientSound_accept (env : Env) (config : Config) (subsys : Subsys) (address : SockaddrIn) :
    ClientSound subsys (redsocksAcceptClient env config subsys address) := by
  have added := adds_accept env config subsys address
  refine ⟨added.subsys, added.lined ?_, fun _ => ?_⟩
  · intro _ past
    cases subsys <;> simp [newClient, initialState, State.pastRequest] at past
  · rw [denials_eq, closes_eq, added.calls]
    rfl

theorem Adds.clientSound {entries : List Call} {client after : Client} {subsys : Subsys}
    (added : Adds entries client after) (sound : ClientSound subsys client)
    (live : client.dropped = false)
    (counted : after.dropped = false → entries.countP Call.isDenial = entries.countP Call.isClose) :
    ClientSound subsys after := by
  refine ⟨added.subsys.trans sound.subsys, added.lined sound.lined, fun alive => ?_⟩
  have before := sound.denials live
  rw [denials_eq, closes_eq] at before
  rw [denials_eq, closes_eq, added.calls, List.countP_append, List.countP_append, before,
    counted alive]

theorem AuthStep.clientSound {world after : World} {denied : Option Bytes} {subsys : Subsys}
    (taken : AuthStep world denied after) (sound : ClientSound subsys world.client)
    (live : world.client.dropped = false) : ClientSound subsys after.client := by
  cases taken with
  | quiet _ _ added => exact added.clientSound sound live fun _ => rfl
  | gaveUp _ _ added => exact added.clientSound sound live fun _ => rfl
  | asked _ _ _ added => exact added.clientSound sound live fun _ => rfl
  | heard behind _ denial =>
      cases denial with
      | refused _ _ _ added dropped =>
          exact added.clientSound sound live fun alive => by simp [dropped] at alive
      | gone message _ _ _ added dropped =>
          exact added.clientSound sound live fun alive => by simp [dropped] at alive
      | retried line _ _ _ added => exact added.clientSound sound live fun _ => rfl

theorem forall_update {index : Nat} {world : World} {holds : Client → Prop}
    (all : ∀ client ∈ inst.clients, holds client) (new : holds world.client) :
    ∀ client ∈ (inst.update index world).clients, holds client := by
  intro client member
  rcases List.mem_or_eq_of_mem_set member with old | rfl
  · exact all client old
  · exact new

theorem lastRequest_of_adds {entries : List Call} {client after : Client}
    (added : Adds entries client after) (silent : entries.findSome? Call.asked = none) :
    after.lastRequest = client.lastRequest := by
  rw [lastRequest_eq, lastRequest_eq, added.calls, List.findSome?_append, silent, Option.none_or]

theorem asked_of_kept {index : Nat} {client : Client} {world : World} (sound : inst.Sound)
    (found : inst.clients[index]? = some client) (auth : world.auth = inst.auth)
    (kept : ∀ query, client.answers inst.config query → world.client.answers inst.config query) :
    ∀ other query, (inst.update index world).asker = some other → world.auth.lastAuthQuery = some query →
      world.auth.lastAuthCount = 1 →
      ∃ after, (inst.update index world).clients[other]? = some after ∧
        after.answers inst.config query := by
  intro other query asker stored once
  rw [auth] at stored once
  have same : inst.asker = some other := by simpa [auth] using asker
  obtain ⟨before, foundBefore, answers⟩ := sound.asked other query same stored once
  by_cases own : index = other
  · subst own
    obtain rfl := Option.some.inj (found.symm.trans foundBefore)
    refine ⟨world.client, ?_, kept query answers⟩
    exact List.getElem?_set_self (List.getElem?_eq_some_iff.mp found).1
  · exact ⟨before, (List.getElem?_set_ne own).trans foundBefore, answers⟩

theorem asked_of_counted {index : Nat} {client : Client} {world : World}
    (found : inst.clients[index]? = some client) (auth : world.auth = inst.auth.count)
    (answers : ∀ query, inst.auth.lastAuthQuery = some query →
      world.client.answers inst.config query) :
    ∀ other query, (inst.update index world).asker = some other → world.auth.lastAuthQuery = some query →
      ∃ after, (inst.update index world).clients[other]? = some after ∧
        after.answers inst.config query := by
  intro other query asker stored
  have same : index = other := by simpa [auth, HttpAuth.count] using asker
  subst same
  rw [auth] at stored
  exact ⟨world.client, List.getElem?_set_self (List.getElem?_eq_some_iff.mp found).1,
    answers query stored⟩

theorem answers_of_adds {entries : List Call} {client after : Client} {config : Config} {query : Bytes}
    (added : Adds entries client after) (silent : entries.findSome? Call.asked = none)
    (live : client.dropped = false) (answers : client.answers config query) :
    after.answers config query := by
  rcases answers with dropped | ⟨credentials, last, able⟩
  · simp [live] at dropped
  · exact Or.inr ⟨credentials, (lastRequest_of_adds added silent).trans last, able⟩

theorem InstanceChange.sound (change : InstanceChange inst label next) (sound : inst.Sound) :
    next.Sound := by
  cases change with
  | accept env address =>
      refine ⟨?_, ?_⟩
      · intro client member
        rcases List.mem_append.mp member with old | new
        · exact sound.clients client old
        · rw [List.mem_singleton.mp new]
          exact clientSound_accept env inst.config inst.subsys address
      · intro index query asker stored once
        obtain ⟨client, found, told⟩ := sound.asked index query asker stored once
        refine ⟨client, ?_, told⟩
        rw [List.getElem?_append_left (List.getElem?_eq_some_iff.mp found).1]
        exact found
  | @client index event client world found live taken =>
      have own := sound.clients client (List.mem_of_getElem? found)
      refine ⟨forall_update sound.clients (taken.clientSound own live), ?_⟩
      cases taken with
      | quiet _ auth added =>
          exact asked_of_kept sound found auth fun _ => answers_of_adds added rfl live
      | gaveUp _ auth _ dropped =>
          exact fun other query asker stored _ =>
            asked_of_counted found auth (fun _ _ => Or.inl dropped) other query asker stored
      | asked credentials _ auth added able made =>
          refine fun other query asker stored _ =>
            asked_of_counted found auth (fun query stored => Or.inr ⟨credentials, ?_, ?_, ?_⟩) other
              query asker stored
          · rw [lastRequest_eq, added.calls, Instance.world_auth, stored]
            rfl
          · exact fun can => able query stored can own.lined
          · rintro text rfl
            exact MadeFor.encoded made stored
      | heard behind _ denial =>
          cases denial with
          | refused _ _ auth _ dropped => exact asked_of_kept sound found auth fun _ _ => Or.inl dropped
          | gone _ _ _ auth _ dropped => exact asked_of_kept sound found auth fun _ _ => Or.inl dropped
          | retried line _ _ auth =>
              intro other query _ _ once
              simp [auth] at once

end Steps

section Verdicts

variable {inst next : Instance} {label : InstanceEvent}

/-- A 407 that meets a stored challenge and a counter of one goes to the client that has counted,
and the challenge can be answered. -/
def OwnAnswer (inst : Instance) : InstanceEvent → Prop
  | .accept _ _ => True
  | .client index event => ∀ client ∈ inst.clients[index]?, ∀ query ∈ inst.auth.lastAuthQuery,
      (client.denied event).isSome = true → inst.auth.lastAuthCount = 1 →
        inst.asker = some index ∧ answerable inst.config query = true

instance (inst : Instance) : (label : InstanceEvent) → Decidable (OwnAnswer inst label)
  | .accept _ _ => isTrue trivial
  | .client index event => inferInstanceAs (Decidable (∀ client ∈ inst.clients[index]?,
      ∀ query ∈ inst.auth.lastAuthQuery, (client.denied event).isSome = true →
        inst.auth.lastAuthCount = 1 → inst.asker = some index ∧ answerable inst.config query = true))

/-- Whoever is told that authentication failed has answered the stored challenge in its last
request, with what an encoder makes of the instance's login and password. -/
def FairVerdicts (inst next : Instance) : Prop :=
  ∀ (index : Nat) (client : Client), next.clients[index]? = some client → client.refused →
    (∃ before : Client, inst.clients[index]? = some before ∧ before.refused) ∨
      ∃ scheme credentials query, client.lastRequest = some (some credentials, some query) ∧
        inst.auth.lastAuthQuery = some query ∧ Encoded inst.config query scheme credentials

theorem not_refused_accept (env : Env) (config : Config) (subsys : Subsys) (address : SockaddrIn) :
    ¬(redsocksAcceptClient env config subsys address).refused := by
  rw [refused_iff, (adds_accept env config subsys address).calls]
  simp [newClient, Client.authTrace]

theorem refused_of_adds {entries : List Call} {client after : Client}
    (added : Adds entries client after) (silent : .log .proxyAuthFailed ∉ entries)
    (refused : after.refused) : client.refused := by
  rw [refused_iff, added.calls, List.mem_append] at refused
  rw [refused_iff]
  exact refused.resolve_left silent

theorem AuthStep.fair {client : Client} {world : World} {event : Event} {index : Nat}
    (taken : AuthStep (inst.world client) (client.denied event) world) (sound : inst.Sound)
    (found : inst.clients[index]? = some client) (live : client.dropped = false)
    (own : OwnAnswer inst (.client index event)) (refused : world.client.refused) :
    client.refused ∨ ∃ scheme credentials query,
      world.client.lastRequest = some (some credentials, some query) ∧
        inst.auth.lastAuthQuery = some query ∧ Encoded inst.config query scheme credentials := by
  cases taken with
  | quiet _ _ added => exact Or.inl (refused_of_adds added (by simp) refused)
  | gaveUp _ _ added => exact Or.inl (refused_of_adds added (by simp) refused)
  | asked _ _ _ added => exact Or.inl (refused_of_adds added (by simp) refused)
  | heard behind denied denial =>
      cases denial with
      | gone message either _ _ added =>
          refine Or.inl (refused_of_adds added ?_ refused)
          rcases either with rfl | rfl <;> simp
      | retried _ _ _ _ added => exact Or.inl (refused_of_adds added (by simp) refused)
      | refused stored once _ added =>
          obtain ⟨query, stored⟩ := Option.isSome_iff_exists.mp stored
          obtain ⟨asker, able⟩ := own client found query stored (by simp [denied]) once
          obtain ⟨asked, foundAsked, answers⟩ := sound.asked index query asker stored once
          obtain rfl := Option.some.inj (found.symm.trans foundAsked)
          rcases answers with dropped | ⟨credentials, last, answered, encoded⟩
          · simp [live] at dropped
          · obtain ⟨text, rfl⟩ := Option.isSome_iff_exists.mp (answered able)
            obtain ⟨scheme, made⟩ := encoded text rfl
            exact Or.inr ⟨scheme, text, query, (lastRequest_of_adds added rfl).trans last, stored,
              made⟩

theorem InstanceChange.fairVerdicts (change : InstanceChange inst label next) (sound : inst.Sound)
    (own : OwnAnswer inst label) : FairVerdicts inst next := by
  intro index client found refused
  cases change with
  | accept env address =>
      by_cases old : index < inst.clients.length
      · rw [List.getElem?_append_left old] at found
        exact Or.inl ⟨client, found, refused⟩
      · rw [List.getElem?_append_right (Nat.le_of_not_lt old)] at found
        have new := List.mem_singleton.mp (List.mem_of_getElem? found)
        rw [new] at refused
        exact absurd refused (not_refused_accept _ _ _ _)
  | @client other event before world foundBefore live taken =>
      by_cases same : other = index
      · subst same
        rw [Instance.update_clients,
          List.getElem?_set_self (List.getElem?_eq_some_iff.mp foundBefore).1] at found
        obtain rfl := Option.some.inj found
        rcases taken.fair sound foundBefore live own refused with earlier | answered
        · exact Or.inl ⟨before, foundBefore, earlier⟩
        · exact Or.inr answered
      · rw [Instance.update_clients, List.getElem?_set_ne same] at found
        exact Or.inl ⟨client, found, refused⟩

theorem InstanceChange.subsys (change : InstanceChange inst label next) : next.subsys = inst.subsys := by
  cases change <;> rfl

end Verdicts

section Runs

variable {config : Config} {subsys : Subsys} {labels : List InstanceEvent}

theorem sound_redsocksInstance (config : Config) (subsys : Subsys) :
    (redsocksInstance config subsys).Sound :=
  ⟨by simp [redsocksInstance], by simp [redsocksInstance]⟩

theorem run_sound (http : subsys = .httpConnect ∨ subsys = .httpRelay) {inst : Instance}
    (ran : run instanceStep labels (redsocksInstance config subsys) = some inst) :
    inst.Sound ∧ inst.subsys = subsys := by
  refine run_invariant (fun inst => inst.Sound ∧ inst.subsys = subsys) ?_
    ⟨sound_redsocksInstance config subsys, rfl⟩ ran
  intro state label next ⟨sound, same⟩ taken
  have change := instanceStep_change (same ▸ http) sound taken
  exact ⟨change.sound sound, change.subsys.trans same⟩

theorem auth_verdicts_own (http : subsys = .httpConnect ∨ subsys = .httpRelay)
    (met : Along instanceStep OwnAnswer labels (redsocksInstance config subsys))
    {taken rest : List InstanceEvent} {label : InstanceEvent} {inst next : Instance}
    (split : labels = taken ++ label :: rest)
    (ran : run instanceStep taken (redsocksInstance config subsys) = some inst)
    (stepped : instanceStep inst label = some next) : FairVerdicts inst next := by
  obtain ⟨sound, same⟩ := run_sound http ran
  rw [split] at met
  exact (instanceStep_change (same ▸ http) sound stepped).fairVerdicts sound (along_at met ran)

def basicConfig : Config :=
  { login := some (ascii "u"), password := some (ascii "p") }

def destination : SockaddrIn :=
  { a := 10, b := 0, c := 0, d := 1, port := 80 }

def asks (index : Nat) : InstanceEvent :=
  .client index (.writeReady .relay 0 Env.ok)

def isDenied (index : Nat) : InstanceEvent :=
  .client index (.readData .relay
    (ascii "HTTP/1.0 407 No\r\nProxy-Authenticate: Basic\r\n\r\n") Env.ok)

/-- One client whose credentials the proxy does not take. -/
def wrongPassword : List InstanceEvent :=
  [.accept Env.ok destination, asks 0, isDenied 0, asks 0]

theorem auth_verdicts_own_wrongPassword :
    ∃ inst next, run instanceStep wrongPassword (redsocksInstance basicConfig .httpConnect) =
        some inst ∧ instanceStep inst (isDenied 0) = some next ∧
      (∃ client ∈ next.clients, client.refused) ∧ FairVerdicts inst next := by
  have goes : (run instanceStep wrongPassword (redsocksInstance basicConfig .httpConnect)).any
      (fun inst => (instanceStep inst (isDenied 0)).any fun next =>
        next.clients.any fun client => decide client.refused) = true := by
    decide +kernel
  have met : Along instanceStep OwnAnswer (wrongPassword ++ isDenied 0 :: [])
      (redsocksInstance basicConfig .httpConnect) := by
    decide +kernel
  obtain ⟨inst, ran, steps⟩ := (Option.any_eq_true _ _).mp goes
  obtain ⟨next, stepped, told⟩ := (Option.any_eq_true _ _).mp steps
  obtain ⟨client, member, refused⟩ := List.any_eq_true.mp told
  exact ⟨inst, next, ran, stepped, ⟨client, member, of_decide_eq_true refused⟩,
    auth_verdicts_own (Or.inl rfl) met rfl ran stepped⟩

/-- The first client has been challenged and has answered; the second has asked before that. -/
def twoClients : List InstanceEvent :=
  [.accept Env.ok destination, .accept Env.ok destination, asks 0, asks 1, isDenied 0, asks 0]

theorem auth_verdict_of_another :
    ∃ inst next, run instanceStep twoClients (redsocksInstance basicConfig .httpConnect) =
        some inst ∧ instanceStep inst (isDenied 1) = some next ∧ ¬FairVerdicts inst next := by
  have goes : (run instanceStep twoClients (redsocksInstance basicConfig .httpConnect)).any
      (fun inst => (instanceStep inst (isDenied 1)).any fun next =>
        inst.clients[1]?.any (fun before => decide ¬before.refused) &&
          next.clients[1]?.any (fun client => decide client.refused &&
            client.lastRequest == some (none, none))) = true := by
    decide +kernel
  obtain ⟨inst, ran, steps⟩ := (Option.any_eq_true _ _).mp goes
  obtain ⟨next, stepped, told⟩ := (Option.any_eq_true _ _).mp steps
  rw [Bool.and_eq_true] at told
  obtain ⟨before, foundBefore, fresh⟩ := (Option.any_eq_true _ _).mp told.1
  obtain ⟨client, found, judged⟩ := (Option.any_eq_true _ _).mp told.2
  rw [Bool.and_eq_true, decide_eq_true_eq, beq_iff_eq] at judged
  refine ⟨inst, next, ran, stepped, fun fair => ?_⟩
  rcases fair 1 client found judged.1 with ⟨earlier, foundEarlier, refused⟩ | ⟨_, _, _, last, -⟩
  · obtain rfl := Option.some.inj (foundBefore.symm.trans foundEarlier)
    exact of_decide_eq_true fresh refused
  · simp [judged.2] at last

end Runs

section Retries

/-- What the clients of an instance do to its record: the challenge of this client's 407 is stored,
or this client counts a request. -/
inductive AuthNote where
  | stored (index : Nat)
  | asked (index : Nat)
deriving DecidableEq, Repr

def noted (inst : Instance) (label : InstanceEvent) (next : Instance) : Option AuthNote :=
  match label with
  | .accept _ _ => none
  | .client index _ =>
      if next.auth.lastAuthCount = inst.auth.lastAuthCount + 1 then some (.asked index)
      else if next.clients[index]?.map Client.closes = inst.clients[index]?.map Client.closes then none
      else some (.stored index)

/-- A 407 that reaches a client which has closed its relay before does not lead to another try. -/
def RetryBounded (inst : Instance) : InstanceEvent → Prop
  | .accept _ _ => True
  | .client index event => (instanceStep inst (.client index event)).isSome = true →
      ∀ client ∈ inst.clients[index]?, ∀ behind ∈ client.denied event, 0 < client.closes →
        ¬(retries inst.config inst.auth = true ∧ (getAuthRequestHeader behind).1.isSome = true)

/-- The client has reopened its relay at most once, and a second 407 has dropped it. -/
def Client.retriesBounded (client : Client) : Prop :=
  client.closes ≤ 1 ∧ (2 ≤ client.denials → client.dropped = true)

variable {inst next : Instance} {label : InstanceEvent} {client : Client}

theorem retriesBounded_iff (sound : ClientSound inst.subsys client) :
    client.retriesBounded ↔ client.closes ≤ 1 := by
  refine ⟨And.left, fun once => ⟨once, fun twice => ?_⟩⟩
  by_contra live
  have same := sound.denials (by simpa using live)
  omega

theorem closes_of_adds {entries : List Call} {after : Client} (added : Adds entries client after) :
    after.closes = entries.countP Call.isClose + client.closes := by
  rw [closes_eq, closes_eq, added.calls, List.countP_append]

/-- Only a 407 that is tried again closes the relay. -/
theorem AuthStep.closes {world : World} {denied : Option Bytes}
    (taken : AuthStep (inst.world client) denied world) :
    world.client.closes = client.closes +
      if ∃ behind ∈ denied, retries inst.config inst.auth = true ∧
        (getAuthRequestHeader behind).1.isSome = true then 1 else 0 := by
  cases taken with
  | quiet none _ added => simp [closes_of_adds added, none]
  | gaveUp none _ added => simp [closes_of_adds added, none]
  | asked _ none _ added => simp [closes_of_adds added, none, Call.isClose]
  | heard behind found denial =>
      cases denial with
      | refused stored once _ added =>
          have final : retries inst.config inst.auth = false := by
            rw [Instance.world_auth] at stored once
            simp [retries, stored, once]
          simp [closes_of_adds added, found, final, Call.isClose]
      | gone message either final _ added =>
          rw [Instance.world_config, Instance.world_auth] at final
          rw [closes_of_adds added, if_neg (by simpa [found] using final)]
          rcases either with rfl | rfl <;> simp [Call.isClose]
      | retried line able header _ added =>
          rw [Instance.world_config, Instance.world_auth] at able
          rw [closes_of_adds added, if_pos ⟨behind, by simp [found], able, by simp [header]⟩]
          simp [Call.isClose, Nat.add_comm]

theorem retriesBounded_step_iff (http : inst.subsys = .httpConnect ∨ inst.subsys = .httpRelay)
    (sound : inst.Sound) (before : ∀ client ∈ inst.clients, client.retriesBounded)
    (taken : instanceStep inst label = some next) :
    (∀ client ∈ next.clients, client.retriesBounded) ↔ RetryBounded inst label := by
  have change := instanceStep_change http sound taken
  have later := change.sound sound
  cases change with
  | accept env address =>
      refine iff_of_true (fun client member => ?_) trivial
      rcases List.mem_append.mp member with old | new
      · exact before client old
      · rw [retriesBounded_iff (later.clients client member), List.mem_singleton.mp new,
          closes_of_adds (adds_accept env inst.config inst.subsys address)]
        exact Nat.zero_le 1
  | @client index event client world found live step =>
      have bound := (List.getElem?_eq_some_iff.mp found).1
      have closes := step.closes
      have once := (before client (List.mem_of_getElem? found)).1
      constructor
      · intro after _ other foundOther behind heard closed again
        obtain rfl := Option.some.inj (found.symm.trans foundOther)
        have updated : world.client ∈ (inst.update index world).clients :=
          List.mem_of_getElem? (List.getElem?_set_self bound)
        have still := (after world.client updated).1
        rw [closes, if_pos ⟨behind, heard, again⟩] at still
        omega
      · intro allowed
        refine forall_update before ?_
        have updated : world.client ∈ (inst.update index world).clients :=
          List.mem_of_getElem? (List.getElem?_set_self bound)
        rw [retriesBounded_iff (later.clients world.client updated), closes]
        split
        · next heard =>
          obtain ⟨behind, heard, again⟩ := heard
          have first : ¬0 < client.closes := fun closed =>
            allowed (by simp [taken]) client found behind heard closed again
          omega
        · exact once

theorem retriesBounded_along_iff {config : Config} {subsys : Subsys}
    (http : subsys = .httpConnect ∨ subsys = .httpRelay) (labels : List InstanceEvent) :
    (∀ taken rest inst, labels = taken ++ rest →
        run instanceStep taken (redsocksInstance config subsys) = some inst →
          ∀ client ∈ inst.clients, client.retriesBounded) ↔
      Along instanceStep RetryBounded labels (redsocksInstance config subsys) := by
  have start : ∀ client ∈ (redsocksInstance config subsys).clients, client.retriesBounded := by
    simp [redsocksInstance]
  refine Iff.trans ?_ (good_along_iff (fun inst : Instance => (inst.Sound ∧ inst.subsys = subsys) ∧
    ∀ client ∈ inst.clients, client.retriesBounded) ?_ ?_ labels
    ⟨⟨sound_redsocksInstance config subsys, rfl⟩, start⟩)
  · constructor
    · intro bounded taken rest inst split ran
      exact ⟨run_sound http ran, bounded taken rest inst split ran⟩
    · intro good taken rest inst split ran
      exact (good taken rest inst split ran).2
  · rintro inst label next ⟨⟨sound, same⟩, before⟩ taken
    have change := instanceStep_change (same ▸ http) sound taken
    rw [← retriesBounded_step_iff (same ▸ http) sound before taken]
    exact and_iff_right ⟨change.sound sound, change.subsys.trans same⟩
  · intro inst label blocked
    cases label with
    | accept => trivial
    | client index event => exact fun goes => by simp [blocked] at goes

end Retries

section History

variable {config : Config} {subsys : Subsys} {inst next : Instance} {label : InstanceEvent}
  {client : Client} {history : List AuthNote}

def AuthNote.index : AuthNote → Nat
  | .stored index | .asked index => index

def AuthNote.isAsked : AuthNote → Bool
  | .stored _ => false
  | .asked _ => true

/-- The shared counter tells how many requests there have been since the last challenge. -/
inductive Counts (auth : HttpAuth) (history : List AuthNote) : Prop where
  | unstored : auth.lastAuthQuery = none → (∀ note ∈ history, note.isAsked = true) →
      Counts auth history
  | stored (before : List AuthNote) (index : Nat) (later : List AuthNote) :
      history = before ++ .stored index :: later → (∀ note ∈ later, note.isAsked = true) →
      auth.lastAuthQuery.isSome = true → auth.lastAuthCount = later.length → Counts auth history

def LastAsked (history : List AuthNote) (index : Nat) : Prop :=
  ∃ before between, history = before ++ .asked index :: between ∧
    ∀ note ∈ between, note.index ≠ index

structure Recorded (inst : Instance) (history : List AuthNote) : Prop where
  sound : inst.Sound
  counts : Counts inst.auth history
  waiting : ∀ (index : Nat) (client : Client), inst.clients[index]? = some client →
    client.asked = true → LastAsked history index
  able : ∀ client ∈ inst.clients, 0 < client.closes →
    inst.config.login.isSome = true ∧ inst.config.password.isSome = true

theorem Counts.asked {auth : HttpAuth} (counts : Counts auth history) (index : Nat) :
    Counts auth.count (history ++ [.asked index]) := by
  cases counts with
  | unstored none all =>
      refine .unstored none fun note member => ?_
      rcases List.mem_append.mp member with old | new
      · exact all note old
      · rw [List.mem_singleton.mp new]
        rfl
  | stored before other later split all present count =>
      refine .stored before other (later ++ [.asked index]) (by simp [split]) ?_ present ?_
      · intro note member
        rcases List.mem_append.mp member with old | new
        · exact all note old
        · rw [List.mem_singleton.mp new]
          rfl
      · rw [List.length_append, ← count]
        rfl

/-- A challenge is stored and one request has been made since, exactly if these are the last two
things that have been done. -/
theorem Counts.once_iff {auth : HttpAuth} (counts : Counts auth history) :
    (auth.lastAuthQuery.isSome = true ∧ auth.lastAuthCount = 1) ↔
      ∃ earlier other asker, history = earlier ++ [.stored other, .asked asker] := by
  cases counts with
  | unstored none all =>
      refine iff_of_false (by simp [none]) ?_
      rintro ⟨earlier, other, asker, rfl⟩
      exact absurd (all (.stored other) (by simp)) Bool.false_ne_true
  | stored before index later split all present count =>
      rw [and_iff_right present, count, split]
      constructor
      · intro once
        obtain ⟨note, rfl⟩ := List.length_eq_one_iff.mp once
        have asked := all note (List.mem_singleton_self _)
        cases note with
        | stored => cases asked
        | asked asker => exact ⟨before, index, asker, rfl⟩
      · rintro ⟨earlier, other, asker, same⟩
        rcases List.eq_nil_or_concat later with rfl | ⟨front, last, rfl⟩
        · have ends := congrArg List.getLast? same
          simp at ends
        · rw [List.concat_eq_append, ← List.cons_append, ← List.append_assoc,
            show earlier ++ [AuthNote.stored other, .asked asker] =
              earlier ++ [.stored other] ++ [.asked asker] by simp] at same
          have shorter := List.append_inj_left' same rfl
          rcases List.eq_nil_or_concat front with rfl | ⟨inner, middle, rfl⟩
          · rfl
          · rw [List.concat_eq_append, ← List.cons_append, ← List.append_assoc] at shorter
            have middleEq := List.append_inj_right' shorter rfl
            rw [List.singleton_inj] at middleEq
            subst middleEq
            exact absurd (all (.stored other) (by simp)) Bool.false_ne_true

theorem LastAsked.append {index : Nat} (last : LastAsked history index) {notes : List AuthNote}
    (others : ∀ note ∈ notes, note.index ≠ index) : LastAsked (history ++ notes) index := by
  obtain ⟨before, between, rfl, foreign⟩ := last
  refine ⟨before, between ++ notes, by simp, fun note member => ?_⟩
  rcases List.mem_append.mp member with old | new
  · exact foreign note old
  · exact others note new

theorem waiting_update {index : Nat} {world : World} {notes : List AuthNote}
    (recorded : Recorded inst history) (found : inst.clients[index]? = some client)
    (own : ∀ note ∈ notes, note.index = index)
    (last : world.client.asked = true → LastAsked (history ++ notes) index) :
    ∀ (other : Nat) (after : Client), (inst.update index world).clients[other]? = some after →
      after.asked = true → LastAsked (history ++ notes) other := by
  intro other after foundAfter asked
  by_cases same : index = other
  · subst same
    rw [Instance.update_clients,
      List.getElem?_set_self (List.getElem?_eq_some_iff.mp found).1] at foundAfter
    obtain rfl := Option.some.inj foundAfter
    exact last asked
  · rw [Instance.update_clients, List.getElem?_set_ne same] at foundAfter
    refine (recorded.waiting other after foundAfter asked).append fun note member => ?_
    rw [own note member]
    exact same

theorem noted_client {index : Nat} {event : Event} {world : World}
    (found : inst.clients[index]? = some client) :
    noted inst (.client index event) (inst.update index world) =
      if world.auth.lastAuthCount = inst.auth.lastAuthCount + 1 then some (.asked index)
      else if world.client.closes = client.closes then none else some (.stored index) := by
  have updated : (inst.update index world).clients[index]? = some world.client :=
    List.getElem?_set_self (List.getElem?_eq_some_iff.mp found).1
  simp only [noted, updated, found, Option.map_some, Option.some.injEq, Instance.update_auth]

theorem recorded_accept (recorded : Recorded inst history) (env : Env) (address : SockaddrIn)
    (sound : Instance.Sound { inst with
      clients := inst.clients ++ [redsocksAcceptClient env inst.config inst.subsys address] }) :
    Recorded { inst with
      clients := inst.clients ++ [redsocksAcceptClient env inst.config inst.subsys address] }
      history := by
  have added := adds_accept env inst.config inst.subsys address
  refine ⟨sound, recorded.counts, ?_, ?_⟩
  · intro index client found asked
    by_cases old : index < inst.clients.length
    · rw [List.getElem?_append_left old] at found
      exact recorded.waiting index client found asked
    · rw [List.getElem?_append_right (Nat.le_of_not_lt old)] at found
      rw [List.mem_singleton.mp (List.mem_of_getElem? found)] at asked
      rcases added.asked asked with new | ⟨entry, member, -⟩
      · cases subsys : inst.subsys <;>
          simp [newClient, Client.asked, State.asked, initialState, subsys] at new
      · cases member
  · intro client member closed
    rcases List.mem_append.mp member with old | new
    · exact recorded.able client old closed
    · rw [List.mem_singleton.mp new, closes_of_adds added] at closed
      exact absurd closed (Nat.lt_irrefl 0)

theorem recorded_update {index : Nat} {world : World} {notes : List AuthNote}
    (recorded : Recorded inst history) (found : inst.clients[index]? = some client)
    (sound : (inst.update index world).Sound) (counts : Counts world.auth (history ++ notes))
    (own : ∀ note ∈ notes, note.index = index)
    (last : world.client.asked = true → LastAsked (history ++ notes) index)
    (able : 0 < world.client.closes →
      inst.config.login.isSome = true ∧ inst.config.password.isSome = true) :
    Recorded (inst.update index world) (history ++ notes) :=
  ⟨sound, counts, waiting_update recorded found own last, forall_update recorded.able able⟩

theorem recorded_step (http : inst.subsys = .httpConnect ∨ inst.subsys = .httpRelay)
    (recorded : Recorded inst history) (taken : instanceStep inst label = some next) :
    Recorded next (history ++ (noted inst label next).toList) := by
  have change := instanceStep_change http recorded.sound taken
  have sound := change.sound recorded.sound
  cases change with
  | accept env address =>
      rw [show (noted inst (.accept env address) _).toList = [] from rfl, List.append_nil]
      exact recorded_accept recorded env address sound
  | @client index event client world found live step =>
      rw [noted_client found]
      have member := List.mem_of_getElem? found
      have unclosed {entries : List Call} (added : Adds entries client world.client)
          (none : entries.countP Call.isClose = 0) : world.client.closes = client.closes := by
        rw [closes_of_adds added, none, Nat.zero_add]
      -- Where nothing is noted, the record and the count of closes are as before.
      have silent (auth : world.auth = inst.auth) (same : world.client.closes = client.closes)
          (last : world.client.asked = true → LastAsked history index) :
          Recorded (inst.update index world) (history ++ Option.toList
            (if world.auth.lastAuthCount = inst.auth.lastAuthCount + 1 then some (.asked index)
            else if world.client.closes = client.closes then none else some (.stored index))) := by
        rw [auth, if_neg (by simp), if_pos same, Option.toList_none, List.append_nil]
        have counts : Counts world.auth (history ++ []) := by
          rw [auth, List.append_nil]
          exact recorded.counts
        have after := recorded_update recorded found sound counts (by simp)
          (by simpa using last) fun closed => recorded.able client member (same ▸ closed)
        rwa [List.append_nil] at after
      -- A request is noted by the count.
      have counted (auth : world.auth = inst.auth.count) (same : world.client.closes = client.closes) :
          Recorded (inst.update index world) (history ++ Option.toList
            (if world.auth.lastAuthCount = inst.auth.lastAuthCount + 1 then some (.asked index)
            else if world.client.closes = client.closes then none else some (.stored index))) := by
        rw [auth, if_pos (by rfl), Option.toList_some]
        have counts : Counts world.auth (history ++ [.asked index]) := by
          rw [auth]
          exact recorded.counts.asked index
        exact recorded_update recorded found sound counts (by simp [AuthNote.index])
          (fun _ => ⟨history, [], rfl, by simp⟩)
          fun closed => recorded.able client member (same ▸ closed)
      cases step with
      | quiet _ auth added =>
          refine silent auth (unclosed added rfl) fun asked => ?_
          rcases added.asked asked with before | ⟨entry, inside, -⟩
          · exact recorded.waiting index client found before
          · cases inside
      | gaveUp _ auth added _ => exact counted auth (unclosed added rfl)
      | asked credentials _ auth added => exact counted auth (unclosed added rfl)
      | heard behind _ denial =>
          cases denial with
          | refused stored once auth added dropped =>
              exact silent auth (unclosed added rfl) fun asked => by simp [asked_of_dropped dropped] at asked
          | gone message either final auth added dropped =>
              refine silent auth (unclosed added ?_) fun asked => by simp [asked_of_dropped dropped] at asked
              rcases either with rfl | rfl <;> rfl
          | retried line able header auth added unasked =>
              have closes : world.client.closes = 1 + client.closes := closes_of_adds added
              rw [auth, if_neg (by simp), if_neg (by omega), Option.toList_some]
              have counts : Counts world.auth (history ++ [.stored index]) := by
                rw [auth]
                exact .stored history index [] rfl (by simp) rfl rfl
              refine recorded_update recorded found sound counts (by simp [AuthNote.index])
                (fun asked => by simp [unasked] at asked) fun _ => ?_
              simp only [retries, Bool.and_eq_true, Instance.world_config] at able
              exact ⟨able.1.2, able.2⟩

theorem run_recorded (http : subsys = .httpConnect ∨ subsys = .httpRelay)
    {labels : List InstanceEvent}
    (ran : run instanceStep labels (redsocksInstance config subsys) = some inst) :
    Recorded inst (collect instanceStep noted labels (redsocksInstance config subsys)) := by
  have kept : inst.subsys = subsys ∧
      Recorded inst (collect instanceStep noted labels (redsocksInstance config subsys)) := by
    refine run_invariant_collect (fun inst history => inst.subsys = subsys ∧ Recorded inst history)
      ?_ ⟨rfl, ?_⟩ ran
    · rintro inst history label next ⟨same, recorded⟩ taken
      have change := instanceStep_change (same ▸ http) recorded.sound taken
      exact ⟨change.subsys.trans same, recorded_step (same ▸ http) recorded taken⟩
    · exact ⟨sound_redsocksInstance config subsys, .unstored rfl (by simp),
        by simp [redsocksInstance], by simp [redsocksInstance]⟩
  exact kept.2

/-- Since the last request of the client at this place the others have left the record alone, and
that request was the first since a challenge was stored; or the last thing that the others have done
is to store another challenge and then to make one request. -/
def OneSinceStored (history : List AuthNote) (index : Nat) : Prop :=
  ∃ before between, history = before ++ .asked index :: between ∧
    (∀ note ∈ between, note.index ≠ index) ∧
    (between = [] ∧ (∃ earlier other, before = earlier ++ [.stored other]) ∨
      ∃ earlier other asker, between = earlier ++ [.stored other, .asked asker])

theorem oneSinceStored_iff {index : Nat} (last : LastAsked history index) :
    OneSinceStored history index ↔
      ∃ earlier other asker, history = earlier ++ [.stored other, .asked asker] := by
  constructor
  · rintro ⟨before, between, rfl, -, ⟨rfl, earlier, other, rfl⟩ | ⟨earlier, other, asker, rfl⟩⟩
    · exact ⟨earlier, other, index, by simp⟩
    · exact ⟨before ++ .asked index :: earlier, other, asker, by simp⟩
  · rintro ⟨earlier, other, asker, ends⟩
    obtain ⟨before, between, split, foreign⟩ := last
    refine ⟨before, between, split, foreign, ?_⟩
    rw [split, show earlier ++ [AuthNote.stored other, .asked asker] =
      earlier ++ [.stored other] ++ [.asked asker] by simp] at ends
    rcases List.eq_nil_or_concat between with rfl | ⟨front, last, rfl⟩
    · exact .inl ⟨rfl, earlier, other, List.append_inj_left' ends rfl⟩
    · rw [List.concat_eq_append] at ends ⊢
      rw [← List.cons_append, ← List.append_assoc] at ends
      obtain rfl := List.singleton_inj.mp (List.append_inj_right' ends rfl)
      have shorter := List.append_inj_left' ends rfl
      rcases List.eq_nil_or_concat front with rfl | ⟨inner, middle, rfl⟩
      · have same := List.singleton_inj.mp (List.append_inj_right' shorter rfl)
        cases same
      · rw [List.concat_eq_append] at shorter ⊢
        rw [← List.cons_append, ← List.append_assoc] at shorter
        obtain rfl := List.singleton_inj.mp (List.append_inj_right' shorter rfl)
        exact .inr ⟨inner, other, asker, by simp⟩

/-- The requests and the challenges of the instance when a client that has reopened its relay before
reads another 407 with a challenge. -/
def DeniedInTime (config : Config) (subsys : Subsys) (labels : List InstanceEvent) : Prop :=
  ∀ taken index event rest inst client behind, labels = taken ++ .client index event :: rest →
    run instanceStep taken (redsocksInstance config subsys) = some inst →
    (instanceStep inst (.client index event)).isSome = true → inst.clients[index]? = some client →
    0 < client.closes → client.denied event = some behind →
    (getAuthRequestHeader behind).1.isSome = true →
    OneSinceStored (collect instanceStep noted taken (redsocksInstance config subsys)) index

theorem instanceStep_live {index : Nat} {event : Event}
    (found : inst.clients[index]? = some client)
    (taken : instanceStep inst (.client index event) = some next) : client.dropped = false := by
  simp only [instanceStep, Option.ite_none_left_eq_some, Option.bind_eq_some_iff,
    Option.map_eq_some_iff] at taken
  obtain ⟨-, other, foundOther, world, stepped, -⟩ := taken
  obtain rfl := Option.some.inj (found.symm.trans foundOther)
  exact step_live stepped

theorem asked_of_denied {event : Event} {behind : Bytes} (live : client.dropped = false)
    (denied : client.denied event = some behind) : client.asked = true := by
  have due : client.firstLineDue = true := by
    unfold Client.denied at denied
    split at denied
    · split at denied
      · by_contra early
        rw [reads407_of_not_due (by simpa [Client.firstLineDue] using early)] at denied
        cases denied
      · cases denied
    · cases denied
  rcases firstLineDue_iff.mp due with ⟨-, state⟩ | ⟨-, state⟩
  · simp [Client.asked, live, state, State.asked]
  · simp [Client.asked, live, state, State.asked]

/-- Who has reopened the relay before tries again unless one request has been made for the stored
challenge. -/
theorem retries_eq_false_iff {index : Nat} (recorded : Recorded inst history)
    (found : inst.clients[index]? = some client) (closed : 0 < client.closes)
    (asked : client.asked = true) :
    retries inst.config inst.auth = false ↔ OneSinceStored history index := by
  obtain ⟨login, password⟩ := recorded.able client (List.mem_of_getElem? found) closed
  rw [oneSinceStored_iff (recorded.waiting index client found asked), ← recorded.counts.once_iff]
  simp [retries, login, password]

/-- Every client reopens its relay at most once exactly if each further 407 comes when one request
has been made since a challenge was stored. -/
theorem auth_retries_bounded_iff (http : subsys = .httpConnect ∨ subsys = .httpRelay)
    (labels : List InstanceEvent) :
    (∀ taken rest inst, labels = taken ++ rest →
        run instanceStep taken (redsocksInstance config subsys) = some inst →
          ∀ client ∈ inst.clients, client.retriesBounded) ↔
      DeniedInTime config subsys labels := by
  rw [retriesBounded_along_iff http, along_iff_at]
  constructor
  · intro bounded taken index event rest inst client behind split ran goes found closed denied header
    have recorded := run_recorded http ran
    obtain ⟨next, stepped⟩ := Option.isSome_iff_exists.mp goes
    have again := bounded taken _ rest inst split ran goes client found behind denied closed
    have live := instanceStep_live found stepped
    rw [← retries_eq_false_iff recorded found closed (asked_of_denied live denied)]
    exact Bool.eq_false_iff.mpr fun able => again ⟨able, header⟩
  · intro inTime taken label rest inst split ran
    cases label with
    | accept env address => trivial
    | client index event =>
        rintro goes client found behind denied closed ⟨able, header⟩
        have recorded := run_recorded http ran
        obtain ⟨next, stepped⟩ := Option.isSome_iff_exists.mp goes
        have live := instanceStep_live found stepped
        have once := inTime taken index event rest inst client behind split ran goes found closed denied
          header
        rw [← retries_eq_false_iff recorded found closed (asked_of_denied live denied), able] at once
        cases once

theorem auth_retries_bounded_iff_wrongPassword :
    (∀ taken rest inst, wrongPassword = taken ++ rest →
        run instanceStep taken (redsocksInstance basicConfig .httpConnect) = some inst →
          ∀ client ∈ inst.clients, client.retriesBounded) ↔
      DeniedInTime basicConfig .httpConnect wrongPassword :=
  auth_retries_bounded_iff (Or.inl rfl) wrongPassword

/-- The first client answers its challenge; the second asks before the answer is denied. -/
def countedTwice : List InstanceEvent :=
  [.accept Env.ok destination, asks 0, isDenied 0, asks 0, .accept Env.ok destination, asks 1,
    isDenied 0]

theorem auth_retries_unbounded :
    ∃ inst, run instanceStep countedTwice (redsocksInstance basicConfig .httpConnect) = some inst ∧
      ∃ client ∈ inst.clients, client.closes = 2 ∧ client.dropped = false := by
  have goes : (run instanceStep countedTwice (redsocksInstance basicConfig .httpConnect)).any
      (fun inst => inst.clients.any fun client => client.closes == 2 && !client.dropped) = true := by
    decide +kernel
  obtain ⟨inst, ran, closed⟩ := (Option.any_eq_true _ _).mp goes
  obtain ⟨client, member, twice⟩ := List.any_eq_true.mp closed
  rw [Bool.and_eq_true, beq_iff_eq, Bool.not_eq_true'] at twice
  exact ⟨inst, ran, client, member, twice⟩

end History

end ProxySet
