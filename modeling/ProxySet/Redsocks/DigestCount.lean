import ProxySet.Redsocks.Digest
import ProxySet.Redsocks.Verdicts

/-!
The Digest requests of all clients of one HTTP instance in the order in which they
are sent.  Each carries what the program takes for the nonce of the stored challenge
and the value of `last_auth_count` as its nonce count.
-/

namespace ProxySet

open FirstMatch StepRun

def challengeParams (query : Bytes) : DigestParams :=
  digestParams (query.drop 7).length (query.drop 7)
    { realm := none, opaqueText := none, nonce := none, qop := none }

/-- What the program takes for the nonce of a Digest challenge. -/
def challengeNonce (query : Bytes) : Option Bytes :=
  if !isBasic query && isDigest query then (challengeParams query).nonce else none

def challengePairs (query : Bytes) : List (Bytes × Bytes) :=
  listedParams (query.drop 7).length (query.drop 7)

def lastNamed (picks : Bytes → Bool) (pairs : List (Bytes × Bytes)) : Option Bytes :=
  pairs.reverse.findSome? fun pair => if picks pair.1 then some pair.2 else none

/-- The nonce of a Digest challenge, which is the parameter with exactly this name. -/
def statedNonce (query : Bytes) : Option Bytes :=
  if !isBasic query && isDigest query then lastNamed (isKey "nonce") (challengePairs query) else none

/-- The last parameter whose name is `nonce` or a beginning of it has the value of the last one
whose name is `nonce`. -/
def PlainNonce (query : Bytes) : Prop :=
  lastNamed (paramNamed · "nonce") (challengePairs query) =
    lastNamed (isKey "nonce") (challengePairs query)

instance (query : Bytes) : Decidable (PlainNonce query) :=
  inferInstanceAs (Decidable (_ = _))

def HttpAuth.nonce (auth : HttpAuth) : Option Bytes :=
  auth.lastAuthQuery.bind challengeNonce

structure DigestRequest where
  nonce : Bytes
  nc : Nat
  credentials : Bytes
deriving DecidableEq, Repr

def Client.requests (client : Client) : List (Option Bytes × Option Bytes) :=
  client.trace.filterMap Call.asked

def requestBetween (before after : Client) : Option (Bytes × Bytes) :=
  if before.requests.length < after.requests.length then
    match after.requests.head? with
    | some (some credentials, some query) => some (credentials, query)
    | _ => none
  else none

def digestSent (inst : Instance) (label : InstanceEvent) (next : Instance) : Option DigestRequest :=
  match label with
  | .accept _ _ => none
  | .client index _ =>
      inst.clients[index]?.bind fun before =>
        next.clients[index]?.bind fun after =>
          (requestBetween before after).bind fun (credentials, query) =>
            (challengeNonce query).map fun nonce =>
              { nonce := nonce, nc := next.auth.lastAuthCount, credentials := credentials }

/-- The challenge that a client takes from a 407. -/
def challengeTaken (inst : Instance) : InstanceEvent → Option Bytes
  | .accept _ _ => none
  | .client index event =>
      inst.clients[index]?.bind fun client =>
        (client.denied event).bind fun behind =>
          if retries inst.config inst.auth then (getAuthRequestHeader behind).1.map challengeOf
          else none

def nonceIssued (inst : Instance) (label : InstanceEvent) (_ : Instance) : Option Bytes :=
  (challengeTaken inst label).bind statedNonce

def nonceTaken (inst : Instance) (label : InstanceEvent) (_ : Instance) : Option Bytes :=
  (challengeTaken inst label).bind challengeNonce

/-- No abbreviated name hides the nonce of a Digest challenge that a client takes. -/
def PlainlyIssued (inst : Instance) (label : InstanceEvent) : Prop :=
  ∀ query ∈ challengeTaken inst label, isBasic query = false → isDigest query = true →
    PlainNonce query

instance (inst : Instance) (label : InstanceEvent) : Decidable (PlainlyIssued inst label) :=
  inferInstanceAs (Decidable (∀ query ∈ challengeTaken inst label, _))

def DigestRequest.Made (request : DigestRequest) (config : Config) : Prop :=
  ∃ query user passwd method path cnonce, challengeNonce query = some request.nonce ∧
    config.login = some user ∧ config.password = some passwd ∧
    digestAuthenticationEncode (query.drop 7) user passwd method path request.nc cnonce =
      some request.credentials

inductive DigestStep (inst : Instance) (issued : Option Bytes) (sent : Option DigestRequest)
    (next : Instance) : Prop where
  | quiet : issued = none → sent = none → next.auth.nonce = inst.auth.nonce →
      inst.auth.lastAuthCount ≤ next.auth.lastAuthCount → DigestStep inst issued sent next
  | asked (request : DigestRequest) : issued = none → sent = some request →
      next.auth.nonce = inst.auth.nonce → inst.auth.nonce = some request.nonce →
      request.nc = next.auth.lastAuthCount → inst.auth.lastAuthCount < next.auth.lastAuthCount →
      request.Made inst.config → DigestStep inst issued sent next
  | stored : issued = next.auth.nonce → sent = none → DigestStep inst issued sent next

section Steps

variable {inst next : Instance} {label : InstanceEvent} {client after : Client} {entries : List Call}

theorem requests_eq (client : Client) : client.requests = client.authTrace.filterMap Call.asked := by
  unfold Client.requests Client.authTrace
  rw [List.filterMap_filter]
  refine List.filterMap_congr fun entry _ => ?_
  cases entry with
  | log message => simp only [Call.asked, ite_self]
  | _ => simp [Call.ofAuth, Call.asked]

theorem requests_of_adds (added : Adds entries client after) :
    after.requests = entries.filterMap Call.asked ++ client.requests := by
  rw [requests_eq, requests_eq, added.calls, List.filterMap_append]

theorem requestBetween_of_adds (added : Adds entries client after)
    (silent : entries.filterMap Call.asked = []) : requestBetween client after = none := by
  have same := requests_of_adds added
  rw [silent, List.nil_append] at same
  simp [requestBetween, same]

theorem requestBetween_asked {credentials challenge : Option Bytes}
    (added : Adds [.request credentials challenge] client after) :
    requestBetween client after =
      credentials.bind fun text => challenge.map fun query => (text, query) := by
  have grown : after.requests = (credentials, challenge) :: client.requests := requests_of_adds added
  cases credentials <;> cases challenge <;> simp [requestBetween, grown]

theorem DigestRequest.made_of {config : Config} {auth : HttpAuth} {query text nonce : Bytes}
    (made : MadeFor config auth (some text)) (stored : auth.lastAuthQuery = some query)
    (digest : challengeNonce query = some nonce) :
    DigestRequest.Made { nonce := nonce, nc := auth.lastAuthCount, credentials := text } config := by
  obtain ⟨other, storedOther, answered⟩ := made text rfl
  obtain rfl := Option.some.inj (stored.symm.trans storedOther)
  rcases answered with basic | ⟨-, env, method, uri, encoded⟩
  · simp [challengeNonce, basic.1] at digest
  · unfold digestCredentials at encoded
    split at encoded
    · next login password loginEq passwordEq =>
      obtain ⟨other, encoded, same⟩ := Option.map_eq_some_iff.mp encoded
      rw [(Prod.mk.inj same).2] at encoded
      exact ⟨query, login, password, method, uri, _, digest, loginEq, passwordEq, encoded⟩
    · simp at encoded

theorem retries_of_refused {config : Config} {auth : HttpAuth} (stored : auth.lastAuthQuery.isSome = true)
    (once : auth.lastAuthCount = 1) : retries config auth = false := by
  simp [retries, stored, once]

theorem challenge_of_gone {config : Config} {auth : HttpAuth} {behind : Bytes}
    (final : ¬(retries config auth = true ∧ (getAuthRequestHeader behind).1.isSome = true)) :
    (if retries config auth then (getAuthRequestHeader behind).1.map challengeOf else none) =
      none := by
  split
  · next able =>
    cases header : (getAuthRequestHeader behind).1 with
    | none => rfl
    | some line => exact absurd ⟨able, by simp [header]⟩ final
  · rfl

theorem Denial.digestStep {world : World} {behind : Bytes} {index : Nat}
    {request : Bytes × Bytes → Option DigestRequest}
    (denial : Denial (inst.world client) behind world) :
    DigestStep inst
      ((if retries inst.config inst.auth then (getAuthRequestHeader behind).1.map challengeOf
        else none).bind challengeNonce)
      ((requestBetween client world.client).bind request) (inst.update index world) := by
  cases denial with
  | refused stored once auth added =>
      rw [show retries inst.config inst.auth = false from retries_of_refused stored once,
        show requestBetween client world.client = _ from requestBetween_of_adds added rfl]
      exact .quiet rfl rfl (congrArg HttpAuth.nonce auth) (congrArg HttpAuth.lastAuthCount auth).ge
  | gone message either final auth added =>
      have none : (if retries inst.config inst.auth then
          (getAuthRequestHeader behind).1.map challengeOf else none) = none := challenge_of_gone final
      rw [none, show requestBetween client world.client = _ from requestBetween_of_adds added rfl]
      exact .quiet rfl rfl (congrArg HttpAuth.nonce auth) (congrArg HttpAuth.lastAuthCount auth).ge
  | retried line able header auth added =>
      rw [show retries inst.config inst.auth = true from able, header,
        show requestBetween client world.client = _ from requestBetween_of_adds added rfl]
      refine .stored ?_ rfl
      rw [Instance.update_auth, auth]
      rfl

theorem InstanceChange.digestStep (change : InstanceChange inst label next) :
    DigestStep inst (nonceTaken inst label next) (digestSent inst label next) next := by
  cases change with
  | accept env address => exact .quiet rfl rfl rfl (Nat.le_refl _)
  | @client index event client world found live taken =>
      have after : (inst.update index world).clients[index]? = some world.client :=
        List.getElem?_set_self (List.getElem?_eq_some_iff.mp found).1
      have sent : digestSent inst (.client index event) (inst.update index world) =
          (requestBetween client world.client).bind fun pair =>
            (challengeNonce pair.2).map fun nonce =>
              { nonce := nonce, nc := world.auth.lastAuthCount, credentials := pair.1 } := by
        simp only [digestSent, found, after, Option.bind_some]
        rfl
      have issued : nonceTaken inst (.client index event) (inst.update index world) =
          ((client.denied event).bind fun behind =>
            if retries inst.config inst.auth then (getAuthRequestHeader behind).1.map challengeOf
            else none).bind challengeNonce := by
        simp [nonceTaken, challengeTaken, found]
      rw [sent, issued]
      cases taken with
      | quiet none auth added =>
          rw [none, show requestBetween client world.client = _ from requestBetween_of_adds added rfl]
          exact .quiet rfl rfl (congrArg HttpAuth.nonce auth) (congrArg HttpAuth.lastAuthCount auth).ge
      | gaveUp none auth added =>
          rw [none, show requestBetween client world.client = _ from requestBetween_of_adds added rfl]
          have kept : world.auth.nonce = inst.auth.nonce := by rw [auth]; rfl
          refine .quiet rfl rfl kept ?_
          rw [Instance.update_auth, auth]
          exact Nat.le_succ _
      | asked credentials none auth added _ made =>
          rw [none, show requestBetween client world.client = _ from requestBetween_asked added]
          have counted : inst.auth.lastAuthCount < (inst.update index world).auth.lastAuthCount := by
            rw [Instance.update_auth, auth]
            exact Nat.lt_succ_self _
          have kept : world.auth.nonce = inst.auth.nonce := by rw [auth]; rfl
          cases credentials with
          | none => exact .quiet rfl rfl kept counted.le
          | some text =>
              cases stored : inst.auth.lastAuthQuery with
              | none =>
                  simp only [Instance.world_auth, stored, Option.map_none, Option.bind_some,
                    Option.bind_none]
                  exact .quiet rfl rfl kept counted.le
              | some query =>
                  simp only [Instance.world_auth, stored, Option.map_some, Option.bind_some]
                  cases digest : challengeNonce query with
                  | none => exact .quiet rfl rfl kept counted.le
                  | some nonce =>
                      refine .asked _ rfl rfl kept ?_ rfl counted ?_
                      · simpa [HttpAuth.nonce, stored] using digest
                      · rw [auth]
                        exact DigestRequest.made_of made stored digest
      | heard behind denied denial =>
          rw [denied]
          exact denial.digestStep

theorem InstanceChange.config (change : InstanceChange inst label next) : next.config = inst.config := by
  cases change <;> rfl

end Steps

section Runs

variable {config : Config} {subsys : Subsys}

/-- Later requests use nonces that are stored or still to be issued, and those for the stored one
have greater counts. -/
structure CountsFresh (inst : Instance) (issued : List Bytes) (sent : List DigestRequest) : Prop where
  known : ∀ request ∈ sent, inst.auth.nonce = some request.nonce ∨ request.nonce ∈ issued
  above : ∀ request ∈ sent, inst.auth.nonce = some request.nonce →
    inst.auth.lastAuthCount < request.nc
  made : ∀ request ∈ sent, 0 < request.nc ∧ request.Made inst.config
  increasing : sent.Pairwise fun earlier later => earlier.nonce = later.nonce → earlier.nc < later.nc

theorem CountsFresh.step {inst next : Instance} {issued : Option Bytes} {sent : Option DigestRequest}
    {later : List Bytes} {requests : List DigestRequest} (taken : DigestStep inst issued sent next)
    (config : next.config = inst.config)
    (unissued : ∀ nonce ∈ issued.toList ++ later, inst.auth.nonce ≠ some nonce)
    (fresh : CountsFresh next later requests) :
    CountsFresh inst (issued.toList ++ later) (sent.toList ++ requests) := by
  cases taken with
  | quiet noneIssued noneSent kept counted =>
      subst noneIssued noneSent
      refine ⟨?_, ?_, ?_, fresh.increasing⟩
      · intro request member
        rw [← kept]
        exact fresh.known request member
      · intro request member same
        have above := fresh.above request member (kept.trans same)
        omega
      · intro request member
        rw [← config]
        exact fresh.made request member
  | asked first noneIssued someSent kept stored nc counted made =>
      subst noneIssued someSent
      have above : ∀ request ∈ requests, inst.auth.nonce = some request.nonce → first.nc < request.nc := by
        intro request member same
        rw [nc]
        exact fresh.above request member (kept.trans same)
      refine ⟨?_, ?_, ?_, ?_⟩
      · intro request member
        rcases List.mem_cons.mp member with rfl | old
        · exact Or.inl stored
        · rw [← kept]
          exact fresh.known request old
      · intro request member same
        rcases List.mem_cons.mp member with rfl | old
        · omega
        · have higher := above request old same
          omega
      · intro request member
        rcases List.mem_cons.mp member with rfl | old
        · exact ⟨by omega, made⟩
        · rw [← config]
          exact fresh.made request old
      · refine List.pairwise_cons.mpr ⟨?_, fresh.increasing⟩
        intro request member same
        exact above request member (same ▸ stored)
  | stored issuedEq noneSent =>
      subst issuedEq noneSent
      have known : ∀ request ∈ requests, request.nonce ∈ next.auth.nonce.toList ++ later := by
        intro request member
        rcases fresh.known request member with current | future
        · simp [current]
        · exact List.mem_append_right _ future
      refine ⟨fun request member => Or.inr (known request member), ?_, ?_, fresh.increasing⟩
      · intro request member same
        exact absurd same (unissued request.nonce (known request member))
      · intro request member
        rw [← config]
        exact fresh.made request member

theorem DigestStep.nodup {inst next : Instance} {issued : Option Bytes} {sent : Option DigestRequest}
    {later : List Bytes} (taken : DigestStep inst issued sent next)
    (distinct : (inst.auth.nonce.toList ++ (issued.toList ++ later)).Nodup) :
    (next.auth.nonce.toList ++ later).Nodup := by
  cases taken with
  | quiet noneIssued _ kept =>
      subst noneIssued
      rwa [kept]
  | asked _ noneIssued _ kept =>
      subst noneIssued
      rwa [kept]
  | stored issuedEq =>
      subst issuedEq
      exact (List.nodup_append.mp distinct).2.1

theorem countsFresh_run (http : subsys = .httpConnect ∨ subsys = .httpRelay)
    (labels : List InstanceEvent) {inst : Instance} (sound : inst.Sound) (same : inst.subsys = subsys)
    (distinct : (inst.auth.nonce.toList ++ collect instanceStep nonceTaken labels inst).Nodup) :
    CountsFresh inst (collect instanceStep nonceTaken labels inst)
      (collect instanceStep digestSent labels inst) := by
  induction labels generalizing inst with
  | nil => exact ⟨by simp [collect], by simp [collect], by simp [collect], List.Pairwise.nil⟩
  | cons label rest ih =>
      cases taken : instanceStep inst label with
      | none =>
          simp only [collect, taken]
          exact ⟨by simp, by simp, by simp, List.Pairwise.nil⟩
      | some next =>
          have change := instanceStep_change (same ▸ http) sound taken
          have digest := change.digestStep
          simp only [collect, taken] at distinct ⊢
          refine CountsFresh.step digest change.config ?_
            (ih (change.sound sound) (change.subsys.trans same) (digest.nodup distinct))
          intro nonce member stored
          have apart := (List.nodup_append.mp distinct).2.2 nonce (by simp [stored]) nonce member
          exact apart rfl

/-! ### The nonces that are issued -/

theorem extractParam_name {source rest name value : Bytes} {separator : UInt8}
    (found : extractParam source separator = some ((name, value), rest)) : name ≠ [] := by
  simp only [extractParam] at found
  split at found
  · cases found
  · next full =>
    have same : ((source.dropWhile isspace).takeWhile
        fun byte => !isspace byte && byte != 61 && byte != separator) = name := by
      split at found
      · exact (Prod.mk.inj (Prod.mk.inj (Option.some.inj found)).1).1
      · split at found
        · exact (Prod.mk.inj (Prod.mk.inj (Option.some.inj found)).1).1
        · split at found
          · cases found
          · split at found
            · split at found
              · cases found
              · exact (Prod.mk.inj (Prod.mk.inj (Option.some.inj found)).1).1
            · exact (Prod.mk.inj (Prod.mk.inj (Option.some.inj found)).1).1
    rw [← same]
    exact fun empty => full (List.isEmpty_iff.mpr empty)

theorem name_ne_nil {fuel : Nat} {text : Bytes} {pair : Bytes × Bytes}
    (member : pair ∈ listedParams fuel text) : pair.1 ≠ [] := by
  induction fuel generalizing text with
  | zero => cases member
  | succ fuel ih =>
      rw [listedParams] at member
      cases found : extractParam text 44 with
      | none =>
          rw [found] at member
          cases member
      | some result =>
          obtain ⟨first, rest⟩ := result
          rw [found] at member
          rcases List.mem_cons.mp member with rfl | later
          · exact extractParam_name found
          · exact ih later

theorem set_nonce (params : DigestParams) {name : Bytes} (named : name ≠ []) (value : Bytes) :
    (params.set name value).nonce =
      (if paramNamed name "nonce" then some value else none).or params.nonce := by
  have positive := List.length_pos_iff.mpr named
  cases short : paramNamed name "nonce" with
  | true =>
      have letter := strncasecmpEq_head positive short
      have other (key : String) (differ : (ascii key ++ [0]).head?.map tolower ≠
          (ascii "nonce" ++ [0]).head?.map tolower) : paramNamed name key = false := by
        cases same : paramNamed name key with
        | false => rfl
        | true => exact absurd ((strncasecmpEq_head positive same).symm.trans letter) differ
      rw [DigestParams.set, other "realm" (by decide), other "opaque" (by decide), short]
      rfl
  | false =>
      rw [DigestParams.set, short]
      split
      · rfl
      · split
        · rfl
        · split
          · next absurdly => cases absurdly
          · split <;> rfl

/-- The program takes for the nonce what has the name or a beginning of it. -/
theorem challengeNonce_eq (query : Bytes) : challengeNonce query =
    if !isBasic query && isDigest query then
      lastNamed (paramNamed · "nonce") (challengePairs query)
    else none := by
  rw [challengeNonce, challengeParams, digestParams_eq_foldl]
  refine if_congr Iff.rfl ?_ rfl
  have each : ∀ pair ∈ challengePairs query, ∀ params : DigestParams,
      (params.set pair.1 pair.2).nonce =
        (if paramNamed pair.1 "nonce" then some pair.2 else none).or params.nonce :=
    fun pair member params => set_nonce params (name_ne_nil member) pair.2
  exact (foldl_lastSet each _).trans Option.or_none

theorem challengeNonce_of_plain {query : Bytes}
    (plain : isBasic query = false → isDigest query = true → PlainNonce query) :
    challengeNonce query = statedNonce query := by
  rw [challengeNonce_eq, statedNonce]
  split
  · next digest =>
    rw [Bool.and_eq_true, Bool.not_eq_true'] at digest
    exact plain digest.1 digest.2
  · rfl

section Rfc

variable (challenge : DigestChallenge)

theorem scheme_line : isBasic (challengeOf challenge.line) = false ∧
    isDigest (challengeOf challenge.line) = true := by
  have length := challenge.scheme_length
  rw [challenge.challengeOf_line, DigestChallenge.value, List.append_assoc]
  constructor
  · cases basic : isBasic (challenge.scheme ++ (challenge.gap ++ listText challenge.params)) with
    | false => rfl
    | true =>
        have letter := strncasecmpEq_head (by decide) basic
        have first := congrArg List.head? challenge.isScheme
        cases scheme : challenge.scheme with
        | nil => simp [scheme] at length
        | cons byte rest =>
            rw [scheme] at first letter
            exact absurd (first.symm.trans letter) (by decide)
  · have front : ((challenge.scheme ++ (challenge.gap ++ listText challenge.params)) ++ [0]).take 6 =
        challenge.scheme := by
      rw [List.append_assoc]
      exact List.take_left' length
    rw [isDigest, strncasecmpEq, front, challenge.isScheme]
    decide

theorem challengePairs_line : challengePairs (challengeOf challenge.line) =
    challenge.params.map fun param => (param.name, param.value) := by
  have length := challenge.scheme_length
  rw [challengePairs, challenge.challengeOf_line, DigestChallenge.value, List.append_assoc]
  cases split : challenge.gap with
  | nil =>
      have empty : challenge.params = [] := by
        by_contra some
        exact challenge.separated some split
      rw [empty, List.nil_append, List.drop_eq_nil_of_le (by simp [listText, length])]
      rfl
  | cons first gap =>
      have behind : (challenge.scheme ++ (first :: gap ++ listText challenge.params)).drop 7 =
          gap ++ listText challenge.params := by
        rw [show 7 = challenge.scheme.length + 1 by omega, List.drop_append,
          List.drop_eq_nil_of_le (Nat.le_succ _), Nat.add_sub_cancel_left]
        rfl
      have blanks : isBlank gap := fun byte member =>
        challenge.blanks byte (by simp [split, member])
      rw [behind]
      refine listedParams_listText blanks ?_
      rw [List.length_append]
      exact Nat.le_trans (length_le_listText _) (Nat.le_add_left _ _)

theorem lastNamed_params (picks : Bytes → Bool) (params : List DigestParam) :
    lastNamed picks (params.map fun param => (param.name, param.value)) = lastValue picks params := by
  rw [lastNamed, ← List.map_reverse, List.findSome?_map]
  rfl

/-- The nonce of a challenge as RFC 2617 writes it. -/
theorem statedNonce_line :
    statedNonce (challengeOf challenge.line) = lastValue (isKey "nonce") challenge.params := by
  rw [statedNonce, (scheme_line challenge).1, (scheme_line challenge).2, challengePairs_line,
    lastNamed_params]
  rfl

theorem plainNonce_line_iff : PlainNonce (challengeOf challenge.line) ↔
    lastValue (abbreviates "nonce") challenge.params = lastValue (isKey "nonce") challenge.params := by
  have names : lastNamed (paramNamed · "nonce") (challengePairs (challengeOf challenge.line)) =
      lastValue (abbreviates "nonce") challenge.params := by
    rw [challengePairs_line, lastNamed_params, lastValue, lastValue, ← List.head?_filterMap,
      ← List.head?_filterMap]
    refine congrArg List.head? (List.filterMap_congr fun param _ => ?_)
    rw [paramNamed_eq (nulFree_name param) (by decide +kernel : (ascii "nonce").map tolower = _)]
  rw [PlainNonce, names, challengePairs_line, lastNamed_params]

end Rfc

def isChallenged (index : Nat) (params : String) : InstanceEvent :=
  .client index (.readData .relay (ascii ("HTTP/1.0 407 No\r\nProxy-Authenticate: Digest realm=\"r\", " ++
    "qop=\"auth\", " ++ params ++ "\r\n\r\n")) Env.ok)

/-- Two clients answer one challenge, and then one of them another. -/
def twoChallenges (first second : String) : List InstanceEvent :=
  [.accept Env.ok destination, .accept Env.ok destination, asks 0, isChallenged 0 first, asks 0,
    asks 1, isChallenged 1 second, asks 1]

end Runs

end ProxySet
