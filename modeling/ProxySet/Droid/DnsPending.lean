import Mathlib.Data.List.Perm.Basic
import ProxySet.Droid.DnsAnswers

/-!
The set `domains` of `DNSProxy`: the names that a worker is on its way for.
-/

namespace ProxySet.Droid.Dns

open StepRun

def handedOver (platform : Platform) : Loop → List Bytes
  | .submitting query => [query.domain platform]
  | _ => []

def Worker.domain (platform : Platform) (worker : Worker) : Bytes :=
  worker.query.domain platform

/-- The names of the workers submitted that have not executed their removal. -/
def submitted (platform : Platform) (world : World) : List Bytes :=
  world.workers.map (Worker.domain platform)

def pending (platform : Platform) (world : World) : List Bytes :=
  handedOver platform world.loop ++ submitted platform world

structure Exact (platform : Platform) (world : World) : Prop where
  same : ∀ name, name ∈ world.domains ↔ name ∈ pending platform world
  once : (pending platform world).Nodup
  /-- No worker is ever submitted for appspot.com. -/
  entering : ∀ query, world.loop = .entering query →
    isAppspot platform (query.domain platform) = false
  plain : ∀ name, name ∈ pending platform world ∨ name ∈ world.ended →
    isAppspot platform name = false

section

variable {platform : Platform} {world next : World} {label : Label}

theorem exact_start : Exact platform .start where
  same := fun name => by
    change name ∈ (∅ : Finset Bytes) ↔ name ∈ []
    simp
  once := List.nodup_nil
  entering := fun query here => by cases here
  plain := fun name member => by
    rcases member with member | member
    · cases member
    · cases member

theorem Exact.carry (exact' : Exact platform world) (domains : next.domains = world.domains)
    (names : pending platform next = pending platform world) (ended : next.ended = world.ended)
    (entering : ∀ query, next.loop = .entering query →
      isAppspot platform (query.domain platform) = false) : Exact platform next where
  same := by
    rw [domains, names]
    exact exact'.same
  once := names ▸ exact'.once
  entering := entering
  plain := by
    rw [names, ended]
    exact exact'.plain

theorem submitted_setWorker {index : Nat} {query : Query} {old phase : Phase}
    (here : world.workers[index]? = some ⟨query, old⟩) :
    submitted platform (world.setWorker index query phase) = submitted platform world := by
  obtain ⟨bound, found⟩ := List.getElem?_eq_some_iff.mp here
  have same : Worker.domain platform ⟨query, phase⟩ =
      Worker.domain platform world.workers[index] := by rw [found]; rfl
  have unchanged : (submitted platform world).set index (Worker.domain platform
      world.workers[index]) = submitted platform world := by
    have inside : index < (world.workers.map (Worker.domain platform)).length := by
      simpa using bound
    have kept : (world.workers.map (Worker.domain platform)).set index
        (world.workers.map (Worker.domain platform))[index] =
          world.workers.map (Worker.domain platform) := List.set_getElem_self inside
    rw [List.getElem_map] at kept
    exact kept
  rw [← same] at unchanged
  simpa only [submitted, World.setWorker, List.map_set] using unchanged

theorem pending_setWorker {index : Nat} {query : Query} {old phase : Phase}
    (here : world.workers[index]? = some ⟨query, old⟩) :
    pending platform (world.setWorker index query phase) = pending platform world :=
  congrArg (handedOver platform world.loop ++ ·) (submitted_setWorker here)

theorem handedOver_looked (query : Query) (found : Option Answer) :
    handedOver platform (looked platform world query found).loop = [] := by
  unfold looked World.done
  repeat' split
  all_goals rfl

theorem entering_looked {query other : Query} {found : Option Answer}
    (here : (looked platform world query found).loop = .entering other) :
    isAppspot platform (other.domain platform) = false := by
  unfold looked World.done at here
  repeat' split at here
  all_goals cases here
  rename_i plain
  simpa using plain

theorem remove_exact {index : Nat} {query : Query} (exact' : Exact platform world)
    (here : world.workers[index]? = some ⟨query, .removing⟩) :
    Exact platform { world with
      domains := world.domains.erase (query.domain platform)
      workers := world.workers.eraseIdx index
      ended := world.ended ++ [query.domain platform] } := by
  obtain ⟨bound, found⟩ := List.getElem?_eq_some_iff.mp here
  have perm : (query.domain platform :: pending platform { world with
      domains := world.domains.erase (query.domain platform)
      workers := world.workers.eraseIdx index
      ended := world.ended ++ [query.domain platform] }).Perm (pending platform world) := by
    have names : (Worker.domain platform world.workers[index] ::
        (world.workers.eraseIdx index).map (Worker.domain platform)).Perm
          (world.workers.map (Worker.domain platform)) :=
      (List.getElem_cons_eraseIdx_perm bound).map (Worker.domain platform)
    rw [found] at names
    exact List.perm_middle.symm.trans (names.append_left (handedOver platform world.loop))
  have once := perm.nodup_iff.mpr exact'.once
  obtain ⟨fresh, distinct⟩ := List.nodup_cons.mp once
  refine ⟨fun name => ?_, distinct, exact'.entering, fun name member => ?_⟩
  · rw [Finset.mem_erase, exact'.same name, ← perm.mem_iff, List.mem_cons]
    constructor
    · rintro ⟨other, rfl | member⟩
      · exact absurd rfl other
      · exact member
    · intro member
      refine ⟨?_, .inr member⟩
      rintro rfl
      exact fresh member
  · have old : name ∈ pending platform world ∨ name ∈ world.ended := by
      rcases member with member | member
      · exact .inl (perm.mem_iff.mp (List.mem_cons_of_mem _ member))
      · rcases List.mem_append.mp member with ended | last
        · exact .inr ended
        · rw [List.mem_singleton.mp last]
          exact .inl (perm.mem_iff.mp List.mem_cons_self)
    exact exact'.plain name old

theorem exact_step (exact' : Exact platform world)
    (stepped : Stepped platform world label next) : Exact platform next := by
  cases stepped with
  | receive source payload query here asked =>
      refine exact'.carry rfl ?_ rfl (fun query entering => by cases entering)
      rw [pending, pending, here]
      rfl
  | receiveFails socket here =>
      cases socket with
      | false => exact exact'
      | true =>
          refine exact'.carry rfl ?_ rfl (fun query entering => by cases entering)
          rw [pending, pending, here]
          rfl
  | look query works here =>
      refine exact'.carry ?_ ?_ ?_ (fun other entering => entering_looked entering)
      · rw [looked_eq]
      · rw [pending, pending, here, handedOver_looked, looked_eq]
        rfl
      · rw [looked_eq]
  | store query answer works here =>
      rw [addToCache_eq]
      refine exact'.carry rfl ?_ rfl (fun query entering => by cases entering)
      rw [pending, pending, here]
      rfl
  | reply query answer payload works here made =>
      rw [deliver_eq]
      refine exact'.carry rfl ?_ rfl (fun query entering => by cases entering)
      rw [pending, pending, here]
      rfl
  | replyThrows query answer works here thrown =>
      refine exact'.carry rfl ?_ rfl (fun query entering => by cases entering)
      rw [pending, pending, here]
      rfl
  | ignore query here member =>
      refine exact'.carry rfl ?_ rfl (fun query entering => by cases entering)
      rw [pending, pending, here]
      rfl
  | enter query here fresh =>
      have names : pending platform { world with
          domains := insert (query.domain platform) world.domains
          loop := .submitting query } = query.domain platform :: pending platform world := by
        rw [pending, pending, here]
        rfl
      refine ⟨fun name => ?_, ?_, (fun query entering => by cases entering), fun name member => ?_⟩
      · rw [names, Finset.mem_insert, List.mem_cons, exact'.same name]
      · rw [names, List.nodup_cons, ← exact'.same]
        exact ⟨fresh, exact'.once⟩
      · rw [names, List.mem_cons] at member
        rcases member with (rfl | old) | ended
        · exact exact'.entering query here
        · exact exact'.plain name (.inl old)
        · exact exact'.plain name (.inr ended)
  | submit query here =>
      have perm : (pending platform { (world.done query .submitted .receiving) with
          workers := world.workers ++ [⟨query, .fetching⟩] }).Perm (pending platform world) := by
        rw [pending, pending, here]
        simp only [World.done, handedOver, submitted, List.nil_append, List.map_append,
          List.map_singleton]
        exact List.perm_append_comm
      refine ⟨fun name => ?_, perm.nodup_iff.mpr exact'.once,
        (fun query entering => by cases entering), fun name member => ?_⟩
      · rw [perm.mem_iff]
        exact exact'.same name
      · rw [perm.mem_iff] at member
        exact exact'.plain name member
  | fetch index query resolved here =>
      exact exact'.carry rfl (pending_setWorker here) rfl exact'.entering
  | workerStore index query answer works here =>
      rw [addToCache_eq]
      exact exact'.carry rfl (pending_setWorker here) rfl exact'.entering
  | workerReply index query answer payload works here made =>
      rw [deliver_eq]
      exact exact'.carry rfl (pending_setWorker here) rfl exact'.entering
  | workerReplyThrows index query answer works here thrown =>
      exact exact'.carry rfl (pending_setWorker here) rfl exact'.entering
  | remove index query here => exact remove_exact exact' here
  | restart kept =>
      refine ⟨fun name => ?_, List.nodup_nil, (fun query here => by cases here),
        fun name member => ?_⟩
      · change name ∈ (∅ : Finset Bytes) ↔ name ∈ []
        simp
      · rcases member with member | member
        · cases member
        · cases member

/-! ### The next query for a name -/

def Handles (query : Query) : Loop → Prop
  | .looking other => other = query
  | .replying other answer => other = query ∧ 12 ≤ answer.packet.length
  | .entering other => other = query
  | .submitting other => other = query
  | _ => False

/-- The loop is done with the query, or goes on with it while no worker has its name. -/
def Progress (platform : Platform) (query : Query) (past : List (Query × Outcome))
    (world : World) : Prop :=
  (world.outcomes = past ∧ Handles query world.loop ∧
    query.domain platform ∉ submitted platform world) ∨
  ∃ outcome rest, world.outcomes = past ++ (query, outcome) :: rest ∧
    (outcome = .answered ∨ outcome = .submitted)

theorem step_outcomes (stepped : Stepped platform world label next) :
    ∃ more, next.outcomes = world.outcomes ++ more := by
  cases stepped with
  | receiveFails socket here => exact ⟨[], by cases socket <;> simp⟩
  | look query works here =>
      unfold looked World.done
      repeat' split
      all_goals first | exact ⟨_, rfl⟩ | exact ⟨[], (List.append_nil _).symm⟩
  | store query answer works here => exact ⟨[], by rw [addToCache_eq]; simp⟩
  | reply query answer payload works here made => exact ⟨_, by rw [deliver_eq]; rfl⟩
  | replyThrows query answer works here thrown => exact ⟨_, rfl⟩
  | ignore query here member => exact ⟨_, rfl⟩
  | submit query here => exact ⟨_, rfl⟩
  | workerStore index query answer works here =>
      exact ⟨[], by rw [addToCache_eq]; simp [World.setWorker]⟩
  | workerReply index query answer payload works here made =>
      exact ⟨[], by rw [deliver_eq]; simp [World.setWorker]⟩
  | restart kept => exact ⟨[], by simp [restarted]⟩
  | _ => exact ⟨[], by simp [World.setWorker]⟩

theorem looked_handles {query : Query} (works : Bool)
    (supplied : Supplied (fun answer => 12 ≤ answer.packet.length) world)
    (plain : isAppspot platform (query.domain platform) = false) :
    (looked platform world query (world.queryFromCache (query.domain platform) works)).outcomes =
        world.outcomes ∧
      Handles query
        (looked platform world query (world.queryFromCache (query.domain platform) works)).loop := by
  cases found : world.queryFromCache (query.domain platform) works with
  | some answer =>
      rw [World.queryFromCache] at found
      split at found
      · exact ⟨rfl, rfl, supplied.cached _ _ found⟩
      · cases found
  | none => simp [looked, plain, Handles]

theorem progress_step {query : Query} {past : List (Query × Outcome)}
    (exact' : Exact platform world)
    (supplied : Supplied (fun answer => 12 ≤ answer.packet.length) world)
    (plain : isAppspot platform (query.domain platform) = false)
    (running : ∀ kept, label ≠ .restart kept) (progress : Progress platform query past world)
    (stepped : Stepped platform world label next) : Progress platform query past next := by
  rcases progress with ⟨unfinished, handles, alone⟩ | ⟨outcome, rest, finished, good⟩
  · cases stepped with
    | receive source payload other here asked => simp [here, Handles] at handles
    | receiveFails socket here => simp [here, Handles] at handles
    | look other works here =>
        obtain rfl : other = query := by simpa [here, Handles] using handles
        obtain ⟨kept, now⟩ := looked_handles works supplied plain
        refine .inl ⟨kept.trans unfinished, now, ?_⟩
        rw [looked_eq]
        exact alone
    | store other answer works here => simp [here, Handles] at handles
    | reply other answer payload works here made =>
        rw [here, Handles] at handles
        obtain ⟨rfl, -⟩ := handles
        rw [deliver_eq]
        exact .inr ⟨.answered, [], by simp [World.done, unfinished], .inl rfl⟩
    | replyThrows other answer works here thrown =>
        rw [here, Handles] at handles
        rw [sendDns] at thrown
        split at thrown
        · cases thrown
        · omega
    | ignore other here member =>
        obtain rfl : other = query := by simpa [here, Handles] using handles
        rw [exact'.same, pending, here] at member
        exact absurd member alone
    | enter other here fresh =>
        obtain rfl : other = query := by simpa [here, Handles] using handles
        exact .inl ⟨unfinished, rfl, alone⟩
    | submit other here =>
        obtain rfl : other = query := by simpa [here, Handles] using handles
        exact .inr ⟨.submitted, [], by simp [World.done, unfinished], .inr rfl⟩
    | fetch index other resolved here =>
        refine .inl ⟨unfinished, handles, ?_⟩
        rwa [submitted_setWorker here]
    | workerStore index other answer works here =>
        have still : query.domain platform ∉
            submitted platform (world.setWorker index other (.replying answer)) := by
          rwa [submitted_setWorker here]
        rw [addToCache_eq]
        exact .inl ⟨unfinished, handles, still⟩
    | workerReply index other answer payload works here made =>
        have still : query.domain platform ∉
            submitted platform (world.setWorker index other .removing) := by
          rwa [submitted_setWorker here]
        rw [deliver_eq]
        exact .inl ⟨unfinished, handles, still⟩
    | workerReplyThrows index other answer works here thrown =>
        refine .inl ⟨unfinished, handles, ?_⟩
        rwa [submitted_setWorker here]
    | remove index other here =>
        refine .inl ⟨unfinished, handles, fun member => alone ?_⟩
        obtain ⟨worker, kept, same⟩ := List.mem_map.mp member
        exact List.mem_map.mpr ⟨worker, List.mem_of_mem_eraseIdx kept, same⟩
    | restart kept => exact absurd rfl (running kept)
  · obtain ⟨more, grown⟩ := step_outcomes stepped
    refine .inr ⟨outcome, rest ++ more, ?_, good⟩
    rw [grown, finished]
    simp

structure Lawful (platform : Platform) (world : World) : Prop where
  exact' : Exact platform world
  buffered : Buffered world
  supplied : Supplied (fun answer => 12 ≤ answer.packet.length) world

theorem lawful_step (lawful : Lawful platform world) (stepped : Stepped platform world label next) :
    Lawful platform next :=
  ⟨exact_step lawful.exact' stepped, buffered_step lawful.buffered stepped,
    supplied_step lawful.buffered lawful.supplied (fun _ _ => makes_long _) stepped⟩

theorem lawful_run {labels : List Label} (ran : run (step platform) labels .start = some world) :
    Lawful platform world :=
  run_invariant (Lawful platform) (fun _ _ _ lawful taken => lawful_step lawful (step_stepped taken))
    ⟨exact_start, buffered_start, supplied_start⟩ ran

theorem progress_run {query : Query} {past : List (Query × Outcome)} {later : List Label}
    (plain : isAppspot platform (query.domain platform) = false) (lawful : Lawful platform world)
    (progress : Progress platform query past world) (running : ∀ kept, .restart kept ∉ later)
    (ran : run (step platform) later world = some next) : Progress platform query past next := by
  induction later generalizing world with
  | nil => exact Option.some.inj ran ▸ progress
  | cons label later ih =>
      obtain ⟨middle, taken, rest⟩ := run_cons_some ran
      have stepped := step_stepped taken
      have here : ∀ kept, label ≠ .restart kept := by
        rintro kept rfl
        exact running kept List.mem_cons_self
      exact ih (lawful_step lawful stepped)
        (progress_step lawful.exact' lawful.supplied plain here progress stepped)
        (fun kept member => running kept (List.mem_cons_of_mem _ member)) rest

/-- The loop never waits for anybody while it has a query in hand. -/
theorem handles_goes_on {query : Query} (handles : Handles query world.loop) :
    ∃ label after, loopStep platform world world.loop label = some after := by
  generalize world.loop = loop at handles ⊢
  cases loop with
  | looking other => exact ⟨.look true, _, rfl⟩
  | replying other answer =>
      have room : 2 ≤ answer.packet.length := by
        have long := handles.2
        omega
      obtain ⟨sent, made⟩ : ∃ sent, sendDns world.qbuffer answer.packet = some sent :=
        ⟨_, if_pos room⟩
      exact ⟨.reply true, _, by rw [loopStep, made]⟩
  | entering other =>
      by_cases member : other.domain platform ∈ world.domains
      · exact ⟨.enter, _, by rw [loopStep, if_pos member]⟩
      · exact ⟨.enter, _, by rw [loopStep, if_neg member]⟩
  | submitting other => exact ⟨.submit, _, rfl⟩
  | receiving => cases handles
  | storing other answer => cases handles
  | stopped => cases handles

end

theorem pending_exact (platform : Platform) {labels : List Label} {world : World}
    (ran : run (step platform) labels .start = some world) :
    (∀ name, name ∈ world.domains ↔ name ∈ pending platform world) ∧
    (pending platform world).Nodup ∧
    ∀ source payload query after, query = ⟨source, payload.take 576⟩ →
      query.domain platform ∈ world.ended → query.domain platform ∉ pending platform world →
      step platform world (.receive source payload) = some after →
      ∀ later final, (∀ kept, .restart kept ∉ later) →
        run (step platform) later after = some final →
        (final.outcomes = after.outcomes ∧ Handles query final.loop ∧
          ∃ label next, loopStep platform final final.loop label = some next) ∨
        ∃ outcome rest, final.outcomes = after.outcomes ++ (query, outcome) :: rest ∧
          (outcome = .answered ∨ outcome = .submitted) := by
  have lawful := lawful_run ran
  refine ⟨lawful.exact'.same, lawful.exact'.once, ?_⟩
  intro source payload query after asked ended alone received later final running rest
  have plain := lawful.exact'.plain _ (.inr ended)
  have stepped := step_stepped received
  have begun : Progress platform query after.outcomes after := by
    cases stepped with
    | receive _ _ other here same =>
        have none : query.domain platform ∉ submitted platform world :=
          fun member => alone (List.mem_append_right _ member)
        exact .inl ⟨rfl, same.trans asked.symm, none⟩
  rcases progress_run plain (lawful_step lawful stepped) begun running rest with
    ⟨unfinished, handles, -⟩ | finished
  · exact .inl ⟨unfinished, handles, handles_goes_on handles⟩
  · exact .inr finished

theorem pending_exact_resolved :
    ∃ world, run (step asciiPlatform) (resolvedAfter [] ++ [.remove 0]) .start = some world ∧
      world.ended = [ascii "a.com"] ∧
      ∀ name, name ∈ world.domains ↔ name ∈ pending asciiPlatform world := by
  have shown : (run (step asciiPlatform) (resolvedAfter [] ++ [.remove 0]) .start).any
      (fun world => decide (world.ended = [ascii "a.com"])) = true := by decide +kernel
  obtain ⟨world, ran, ended⟩ := (Option.any_eq_true _ _).mp shown
  exact ⟨world, ran, of_decide_eq_true ended, (pending_exact asciiPlatform ran).1⟩

/-- The first query after the end of a worker finds another worker, of a query that was received
before. -/
def overtaken : List Label :=
  [.receive (localPort 4001) (queryFor 1 97 1), .look true, .enter, .submit,
    .receive (localPort 4002) (queryFor 2 97 1), .look true, .fetch 0 .missing, .remove 0,
    .enter, .submit]

theorem pending_inexact :
    (∃ world, run (step asciiPlatform) [.receive (localPort 4001) (queryFor 1 97 1), .look true,
        .enter] .start = some world ∧
      ¬∀ name, name ∈ world.domains ↔ name ∈ submitted asciiPlatform world) ∧
    ∃ world final, run (step asciiPlatform) overtaken .start = some world ∧
      ascii "a.com" ∈ world.ended ∧
      run (step asciiPlatform) [.receive (localPort 4003) (queryFor 3 97 1), .look true, .enter]
        world = some final ∧
      final.outcomes.getLast? =
        some (⟨localPort 4003, queryFor 3 97 1⟩, .ignored) := by
  constructor
  · have shown : (run (step asciiPlatform) [.receive (localPort 4001) (queryFor 1 97 1),
        .look true, .enter] .start).any (fun world => decide (ascii "a.com" ∈ world.domains ∧
          ascii "a.com" ∉ submitted asciiPlatform world)) = true := by decide +kernel
    obtain ⟨world, ran, facts⟩ := (Option.any_eq_true _ _).mp shown
    obtain ⟨inside, outside⟩ := of_decide_eq_true facts
    exact ⟨world, ran, fun same => outside ((same _).mp inside)⟩
  · have shown : (run (step asciiPlatform) overtaken .start).any (fun world =>
        decide (ascii "a.com" ∈ world.ended) &&
          (run (step asciiPlatform) [.receive (localPort 4003) (queryFor 3 97 1), .look true,
            .enter] world).any fun final => decide (final.outcomes.getLast? =
              some (⟨localPort 4003, queryFor 3 97 1⟩, .ignored))) = true := by
      decide +kernel
    obtain ⟨world, ran, facts⟩ := (Option.any_eq_true _ _).mp shown
    obtain ⟨ended, later⟩ := Bool.and_eq_true_iff.mp facts
    obtain ⟨final, rest, last⟩ := (Option.any_eq_true _ _).mp later
    exact ⟨world, final, ran, of_decide_eq_true ended, rest, of_decide_eq_true last⟩

end ProxySet.Droid.Dns
