import Mathlib.Data.List.Nodup
import ProxySet.Redsocks.AuditCore
import ProxySet.Redsocks.Client
import ProxySet.Lib.StepRun

/-!
The life cycle of a client under failing calls: it is not used once it has been
dropped, it is dropped at most once, and every line its handlers have read is freed
exactly once.
-/

namespace ProxySet.Audit

open TokenReader

/-- The lines in `held` and the kept first line are still to be freed, all others have been, once. -/
def Balanced (held : List Nat) (ledger : Ledger) : Prop :=
  (ledger.released ++ (ledger.firstline.toList ++ held)).Perm (List.range ledger.lines)

namespace Balanced

variable {held : List Nat} {ledger : Ledger} {line : Nat}

theorem readline (balanced : Balanced held ledger) :
    Balanced (ledger.lines :: held) ledger.readline := by
  show (ledger.released ++ (ledger.firstline.toList ++ ledger.lines :: held)).Perm
    (List.range (ledger.lines + 1))
  rw [List.range_succ, ← List.append_assoc]
  refine List.perm_middle.trans ?_
  rw [List.append_assoc]
  exact (List.Perm.cons ledger.lines balanced).trans (List.perm_append_singleton _ _).symm

theorem perm {other : List Nat} (balanced : Balanced held ledger) (same : held.Perm other) :
    Balanced other ledger :=
  (List.Perm.append_left _ (List.Perm.append_left _ same.symm)).trans balanced

theorem free (balanced : Balanced (line :: held) ledger) : Balanced held (ledger.free line) := by
  show (line :: ledger.released ++ (ledger.firstline.toList ++ held)).Perm (List.range ledger.lines)
  rw [List.cons_append, ← List.append_assoc]
  refine List.perm_middle.symm.trans ?_
  rw [List.append_assoc]
  exact balanced

theorem pass (balanced : Balanced held ledger) : Balanced held ledger.pass :=
  balanced.readline.free

theorem keep (balanced : Balanced (line :: held) ledger) (none : ledger.firstline = none) :
    Balanced held (ledger.keep line) := by
  simpa [Balanced, Ledger.keep, none] using balanced

theorem freeFirstline (balanced : Balanced held ledger) : Balanced held ledger.freeFirstline := by
  show ((ledger.firstline.toList ++ ledger.released) ++ held).Perm (List.range ledger.lines)
  refine List.Perm.trans ?_ balanced
  rw [← List.append_assoc]
  exact List.Perm.append_right held List.perm_append_comm

theorem released_once (balanced : Balanced [] ledger) (none : ledger.firstline = none)
    {line : Nat} (read : line < ledger.lines) : ledger.released.count line = 1 := by
  have perm : ledger.released.Perm (List.range ledger.lines) := by
    simpa [Balanced, none] using balanced
  rw [perm.count_eq]
  exact List.count_eq_one_of_mem List.nodup_range (List.mem_range.mpr read)

end Balanced

/-- Both sides are not done yet, and one side is shut for writing only behind the other's EOF. -/
structure EvshutSound (client : Client) : Prop where
  room : client.bothShut = false
  behind : ∀ side, (client.evshut side.other).write = true → (client.evshut side).read = true

theorem EvshutSound.same {before after : Client} (sound : EvshutSound before)
    (clientEvshut : after.clientEvshut = before.clientEvshut)
    (relayEvshut : after.relayEvshut = before.relayEvshut) : EvshutSound after := by
  have evshut : ∀ side, after.evshut side = before.evshut side := by
    intro side
    cases side
    · exact clientEvshut
    · exact relayEvshut
  refine ⟨?_, fun side written => ?_⟩
  · rw [Client.bothShut, clientEvshut, relayEvshut]
    exact sound.room
  · rw [evshut] at written ⊢
    exact sound.behind side written

@[simp] theorem evshut_shutOne_self (client : Client) (side : Side) (how : How) :
    (shutOne side how client).evshut side = (client.evshut side).union how.events := by
  simp [shutOne]

@[simp] theorem evshut_shutOne_other (client : Client) (side : Side) (how : How) :
    (shutOne side how client).evshut side.other = client.evshut side.other := by
  simp [shutOne]

theorem EvshutSound.behind_shutOne {client : Client} (sound : EvshutSound client) {side : Side}
    {how : How} (after : how.events.write = true → (client.evshut side.other).read = true) :
    ∀ which, ((shutOne side how client).evshut which.other).write = true →
      ((shutOne side how client).evshut which).read = true := by
  intro which written
  rcases Side.eq_or_eq_other which side with rfl | rfl
  · rw [evshut_shutOne_other] at written
    simp [sound.behind which written]
  · rw [Side.other_other, evshut_shutOne_self] at written
    rw [evshut_shutOne_other]
    simp only [EvBits.union_write, Bool.or_eq_true] at written
    rcases written with before | now
    · exact sound.behind side.other (by rwa [Side.other_other])
    · exact after now

/-- EOF on one side never finds both sides done: the other side is shut for writing only behind it. -/
theorem EvshutSound.shutOne_rd {client : Client} (sound : EvshutSound client) (side : Side) :
    EvshutSound (shutOne side .rd client) := by
  refine ⟨?_, sound.behind_shutOne (fun never => by simp [How.events, EvBits.evRead] at never)⟩
  rw [Bool.eq_false_iff, ne_eq, Client.bothShut_iff _ side, evshut_shutOne_self, evshut_shutOne_other]
  rintro ⟨own, others⟩
  have read : (client.evshut side).read = true := sound.behind side (by simp [others, EvBits.both])
  have write : (client.evshut side).write = true := by
    have joined := congrArg EvBits.write own
    simpa [How.events, EvBits.evRead, EvBits.both] using joined
  have full : client.evshut side = EvBits.both := by
    cases bits : client.evshut side with
    | mk isRead isWrite => simp_all [EvBits.both]
  have done := (Client.bothShut_iff client side).mpr ⟨full, others⟩
  simp [sound.room] at done

/-- The client has not been dropped, and `held` are the lines the running handler has to free. -/
structure Alive (held : List Nat) (audited : Audited) : Prop where
  drops : audited.ledger.drops = 0
  staleUses : audited.ledger.staleUses = 0
  balanced : Balanced held audited.ledger
  firstline : audited.world.client.httpr.firstline = none → audited.ledger.firstline = none
  subsys : audited.ledger.firstline ≠ none → audited.world.client.subsys = .httpRelay
  reader : ∀ side, (audited.world.client.buf side).readcb = .httprClient →
    audited.world.client.subsys = .httpRelay

structure Live (held : List Nat) (audited : Audited) : Prop extends Alive held audited where
  evshut : EvshutSound audited.world.client

structure Gone (held : List Nat) (audited : Audited) : Prop where
  drops : audited.ledger.drops = 1
  staleUses : audited.ledger.staleUses = 0
  balanced : Balanced held audited.ledger
  firstline : audited.ledger.firstline = none
  dropped : audited.world.client.dropped = true

def Settles (held : List Nat) (audited : Audited) : Prop :=
  Live held audited ∨ Gone held audited

structure Kept (before after : Client) : Prop where
  subsys : after.subsys = before.subsys
  firstline : after.httpr.firstline = before.httpr.firstline
  clientReader : after.client.readcb = .httprClient → before.client.readcb = .httprClient
  relayReader : after.relay.readcb = .httprClient → before.relay.readcb = .httprClient

structure Same (before after : Client) : Prop extends Kept before after where
  clientEvshut : after.clientEvshut = before.clientEvshut
  relayEvshut : after.relayEvshut = before.relayEvshut

theorem Kept.reader {before after : Client} (kept : Kept before after) {side : Side}
    (reads : (after.buf side).readcb = .httprClient) :
    (before.buf side).readcb = .httprClient := by
  cases side
  · exact kept.clientReader reads
  · exact kept.relayReader reads

theorem Same.refl (client : Client) : Same client client := ⟨⟨rfl, rfl, id, id⟩, rfl, rfl⟩

theorem Same.trans {first second third : Client} (start : Same first second)
    (rest : Same second third) : Same first third :=
  ⟨⟨rest.subsys.trans start.subsys, rest.firstline.trans start.firstline,
    start.clientReader ∘ rest.clientReader, start.relayReader ∘ rest.relayReader⟩,
    rest.clientEvshut.trans start.clientEvshut, rest.relayEvshut.trans start.relayEvshut⟩

theorem Same.modify (client : Client) (side : Side) {change : Bufferevent → Bufferevent}
    (readcb : (change (client.buf side)).readcb = (client.buf side).readcb) :
    Same client (client.modify side change) := by
  cases side
  · exact ⟨⟨rfl, rfl, fun reads => readcb.symm.trans reads, id⟩, rfl, rfl⟩
  · exact ⟨⟨rfl, rfl, id, fun reads => readcb.symm.trans reads⟩, rfl, rfl⟩

theorem Same.call (client : Client) (entry : Call) : Same client (client.call entry) :=
  ⟨⟨rfl, rfl, id, id⟩, rfl, rfl⟩

theorem Same.enable (client : Client) (side : Side) (events : EvBits) :
    Same client (client.enable side events) :=
  (Same.call client _).trans (.modify _ side rfl)

theorem Same.disable (client : Client) (side : Side) (events : EvBits) :
    Same client (client.disable side events) :=
  .modify client side rfl

theorem Same.writeBuffer (client : Client) (source target : Side) :
    Same client (client.writeBuffer source target) :=
  Same.trans (.modify client target rfl) (.modify _ source rfl)

theorem use_of_drops {ledger : Ledger} (drops : ledger.drops = 0) : ledger.use = ledger :=
  if_pos drops

namespace Alive

variable {held : List Nat} {audited : Audited}

theorem onBuffer (alive : Alive held audited) {change : Client → Client}
    (kept : Kept audited.world.client (change audited.world.client)) :
    Alive held (audited.onBuffer change) := by
  refine ⟨alive.drops, alive.staleUses, alive.balanced, ?_, ?_, ?_⟩
  · intro none
    exact alive.firstline (kept.firstline.symm.trans none)
  · intro some
    exact kept.subsys.trans (alive.subsys some)
  · intro side reads
    exact kept.subsys.trans (alive.reader side (kept.reader reads))

theorem onClient_eq (alive : Alive held audited) (change : Client → Client) :
    audited.onClient change = audited.onBuffer change := by
  simp [Audited.onClient, Audited.onBuffer, use_of_drops alive.drops]

theorem log (alive : Alive held audited) (message : LogMsg) : Alive held (audited.log message) := by
  rw [Audited.log, alive.onClient_eq]
  exact alive.onBuffer (Same.call _ _).toKept

theorem fini (alive : Alive held audited) :
    Alive held audited.fini ∧ audited.fini.ledger.firstline = none := by
  unfold Audited.fini
  rw [alive.onClient_eq]
  by_cases relay : audited.world.client.subsys = .httpRelay
  · rw [if_pos relay]
    exact ⟨⟨alive.drops, alive.staleUses, alive.balanced.freeFirstline, fun _ => rfl,
      fun kept => absurd rfl kept, fun _ _ => relay⟩, rfl⟩
  · rw [if_neg relay]
    have none : audited.ledger.firstline = none := by
      by_contra kept
      exact relay (alive.subsys kept)
    refine ⟨⟨alive.drops, alive.staleUses, alive.balanced, fun _ => none,
      fun kept => absurd none kept, fun side reads => ?_⟩, none⟩
    cases side
    · exact alive.reader .client reads
    · exact alive.reader .relay reads

theorem drop (alive : Alive held audited) : Gone held (redsocksDropClient audited) := by
  obtain ⟨finished, none⟩ := (alive.log .droppingClient).fini
  unfold redsocksDropClient
  rw [finished.onClient_eq]
  refine ⟨?_, finished.staleUses, finished.balanced, none, rfl⟩
  show (audited.log .droppingClient).fini.ledger.drops + 1 = 1
  rw [finished.drops]

end Alive

namespace Live

variable {held : List Nat} {audited : Audited} {line : Nat}

theorem settles (live : Live held audited) : Settles held audited := Or.inl live

theorem use (live : Live held audited) : Live held audited.use := by
  have same : audited.use = audited := by
    simp [Audited.use, use_of_drops live.drops]
  rw [same]
  exact live

theorem onBuffer (live : Live held audited) {change : Client → Client}
    (same : Same audited.world.client (change audited.world.client)) :
    Live held (audited.onBuffer change) :=
  ⟨live.toAlive.onBuffer same.toKept,
    live.evshut.same same.clientEvshut same.relayEvshut⟩

theorem onClient (live : Live held audited) (change : Client → Client)
    (same : Same audited.world.client (change audited.world.client)) :
    Live held (audited.onClient change) := by
  rw [live.onClient_eq]
  exact live.onBuffer same

theorem log (live : Live held audited) (message : LogMsg) : Live held (audited.log message) :=
  live.onClient _ (.call _ _)

theorem readline (live : Live held audited) :
    Live (audited.ledger.lines :: held) (audited.onLedger Ledger.readline) :=
  ⟨⟨live.drops, live.staleUses, live.balanced.readline, live.firstline, live.subsys,
    live.reader⟩, live.evshut⟩

theorem free (live : Live (line :: held) audited) : Live held (audited.onLedger (·.free line)) :=
  ⟨⟨live.drops, live.staleUses, live.balanced.free, live.firstline, live.subsys,
    live.reader⟩, live.evshut⟩

theorem perm {other : List Nat} (live : Live held audited) (same : held.Perm other) :
    Live other audited :=
  ⟨⟨live.drops, live.staleUses, live.balanced.perm same, live.firstline, live.subsys, live.reader⟩,
    live.evshut⟩

theorem withAuth (live : Live held audited) (auth : HttpAuth) :
    Live held { audited with world := { audited.world with auth := auth } } :=
  ⟨⟨live.drops, live.staleUses, live.balanced, live.firstline, live.subsys, live.reader⟩,
    live.evshut⟩

theorem fini (live : Live held audited) : Live held audited.fini := by
  refine ⟨live.toAlive.fini.1, ?_⟩
  unfold Audited.fini
  split
  · exact live.evshut.same rfl rfl
  · exact live.evshut.same rfl rfl

theorem drop (live : Live held audited) : Settles held (redsocksDropClient audited) :=
  Or.inr live.toAlive.drop

theorem logDrop (live : Live held audited) (message : LogMsg) :
    Settles held (redsocksDropClient (audited.log message)) :=
  (live.log message).drop

end Live

theorem Gone.free {held : List Nat} {audited : Audited} {line : Nat}
    (gone : Gone (line :: held) audited) : Gone held (audited.onLedger (·.free line)) :=
  ⟨gone.drops, gone.staleUses, gone.balanced.free, gone.firstline, gone.dropped⟩

theorem Settles.free {held : List Nat} {audited : Audited} {line : Nat}
    (settles : Settles (line :: held) audited) : Settles held (audited.onLedger (·.free line)) := by
  rcases settles with live | gone
  · exact live.free.settles
  · exact Or.inr gone.free

theorem kept_shutOne (client : Client) (side : Side) (how : How) :
    Kept client (shutOne side how client) := by
  cases side
  · exact ⟨rfl, rfl, id, id⟩
  · exact ⟨rfl, rfl, id, id⟩

section Functions

variable {held : List Nat} {audited : Audited} (extras : Extras) (env : Env)

theorem Live.shutdown_rd_eq (live : Live held audited) (side : Side) :
    redsocksShutdown audited side .rd = audited.onBuffer (shutOne side .rd) := by
  have room : (audited.onBuffer (shutOne side .rd)).world.client.bothShut = false :=
    (live.evshut.shutOne_rd side).room
  unfold redsocksShutdown
  simp only [live.onClient_eq, room, Bool.false_eq_true, if_false]

theorem Live.shutdown_rd (live : Live held audited) (side : Side) :
    Live held (redsocksShutdown audited side .rd) := by
  rw [live.shutdown_rd_eq]
  exact ⟨live.toAlive.onBuffer (kept_shutOne _ _ _), live.evshut.shutOne_rd side⟩

theorem Live.shutdown_wr (live : Live held audited) {side : Side}
    (eof : (audited.world.client.evshut side.other).read = true) :
    Settles held (redsocksShutdown audited side .wr) := by
  have alive : Alive held (audited.onClient (shutOne side .wr)) := by
    rw [live.onClient_eq]
    exact live.toAlive.onBuffer (kept_shutOne _ _ _)
  unfold redsocksShutdown
  dsimp only
  split
  · exact Or.inr (alive.log .bothDisconnected).drop
  next room =>
    rw [Bool.not_eq_true] at room
    exact Or.inl ⟨alive, room, live.evshut.behind_shutOne fun _ => eof⟩

theorem Live.eventError (live : Live held audited) (side : Side) (what : What) :
    Settles held (redsocksEventError audited side what) := by
  unfold redsocksEventError
  split
  · have ended := (live.use.shutdown_rd side).use
    have eof : ((redsocksShutdown audited.use side .rd).use.world.client.evshut side).read = true := by
      rw [live.use.shutdown_rd_eq]
      show ((shutOne side .rd audited.world.client).evshut side).read = true
      simp [How.events, EvBits.evRead]
    dsimp only
    split
    · refine ended.shutdown_wr ?_
      rw [Side.other_other]
      exact eof
    · exact ended.settles
  · exact live.logDrop _

theorem Same.attempt {client before : Client} (failed : Bool) {change : Client → Client}
    (kept : Same client before) (changed : Same client (change before)) :
    Same client (attempt failed change before) := by
  unfold Audit.attempt
  split
  · exact kept
  · exact changed

theorem Live.relayReadcb (live : Live held audited) (source target : Side) :
    Live held (redsocksRelayReadcb extras audited source target) := by
  refine live.onClient _ ?_
  split
  · exact .attempt _ (.refl _) (.writeBuffer _ _ _)
  · split
    · exact .disable _ _ _
    · exact .refl _

theorem Live.relayWritecb (live : Live held audited) {source target : Side}
    (opposite : source = target.other) :
    Settles held (redsocksRelayWritecb extras audited source target) := by
  have entered : Live held (audited.onClient (·.call (.relayWritecb target))) :=
    live.onClient _ (.call _ _)
  unfold redsocksRelayWritecb
  dsimp only
  split
  · next done =>
    refine entered.shutdown_wr ?_
    rw [← opposite]
    exact done.2
  · refine (entered.onClient _ ?_).settles
    have moved : ∀ client : Client, Same client
        (Audit.attempt extras.pumpWrite (·.writeBuffer source target) client) :=
      fun client => .attempt _ (.refl _) (.writeBuffer _ _ _)
    split
    · split
      · exact .attempt _ (moved _) ((moved _).trans (.enable _ _ _))
      · exact moved _
    · exact .refl _

theorem same_startPump (client : Client) : Same client (startPump client) :=
  ⟨⟨rfl, rfl, nofun, nofun⟩, rfl, rfl⟩

theorem Live.startRelay (live : Live held audited) :
    Settles held (redsocksStartRelay env audited) := by
  have clientOn : Live held ((audited.fini.onClient startPump).onClient fun client =>
      client.enable .client (EvBits.both.without client.clientEvshut)) :=
    (live.fini.onClient _ (same_startPump _)).onClient _ (.enable _ _ _)
  unfold redsocksStartRelay
  dsimp only
  split
  · exact clientOn.logDrop _
  · have relayOn := clientOn.onClient (fun client =>
      client.enable .relay (EvBits.both.without client.relayEvshut)) (.enable _ _ _)
    split
    · exact relayOn.logDrop _
    · exact relayOn.settles

theorem Live.readExpected (live : Live held audited) (comparator : Nat → Nat → Bool)
    (expected : Nat) :
    (∃ reply read, redsocksReadExpected extras audited comparator expected = (some reply, read) ∧
      Live held read) ∨
      ∃ dropped, redsocksReadExpected extras audited comparator expected = (none, dropped) ∧
        Settles held dropped := by
  unfold redsocksReadExpected
  dsimp only
  split
  · left
    split
    · exact ⟨_, _, rfl, live.use⟩
    · exact ⟨_, _, rfl, live.onClient _ (.modify _ .relay rfl)⟩
  · exact Or.inr ⟨_, rfl, live.logDrop _⟩

theorem Live.writeHelperEx (live : Live held audited) (message : Message) (state : State)
    (wmLow wmHigh : Nat) :
    Settles held (redsocksWriteHelperEx extras env audited message state wmLow wmHigh) := by
  have wait : ∀ {before : Audited}, Live held before →
      Settles held (redsocksWriteHelperWait extras before state wmLow wmHigh) := by
    intro before alive
    refine (alive.onClient _ ?_).settles
    have waiting : Same before.world.client (({ before.world.client with state := state }).modify
        .relay (·.setwatermark EvBits.evRead wmLow wmHigh)) :=
      ⟨⟨rfl, rfl, id, id⟩, rfl, rfl⟩
    exact .attempt _ waiting (waiting.trans (.enable _ _ _))
  cases message with
  | noMaker => exact wait live
  | failed => exact live.drop
  | made data =>
      simp only [redsocksWriteHelperEx]
      split
      · exact live.logDrop _
      · exact wait (live.onClient _ (.modify _ .relay rfl))

theorem Same.newRelay (client : Client) (isOpen : Bool) {buffer : Bufferevent}
    (other : buffer.readcb ≠ .httprClient) :
    Same client { client with relay := buffer, relayOpen := isOpen } :=
  ⟨⟨rfl, rfl, id, fun reads => absurd reads other⟩, rfl, rfl⟩

theorem Live.connectRelay (live : Live held audited) :
    Settles held (redsocksConnectRelay env audited) := by
  unfold redsocksConnectRelay
  split
  · exact Live.logDrop (live.onClient _ (.newRelay _ false (by decide))) _
  · exact (live.onClient _ ((Same.call _ _).trans (.newRelay _ true (by decide)))).settles

theorem Live.socks4ReadCb (live : Live held audited) :
    Settles held (socks4ReadCb extras env audited) := by
  unfold Audit.socks4ReadCb
  split
  · rcases live.use.readExpected extras sizesGreaterEqual 8 with
      ⟨reply, read, taken, alive⟩ | ⟨dropped, taken, settles⟩
    · simp only [taken]
      have came : Live held (read.onClient fun client =>
          { client with state := .socks4 .replyCame }) := alive.onClient _ ⟨⟨rfl, rfl, id, id⟩, rfl, rfl⟩
      split
      · exact came.logDrop _
      · split
        · exact came.startRelay env
        · exact came.logDrop _
    · simp only [taken]
      exact settles
  · exact live.use.settles
  · exact (live.onClient Client.assertFail ⟨⟨rfl, rfl, id, id⟩, rfl, rfl⟩).settles

theorem Live.assertFail (live : Live held audited) :
    Settles held (audited.onClient Client.assertFail) :=
  (live.onClient _ ⟨⟨rfl, rfl, id, id⟩, rfl, rfl⟩).settles

theorem Live.disableWrite (live : Live held audited) :
    Settles held (audited.onClient (·.disable .relay EvBits.evWrite)) :=
  (live.onClient _ ⟨⟨rfl, rfl, id, id⟩, rfl, rfl⟩).settles

theorem Live.socks4WriteCb (live : Live held audited) (config : Config) :
    Settles held (socks4WriteCb extras env config audited) := by
  unfold Audit.socks4WriteCb
  split
  · exact live.use.writeHelperEx extras env _ _ _ _
  · exact live.disableWrite
  · exact live.use.settles

theorem Live.socks5WriteCb (live : Live held audited) :
    Settles held (socks5WriteCb extras env audited) := by
  unfold Audit.socks5WriteCb
  split
  · exact live.use.writeHelperEx extras env _ _ _ _
  · exact live.use.settles

theorem Live.socks5ReadAuthMethods (live : Live held audited) (config : Config) :
    Settles held (socks5ReadAuthMethods extras env config audited) := by
  unfold Audit.socks5ReadAuthMethods
  rcases live.readExpected extras sizesEqual 2 with
    ⟨reply, read, taken, alive⟩ | ⟨dropped, taken, settles⟩
  · simp only [taken]
    split
    · exact alive.logDrop _
    · split
      · exact alive.writeHelperEx extras env _ _ _ _
      · split
        · exact alive.writeHelperEx extras env _ _ _ _
        · exact alive.use.settles
  · simp only [taken]
    exact settles

theorem Live.socks5ReadAuthReply (live : Live held audited) :
    Settles held (socks5ReadAuthReply extras env audited) := by
  unfold Audit.socks5ReadAuthReply
  rcases live.readExpected extras sizesEqual 2 with
    ⟨reply, read, taken, alive⟩ | ⟨dropped, taken, settles⟩
  · simp only [taken]
    split
    · exact alive.logDrop _
    · split
      · exact alive.writeHelperEx extras env _ _ _ _
      · exact alive.drop
  · simp only [taken]
    exact settles

theorem Live.socks5ReadReply (live : Live held audited) :
    Settles held (socks5ReadReply extras env audited) := by
  unfold Audit.socks5ReadReply
  rcases live.readExpected extras sizesGreaterEqual 4 with
    ⟨reply, read, taken, alive⟩ | ⟨dropped, taken, settles⟩
  · have skip : ∀ count : Nat, Live held (read.onClient fun client =>
        { client with socks5 := { client.socks5 with toSkip := count } }) :=
      fun count => alive.onClient _ ⟨⟨rfl, rfl, id, id⟩, rfl, rfl⟩
    simp only [taken]
    split
    · exact alive.logDrop _
    · split
      · split
        · exact (skip 6).writeHelperEx extras env _ _ _ _
        · split
          · exact (skip 18).writeHelperEx extras env _ _ _ _
          · split
            · exact alive.writeHelperEx extras env _ _ _ _
            · exact alive.logDrop _
      · exact alive.logDrop _
  · simp only [taken]
    exact settles

theorem Live.socks5ReadCb (live : Live held audited) (config : Config) :
    Settles held (socks5ReadCb extras env config audited) := by
  unfold Audit.socks5ReadCb
  split
  · exact live.use.socks5ReadAuthMethods extras env config
  · exact live.use.socks5ReadAuthReply extras env
  · exact live.use.socks5ReadReply extras env
  · rcases live.use.readExpected extras sizesGreaterEqual 1 with
      ⟨size, read, taken, alive⟩ | ⟨dropped, taken, settles⟩
    · simp only [taken]
      exact Live.writeHelperEx extras env (alive.onClient _ ⟨⟨rfl, rfl, id, id⟩, rfl, rfl⟩) _ _ _ _
    · simp only [taken]
      exact settles
  · rcases live.use.readExpected extras sizesGreaterEqual audited.world.client.socks5.toSkip with
      ⟨reply, read, taken, alive⟩ | ⟨dropped, taken, settles⟩
    · simp only [taken]
      exact alive.startRelay env
    · simp only [taken]
      exact settles
  · exact live.use.drop

structure Passed (before after : Ledger) : Prop where
  drops : after.drops = before.drops
  staleUses : after.staleUses = before.staleUses
  firstline : after.firstline = before.firstline
  balanced : ∀ held, Balanced held before → Balanced held after

theorem Passed.refl (ledger : Ledger) : Passed ledger ledger :=
  ⟨rfl, rfl, rfl, fun _ balanced => balanced⟩

theorem Passed.pass {before after : Ledger} (passed : Passed before after) :
    Passed before after.pass :=
  ⟨passed.drops, passed.staleUses, passed.firstline,
    fun held balanced => (passed.balanced held balanced).pass⟩

theorem Live.withLedger (live : Live held audited) {ledger : Ledger}
    (passed : Passed audited.ledger ledger) : Live held { audited with ledger := ledger } := by
  refine ⟨⟨passed.drops.trans live.drops, passed.staleUses.trans live.staleUses,
    passed.balanced held live.balanced, ?_, ?_, live.reader⟩, live.evshut⟩
  · intro none
    exact passed.firstline.trans (live.firstline none)
  · intro kept
    exact live.subsys fun none => kept (passed.firstline.trans none)

theorem Live.httpcSkipHeaders (live : Live held audited) :
    Settles held (httpcSkipHeaders env audited) := by
  unfold Audit.httpcSkipHeaders
  have passed := redsocksEvbufferReadline.drain_invariant skipLine
    (fun reply => httpcSkipDone reply.1) (fun reply => Passed audited.ledger reply.2)
    (fun reply line _ before => before.pass) (.replyCame, audited.ledger)
    audited.world.client.relay.input (.refl _)
  generalize redsocksEvbufferReadline.drain skipLine (fun reply => httpcSkipDone reply.1)
    (.replyCame, audited.ledger) audited.world.client.relay.input = drained at passed ⊢
  obtain ⟨⟨state, ledger⟩, rest⟩ := drained
  have read := (live.withLedger passed).onClient (fun client =>
    { client.setInput .relay rest with state := .httpc state }) ⟨⟨rfl, rfl, id, id⟩, rfl, rfl⟩
  dsimp only
  split
  · exact read.startRelay env
  · exact read.settles

theorem Live.httprRelayPump (live : Live held audited) :
    Settles held (httprRelayPump env audited) := by
  unfold Audit.httprRelayPump
  split
  · exact live.logDrop _
  · exact Live.startRelay env (live.onClient _ (.modify _ .client rfl))

theorem Live.httprRelayReply (live : Live held audited) :
    Settles held (httprRelayReply env audited) := by
  unfold Audit.httprRelayReply
  have passed := redsocksEvbufferReadline.drain_invariant replyLine
    (fun reply => httprReplyDone reply.1) (fun reply => Passed audited.ledger reply.2)
    (fun reply line _ before => before.pass)
    ((.replyCame, audited.world.client.httpr.relayBuffer), audited.ledger)
    audited.world.client.relay.input (.refl _)
  generalize redsocksEvbufferReadline.drain replyLine (fun reply => httprReplyDone reply.1)
    ((.replyCame, audited.world.client.httpr.relayBuffer), audited.ledger)
    audited.world.client.relay.input = drained at passed ⊢
  obtain ⟨⟨⟨state, relayBuffer⟩, ledger⟩, rest⟩ := drained
  have read := (live.withLedger passed).onClient (fun client =>
    { (client.setInput .relay rest).setRelayBuffer relayBuffer with state := .httpr state })
    ⟨⟨rfl, rfl, id, id⟩, rfl, rfl⟩
  dsimp only
  split
  · exact read.httprRelayPump env
  · exact read.settles

/-- What the search for the challenge has done to the ledger: it holds on to the line it has found. -/
structure Searched (before : Ledger) (state : AuthSearch) : Prop where
  drops : state.ledger.drops = before.drops
  staleUses : state.ledger.staleUses = before.staleUses
  firstline : state.ledger.firstline = before.firstline
  balanced : ∀ held, Balanced held before → Balanced (state.found.toList ++ held) state.ledger
  missing : (∀ challenge, state.search ≠ .found challenge) → state.found = none

theorem Searched.look {before : Ledger} {state : AuthSearch} (searched : Searched before state)
    (running : state.isDone = false) (line : Bytes) : Searched before (state.look line) := by
  have start : state.search = .searching := by
    cases search : state.search <;> simp_all [AuthSearch.isDone, HeaderSearch.isDone]
  have none := searched.missing (by simp [start])
  have balanced : ∀ held, Balanced held before → Balanced held state.ledger := by
    intro held before
    simpa [none] using searched.balanced held before
  unfold AuthSearch.look
  dsimp only
  split
  next challenge found =>
    exact ⟨searched.drops, searched.staleUses, searched.firstline,
      fun held before => (balanced held before).readline, fun never => absurd found (never challenge)⟩
  next =>
    refine ⟨searched.drops, searched.staleUses, searched.firstline, fun held before => ?_,
      fun _ => none⟩
    rw [none]
    exact (balanced held before).pass

theorem getAuthRequestHeader_searched (ledger : Ledger) (buffer : Bytes) :
    Searched ledger (getAuthRequestHeader ledger buffer).1 :=
  redsocksEvbufferReadline.drain_invariant AuthSearch.look AuthSearch.isDone (Searched ledger)
    (fun _ line running searched => searched.look running line) _ buffer
    ⟨rfl, rfl, rfl, fun _ balanced => balanced, fun _ => rfl⟩

theorem AuthSearch.look_search (state : AuthSearch) (line : Bytes) :
    (state.look line).search = state.search.look line := by
  unfold AuthSearch.look
  dsimp only
  split
  · rfl
  · rfl

theorem getAuthRequestHeader_eq (ledger : Ledger) (buffer : Bytes) :
    redsocksEvbufferReadline.drain HeaderSearch.look HeaderSearch.isDone .searching buffer =
      ((getAuthRequestHeader ledger buffer).1.search, (getAuthRequestHeader ledger buffer).2) :=
  redsocksEvbufferReadline.drain_map HeaderSearch.look HeaderSearch.isDone AuthSearch.look
    AuthSearch.isDone AuthSearch.search AuthSearch.look_search (fun _ => rfl)
    { search := .searching, found := none, ledger := ledger } buffer

/-- The proxy asks for credentials that are there, and its answer has no challenge. -/
def unchallenged (world : World) : Bool :=
  !(world.auth.lastAuthQuery.isSome && world.auth.lastAuthCount == 1) &&
    world.config.login.isSome && world.config.password.isSome &&
      (ProxySet.getAuthRequestHeader world.client.relay.input).1.isNone

theorem found_of_challenged {world : World} (ledger : Ledger)
    (challenged : unchallenged world = false)
    (fresh : ¬(world.auth.lastAuthQuery.isSome ∧ world.auth.lastAuthCount = 1))
    (login : ¬(world.config.login.isNone ∨ world.config.password.isNone)) :
    ∃ challenge, (getAuthRequestHeader ledger world.client.relay.input).1.search = .found challenge := by
  have present : (ProxySet.getAuthRequestHeader world.client.relay.input).1.isNone = false := by
    have unasked : (world.auth.lastAuthQuery.isSome && world.auth.lastAuthCount == 1) = false := by
      simpa using fresh
    simp only [not_or, Bool.not_eq_true, Option.isNone_eq_false_iff] at login
    simpa [unchallenged, unasked, login.1, login.2] using challenged
  unfold ProxySet.getAuthRequestHeader at present
  rw [getAuthRequestHeader_eq ledger] at present
  cases search : (getAuthRequestHeader ledger world.client.relay.input).1.search with
  | found challenge => exact ⟨challenge, rfl⟩
  | searching => simp [search] at present
  | absent => simp [search] at present

theorem Live.searched (live : Live held audited) (buffer : Bytes) :
    Live ((getAuthRequestHeader audited.ledger buffer).1.found.toList ++ held)
      { audited with ledger := (getAuthRequestHeader audited.ledger buffer).1.ledger } := by
  have searched := getAuthRequestHeader_searched audited.ledger buffer
  refine ⟨⟨searched.drops.trans live.drops, searched.staleUses.trans live.staleUses,
    searched.balanced held live.balanced, ?_, ?_, live.reader⟩, live.evshut⟩
  · intro none
    exact searched.firstline.trans (live.firstline none)
  · intro kept
    exact live.subsys fun none => kept (searched.firstline.trans none)

theorem Live.freeFound {found : Option Nat} (live : Live (found.toList ++ held) audited) :
    Live held (audited.onLedger fun ledger => found.elim ledger ledger.free) := by
  cases found with
  | none => exact live
  | some line => exact live.free

theorem Live.reconnect {found : Option Nat} (live : Live (found.toList ++ held) audited)
    (auth : HttpAuth) (retry : State) :
    Settles held (redsocksConnectRelay env ((({ audited with
      world := { audited.world with auth := auth } } : Audited).onLedger fun ledger =>
        found.elim ledger ledger.free).onClient fun client =>
          { (client.disable .relay EvBits.evWrite).call .closeRelay with state := retry })) :=
  Live.connectRelay env ((live.withAuth auth).freeFound.onClient _ ⟨⟨rfl, rfl, id, id⟩, rfl, rfl⟩)

theorem Live.authRequired {line : Nat} (live : Live (line :: held) audited) (frees : FreesLine)
    (retry : State) (challenged : frees = .early → unchallenged audited.world = false) :
    Settles held (authRequired frees env audited line retry) := by
  unfold Audit.authRequired
  dsimp only
  split
  · exact (live.logDrop _).free
  next fresh =>
    split
    · exact (live.logDrop _).free
    next login =>
      cases frees with
      | early =>
          simp only [if_true]
          have searched := live.free.searched audited.world.client.relay.input
          obtain ⟨challenge, found⟩ := found_of_challenged
            (audited.onLedger fun ledger => ledger.free line).ledger (challenged rfl) fresh login
          rw [found]
          exact (searched.onClient (·.setInput .relay _) (.modify _ .relay rfl)).reconnect env _ retry
      | late =>
          have searched := live.searched audited.world.client.relay.input
          have missing := (getAuthRequestHeader_searched audited.ledger
            audited.world.client.relay.input).missing
          simp only [reduceCtorEq, if_false]
          have taken := searched.onClient (·.setInput .relay (getAuthRequestHeader audited.ledger
            audited.world.client.relay.input).2) (.modify _ .relay rfl)
          split
          next challenge found =>
            exact (taken.perm List.perm_middle).free.reconnect env _ retry
          next never =>
            rw [missing never] at taken
            exact (taken.logDrop _).free

theorem Live.httpcReadCb (live : Live held audited) : Settles held (httpcReadCb env audited) := by
  unfold Audit.httpcReadCb
  dsimp only
  split
  · split
    next text rest found =>
      have taken := live.readline.onClient (·.setInput .relay rest) (.modify _ .relay rfl)
      split
      · split
        · exact taken.authRequired env .late _ (fun early => by cases early)
        · split
          · refine Live.httpcSkipHeaders env (Live.free ?_)
            exact taken.onClient _ ⟨⟨rfl, rfl, id, id⟩, rfl, rfl⟩
          · exact (taken.logDrop _).free
      · exact taken.free.settles
    next =>
      split
      · exact live.use.drop
      · exact live.use.settles
  · exact live.use.httpcSkipHeaders env
  · exact live.use.startRelay env
  · exact live.assertFail

theorem Live.httpcWriteCb (live : Live held audited) :
    Settles held (httpcWriteCb extras env audited) := by
  unfold Audit.httpcWriteCb
  dsimp only
  split
  · split
    · exact live.use.drop
    · exact Live.writeHelperEx extras env ((live.withAuth _).onClient _ (.call _ _)) _ _ _ _
  · exact live.disableWrite
  · exact live.use.settles

/-- A status line 407 that is answered with a second `free`. -/
def losesChallenge (world : World) : Bool :=
  match world.client.state, redsocksEvbufferReadline.next world.client.relay.input with
  | .httpr .requestSent, some (line, rest) =>
      sscanfHttpStatus line == some 407 &&
        unchallenged (world.withClient (world.client.setInput .relay rest))
  | _, _ => false

theorem Live.httprRelayReadCb (live : Live held audited)
    (answered : losesChallenge audited.world = false) :
    Settles held (httprRelayReadCb env audited) := by
  have entered := live.onClient (·.setRelayBuffer []) ⟨⟨rfl, rfl, id, id⟩, rfl, rfl⟩
  unfold Audit.httprRelayReadCb
  dsimp only
  split
  next sent =>
    split
    next text rest found =>
      have taken := entered.readline.onClient (fun client =>
        (client.setInput .relay rest).setRelayBuffer (httprAddLine [] text))
        ⟨⟨rfl, rfl, id, id⟩, rfl, rfl⟩
      split
      next code status =>
        split
        next denied =>
          refine taken.authRequired env .early _ fun _ => ?_
          have state : audited.world.client.state = .httpr .requestSent := sent
          have next : redsocksEvbufferReadline.next audited.world.client.relay.input =
            some (text, rest) := found
          have challenged : unchallenged (audited.world.withClient
              (audited.world.client.setInput .relay rest)) = false := by
            simpa [losesChallenge, state, next, status, denied] using answered
          exact challenged
        next =>
          split
          · refine Live.httprRelayReply env (Live.free ?_)
            exact taken.onClient _ ⟨⟨rfl, rfl, id, id⟩, rfl, rfl⟩
          · exact (taken.logDrop _).free
      next => exact taken.free.settles
    next =>
      split
      · exact entered.drop
      · exact entered.settles
  next => exact entered.httprRelayReply env
  next => exact entered.httprRelayPump env
  next => exact entered.assertFail

theorem Live.httprSendRequest (live : Live held audited) (credentials : Option (Bytes × Bytes))
    (challenge : Option Bytes) :
    Settles held (httprSendRequest extras env audited credentials challenge) := by
  unfold Audit.httprSendRequest
  dsimp only
  split
  · exact live.logDrop _
  · split
    · exact live.logDrop _
    · refine (live.onClient _ ?_).settles
      exact .attempt _ ⟨⟨rfl, rfl, id, id⟩, rfl, rfl⟩ ⟨⟨rfl, rfl, id, id⟩, rfl, rfl⟩

theorem Live.httprRelayWriteCb (live : Live held audited) :
    Settles held (httprRelayWriteCb extras env audited) := by
  unfold Audit.httprRelayWriteCb
  dsimp only
  split
  · split
    · exact live.logDrop _
    · have started := (live.withAuth audited.world.auth.count).onClient (fun client =>
        client.modify .relay (·.write (client.httpr.firstline.getD []))) (.modify _ .relay rfl)
      split
      · exact started.logDrop _
      · exact started.httprSendRequest extras env _ _
  · exact live.assertFail
  · exact live.use.settles
  · exact live.assertFail

theorem Live.httprClientReadContent (live : Live held audited) :
    Settles held (httprClientReadContent env audited) := by
  unfold Audit.httprClientReadContent
  dsimp only
  split
  · exact live.logDrop _
  · split
    · exact live.logDrop _
    · have kept := live.onClient (fun client => { client.setInput .client [] with
          httpr := { client.httpr with
            clientBuffer := client.httpr.clientBuffer ++ audited.world.client.client.input } })
        ⟨⟨rfl, rfl, id, id⟩, rfl, rfl⟩
      split
      · exact kept.settles
      · split
        · exact kept.logDrop _
        · exact (kept.onClient _ (.modify _ .relay rfl)).settles

structure HeadersRead (before : Ledger) (state : HttprRead × Ledger) : Prop where
  drops : state.2.drops = before.drops
  staleUses : state.2.staleUses = before.staleUses
  balanced : ∀ held, Balanced held before → Balanced held state.2
  firstline : state.1.httpr.firstline = none → state.2.firstline = none

theorem HttprRead.append_firstline (read : HttprRead) (line : Bytes) :
    (read.append env line).httpr.firstline = read.httpr.firstline := by
  unfold HttprRead.append
  split
  · rfl
  · rfl

theorem HttprRead.finish_firstline (read : HttprRead) (address : SockaddrIn) :
    (read.finish env address).httpr.firstline = (read.toss env address).httpr.firstline := by
  unfold HttprRead.finish
  dsimp only
  simp only [HttprRead.append_firstline]
  split
  · rfl
  · exact HttprRead.append_firstline env _ _

theorem HttprRead.line_firstline (address : SockaddrIn) (read : HttprRead) {line : Bytes}
    (started : read.httpr.firstline.isNone = false) (more : line.isEmpty = false) :
    (read.line env address line).httpr.firstline = read.httpr.firstline := by
  unfold HttprRead.line
  simp only [more, started, Bool.false_eq_true, if_false]
  split
  · exact HttprRead.append_firstline env _ _
  · split
    · rfl
    · split
      · rfl
      · exact HttprRead.append_firstline env _ _

theorem HttprRead.toss_firstline {read : HttprRead} {address : SockaddrIn}
    (absent : (read.toss env address).httpr.firstline = none) : read.httpr.firstline = none := by
  unfold HttprRead.toss at absent
  split at absent
  next missing => exact Option.isNone_iff_eq_none.mp missing
  next =>
    split at absent
    · exact absent
    · cases absent

theorem HeadersRead.line {before : Ledger} {state : HttprRead × Ledger} (address : SockaddrIn)
    (done : HeadersRead before state) (line : Bytes) :
    HeadersRead before (clientLine env address state line) := by
  obtain ⟨read, ledger⟩ := state
  cases blank : line.isEmpty with
  | true =>
      have finished : (read.line env address line).httpr.firstline =
          (read.toss env address).httpr.firstline := by
        rw [HttprRead.line, if_pos blank]
        exact HttprRead.finish_firstline env read address
      unfold clientLine
      simp only [blank, if_true]
      split
      · exact ⟨done.drops, done.staleUses,
          fun held balanced => (done.balanced held balanced).readline.freeFirstline.free, fun _ => rfl⟩
      · refine ⟨done.drops, done.staleUses,
          fun held balanced => (done.balanced held balanced).pass, fun none => ?_⟩
        exact done.firstline (HttprRead.toss_firstline env (finished.symm.trans none))
  | false =>
      unfold clientLine
      simp only [blank, Bool.false_eq_true, if_false]
      split
      next missing =>
        have none := done.firstline (Option.isNone_iff_eq_none.mp missing)
        refine ⟨done.drops, done.staleUses,
          fun held balanced => (done.balanced held balanced).readline.keep none, fun none => ?_⟩
        rw [HttprRead.line, if_neg (by simp [blank]), if_pos missing] at none
        cases none
      next present =>
        rw [Bool.not_eq_true] at present
        refine ⟨done.drops, done.staleUses,
          fun held balanced => (done.balanced held balanced).pass, fun none => ?_⟩
        exact done.firstline ((HttprRead.line_firstline env address read present blank).symm.trans none)

/-- The header of a request ends, and the call behind it fails to read on. -/
def losesContent (env : Env) (world : World) : Bool :=
  match world.client.state with
  | .httpr .new =>
      let read := (redsocksEvbufferReadline.drain (HttprRead.line env world.client.destaddr)
        HttprRead.isDone
        { httpr := world.client.httpr, connectRelay := false, doDrop := false, logs := [] }
        world.client.client.input).1
      read.connectRelay && !read.doDrop && (env.fails .contentAlloc || env.fails .contentRemove)
  | _ => false

theorem Live.readContent_early (live : Live held audited)
    (early : audited.world.client.state.httprRequestSent = false)
    (alloc : env.fails .contentAlloc = false) (remove : env.fails .contentRemove = false) :
    Live held (Audit.httprClientReadContent env audited) := by
  unfold Audit.httprClientReadContent
  simp only [alloc, remove, early, Bool.and_false, Bool.not_false, Bool.or_true, Bool.false_eq_true,
    if_false, if_true]
  exact live.onClient _ ⟨⟨rfl, rfl, id, id⟩, rfl, rfl⟩

theorem Live.httprClientReadCb (live : Live held audited)
    (relay : audited.world.client.subsys = .httpRelay)
    (content : losesContent env audited.world = false) :
    Settles held (httprClientReadCb env audited) := by
  unfold Audit.httprClientReadCb
  dsimp only
  split
  next fresh =>
    have headers := redsocksEvbufferReadline.drain_invariant
      (clientLine env audited.world.client.destaddr) (fun state => state.1.isDone)
      (HeadersRead audited.ledger) (fun _ line _ done => done.line env _ line)
      ({ httpr := audited.world.client.httpr, connectRelay := false, doDrop := false, logs := [] },
          audited.ledger.use) audited.world.client.client.input
      (by
        rw [use_of_drops live.drops]
        exact ⟨rfl, rfl, fun _ balanced => balanced, live.firstline⟩)
    have plain := redsocksEvbufferReadline.drain_map (HttprRead.line env audited.world.client.destaddr)
      HttprRead.isDone (clientLine env audited.world.client.destaddr) (fun state => state.1.isDone)
      Prod.fst (fun _ _ => rfl) (fun _ => rfl)
      ({ httpr := audited.world.client.httpr, connectRelay := false, doDrop := false, logs := [] },
          audited.ledger.use) audited.world.client.client.input
    simp only [losesContent, fresh, plain] at content
    generalize redsocksEvbufferReadline.drain (clientLine env audited.world.client.destaddr)
      (fun state => state.1.isDone)
      ({ httpr := audited.world.client.httpr, connectRelay := false, doDrop := false, logs := [] },
          audited.ledger.use) audited.world.client.client.input = drained at headers content ⊢
    obtain ⟨⟨read, ledger⟩, rest⟩ := drained
    have taken : Live held (({ audited with ledger := ledger }).onClient fun client =>
        { client.setInput .client rest with
          httpr := read.httpr, trace := read.logs.map Call.log ++ client.trace }) := by
      have drops : ledger.drops = 0 := headers.drops.trans live.drops
      have same : ({ audited with ledger := ledger } : Audited).ledger.use = ledger :=
        use_of_drops drops
      refine ⟨⟨?_, ?_, ?_, ?_, fun _ => relay, fun _ _ => relay⟩, live.evshut.same rfl rfl⟩
      · rw [Audited.onClient, same]
        exact drops
      · rw [Audited.onClient, same]
        exact headers.staleUses.trans live.staleUses
      · rw [Audited.onClient, same]
        exact headers.balanced held live.balanced
      · rw [Audited.onClient, same]
        exact headers.firstline
    split
    · exact taken.drop
    next keeps =>
      split
      next connects =>
        have works : env.fails .contentAlloc = false ∧ env.fails .contentRemove = false := by
          simp_all
        have asked := taken.onClient (fun client =>
          { client with state := .httpr .recvRequestHeaders }) ⟨⟨rfl, rfl, id, id⟩, rfl, rfl⟩
        exact (asked.readContent_early env rfl works.1 works.2).connectRelay env
      next => exact taken.settles
  next => exact live.use.httprClientReadContent env
  next => exact live.use.settles

theorem Live.relaySsReadcb (live : Live held audited)
    (answered : audited.world.client.subsys = .httpRelay → losesChallenge audited.world = false) :
    Settles held (relaySsReadcb extras env audited) := by
  unfold Audit.relaySsReadcb
  split
  next => exact live.httpcReadCb env
  next relay => exact live.httprRelayReadCb env (answered relay)
  next => exact live.socks4ReadCb extras env
  next => exact live.socks5ReadCb extras env _

theorem Live.relaySsWritecb (live : Live held audited) :
    Settles held (relaySsWritecb extras env audited) := by
  unfold Audit.relaySsWritecb
  split
  · exact live.httpcWriteCb extras env
  · exact live.httprRelayWriteCb extras env
  · exact live.socks4WriteCb extras env _
  · exact live.socks5WriteCb extras env

theorem Live.relayConnected (live : Live held audited) :
    Settles held (redsocksRelayConnected extras env audited) := by
  unfold redsocksRelayConnected
  split
  · exact live.logDrop _
  · exact Live.relaySsWritecb extras env (live.onClient _ ⟨⟨rfl, rfl, id, nofun⟩, rfl, rfl⟩)

def losesData (env : Env) (world : World) (side : Side) : Bool :=
  match (world.client.buf side).readcb with
  | .subsys => world.client.subsys == .httpRelay && losesChallenge world
  | .httprClient => losesContent env world
  | _ => false

theorem Live.runReadcb (live : Live held audited) {side : Side}
    (keeps : losesData env audited.world side = false) :
    Settles held (runReadcb extras env audited side) := by
  unfold Audit.runReadcb
  unfold losesData at keeps
  split
  next => exact live.settles
  next installed =>
    refine live.relaySsReadcb extras env fun relay => ?_
    simpa [installed, relay] using keeps
  next installed =>
    refine live.httprClientReadCb env (live.reader side installed) ?_
    simpa [installed] using keeps
  next => exact (live.relayReadcb extras side side.other).settles

theorem Live.runWritecb (live : Live held audited) (side : Side) :
    Settles held (runWritecb extras env audited side) := by
  unfold Audit.runWritecb
  split
  · exact live.settles
  · exact live.relayConnected extras env
  · exact live.relaySsWritecb extras env
  · exact live.relayWritecb extras rfl

end Functions

def mishandles (audited : Audited) : Label → Bool
  | .event _ (.readData side chunk env) =>
      let buffer := audited.world.client.buf side
      decide (buffer.wmRead.low ≤ (buffer.receive chunk).input.length) &&
        losesData env (audited.onBuffer (·.setBuf side (buffer.receive chunk))).world side
  | _ => false

theorem same_setBuf {client : Client} {side : Side} {buffer : Bufferevent}
    (readcb : buffer.readcb = (client.buf side).readcb) : Same client (client.setBuf side buffer) := by
  cases side
  · exact ⟨⟨rfl, rfl, fun reads => readcb.symm.trans reads, id⟩, rfl, rfl⟩
  · exact ⟨⟨rfl, rfl, id, fun reads => readcb.symm.trans reads⟩, rfl, rfl⟩

theorem Live.step {audited next : Audited} (live : Live [] audited) {label : Label}
    (handled : mishandles audited label = false) (taken : auditStep audited label = some next) :
    Settles [] next := by
  unfold auditStep at taken
  dsimp only at taken
  obtain ⟨-, taken⟩ := Option.ite_none_left_eq_some.mp taken
  cases label with
  | finiInstance =>
      obtain rfl := Option.some.inj taken
      exact live.drop
  | event extras event =>
      cases event with
      | readData side chunk env =>
          have received : Live [] (audited.onBuffer
              (·.setBuf side ((audited.world.client.buf side).receive chunk))) :=
            live.onBuffer (same_setBuf rfl)
          dsimp only at taken
          obtain ⟨-, taken⟩ := Option.ite_none_right_eq_some.mp taken
          split at taken
          next reached =>
            obtain rfl := returned taken
            refine received.runReadcb extras env ?_
            simp only [mishandles, reached, decide_true, Bool.true_and] at handled
            exact handled
          next =>
            obtain rfl := Option.some.inj taken
            exact received.settles
      | writeReady side count env =>
          have sent : Live [] (audited.onBuffer
              (·.setBuf side ((audited.world.client.buf side).transmit count))) :=
            live.onBuffer (same_setBuf rfl)
          dsimp only at taken
          obtain ⟨-, taken⟩ := Option.ite_none_right_eq_some.mp taken
          split at taken
          · obtain rfl := Option.some.inj taken
            exact sent.runWritecb extras env side
          · obtain rfl := Option.some.inj taken
            exact sent.settles
      | report side what =>
          dsimp only at taken
          obtain ⟨-, taken⟩ := Option.ite_none_right_eq_some.mp taken
          obtain rfl := Option.some.inj taken
          exact Live.eventError (live.onBuffer (Same.disable _ side what.events)) side what
      | others auth =>
          obtain rfl := Option.some.inj taken
          exact (live.withAuth auth).settles

theorem settles_accept (env : Env) (config : Config) (auth : HttpAuth) (subsys : Subsys)
    (address : SockaddrIn) : Settles [] (redsocksAcceptClient env config auth subsys address) := by
  have fresh : Live [] (newAudited config auth subsys address) := by
    refine ⟨⟨rfl, rfl, List.Perm.refl _, fun _ => rfl, fun kept => absurd rfl kept, ?_⟩, rfl, ?_⟩
    · intro side reads
      cases side <;> cases reads
    · intro side written
      cases side <;> cases written
  have reading := fresh.onClient (·.enable .client EvBits.evRead) (.enable _ _ _)
  unfold redsocksAcceptClient
  dsimp only
  split
  · exact reading.logDrop _
  · split
    · have installed : Live [] (((newAudited config auth .httpRelay address).onClient
          (·.enable .client EvBits.evRead)).onClient fun client =>
            (client.modify .client fun buffer => { buffer with readcb := .httprClient }).enable
              .client EvBits.evRead) := by
        obtain ⟨⟨drops, staleUses, balanced, firstline, subsys, -⟩, evshut⟩ := reading
        exact ⟨⟨drops, staleUses, balanced, firstline, subsys, fun _ _ => rfl⟩, evshut.same rfl rfl⟩
      unfold Audit.httprConnectRelay
      dsimp only
      split
      · exact installed.logDrop _
      · exact installed.settles
    · exact reading.connectRelay env

/-- What holds of a client whenever no handler of it is running. -/
structure LifeCycle (audited : Audited) : Prop where
  noStaleUse : audited.ledger.staleUses = 0
  droppedOnce : audited.ledger.drops ≤ 1
  linesReleased : audited.ledger.drops = 1 →
    ∀ line < audited.ledger.lines, audited.ledger.released.count line = 1

theorem Settles.lifeCycle {audited : Audited} (settles : Settles [] audited) : LifeCycle audited := by
  rcases settles with live | gone
  · refine ⟨live.staleUses, by simp [live.drops], fun dropped => ?_⟩
    simp [live.drops] at dropped
  · exact ⟨gone.staleUses, by simp [gone.drops],
      fun _ line read => gone.balanced.released_once gone.firstline read⟩

/-- In every run in which no read callback goes wrong, the client is not used behind its drop, it is
dropped at most once, and with it all its lines have been freed once. -/
theorem client_life_cycle (env : Env) (config : Config) (auth : HttpAuth) (subsys : Subsys)
    (address : SockaddrIn) (labels : List Label) (final : Audited)
    (handled : StepRun.Along auditStep (fun audited label => mishandles audited label = false) labels
      (redsocksAcceptClient env config auth subsys address))
    (ran : StepRun.run auditStep labels (redsocksAcceptClient env config auth subsys address) =
      some final) : LifeCycle final := by
  refine Settles.lifeCycle (StepRun.run_invariant_along (Settles []) ?_
    (settles_accept env config auth subsys address) handled ran)
  intro audited label next settles met taken
  rcases settles with live | gone
  · exact live.step met taken
  · simp [auditStep, gone.dropped] at taken

def sampleClient : Audited :=
  redsocksAcceptClient Env.ok { login := some (ascii "u"), password := some (ascii "p") }
    { lastAuthQuery := none, lastAuthCount := 0 } .httpRelay { a := 10, b := 0, c := 0, d := 1, port := 80 }

def sampleEvent (event : Event) : Label := .event Extras.none event

/-- A request, a reply that asks for credentials, the request again, and a failing write of the
reply to it. -/
def sampleRun : List Label :=
  [sampleEvent (.readData .client (ascii "GET / HTTP/1.0\r\nA: b\r\n\r\n") Env.ok),
    sampleEvent (.writeReady .relay 0 Env.ok),
    sampleEvent (.readData .relay
      (ascii "HTTP/1.0 407 No\r\nProxy-Authenticate: Basic realm=x\r\n\r\n") Env.ok),
    sampleEvent (.writeReady .relay 0 Env.ok),
    sampleEvent (.readData .relay (ascii "HTTP/1.0 200 OK\r\nA: b\r\n\r\n")
      { Env.ok with fails := fun site => site == .httprReplyWrite })]

theorem client_life_cycle_sample :
    ∃ final, StepRun.run auditStep sampleRun sampleClient = some final ∧
      final.ledger.drops = 1 ∧ final.ledger.lines = 8 ∧ LifeCycle final := by
  have handled : StepRun.Along auditStep (fun audited label => mishandles audited label = false)
      sampleRun sampleClient := by
    decide +kernel
  have ends : ∃ final ∈ StepRun.run auditStep sampleRun sampleClient,
      final.ledger.drops = 1 ∧ final.ledger.lines = 8 := by
    decide +kernel
  obtain ⟨final, ran, dropped, lines⟩ := ends
  exact ⟨final, ran, dropped, lines, client_life_cycle _ _ _ _ _ sampleRun final handled ran⟩

/-- `evbuffer_remove` fails behind the header of a request: the client is dropped and connected. -/
def contentRun : List Label :=
  [sampleEvent (.readData .client (ascii "GET / HTTP/1.0\r\n\r\n")
    { Env.ok with fails := fun site => site == .contentRemove })]

/-- A reply that asks for credentials without a challenge: its status line is freed twice. -/
def challengeRun : List Label :=
  [sampleEvent (.readData .client (ascii "GET / HTTP/1.0\r\n\r\n") Env.ok),
    sampleEvent (.writeReady .relay 0 Env.ok),
    sampleEvent (.readData .relay (ascii "HTTP/1.0 407 No\r\n\r\n") Env.ok)]

theorem life_cycle_violated :
    (∃ final, StepRun.run auditStep contentRun sampleClient = some final ∧
        final.ledger.drops = 1 ∧ ¬ LifeCycle final) ∧
      ∃ final, StepRun.run auditStep challengeRun sampleClient = some final ∧ ¬ LifeCycle final := by
  constructor
  · have ends : ∃ final ∈ StepRun.run auditStep contentRun sampleClient,
        final.ledger.drops = 1 ∧ final.ledger.staleUses ≠ 0 := by
      decide +kernel
    obtain ⟨final, ran, dropped, stale⟩ := ends
    exact ⟨final, ran, dropped, fun cycle => stale cycle.noStaleUse⟩
  · have ends : ∃ final ∈ StepRun.run auditStep challengeRun sampleClient,
        final.ledger.drops = 1 ∧ 2 < final.ledger.lines ∧ final.ledger.released.count 2 = 2 := by
      decide +kernel
    obtain ⟨final, ran, dropped, read, twice⟩ := ends
    refine ⟨final, ran, fun cycle => ?_⟩
    have once := cycle.linesReleased dropped 2 read
    omega

end ProxySet.Audit
