import Mathlib.Data.List.Perm.Basic
import ProxySet.Redsocks.UdpRelay

/-!
The table of bound sockets of `redudp`: its reference counts, over every run.
-/

namespace ProxySet.Redudp

open LifeLog StepRun

def UdpClient.holds (addr : SockaddrIn) (client : UdpClient) : Bool :=
  client.senderFd.isSome && client.destaddr == addr

structure Tabled (world : World) : Prop where
  ids : (world.clients.map (·.id)).Nodup
  fresh : ∀ client ∈ world.clients, client.id < world.nextId
  counted : ∀ addr node, world.bound addr = some node →
    0 < node.ref ∧ node.ref = world.clients.countP (UdpClient.holds addr)
  shared : ∀ client ∈ world.clients, ∀ fd, client.senderFd = some fd →
    ∃ node, world.bound client.destaddr = some node ∧ node.fd = fd
  present : world.putAbsent = false
  numbered : ∀ fd ∈ world.boundOpened, fd < world.nextFd
  settled : ∀ fd, fd ∈ world.boundOpened ↔
    fd ∈ world.boundClosed ∨ ∃ addr node, world.bound addr = some node ∧ node.fd = fd
  apart : ∀ addr node, world.bound addr = some node → node.fd ∉ world.boundClosed
  distinct : ∀ addr other node node', world.bound addr = some node →
    world.bound other = some node' → node.fd = node'.fd → addr = other
  once : world.boundClosed.Nodup

section

variable {world next : World} {client changed : UdpClient} {verdict : Verdict} {label : Label}

/-! ### The list of clients -/

theorem perm_filter {clients : List UdpClient} (ids : (clients.map (·.id)).Nodup)
    (listed : client ∈ clients) :
    (client :: clients.filter (·.id ≠ client.id)).Perm clients := by
  induction clients with
  | nil => cases listed
  | cons first rest ih =>
      rw [List.map_cons, List.nodup_cons] at ids
      rcases List.mem_cons.mp listed with rfl | later
      · have kept : rest.filter (·.id ≠ client.id) = rest := by
          refine List.filter_eq_self.mpr fun other member => ?_
          refine decide_eq_true fun same => ids.1 ?_
          exact same ▸ List.mem_map_of_mem member
        rw [List.filter_cons, if_neg (by simp), kept]
      · have different : first.id ≠ client.id := fun same =>
          ids.1 (same ▸ List.mem_map_of_mem later)
        rw [List.filter_cons, if_pos (decide_eq_true different)]
        exact (List.Perm.swap ..).trans ((ih ids.2 later).cons first)

theorem perm_replaced (ids : (world.clients.map (·.id)).Nodup) (listed : client ∈ world.clients)
    (same : changed.id = client.id) :
    (changed :: world.clients.filter (·.id ≠ client.id)).Perm (world.replaced changed) := by
  rw [World.replaced, same]
  refine List.Perm.trans ?_ ((perm_filter ids listed).map _)
  rw [List.map_cons, if_pos rfl]
  refine List.Perm.cons _ (List.Perm.of_eq ?_)
  have kept : (world.clients.filter (·.id ≠ client.id)).map
      (fun other => if other.id = client.id then changed else other) =
        (world.clients.filter (·.id ≠ client.id)).map id := by
    refine List.map_congr_left fun other member => ?_
    have different : other.id ≠ client.id := by simpa using (List.mem_filter.mp member).2
    rw [if_neg different, id_eq]
  rw [kept, List.map_id]

theorem replaced_ids (world : World) (changed : UdpClient) :
    (world.replaced changed).map (·.id) = world.clients.map (·.id) := by
  rw [World.replaced, List.map_map]
  refine List.map_congr_left fun other _ => ?_
  dsimp only [Function.comp]
  split
  · rename_i here
    exact here.symm
  · rfl

theorem holds_of_senderFd {fd : Nat} (here : client.senderFd = some fd) :
    client.holds client.destaddr = true := by
  simp [UdpClient.holds, here]

theorem not_holds_of_senderFd (here : client.senderFd = none) (addr : SockaddrIn) :
    client.holds addr = false := by
  simp [UdpClient.holds, here]

theorem holds_of_ne {addr : SockaddrIn} (other : client.destaddr ≠ addr) :
    client.holds addr = false := by
  simp [UdpClient.holds, other]

/-! ### The table -/

/-- A step that changes neither the table nor who holds what. -/
theorem Tabled.relist (tabled : Tabled world) (bound : next.bound = world.bound)
    (putAbsent : next.putAbsent = world.putAbsent)
    (boundOpened : next.boundOpened = world.boundOpened)
    (boundClosed : next.boundClosed = world.boundClosed) (nextFd : world.nextFd ≤ next.nextFd)
    (ids : (next.clients.map (·.id)).Nodup) (fresh : ∀ client ∈ next.clients, client.id < next.nextId)
    (counts : ∀ addr, next.clients.countP (UdpClient.holds addr) =
      world.clients.countP (UdpClient.holds addr))
    (shared : ∀ client ∈ next.clients, ∀ fd, client.senderFd = some fd →
      ∃ other ∈ world.clients, other.senderFd = some fd ∧ other.destaddr = client.destaddr) :
    Tabled next where
  ids := ids
  fresh := fresh
  counted := by
    intro addr node here
    rw [counts]
    exact tabled.counted addr node (bound ▸ here)
  shared := by
    intro client member fd here
    obtain ⟨other, listed, same, dest⟩ := shared client member fd here
    rw [bound, ← dest]
    exact tabled.shared other listed fd same
  present := putAbsent ▸ tabled.present
  numbered := by
    intro fd member
    rw [boundOpened] at member
    exact Nat.lt_of_lt_of_le (tabled.numbered fd member) nextFd
  settled := by
    rw [boundOpened, boundClosed, bound]
    exact tabled.settled
  apart := by
    rw [bound, boundClosed]
    exact tabled.apart
  distinct := by
    rw [bound]
    exact tabled.distinct
  once := boundClosed ▸ tabled.once

structure SameSockets (world next : World) : Prop where
  putAbsent : next.putAbsent = world.putAbsent
  boundOpened : next.boundOpened = world.boundOpened
  boundClosed : next.boundClosed = world.boundClosed
  nextFd : world.nextFd ≤ next.nextFd

theorem Tabled.recount (tabled : Tabled world) (same : SameSockets world next) {addr : SockaddrIn}
    {node : BoundUdp4} {ref : Nat} (here : world.bound addr = some node)
    (bound : next.bound = Function.update world.bound addr (some ⟨ref, node.fd⟩))
    (ids : (next.clients.map (·.id)).Nodup) (fresh : ∀ client ∈ next.clients, client.id < next.nextId)
    (positive : 0 < ref) (count : ref = next.clients.countP (UdpClient.holds addr))
    (counts : ∀ other ≠ addr, next.clients.countP (UdpClient.holds other) =
      world.clients.countP (UdpClient.holds other))
    (shared : ∀ client ∈ next.clients, ∀ fd, client.senderFd = some fd →
      client.destaddr = addr ∧ node.fd = fd ∨
        ∃ other ∈ world.clients, other.senderFd = some fd ∧ other.destaddr = client.destaddr) :
    Tabled next := by
  -- every entry has the descriptor that it had before
  have entry (other : SockaddrIn) (fd : Nat) :
      (∃ found, next.bound other = some found ∧ found.fd = fd) ↔
        ∃ found, world.bound other = some found ∧ found.fd = fd := by
    rw [bound]
    by_cases equal : other = addr
    · subst equal
      rw [Function.update_self, here]
      simp
    · rw [Function.update_of_ne equal]
  have before (other : SockaddrIn) (found : BoundUdp4) (now : next.bound other = some found) :
      ∃ old, world.bound other = some old ∧ old.fd = found.fd :=
    (entry other found.fd).mp ⟨found, now, rfl⟩
  refine ⟨ids, fresh, ?_, ?_, same.putAbsent ▸ tabled.present, ?_, ?_, ?_, ?_, ?_⟩
  · intro other found now
    rw [bound] at now
    by_cases equal : other = addr
    · subst equal
      rw [Function.update_self, Option.some.injEq] at now
      rw [← now]
      exact ⟨positive, count⟩
    · rw [Function.update_of_ne equal] at now
      rw [counts other equal]
      exact tabled.counted other found now
  · intro client member fd held
    rw [entry]
    rcases shared client member fd held with ⟨equal, fds⟩ | ⟨other, listed, otherHeld, dest⟩
    · exact ⟨node, equal ▸ here, fds⟩
    · rw [← dest]
      exact tabled.shared other listed fd otherHeld
  · intro fd member
    rw [same.boundOpened] at member
    exact Nat.lt_of_lt_of_le (tabled.numbered fd member) same.nextFd
  · intro fd
    rw [same.boundOpened, same.boundClosed, tabled.settled fd]
    exact or_congr_right (exists_congr fun other => (entry other fd).symm)
  · intro other found now
    obtain ⟨old, was, fds⟩ := before other found now
    rw [same.boundClosed, ← fds]
    exact tabled.apart other old was
  · intro first second found found' now now' equal
    obtain ⟨old, was, fds⟩ := before first found now
    obtain ⟨old', was', fds'⟩ := before second found' now'
    exact tabled.distinct first second old old' was was' (by rw [fds, fds', equal])
  · rw [same.boundClosed]
    exact tabled.once

structure Dropped (world : World) (client : UdpClient) (next : World) : Prop where
  clients : next.clients = world.clients.filter (·.id ≠ client.id)
  bound : next.bound = (world.released client).bound
  putAbsent : next.putAbsent = (world.released client).putAbsent
  boundClosed : next.boundClosed = (world.released client).boundClosed
  boundOpened : next.boundOpened = world.boundOpened
  nextId : world.nextId ≤ next.nextId
  nextFd : world.nextFd ≤ next.nextFd

theorem Dropped.ids (dropped : Dropped world client next) (tabled : Tabled world) :
    (next.clients.map (·.id)).Nodup := by
  rw [dropped.clients]
  exact tabled.ids.sublist (List.filter_sublist.map _)

theorem Dropped.fresh (dropped : Dropped world client next) (tabled : Tabled world) :
    ∀ other ∈ next.clients, other.id < next.nextId := by
  intro other member
  rw [dropped.clients] at member
  exact Nat.lt_of_lt_of_le (tabled.fresh other (List.mem_filter.mp member).1) dropped.nextId

theorem Dropped.counts (dropped : Dropped world client next) (tabled : Tabled world)
    (listed : client ∈ world.clients) (addr : SockaddrIn) :
    world.clients.countP (UdpClient.holds addr) =
      next.clients.countP (UdpClient.holds addr) + if client.holds addr then 1 else 0 := by
  rw [dropped.clients, ← (perm_filter tabled.ids listed).countP_eq, List.countP_cons]

/-- A client without a reference is dropped. -/
theorem tabled_drop_unheld (tabled : Tabled world) (listed : client ∈ world.clients)
    (none : client.senderFd = none) (dropped : Dropped world client next) : Tabled next := by
  have same : world.released client = world := by rw [World.released, none]
  refine tabled.relist (dropped.bound.trans (by rw [same])) (dropped.putAbsent.trans (by rw [same]))
    dropped.boundOpened (dropped.boundClosed.trans (by rw [same])) dropped.nextFd
    (dropped.ids tabled) (dropped.fresh tabled) ?_ ?_
  · intro addr
    rw [dropped.counts tabled listed addr, not_holds_of_senderFd none]
    simp
  · intro other member fd here
    rw [dropped.clients] at member
    exact ⟨other, (List.mem_filter.mp member).1, here, rfl⟩

/-- A client with a reference is dropped, and others hold the same socket. -/
theorem tabled_drop_shared (tabled : Tabled world) (listed : client ∈ world.clients) {node : BoundUdp4}
    {fd : Nat} (held : client.senderFd = some fd) (here : world.bound client.destaddr = some node)
    (more : node.ref - 1 ≠ 0) (dropped : Dropped world client next) : Tabled next := by
  have table : world.released client = { world with
      bound := Function.update world.bound client.destaddr (some { node with ref := node.ref - 1 }) } := by
    simp only [World.released, held, boundUdp4Put, here, if_pos more]
  have sockets : SameSockets world next :=
    ⟨dropped.putAbsent.trans (by rw [table]), dropped.boundOpened,
      dropped.boundClosed.trans (by rw [table]), dropped.nextFd⟩
  refine tabled.recount sockets here (dropped.bound.trans (congrArg World.bound table))
    (dropped.ids tabled) (dropped.fresh tabled) (Nat.pos_of_ne_zero more) ?_ ?_ ?_
  · have count := (tabled.counted client.destaddr node here).2
    rw [dropped.counts tabled listed, holds_of_senderFd held, if_pos rfl] at count
    omega
  · intro other different
    rw [dropped.counts tabled listed, holds_of_ne (Ne.symm different)]
    simp
  · intro other member fd otherHeld
    rw [dropped.clients] at member
    exact .inr ⟨other, (List.mem_filter.mp member).1, otherHeld, rfl⟩

/-- The last client with a reference is dropped, and the socket closed. -/
theorem tabled_drop_last (tabled : Tabled world) (listed : client ∈ world.clients) {node : BoundUdp4}
    {fd : Nat} (held : client.senderFd = some fd) (here : world.bound client.destaddr = some node)
    (last : ¬node.ref - 1 ≠ 0) (dropped : Dropped world client next) : Tabled next := by
  have table : world.released client = { world with
      bound := Function.update world.bound client.destaddr none
      boundClosed := world.boundClosed ++ [node.fd] } := by
    simp only [World.released, held, boundUdp4Put, here, if_neg last]
  have bound : next.bound = Function.update world.bound client.destaddr none :=
    dropped.bound.trans (congrArg World.bound table)
  have closed : next.boundClosed = world.boundClosed ++ [node.fd] :=
    dropped.boundClosed.trans (congrArg World.boundClosed table)
  have left (addr : SockaddrIn) (found : BoundUdp4) :
      next.bound addr = some found ↔ addr ≠ client.destaddr ∧ world.bound addr = some found := by
    rw [bound]
    by_cases equal : addr = client.destaddr
    · simp [equal]
    · rw [Function.update_of_ne equal]
      simp [equal]
  obtain ⟨positive, count⟩ := tabled.counted client.destaddr node here
  rw [dropped.counts tabled listed, holds_of_senderFd held, if_pos rfl] at count
  have nobody : next.clients.countP (UdpClient.holds client.destaddr) = 0 := by omega
  refine ⟨dropped.ids tabled, dropped.fresh tabled, ?_, ?_, ?_, ?_, ?_, ?_, ?_, ?_⟩
  · intro addr found now
    obtain ⟨different, old⟩ := (left addr found).mp now
    have before := tabled.counted addr found old
    rw [dropped.counts tabled listed, holds_of_ne (Ne.symm different)] at before
    simpa using before
  · intro other member fd otherHeld
    have different : other.destaddr ≠ client.destaddr := by
      intro equal
      have holds := holds_of_senderFd otherHeld
      rw [equal] at holds
      exact List.countP_eq_zero.mp nobody other member holds
    rw [dropped.clients] at member
    obtain ⟨found, old, fds⟩ := tabled.shared other (List.mem_filter.mp member).1 fd otherHeld
    exact ⟨found, (left _ found).mpr ⟨different, old⟩, fds⟩
  · exact dropped.putAbsent.trans ((congrArg World.putAbsent table).trans tabled.present)
  · intro fd member
    rw [dropped.boundOpened] at member
    exact Nat.lt_of_lt_of_le (tabled.numbered fd member) dropped.nextFd
  · intro fd
    rw [dropped.boundOpened, tabled.settled fd, closed, List.mem_append, List.mem_singleton, or_assoc]
    refine or_congr_right ⟨?_, ?_⟩
    · rintro ⟨addr, found, old, fds⟩
      by_cases equal : addr = client.destaddr
      · subst equal
        obtain rfl := Option.some.inj (old.symm.trans here)
        exact .inl fds.symm
      · exact .inr ⟨addr, found, (left addr found).mpr ⟨equal, old⟩, fds⟩
    · rintro (rfl | ⟨addr, found, now, fds⟩)
      · exact ⟨client.destaddr, node, here, rfl⟩
      · exact ⟨addr, found, ((left addr found).mp now).2, fds⟩
  · intro addr found now
    obtain ⟨different, old⟩ := (left addr found).mp now
    rw [closed, List.mem_append, List.mem_singleton, not_or]
    refine ⟨tabled.apart addr found old, fun equal => different ?_⟩
    exact tabled.distinct addr client.destaddr found node old here equal
  · intro addr other found found' now now' equal
    exact tabled.distinct addr other found found' ((left addr found).mp now).2
      ((left other found').mp now').2 equal
  · rw [closed, List.nodup_append]
    refine ⟨tabled.once, List.nodup_singleton _, fun fd member other single equal => ?_⟩
    rw [List.mem_singleton] at single
    exact tabled.apart client.destaddr node here (single ▸ equal ▸ member)

theorem tabled_drop (tabled : Tabled world) (listed : client ∈ world.clients)
    (dropped : Dropped world client next) : Tabled next := by
  cases held : client.senderFd with
  | none => exact tabled_drop_unheld tabled listed held dropped
  | some fd =>
      obtain ⟨node, here, -⟩ := tabled.shared client listed fd held
      by_cases more : node.ref - 1 ≠ 0
      · exact tabled_drop_shared tabled listed held here more dropped
      · exact tabled_drop_last tabled listed held here more dropped

/-! ### A reference is taken -/

structure Acquired (world : World) (client : UdpClient) (fd : Nat) (next : World) : Prop where
  clients : next.clients = world.replaced { client with senderFd := some fd }
  nextId : next.nextId = world.nextId

section

variable {fd : Nat}

theorem Acquired.ids (acquired : Acquired world client fd next) (tabled : Tabled world) :
    (next.clients.map (·.id)).Nodup := by
  rw [acquired.clients, replaced_ids]
  exact tabled.ids

theorem Acquired.mem (acquired : Acquired world client fd next) (listed : client ∈ world.clients)
    {other : UdpClient} (member : other ∈ next.clients) :
    other = { client with senderFd := some fd } ∨ other ∈ world.clients := by
  rw [acquired.clients] at member
  have known : ∃ old ∈ world.clients,
      old.id = UdpClient.id { client with senderFd := some fd } := ⟨client, listed, rfl⟩
  rcases (mem_replaced_iff known).mp member with now | ⟨before, -⟩
  · exact .inl now
  · exact .inr before

theorem Acquired.fresh (acquired : Acquired world client fd next) (tabled : Tabled world)
    (listed : client ∈ world.clients) : ∀ other ∈ next.clients, other.id < next.nextId := by
  intro other member
  rw [acquired.nextId]
  rcases acquired.mem listed member with rfl | before
  · exact tabled.fresh client listed
  · exact tabled.fresh other before

theorem Acquired.counts (acquired : Acquired world client fd next) (tabled : Tabled world)
    (listed : client ∈ world.clients) (none : client.senderFd = none) (addr : SockaddrIn) :
    next.clients.countP (UdpClient.holds addr) =
      world.clients.countP (UdpClient.holds addr) + if client.destaddr = addr then 1 else 0 := by
  have perm : ({ client with senderFd := some fd } ::
      world.clients.filter (·.id ≠ client.id)).Perm next.clients := by
    rw [acquired.clients]
    exact perm_replaced tabled.ids listed rfl
  have holds : UdpClient.holds addr { client with senderFd := some fd } =
      decide (client.destaddr = addr) := by
    rw [UdpClient.holds, Option.isSome_some, Bool.true_and, Bool.beq_eq_decide_eq]
  rw [← perm.countP_eq, ← (perm_filter tabled.ids listed).countP_eq, List.countP_cons,
    List.countP_cons, not_holds_of_senderFd none, holds]
  simp

theorem tabled_get_shared (tabled : Tabled world) (listed : client ∈ world.clients)
    (none : client.senderFd = none) {node : BoundUdp4} (here : world.bound client.destaddr = some node)
    (sockets : SameSockets world next)
    (bound : next.bound = Function.update world.bound client.destaddr (some ⟨node.ref + 1, node.fd⟩))
    (acquired : Acquired world client node.fd next) : Tabled next := by
  refine tabled.recount sockets here bound (acquired.ids tabled) (acquired.fresh tabled listed)
    (Nat.succ_pos _) ?_ ?_ ?_
  · rw [acquired.counts tabled listed none, if_pos rfl, (tabled.counted _ node here).2]
  · intro other different
    rw [acquired.counts tabled listed none, if_neg (Ne.symm different), Nat.add_zero]
  · intro other member fd held
    rcases acquired.mem listed member with rfl | before
    · exact .inl ⟨rfl, Option.some.inj held⟩
    · exact .inr ⟨other, before, held, rfl⟩

theorem tabled_get_first (tabled : Tabled world) (listed : client ∈ world.clients)
    (none : client.senderFd = none) (absent : world.bound client.destaddr = .none)
    (putAbsent : next.putAbsent = world.putAbsent)
    (opened : next.boundOpened = world.boundOpened ++ [world.nextFd])
    (closed : next.boundClosed = world.boundClosed) (nextFd : next.nextFd = world.nextFd + 1)
    (bound : next.bound = Function.update world.bound client.destaddr (some ⟨1, world.nextFd⟩))
    (acquired : Acquired world client world.nextFd next) : Tabled next := by
  have nobody : world.clients.countP (UdpClient.holds client.destaddr) = 0 := by
    rw [List.countP_eq_zero]
    intro other member holds
    rw [UdpClient.holds, Bool.and_eq_true, beq_iff_eq] at holds
    obtain ⟨fd, held⟩ := Option.isSome_iff_exists.mp holds.1
    obtain ⟨node, here, -⟩ := tabled.shared other member fd held
    rw [holds.2, absent] at here
    cases here
  have entry (addr : SockaddrIn) (found : BoundUdp4) : next.bound addr = some found ↔
      addr = client.destaddr ∧ found = ⟨1, world.nextFd⟩ ∨ world.bound addr = some found := by
    rw [bound]
    by_cases equal : addr = client.destaddr
    · simp [equal, absent, eq_comm]
    · rw [Function.update_of_ne equal]
      simp [equal]
  have old (addr : SockaddrIn) (found : BoundUdp4) (here : world.bound addr = some found) :
      found.fd < world.nextFd :=
    tabled.numbered _ ((tabled.settled _).mpr (.inr ⟨addr, found, here, rfl⟩))
  refine ⟨acquired.ids tabled, acquired.fresh tabled listed, ?_, ?_, putAbsent ▸ tabled.present,
    ?_, ?_, ?_, ?_, closed ▸ tabled.once⟩
  · intro addr found now
    rw [acquired.counts tabled listed none]
    rcases (entry addr found).mp now with ⟨rfl, rfl⟩ | before
    · rw [nobody, if_pos rfl]
      exact ⟨Nat.one_pos, rfl⟩
    · have different : client.destaddr ≠ addr := by
        rintro rfl
        rw [absent] at before
        cases before
      rw [if_neg different, Nat.add_zero]
      exact tabled.counted addr found before
  · intro other member fd held
    rcases acquired.mem listed member with rfl | before
    · exact ⟨⟨1, world.nextFd⟩, (entry _ _).mpr (.inl ⟨rfl, rfl⟩), Option.some.inj held⟩
    · obtain ⟨found, here, fds⟩ := tabled.shared other before fd held
      exact ⟨found, (entry _ _).mpr (.inr here), fds⟩
  · intro fd member
    rw [opened, List.mem_append, List.mem_singleton] at member
    rw [nextFd]
    rcases member with before | rfl
    · exact Nat.lt_succ_of_lt (tabled.numbered fd before)
    · exact Nat.lt_succ_self _
  · intro fd
    rw [opened, closed, List.mem_append, List.mem_singleton, tabled.settled fd]
    constructor
    · rintro ((isClosed | ⟨addr, found, here, fds⟩) | rfl)
      · exact .inl isClosed
      · exact .inr ⟨addr, found, (entry addr found).mpr (.inr here), fds⟩
      · exact .inr ⟨client.destaddr, ⟨1, world.nextFd⟩, (entry _ _).mpr (.inl ⟨rfl, rfl⟩), rfl⟩
    · rintro (isClosed | ⟨addr, found, now, fds⟩)
      · exact .inl (.inl isClosed)
      · rcases (entry addr found).mp now with ⟨-, rfl⟩ | here
        · exact .inr fds.symm
        · exact .inl (.inr ⟨addr, found, here, fds⟩)
  · intro addr found now member
    rw [closed] at member
    rcases (entry addr found).mp now with ⟨-, rfl⟩ | here
    · exact Nat.lt_irrefl _ (tabled.numbered _ ((tabled.settled _).mpr (.inl member)))
    · exact tabled.apart addr found here member
  · intro first second found found' now now' equal
    rcases (entry first found).mp now with ⟨rfl, rfl⟩ | here
    · rcases (entry second found').mp now' with ⟨rfl, -⟩ | here'
      · rfl
      · exact absurd equal.symm (Nat.ne_of_lt (old second found' here'))
    · rcases (entry second found').mp now' with ⟨rfl, rfl⟩ | here'
      · exact absurd equal (Nat.ne_of_lt (old first found here))
      · exact tabled.distinct first second found found' here here' equal

theorem tabled_get_closed (tabled : Tabled world) (clients : next.clients = world.clients)
    (nextId : next.nextId = world.nextId) (bound : next.bound = world.bound)
    (putAbsent : next.putAbsent = world.putAbsent)
    (opened : next.boundOpened = world.boundOpened ++ [world.nextFd])
    (closed : next.boundClosed = world.boundClosed ++ [world.nextFd])
    (nextFd : next.nextFd = world.nextFd + 1) : Tabled next := by
  have unknown : world.nextFd ∉ world.boundOpened := fun member =>
    Nat.lt_irrefl _ (tabled.numbered _ member)
  refine ⟨clients ▸ tabled.ids, ?_, ?_, ?_, putAbsent ▸ tabled.present, ?_, ?_, ?_, ?_, ?_⟩
  · rw [clients, nextId]
    exact tabled.fresh
  · rw [clients, bound]
    exact tabled.counted
  · rw [clients, bound]
    exact tabled.shared
  · intro fd member
    rw [opened, List.mem_append, List.mem_singleton] at member
    rw [nextFd]
    rcases member with before | rfl
    · exact Nat.lt_succ_of_lt (tabled.numbered fd before)
    · exact Nat.lt_succ_self _
  · intro fd
    rw [opened, closed, bound, List.mem_append, List.mem_append, List.mem_singleton,
      tabled.settled fd, or_right_comm]
  · intro addr node here
    rw [bound] at here
    rw [closed, List.mem_append, List.mem_singleton, not_or]
    refine ⟨tabled.apart addr node here, fun equal => unknown ?_⟩
    exact (tabled.settled _).mpr (.inr ⟨addr, node, here, equal⟩)
  · rw [bound]
    exact tabled.distinct
  · rw [closed, List.nodup_append]
    refine ⟨tabled.once, List.nodup_singleton _, fun fd member other single equal => unknown ?_⟩
    rw [List.mem_singleton] at single
    exact (tabled.settled _).mpr (.inl (single ▸ equal ▸ member))

end

/-! ### Steps -/

theorem released_serves (serves : verdict.Serves client) (world : World) :
    world.released verdict.client = world.released client := by
  rw [World.released, World.released, serves.senderFd, serves.destaddr]

theorem tabled_callback (tabled : Tabled world) (listed : client ∈ world.clients)
    (serves : verdict.Serves client) : Tabled (world.callback verdict) := by
  rw [World.callback, settle_eq]
  cases ending : verdict.ending with
  | kept =>
      simp only [Verdict.clients, Verdict.release, ending]
      refine tabled.relist rfl rfl rfl rfl (Nat.le_succ _) ?_ ?_ ?_ ?_
      · dsimp only
        rw [replaced_ids]
        exact tabled.ids
      · intro other member
        rcases (mem_replaced_iff ⟨client, listed, serves.id.symm⟩).mp member with rfl | ⟨before, -⟩
        · rw [serves.id]
          exact tabled.fresh client listed
        · exact tabled.fresh other before
      · intro addr
        have same : UdpClient.holds addr verdict.client = UdpClient.holds addr client := by
          rw [UdpClient.holds, UdpClient.holds, serves.senderFd, serves.destaddr]
        dsimp only
        rw [← (perm_replaced tabled.ids listed serves.id).countP_eq,
          ← (perm_filter tabled.ids listed).countP_eq, List.countP_cons, List.countP_cons, same]
      · intro other member fd held
        rcases (mem_replaced_iff ⟨client, listed, serves.id.symm⟩).mp member with rfl | ⟨before, -⟩
        · exact ⟨client, listed, serves.senderFd ▸ held, serves.destaddr.symm⟩
        · exact ⟨other, before, held, rfl⟩
  | dropped | lost =>
      simp only [Verdict.clients, Verdict.release, ending, released_serves serves, serves.id]
      exact tabled_drop tabled listed ⟨rfl, rfl, rfl, rfl, rfl, Nat.le_refl _, Nat.le_succ _⟩

theorem tabled_first (tabled : Tabled world) (id : verdict.client.id = world.nextId)
    (none : verdict.client.senderFd = none) :
    Tabled ({ world with nextId := world.nextId + 1 }.settle verdict
      (verdict.client :: world.clients)) := by
  have unknown : world.clients.filter (·.id ≠ verdict.client.id) = world.clients := by
    refine List.filter_eq_self.mpr fun other member => decide_eq_true ?_
    rw [id]
    exact Nat.ne_of_lt (tabled.fresh other member)
  have later (client : UdpClient) (member : client ∈ world.clients) : client.id < world.nextId + 1 :=
    Nat.lt_succ_of_lt (tabled.fresh client member)
  have same : ∀ world : World, world.released verdict.client = world := by
    intro world
    rw [World.released, none]
  rw [settle_eq]
  cases ending : verdict.ending with
  | kept =>
      simp only [Verdict.clients, Verdict.release, ending]
      refine tabled.relist rfl rfl rfl rfl (Nat.le_succ _) ?_ ?_ ?_ ?_
      · rw [List.map_cons, List.nodup_cons]
        refine ⟨fun member => ?_, tabled.ids⟩
        obtain ⟨other, listed, equal⟩ := List.mem_map.mp member
        exact Nat.ne_of_lt (tabled.fresh other listed) (equal.trans id)
      · intro client member
        rcases List.mem_cons.mp member with rfl | before
        · rw [id]
          exact Nat.lt_succ_self _
        · exact later client before
      · intro addr
        rw [List.countP_cons, not_holds_of_senderFd none]
        simp
      · intro client member fd held
        rcases List.mem_cons.mp member with rfl | before
        · rw [none] at held
          cases held
        · exact ⟨client, before, held, rfl⟩
  | dropped | lost =>
      simp only [Verdict.clients, Verdict.release, ending, same, unknown]
      exact tabled.relist rfl rfl rfl rfl (Nat.le_succ _) tabled.ids later (fun _ => rfl)
        fun client member fd held => ⟨client, member, held, rfl⟩

theorem tabled_notes (tabled : Tabled world) (id : Nat) (events : List (LifeLog.Event Nat)) :
    Tabled (world.notes id events) :=
  tabled.relist rfl rfl rfl rfl (Nat.le_refl _) tabled.ids tabled.fresh (fun _ => rfl)
    fun client member _ held => ⟨client, member, held, rfl⟩

theorem tabled_bound (tabled : Tabled world) (listed : client ∈ world.clients)
    (none : client.senderFd = none) {got : World} {fd : Nat} {binding : Binding}
    (here : boundUdp4Get world client.destaddr binding = (got, some fd))
    (bound : next.bound = got.bound) (putAbsent : next.putAbsent = got.putAbsent)
    (opened : next.boundOpened = got.boundOpened) (closed : next.boundClosed = got.boundClosed)
    (nextFd : next.nextFd = got.nextFd) (acquired : Acquired world client fd next) : Tabled next := by
  cases entry : world.bound client.destaddr with
  | some node =>
      simp only [boundUdp4Get, entry, Prod.mk.injEq, Option.some.injEq] at here
      obtain ⟨rfl, rfl⟩ := here
      exact tabled_get_shared tabled listed none entry
        ⟨putAbsent, opened, closed, Nat.le_of_eq nextFd.symm⟩ bound acquired
  | none =>
      simp only [boundUdp4Get, entry] at here
      cases binding with
      | noSocket => simp at here
      | closes => simp at here
      | binds =>
          simp only [Prod.mk.injEq, Option.some.injEq] at here
          obtain ⟨rfl, rfl⟩ := here
          exact tabled_get_first tabled listed none entry putAbsent opened closed nextFd bound acquired

theorem tabled_unbound (tabled : Tabled world) {addr : SockaddrIn} {got : World} {binding : Binding}
    (here : boundUdp4Get world addr binding = (got, none)) : Tabled got := by
  cases entry : world.bound addr with
  | some node => simp [boundUdp4Get, entry] at here
  | none =>
      simp only [boundUdp4Get, entry] at here
      cases binding with
      | noSocket =>
          obtain rfl := (Prod.mk.inj here).1
          exact tabled
      | closes =>
          obtain rfl := (Prod.mk.inj here).1
          exact tabled_get_closed tabled rfl rfl rfl rfl rfl rfl rfl
      | binds => simp at here

theorem tabled_pktFromSocks (tabled : Tabled world) (listed : client ∈ world.clients)
    {source : SockaddrIn} {pkt : Bytes} {stale : Nat → UInt8} {calls : SocksCalls}
    (stepped : SocksStepped world client source pkt stale calls next) : Tabled next := by
  cases stepped with
  | ignored => exact tabled_notes tabled _ _
  | lost =>
      have serves : (Verdict.lose client [.used]).Serves client := ⟨rfl, rfl, rfl, rfl⟩
      exact tabled_callback tabled listed serves
  | unbound got _ _ _ _ here => exact tabled_notes (tabled_unbound tabled here) _ _
  | bound got fd changed _ _ _ none here made =>
      have same := sameClients_of_get here
      refine tabled_bound tabled listed none here rfl rfl rfl rfl rfl ⟨?_, same.nextId⟩
      rw [made]
      rfl
  | sent =>
      obtain ⟨ids, fresh, counted, shared, present, numbered, settled, apart, distinct, once⟩ := tabled
      exact ⟨ids, fresh, counted, shared, present, numbered, settled, apart, distinct, once⟩

theorem tabled_dropClient (tabled : Tabled world) (listed : client ∈ world.clients) :
    Tabled (redudpDropClient world client) := by
  rw [redudpDropClient_eq]
  exact tabled_drop tabled listed ⟨rfl, rfl, rfl, rfl, rfl, Nat.le_refl _, Nat.le_refl _⟩

theorem tabled_dropAll {clients : List UdpClient} (ids : (clients.map (·.id)).Nodup) :
    ∀ {world : World}, Tabled world → (∀ client ∈ clients, client ∈ world.clients) →
      Tabled (clients.foldl redudpDropClient world) := by
  induction clients with
  | nil => exact fun tabled _ => tabled
  | cons client clients ih =>
      intro world tabled listed
      rw [List.map_cons, List.nodup_cons] at ids
      refine ih ids.2 (tabled_dropClient tabled (listed client (by simp))) fun other member => ?_
      rw [redudpDropClient_eq]
      refine List.mem_filter.mpr ⟨listed other (by simp [member]), decide_eq_true fun same => ids.1 ?_⟩
      exact same ▸ List.mem_map_of_mem member

theorem tabled_step (tabled : Tabled world) (stepped : Stepped world label next) : Tabled next := by
  cases stepped with
  | unread => exact tabled
  | noMemory => exact tabled
  | next client datagram calls received listed found =>
      exact tabled_callback tabled listed (serves_next _ _ _ _)
  | first datagram calls verdict received found allocated made =>
      obtain ⟨id, none⟩ := first_client world.config world.nextId world.nextFd datagram calls
      exact tabled_first tabled (made ▸ id) (made ▸ none)
  | connected client connected calls found waiting =>
      exact tabled_callback tabled (mem_of_client? found).1 (serves_relayConnected _ _ _ _)
  | read client input calls readcb found here =>
      exact tabled_callback tabled (mem_of_client? found).1 (serves_readcb _ _ _ _ _ _)
  | failed client found =>
      exact tabled_callback tabled (mem_of_client? found).1 (serves_drop client _)
  | timedOut client found =>
      exact tabled_callback tabled (mem_of_client? found).1 (serves_drop client _)
  | fromSocks client source pkt stale calls found associated =>
      exact tabled_pktFromSocks tabled (mem_of_client? found).1
        (pktFromSocks_stepped world client source pkt stale calls)
  | fini =>
      obtain ⟨ids, fresh, counted, shared, present, numbered, settled, apart, distinct, once⟩ :=
        tabled_dropAll tabled.ids tabled fun _ member => member
      exact ⟨ids, fresh, counted, shared, present, numbered, settled, apart, distinct, once⟩

end

/-! ### Reference counts -/

def World.holders (world : World) (addr : SockaddrIn) : List UdpClient :=
  world.clients.filter fun client => client.senderFd ≠ none ∧ client.destaddr = addr

/-- What is said of the table and of the sockets opened for it. -/
structure Referenced (world : World) : Prop where
  entry : ∀ addr, (world.bound addr).isSome = true ↔ world.holders addr ≠ []
  count : ∀ addr node, world.bound addr = some node →
    node.ref = (world.holders addr).length ∧
      ∀ client ∈ world.holders addr, client.senderFd = some node.fd
  found : world.putAbsent = false
  closed : ∀ fd ∈ world.boundOpened, world.boundClosed.count fd =
    if ∃ client ∈ world.clients, client.senderFd = some fd then 0 else 1

theorem countP_holds (world : World) (addr : SockaddrIn) :
    world.clients.countP (UdpClient.holds addr) = (world.holders addr).length := by
  rw [List.countP_eq_length_filter, World.holders]
  congr 1
  refine List.filter_congr fun client _ => ?_
  cases held : client.senderFd <;> simp [UdpClient.holds, held, Bool.beq_eq_decide_eq]

theorem referenced_of_tabled {world : World} (tabled : Tabled world) : Referenced world where
  entry := by
    intro addr
    constructor
    · intro known
      obtain ⟨node, here⟩ := Option.isSome_iff_exists.mp known
      obtain ⟨positive, count⟩ := tabled.counted addr node here
      rw [countP_holds] at count
      rw [← List.length_pos_iff, ← count]
      exact positive
    · intro some
      obtain ⟨client, member⟩ := List.exists_mem_of_ne_nil _ some
      obtain ⟨listed, holds⟩ := List.mem_filter.mp member
      obtain ⟨held, dest⟩ := of_decide_eq_true holds
      obtain ⟨fd, here⟩ := Option.ne_none_iff_exists'.mp held
      obtain ⟨node, entry, -⟩ := tabled.shared client listed fd here
      rw [← dest, entry]
      rfl
  count := by
    intro addr node here
    refine ⟨(tabled.counted addr node here).2.trans (countP_holds world addr), fun client member => ?_⟩
    obtain ⟨listed, holds⟩ := List.mem_filter.mp member
    obtain ⟨held, rfl⟩ := of_decide_eq_true holds
    obtain ⟨fd, some⟩ := Option.ne_none_iff_exists'.mp held
    obtain ⟨found, entry, rfl⟩ := tabled.shared client listed fd some
    obtain rfl := Option.some.inj (entry.symm.trans here)
    exact some
  found := tabled.present
  closed := by
    intro fd opened
    split
    · rename_i holds
      obtain ⟨client, listed, held⟩ := holds
      obtain ⟨node, here, rfl⟩ := tabled.shared client listed fd held
      exact List.count_eq_zero.mpr (tabled.apart _ node here)
    · rename_i nobody
      rcases (tabled.settled fd).mp opened with closed | ⟨addr, node, here, rfl⟩
      · exact List.count_eq_one_of_mem tabled.once closed
      · obtain ⟨positive, count⟩ := tabled.counted addr node here
        rw [count, List.countP_pos_iff] at positive
        obtain ⟨client, listed, holds⟩ := positive
        rw [UdpClient.holds, Bool.and_eq_true, beq_iff_eq] at holds
        obtain ⟨other, held⟩ := Option.isSome_iff_exists.mp holds.1
        obtain ⟨found, entry, fds⟩ := tabled.shared client listed other held
        rw [holds.2, here] at entry
        obtain rfl := Option.some.inj entry
        exact absurd ⟨client, listed, fds ▸ held⟩ nobody

theorem tabled_start (config : UdpConfig) : Tabled (.start config) := by
  refine ⟨List.nodup_nil, ?_, ?_, ?_, rfl, ?_, ?_, ?_, ?_, List.nodup_nil⟩
  · exact fun client member => by cases member
  · exact fun addr node here => by cases here
  · exact fun client member => by cases member
  · exact fun fd member => by cases member
  · refine fun fd => iff_of_false (fun member => by cases member) ?_
    rintro (member | ⟨addr, node, here, -⟩)
    · cases member
    · cases here
  · exact fun addr node here => by cases here
  · exact fun addr other node node' here => by cases here

theorem references_exact {config : UdpConfig} {labels : List Label} {world : World}
    (ran : run step labels (.start config) = some world) : Referenced world := by
  refine referenced_of_tabled (run_invariant Tabled ?_ (tabled_start config) ran)
  intro world label next tabled taken
  exact tabled_step tabled (step_stepped taken).2

/-- Another socket sends to the same server, and both get an answer. -/
def answeredTwice : List Label :=
  associated ++
    [.fromClient ⟨⟨10, 0, 0, 2, 4001⟩, some ⟨8, 8, 8, 8, 53⟩, [1]⟩ .succeed,
      .relayConnected 1 true .succeed, .relayRead 1 [5, 0] .succeed,
      .relayRead 1 [5, 0, 0, 1, 127, 0, 0, 1, 4, 57] .succeed,
      .fromSocks 0 ⟨127, 0, 0, 1, 1080⟩ [0, 0, 0, 1, 8, 8, 8, 8, 0, 53, 7] (fun _ => 0) .succeed,
      .fromSocks 1 ⟨127, 0, 0, 1, 1081⟩ [0, 0, 0, 1, 8, 8, 8, 8, 0, 53, 7] (fun _ => 0) .succeed]

theorem references_exact_for_two :
    ∃ world, run step answeredTwice (.start tproxyConfig) = some world ∧
      (world.bound ⟨8, 8, 8, 8, 53⟩).map (·.ref) = some 2 ∧ Referenced world := by
  have shown : (run step answeredTwice (.start tproxyConfig)).any
      (fun world => decide ((world.bound ⟨8, 8, 8, 8, 53⟩).map (·.ref) = some 2)) = true := by
    decide +kernel
  obtain ⟨world, ran, two⟩ := (Option.any_eq_true _ _).mp shown
  exact ⟨world, ran, of_decide_eq_true two, references_exact ran⟩

end ProxySet.Redudp
