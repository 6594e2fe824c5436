import ProxySet.Redsocks.ClientCore

/-!
How a client reads after each change to it, as simp lemmas, and what the
functions of `redsocks.c` change.
-/

namespace ProxySet

@[simp] theorem Side.other_other (side : Side) : side.other.other = side := by
  cases side <;> rfl

@[simp] theorem Side.ne_other (side : Side) : side ≠ side.other := by
  cases side <;> simp [Side.other]

@[simp] theorem Side.other_ne (side : Side) : side.other ≠ side :=
  (Side.ne_other side).symm

theorem Side.eq_or_eq_other (side target : Side) : side = target ∨ side = target.other := by
  cases side <;> cases target <;> simp [Side.other]

namespace Client

attribute [simp] modify log enable disable assertFail

variable (client : Client) (side which : Side)

@[simp] theorem buf_setBuf_self (buffer : Bufferevent) :
    (client.setBuf side buffer).buf side = buffer := by
  cases side <;> rfl

@[simp] theorem buf_setBuf_other (buffer : Bufferevent) :
    (client.setBuf side buffer).buf side.other = client.buf side.other := by
  cases side <;> rfl

@[simp] theorem buf_setBuf_of_other (buffer : Bufferevent) :
    (client.setBuf side.other buffer).buf side = client.buf side := by
  cases side <;> rfl

@[simp] theorem evshut_setEvshut_self (bits : EvBits) :
    (client.setEvshut side bits).evshut side = bits := by
  cases side <;> rfl

@[simp] theorem evshut_setEvshut_other (bits : EvBits) :
    (client.setEvshut side bits).evshut side.other = client.evshut side.other := by
  cases side <;> rfl

@[simp] theorem evshut_setBuf (buffer : Bufferevent) :
    (client.setBuf side buffer).evshut which = client.evshut which := by
  cases which <;> rfl

@[simp] theorem buf_setEvshut (bits : EvBits) :
    (client.setEvshut side bits).buf which = client.buf which := by
  cases which <;> rfl

@[simp] theorem buf_call (entry : Call) : (client.call entry).buf which = client.buf which := by
  cases which <;> rfl

@[simp] theorem evshut_call (entry : Call) :
    (client.call entry).evshut which = client.evshut which := by
  cases which <;> rfl

theorem isOpen_of_relayOpen (opened : client.relayOpen = true) : client.isOpen which = true := by
  cases which
  · rfl
  · exact opened

end Client

section Functions

variable (client : Client) (side which : Side) (how : How)

@[simp] theorem buf_callShutdown :
    (client.callShutdown side how).buf which = client.buf which := by
  cases which <;> rfl

@[simp] theorem evshut_callShutdown :
    (client.callShutdown side how).evshut which = client.evshut which := by
  cases which <;> rfl

@[simp] theorem buf_drop : (redsocksDropClient client).buf which = client.buf which := by
  cases which <;> rfl

@[simp] theorem evshut_drop : (redsocksDropClient client).evshut which = client.evshut which := by
  cases which <;> rfl

theorem Client.bothShut_iff :
    client.bothShut = true ↔ client.evshut side = EvBits.both ∧ client.evshut side.other = EvBits.both := by
  cases side <;> simp [Client.bothShut, Client.evshut, Side.other, and_comm]

/-- The direction is disabled anyway, so it does not matter that libevent disabled it before. -/
theorem shutdown_disable :
    redsocksShutdown (client.disable side how.events) side how = redsocksShutdown client side how := by
  have called : (client.disable side how.events).callShutdown side how =
      (client.callShutdown side how).disable side how.events := by
    cases side <;> rfl
  have twice : ((client.callShutdown side how).disable side how.events).disable side how.events =
      (client.callShutdown side how).disable side how.events := by
    cases side <;> simp [Client.setBuf, Client.buf, Bufferevent.disable, EvBits.without]
  have shut : ((client.callShutdown side how).disable side how.events).evshut side =
      (client.callShutdown side how).evshut side := by
    simp
  simp only [redsocksShutdown, called, twice, shut]

@[simp] theorem buf_shutdown_self :
    (redsocksShutdown client side how).buf side = (client.buf side).disable how.events := by
  simp only [redsocksShutdown]
  split <;> simp

@[simp] theorem buf_shutdown_other :
    (redsocksShutdown client side how).buf side.other = client.buf side.other := by
  simp only [redsocksShutdown]
  split <;> simp

@[simp] theorem buf_shutdown_of_other :
    (redsocksShutdown client side.other how).buf side = client.buf side := by
  simpa using buf_shutdown_other client side.other how

@[simp] theorem evshut_shutdown_self :
    (redsocksShutdown client side how).evshut side = (client.evshut side).union how.events := by
  simp only [redsocksShutdown]
  split <;> simp

@[simp] theorem evshut_shutdown_other :
    (redsocksShutdown client side how).evshut side.other = client.evshut side.other := by
  simp only [redsocksShutdown]
  split <;> simp

@[simp] theorem evshut_shutdown_of_other :
    (redsocksShutdown client side.other how).evshut side = client.evshut side := by
  simpa using evshut_shutdown_other client side.other how

@[simp] theorem state_shutdown : (redsocksShutdown client side how).state = client.state := by
  simp only [redsocksShutdown]
  split <;> simp

@[simp] theorem relayOpen_shutdown :
    (redsocksShutdown client side how).relayOpen = client.relayOpen := by
  simp only [redsocksShutdown]
  split <;> simp

@[simp] theorem isOpen_shutdown :
    (redsocksShutdown client side how).isOpen which = client.isOpen which := by
  cases which <;> simp [Client.isOpen]

theorem state_startRelay (env : Env) (client : Client) :
    (redsocksStartRelay env client).state = .pumpActive := by
  unfold redsocksStartRelay
  dsimp only
  split
  · rfl
  · split <;> rfl

def Env.smooth (env : Env) : Prop :=
  ∀ site, env.fails site = false

theorem startRelay_smooth {env : Env} (smooth : env.smooth) (client : Client) :
    redsocksStartRelay env client = redsocksStartRelay Env.ok client := by
  simp [redsocksStartRelay, smooth .startEnableClient, smooth .startEnableRelay, Env.ok]

def Call.isNote : Call → Bool
  | .log _ | .drop => true
  | _ => false

theorem trace_shutdown : ∃ notes : List Call, (∀ entry ∈ notes, entry.isNote = true) ∧
    (redsocksShutdown client side how).trace = notes ++ (client.callShutdown side how).trace := by
  simp only [redsocksShutdown]
  split
  · exact ⟨[.drop, .log .droppingClient, .log .bothDisconnected], by simp [Call.isNote], rfl⟩
  · exact ⟨[], by simp, rfl⟩

theorem mem_trace_shutdown (entry : Call) (heard : entry.isNote = false) :
    entry ∈ (redsocksShutdown client side how).trace ↔
      entry ∈ (client.callShutdown side how).trace := by
  obtain ⟨notes, noted, traceEq⟩ := trace_shutdown client side how
  have absent : entry ∉ notes := by
    intro member
    simp [noted entry member] at heard
  simp [traceEq, absent]

theorem filterMap_trace_shutdown {Picked : Type} (pick : Call → Option Picked)
    (skips : ∀ entry, entry.isNote = true → pick entry = none) :
    (redsocksShutdown client side how).trace.filterMap pick =
      (client.callShutdown side how).trace.filterMap pick := by
  obtain ⟨notes, noted, traceEq⟩ := trace_shutdown client side how
  have none : notes.filterMap pick = [] :=
    List.filterMap_eq_nil_iff.mpr fun entry member => skips entry (noted entry member)
  rw [traceEq, List.filterMap_append, none, List.nil_append]

theorem dropped_shutdown :
    (redsocksShutdown client side how).dropped =
      (client.dropped || (redsocksShutdown client side how).bothShut) := by
  simp only [redsocksShutdown]
  split
  · next full => simpa [Client.bothShut] using Or.inr full
  · next room =>
    rw [Bool.not_eq_true] at room
    rw [room]
    simp

end Functions

end ProxySet
