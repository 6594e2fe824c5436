import ProxySet.Lib.FieldScript
import ProxySet.Redsocks.Shutdown

/-!
The dialogue of `socks5.c` with the server.  Each reply is a field of known size,
and the watermarks let in exactly that much, so the client is always at the place
of the dialogue's script that the bytes read so far lead to.
-/

namespace ProxySet

open StepRun FieldScript

/-- `05 00`, or `05 02 01 00` where password authentication has been offered. -/
inductive Greeting (valid : Bool) : Bytes → Prop where
  | none : Greeting valid [5, 0]
  | password : valid = true → Greeting valid [5, 2, 1, 0]

inductive Address : UInt8 → Bytes → Prop where
  | ipv4 {bytes : Bytes} : bytes.length = 6 → Address 1 bytes
  | ipv6 {bytes : Bytes} : bytes.length = 18 → Address 4 bytes
  | domain {size : UInt8} {bytes : Bytes} : bytes.length = size.toNat + 2 → Address 3 (size :: bytes)

/-- A complete dialogue, as the server speaks it. -/
inductive Dialogue (valid : Bool) : Bytes → Prop where
  | reply {greeting address : Bytes} (reserved : UInt8) {kind : UInt8} : Greeting valid greeting →
      Address kind address → Dialogue valid (greeting ++ [5, 0, reserved, kind] ++ address)

/-- A dialogue up to and with a reply that has a field with another value. -/
inductive Deviation (valid : Bool) : Bytes → Prop where
  | method (version method : UInt8) :
      ¬(version = 5 ∧ (method = 0 ∨ method = 2 ∧ valid = true)) → Deviation valid [version, method]
  | auth (version status : UInt8) : valid = true → ¬(version = 1 ∧ status = 0) →
      Deviation valid [5, 2, version, status]
  | reply {greeting : Bytes} (version status reserved kind : UInt8) : Greeting valid greeting →
      ¬(version = 5 ∧ status = 0 ∧ (kind = 1 ∨ kind = 4 ∨ kind = 3)) →
      Deviation valid (greeting ++ [version, status, reserved, kind])

def addressScript (size : Nat) : Script UInt8 :=
  .need size fun _ => .accept

def domainScript : Script UInt8 :=
  .need 1 fun size => addressScript ((size.getD 0 0).toNat + 2)

def replyScript : Script UInt8 :=
  .need 4 fun reply =>
    if reply.getD 0 0 = 5 ∧ reply.getD 1 0 = 0 then
      if reply.getD 3 0 = 1 then addressScript 6
      else if reply.getD 3 0 = 4 then addressScript 18
      else if reply.getD 3 0 = 3 then domainScript
      else .reject
    else .reject

def authScript : Script UInt8 :=
  .need 2 fun reply => if reply.getD 0 0 = 1 ∧ reply.getD 1 0 = 0 then replyScript else .reject

def methodScript (valid : Bool) : Script UInt8 :=
  .need 2 fun reply =>
    if reply.getD 0 0 = 5 ∧ reply.getD 1 0 = 0 then replyScript
    else if reply.getD 0 0 = 5 ∧ reply.getD 1 0 = 2 ∧ valid = true then authScript
    else .reject

section Texts

variable {valid : Bool} {text : Bytes} {last : Script UInt8}

theorem reaches_address_iff (size : Nat) (ended : last = .accept ∨ last = .reject) :
    Script.Reaches (addressScript size) text last ↔ last = .accept ∧ text.length = size := by
  rw [addressScript, Script.reaches_need_iff]
  constructor
  · rintro (⟨-, rfl⟩ | ⟨field, rest, full, rfl, later⟩)
    · simp at ended
    · obtain ⟨rfl, rfl⟩ := Script.reaches_accept_iff.mp later
      simpa using full
  · rintro ⟨rfl, full⟩
    exact Or.inr ⟨text, [], full, by simp, .here _⟩

theorem reaches_domain_iff (ended : last = .accept ∨ last = .reject) :
    Script.Reaches domainScript text last ↔
      last = .accept ∧ ∃ size bytes, text = size :: bytes ∧ bytes.length = size.toNat + 2 := by
  rw [domainScript, Script.reaches_need_iff]
  constructor
  · rintro (⟨-, rfl⟩ | ⟨field, rest, full, rfl, later⟩)
    · simp at ended
    · obtain ⟨size, rfl⟩ := List.length_eq_one_iff.mp full
      obtain ⟨rfl, bytes⟩ := (reaches_address_iff _ ended).mp later
      exact ⟨rfl, size, rest, rfl, bytes⟩
  · rintro ⟨rfl, size, bytes, rfl, full⟩
    exact Or.inr ⟨[size], bytes, rfl, rfl, (reaches_address_iff _ ended).mpr ⟨rfl, full⟩⟩

theorem exists_of_length_four {field : Bytes} (full : field.length = 4) :
    ∃ version status reserved kind, field = [version, status, reserved, kind] := by
  match field, full with
  | [version, status, reserved, kind], _ => exact ⟨version, status, reserved, kind, rfl⟩

theorem reaches_reply_iff (ended : last = .accept ∨ last = .reject) :
    Script.Reaches replyScript text last ↔
      (last = .accept ∧ ∃ reserved kind address, Address kind address ∧
        text = [5, 0, reserved, kind] ++ address) ∨
      (last = .reject ∧ ∃ version status reserved kind,
        ¬(version = 5 ∧ status = 0 ∧ (kind = 1 ∨ kind = 4 ∨ kind = 3)) ∧
          text = [version, status, reserved, kind]) := by
  rw [replyScript, Script.reaches_need_iff]
  constructor
  · rintro (⟨-, rfl⟩ | ⟨field, rest, full, rfl, later⟩)
    · simp at ended
    · obtain ⟨version, status, reserved, kind, rfl⟩ := exists_of_length_four full
      simp only [List.getD_cons_zero, List.getD_cons_succ] at later
      split at later
      · next success =>
        obtain ⟨rfl, rfl⟩ := success
        split at later
        · next ipv4 =>
          obtain ⟨rfl, bytes⟩ := (reaches_address_iff _ ended).mp later
          exact Or.inl ⟨rfl, reserved, kind, rest, ipv4 ▸ .ipv4 bytes, rfl⟩
        · split at later
          · next ipv6 =>
            obtain ⟨rfl, bytes⟩ := (reaches_address_iff _ ended).mp later
            exact Or.inl ⟨rfl, reserved, kind, rest, ipv6 ▸ .ipv6 bytes, rfl⟩
          · split at later
            · next domain =>
              obtain ⟨rfl, size, bytes, rfl, sized⟩ := (reaches_domain_iff ended).mp later
              exact Or.inl ⟨rfl, reserved, kind, _, domain ▸ .domain sized, rfl⟩
            · obtain ⟨rfl, rfl⟩ := Script.reaches_reject_iff.mp later
              exact Or.inr ⟨rfl, 5, 0, reserved, kind, by tauto, rfl⟩
      · next failure =>
        obtain ⟨rfl, rfl⟩ := Script.reaches_reject_iff.mp later
        exact Or.inr ⟨rfl, version, status, reserved, kind, by tauto, rfl⟩
  · rintro (⟨rfl, reserved, kind, address, known, rfl⟩ |
      ⟨rfl, version, status, reserved, kind, wrong, rfl⟩)
    · refine Or.inr ⟨[5, 0, reserved, kind], address, rfl, rfl, ?_⟩
      cases known with
      | ipv4 bytes => exact (reaches_address_iff 6 ended).mpr ⟨rfl, bytes⟩
      | ipv6 bytes => exact (reaches_address_iff 18 ended).mpr ⟨rfl, bytes⟩
      | domain bytes => exact (reaches_domain_iff ended).mpr ⟨rfl, _, _, rfl, bytes⟩
    · refine Or.inr ⟨[version, status, reserved, kind], [], rfl, by simp, ?_⟩
      simp only [List.getD_cons_zero, List.getD_cons_succ]
      split
      · next success =>
        rw [if_neg (by tauto), if_neg (by tauto), if_neg (by tauto)]
        exact .here _
      · exact .here _

theorem reaches_auth_iff (ended : last = .accept ∨ last = .reject) :
    Script.Reaches authScript text last ↔
      (∃ rest, text = [1, 0] ++ rest ∧ Script.Reaches replyScript rest last) ∨
      (last = .reject ∧ ∃ version status, ¬(version = 1 ∧ status = 0) ∧ text = [version, status]) := by
  rw [authScript, Script.reaches_need_iff]
  constructor
  · rintro (⟨-, rfl⟩ | ⟨field, rest, full, rfl, later⟩)
    · simp at ended
    · obtain ⟨version, status, rfl⟩ := List.length_eq_two.mp full
      simp only [List.getD_cons_zero, List.getD_cons_succ] at later
      split at later
      · next passed =>
        obtain ⟨rfl, rfl⟩ := passed
        exact Or.inl ⟨rest, rfl, later⟩
      · next refused =>
        obtain ⟨rfl, rfl⟩ := Script.reaches_reject_iff.mp later
        exact Or.inr ⟨rfl, version, status, refused, rfl⟩
  · rintro (⟨rest, rfl, later⟩ | ⟨rfl, version, status, wrong, rfl⟩)
    · exact Or.inr ⟨[1, 0], rest, rfl, rfl, later⟩
    · refine Or.inr ⟨[version, status], [], rfl, by simp, ?_⟩
      simp only [List.getD_cons_zero, List.getD_cons_succ]
      rw [if_neg wrong]
      exact .here _

theorem reaches_method_iff (ended : last = .accept ∨ last = .reject) :
    Script.Reaches (methodScript valid) text last ↔
      (∃ greeting rest, Greeting valid greeting ∧ text = greeting ++ rest ∧
        Script.Reaches replyScript rest last) ∨
      (last = .reject ∧ ((∃ version method,
          ¬(version = 5 ∧ (method = 0 ∨ method = 2 ∧ valid = true)) ∧ text = [version, method]) ∨
        (valid = true ∧ ∃ version status, ¬(version = 1 ∧ status = 0) ∧
          text = [5, 2, version, status]))) := by
  rw [methodScript, Script.reaches_need_iff]
  constructor
  · rintro (⟨-, rfl⟩ | ⟨field, rest, full, rfl, later⟩)
    · simp at ended
    · obtain ⟨version, method, rfl⟩ := List.length_eq_two.mp full
      simp only [List.getD_cons_zero, List.getD_cons_succ] at later
      split at later
      · next plain =>
        obtain ⟨rfl, rfl⟩ := plain
        exact Or.inl ⟨_, rest, .none, rfl, later⟩
      · split at later
        · next password =>
          obtain ⟨rfl, rfl, offered⟩ := password
          rcases (reaches_auth_iff ended).mp later with
            ⟨behind, rfl, replied⟩ | ⟨rfl, version, status, wrong, rfl⟩
          · exact Or.inl ⟨_, behind, .password offered, rfl, replied⟩
          · exact Or.inr ⟨rfl, Or.inr ⟨offered, version, status, wrong, rfl⟩⟩
        · obtain ⟨rfl, rfl⟩ := Script.reaches_reject_iff.mp later
          exact Or.inr ⟨rfl, Or.inl ⟨version, method, by tauto, rfl⟩⟩
  · rintro (⟨greeting, rest, greeted, rfl, later⟩ |
      ⟨rfl, ⟨version, method, wrong, rfl⟩ | ⟨offered, version, status, wrong, rfl⟩⟩)
    · cases greeted with
      | none => exact Or.inr ⟨[5, 0], rest, rfl, rfl, later⟩
      | password offered =>
          refine Or.inr ⟨[5, 2], [1, 0] ++ rest, rfl, rfl, ?_⟩
          simpa [offered] using (reaches_auth_iff ended).mpr (Or.inl ⟨rest, rfl, later⟩)
    · refine Or.inr ⟨[version, method], [], rfl, by simp, ?_⟩
      simp only [List.getD_cons_zero, List.getD_cons_succ]
      rw [if_neg (by tauto), if_neg (by tauto)]
      exact .here _
    · refine Or.inr ⟨[5, 2], [version, status], rfl, rfl, ?_⟩
      simpa [offered] using
        (reaches_auth_iff ended).mpr (Or.inr ⟨rfl, version, status, wrong, rfl⟩)

theorem dialogue_iff_reaches :
    Dialogue valid text ↔ Script.Reaches (methodScript valid) text .accept := by
  rw [reaches_method_iff (Or.inl rfl)]
  constructor
  · rintro ⟨reserved, greeted, known⟩
    refine Or.inl ⟨_, _, greeted, List.append_assoc _ _ _, ?_⟩
    exact (reaches_reply_iff (Or.inl rfl)).mpr (Or.inl ⟨rfl, reserved, _, _, known, rfl⟩)
  · rintro (⟨greeting, rest, greeted, rfl, later⟩ | ⟨ended, -⟩)
    · rcases (reaches_reply_iff (Or.inl rfl)).mp later with
        ⟨-, reserved, kind, address, known, rfl⟩ | ⟨ended, -⟩
      · rw [← List.append_assoc]
        exact .reply reserved greeted known
      · simp at ended
    · simp at ended

theorem deviation_iff_reaches :
    Deviation valid text ↔ Script.Reaches (methodScript valid) text .reject := by
  rw [reaches_method_iff (Or.inr rfl)]
  constructor
  · intro deviation
    cases deviation with
    | method version method wrong => exact Or.inr ⟨rfl, Or.inl ⟨version, method, wrong, rfl⟩⟩
    | auth version status offered wrong =>
        exact Or.inr ⟨rfl, Or.inr ⟨offered, version, status, wrong, rfl⟩⟩
    | reply version status reserved kind greeted wrong =>
        refine Or.inl ⟨_, _, greeted, rfl, ?_⟩
        exact (reaches_reply_iff (Or.inr rfl)).mpr
          (Or.inr ⟨rfl, version, status, reserved, kind, wrong, rfl⟩)
  · rintro (⟨greeting, rest, greeted, rfl, later⟩ |
      ⟨-, ⟨version, method, wrong, rfl⟩ | ⟨offered, version, status, wrong, rfl⟩⟩)
    · rcases (reaches_reply_iff (Or.inr rfl)).mp later with
        ⟨ended, -⟩ | ⟨-, version, status, reserved, kind, wrong, rfl⟩
      · simp at ended
      · exact .reply version status reserved kind greeted wrong
    · exact .method version method wrong
    · exact .auth version status offered wrong

end Texts

def Socks5State.script (socks5 : Socks5Client) : Socks5State → Script UInt8
  | .new | .methodSent => methodScript socks5.doPassword
  | .authSent => authScript
  | .requestSent => replyScript
  | .skipDomain => domainScript
  | .skipAddress => addressScript socks5.toSkip

/-- A socks5 client before the pump, as far as the state of the dialogue does not matter. -/
structure Shaking (client : Client) : Prop where
  live : client.dropped = false
  subsys : client.subsys = .socks5
  clientRead : client.client.readcb = .none
  clientWrite : client.client.writecb = .none
  unsent : client.client.sent ++ client.client.output = []
  unended : ∀ side, (client.evshut side).read = false
  unstarted : .startRelay ∉ client.trace

structure Talking (client : Client) (count : Nat) (next : Bytes → Script UInt8) : Prop
    extends Shaking client where
  phase : ∃ phase, client.state = .socks5 phase ∧ phase ≠ .new ∧
    phase.script client.socks5 = .need count next
  reading : client.relay.enabled.read = true
  readcb : client.relay.readcb = .subsys
  writecb : client.relay.writecb = .subsys
  watermark : client.relay.wmRead = { low := count, high := count }
  short : client.relay.input.length < count

/-- How far a socks5 client has come with what it has read from the server. -/
inductive Socks5Progress (valid : Bool) (client : Client) : Prop where
  | connecting : Shaking client → client.state = .socks5 .new →
      client.socks5.doPassword = valid → client.relay = redConnectRelay → Socks5Progress valid client
  | talking {front : Bytes} {count : Nat} {next : Bytes → Script UInt8} : Talking client count next →
      Script.Reaches (methodScript valid) front (.need count next) →
      client.relay.rcvd = front ++ client.relay.input → Socks5Progress valid client
  | dropped : client.dropped = true → .startRelay ∉ client.trace →
      Script.Reaches (methodScript valid) client.relay.rcvd .reject → Socks5Progress valid client
  | pumping {front : Bytes} : Pumping client → client.dropped = false →
      (∀ side, (client.evshut side).read = false) → .startRelay ∈ client.trace →
      Script.Reaches (methodScript valid) front .accept →
      client.relay.rcvd = front ++ client.handed → Socks5Progress valid client

section Steps

variable {world next : World} {client : Client} {event : Event} {env : Env} {valid : Bool}

theorem Shaking.setClient (shaking : Shaking client) {buffer : Bufferevent}
    (readcb : buffer.readcb = client.client.readcb) (writecb : buffer.writecb = client.client.writecb)
    (unsent : buffer.sent ++ buffer.output = client.client.sent ++ client.client.output) :
    Shaking (client.setBuf .client buffer) where
  live := shaking.live
  subsys := shaking.subsys
  clientRead := readcb.trans shaking.clientRead
  clientWrite := writecb.trans shaking.clientWrite
  unsent := unsent.trans shaking.unsent
  unended := by simpa using shaking.unended
  unstarted := shaking.unstarted

theorem Shaking.setRelay (shaking : Shaking client) (buffer : Bufferevent) :
    Shaking (client.setBuf .relay buffer) where
  live := shaking.live
  subsys := shaking.subsys
  clientRead := shaking.clientRead
  clientWrite := shaking.clientWrite
  unsent := shaking.unsent
  unended := by simpa using shaking.unended
  unstarted := shaking.unstarted

theorem Shaking.skip (shaking : Shaking client) (size : Nat) :
    Shaking { client with socks5 := { client.socks5 with toSkip := size } } where
  live := shaking.live
  subsys := shaking.subsys
  clientRead := shaking.clientRead
  clientWrite := shaking.clientWrite
  unsent := shaking.unsent
  unended
    | .client => shaking.unended .client
    | .relay => shaking.unended .relay
  unstarted := shaking.unstarted

def Event.ofClient : Event → Bool
  | .readData .client _ _ | .writeReady .client _ _ | .others _ => true
  | _ => false

theorem step_ofClient (shaking : Shaking world.client) (own : event.ofClient = true)
    (taken : step world event = some next) :
    ∃ buffer, next.client = world.client.setBuf .client buffer ∧
      buffer.readcb = world.client.client.readcb ∧ buffer.writecb = world.client.client.writecb ∧
      buffer.sent ++ buffer.output = world.client.client.sent ++ world.client.client.output := by
  have clientRead : (world.client.buf .client).readcb = .none := shaking.clientRead
  have clientWrite : (world.client.buf .client).writecb = .none := shaking.clientWrite
  simp only [step, shaking.live, Bool.false_eq_true, ↓reduceIte] at taken
  cases event with
  | readData side chunk env =>
      cases side with
      | relay => simp [Event.ofClient] at own
      | client =>
          simp only [Option.ite_none_right_eq_some] at taken
          obtain ⟨-, taken⟩ := taken
          refine ⟨world.client.client.receive chunk, ?_, rfl, rfl, rfl⟩
          split at taken
          · obtain rfl := returned taken
            simp only [runReadcb, World.withClient_client, Client.buf_setBuf_self,
              Bufferevent.receive_readcb, clientRead]
            rfl
          · obtain rfl := Option.some.inj taken
            rfl
  | writeReady side count env =>
      cases side with
      | relay => simp [Event.ofClient] at own
      | client =>
          simp only [Option.ite_none_right_eq_some] at taken
          obtain ⟨-, taken⟩ := taken
          refine ⟨world.client.client.transmit count, ?_, rfl, rfl, by simp⟩
          split at taken
          · obtain rfl := Option.some.inj taken
            simp only [runWritecb, World.withClient_client, Client.buf_setBuf_self,
              Bufferevent.transmit_writecb, clientWrite]
            rfl
          · obtain rfl := Option.some.inj taken
            rfl
  | report side what => simp [Event.ofClient] at own
  | others auth =>
      obtain rfl := Option.some.inj taken
      exact ⟨world.client.client, rfl, rfl, rfl, rfl⟩

/-- What the read callback makes of a client that has a whole field, by where the script goes on. -/
def Follows (client after : Client) : Script UInt8 → Prop
  | .accept => after = redsocksStartRelay Env.ok (client.setInput .relay [])
  | .reject => after.dropped = true ∧ .startRelay ∉ after.trace ∧
      after.relay.rcvd = client.relay.rcvd
  | .need count next => Talking after count next ∧ after.relay.input = [] ∧
      after.relay.rcvd = client.relay.rcvd

theorem Shaking.wait {phase : Socks5State} {count : Nat} {following : Bytes → Script UInt8}
    (shaking : Shaking client) (sent : phase ≠ .new)
    (script : phase.script client.socks5 = .need count following) (positive : 0 < count)
    (empty : client.relay.input = []) (readcb : client.relay.readcb = .subsys)
    (writecb : client.relay.writecb = .subsys) :
    Talking (redsocksWriteHelperWait client (.socks5 phase) count count) count following where
  live := shaking.live
  subsys := shaking.subsys
  clientRead := shaking.clientRead
  clientWrite := shaking.clientWrite
  unsent := shaking.unsent
  unended
    | .client => shaking.unended .client
    | .relay => shaking.unended .relay
  unstarted := by simpa [redsocksWriteHelperWait] using shaking.unstarted
  phase := ⟨phase, rfl, sent, script⟩
  reading := by simp [redsocksWriteHelperWait, Client.setBuf, Client.buf, EvBits.evRead]
  readcb := readcb
  writecb := writecb
  watermark := rfl
  short := by
    have input : (redsocksWriteHelperWait client (.socks5 phase) count count).relay.input = [] := empty
    rw [input]
    exact positive

theorem Shaking.rejected (shaking : Shaking client) {last : Client}
    (trace : last.trace = client.trace ∨ ∃ message, last.trace = .log message :: client.trace)
    (rcvd : last.relay.rcvd = client.relay.rcvd) : Follows client (redsocksDropClient last) .reject := by
  refine ⟨rfl, ?_, rcvd⟩
  rcases trace with same | ⟨message, logged⟩
  · simpa [same] using shaking.unstarted
  · simpa [logged] using shaking.unstarted

theorem readExpected_whole {comparator : Nat → Nat → Bool} {count : Nat}
    (fits : comparator count count = true) (full : client.relay.input.length = count) :
    redsocksReadExpected client comparator count =
      (some client.relay.input, client.setInput .relay []) := by
  subst full
  simp [redsocksReadExpected, fits, Client.setInput, Client.buf]

theorem writeHelper_made (smooth : env.smooth) (client : Client) (data : Bytes) (state : State)
    (count : Nat) : redsocksWriteHelper env client (.make env data) state count =
      redsocksWriteHelperWait (client.modify .relay (·.write data)) state count count := by
  simp [redsocksWriteHelper, redsocksWriteHelperEx, Message.make, smooth .mkmessage,
    smooth .writeBuffer]

theorem Shaking.follows {phase : Socks5State} {count : Nat} {following : Bytes → Script UInt8}
    {last : Client} (shaking : Shaking last) (sent : phase ≠ .new)
    (script : phase.script last.socks5 = .need count following) (positive : 0 < count)
    (empty : last.relay.input = []) (readcb : last.relay.readcb = .subsys)
    (writecb : last.relay.writecb = .subsys) (rcvd : last.relay.rcvd = client.relay.rcvd) :
    Follows client (redsocksWriteHelperWait last (.socks5 phase) count count)
      (.need count following) :=
  ⟨shaking.wait sent script positive empty readcb writecb, empty, rcvd⟩

theorem socks5IsKnownAuthMethod_eq_none_iff (doPassword : Bool) (version method : UInt8) :
    socks5IsKnownAuthMethod version method doPassword = none ↔
      version = 5 ∧ (method = 0 ∨ method = 2 ∧ doPassword = true) := by
  unfold socks5IsKnownAuthMethod
  split
  · simp_all
  · split
    · next refused => simp [refused]
    · split <;> simp_all [or_iff_not_imp_left]

section Callback

variable (config : Config) (shaking : Shaking client) (readcb : client.relay.readcb = .subsys)
  (writecb : client.relay.writecb = .subsys) (smooth : env.smooth)

include shaking readcb writecb smooth

theorem socks5ReadAuthMethods_follows (full : client.relay.input.length = 2) :
    Follows client (socks5ReadAuthMethods env config client)
      (if client.relay.input.getD 0 0 = 5 ∧ client.relay.input.getD 1 0 = 0 then replyScript
        else if client.relay.input.getD 0 0 = 5 ∧ client.relay.input.getD 1 0 = 2 ∧
          client.socks5.doPassword = true then authScript
        else .reject) := by
  have known := socks5IsKnownAuthMethod_eq_none_iff client.socks5.doPassword
  simp only [socks5ReadAuthMethods, readExpected_whole (show sizesEqual 2 2 = true from rfl) full]
  split
  · next error unknown =>
    have wrong := fun fine =>
      Option.some_ne_none error (unknown.symm.trans ((known _ _).mpr fine))
    rw [if_neg (by tauto), if_neg (by tauto)]
    exact shaking.rejected (Or.inr ⟨_, rfl⟩) rfl
  · next accepted =>
    obtain ⟨version, method⟩ := (known _ _).mp accepted
    by_cases plain : client.relay.input.getD 1 0 = 0
    · rw [if_pos plain, if_pos ⟨version, plain⟩, writeHelper_made smooth]
      exact (shaking.setRelay _).follows (by simp) rfl (by simp) rfl readcb writecb rfl
    · obtain ⟨password, offered⟩ := method.resolve_left plain
      rw [if_neg plain, if_pos password, if_neg (by tauto), if_pos ⟨version, password, offered⟩,
        writeHelper_made smooth]
      exact (shaking.setRelay _).follows (by simp) rfl (by simp) rfl readcb writecb rfl

theorem socks5ReadAuthReply_follows (full : client.relay.input.length = 2) :
    Follows client (socks5ReadAuthReply env client)
      (if client.relay.input.getD 0 0 = 1 ∧ client.relay.input.getD 1 0 = 0 then replyScript
        else .reject) := by
  simp only [socks5ReadAuthReply, readExpected_whole (show sizesEqual 2 2 = true from rfl) full]
  by_cases version : client.relay.input.getD 0 0 = 1
  · rw [if_neg (not_not.mpr version)]
    by_cases status : client.relay.input.getD 1 0 = 0
    · rw [if_pos status, if_pos ⟨version, status⟩, writeHelper_made smooth]
      exact (shaking.setRelay _).follows (by simp) rfl (by simp) rfl readcb writecb rfl
    · rw [if_neg status, if_neg (by tauto)]
      exact shaking.rejected (Or.inl rfl) rfl
  · rw [if_pos version, if_neg (by tauto)]
    exact shaking.rejected (Or.inr ⟨_, rfl⟩) rfl

omit smooth in
theorem socks5ReadReply_follows (full : client.relay.input.length = 4) :
    Follows client (socks5ReadReply env client)
      (if client.relay.input.getD 0 0 = 5 ∧ client.relay.input.getD 1 0 = 0 then
        if client.relay.input.getD 3 0 = 1 then addressScript 6
        else if client.relay.input.getD 3 0 = 4 then addressScript 18
        else if client.relay.input.getD 3 0 = 3 then domainScript
        else .reject
      else .reject) := by
  simp only [socks5ReadReply, readExpected_whole (show sizesGreaterEqual 4 4 = true from rfl) full]
  by_cases version : client.relay.input.getD 0 0 = 5
  · rw [if_neg (not_not.mpr version)]
    by_cases status : client.relay.input.getD 1 0 = 0
    · have success := And.intro version status
      rw [if_pos status, if_pos success]
      by_cases ipv4 : client.relay.input.getD 3 0 = 1
      · rw [if_pos ipv4, if_pos ipv4]
        exact ((shaking.setRelay _).skip 6).follows (by simp) rfl (by simp) rfl readcb writecb rfl
      · rw [if_neg ipv4, if_neg ipv4]
        by_cases ipv6 : client.relay.input.getD 3 0 = 4
        · rw [if_pos ipv6, if_pos ipv6]
          exact ((shaking.setRelay _).skip 18).follows (by simp) rfl (by simp) rfl readcb writecb rfl
        · rw [if_neg ipv6, if_neg ipv6]
          by_cases domain : client.relay.input.getD 3 0 = 3
          · rw [if_pos domain, if_pos domain]
            exact (shaking.setRelay _).follows (by simp) rfl (by simp) rfl readcb writecb rfl
          · rw [if_neg domain, if_neg domain]
            exact shaking.rejected (Or.inr ⟨_, rfl⟩) rfl
    · rw [if_neg status, if_neg (by tauto)]
      exact shaking.rejected (Or.inr ⟨_, rfl⟩) rfl
  · rw [if_pos version, if_neg (by tauto)]
    exact shaking.rejected (Or.inr ⟨_, rfl⟩) rfl

theorem socks5ReadCb_follows {phase : Socks5State} {count : Nat} {following : Bytes → Script UInt8}
    (state : client.state = .socks5 phase) (sent : phase ≠ .new)
    (script : phase.script client.socks5 = .need count following)
    (full : client.relay.input.length = count) :
    Follows client (socks5ReadCb env config client) (following client.relay.input) := by
  cases phase with
  | new => exact absurd rfl sent
  | methodSent =>
      obtain ⟨rfl, rfl⟩ := Script.need.inj script
      simp only [socks5ReadCb, state]
      exact socks5ReadAuthMethods_follows config shaking readcb writecb smooth full
  | authSent =>
      obtain ⟨rfl, rfl⟩ := Script.need.inj script
      simp only [socks5ReadCb, state]
      exact socks5ReadAuthReply_follows shaking readcb writecb smooth full
  | requestSent =>
      obtain ⟨rfl, rfl⟩ := Script.need.inj script
      simp only [socks5ReadCb, state]
      exact socks5ReadReply_follows shaking readcb writecb full
  | skipDomain =>
      obtain ⟨rfl, rfl⟩ := Script.need.inj script
      simp only [socks5ReadCb, state,
        readExpected_whole (show sizesGreaterEqual 1 1 = true from rfl) full]
      exact ((shaking.setRelay _).skip _).follows (by simp) rfl (by simp) rfl readcb writecb rfl
  | skipAddress =>
      obtain ⟨rfl, rfl⟩ := Script.need.inj script
      have fits : sizesGreaterEqual client.socks5.toSkip client.socks5.toSkip = true := by
        simp [sizesGreaterEqual]
      simp only [socks5ReadCb, state, readExpected_whole fits full]
      exact startRelay_smooth smooth _

end Callback

theorem step_connecting (shaking : Shaking world.client) (state : world.client.state = .socks5 .new)
    (relay : world.client.relay = redConnectRelay) (smooth : event.smooth)
    (other : event.ofClient = false) (taken : step world event = some next) :
    ∃ following, methodScript world.client.socks5.doPassword = .need 2 following ∧
      Talking next.client 2 following ∧ next.client.relay.rcvd = [] ∧
      next.client.relay.input = [] := by
  have buffer : world.client.buf .relay = redConnectRelay := relay
  simp only [step, shaking.live, Bool.false_eq_true, ↓reduceIte] at taken
  cases event with
  | readData side chunk env =>
      cases side with
      | client => simp [Event.ofClient] at other
      | relay =>
          simp [buffer, Bufferevent.canRead, redConnectRelay, Bufferevent.new, EvBits.evWrite] at taken
  | writeReady side count env =>
      cases side with
      | client => simp [Event.ofClient] at other
      | relay =>
          simp only [Option.ite_none_right_eq_some] at taken
          obtain ⟨-, taken⟩ := taken
          rw [if_pos (by simp [buffer, redConnectRelay, Bufferevent.new])] at taken
          obtain rfl := Option.some.inj taken
          have connected : (redConnectRelay.transmit count).writecb = .connected := rfl
          have fine : env.fails .connected = false := smooth .connected
          simp only [runWritecb, World.withClient_client, Client.buf_setBuf_self, buffer, connected,
            redsocksRelayConnected, fine, Bool.false_eq_true, ↓reduceIte, relaySsWritecb,
            Client.modify, Client.setBuf_subsys, shaking.subsys, socks5WriteCb, Client.setBuf_state,
            state, writeHelper_made smooth]
          refine ⟨_, rfl, ?_, ?_, ?_⟩
          · exact ((shaking.setRelay _).setRelay _).wait (by simp) rfl (by simp) rfl rfl rfl
          · rfl
          · rfl
  | report side what => exact smooth.elim
  | others auth => simp [Event.ofClient] at other

variable {count : Nat} {following : Bytes → Script UInt8}

theorem Talking.setClient (talking : Talking client count following) {buffer : Bufferevent}
    (shaking : Shaking (client.setBuf .client buffer)) :
    Talking (client.setBuf .client buffer) count following :=
  { shaking with
    phase := talking.phase
    reading := talking.reading
    readcb := talking.readcb
    writecb := talking.writecb
    watermark := talking.watermark
    short := talking.short }

theorem step_talking_write {amount : Nat} (talking : Talking world.client count following)
    (taken : step world (.writeReady .relay amount env) = some next) :
    next.client = world.client.setBuf .relay (world.client.relay.transmit amount) := by
  obtain ⟨phase, state, sent, -⟩ := talking.phase
  have writecb : (world.client.buf .relay).writecb = .subsys := talking.writecb
  simp only [step, talking.live, Bool.false_eq_true, ↓reduceIte,
    Option.ite_none_right_eq_some] at taken
  obtain ⟨-, taken⟩ := taken
  split at taken
  · obtain rfl := Option.some.inj taken
    simp only [runWritecb, World.withClient_client, Client.buf_setBuf_self,
      Bufferevent.transmit_writecb, writecb, relaySsWritecb, Client.setBuf_subsys, talking.subsys,
      socks5WriteCb, Client.setBuf_state, state]
    split
    · next new => exact absurd (State.socks5.inj new) sent
    · rfl
  · obtain rfl := Option.some.inj taken
    rfl

theorem step_talking_read {chunk : Bytes} (talking : Talking world.client count following)
    (taken : step world (.readData .relay chunk env) = some next) :
    (world.client.relay.input ++ chunk).length ≤ count ∧ next.client =
      if (world.client.relay.input ++ chunk).length < count then
        world.client.setBuf .relay (world.client.relay.receive chunk)
      else socks5ReadCb env world.config
        (world.client.setBuf .relay (world.client.relay.receive chunk)) := by
  have readcb : (world.client.buf .relay).readcb = .subsys := talking.readcb
  have watermark : (world.client.buf .relay).wmRead = { low := count, high := count } :=
    talking.watermark
  have positive : count ≠ 0 := Nat.ne_of_gt (Nat.zero_lt_of_lt talking.short)
  simp only [step, talking.live, Bool.false_eq_true, ↓reduceIte, Option.ite_none_right_eq_some,
    Bool.and_eq_true] at taken
  obtain ⟨⟨-, fits⟩, taken⟩ := taken
  have room : (world.client.relay.input ++ chunk).length ≤ count := by
    simp only [Bufferevent.fits, watermark, Bool.and_eq_true, Bool.or_eq_true, beq_iff_eq, positive,
      false_or, decide_eq_true_eq] at fits
    rw [List.length_append]
    exact fits.2
  refine ⟨room, ?_⟩
  rw [watermark] at taken
  split at taken
  · next full =>
    obtain rfl := returned taken
    have whole : ¬(world.client.relay.input ++ chunk).length < count := Nat.not_lt.mpr full
    rw [if_neg whole]
    simp only [runReadcb, World.withClient_client, Client.buf_setBuf_self, Bufferevent.receive_readcb,
      readcb, relaySsReadcb, Client.setBuf_subsys, talking.subsys]
    rfl
  · next partly =>
    obtain rfl := Option.some.inj taken
    have less : (world.client.relay.input ++ chunk).length < count := Nat.lt_of_not_le partly
    rw [if_pos less]
    rfl

theorem Talking.setRelay (talking : Talking client count following) {buffer : Bufferevent}
    (enabled : buffer.enabled = client.relay.enabled) (readcb : buffer.readcb = client.relay.readcb)
    (writecb : buffer.writecb = client.relay.writecb) (wmRead : buffer.wmRead = client.relay.wmRead)
    (short : buffer.input.length < count) : Talking (client.setBuf .relay buffer) count following :=
  { talking.toShaking.setRelay buffer with
    phase := talking.phase
    reading := (congrArg EvBits.read enabled).trans talking.reading
    readcb := readcb.trans talking.readcb
    writecb := writecb.trans talking.writecb
    watermark := wmRead.trans talking.watermark
    short := short }

theorem Socks5Progress.of_follows {after : Client} {front : Bytes} (reached : Reached after)
    (shaking : Shaking client)
    (follows : Follows client after (following client.relay.input))
    (reaches : Script.Reaches (methodScript valid) front (.need count following))
    (full : client.relay.input.length = count)
    (rcvd : client.relay.rcvd = front ++ client.relay.input) : Socks5Progress valid after := by
  have later := reaches.step full
  rw [← rcvd] at later
  cases place : following client.relay.input with
  | accept =>
      rw [place] at follows later
      have afterEq : after = redsocksStartRelay Env.ok (client.setInput .relay []) := follows
      subst afterEq
      refine .pumping (reached.pumping rfl shaking.live) shaking.live ?_ ?_ later ?_
      · intro side
        rw [evshut_startRelay]
        exact (shaking.setRelay _).unended side
      · simp [trace_startRelay]
      · have unsent : (client.setInput .relay []).client.sent ++
            (client.setInput .relay []).client.output = [] := shaking.unsent
        rw [handed_startRelay, unsent]
        simp [Client.setInput, Client.setBuf, redsocksStartRelay, Env.ok, Client.buf, Client.fini]
  | reject =>
      rw [place] at follows later
      exact .dropped follows.1 follows.2.1 (follows.2.2 ▸ later)
  | need size next =>
      rw [place] at follows later
      exact .talking follows.1 later (by simp [follows.2.1, follows.2.2])

theorem PumpStep.unended {client after : Client} (taken : PumpStep client event after)
    (smooth : event.smooth) (unended : ∀ side, (client.evshut side).read = false) :
    (∀ side, (after.evshut side).read = false) ∧ after.dropped = client.dropped ∧
      ∀ entry ∈ client.trace, entry ∈ after.trace := by
  cases taken with
  | others => exact ⟨unended, rfl, fun _ member => member⟩
  | read side chunk env =>
      simp only [redsocksRelayReadcb]
      split
      · exact ⟨by simpa [Client.writeBuffer] using unended, rfl, fun _ member => member⟩
      · split
        · exact ⟨by simpa using unended, rfl, fun _ member => member⟩
        · exact ⟨by simpa using unended, rfl, fun _ member => member⟩
  | sent side amount env => exact ⟨by simpa using unended, rfl, fun _ member => member⟩
  | drained side amount env =>
      simp only [redsocksRelayWritecb, Client.evshut_call, Client.evshut_setBuf, unended,
        Bool.false_eq_true, and_false, ↓reduceIte, Bool.not_false, Bool.true_and]
      split
      · split
        · refine ⟨by simpa [Client.writeBuffer] using unended, rfl, ?_⟩
          intro entry member
          simp [Client.writeBuffer, member]
        · refine ⟨by simpa [Client.writeBuffer] using unended, rfl, ?_⟩
          intro entry member
          simp [Client.writeBuffer, member]
      · refine ⟨by simpa using unended, rfl, ?_⟩
        intro entry member
        simp [member]
  | eof side => exact smooth.elim

theorem step_socks5Progress (reached : Reached world.client)
    (progress : Socks5Progress valid world.client) (smooth : event.smooth)
    (taken : step world event = some next) : Socks5Progress valid next.client := by
  have later := reached_step reached taken
  cases progress with
  | connecting shaking state offered relay =>
      cases own : event.ofClient with
      | true =>
          obtain ⟨buffer, nextEq, readcb, writecb, unsent⟩ := step_ofClient shaking own taken
          rw [nextEq]
          exact .connecting (shaking.setClient readcb writecb unsent) state offered relay
      | false =>
          obtain ⟨following, script, talking, rcvd, input⟩ :=
            step_connecting shaking state relay smooth own taken
          rw [offered] at script
          have start : Script.Reaches (methodScript valid) [] (.need 2 following) := by
            rw [← script]
            exact .here _
          exact .talking talking start (by simp [rcvd, input])
  | @talking front count following talking reaches rcvd =>
      cases own : event.ofClient with
      | true =>
          obtain ⟨buffer, nextEq, readcb, writecb, unsent⟩ :=
            step_ofClient talking.toShaking own taken
          rw [nextEq]
          exact .talking (talking.setClient (talking.toShaking.setClient readcb writecb unsent))
            reaches rcvd
      | false =>
          cases event with
          | readData side chunk env =>
              cases side with
              | client => simp [Event.ofClient] at own
              | relay =>
                  obtain ⟨room, nextEq⟩ := step_talking_read talking taken
                  have received : (world.client.relay.receive chunk).rcvd =
                      front ++ (world.client.relay.receive chunk).input := by
                    simp [rcvd]
                  split at nextEq
                  · next less =>
                    rw [nextEq]
                    exact .talking (talking.setRelay rfl rfl rfl rfl less) reaches received
                  · next full =>
                    obtain ⟨phase, state, sent, script⟩ := talking.phase
                    have shaking := talking.toShaking.setRelay (world.client.relay.receive chunk)
                    have whole := Nat.le_antisymm room (Nat.le_of_not_lt full)
                    refine .of_follows later shaking ?_ reaches whole received
                    rw [nextEq]
                    exact socks5ReadCb_follows world.config shaking talking.readcb talking.writecb
                      smooth state sent script whole
          | writeReady side amount env =>
              cases side with
              | client => simp [Event.ofClient] at own
              | relay =>
                  rw [step_talking_write talking taken]
                  exact .talking (talking.setRelay rfl rfl rfl rfl talking.short) reaches rcvd
          | report side what => exact smooth.elim
          | others auth => simp [Event.ofClient] at own
  | dropped dropped => simp [step_live taken] at dropped
  | pumping pumping live unended started reaches rcvd =>
      have pumped := step_pumpStep pumping (smooth_calm smooth) taken
      obtain ⟨open_, alive, called⟩ := pumped.unended smooth unended
      refine .pumping (pumped.pumping pumping) (alive.trans live) open_ (called _ started) reaches ?_
      rw [handed_pumpStep pumped pumping, ← List.append_assoc, ← rcvd]
      exact pumped.received pumping .relay

end Steps

section Runs

def Begins (texts : Bytes → Prop) (stream : Bytes) : Prop :=
  ∃ front rest, texts front ∧ stream = front ++ rest

/-- The connection to the server is reported, or more of the stream is read. -/
def MayHear (world : World) (stream : Bytes) : Prop :=
  (world.client.state = .socks5 .new ∧ (step world (.writeReady .relay 0 Env.ok)).isSome = true) ∨
    ∃ chunk, world.client.relay.rcvd ++ chunk <+: stream ∧
      (step world (.readData .relay chunk Env.ok)).isSome = true

variable {env : Env} {config : Config} {auth : HttpAuth} {address : SockaddrIn} {events : List Event}
  {final : World} {valid : Bool} {stream : Bytes}

theorem socks5Progress_accepted (smooth : env.smooth) :
    Socks5Progress (socks5IsValidCred config.login config.password)
      (redsocksAcceptClient env config .socks5 address) := by
  simp only [redsocksAcceptClient, smooth .acceptEnable, Bool.false_eq_true, ↓reduceIte,
    redsocksConnectRelay, smooth .connectRelay]
  refine .connecting ⟨rfl, rfl, rfl, rfl, rfl, ?_, ?_⟩ rfl rfl rfl
  · intro side
    cases side <;> rfl
  · simp [newClient]

theorem run_socks5Progress (smooth : env.smooth) (smoothly : ∀ event ∈ events, event.smooth)
    (ran : run step events (acceptedWorld env config auth .socks5 address) = some final) :
    Socks5Progress (socks5IsValidCred config.login config.password) final.client := by
  have start : Reached (redsocksAcceptClient env config .socks5 address) :=
    reached_accept env config .socks5 address
  have kept : Reached final.client ∧
      Socks5Progress (socks5IsValidCred config.login config.password) final.client := by
    refine run_invariant_along (fun world => Reached world.client ∧
      Socks5Progress (socks5IsValidCred config.login config.password) world.client) ?_
      ⟨start, socks5Progress_accepted smooth⟩ (along_of_forall smoothly _) ran
    intro world event next ⟨reached, progress⟩ fine taken
    exact ⟨reached_step reached taken, step_socks5Progress reached progress fine taken⟩
  exact kept.2

theorem begins_dialogue_iff : Begins (Dialogue valid) stream ↔
    ∃ rest, (methodScript valid).hear stream = .accepted rest := by
  simp only [Begins, Script.hear_eq_accepted_iff, dialogue_iff_reaches]
  exact exists_comm

theorem begins_deviation_iff : Begins (Deviation valid) stream ↔
    (methodScript valid).hear stream = .rejected := by
  simp only [Begins, Script.hear_eq_rejected_iff, deviation_iff_reaches]

theorem mayHear_connecting (shaking : Shaking final.client) (state : final.client.state = .socks5 .new)
    (relay : final.client.relay = redConnectRelay) (stream : Bytes) : MayHear final stream := by
  refine Or.inl ⟨state, ?_⟩
  have buffer : final.client.buf .relay = redConnectRelay := relay
  simp [step, shaking.live, buffer, redConnectRelay, Bufferevent.new, Bufferevent.mayTransmit,
    EvBits.evWrite]

theorem mayHear_talking {count : Nat} {following : Bytes → Script UInt8}
    (talking : Talking final.client count following)
    (ahead : final.client.relay.rcvd <+: stream) (more : final.client.relay.rcvd ≠ stream) :
    MayHear final stream := by
  obtain ⟨rest, rfl⟩ := ahead
  cases rest with
  | nil => simp at more
  | cons byte rest =>
      refine Or.inr ⟨[byte], ⟨rest, by simp⟩, ?_⟩
      have enabled : (final.client.buf .relay).enabled.read = true := talking.reading
      have watermark : (final.client.buf .relay).wmRead = { low := count, high := count } :=
        talking.watermark
      have short : (final.client.buf .relay).input.length < count := talking.short
      have room : (final.client.buf .relay).input.length + 1 ≤ count := short
      have reads : ((final.client.buf .relay).canRead && (final.client.buf .relay).fits [byte]) =
          true := by
        simp [Bufferevent.canRead, Bufferevent.readSuspended, Bufferevent.fits, enabled, watermark,
          short, room]
      have readcb : (final.client.buf .relay).readcb = .subsys := talking.readcb
      simp only [step, talking.live, Bool.false_eq_true, ↓reduceIte, reads, readcb, endless_subsys]
      split <;> rfl

/-- What a client has made of the stream that the server sends. -/
structure Socks5Exact (valid : Bool) (stream : Bytes) (world : World) : Prop where
  starts : .startRelay ∈ world.client.trace → Begins (Dialogue valid) stream
  started : Begins (Dialogue valid) stream →
    .startRelay ∈ world.client.trace ∨ MayHear world stream
  drops : world.client.dropped = true →
    Begins (Deviation valid) stream ∧ .startRelay ∉ world.client.trace
  dropped : Begins (Deviation valid) stream → world.client.dropped = true ∨ MayHear world stream
  handed : .startRelay ∈ world.client.trace → ∃ dialogue, Dialogue valid dialogue ∧
    world.client.relay.rcvd = dialogue ++ world.client.handed

theorem socks5_handshake_exact (smooth : env.smooth) (smoothly : ∀ event ∈ events, event.smooth)
    (ran : run step events (acceptedWorld env config auth .socks5 address) = some final)
    (ahead : final.client.relay.rcvd <+: stream) :
    Socks5Exact (socks5IsValidCred config.login config.password) stream final := by
  have progress := run_socks5Progress smooth smoothly ran
  obtain ⟨more, rfl⟩ := ahead
  cases progress with
  | connecting shaking state offered relay =>
      have hears := mayHear_connecting shaking state relay (final.client.relay.rcvd ++ more)
      exact ⟨fun started => absurd started shaking.unstarted, fun _ => Or.inr hears,
        fun dropped => by simp [shaking.live] at dropped, fun _ => Or.inr hears,
        fun started => absurd started shaking.unstarted⟩
  | talking talking reaches rcvd =>
      have undecided : (methodScript (socks5IsValidCred config.login config.password)).hear
          final.client.relay.rcvd = .short := by
        rw [rcvd, Script.hear_of_reaches reaches, Script.hear_need_of_short talking.short]
      have hears : final.client.relay.rcvd ≠ final.client.relay.rcvd ++ more →
          MayHear final (final.client.relay.rcvd ++ more) :=
        mayHear_talking talking (List.prefix_append _ _)
      refine ⟨fun started => absurd started talking.unstarted, ?_,
        fun dropped => by simp [talking.live] at dropped, ?_,
        fun started => absurd started talking.unstarted⟩
      · rw [begins_dialogue_iff]
        rintro ⟨rest, heard⟩
        refine Or.inr (hears fun same => ?_)
        rw [← same, undecided] at heard
        simp at heard
      · rw [begins_deviation_iff]
        intro heard
        refine Or.inr (hears fun same => ?_)
        rw [← same, undecided] at heard
        simp at heard
  | dropped dropped unstarted reaches =>
      have deviates := begins_deviation_iff.mpr (Script.hear_of_reaches reaches more)
      refine ⟨fun started => absurd started unstarted, ?_, fun _ => ⟨deviates, unstarted⟩,
        fun _ => Or.inl dropped, fun started => absurd started unstarted⟩
      rw [begins_dialogue_iff]
      rintro ⟨rest, heard⟩
      simp [begins_deviation_iff.mp deviates] at heard
  | @pumping front pumping live unended started reaches rcvd =>
      have accepted : (methodScript (socks5IsValidCred config.login config.password)).hear
          (final.client.relay.rcvd ++ more) = .accepted (final.client.handed ++ more) := by
        rw [rcvd, List.append_assoc, Script.hear_of_reaches reaches]
        rfl
      refine ⟨fun _ => begins_dialogue_iff.mpr ⟨_, accepted⟩, fun _ => Or.inl started,
        fun dropped => by simp [live] at dropped, ?_,
        fun _ => ⟨front, dialogue_iff_reaches.mpr reaches, rcvd⟩⟩
      rw [begins_deviation_iff, accepted]
      simp

def dialogueReads : List Event :=
  [.writeReady .relay 0 Env.ok, .readData .relay [5, 0] Env.ok,
    .readData .relay [5, 0, 0, 1] Env.ok, .readData .relay [10, 0, 0, 1, 0, 80] Env.ok]

theorem socks5_handshake_exact_accepted :
    ∃ final, run step dialogueReads (plainWorld .socks5) = some final ∧
      .startRelay ∈ final.client.trace ∧
      Socks5Exact false [5, 0, 5, 0, 0, 1, 10, 0, 0, 1, 0, 80, 104, 105] final := by
  have goes : (run step dialogueReads (plainWorld .socks5)).any (fun final =>
      decide (.startRelay ∈ final.client.trace) &&
        final.client.relay.rcvd == [5, 0, 5, 0, 0, 1, 10, 0, 0, 1, 0, 80]) = true := by
    decide +kernel
  obtain ⟨final, ran, decided⟩ := (Option.any_eq_true _ _).mp goes
  rw [Bool.and_eq_true, decide_eq_true_eq, beq_iff_eq] at decided
  refine ⟨final, ran, decided.1, socks5_handshake_exact (fun _ => rfl) ?_ ran ?_⟩
  · intro event member
    simp only [dialogueReads, List.mem_cons, List.not_mem_nil, or_false] at member
    rcases member with rfl | rfl | rfl | rfl <;> exact fun _ => rfl
  · rw [decided.2]
    exact ⟨[104, 105], rfl⟩

/-- A stream of one byte whose version is wrong has been read, and the client waits for more. -/
theorem socks5_waits_behind_version :
    ∃ final, run step [.writeReady .relay 0 Env.ok, .readData .relay [4] Env.ok] (plainWorld .socks5) =
        some final ∧ final.client.relay.rcvd = [4] ∧ (4 : UInt8) ≠ 5 ∧
      final.client.dropped = false ∧ ¬MayHear final [4] := by
  have waits : (run step [.writeReady .relay 0 Env.ok, .readData .relay [4] Env.ok]
      (plainWorld .socks5)).any (fun final => final.client.relay.rcvd == [4] &&
        !final.client.dropped && decide (final.client.state = .socks5 .methodSent)) = true := by
    decide +kernel
  obtain ⟨final, ran, decided⟩ := (Option.any_eq_true _ _).mp waits
  simp only [Bool.and_eq_true, beq_iff_eq, Bool.not_eq_true', decide_eq_true_eq] at decided
  obtain ⟨⟨rcvd, live⟩, state⟩ := decided
  refine ⟨final, ran, rcvd, by decide, live, ?_⟩
  rintro (⟨new, -⟩ | ⟨chunk, ahead, reads⟩)
  · simp [state] at new
  · rw [rcvd] at ahead
    have empty : chunk = [] := by simpa using ahead.length_le
    simp [step, live, empty, Bufferevent.fits] at reads

end Runs

end ProxySet
