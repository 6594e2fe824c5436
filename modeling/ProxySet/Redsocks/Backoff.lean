import Mathlib.Algebra.Group.Nat.Defs
import ProxySet.Lib.StepRun

/-!
The listening side of all instances: the `listener` event and the `accept_backoff`
timer of each, the marks redsocks keeps of them, and what libevent's queues hold.
Every close of a descriptor may take one instance out of its back-off.
-/

namespace ProxySet.Backoff

/-- Where libevent keeps an event: nowhere, among the inserted ones with the milliseconds of its
timeout, or on the active queue after its timeout has passed. -/
inductive Queued where
  | none
  | inserted (timeout : Option Nat)
  | active
deriving DecidableEq, Repr

/-- `inserted` is a `timeval` in microseconds.  `queued` is libevent's own record, which a `memset`
of the event does not reach. -/
structure TrackedEvent where
  initialized : Bool
  inserted : Int
  queued : Queued
deriving DecidableEq, Repr

def TrackedEvent.marked (event : TrackedEvent) : Bool := event.inserted != 0

def TrackedEvent.inLoop (event : TrackedEvent) : Bool := event.queued != .none

def trackedEventSet (event : TrackedEvent) : TrackedEvent :=
  { event with initialized := true, inserted := 0 }

def trackedEventAdd (event : TrackedEvent) (timeout : Option Nat) (stamp : Int) : TrackedEvent :=
  { event with queued := .inserted timeout, inserted := stamp }

def trackedEventDel (event : TrackedEvent) : TrackedEvent :=
  { event with queued := .none, inserted := 0 }

def TrackedEvent.memset (event : TrackedEvent) : TrackedEvent :=
  { event with initialized := false, inserted := 0 }

/-- `fdClosed` tells whether the listener's descriptor has been closed, and `lateInsert` whether the
listener has been inserted after that; no function of the program reads them. -/
structure Instance where
  minBackoffMs : Nat
  maxBackoffMs : Nat
  acceptBackoffMs : Nat
  listener : TrackedEvent
  acceptBackoff : TrackedEvent
  fdClosed : Bool
  lateInsert : Bool
deriving DecidableEq, Repr

/-- One call of `redsocks_close`: what `close` answers, the time `redsocks_close_internal` reads, and
the time `tracked_event_add` reads should an instance be taken out of its back-off. -/
structure Close where
  ok : Bool
  now : Int
  stamp : Int
deriving DecidableEq, Repr

def redsocksAcceptBackoff (stamp : Int) (self : Instance) : Instance :=
  { self with
    acceptBackoff := trackedEventDel self.acceptBackoff
    listener := trackedEventAdd self.listener none stamp
    lateInsert := self.lateInsert || self.fdClosed }

def due (now : Int) (inst : Instance) : Bool :=
  inst.acceptBackoff.marked &&
    decide ((inst.minBackoffMs : Int) * 1000 < now - inst.acceptBackoff.inserted)

/-- The loop of `redsocks_close_internal`, which breaks after the first instance it takes out. -/
def wakeFirst (close : Close) : List Instance → List Instance
  | [] => []
  | inst :: rest =>
      if due close.now inst then redsocksAcceptBackoff close.stamp inst :: rest
      else inst :: wakeFirst close rest

def redsocksClose (close : Close) (instances : List Instance) : List Instance :=
  if close.ok then wakeFirst close instances else instances

def redsocksCloses (closes : List Close) (instances : List Instance) : List Instance :=
  closes.foldl (fun current close => redsocksClose close current) instances

/-- The four `errno` values for a lack of descriptors are one case; `closes` are those made before
`redsocks_accept_client` returns, on any of its paths. -/
inductive AcceptResult where
  | accepted (closes : List Close)
  | outOfDescriptors (random : Nat) (stamp : Int)
  | failed
deriving DecidableEq, Repr

def clampValue (value low high : Nat) : Nat :=
  let raised := if value < low then low else value
  if raised > high then high else raised

def backOff (random : Nat) (stamp : Int) (self : Instance) : Instance :=
  let delay := clampValue ((self.acceptBackoffMs * 2 + 1) % 2 ^ 16) self.minBackoffMs self.maxBackoffMs
  { self with
    acceptBackoffMs := delay
    listener := trackedEventDel self.listener
    acceptBackoff := trackedEventAdd self.acceptBackoff (some (random % delay + 1)) stamp }

def redsocksAcceptClient (index : Nat) (result : AcceptResult) (instances : List Instance) :
    List Instance :=
  match result with
  | .accepted closes =>
      redsocksCloses closes (instances.modify index fun self => { self with acceptBackoffMs := 0 })
  | .outOfDescriptors random stamp => instances.modify index (backOff random stamp)
  | .failed => instances

def startListening (stamp : Int) (self : Instance) : Instance :=
  { self with
    listener := trackedEventAdd (trackedEventSet self.listener) none stamp
    acceptBackoff := trackedEventSet self.acceptBackoff }

def deleteListener (ok : Bool) (self : Instance) : Instance :=
  { self with
    listener := if self.listener.marked then trackedEventDel self.listener else self.listener
    fdClosed := ok }

def clearListener (self : Instance) : Instance := { self with listener := self.listener.memset }

/-- The part of `redsocks_fini_instance` about the listener, whose descriptor is closed while the
instance is still on the list. -/
def finiListener (index : Nat) (close : Close) (instances : List Instance) : List Instance :=
  (redsocksClose close (instances.modify index (deleteListener close.ok))).modify index clearListener

def finiAcceptBackoff (self : Instance) : Instance :=
  if self.acceptBackoff.initialized then
    { self with
      acceptBackoff := TrackedEvent.memset
        (if self.acceptBackoff.marked then trackedEventDel self.acceptBackoff
          else self.acceptBackoff) }
  else self

/-- The list of instances, and what is left in libevent's queues of those that have been freed. -/
structure Engine where
  instances : List Instance
  freed : List Instance
deriving DecidableEq, Repr

def redsocksFiniInstance (index : Nat) (clientCloses : List Close) (listenerClose : Close)
    (engine : Engine) : Option Engine :=
  let dropped := redsocksCloses clientCloses engine.instances
  let stopped :=
    if dropped[index]?.any (·.listener.initialized) then finiListener index listenerClose dropped
    else dropped
  stopped[index]?.map fun self =>
    { instances := stopped.eraseIdx index
      freed := engine.freed ++ [finiAcceptBackoff self] }

/-- How `redsocks_init_instance` ends: with the listener inserted, or on its way to `listen`, with a
socket to close or without one. -/
inductive InitResult where
  | listening (stamp : Int)
  | failed (socket : Option Close)
deriving DecidableEq, Repr

/-- A failing start has no clients and no listener to close, so the closes it takes are never made. -/
def redsocksInitInstance (index : Nat) (result : InitResult) (engine : Engine) : Option Engine :=
  match result with
  | .listening stamp =>
      some { engine with instances := engine.instances.modify index (startListening stamp) }
  | .failed socket =>
      (redsocksFiniInstance index [] ⟨true, 0, 0⟩ engine).map fun left =>
        { left with instances := redsocksCloses socket.toList left.instances }

inductive Label where
  | init (index : Nat) (result : InitResult)
  | accept (index : Nat) (result : AcceptResult)
  | timeout (index : Nat)
  | callback (index : Nat) (stamp : Int)
  | close (close : Close)
  | fini (index : Nat) (clientCloses : List Close) (listenerClose : Close)
deriving DecidableEq, Repr

/-- `timeout_process`: the timer leaves the heap and becomes active. -/
def activate (self : Instance) : Instance :=
  { self with acceptBackoff := { self.acceptBackoff with queued := .active } }

/-- `event_process_active` deletes the event before it runs its callback. -/
def runCallback (stamp : Int) (self : Instance) : Instance :=
  redsocksAcceptBackoff stamp
    { self with acceptBackoff := { self.acceptBackoff with queued := .none } }

/-- Whether libevent can run the step: `redsocks_init` starts an instance once, a callback runs while
its event is where the loop finds it. -/
def enabled (engine : Engine) : Label → Bool
  | .init index _ => engine.instances[index]?.any (!·.listener.initialized)
  | .accept index _ =>
      engine.instances[index]?.any fun self => self.listener.inLoop
  | .timeout index =>
      engine.instances[index]?.any fun self =>
        self.acceptBackoff.inLoop && self.acceptBackoff.queued != .active
  | .callback index _ =>
      engine.instances[index]?.any fun self => self.acceptBackoff.queued == .active
  | .close _ => true
  | .fini index _ _ => index < engine.instances.length

def step (engine : Engine) (label : Label) : Option Engine :=
  if enabled engine label then
    match label with
    | .init index result => redsocksInitInstance index result engine
    | .accept index result =>
        some { engine with instances := redsocksAcceptClient index result engine.instances }
    | .timeout index => some { engine with instances := engine.instances.modify index activate }
    | .callback index stamp =>
        some { engine with instances := engine.instances.modify index (runCallback stamp) }
    | .close close => some { engine with instances := redsocksClose close engine.instances }
    | .fini index clientCloses listenerClose =>
        redsocksFiniInstance index clientCloses listenerClose engine
  else none

def configured (bounds : Nat × Nat) : Instance :=
  { minBackoffMs := bounds.1
    maxBackoffMs := bounds.2
    acceptBackoffMs := 0
    listener := ⟨false, 0, .none⟩
    acceptBackoff := ⟨false, 0, .none⟩
    fdClosed := false
    lateInsert := false }

def start (bounds : List (Nat × Nat)) : Engine :=
  { instances := bounds.map configured, freed := [] }

/-- Exactly one of the two events is inserted, and the marks say which. -/
structure Exclusive (inst : Instance) : Prop where
  one : (inst.listener.inLoop != inst.acceptBackoff.inLoop) = true
  listenerMark : inst.listener.marked = inst.listener.inLoop
  backoffMark : inst.acceptBackoff.marked = inst.acceptBackoff.inLoop

/-- What an instance leaves behind: no event of it is inserted, and its listener has not been inserted
behind the close of its descriptor. -/
structure Ended (inst : Instance) : Prop where
  noLateInsert : inst.lateInsert = false
  listenerOut : inst.listener.inLoop = false
  backoffOut : inst.acceptBackoff.inLoop = false

structure ShutsCleanly (engine : Engine) : Prop where
  running : ∀ self ∈ engine.instances, self.listener.initialized = true → Exclusive self
  freed : ∀ self ∈ engine.freed, Ended self

def Label.stamps : Label → List Int
  | .init _ (.listening stamp) => [stamp]
  | .init _ (.failed socket) => socket.toList.map Close.stamp
  | .accept _ (.accepted closes) => closes.map Close.stamp
  | .accept _ (.outOfDescriptors _ stamp) => [stamp]
  | .accept _ .failed => []
  | .timeout _ => []
  | .callback _ stamp => [stamp]
  | .close made => [made.stamp]
  | .fini _ clientCloses listenerClose => (clientCloses ++ [listenerClose]).map Close.stamp

/-- The close of an instance's listener does not take the same instance out of its back-off: it fails,
or the instance is not the first one that is due. -/
def SparesItself (engine : Engine) : Label → Prop
  | .fini index clientCloses listenerClose =>
      listenerClose.ok = true →
        (redsocksCloses clientCloses engine.instances).findIdx? (due listenerClose.now) ≠ some index
  | _ => True

/-- No mark is written at the very start of the epoch, where `timerisset` takes it for a cleared
one. -/
def StepsCleanly (engine : Engine) (label : Label) : Prop :=
  (∀ stamp ∈ label.stamps, stamp ≠ 0) ∧ SparesItself engine label

instance (engine : Engine) : (label : Label) → Decidable (SparesItself engine label)
  | .fini _ _ listenerClose => inferInstanceAs (Decidable (listenerClose.ok = true → _))
  | .init _ _ | .accept _ _ | .timeout _ | .callback _ _ | .close _ => isTrue trivial

instance (engine : Engine) (label : Label) : Decidable (StepsCleanly engine label) :=
  inferInstanceAs (Decidable (_ ∧ _))

/-- The invariant of an instance on the list, started or not. -/
structure Settled (inst : Instance) : Prop where
  fdOpen : inst.fdClosed = false
  noLateInsert : inst.lateInsert = false
  together : inst.acceptBackoff.initialized = inst.listener.initialized
  notBoth : (inst.listener.inLoop && inst.acceptBackoff.inLoop) = false
  oneStarted : (inst.listener.inLoop || inst.acceptBackoff.inLoop) = inst.listener.initialized
  listenerMark : inst.listener.marked = inst.listener.inLoop
  backoffMark : inst.acceptBackoff.marked = inst.acceptBackoff.inLoop

@[simp] theorem trackedEventAdd_inLoop (event : TrackedEvent) (timeout : Option Nat) (stamp : Int) :
    (trackedEventAdd event timeout stamp).inLoop = true := by
  simp [trackedEventAdd, TrackedEvent.inLoop]

@[simp] theorem trackedEventDel_inLoop (event : TrackedEvent) :
    (trackedEventDel event).inLoop = false := by
  simp [trackedEventDel, TrackedEvent.inLoop]

@[simp] theorem trackedEventAdd_initialized (event : TrackedEvent) (timeout : Option Nat)
    (stamp : Int) : (trackedEventAdd event timeout stamp).initialized = event.initialized := rfl

@[simp] theorem trackedEventDel_initialized (event : TrackedEvent) :
    (trackedEventDel event).initialized = event.initialized := rfl

@[simp] theorem trackedEventDel_marked (event : TrackedEvent) :
    (trackedEventDel event).marked = false := by
  simp [trackedEventDel, TrackedEvent.marked]

theorem trackedEventAdd_marked {stamp : Int} (set : stamp ≠ 0) (event : TrackedEvent)
    (timeout : Option Nat) : (trackedEventAdd event timeout stamp).marked = true := by
  simp [trackedEventAdd, TrackedEvent.marked, set]

theorem Settled.exclusive {self : Instance} (settled : Settled self)
    (started : self.listener.initialized = true) : Exclusive self := by
  refine ⟨?_, settled.listenerMark, settled.backoffMark⟩
  have one := settled.oneStarted
  have notBoth := settled.notBoth
  rw [started] at one
  cases listenerIn : self.listener.inLoop <;> cases backoffIn : self.acceptBackoff.inLoop <;>
    simp_all

theorem settled_configured (bounds : Nat × Nat) : Settled (configured bounds) := by
  constructor <;> rfl

theorem Settled.initialized_of_inLoop {self : Instance} (settled : Settled self)
    (inLoop : self.listener.inLoop = true ∨ self.acceptBackoff.inLoop = true) :
    self.listener.initialized = true := by
  rw [← settled.oneStarted]
  simpa using inLoop

theorem Settled.redsocksAcceptBackoff {self : Instance} (settled : Settled self) {stamp : Int}
    (set : stamp ≠ 0) (backingOff : self.acceptBackoff.inLoop = true) :
    Settled (redsocksAcceptBackoff stamp self) := by
  have started := settled.initialized_of_inLoop (Or.inr backingOff)
  constructor
  · exact settled.fdOpen
  · simp [Backoff.redsocksAcceptBackoff, settled.noLateInsert, settled.fdOpen]
  · exact settled.together
  · simp [Backoff.redsocksAcceptBackoff]
  · simpa [Backoff.redsocksAcceptBackoff] using started.symm
  · simp [Backoff.redsocksAcceptBackoff, trackedEventAdd_marked set]
  · simp [Backoff.redsocksAcceptBackoff]

theorem Settled.backOff {self : Instance} (settled : Settled self) {stamp : Int} (set : stamp ≠ 0)
    (listening : self.listener.inLoop = true) (random : Nat) :
    Settled (backOff random stamp self) := by
  have started := settled.initialized_of_inLoop (Or.inl listening)
  constructor
  · exact settled.fdOpen
  · exact settled.noLateInsert
  · exact settled.together
  · simp [Backoff.backOff]
  · simpa [Backoff.backOff] using started.symm
  · simp [Backoff.backOff]
  · simp [Backoff.backOff, trackedEventAdd_marked set]

theorem Settled.startListening {self : Instance} (settled : Settled self) {stamp : Int}
    (set : stamp ≠ 0) (fresh : self.listener.initialized = false) :
    Settled (startListening stamp self) := by
  have out := settled.oneStarted
  rw [fresh, Bool.or_eq_false_iff] at out
  have backoffOut : (trackedEventSet self.acceptBackoff).inLoop = false := out.2
  constructor
  · exact settled.fdOpen
  · exact settled.noLateInsert
  · rfl
  · simp [Backoff.startListening, backoffOut]
  · simp [Backoff.startListening, trackedEventAdd, trackedEventSet, TrackedEvent.inLoop]
  · simp [Backoff.startListening, trackedEventAdd_marked set]
  · simp only [Backoff.startListening, backoffOut]
    rfl

theorem Settled.activate {self : Instance} (settled : Settled self)
    (waiting : self.acceptBackoff.inLoop = true) : Settled (activate self) := by
  have same : (Backoff.activate self).acceptBackoff.inLoop = self.acceptBackoff.inLoop := by
    rw [waiting]
    rfl
  constructor
  · exact settled.fdOpen
  · exact settled.noLateInsert
  · exact settled.together
  · rw [same]
    exact settled.notBoth
  · rw [same]
    exact settled.oneStarted
  · exact settled.listenerMark
  · rw [same]
    exact settled.backoffMark

theorem runCallback_eq (stamp : Int) (self : Instance) :
    runCallback stamp self = redsocksAcceptBackoff stamp self := rfl

theorem Settled.backingOff_of_due {self : Instance} (settled : Settled self) {now : Int}
    (isDue : due now self = true) : self.acceptBackoff.inLoop = true := by
  rw [← settled.backoffMark]
  simp only [due, Bool.and_eq_true] at isDue
  exact isDue.1

theorem wakeFirst_eq (close : Close) (instances : List Instance) :
    wakeFirst close instances =
      match instances.findIdx? (due close.now) with
      | none => instances
      | some index => instances.modify index (redsocksAcceptBackoff close.stamp) := by
  induction instances with
  | nil => rfl
  | cons inst rest ih =>
      rw [wakeFirst, List.findIdx?_cons]
      by_cases isDue : due close.now inst = true
      · simp [isDue]
      · simp only [isDue, Bool.false_eq_true, if_false, ih]
        cases rest.findIdx? (due close.now) <;> simp

theorem forall_modify {holds : Instance → Prop} {change : Instance → Instance} {index : Nat}
    {instances : List Instance} (all : ∀ self ∈ instances, holds self)
    (changed : ∀ self, instances[index]? = some self → holds (change self)) :
    ∀ self ∈ instances.modify index change, holds self := by
  intro self member
  obtain ⟨place, found⟩ := List.mem_iff_getElem?.mp member
  rw [List.getElem?_modify] at found
  obtain ⟨before, foundBefore, became⟩ := Option.map_eq_some_iff.mp found
  by_cases same : index = place
  · subst same
    rw [← became, if_pos rfl]
    exact changed before foundBefore
  · rw [← became, if_neg same]
    exact all before (List.mem_iff_getElem?.mpr ⟨place, foundBefore⟩)

theorem settled_wakeFirst {close : Close} {instances : List Instance}
    (all : ∀ self ∈ instances, Settled self) (set : close.stamp ≠ 0) :
    ∀ self ∈ wakeFirst close instances, Settled self := by
  induction instances with
  | nil => simp [wakeFirst]
  | cons inst rest ih =>
      obtain ⟨settled, later⟩ := List.forall_mem_cons.mp all
      rw [wakeFirst]
      by_cases isDue : due close.now inst = true
      · rw [if_pos isDue]
        have woken := settled.redsocksAcceptBackoff set (settled.backingOff_of_due isDue)
        exact List.forall_mem_cons.mpr ⟨woken, later⟩
      · rw [if_neg isDue]
        exact List.forall_mem_cons.mpr ⟨settled, ih later⟩

theorem settled_redsocksClose {close : Close} {instances : List Instance}
    (all : ∀ self ∈ instances, Settled self) (set : close.stamp ≠ 0) :
    ∀ self ∈ redsocksClose close instances, Settled self := by
  unfold redsocksClose
  split
  · exact settled_wakeFirst all set
  · exact all

theorem settled_redsocksCloses {closes : List Close} {instances : List Instance}
    (all : ∀ self ∈ instances, Settled self) (set : ∀ close ∈ closes, close.stamp ≠ 0) :
    ∀ self ∈ redsocksCloses closes instances, Settled self := by
  induction closes generalizing instances with
  | nil => exact all
  | cons close rest ih =>
      obtain ⟨setFirst, setRest⟩ := List.forall_mem_cons.mp set
      exact ih (settled_redsocksClose all setFirst) setRest

@[simp] theorem redsocksCloses_nil (instances : List Instance) :
    redsocksCloses [] instances = instances := rfl

theorem settled_redsocksAcceptClient {index : Nat} {result : AcceptResult}
    {instances : List Instance} (all : ∀ self ∈ instances, Settled self)
    (set : ∀ stamp ∈ (Label.accept index result).stamps, stamp ≠ 0)
    (listening : ∀ self, instances[index]? = some self → self.listener.inLoop = true) :
    ∀ self ∈ redsocksAcceptClient index result instances, Settled self := by
  cases result with
  | accepted closes =>
      refine settled_redsocksCloses (forall_modify all fun self found => ?_) ?_
      · obtain ⟨fdOpen, noLate, together, notBoth, one, listenerMark, backoffMark⟩ :=
          all self (List.mem_iff_getElem?.mpr ⟨index, found⟩)
        exact ⟨fdOpen, noLate, together, notBoth, one, listenerMark, backoffMark⟩
      · intro close member
        exact set close.stamp (List.mem_map_of_mem member)
  | outOfDescriptors random stamp =>
      refine forall_modify all fun self found => ?_
      have settled := all self (List.mem_iff_getElem?.mpr ⟨index, found⟩)
      exact settled.backOff (set stamp (by simp [Label.stamps])) (listening self found) random
  | failed => exact all

theorem findIdx?_modify {holds : Instance → Bool} {change : Instance → Instance}
    (same : ∀ self, holds (change self) = holds self) (instances : List Instance) (index : Nat) :
    (instances.modify index change).findIdx? holds = instances.findIdx? holds := by
  induction instances generalizing index with
  | nil => simp
  | cons inst rest ih =>
      cases index with
      | zero => simp [List.findIdx?_cons, same]
      | succ index => simp [List.findIdx?_cons, ih]

theorem redsocksClose_getElem? {close : Close} {instances : List Instance} {index : Nat}
    (spared : close.ok = true → instances.findIdx? (due close.now) ≠ some index) :
    (redsocksClose close instances)[index]? = instances[index]? := by
  unfold redsocksClose
  split
  next succeeded =>
    rw [wakeFirst_eq]
    cases first : instances.findIdx? (due close.now) with
    | none => rfl
    | some woken =>
        have other : woken ≠ index := by
          rintro rfl
          exact spared succeeded first
        simp [other]
  next => rfl

/-- While one instance shuts down, a close keeps the invariant of the others. -/
theorem settled_redsocksClose_others {close : Close} {instances : List Instance} {index : Nat}
    (others : ∀ place self, place ≠ index → instances[place]? = some self → Settled self)
    (set : close.stamp ≠ 0) {place : Nat} {self : Instance} (other : place ≠ index)
    (found : (redsocksClose close instances)[place]? = some self) : Settled self := by
  unfold redsocksClose at found
  split at found
  next =>
    rw [wakeFirst_eq] at found
    cases first : instances.findIdx? (due close.now) with
    | none =>
        rw [first] at found
        exact others place self other found
    | some woken =>
        rw [first] at found
        simp only [List.getElem?_modify] at found
        obtain ⟨before, foundBefore, became⟩ := Option.map_eq_some_iff.mp found
        have settled := others place before other foundBefore
        by_cases here : woken = place
        · subst here
          obtain ⟨bound, isDue, -⟩ := List.findIdx?_eq_some_iff_getElem.mp first
          rw [List.getElem?_eq_getElem bound, Option.some.injEq] at foundBefore
          rw [foundBefore] at isDue
          rw [← became, if_pos rfl]
          exact settled.redsocksAcceptBackoff set (settled.backingOff_of_due isDue)
        · rw [← became, if_neg here]
          exact settled
  next => exact others place self other found

theorem Settled.ended_of_started {self : Instance} (settled : Settled self)
    (started : self.listener.initialized = true) (ok : Bool) :
    Ended (finiAcceptBackoff (clearListener (deleteListener ok self))) := by
  have backoffStarted : self.acceptBackoff.initialized = true := settled.together.trans started
  have shape : finiAcceptBackoff (clearListener (deleteListener ok self)) =
      { clearListener (deleteListener ok self) with
        acceptBackoff := TrackedEvent.memset
          (if self.acceptBackoff.marked then trackedEventDel self.acceptBackoff
            else self.acceptBackoff) } := if_pos backoffStarted
  rw [shape]
  refine ⟨settled.noLateInsert, ?_, ?_⟩
  · show (if self.listener.marked then trackedEventDel self.listener else self.listener).inLoop = false
    rw [settled.listenerMark]
    cases listenerIn : self.listener.inLoop with
    | true => exact trackedEventDel_inLoop self.listener
    | false => exact listenerIn
  · show (if self.acceptBackoff.marked then trackedEventDel self.acceptBackoff
      else self.acceptBackoff).inLoop = false
    rw [settled.backoffMark]
    cases backoffIn : self.acceptBackoff.inLoop with
    | true => exact trackedEventDel_inLoop self.acceptBackoff
    | false => exact backoffIn

theorem Settled.ended_of_fresh {self : Instance} (settled : Settled self)
    (fresh : self.listener.initialized = false) : Ended (finiAcceptBackoff self) := by
  have out := settled.oneStarted
  rw [fresh, Bool.or_eq_false_iff] at out
  have untouched : finiAcceptBackoff self = self :=
    if_neg (by simp [settled.together, fresh])
  rw [untouched]
  exact ⟨settled.noLateInsert, out.1, out.2⟩

theorem forall_eraseIdx {holds : Instance → Prop} {instances : List Instance} {index : Nat}
    (others : ∀ place self, place ≠ index → instances[place]? = some self → holds self) :
    ∀ self ∈ instances.eraseIdx index, holds self := by
  intro self member
  obtain ⟨place, other, found⟩ := List.mem_eraseIdx_iff_getElem?.mp member
  exact others place self other found

structure Sound (engine : Engine) : Prop where
  settled : ∀ self ∈ engine.instances, Settled self
  ended : ∀ self ∈ engine.freed, Ended self

theorem Sound.shutsCleanly {engine : Engine} (sound : Sound engine) : ShutsCleanly engine :=
  ⟨fun self member started => (sound.settled self member).exclusive started, sound.ended⟩

theorem sound_start (bounds : List (Nat × Nat)) : Sound (start bounds) := by
  refine ⟨fun self member => ?_, fun self member => by simp [start] at member⟩
  obtain ⟨bound, -, rfl⟩ := List.mem_map.mp member
  exact settled_configured bound

theorem Sound.free {instances : List Instance} {freed : List Instance} {self : Instance}
    {index : Nat} (ended : ∀ other ∈ freed, Ended other)
    (others : ∀ place other, place ≠ index → instances[place]? = some other → Settled other)
    (last : Ended self) :
    Sound { instances := instances.eraseIdx index, freed := freed ++ [self] } := by
  refine ⟨forall_eraseIdx others, fun other member => ?_⟩
  rcases List.mem_append.mp member with before | now
  · exact ended other before
  · exact List.mem_singleton.mp now ▸ last

theorem Sound.freeFresh {instances : List Instance} {freed : List Instance} {self : Instance}
    {index : Nat} (all : ∀ other ∈ instances, Settled other) (ended : ∀ other ∈ freed, Ended other)
    (found : instances[index]? = some self) (fresh : self.listener.initialized = false) :
    Sound { instances := instances.eraseIdx index, freed := freed ++ [finiAcceptBackoff self] } := by
  have settled := all self (List.mem_iff_getElem?.mpr ⟨index, found⟩)
  refine Sound.free ended ?_ (settled.ended_of_fresh fresh)
  intro place other _ foundOther
  exact all other (List.mem_iff_getElem?.mpr ⟨place, foundOther⟩)

/-- The part of the shutdown about the listener: the others stay settled, and of the instance itself
only the listener event changes. -/
theorem finiListener_spec {close : Close} {instances : List Instance} {index : Nat}
    {before : Instance} (all : ∀ self ∈ instances, Settled self)
    (found : instances[index]? = some before) (set : close.stamp ≠ 0)
    (spared : close.ok = true → instances.findIdx? (due close.now) ≠ some index) :
    (finiListener index close instances)[index]? =
        some (clearListener (deleteListener close.ok before)) ∧
      ∀ place other, place ≠ index → (finiListener index close instances)[place]? = some other →
        Settled other := by
  have sameDue : ∀ self, due close.now (deleteListener close.ok self) = due close.now self :=
    fun self => rfl
  constructor
  · have stays : (redsocksClose close (instances.modify index (deleteListener close.ok)))[index]? =
        (instances.modify index (deleteListener close.ok))[index]? := by
      apply redsocksClose_getElem?
      rw [findIdx?_modify sameDue]
      exact spared
    simp [finiListener, stays, found]
  · intro place other different foundOther
    rw [finiListener, List.getElem?_modify_ne _ _ (Ne.symm different)] at foundOther
    refine settled_redsocksClose_others ?_ set different foundOther
    intro spot self away foundSelf
    rw [List.getElem?_modify_ne _ _ (Ne.symm away)] at foundSelf
    exact all self (List.mem_iff_getElem?.mpr ⟨spot, foundSelf⟩)

theorem Sound.redsocksFiniInstance {engine next : Engine} (sound : Sound engine) {index : Nat}
    {clientCloses : List Close} {listenerClose : Close}
    (set : ∀ close ∈ clientCloses ++ [listenerClose], close.stamp ≠ 0)
    (spares : SparesItself engine (.fini index clientCloses listenerClose))
    (taken : redsocksFiniInstance index clientCloses listenerClose engine = some next) :
    Sound next := by
  have setClients : ∀ close ∈ clientCloses, close.stamp ≠ 0 :=
    fun close member => set close (List.mem_append_left _ member)
  have setListener := set listenerClose (by simp)
  have all := settled_redsocksCloses sound.settled setClients
  simp only [Backoff.redsocksFiniInstance] at taken
  simp only [SparesItself] at spares
  generalize redsocksCloses clientCloses engine.instances = dropped at all taken spares
  obtain ⟨self, found, rfl⟩ := Option.map_eq_some_iff.mp taken
  by_cases started : dropped[index]?.any (·.listener.initialized) = true
  · rw [if_pos started] at found ⊢
    obtain ⟨before, foundBefore, isStarted⟩ := (Option.any_eq_true _ _).mp started
    obtain ⟨left, others⟩ := finiListener_spec all foundBefore setListener spares
    obtain rfl := Option.some.inj (found.symm.trans left)
    have settled := all before (List.mem_iff_getElem?.mpr ⟨index, foundBefore⟩)
    exact Sound.free sound.ended others (settled.ended_of_started isStarted listenerClose.ok)
  · rw [if_neg started] at found ⊢
    have fresh : self.listener.initialized = false := by
      simpa [found] using started
    exact Sound.freeFresh all sound.ended found fresh

theorem Sound.redsocksInitInstance {engine next : Engine} (sound : Sound engine) {index : Nat}
    {result : InitResult} (set : ∀ stamp ∈ (Label.init index result).stamps, stamp ≠ 0)
    (fresh : ∀ self, engine.instances[index]? = some self → self.listener.initialized = false)
    (taken : redsocksInitInstance index result engine = some next) : Sound next := by
  cases result with
  | listening stamp =>
      obtain rfl := Option.some.inj taken
      refine ⟨forall_modify sound.settled fun self found => ?_, sound.ended⟩
      have settled := sound.settled self (List.mem_iff_getElem?.mpr ⟨index, found⟩)
      exact settled.startListening (set stamp (by simp [Label.stamps])) (fresh self found)
  | failed socket =>
      obtain ⟨left, finished, rfl⟩ := Option.map_eq_some_iff.mp taken
      have soundLeft : Sound left := by
        have notStarted :
            ¬ engine.instances[index]?.any (·.listener.initialized) = true := by
          intro started
          obtain ⟨self, found, isStarted⟩ := (Option.any_eq_true _ _).mp started
          simp [fresh self found] at isStarted
        simp only [Backoff.redsocksFiniInstance, redsocksCloses_nil, notStarted] at finished
        obtain ⟨self, found, rfl⟩ := Option.map_eq_some_iff.mp finished
        exact Sound.freeFresh sound.settled sound.ended found (fresh self found)
      refine ⟨settled_redsocksCloses soundLeft.settled fun close member => ?_, soundLeft.ended⟩
      exact set close.stamp (List.mem_map_of_mem member)

theorem Sound.step {engine next : Engine} (sound : Sound engine) {label : Label}
    (cleanly : StepsCleanly engine label) (taken : step engine label = some next) : Sound next := by
  obtain ⟨set, spares⟩ := cleanly
  unfold Backoff.step at taken
  obtain ⟨able, taken⟩ := Option.ite_none_right_eq_some.mp taken
  cases label with
  | init index result =>
      refine sound.redsocksInitInstance set (fun self found => ?_) taken
      simpa [enabled, found] using able
  | accept index result =>
      obtain rfl := Option.some.inj taken
      refine ⟨settled_redsocksAcceptClient sound.settled set fun self found => ?_, sound.ended⟩
      simpa [enabled, found] using able
  | timeout index =>
      obtain rfl := Option.some.inj taken
      refine ⟨forall_modify sound.settled fun self found => ?_, sound.ended⟩
      have settled := sound.settled self (List.mem_iff_getElem?.mpr ⟨index, found⟩)
      simp only [enabled, found, Option.any_some, Bool.and_eq_true] at able
      exact settled.activate able.1
  | callback index stamp =>
      obtain rfl := Option.some.inj taken
      refine ⟨forall_modify sound.settled fun self found => ?_, sound.ended⟩
      have settled := sound.settled self (List.mem_iff_getElem?.mpr ⟨index, found⟩)
      have active : self.acceptBackoff.queued = .active := by simpa [enabled, found] using able
      rw [runCallback_eq]
      refine settled.redsocksAcceptBackoff (set stamp (by simp [Label.stamps])) ?_
      simp [TrackedEvent.inLoop, active]
  | close made =>
      obtain rfl := Option.some.inj taken
      exact ⟨settled_redsocksClose sound.settled (set made.stamp (by simp [Label.stamps])),
        sound.ended⟩
  | fini index clientCloses listenerClose =>
      refine sound.redsocksFiniInstance (fun close member => ?_) spares taken
      exact set close.stamp (List.mem_map_of_mem member)

/-- In every run in which no listener's own close ends the back-off of its instance, started instances
have exactly one of their two events inserted, with marks that say so, and instances that have been
shut down have none. -/
theorem backoff_exclusive (bounds : List (Nat × Nat)) (labels : List Label) (final : Engine)
    (cleanly : StepRun.Along step StepsCleanly labels (start bounds))
    (ran : StepRun.run step labels (start bounds) = some final) : ShutsCleanly final := by
  refine Sound.shutsCleanly (StepRun.run_invariant_along Sound ?_ (sound_start bounds) cleanly ran)
  intro engine label next sound met taken
  exact sound.step met taken

/-- Two instances; the first runs out of descriptors, and a close brings it back while the second is
shut down. -/
def sampleRun : List Label :=
  [.init 0 (.listening 1), .init 1 (.listening 1), .accept 0 (.outOfDescriptors 7 1000),
    .fini 1 [] ⟨true, 2000000, 2000001⟩, .fini 0 [⟨true, 3000000, 3000001⟩] ⟨true, 3000002, 3000003⟩]

theorem backoff_exclusive_two_instances :
    ∃ final, StepRun.run step sampleRun (start [(100, 60000), (100, 60000)]) = some final ∧
      final.freed.length = 2 ∧ ShutsCleanly final :=
  ⟨_, rfl, by decide, backoff_exclusive [(100, 60000), (100, 60000)] sampleRun _ (by decide) rfl⟩

def shutdownRun : List Label :=
  [.init 0 (.listening 1), .accept 0 (.outOfDescriptors 7 1000), .fini 0 [] ⟨true, 1001000, 1001001⟩]

/-- The close of the descriptor inserts the listener again. -/
theorem fini_inserts_listener :
    ∃ final, StepRun.run step shutdownRun (start [(100, 60000)]) = some final ∧
      ¬ ShutsCleanly final := by
  refine ⟨_, rfl, fun clean => ?_⟩
  have ended := clean.freed _ (List.mem_singleton.mpr rfl)
  exact absurd ended.listenerOut (by decide)

end ProxySet.Backoff
