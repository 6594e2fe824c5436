import ProxySet.Droid.RuleSet
import ProxySet.Lib.StepRun

/-!
Stops and starts of ProxyDroid's service.  Each of them leaves its root commands to a
thread of its own; a run takes the next command of any of these threads.  `runScript`
keeps the commands of one script together, which is one of the orders covered here.
-/

namespace ProxySet.Droid.Restart

open Shell StepRun

/-! ### What the commands do -/

inductive Process where
  | redsocks
  | cntlm
  | stunnel
  | shrpx
  deriving DecidableEq

inductive RootCommand where
  | launch (process : Process)
  | append (rule : Rule)
  | flush
  | kill (process : Process)
  deriving DecidableEq

/-- The OUTPUT chain of the nat table, and the start that each running process comes from. -/
structure Phone where
  chain : List Rule
  running : Process → Option Nat

def Phone.fresh : Phone where
  chain := []
  running := fun _ => none

/-- A process whose port is taken by an older one of its kind does not stay. -/
def Phone.exec (number : Nat) (phone : Phone) : RootCommand → Phone
  | .launch process =>
      { phone with
        running := fun other =>
          if other = process ∧ phone.running process = none then some number
          else phone.running other }
  | .append rule => { phone with chain := phone.chain ++ [rule] }
  | .flush => { phone with chain := [] }
  | .kill process =>
      { phone with running := fun other => if other = process then none else phone.running other }

def Phone.execAll (number : Nat) (phone : Phone) (commands : List RootCommand) : Phone :=
  commands.foldl (Phone.exec number) phone

/-! ### The threads -/

inductive Item where
  /-- `MSG_CONNECT_START` or `MSG_CONNECT_FINISH` -/
  | message (connecting : Bool)
  | root (command : RootCommand)
  /-- `proxyType = "http"` behind a tunnel -/
  | reset
  | stopSelf
  deriving DecidableEq

def Item.command? : Item → Option RootCommand
  | .root command => some command
  | _ => none

def commandsOf (items : List Item) : List RootCommand :=
  items.filterMap Item.command?

def appended (path script : Bytes) : List Rule :=
  ((readCommands script).getD []).filterMap (runRule path)

def startRules (device : Device) (service : Service) : List Rule :=
  appended device.iptables.path (rules device service (upstream service).proxyType)

def tunnelItems (service : Service) : List Item :=
  match service.proxyType with
  | .https => [.root (.launch .stunnel), .reset]
  | .spdy => [.root (.launch .shrpx), .reset]
  | _ => []

def proxyItems (service : Service) : List Item :=
  .root (.launch .redsocks) ::
    (if usesCntlm service then [.root (.launch .cntlm)] else [])

def startItems (device : Device) (service : Service) : List Item :=
  [Item.message true] ++ tunnelItems service ++ proxyItems service ++
    (startRules device service).map (fun rule => Item.root (.append rule)) ++ [Item.message false]

/-- The same thread where `getAddress` fails: nothing is launched, and the service stops itself. -/
def failedItems : List Item :=
  [.message true, .stopSelf, .message false]

/-- The script of `onDisconnect`, with the commands of `proxy.sh stop` in the end. -/
def stopCommands (bundle : Bundle) (proxyType : ProxyType) : List RootCommand :=
  RootCommand.flush :: (if proxyType = .https then [RootCommand.kill .stunnel] else []) ++
    (if bundle.isAuth && bundle.isNTLM then [RootCommand.kill .cntlm] else []) ++
    [RootCommand.kill .redsocks, .kill .cntlm, .kill .stunnel, .kill .redsocks]

def launched (service : Service) : List Process :=
  (match service.proxyType with
    | .https => [Process.stunnel]
    | .spdy => [Process.shrpx]
    | _ => []) ++ [Process.redsocks] ++ (if usesCntlm service then [Process.cntlm] else [])

/-- A start, and whether `getAddress` finds the address of its proxy. -/
structure Attempt where
  bundle : Bundle
  found : Bool

namespace Attempt

def items (device : Device) (attempt : Attempt) : List Item :=
  if attempt.found then startItems device (onStart attempt.bundle) else failedItems

def rules (device : Device) (attempt : Attempt) : List Rule :=
  if attempt.found then startRules device (onStart attempt.bundle) else []

def launched (attempt : Attempt) : List Process :=
  if attempt.found then Restart.launched (onStart attempt.bundle) else []

end Attempt

/-! ### Runs -/

/-- A thread, with the number of the start that it belongs to or ends. -/
structure Task where
  number : Nat
  stops : Bool
  todo : List Item

structure World where
  phone : Phone
  /-- `sRunningInstance` is set. -/
  marked : Bool
  connecting : Bool
  messages : List Bool
  /-- The service has called `stopSelf`. -/
  stopping : Bool
  /-- The last start, and the service's field `proxyType`. -/
  last : Option Attempt
  proxyType : ProxyType
  number : Nat
  /-- The threads, the newest first. -/
  tasks : List Task
  /-- The commands that have run, by their threads. -/
  trace : List (Nat × Bool)

def World.start : World where
  phone := .fresh
  marked := false
  connecting := false
  messages := []
  stopping := false
  last := none
  proxyType := .http
  number := 0
  tasks := []
  trace := []

inductive Label where
  | start (attempt : Attempt)
  | stop
  /-- `onDestroy` of a service that has stopped itself -/
  | destroy
  | run (index : Nat)
  | handle

/-- `onDestroy`, whose script gets a thread of its own. -/
def onDestroy (attempt : Attempt) (world : World) : World :=
  { world with
    marked := false
    connecting := false
    stopping := false
    tasks :=
      ⟨world.number - 1, true, (stopCommands attempt.bundle world.proxyType).map .root⟩ ::
        world.tasks }

/-- One item of a thread; a thread of an older service changes the fields of that one, and stops
nothing that is not running. -/
def perform (number : Nat) (stops : Bool) (world : World) : Item → World
  | .message connecting => { world with messages := world.messages ++ [connecting] }
  | .root command =>
      { world with
        phone := world.phone.exec number command
        trace := world.trace ++ [(number, stops)] }
  | .reset => if number + 1 = world.number then { world with proxyType := .http } else world
  | .stopSelf =>
      if number + 1 = world.number ∧ world.marked = true then { world with stopping := true }
      else world

def step (device : Device) (world : World) : Label → Option World
  | .start attempt =>
      if world.marked || world.connecting then none
      else some
        { world with
          marked := true
          last := some attempt
          proxyType := attempt.bundle.proxyType
          number := world.number + 1
          tasks := ⟨world.number, false, attempt.items device⟩ :: world.tasks }
  | .stop => if world.marked then world.last.map fun attempt => onDestroy attempt world else none
  | .destroy =>
      if world.stopping then world.last.map fun attempt => onDestroy attempt world else none
  | .run index =>
      match world.tasks[index]? with
      | some ⟨number, stops, item :: rest⟩ => some
          (perform number stops
            { world with tasks := world.tasks.set index ⟨number, stops, rest⟩ } item)
      | _ => none
  | .handle =>
      match world.messages with
      | connecting :: rest => some { world with connecting := connecting, messages := rest }
      | [] => none

/-! ### Commands in their order -/

theorem commandsOf_append (first second : List Item) :
    commandsOf (first ++ second) = commandsOf first ++ commandsOf second :=
  List.filterMap_append

theorem commandsOf_root (commands : List RootCommand) : commandsOf (commands.map .root) = commands := by
  induction commands with
  | nil => rfl
  | cons command rest ih => simpa [commandsOf, Item.command?] using ih

namespace Phone

variable (number : Nat) (phone : Phone)

theorem execAll_append (first second : List RootCommand) :
    phone.execAll number (first ++ second) = (phone.execAll number first).execAll number second :=
  List.foldl_append

theorem execAll_chain {commands : List RootCommand} (noFlush : .flush ∉ commands) :
    (phone.execAll number commands).chain = phone.chain ++ commands.filterMap fun command =>
      match command with
      | .append rule => some rule
      | _ => none := by
  induction commands generalizing phone with
  | nil => simp [execAll]
  | cons command rest ih =>
      simp only [List.mem_cons, not_or] at noFlush
      have later := ih (phone.exec number command) noFlush.2
      rw [execAll, List.foldl_cons, ← execAll, later]
      cases command with
      | launch process => simp [exec]
      | append rule => simp [exec]
      | flush => exact absurd rfl noFlush.1
      | kill process => simp [exec]

theorem execAll_occupied {commands : List RootCommand} (noKill : ∀ process, .kill process ∉ commands)
    {process : Process} {owner : Nat} (taken : phone.running process = some owner) :
    (phone.execAll number commands).running process = some owner := by
  induction commands generalizing phone with
  | nil => exact taken
  | cons command rest ih =>
      simp only [List.mem_cons, not_or] at noKill
      refine ih (phone.exec number command) (fun other => (noKill other).2) ?_
      cases command with
      | launch other =>
          by_cases same : process = other
          · subst same
            simp [exec, taken]
          · simp [exec, same, taken]
      | append rule => exact taken
      | flush => exact taken
      | kill other => exact absurd rfl (noKill other).1

theorem execAll_launched {commands : List RootCommand} (noKill : ∀ process, .kill process ∉ commands)
    {process : Process} (free : phone.running process = none)
    (listed : .launch process ∈ commands) :
    (phone.execAll number commands).running process = some number := by
  induction commands generalizing phone with
  | nil => simp at listed
  | cons command rest ih =>
      simp only [List.mem_cons, not_or] at noKill
      have later : ∀ other, .kill other ∉ rest := fun other => (noKill other).2
      by_cases first : command = .launch process
      · subst first
        exact execAll_occupied number _ later (by simp [exec, free])
      · have listed : .launch process ∈ rest :=
          (List.mem_cons.mp listed).resolve_left fun same => first same.symm
        refine ih (phone.exec number command) later ?_ listed
        cases command with
        | launch other =>
            have differs : process ≠ other := fun same => first (by rw [same])
            simp [exec, differs, free]
        | append rule => exact free
        | flush => exact free
        | kill other => exact absurd rfl (noKill other).1

/-- What a stop leaves: only shrpx is not killed. -/
theorem execAll_stop (bundle : Bundle) (proxyType : ProxyType) :
    (phone.execAll number (stopCommands bundle proxyType)).chain = [] ∧
      ∀ process, process ≠ .shrpx →
        (phone.execAll number (stopCommands bundle proxyType)).running process = none := by
  refine ⟨?_, fun process other => ?_⟩
  · unfold stopCommands
    split <;> split <;> rfl
  · unfold stopCommands
    split <;> split <;> cases process <;> first | rfl | exact absurd rfl other

structure Clean (attempt : Attempt) : Prop where
  chain : phone.chain = []
  free : ∀ process ∈ attempt.launched, phone.running process = none

end Phone

theorem commandsOf_startItems (device : Device) (service : Service) :
    commandsOf (startItems device service) =
      (launched service).map .launch ++ (startRules device service).map .append := by
  have rules : commandsOf ((startRules device service).map fun rule => .root (.append rule)) =
      (startRules device service).map .append := by
    rw [← commandsOf_root ((startRules device service).map .append), List.map_map]
    rfl
  have front : commandsOf ([.message true] ++ tunnelItems service ++ proxyItems service) =
      (launched service).map .launch := by
    unfold tunnelItems proxyItems launched
    cases service.proxyType <;> cases usesCntlm service <;> rfl
  have back : commandsOf [.message false] = [] := rfl
  rw [startItems, commandsOf_append, commandsOf_append, front, rules, back, List.append_nil]

theorem commandsOf_items (device : Device) (attempt : Attempt) :
    commandsOf (attempt.items device) =
      attempt.launched.map .launch ++ (attempt.rules device).map .append := by
  unfold Attempt.items Attempt.launched Attempt.rules
  split
  · exact commandsOf_startItems device _
  · rfl

theorem execAll_start {phone : Phone} (device : Device) {attempt : Attempt}
    (clean : phone.Clean attempt) (number : Nat) :
    let final := phone.execAll number (commandsOf (attempt.items device))
    final.chain = attempt.rules device ∧
      ∀ process ∈ attempt.launched, final.running process = some number := by
  rw [commandsOf_items]
  refine ⟨?_, fun process listed => ?_⟩
  · rw [Phone.execAll_chain number phone (by simp), clean.chain, List.nil_append,
      List.filterMap_append, List.filterMap_map, List.filterMap_map]
    simp
  · exact Phone.execAll_launched number phone (by simp) (clean.free process listed)
      (by simp [listed])

/-! ### Starts and stops that wait -/

def Quiet (world : World) : Prop :=
  ∀ task ∈ world.tasks, commandsOf task.todo = []

/-- Starts and stops wait for the commands of the earlier ones, and a start that launches shrpx for
the end of the last one, which no stop kills.  A service that stops itself need not wait. -/
def Waits (world : World) : Label → Prop
  | .start attempt => Quiet world ∧
      (attempt.found = true → attempt.bundle.proxyType = .spdy →
        world.phone.running .shrpx = none)
  | .stop => Quiet world
  | _ => True

/-- The commands of a stop never run behind those of a later start. -/
def Ordered (trace : List (Nat × Bool)) : Prop :=
  trace.Pairwise fun first later => first.2 = false → later.2 = true → first.1 ≤ later.1

/-- When all commands have run and a start was last, the chain holds its rules and its processes
run; and no stop has caught up with a later start. -/
structure Restarted (device : Device) (world : World) : Prop where
  settled : Quiet world → world.marked = true → ∀ attempt, world.last = some attempt →
    world.phone.chain = attempt.rules device ∧
      ∀ process ∈ attempt.launched, world.phone.running process = some (world.number - 1)
  ordered : Ordered world.trace

/-- What the newest thread has done so far, the others being through. -/
structure Progress (device : Device) (world : World) (task : Task) : Prop where
  number : task.number + 1 = world.number
  stops : task.stops = !world.marked
  done : ∃ attempt base executed, world.last = some attempt ∧
    world.phone = Phone.execAll task.number base executed ∧
    (task.stops = false → base.Clean attempt ∧
      commandsOf (attempt.items device) = executed ++ commandsOf task.todo) ∧
    (task.stops = true → ∃ proxyType,
      stopCommands attempt.bundle proxyType = executed ++ commandsOf task.todo)
  selfStop : .stopSelf ∈ task.todo → commandsOf task.todo = []

structure Orderly (device : Device) (world : World) : Prop where
  older : ∀ task ∈ world.tasks.tail, commandsOf task.todo = []
  newest : ∀ task ∈ world.tasks.head?, Progress device world task
  first : world.tasks = [] → world.phone = .fresh ∧ world.marked = false
  born : ∀ task ∈ world.tasks, task.number < world.number
  replaced : world.marked = true → ∀ task ∈ world.tasks.tail, task.number + 1 < world.number
  stopping : world.stopping = true → world.marked = true ∧ Quiet world
  past : ∀ entry ∈ world.trace, entry.1 < world.number
  ordered : Ordered world.trace

variable {device : Device} {world next : World}

theorem orderly_restarted (orderly : Orderly device world) : Restarted device world where
  ordered := orderly.ordered
  settled := by
    intro quiet marked attempt asked
    cases tasks : world.tasks with
    | nil =>
        have fresh := (orderly.first tasks).2
        simp [marked] at fresh
    | cons task rest =>
        obtain ⟨number, stops, ⟨other, base, executed, same, phone, started, -⟩, -⟩ :=
          orderly.newest task (by simp [tasks])
        rw [marked] at stops
        obtain rfl := Option.some.inj (asked.symm.trans same)
        obtain ⟨clean, commands⟩ := started stops
        rw [quiet task (by simp [tasks]), List.append_nil] at commands
        have final := execAll_start device clean task.number
        rw [commands, ← phone] at final
        have last : world.number - 1 = task.number := by omega
        rw [last]
        exact final

/-! ### One step -/

theorem shrpx_launched {attempt : Attempt} (listed : .shrpx ∈ attempt.launched) :
    attempt.found = true ∧ attempt.bundle.proxyType = .spdy := by
  have kept : (onStart attempt.bundle).proxyType = attempt.bundle.proxyType := rfl
  unfold Attempt.launched at listed
  split at listed
  · next found =>
      refine ⟨found, ?_⟩
      revert listed
      rw [launched, kept]
      cases attempt.bundle.proxyType <;> cases usesCntlm (onStart attempt.bundle) <;> simp
  · simp at listed

theorem items_selfStop (device : Device) (attempt : Attempt)
    (selfStop : .stopSelf ∈ attempt.items device) : commandsOf (attempt.items device) = [] := by
  unfold Attempt.items at selfStop ⊢
  split at selfStop
  · have absent : .stopSelf ∉ startItems device (onStart attempt.bundle) := by
      unfold startItems tunnelItems proxyItems
      cases (onStart attempt.bundle).proxyType <;> cases usesCntlm (onStart attempt.bundle) <;> simp
    exact absurd selfStop absent
  · next failed => rw [if_neg failed]; rfl

theorem orderly_start_step {attempt : Attempt} (orderly : Orderly device world)
    (waits : Waits world (.start attempt))
    (stepped : step device world (.start attempt) = some next) : Orderly device next := by
  obtain ⟨quiet, freed⟩ := waits
  simp only [step] at stepped
  split at stepped
  · simp at stepped
  · next idle =>
      simp only [Bool.or_eq_true, not_or, Bool.not_eq_true] at idle
      -- the last stop is through, or nothing has been started yet
      have clean : world.phone.Clean attempt := by
        have left : world.phone.chain = [] ∧
            ∀ process, process ≠ .shrpx → world.phone.running process = none := by
          cases tasks : world.tasks with
          | nil =>
              rw [(orderly.first tasks).1]
              exact ⟨rfl, fun _ _ => rfl⟩
          | cons task rest =>
              obtain ⟨-, stops, ⟨other, base, executed, -, phone, -, stopped⟩, -⟩ :=
                orderly.newest task (by simp [tasks])
              rw [idle.1] at stops
              obtain ⟨proxyType, commands⟩ := stopped stops
              rw [quiet task (by simp [tasks]), List.append_nil] at commands
              rw [phone, ← commands]
              exact Phone.execAll_stop _ _ _ _
        refine ⟨left.1, fun process listed => ?_⟩
        by_cases shrpx : process = .shrpx
        · subst shrpx
          obtain ⟨found, spdy⟩ := shrpx_launched listed
          exact freed found spdy
        · exact left.2 process shrpx
      have running : world.stopping ≠ true := by
        intro stopping
        simp [(orderly.stopping stopping).1] at idle
      obtain rfl := Option.some.inj stepped
      refine ⟨quiet, ?_, by simp, ?_, ?_, fun stopping => absurd stopping running, ?_,
        orderly.ordered⟩
      · intro task member
        obtain rfl := Option.some.inj member
        exact ⟨rfl, rfl, ⟨attempt, world.phone, [], rfl, rfl, fun _ => ⟨clean, rfl⟩, by simp⟩,
          items_selfStop device attempt⟩
      · intro task member
        rcases List.mem_cons.mp member with rfl | old
        · exact Nat.lt_succ_self _
        · exact Nat.lt_succ_of_lt (orderly.born task old)
      · exact fun _ task old => Nat.succ_lt_succ (orderly.born task old)
      · exact fun entry member => Nat.lt_succ_of_lt (orderly.past entry member)

theorem orderly_onDestroy {attempt : Attempt} (orderly : Orderly device world)
    (quiet : Quiet world) (marked : world.marked = true) (asked : world.last = some attempt) :
    Orderly device (onDestroy attempt world) := by
  have started : 0 < world.number := by
    cases tasks : world.tasks with
    | nil => simp [(orderly.first tasks).2] at marked
    | cons task rest =>
        have number := (orderly.newest task (by simp [tasks])).number
        omega
  refine ⟨quiet, ?_, by simp [onDestroy], ?_, by simp [onDestroy], by simp [onDestroy],
    orderly.past, orderly.ordered⟩
  · intro task member
    obtain rfl := Option.some.inj member
    refine ⟨?_, rfl, ⟨attempt, world.phone, [], asked, rfl, by simp, fun _ => ?_⟩, by simp⟩
    · exact Nat.succ_pred_eq_of_pos started
    · exact ⟨world.proxyType, by simp [commandsOf_root]⟩
  · intro task member
    rcases List.mem_cons.mp member with rfl | old
    · exact Nat.sub_one_lt_of_lt started
    · exact orderly.born task old

theorem orderly_stop_step (orderly : Orderly device world) (quiet : Quiet world)
    (stepped : step device world .stop = some next) : Orderly device next := by
  simp only [step, Option.ite_none_right_eq_some, Option.map_eq_some_iff] at stepped
  obtain ⟨marked, attempt, asked, rfl⟩ := stepped
  exact orderly_onDestroy orderly quiet marked asked

theorem orderly_destroy_step (orderly : Orderly device world)
    (stepped : step device world .destroy = some next) : Orderly device next := by
  simp only [step, Option.ite_none_right_eq_some, Option.map_eq_some_iff] at stepped
  obtain ⟨stopping, attempt, asked, rfl⟩ := stepped
  obtain ⟨marked, quiet⟩ := orderly.stopping stopping
  exact orderly_onDestroy orderly quiet marked asked

theorem orderly_handle_step (orderly : Orderly device world)
    (stepped : step device world .handle = some next) : Orderly device next := by
  simp only [step] at stepped
  split at stepped
  · obtain rfl := Option.some.inj stepped
    refine ⟨orderly.older, fun task member => ?_, orderly.first, orderly.born, orderly.replaced,
      orderly.stopping, orderly.past, orderly.ordered⟩
    obtain ⟨number, stops, done, selfStop⟩ := orderly.newest task member
    exact ⟨number, stops, done, selfStop⟩
  · simp at stepped

theorem commandsOf_cons_command (command : RootCommand) (rest : List Item) :
    commandsOf (.root command :: rest) = command :: commandsOf rest :=
  rfl

theorem perform_quiet {item : Item} (quiet : commandsOf [item] = []) (number : Nat) (stops : Bool)
    (world : World) :
    (perform number stops world item).phone = world.phone ∧
      (perform number stops world item).trace = world.trace := by
  cases item with
  | message connecting => exact ⟨rfl, rfl⟩
  | root command => simp [commandsOf, Item.command?] at quiet
  | reset =>
      simp only [perform]
      split <;> exact ⟨rfl, rfl⟩
  | stopSelf =>
      simp only [perform]
      split <;> exact ⟨rfl, rfl⟩

theorem perform_kept (number : Nat) (stops : Bool) (world : World) (item : Item) :
    (perform number stops world item).marked = world.marked ∧
      (perform number stops world item).last = world.last ∧
      (perform number stops world item).number = world.number ∧
      (perform number stops world item).tasks = world.tasks := by
  cases item with
  | message connecting => exact ⟨rfl, rfl, rfl, rfl⟩
  | root command => exact ⟨rfl, rfl, rfl, rfl⟩
  | reset =>
      simp only [perform]
      split <;> exact ⟨rfl, rfl, rfl, rfl⟩
  | stopSelf =>
      simp only [perform]
      split <;> exact ⟨rfl, rfl, rfl, rfl⟩

theorem perform_stopping {number : Nat} {stops : Bool} {item : Item}
    (stopping : (perform number stops world item).stopping = true) :
    world.stopping = true ∨
      item = .stopSelf ∧ number + 1 = world.number ∧ world.marked = true := by
  cases item with
  | message connecting => exact .inl stopping
  | root command => exact .inl stopping
  | reset =>
      simp only [perform] at stopping
      split at stopping <;> exact .inl stopping
  | stopSelf =>
      simp only [perform] at stopping
      split at stopping
      · next own => exact .inr ⟨rfl, own⟩
      · exact .inl stopping

theorem ordered_concat {trace : List (Nat × Bool)} (ordered : Ordered trace) {entry : Nat × Bool}
    (bounded : ∀ other ∈ trace, other.1 ≤ entry.1) : Ordered (trace ++ [entry]) := by
  refine List.pairwise_append.mpr ⟨ordered, List.pairwise_singleton _ _, ?_⟩
  intro other member last same
  rw [List.mem_singleton.mp same]
  exact fun _ _ => bounded other member

theorem item_cases (item : Item) :
    commandsOf [item] = [] ∨ ∃ command, item = .root command := by
  cases item with
  | message connecting => exact .inl rfl
  | root command => exact .inr ⟨command, rfl⟩
  | reset => exact .inl rfl
  | stopSelf => exact .inl rfl

theorem Progress.congr {task : Task} (progress : Progress device world task)
    (phone : next.phone = world.phone)
    (kept : next.marked = world.marked ∧ next.last = world.last ∧ next.number = world.number) :
    Progress device next task := by
  obtain ⟨count, kind, ⟨attempt, base, executed, asked, reached, commands⟩, selfStop⟩ := progress
  refine ⟨by rw [kept.2.2]; exact count, by rw [kept.1]; exact kind,
    ⟨attempt, base, executed, ?_, ?_, commands⟩, selfStop⟩
  · rw [kept.2.1, asked]
  · rw [phone, reached]

theorem Progress.quiet_item {number : Nat} {stops : Bool} {item : Item} {rest : List Item}
    (progress : Progress device world ⟨number, stops, item :: rest⟩)
    (quiet : commandsOf [item] = []) (phone : next.phone = world.phone)
    (kept : next.marked = world.marked ∧ next.last = world.last ∧ next.number = world.number) :
    Progress device next ⟨number, stops, rest⟩ := by
  have same : commandsOf (item :: rest) = commandsOf rest := by
    rw [← List.singleton_append, commandsOf_append, quiet, List.nil_append]
  obtain ⟨count, kind, ⟨attempt, base, executed, asked, reached, commands⟩, selfStop⟩ :=
    progress.congr phone kept
  refine ⟨count, kind, ⟨attempt, base, executed, asked, reached, by rwa [same] at commands⟩, ?_⟩
  exact fun member => same ▸ selfStop (List.mem_cons_of_mem _ member)

theorem Progress.command_item {number : Nat} {stops : Bool} {command : RootCommand}
    {rest : List Item} (progress : Progress device world ⟨number, stops, .root command :: rest⟩)
    (phone : next.phone = world.phone.exec number command)
    (kept : next.marked = world.marked ∧ next.last = world.last ∧ next.number = world.number) :
    Progress device next ⟨number, stops, rest⟩ := by
  obtain ⟨count, kind, ⟨attempt, base, executed, asked, reached, started, stopped⟩, selfStop⟩ :=
    progress
  rw [commandsOf_cons_command, List.append_cons] at started stopped
  refine ⟨by rw [kept.2.2]; exact count, by rw [kept.1]; exact kind,
    ⟨attempt, base, executed ++ [command], ?_, ?_, started, stopped⟩, fun member => ?_⟩
  · rw [kept.2.1, asked]
  · rw [phone, reached, Phone.execAll_append]
    rfl
  · exact absurd (selfStop (List.mem_cons_of_mem _ member)) (List.cons_ne_nil _ _)

theorem Quiet.rest {index number : Nat} {stops : Bool} {item : Item} {rest : List Item}
    (quiet : Quiet world) (found : world.tasks[index]? = some ⟨number, stops, item :: rest⟩) :
    ∀ task ∈ world.tasks.set index ⟨number, stops, rest⟩, commandsOf task.todo = [] := by
  have none := quiet _ (List.mem_of_getElem? found)
  rw [← List.singleton_append, commandsOf_append, List.append_eq_nil_iff] at none
  intro task member
  rcases List.mem_or_eq_of_mem_set member with old | rfl
  · exact quiet task old
  · exact none.2

/-- The service that stops itself is the newest one, and has launched nothing. -/
theorem Orderly.quiet_of_stopSelf {index number : Nat} {stops : Bool} {rest : List Item}
    (orderly : Orderly device world)
    (found : world.tasks[index]? = some ⟨number, stops, .stopSelf :: rest⟩)
    (own : number + 1 = world.number) (marked : world.marked = true) : Quiet world := by
  cases shape : world.tasks with
  | nil => simp [shape] at found
  | cons task tail =>
      cases index with
      | zero =>
          obtain rfl : task = _ := by simpa [shape] using found
          intro other member
          rw [shape] at member
          rcases List.mem_cons.mp member with rfl | old
          · exact (orderly.newest _ (by simp [shape])).selfStop (List.mem_cons_self ..)
          · exact orderly.older other (by simpa [shape] using old)
      | succ index =>
          rw [shape, List.getElem?_cons_succ] at found
          have behind := orderly.replaced marked _ (by
            rw [shape, List.tail_cons]
            exact List.mem_of_getElem? found)
          exact absurd own (Nat.ne_of_lt behind)

/-- What a thread does keeps everything but what the newest thread has done. -/
theorem Orderly.of_set {index number : Nat} {stops : Bool} {item : Item} {rest : List Item}
    (orderly : Orderly device world)
    (found : world.tasks[index]? = some ⟨number, stops, item :: rest⟩)
    (taken : next =
      perform number stops { world with tasks := world.tasks.set index ⟨number, stops, rest⟩ } item)
    (older : ∀ task ∈ next.tasks.tail, commandsOf task.todo = [])
    (newest : ∀ task ∈ next.tasks.head?, Progress device next task)
    (past : ∀ entry ∈ next.trace, entry.1 < next.number) (ordered : Ordered next.trace) :
    Orderly device next := by
  obtain ⟨marked, -, count, tasks⟩ := perform_kept number stops
    { world with tasks := world.tasks.set index ⟨number, stops, rest⟩ } item
  rw [← taken] at marked count tasks
  dsimp only at marked count tasks
  refine ⟨older, newest, ?_, ?_, ?_, ?_, past, ordered⟩
  · intro none
    rw [tasks, List.set_eq_nil_iff] at none
    simp [none] at found
  · rw [tasks, count]
    intro task member
    rcases List.mem_or_eq_of_mem_set member with old | rfl
    · exact orderly.born task old
    · exact orderly.born ⟨number, stops, item :: rest⟩ (List.mem_of_getElem? found)
  · rw [marked, count, tasks]
    intro running task member
    cases shape : world.tasks with
    | nil => simp [shape] at member
    | cons first tail =>
        have behind := orderly.replaced running
        rw [shape, List.tail_cons] at behind
        rw [shape] at member found
        cases index with
        | zero => exact behind task member
        | succ index =>
            rcases List.mem_or_eq_of_mem_set member with old | rfl
            · exact behind task old
            · exact behind ⟨number, stops, item :: rest⟩ (List.mem_of_getElem? found)
  · intro stopping
    rw [taken] at stopping
    have quiet : world.marked = true ∧ Quiet world := by
      rcases perform_stopping stopping with before | ⟨rfl, own, running⟩
      · exact orderly.stopping before
      · exact ⟨running, orderly.quiet_of_stopSelf found own running⟩
    exact ⟨marked.trans quiet.1, by
      unfold Quiet
      rw [tasks]
      exact quiet.2.rest found⟩

theorem Orderly.run_newest {number : Nat} {stops : Bool} {item : Item} {rest : List Item}
    (orderly : Orderly device world)
    (found : world.tasks[0]? = some ⟨number, stops, item :: rest⟩)
    (taken : next =
      perform number stops { world with tasks := world.tasks.set 0 ⟨number, stops, rest⟩ } item) :
    Orderly device next := by
  have kept := perform_kept number stops
    { world with tasks := world.tasks.set 0 ⟨number, stops, rest⟩ } item
  rw [← taken] at kept
  obtain ⟨marked, last, count, tasks⟩ := kept
  have past := orderly.past
  rw [← show next.number = world.number from count] at past
  cases shape : world.tasks with
  | nil => simp [shape] at found
  | cons task tail =>
      have older := orderly.older
      have newest := orderly.newest task (by simp [shape])
      obtain rfl : task = ⟨number, stops, item :: rest⟩ := by simpa [shape] using found
      rw [shape, List.tail_cons] at older
      simp only [shape, List.set_cons_zero] at tasks
      rcases item_cases item with quiet | ⟨command, rfl⟩
      · obtain ⟨phone, trace⟩ : next.phone = world.phone ∧ next.trace = world.trace := by
          rw [taken]
          exact perform_quiet quiet number stops _
        refine orderly.of_set found taken ?_ ?_ ?_ ?_
        · rwa [tasks]
        · rw [tasks]
          intro other member
          obtain rfl := Option.some.inj member
          exact newest.quiet_item quiet phone ⟨marked, last, count⟩
        · rwa [trace]
        · rw [trace]
          exact orderly.ordered
      · have phone : next.phone = world.phone.exec number command := by
          rw [taken]
          rfl
        have trace : next.trace = world.trace ++ [(number, stops)] := by
          rw [taken]
          rfl
        have current : number + 1 = next.number := newest.number.trans count.symm
        refine orderly.of_set found taken ?_ ?_ ?_ ?_
        · rwa [tasks]
        · rw [tasks]
          intro other member
          obtain rfl := Option.some.inj member
          exact newest.command_item phone ⟨marked, last, count⟩
        · rw [trace]
          intro entry member
          rcases List.mem_append.mp member with old | new
          · exact past entry old
          · rw [List.mem_singleton.mp new]
            exact Nat.lt_of_succ_le (Nat.le_of_eq current)
        · rw [trace]
          refine ordered_concat orderly.ordered fun other member => ?_
          exact Nat.le_of_lt_succ ((past other member).trans_eq current.symm)

/-- An older thread has no commands left. -/
theorem Orderly.run_older {index number : Nat} {stops : Bool} {item : Item} {rest : List Item}
    (orderly : Orderly device world)
    (found : world.tasks[index + 1]? = some ⟨number, stops, item :: rest⟩)
    (taken : next = perform number stops
      { world with tasks := world.tasks.set (index + 1) ⟨number, stops, rest⟩ } item) :
    Orderly device next := by
  have kept := perform_kept number stops
    { world with tasks := world.tasks.set (index + 1) ⟨number, stops, rest⟩ } item
  rw [← taken] at kept
  obtain ⟨marked, last, count, tasks⟩ := kept
  have past := orderly.past
  rw [← show next.number = world.number from count] at past
  cases shape : world.tasks with
  | nil => simp [shape] at found
  | cons task tail =>
      have older := orderly.older
      have newest := orderly.newest task (by simp [shape])
      have found' := found
      rw [shape, List.getElem?_cons_succ] at found'
      rw [shape, List.tail_cons] at older
      simp only [shape, List.set_cons_succ] at tasks
      have none := older ⟨number, stops, item :: rest⟩ (List.mem_of_getElem? found')
      rw [← List.singleton_append, commandsOf_append, List.append_eq_nil_iff] at none
      obtain ⟨phone, trace⟩ : next.phone = world.phone ∧ next.trace = world.trace := by
        rw [taken]
        exact perform_quiet none.1 number stops _
      refine orderly.of_set found taken ?_ ?_ ?_ ?_
      · rw [tasks]
        intro other member
        rcases List.mem_or_eq_of_mem_set member with old | rfl
        · exact older other old
        · exact none.2
      · rw [tasks]
        intro other member
        obtain rfl := Option.some.inj member
        exact newest.congr phone ⟨marked, last, count⟩
      · rwa [trace]
      · rw [trace]
        exact orderly.ordered

theorem orderly_run_step {index : Nat} (orderly : Orderly device world)
    (stepped : step device world (.run index) = some next) : Orderly device next := by
  simp only [step] at stepped
  split at stepped
  · next number stops item rest found =>
      have taken := (Option.some.inj stepped).symm
      cases index with
      | zero => exact orderly.run_newest found taken
      | succ index => exact orderly.run_older found taken
  · simp at stepped

theorem orderly_step {label : Label} (orderly : Orderly device world) (waits : Waits world label)
    (stepped : step device world label = some next) : Orderly device next := by
  cases label with
  | start attempt => exact orderly_start_step orderly waits stepped
  | stop => exact orderly_stop_step orderly waits stepped
  | destroy => exact orderly_destroy_step orderly stepped
  | run index => exact orderly_run_step orderly stepped
  | handle => exact orderly_handle_step orderly stepped

theorem foldl_perform_tasks (number : Nat) (stops : Bool) (items : List Item) (world : World)
    (tasks : List Task) :
    items.foldl (perform number stops) { world with tasks := tasks } =
      { items.foldl (perform number stops) world with tasks := tasks } := by
  induction items generalizing world with
  | nil => rfl
  | cons item items ih =>
      have one : perform number stops { world with tasks := tasks } item =
          { perform number stops world item with tasks := tasks } := by
        cases item with
        | message connecting => rfl
        | root command => rfl
        | reset =>
            simp only [perform]
            split <;> rfl
        | stopSelf =>
            simp only [perform]
            split <;> rfl
      rw [List.foldl_cons, List.foldl_cons, one, ih]

theorem run_items (device : Device) (number : Nat) (stops : Bool) (items rest : List Item) (index : Nat) :
    ∀ world : World, world.tasks[index]? = some ⟨number, stops, items ++ rest⟩ →
      run (step device) (List.replicate items.length (.run index)) world =
        some { items.foldl (perform number stops) world with
          tasks := world.tasks.set index ⟨number, stops, rest⟩ } := by
  induction items with
  | nil =>
      intro world found
      have same : world.tasks.set index ⟨number, stops, rest⟩ = world.tasks := by
        obtain ⟨bound, value⟩ := List.getElem?_eq_some_iff.mp found
        rw [List.nil_append] at value
        rw [← value, List.set_getElem_self]
      rw [same]
      rfl
  | cons item items ih =>
      intro world found
      have stepped : step device world (.run index) = some (perform number stops
          { world with tasks := world.tasks.set index ⟨number, stops, items ++ rest⟩ } item) := by
        simp only [step]
        rw [found]
        rfl
      have tasks := (perform_kept number stops
        { world with tasks := world.tasks.set index ⟨number, stops, items ++ rest⟩ } item).2.2.2
      have bound : index < world.tasks.length := by
        obtain ⟨bound, -⟩ := List.getElem?_eq_some_iff.mp found
        exact bound
      rw [List.length_cons, List.replicate_succ, run_cons, stepped, Option.bind_some, ih]
      · rw [tasks, List.set_set, ← List.foldl_cons, foldl_perform_tasks]
      · rw [tasks, List.getElem?_set_self bound]

def Item.message? : Item → Option Bool
  | .message connecting => some connecting
  | _ => none

structure Performed (number : Nat) (items : List Item) (world final : World) : Prop where
  marked : final.marked = world.marked
  connecting : final.connecting = world.connecting
  last : final.last = world.last
  count : final.number = world.number
  proxyType : world.proxyType = .http → final.proxyType = .http
  messages : final.messages = world.messages ++ items.filterMap Item.message?
  phone : final.phone = world.phone.execAll number (commandsOf items)

theorem performed (number : Nat) (stops : Bool) (items : List Item) (world : World) :
    Performed number items world (items.foldl (perform number stops) world) := by
  induction items generalizing world with
  | nil => exact ⟨rfl, rfl, rfl, rfl, id, by simp, rfl⟩
  | cons item items ih =>
      obtain ⟨marked, connecting, last, count, proxyType, messages, phone⟩ :=
        ih (perform number stops world item)
      rw [← List.foldl_cons] at marked connecting last count proxyType messages phone
      cases item with
      | message value =>
          refine ⟨marked, connecting, last, count, proxyType, messages.trans ?_, phone⟩
          simp [perform, Item.message?]
      | root command =>
          exact ⟨marked, connecting, last, count, proxyType, messages, phone⟩
      | reset =>
          by_cases own : number + 1 = world.number
          · have reset : perform number stops world .reset = { world with proxyType := .http } := by
              simp [perform, own]
            rw [reset] at marked connecting last count proxyType messages phone
            exact ⟨marked, connecting, last, count, fun _ => proxyType rfl, messages, phone⟩
          · have kept : perform number stops world .reset = world := by simp [perform, own]
            rw [kept] at marked connecting last count proxyType messages phone
            exact ⟨marked, connecting, last, count, proxyType, messages, phone⟩
      | stopSelf =>
          by_cases own : number + 1 = world.number ∧ world.marked = true
          · have stopped : perform number stops world .stopSelf = { world with stopping := true } := by
              simp [perform, own]
            rw [stopped] at marked connecting last count proxyType messages phone
            exact ⟨marked, connecting, last, count, proxyType, messages, phone⟩
          · have kept : perform number stops world .stopSelf = world := by simp [perform, own]
            rw [kept] at marked connecting last count proxyType messages phone
            exact ⟨marked, connecting, last, count, proxyType, messages, phone⟩

theorem startItems_messages (device : Device) (service : Service) :
    (startItems device service).filterMap Item.message? = [true, false] := by
  have rules : ((startRules device service).map fun rule => Item.root (.append rule)).filterMap
      Item.message? = [] := by
    rw [List.filterMap_map]
    exact List.filterMap_eq_nil_iff.mpr fun _ _ => rfl
  rw [startItems, List.filterMap_append, List.filterMap_append, rules]
  unfold tunnelItems proxyItems
  cases service.proxyType <;> cases usesCntlm service <;> rfl

def startAlone (device : Device) (bundle : Bundle) : List Label :=
  .start ⟨bundle, true⟩ :: List.replicate (startItems device (onStart bundle)).length (.run 0)

def begun (device : Device) (bundle : Bundle) (world : World) : World :=
  { world with
    marked := true
    last := some ⟨bundle, true⟩
    proxyType := bundle.proxyType
    number := world.number + 1
    tasks := ⟨world.number, false, startItems device (onStart bundle)⟩ :: world.tasks }

theorem run_startAlone (device : Device) (world : World) {bundle : Bundle}
    (http : bundle.proxyType = .http) (idle : world.marked = false)
    (unconnected : world.connecting = false) (handled : world.messages = []) :
    ∃ final, run (step device) (startAlone device bundle) world = some final ∧
      final.marked = true ∧ final.connecting = false ∧ final.messages = [true, false] ∧
      final.last = some ⟨bundle, true⟩ ∧ final.proxyType = .http ∧ final.number = world.number + 1 ∧
      final.tasks = ⟨world.number, false, []⟩ :: world.tasks ∧
      final.phone = world.phone.execAll world.number
        (commandsOf (startItems device (onStart bundle))) := by
  have stepped : step device world (.start ⟨bundle, true⟩) = some (begun device bundle world) := by
    simp [step, begun, idle, unconnected, Attempt.items]
  have found : (begun device bundle world).tasks[0]? =
      some ⟨world.number, false, startItems device (onStart bundle) ++ []⟩ := by simp [begun]
  have ran : run (step device) (startAlone device bundle) world = some
      { (startItems device (onStart bundle)).foldl (perform world.number false)
          (begun device bundle world) with
        tasks := ⟨world.number, false, []⟩ :: world.tasks } := by
    rw [startAlone, run_cons, stepped, Option.bind_some, run_items device _ _ _ _ _ _ found]
    rfl
  obtain ⟨marked, connecting, asked, count, proxyType, messages, phone⟩ :=
    performed world.number false (startItems device (onStart bundle)) (begun device bundle world)
  rw [startItems_messages] at messages
  have queued : (begun device bundle world).messages ++ [true, false] = [true, false] := by
    simp [begun, handled]
  exact ⟨_, ran, marked, connecting.trans unconnected, messages.trans queued, asked, proxyType http,
    count, rfl, phone⟩

theorem run_stop {bundle : Bundle} (marked : world.marked = true)
    (asked : world.last = some ⟨bundle, true⟩) (type : world.proxyType = .http)
    (messages : world.messages = [true, false]) :
    run (step device) [.handle, .handle, .stop] world = some
      { world with
        connecting := false
        messages := []
        marked := false
        stopping := false
        tasks := ⟨world.number - 1, true, (stopCommands bundle .http).map .root⟩ :: world.tasks } := by
  simp [step, onDestroy, messages, marked, asked, type]

/-- A stop and a start on its heels, whose thread comes first. -/
def lateStop (device : Device) (bundle : Bundle) : List Label :=
  startAlone device bundle ++ [Label.handle, .handle, .stop] ++ startAlone device bundle ++
    [Label.handle, .handle] ++ List.replicate (stopCommands bundle .http).length (.run 1)

theorem run_lateStop {bundle : Bundle} (http : bundle.proxyType = .http) :
    ∃ final, run (step device) (lateStop device bundle) World.start = some final ∧
      Quiet final ∧ final.marked = true ∧ final.last = some ⟨bundle, true⟩ ∧
      final.phone.chain = [] := by
  obtain ⟨first, ranFirst, marked, unconnected, messages, asked, type, count, tasks, -⟩ :=
    run_startAlone device .start http rfl rfl rfl
  obtain ⟨second, ranStop, same⟩ : ∃ second, run (step device) [.handle, .handle, .stop] first =
      some second ∧ second = _ := ⟨_, run_stop marked asked type messages, rfl⟩
  obtain ⟨third, ranThird, marked', unconnected', messages', asked', -, count', tasks', phone'⟩ :=
    run_startAlone device second http (by rw [same]) (by rw [same]) (by rw [same])
  have ranHandle : run (step device) [.handle, .handle] third =
      some { third with connecting := false, messages := [] } := by
    simp [step, messages']
  have found : ({ third with connecting := false, messages := [] } : World).tasks[1]? =
      some ⟨0, true, (stopCommands bundle .http).map .root ++ []⟩ := by
    simp [tasks', same, count, World.start]
  have ranLate := run_items device 0 true _ _ _ _ found
  rw [List.length_map] at ranLate
  have whole : run (step device) (lateStop device bundle) World.start = some
      { ((stopCommands bundle .http).map .root).foldl (perform 0 true)
          { third with connecting := false, messages := [] } with
        tasks := third.tasks.set 1 ⟨0, true, []⟩ } := by
    simp only [lateStop, run_append, ranFirst, ranStop, ranThird, ranHandle, ranLate,
      Option.bind_some]
  have final := performed 0 true ((stopCommands bundle .http).map .root)
    { third with connecting := false, messages := [] }
  refine ⟨_, whole, ?_, final.marked.trans marked', final.last.trans asked', ?_⟩
  · simp [Quiet, tasks', same, tasks, World.start, commandsOf]
  · have phone := final.phone
    rw [commandsOf_root] at phone
    exact (congrArg Phone.chain phone).trans (Phone.execAll_stop _ _ _ _).1

theorem appended_of_loads {path script : Bytes} {rules : List Rule}
    (loads : loadRules path script = some rules) : appended path script = rules := by
  obtain ⟨commands, reads, all⟩ := Option.bind_eq_some_iff.mp loads
  rw [appended, reads, Option.getD_some]
  clear loads reads
  induction commands generalizing rules with
  | nil =>
      obtain rfl := Option.some.inj all
      rfl
  | cons command commands ih =>
      rw [List.mapM_cons] at all
      obtain ⟨rule, one, later⟩ := Option.bind_eq_some_iff.mp all
      obtain ⟨others, rest, same⟩ := Option.bind_eq_some_iff.mp later
      obtain rfl := Option.some.inj same
      rw [List.filterMap_cons, one, ih rest]

theorem sampleRules_nonempty : startRules sampleDevice (onStart sampleBundle) ≠ [] := by
  have hostText : sampleBundle.host = Ipv4.text ⟨10, 0, 0, 1⟩ := by decide +kernel
  have valid : ∀ addr ∈ bypassed sampleDevice sampleBundle.bypassAddrs,
      (readRange addr).isSome = true := by decide +kernel
  have loads := rules_chain (upstream (onStart sampleBundle)).proxyType hostText valid
  rw [startRules, appended_of_loads loads]
  simp [ruleLines]

theorem along_replicate (device : Device) (count index : Nat) (world : World) :
    Along (step device) Waits (List.replicate count (.run index)) world := by
  induction count generalizing world with
  | zero => trivial
  | succ count ih => exact ⟨trivial, fun next _ => ih next⟩

theorem Quiet.handle (quiet : Quiet world) (stepped : step device world .handle = some next) :
    Quiet next := by
  simp only [step] at stepped
  split at stepped
  · obtain rfl := Option.some.inj stepped
    exact quiet
  · simp at stepped

theorem along_startAlone {bundle : Bundle} (http : bundle.proxyType = .http) (quiet : Quiet world) :
    Along (step device) Waits (startAlone device bundle) world :=
  ⟨⟨quiet, fun _ spdy => by simp [http] at spdy⟩, fun next _ => along_replicate device _ 0 next⟩

/-- A start, its stop and another start, each behind the last command of the one before. -/
def inTurn (device : Device) (bundle : Bundle) : List Label :=
  startAlone device bundle ++ ([.handle, .handle, .stop] ++
    (List.replicate (stopCommands bundle .http).length (.run 0) ++ startAlone device bundle))

theorem run_inTurn {bundle : Bundle} (http : bundle.proxyType = .http) :
    ∃ final, run (step device) (inTurn device bundle) World.start = some final ∧
      Along (step device) Waits (inTurn device bundle) World.start ∧
      Quiet final ∧ final.marked = true ∧ final.number = 2 := by
  obtain ⟨first, ranFirst, marked, -, messages, asked, type, count, tasks, -⟩ :=
    run_startAlone device .start http rfl rfl rfl
  have quiet : Quiet first := by simp [Quiet, tasks, World.start, commandsOf]
  obtain ⟨second, ranStop, same⟩ : ∃ second, run (step device) [.handle, .handle, .stop] first =
      some second ∧ second = _ := ⟨_, run_stop marked asked type messages, rfl⟩
  have found : second.tasks[0]? =
      some ⟨first.number - 1, true, (stopCommands bundle .http).map .root ++ []⟩ := by simp [same]
  obtain ⟨third, ranThird, stopped, thirdTasks⟩ : ∃ third,
      run (step device) (List.replicate (stopCommands bundle .http).length (.run 0)) second =
        some third ∧
      Performed (first.number - 1) ((stopCommands bundle .http).map .root) second third ∧
      third.tasks = second.tasks.set 0 ⟨first.number - 1, true, []⟩ := by
    have ran := run_items device _ _ _ _ _ _ found
    rw [List.length_map] at ran
    obtain ⟨marked, connecting, last, count, proxyType, messages, phone⟩ :=
      performed (first.number - 1) true ((stopCommands bundle .http).map .root) second
    exact ⟨_, ran, ⟨marked, connecting, last, count, proxyType, messages, phone⟩, rfl⟩
  have none : ((stopCommands bundle .http).map Item.root).filterMap Item.message? = [] := by
    rw [List.filterMap_map]
    exact List.filterMap_eq_nil_iff.mpr fun _ _ => rfl
  obtain ⟨final, ranFinal, marked', -, -, -, -, count', tasks', -⟩ :=
    run_startAlone device third http (stopped.marked.trans (by rw [same]))
      (stopped.connecting.trans (by rw [same])) (stopped.messages.trans (by rw [none, same]; rfl))
  have quietThird : Quiet third := by
    simp [Quiet, thirdTasks, same, tasks, World.start, commandsOf]
  refine ⟨final, ?_, ?_, ?_, marked', ?_⟩
  · simp only [inTurn, run_append, ranFirst, ranStop, ranThird, Option.bind_some, ranFinal]
  · refine along_append (along_startAlone http (by simp [Quiet, World.start])) fun middle ran => ?_
    obtain rfl := Option.some.inj (ranFirst.symm.trans ran)
    refine along_append ?_ fun middle ran => ?_
    · refine ⟨trivial, fun _ one => ⟨trivial, fun _ two => ⟨?_, fun _ _ => trivial⟩⟩⟩
      exact (quiet.handle one).handle two
    · obtain rfl := Option.some.inj (ranStop.symm.trans ran)
      refine along_append (along_replicate device _ 0 _) fun middle ran => ?_
      obtain rfl := Option.some.inj (ranThird.symm.trans ran)
      exact along_startAlone http quietThird
  · simp [Quiet, tasks', thirdTasks, same, tasks, World.start, commandsOf]
  · rw [count', stopped.count, same, count]
    rfl

end ProxySet.Droid.Restart
