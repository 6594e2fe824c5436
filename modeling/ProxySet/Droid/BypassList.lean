import ProxySet.Droid.ProfileList

/-!
`BypassListActivity`: a list of addresses that dialogs, threads and the messages of a
handler change, and that is stored again after a message.  The handler takes the messages in
the order in which they were sent; a thread may stop for any time between two uses of the
list.
-/

namespace ProxySet.Droid.BypassList

open StepRun

/-! ### The activity -/

def presets : List (List Bytes) :=
  [[],
    [ascii "127.0.0.1"],
    [ascii "127.0.0.1", ascii "10.0.0.0/8", ascii "192.168.0.0/16", ascii "172.16.0.0/12"],
    [ascii "1.0.0.0/2", ascii "66.114.0.0/16", ascii "96.0.0.0/3", ascii "128.0.0.0/4",
      ascii "171.0.0.0/8", ascii "175.0.0.0/8", ascii "180.0.0.0/8", ascii "182.0.0.0/8",
      ascii "183.0.0.0/8", ascii "202.0.0.0/8", ascii "203.0.0.0/8", ascii "210.0.0.0/8",
      ascii "211.0.0.0/8", ascii "216.0.0.0/5"]]

/-- An entry that a dialog was opened for: its place, and the text that the dialog shows. -/
structure Target where
  idx : Nat
  shown : Bytes
  deriving DecidableEq

inductive Dialog where
  | add
  | edit (target : Target)
  | del (target : Target)

inductive Message where
  | errAddr
  | addAddr (obj : Bytes)
  /-- Only the place and the new address are in the message. -/
  | editAddr (target : Target) (obj : Bytes)
  | delAddr (target : Target)
  | presetAddr (which : Nat)
  | exportAddr
  /-- What the handler of `reset` or of an import gets. -/
  | filled
  deriving DecidableEq

inductive Thread where
  /-- An address is looked up, for a new entry or for one that is edited. -/
  | validate (target : Option Target) (text : Bytes)
  /-- The list is about to be cleared. -/
  | clear (addrs : List Bytes)
  /-- The list has been cleared, and these are still to be looked up and added. -/
  | fill (addrs : List Bytes)
  /-- A file could not be opened. -/
  | failed

structure Page where
  bypassList : List Bytes
  bypassAddrs : Bytes
  /-- The rows that the list had when it was last put on the screen. -/
  rows : Nat
  dialogs : List Dialog
  threads : List Thread
  queue : List Message

section Steps

variable (getHostAddress : Bytes → Option Bytes)

def encodeAddrs (addrs : List Bytes) : Option Bytes :=
  if addrs = [] then some []
  else
    let valid := addrs.filterMap (validateAddr getHostAddress)
    if valid = [] then none else some (barred valid).dropLast

def refreshList (page : Page) : Option Page :=
  (encodeAddrs getHostAddress page.bypassList).map fun stored =>
    { page with
      bypassAddrs := stored
      bypassList := decodeAddrs getHostAddress stored
      rows := (decodeAddrs getHostAddress stored).length }

def onCreate (bypassAddrs : Bytes) : Page where
  bypassList := decodeAddrs getHostAddress bypassAddrs
  bypassAddrs := bypassAddrs
  rows := (decodeAddrs getHostAddress bypassAddrs).length
  dialogs := []
  threads := []
  queue := []

def handleMessage (page : Page) : Message → Option Page
  | .errAddr => refreshList getHostAddress page
  | .addAddr obj =>
      refreshList getHostAddress { page with bypassList := page.bypassList ++ [obj] }
  | .editAddr target obj =>
      if target.idx < page.bypassList.length then
        refreshList getHostAddress { page with bypassList := page.bypassList.set target.idx obj }
      else none
  | .delAddr target =>
      if target.idx < page.bypassList.length then
        refreshList getHostAddress { page with bypassList := page.bypassList.eraseIdx target.idx }
      else none
  | .presetAddr which =>
      (presets[which]?).map fun list => { page with threads := page.threads ++ [.clear list] }
  | .exportAddr => some page
  | .filled => refreshList getHostAddress page

def send (page : Page) (message : Message) : Page :=
  { page with queue := page.queue ++ [message] }

/-- The next use that a thread makes of the list or of the handler, and the thread after it. -/
def threadStep (page : Page) : Thread → Page × Option Thread
  | .validate target text =>
      match validateAddr getHostAddress text, target with
      | some addr, some target => (send page (.editAddr target addr), none)
      | some addr, none => (send page (.addAddr addr), none)
      | none, _ => (send page .errAddr, none)
  | .clear addrs => ({ page with bypassList := [] }, some (.fill addrs))
  | .fill (addr :: addrs) =>
      match validateAddr getHostAddress addr with
      | some valid => ({ page with bypassList := page.bypassList ++ [valid] }, some (.fill addrs))
      | none => (page, some (.fill addrs))
  | .fill [] => (send page .filled, none)
  | .failed => (send page .filled, none)

inductive Event where
  | openAdd
  | openEdit (idx : Nat)
  | openDel (idx : Nat)
  /-- The dialog is confirmed, with the text that is in it. -/
  | confirm (dialog : Nat) (text : Bytes)
  | cancel (dialog : Nat)
  | choosePreset (which : Nat)
  /-- A file is chosen; the lines are those that can be read. -/
  | importFile (lines : Option (List Bytes))
  | exported
  | thread (place : Nat)
  | handle

def openAt (page : Page) (idx : Nat) (dialog : Target → Dialog) : Option Page :=
  if idx < page.rows then
    (page.bypassList[idx]?).map fun shown =>
      { page with dialogs := page.dialogs ++ [dialog ⟨idx, shown⟩] }
  else some page

def confirmed (page : Page) (text : Bytes) : Dialog → Page
  | .add => { page with threads := page.threads ++ [.validate none text] }
  | .edit target => { page with threads := page.threads ++ [.validate (some target) text] }
  | .del target => send page (.delAddr target)

def handleNext (page : Page) : Option Page :=
  match page.queue with
  | [] => some page
  | message :: queue => handleMessage getHostAddress { page with queue := queue } message

def runThread (page : Page) (place : Nat) : Page :=
  match page.threads[place]? with
  | none => page
  | some thread =>
      let taken := threadStep getHostAddress page thread
      { taken.1 with
        threads := page.threads.take place ++ taken.2.toList ++ page.threads.drop (place + 1) }

def happen (page : Page) : Event → Option Page
  | .openAdd => some { page with dialogs := page.dialogs ++ [.add] }
  | .openEdit idx => openAt page idx .edit
  | .openDel idx => openAt page idx .del
  | .confirm dialog text =>
      match page.dialogs[dialog]? with
      | none => some page
      | some opened => some (confirmed { page with dialogs := page.dialogs.eraseIdx dialog } text opened)
  | .cancel dialog => some { page with dialogs := page.dialogs.eraseIdx dialog }
  | .choosePreset which =>
      if which < presets.length then some (send page (.presetAddr which)) else some page
  | .importFile lines =>
      some { page with threads := page.threads ++ [lines.elim .failed .clear] }
  | .exported => some (send page .exportAddr)
  | .thread place => some (runThread getHostAddress page place)
  | .handle => handleNext getHostAddress page

def step (page? : Option Page) (event : Event) : Option (Option Page) :=
  some (page?.bind fun page => happen getHostAddress page event)

end Steps

variable {getHostAddress : Bytes → Option Bytes}

/-! ### Addresses that are valid as they are -/

def Dotted (addr : Bytes) : Prop :=
  (isDottedRange addr || isDottedQuad addr) = true

theorem validateAddr_dotted {addr : Bytes} (dotted : Dotted addr) :
    validateAddr getHostAddress addr = some addr :=
  if_pos dotted

theorem dotted_of_validateAddr {text addr : Bytes}
    (valid : validateAddr getHostAddress text = some addr) : Dotted addr := by
  unfold validateAddr at valid
  split at valid
  case isTrue dotted => exact Option.some.inj valid ▸ dotted
  case isFalse =>
    obtain ⟨-, quad⟩ := Option.filter_eq_some_iff.mp valid
    rw [Dotted, quad, Bool.or_true]

theorem noBar_of_isDigits {most : Nat} {text : Bytes} (digits : isDigits most text = true) :
    124 ∉ text := by
  simp only [isDigits, Bool.and_eq_true, List.all_eq_true] at digits
  intro member
  exact absurd (digits.2 124 member) (by decide)

theorem mem_splitOn {separator byte : UInt8} {text : Bytes} (member : byte ∈ text)
    (other : byte ≠ separator) : ∃ part ∈ text.splitOn separator, byte ∈ part := by
  induction text with
  | nil => cases member
  | cons first text ih =>
      obtain ⟨part, parts, split⟩ := List.exists_cons_of_ne_nil (List.splitOn_ne_nil separator text)
      rw [List.splitOn_cons_eq_if_modifyHead]
      by_cases separates : first = separator
      · rcases List.mem_cons.mp member with rfl | later
        · exact absurd separates other
        · obtain ⟨found, inside, here⟩ := ih later
          rw [if_pos (by simpa using separates)]
          exact ⟨found, List.mem_cons_of_mem _ inside, here⟩
      · rw [if_neg (by simpa using separates), split, List.modifyHead_cons]
        rcases List.mem_cons.mp member with rfl | later
        · exact ⟨byte :: part, List.mem_cons_self .., List.mem_cons_self ..⟩
        · obtain ⟨found, inside, here⟩ := ih later
          rw [split] at inside
          rcases List.mem_cons.mp inside with rfl | inside
          · exact ⟨first :: found, List.mem_cons_self .., List.mem_cons_of_mem _ here⟩
          · exact ⟨found, List.mem_cons_of_mem _ inside, here⟩

theorem noBar_of_isDottedQuad {text : Bytes} (quad : isDottedQuad text = true) : 124 ∉ text := by
  intro member
  obtain ⟨part, inside, here⟩ := mem_splitOn member (by decide : 124 ≠ (46 : UInt8))
  unfold isDottedQuad at quad
  split at quad
  case h_1 a b c d parts =>
    simp only [Bool.and_eq_true] at quad
    obtain ⟨⟨⟨first, second⟩, third⟩, fourth⟩ := quad
    rw [parts] at inside
    simp only [List.mem_cons, List.not_mem_nil, or_false] at inside
    rcases inside with rfl | rfl | rfl | rfl
    · exact noBar_of_isDigits first here
    · exact noBar_of_isDigits second here
    · exact noBar_of_isDigits third here
    · exact noBar_of_isDigits fourth here
  case h_2 => cases quad

theorem noBar_of_dotted {addr : Bytes} (dotted : Dotted addr) : 124 ∉ addr := by
  rcases Bool.or_eq_true_iff.mp dotted with range | quad
  · intro member
    obtain ⟨part, inside, here⟩ := mem_splitOn member (by decide : 124 ≠ (47 : UInt8))
    unfold isDottedRange at range
    split at range
    case h_1 address bits parts =>
      simp only [Bool.and_eq_true] at range
      rw [parts] at inside
      simp only [List.mem_cons, List.not_mem_nil, or_false] at inside
      rcases inside with rfl | rfl
      · exact noBar_of_isDottedQuad range.1 here
      · exact noBar_of_isDigits range.2 here
    case h_2 => cases range
  · exact noBar_of_isDottedQuad quad

theorem dotted_ne_nil {addr : Bytes} (dotted : Dotted addr) : addr ≠ [] := by
  rintro rfl
  cases dotted

theorem filterMap_dotted {addrs : List Bytes} (dotted : ∀ addr ∈ addrs, Dotted addr) :
    addrs.filterMap (validateAddr getHostAddress) = addrs := by
  induction addrs with
  | nil => rfl
  | cons addr addrs ih =>
      rw [List.filterMap_cons, validateAddr_dotted (dotted addr (List.mem_cons_self ..)),
        ih fun other member => dotted other (List.mem_cons_of_mem _ member)]

theorem dotted_decodeAddrs (addrs : Bytes) : ∀ addr ∈ decodeAddrs getHostAddress addrs, Dotted addr := by
  intro addr member
  obtain ⟨text, -, valid⟩ := List.mem_filterMap.mp member
  exact dotted_of_validateAddr valid

theorem encodeAddrs_dotted {addrs : List Bytes} (dotted : ∀ addr ∈ addrs, Dotted addr) :
    encodeAddrs getHostAddress addrs = some (barred addrs).dropLast := by
  rw [encodeAddrs]
  split
  case isTrue empty =>
    subst empty
    rfl
  case isFalse spoken =>
    simp only [filterMap_dotted dotted, if_neg spoken]

theorem decodeAddrs_encoded {addrs : List Bytes} (dotted : ∀ addr ∈ addrs, Dotted addr)
    (spoken : addrs ≠ []) : decodeAddrs getHostAddress (barred addrs).dropLast = addrs := by
  obtain ⟨front, last, rfl⟩ : ∃ front last, addrs = front ++ [last] :=
    ⟨addrs.dropLast, addrs.getLast spoken, (List.dropLast_append_getLast spoken).symm⟩
  have bar : ascii "|" = [124] := by decide
  have shape : (barred (front ++ [last])).dropLast = barred front ++ last := by
    have ends : barred [last] = last ++ [124] := by simp [barred, bar]
    rw [barred_append, ends, ← List.append_assoc, List.dropLast_concat]
  have lastDotted := dotted last (by simp)
  rw [shape, decodeAddrs, splitList_barred (fun part member => noBar_of_dotted (dotted part ?_))
    (noBar_of_dotted lastDotted) (dotted_ne_nil lastDotted)]
  · exact filterMap_dotted dotted
  · simp [member]

/-! ### What a message should do -/

/-- The entry that was shown is the one that changes, and where it is gone, none. -/
def Hits (target : Target) (before after : List Bytes) (change : Nat → List Bytes) : Prop :=
  (target.shown ∈ before → ∃ place, before[place]? = some target.shown ∧ after = change place) ∧
    (target.shown ∉ before → after = before)

def Changes (message : Message) (before after : List Bytes) : Prop :=
  match message with
  | .editAddr target obj => Hits target before after fun place => before.set place obj
  | .delAddr target => Hits target before after fun place => before.eraseIdx place
  | _ => True

/-- The event throws nothing, and a message changes what it should and leaves the list stored. -/
def Right (getHostAddress : Bytes → Option Bytes) (page? : Option Page) (event : Event) : Prop :=
  ∀ page ∈ page?, ∃ next, happen getHostAddress page event = some next ∧
    (event = .handle → ∀ message ∈ page.queue.head?,
      Changes message page.bypassList next.bypassList ∧
        decodeAddrs getHostAddress next.bypassAddrs = next.bypassList)

/-- No thread is filling the list, and none has filled it since it was stored. -/
def Quiet (page : Page) : Prop :=
  (∀ addrs, Thread.fill addrs ∉ page.threads) ∧ Message.filled ∉ page.queue

/-- The place in the message is still that of the entry that was shown. -/
def Timely (getHostAddress : Bytes → Option Bytes) (page : Page) : Message → Prop
  | .editAddr target _ => page.bypassList[target.idx]? = some target.shown
  | .delAddr target =>
      page.bypassList[target.idx]? = some target.shown ∧
        (page.bypassList.length = 1 → validateAddr getHostAddress [] = none)
  | .presetAddr _ => Quiet page
  | .exportAddr => Quiet page
  | _ => True

def Clean (getHostAddress : Bytes → Option Bytes) (page? : Option Page) (event : Event) : Prop :=
  ∀ page ∈ page?, match event with
    | .openEdit idx => idx < page.rows → idx < page.bypassList.length
    | .openDel idx => idx < page.rows → idx < page.bypassList.length
    | .handle => ∀ message ∈ page.queue.head?, Timely getHostAddress page message
    | _ => True

/-! ### What holds throughout -/

def Fits : Message → Prop
  | .addAddr obj => Dotted obj
  | .editAddr _ obj => Dotted obj
  | .presetAddr which => which < presets.length
  | _ => True

structure Sound (getHostAddress : Bytes → Option Bytes) (page : Page) : Prop where
  list : ∀ addr ∈ page.bypassList, Dotted addr
  queue : ∀ message ∈ page.queue, Fits message
  stored : Quiet page → decodeAddrs getHostAddress page.bypassAddrs = page.bypassList

variable {page next : Page}

theorem refreshList_spec (dotted : ∀ addr ∈ page.bypassList, Dotted addr) :
    ∃ next, refreshList getHostAddress page = some next ∧
      decodeAddrs getHostAddress next.bypassAddrs = next.bypassList ∧
      (page.bypassList ≠ [] → next.bypassList = page.bypassList) ∧
      (page.bypassList = [] → next.bypassList = decodeAddrs getHostAddress []) ∧
      next.queue = page.queue := by
  rw [refreshList, encodeAddrs_dotted dotted, Option.map_some]
  refine ⟨_, rfl, rfl, decodeAddrs_encoded dotted, ?_, rfl⟩
  intro empty
  simp only [empty]
  rfl

theorem sound_refreshed (page : Page) (dotted : ∀ addr ∈ page.bypassList, Dotted addr)
    (fits : ∀ message ∈ page.queue, Fits message)
    (refreshed : refreshList getHostAddress page = some next) : Sound getHostAddress next := by
  obtain ⟨other, same, stored, -, -, queue⟩ := refreshList_spec dotted
  obtain rfl := Option.some.inj (refreshed.symm.trans same)
  refine ⟨?_, queue ▸ fits, fun _ => stored⟩
  rw [← stored]
  exact dotted_decodeAddrs _

def Handled (getHostAddress : Bytes → Option Bytes) (message : Message) (page next : Page) : Prop :=
  Changes message page.bypassList next.bypassList ∧
    decodeAddrs getHostAddress next.bypassAddrs = next.bypassList ∧ Sound getHostAddress next

theorem handled_refreshed {message : Message} {list : List Bytes} {queue : List Message}
    (dotted : ∀ addr ∈ list, Dotted addr) (fits : ∀ message ∈ queue, Fits message)
    (changes : Changes message page.bypassList
      (if list = [] then decodeAddrs getHostAddress [] else list)) :
    ∃ next, refreshList getHostAddress { page with bypassList := list, queue := queue } = some next ∧
      Handled getHostAddress message page next := by
  obtain ⟨next, refreshed, stored, kept, emptied, -⟩ :=
    @refreshList_spec getHostAddress { page with bypassList := list, queue := queue } dotted
  refine ⟨next, refreshed, ?_, stored, sound_refreshed _ dotted fits refreshed⟩
  by_cases empty : list = []
  · rw [emptied empty]
    rwa [if_pos empty] at changes
  · rw [kept empty]
    rwa [if_neg empty] at changes

theorem handleMessage_timely (sound : Sound getHostAddress page) {message : Message}
    {queue : List Message} (waiting : page.queue = message :: queue)
    (timely : Timely getHostAddress page message) :
    ∃ next, handleMessage getHostAddress { page with queue := queue } message = some next ∧
      Handled getHostAddress message page next := by
  have fitsAll : ∀ other ∈ message :: queue, Fits other := waiting ▸ sound.queue
  obtain ⟨fitsFirst, fits⟩ := List.forall_mem_cons.mp fitsAll
  cases message with
  | errAddr => exact handled_refreshed sound.list fits trivial
  | filled => exact handled_refreshed sound.list fits trivial
  | addAddr obj =>
      refine handled_refreshed ?_ fits trivial
      intro addr member
      rcases List.mem_append.mp member with old | new
      · exact sound.list addr old
      · rw [List.mem_singleton.mp new]
        exact fitsFirst
  | editAddr target obj =>
      have inside : target.idx < page.bypassList.length := (List.getElem?_eq_some_iff.mp timely).1
      simp only [handleMessage, if_pos inside]
      refine handled_refreshed ?_ fits ?_
      · intro addr member
        rcases List.mem_or_eq_of_mem_set member with old | rfl
        · exact sound.list addr old
        · exact fitsFirst
      · have spoken : page.bypassList.set target.idx obj ≠ [] := by
          intro empty
          have length := congrArg List.length empty
          rw [List.length_set, List.length_nil] at length
          omega
        rw [if_neg spoken]
        exact ⟨fun _ => ⟨target.idx, timely, rfl⟩,
          fun gone => absurd (List.mem_of_getElem? timely) gone⟩
  | delAddr target =>
      have inside : target.idx < page.bypassList.length := (List.getElem?_eq_some_iff.mp timely.1).1
      simp only [handleMessage, if_pos inside]
      refine handled_refreshed ?_ fits ?_
      · exact fun addr member => sound.list addr (List.mem_of_mem_eraseIdx member)
      · refine ⟨fun _ => ⟨target.idx, timely.1, ?_⟩,
          fun gone => absurd (List.mem_of_getElem? timely.1) gone⟩
        split
        case isFalse => rfl
        case isTrue empty =>
          have length := List.length_eraseIdx_of_lt inside
          rw [empty, List.length_nil] at length
          have invalid := timely.2 (by omega)
          have nothing : decodeAddrs getHostAddress [] = [] := by
            simp [decodeAddrs, splitList, invalid]
          exact nothing.trans empty.symm
  | presetAddr which =>
      have found : presets[which]? = some presets[which] := List.getElem?_eq_getElem fitsFirst
      simp only [handleMessage, found, Option.map_some]
      exact ⟨_, rfl, trivial, sound.stored timely, sound.list, fits, fun _ => sound.stored timely⟩
  | exportAddr =>
      exact ⟨_, rfl, trivial, sound.stored timely, sound.list, fits, fun _ => sound.stored timely⟩

/-! ### Every order of events -/

theorem Sound.carry (sound : Sound getHostAddress page) (other : Page)
    (list : other.bypassList = page.bypassList) (addrs : other.bypassAddrs = page.bypassAddrs)
    (fits : ∀ message ∈ other.queue, Fits message) (quiet : Quiet other → Quiet page) :
    Sound getHostAddress other :=
  ⟨list ▸ sound.list, fits, fun now => by rw [addrs, list, sound.stored (quiet now)]⟩

theorem Sound.dialogs (sound : Sound getHostAddress page) (dialogs : List Dialog) :
    Sound getHostAddress { page with dialogs := dialogs } :=
  ⟨sound.list, sound.queue, sound.stored⟩

theorem Sound.send (sound : Sound getHostAddress page) {message : Message} (fits : Fits message) :
    Sound getHostAddress (send page message) := by
  refine sound.carry (BypassList.send page message) rfl rfl ?_ ?_
  · intro other member
    rcases List.mem_append.mp member with old | new
    · exact sound.queue other old
    · rw [List.mem_singleton.mp new]
      exact fits
  · rintro ⟨threads, queue⟩
    exact ⟨threads, fun member => queue (List.mem_append_left _ member)⟩

theorem Sound.threads (sound : Sound getHostAddress page) {threads : List Thread}
    (same : ∀ addrs, Thread.fill addrs ∈ page.threads → Thread.fill addrs ∈ threads) :
    Sound getHostAddress { page with threads := threads } := by
  refine sound.carry { page with threads := threads } rfl rfl sound.queue ?_
  rintro ⟨none, queue⟩
  exact ⟨fun addrs member => none addrs (same addrs member), queue⟩

theorem sound_unquiet {other : Page} (list : ∀ addr ∈ other.bypassList, Dotted addr)
    (fits : ∀ message ∈ other.queue, Fits message) (busy : ¬Quiet other) :
    Sound getHostAddress other :=
  ⟨list, fits, fun quiet => absurd quiet busy⟩

theorem mem_others {place : Nat} {threads : List Thread} {thread other : Thread}
    (taken : threads[place]? = some thread) (member : other ∈ threads) (differs : other ≠ thread)
    (instead : List Thread) :
    other ∈ threads.take place ++ instead ++ threads.drop (place + 1) := by
  obtain ⟨inside, here⟩ := List.getElem?_eq_some_iff.mp taken
  have shape : threads = threads.take place ++ thread :: threads.drop (place + 1) := by
    rw [← here, List.getElem_cons_drop, List.take_append_drop]
  rw [shape, List.mem_append, List.mem_cons] at member
  rcases member with before | same | after
  · simp [before]
  · exact absurd same differs
  · simp [after]

theorem sound_runThread (sound : Sound getHostAddress page) (place : Nat) :
    Sound getHostAddress (runThread getHostAddress page place) := by
  rw [runThread]
  cases taken : page.threads[place]? with
  | none => exact sound
  | some thread =>
      have others : ∀ addrs, Thread.fill addrs ≠ thread → Thread.fill addrs ∈ page.threads →
          ∀ instead, Thread.fill addrs ∈
            page.threads.take place ++ instead ++ page.threads.drop (place + 1) :=
        fun addrs differs member instead => mem_others taken member differs instead
      have filled : Sound getHostAddress (send page .filled) := sound.send trivial
      cases thread with
      | validate target text =>
          have kept : ∀ message, Fits message → Sound getHostAddress
              { send page message with
                threads := page.threads.take place ++ [] ++ page.threads.drop (place + 1) } :=
            fun message fits => (sound.send fits).threads fun addrs member =>
              others addrs (by simp) member []
          cases valid : validateAddr getHostAddress text with
          | none => simpa [threadStep, valid] using kept .errAddr trivial
          | some addr =>
              have dotted := dotted_of_validateAddr valid
              cases target with
              | none => simpa [threadStep, valid] using kept (.addAddr addr) dotted
              | some target => simpa [threadStep, valid] using kept (.editAddr target addr) dotted
      | clear addrs =>
          refine sound_unquiet (by simp [threadStep]) sound.queue ?_
          rintro ⟨none, -⟩
          exact none addrs (by simp [threadStep])
      | failed =>
          exact filled.threads fun addrs member => others addrs (by simp) member []
      | fill addrs =>
          cases addrs with
          | nil =>
              refine sound_unquiet sound.list filled.queue ?_
              rintro ⟨-, none⟩
              exact none (by simp [threadStep, send])
          | cons addr addrs =>
              have busy : ∀ other : Page, other.threads = page.threads.take place ++
                  [.fill addrs] ++ page.threads.drop (place + 1) → ¬Quiet other := by
                rintro other threads ⟨none, -⟩
                exact none addrs (by simp [threads])
              cases valid : validateAddr getHostAddress addr with
              | none =>
                  simp only [threadStep, valid]
                  exact sound_unquiet sound.list sound.queue (busy _ rfl)
              | some found =>
                  simp only [threadStep, valid]
                  refine sound_unquiet ?_ sound.queue (busy _ rfl)
                  intro other member
                  rcases List.mem_append.mp member with old | new
                  · exact sound.list other old
                  · rw [List.mem_singleton.mp new]
                    exact dotted_of_validateAddr valid

theorem sound_openAt (sound : Sound getHostAddress page) {idx : Nat}
    (still : idx < page.rows → idx < page.bypassList.length) (dialog : Target → Dialog) :
    ∃ next, openAt page idx dialog = some next ∧ Sound getHostAddress next := by
  rw [openAt]
  split
  case isTrue shown =>
    rw [List.getElem?_eq_getElem (still shown), Option.map_some]
    exact ⟨_, rfl, sound.dialogs _⟩
  case isFalse => exact ⟨page, rfl, sound⟩

theorem sound_confirmed (sound : Sound getHostAddress page) (text : Bytes) (dialog : Dialog) :
    Sound getHostAddress (confirmed page text dialog) := by
  cases dialog with
  | add => exact sound.threads fun addrs member => List.mem_append_left _ member
  | edit target => exact sound.threads fun addrs member => List.mem_append_left _ member
  | del target => exact sound.send trivial

theorem handleNext_right (sound : Sound getHostAddress page)
    (timely : ∀ message ∈ page.queue.head?, Timely getHostAddress page message) :
    ∃ next, handleNext getHostAddress page = some next ∧ Sound getHostAddress next ∧
      ∀ message ∈ page.queue.head?, Changes message page.bypassList next.bypassList ∧
        decodeAddrs getHostAddress next.bypassAddrs = next.bypassList := by
  rw [handleNext]
  cases waiting : page.queue with
  | nil => exact ⟨page, rfl, sound, by simp⟩
  | cons message queue =>
      obtain ⟨next, done, changes, stored, still⟩ :=
        handleMessage_timely sound waiting (timely message (by simp [waiting]))
      refine ⟨next, done, still, ?_⟩
      intro other here
      obtain rfl := Option.some.inj here
      exact ⟨changes, stored⟩

theorem right_quietly {event : Event} (other : event ≠ .handle)
    (happened : ∃ next, happen getHostAddress page event = some next ∧ Sound getHostAddress next) :
    ∃ next, happen getHostAddress page event = some next ∧ Sound getHostAddress next ∧
      (event = .handle → ∀ message ∈ page.queue.head?,
        Changes message page.bypassList next.bypassList ∧
          decodeAddrs getHostAddress next.bypassAddrs = next.bypassList) := by
  obtain ⟨next, done, sound⟩ := happened
  exact ⟨next, done, sound, fun same => absurd same other⟩

theorem right_of_clean (sound : Sound getHostAddress page) {event : Event}
    (clean : Clean getHostAddress (some page) event) :
    ∃ next, happen getHostAddress page event = some next ∧ Sound getHostAddress next ∧
      (event = .handle → ∀ message ∈ page.queue.head?,
        Changes message page.bypassList next.bypassList ∧
          decodeAddrs getHostAddress next.bypassAddrs = next.bypassList) := by
  have allowed := clean page rfl
  cases event with
  | handle =>
      obtain ⟨next, done, still, right⟩ := handleNext_right sound allowed
      exact ⟨next, done, still, fun _ => right⟩
  | openAdd => exact right_quietly (by simp) ⟨_, rfl, sound.dialogs _⟩
  | openEdit idx => exact right_quietly (by simp) (sound_openAt sound allowed .edit)
  | openDel idx => exact right_quietly (by simp) (sound_openAt sound allowed .del)
  | confirm dialog text =>
      refine right_quietly (by simp) ?_
      rw [happen]
      split
      · exact ⟨page, rfl, sound⟩
      · exact ⟨_, rfl, sound_confirmed (sound.dialogs _) text _⟩
  | cancel dialog => exact right_quietly (by simp) ⟨_, rfl, sound.dialogs _⟩
  | choosePreset which =>
      refine right_quietly (by simp) ?_
      rw [happen]
      split
      case isTrue inside => exact ⟨_, rfl, sound.send inside⟩
      case isFalse => exact ⟨page, rfl, sound⟩
  | importFile lines =>
      exact right_quietly (by simp) ⟨_, rfl, sound.threads fun _ => List.mem_append_left _⟩
  | exported => exact right_quietly (by simp) ⟨_, rfl, sound.send trivial⟩
  | thread place => exact right_quietly (by simp) ⟨_, rfl, sound_runThread sound place⟩

theorem right_along (getHostAddress : Bytes → Option Bytes) (bypassAddrs : Bytes)
    (events : List Event)
    (clean : Along (step getHostAddress) (Clean getHostAddress) events
      (some (onCreate getHostAddress bypassAddrs))) :
    Along (step getHostAddress) (Right getHostAddress) events
      (some (onCreate getHostAddress bypassAddrs)) := by
  refine along_of_along (fun page? => ∃ page, page? = some page ∧ Sound getHostAddress page)
    ?_ ?_ ?_ clean
  · rintro _ event next ⟨page, rfl, sound⟩ allowed taken
    obtain ⟨after, done, still, -⟩ := right_of_clean sound allowed
    exact ⟨after, (Option.some.inj taken).symm.trans done, still⟩
  · rintro _ event ⟨page, rfl, sound⟩ allowed here same
    obtain rfl := Option.some.inj same
    obtain ⟨after, done, -, right⟩ := right_of_clean sound allowed
    exact ⟨after, done, right⟩
  · refine ⟨_, rfl, dotted_decodeAddrs _, ?_, fun _ => rfl⟩
    intro message member
    cases member

/-- The first entry is edited and deleted; the look-up for the edit ends after the deletion. -/
def lateEdit : List Event :=
  [.openEdit 0, .confirm 0 (ascii "3.3.3.3"), .openDel 0, .confirm 0 [], .handle, .thread 0, .handle]

def promptEdit : List Event :=
  [.openEdit 0, .confirm 0 (ascii "3.3.3.3"), .thread 0] ++ [.handle]

theorem right_along_prompt :
    Along (step fun _ => none) (Right fun _ => none) promptEdit
      (some (onCreate (fun _ => none) (ascii "1.1.1.1|2.2.2.2"))) := by
  refine right_along (fun _ => none) (ascii "1.1.1.1|2.2.2.2") promptEdit (along_concat ⟨?_, ?_⟩ ?_)
  · intro page here _
    obtain rfl := Option.some.inj here
    decide +kernel
  · exact fun _ _ => ⟨fun _ _ => trivial, fun _ _ => ⟨fun _ _ => trivial, fun _ _ => trivial⟩⟩
  · intro page? ran page here message waiting
    obtain rfl : page? = some page := here
    have known : (run (step fun _ => none) [.openEdit 0, .confirm 0 (ascii "3.3.3.3"), .thread 0]
        (some (onCreate (fun _ => none) (ascii "1.1.1.1|2.2.2.2")))).any (fun page? =>
          page?.any fun page => decide (page.bypassList[0]? = some (ascii "1.1.1.1") ∧
            page.queue.head? = some (.editAddr ⟨0, ascii "1.1.1.1"⟩ (ascii "3.3.3.3")))) = true := by
      decide +kernel
    rw [ran, Option.any_some, Option.any_some] at known
    obtain ⟨entry, first⟩ := of_decide_eq_true known
    obtain rfl := Option.some.inj (first.symm.trans waiting)
    exact entry

theorem late_edit_hits_another :
    ¬∀ events, Along (step fun _ => none) (Right fun _ => none) events
      (some (onCreate (fun _ => none) (ascii "1.1.1.1|2.2.2.2"))) := by
  intro right
  have reached : (run (step fun _ => none) (lateEdit.take 6)
      (some (onCreate (fun _ => none) (ascii "1.1.1.1|2.2.2.2")))).any (fun page? =>
        page?.any fun page => decide (page.bypassList = [ascii "2.2.2.2"] ∧
          page.queue.head? = some (.editAddr ⟨0, ascii "1.1.1.1"⟩ (ascii "3.3.3.3")) ∧
          (happen (fun _ => none) page .handle).map Page.bypassList = some [ascii "3.3.3.3"])) =
      true := by decide +kernel
  obtain ⟨page?, ran, known⟩ := (Option.any_eq_true _ _).mp reached
  obtain ⟨page, rfl, facts⟩ := (Option.any_eq_true _ _).mp known
  obtain ⟨list, waiting, handled⟩ := of_decide_eq_true facts
  obtain ⟨next, done, changed⟩ := along_at (right lateEdit) ran page rfl
  obtain ⟨⟨-, untouched⟩, -⟩ := changed rfl _ waiting
  rw [done, Option.map_some, untouched (by rw [list]; decide), list] at handled
  exact absurd (Option.some.inj handled) (by decide)

end ProxySet.Droid.BypassList
