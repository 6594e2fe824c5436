import Mathlib.Data.List.Nodup
import Mathlib.Logic.Function.Basic

/-!
Rings of cells that are linked in both directions, in a memory in which a cell may be missing.  A
read or a write of a missing cell has no result.
-/

namespace CircularList

structure Cell (Place : Type) where
  next : Place
  prev : Place
  deriving DecidableEq

abbrev Memory (Place : Type) := Place → Option (Cell Place)

variable {Place : Type}

def Memory.next (memory : Memory Place) (place : Place) : Option Place :=
  (memory place).map Cell.next

def Memory.prev (memory : Memory Place) (place : Place) : Option Place :=
  (memory place).map Cell.prev

theorem Memory.isSome_iff_next {memory : Memory Place} {place : Place} :
    (memory place).isSome ↔ ∃ target, memory.next place = some target := by
  rw [next, ← Option.isSome_iff_exists, Option.isSome_map]

section

variable {memory after : Memory Place}

/-- Only the cells of a list change, and no cell comes or goes. -/
structure Confined (memory after : Memory Place) (places : List Place) : Prop where
  mapped : ∀ place, (after place).isSome = (memory place).isSome
  others : ∀ place, place ∉ places → after place = memory place

theorem Confined.trans {middle : Memory Place} {places : List Place}
    (first : Confined memory middle places) (second : Confined middle after places) :
    Confined memory after places where
  mapped other := (second.mapped other).trans (first.mapped other)
  others other outside := (second.others other outside).trans (first.others other outside)

theorem Confined.mono {places more : List Place} (confined : Confined memory after places)
    (among : places ⊆ more) : Confined memory after more where
  mapped := confined.mapped
  others other outside := confined.others other fun member => outside (among member)

end

section Writes

variable [DecidableEq Place] {memory after : Memory Place} {place value : Place}

def Memory.setNext (memory : Memory Place) (place value : Place) : Option (Memory Place) :=
  (memory place).map fun cell => Function.update memory place (some { cell with next := value })

def Memory.setPrev (memory : Memory Place) (place value : Place) : Option (Memory Place) :=
  (memory place).map fun cell => Function.update memory place (some { cell with prev := value })

structure Written (memory after : Memory Place) (place : Place) (next prev : Place → Option Place) :
    Prop where
  next : after.next = next
  prev : after.prev = prev
  confined : Confined memory after [place]

theorem Memory.setNext_spec (found : (memory place).isSome) (value : Place) :
    ∃ after, memory.setNext place value = some after ∧
      Written memory after place (Function.update memory.next place (some value)) memory.prev := by
  obtain ⟨cell, found⟩ := Option.isSome_iff_exists.mp found
  refine ⟨_, by rw [setNext, found, Option.map_some], ?_, ?_, ?_, ?_⟩
  · funext other
    by_cases here : other = place <;> simp [Memory.next, here]
  · funext other
    by_cases here : other = place <;> simp [Memory.prev, here, found]
  · intro other
    by_cases here : other = place <;> simp [here, found]
  · intro other outside
    exact Function.update_of_ne (by simpa using outside) ..

theorem Memory.setPrev_spec (found : (memory place).isSome) (value : Place) :
    ∃ after, memory.setPrev place value = some after ∧
      Written memory after place memory.next (Function.update memory.prev place (some value)) := by
  obtain ⟨cell, found⟩ := Option.isSome_iff_exists.mp found
  refine ⟨_, by rw [setPrev, found, Option.map_some], ?_, ?_, ?_, ?_⟩
  · funext other
    by_cases here : other = place <;> simp [Memory.next, here, found]
  · funext other
    by_cases here : other = place <;> simp [Memory.prev, here]
  · intro other
    by_cases here : other = place <;> simp [here, found]
  · intro other outside
    exact Function.update_of_ne (by simpa using outside) ..

end Writes

def Linked (memory : Memory Place) (first second : Place) : Prop :=
  memory.next first = some second ∧ memory.prev second = some first

def Path (memory : Memory Place) : Place → List Place → Place → Prop
  | first, [], last => Linked memory first last
  | first, node :: nodes, last => Linked memory first node ∧ Path memory node nodes last

/-- The head of a list and its nodes, each of them once. -/
structure Circle (memory : Memory Place) (head : Place) (nodes : List Place) : Prop where
  distinct : (head :: nodes).Nodup
  path : Path memory head nodes head

section Paths

variable {memory after : Memory Place} {first last head node : Place} {nodes front back : List Place}

theorem path_append :
    Path memory first (front ++ node :: back) last ↔
      Path memory first front node ∧ Path memory node back last := by
  induction front generalizing first with
  | nil => rfl
  | cons place front ih => rw [List.cons_append, Path, Path, ih, and_assoc]

/-- A path is a matter of the forward links it starts from and the backward links it leads to. -/
theorem Path.congr (path : Path memory first nodes last)
    (forward : ∀ place ∈ first :: nodes, after.next place = memory.next place)
    (backward : ∀ place ∈ nodes ++ [last], after.prev place = memory.prev place) :
    Path after first nodes last := by
  induction nodes generalizing first with
  | nil =>
      exact ⟨(forward first (by simp)).trans path.1, (backward last (by simp)).trans path.2⟩
  | cons node nodes ih =>
      obtain ⟨link, rest⟩ := path
      refine ⟨⟨(forward first (by simp)).trans link.1, (backward node (by simp)).trans link.2⟩, ?_⟩
      refine ih rest (fun place member => ?_) fun place member => ?_
      · exact forward place (List.mem_cons_of_mem _ member)
      · exact backward place (List.mem_cons_of_mem _ member)

theorem Circle.congr (circle : Circle memory head nodes)
    (same : ∀ place ∈ head :: nodes, after place = memory place) : Circle after head nodes := by
  refine ⟨circle.distinct, circle.path.congr (fun place member => ?_) fun place member => ?_⟩
  · rw [Memory.next, Memory.next, same place member]
  · have among : place ∈ head :: nodes := by
      simpa [or_comm] using member
    rw [Memory.prev, Memory.prev, same place among]

theorem Path.next_first (path : Path memory first nodes last) :
    memory.next first = some (nodes.headD last) := by
  cases nodes with
  | nil => exact path.1
  | cons node nodes => exact path.1.1

theorem Path.prev_last (path : Path memory first nodes last) :
    memory.prev last = some (nodes.getLastD first) := by
  induction nodes generalizing first with
  | nil => exact path.2
  | cons node nodes ih => rw [ih path.2, List.getLastD_cons]

theorem Path.restart {other : Place} (path : Path memory first nodes last)
    (next : after.next other = some (nodes.headD last))
    (prev : after.prev (nodes.headD last) = some other)
    (forward : ∀ place ∈ nodes, after.next place = memory.next place)
    (backward : ∀ place ∈ (nodes ++ [last]).tail, after.prev place = memory.prev place) :
    Path after other nodes last := by
  cases nodes with
  | nil => exact ⟨next, prev⟩
  | cons node nodes => exact ⟨⟨next, prev⟩, path.2.congr forward backward⟩

theorem headD_mem (nodes : List Place) (last : Place) : nodes.headD last ∈ nodes ++ [last] := by
  cases nodes <;> simp

theorem ne_first (distinct : (nodes ++ [last]).Nodup) {place : Place}
    (member : place ∈ (nodes ++ [last]).tail) : place ≠ nodes.headD last := by
  cases nodes with
  | nil => simp at member
  | cons node nodes =>
      rintro rfl
      exact (List.nodup_cons.mp distinct).1 member

theorem Circle.targets (circle : Circle memory head nodes) : (nodes ++ [head]).Nodup :=
  (List.perm_append_singleton head nodes).nodup_iff.mpr circle.distinct

theorem Circle.mapped (circle : Circle memory head nodes) {place : Place}
    (member : place ∈ head :: nodes) : (memory place).isSome := by
  refine Memory.isSome_iff_next.mpr ?_
  rcases List.mem_cons.mp member with rfl | inside
  · exact ⟨_, circle.path.next_first⟩
  · obtain ⟨front, back, rfl⟩ := List.append_of_mem inside
    exact ⟨_, (path_append.mp circle.path).2.next_first⟩

theorem Circle.linked (circle : Circle memory head (node :: nodes)) :
    node ≠ head ∧ memory.next node = some (nodes.headD head) := by
  refine ⟨?_, circle.path.2.next_first⟩
  rintro rfl
  exact absurd circle.distinct (by simp)

/-- What goes on elsewhere leaves a list as it is. -/
theorem Circle.elsewhere (circle : Circle memory head nodes) {places : List Place}
    (confined : Confined memory after places) (apart : ∀ place ∈ head :: nodes, place ∉ places) :
    Circle after head nodes :=
  circle.congr fun place member => confined.others place (apart place member)

end Paths

/-! ### The operations -/

section Operations

variable [DecidableEq Place]

def makeHead (place : Place) (memory : Memory Place) : Option (Memory Place) := do
  let half ← memory.setNext place place
  half.setPrev place place

def insertBetween (new before behind : Place) (memory : Memory Place) : Option (Memory Place) := do
  let first ← memory.setPrev behind new
  let second ← first.setNext new behind
  let third ← second.setPrev new before
  third.setNext before new

def insertFirst (new head : Place) (memory : Memory Place) : Option (Memory Place) := do
  let behind ← memory.next head
  insertBetween new head behind memory

def remove (poisonNext poisonPrev entry : Place) (memory : Memory Place) :
    Option (Memory Place) := do
  let before ← memory.prev entry
  let behind ← memory.next entry
  let first ← memory.setPrev behind before
  let second ← first.setNext before behind
  let third ← second.setNext entry poisonNext
  third.setPrev entry poisonPrev

def isAlone (head : Place) (memory : Memory Place) : Option Bool :=
  (memory.next head).map fun behind => decide (behind = head)

variable {memory : Memory Place} {head new entry : Place} {nodes front back : List Place}

theorem makeHead_spec (found : (memory head).isSome) :
    ∃ after, makeHead head memory = some after ∧ Circle after head [] ∧
      Confined memory after [head] := by
  obtain ⟨half, first, one⟩ := memory.setNext_spec found head
  obtain ⟨after, second, two⟩ := half.setPrev_spec ((one.confined.mapped head).trans found) head
  refine ⟨after, by simp [makeHead, first, second], ⟨by simp, ?_, ?_⟩,
    one.confined.trans two.confined⟩
  · rw [two.next, one.next, Function.update_self]
  · rw [two.prev, Function.update_self]

theorem insertBetween_spec {before behind : Place} (mapped : (memory new).isSome)
    (ahead : (memory before).isSome) (after : (memory behind).isSome) :
    ∃ after, insertBetween new before behind memory = some after ∧
      after.next = Function.update (Function.update memory.next new (some behind)) before (some new) ∧
      after.prev = Function.update (Function.update memory.prev behind (some new)) new (some before) ∧
      Confined memory after [new, before, behind] := by
  obtain ⟨first, wrote, one⟩ := memory.setPrev_spec after new
  have upTo : Confined memory first [new, before, behind] := one.confined.mono (by simp)
  obtain ⟨second, wroteSecond, two⟩ := first.setNext_spec ((upTo.mapped new).trans mapped) behind
  replace upTo := upTo.trans (two.confined.mono (by simp))
  obtain ⟨third, wroteThird, three⟩ := second.setPrev_spec ((upTo.mapped new).trans mapped) before
  replace upTo := upTo.trans (three.confined.mono (by simp))
  obtain ⟨final, wroteFinal, four⟩ := third.setNext_spec ((upTo.mapped before).trans ahead) new
  replace upTo := upTo.trans (four.confined.mono (by simp))
  refine ⟨final, by simp [insertBetween, wrote, wroteSecond, wroteThird, wroteFinal], ?_, ?_, upTo⟩
  · rw [four.next, three.next, two.next, one.next]
  · rw [four.prev, three.prev, two.prev, one.prev]

theorem Circle.insertFirst (circle : Circle memory head nodes) (mapped : (memory new).isSome)
    (fresh : new ∉ head :: nodes) :
    ∃ after, insertFirst new head memory = some after ∧ Circle after head (new :: nodes) ∧
      Confined memory after (new :: head :: nodes) := by
  have behind := circle.path.next_first
  obtain ⟨notHead, notNode⟩ := not_or.mp (mt List.mem_cons.mpr fresh)
  obtain ⟨headOnce, distinct⟩ := List.nodup_cons.mp circle.distinct
  have among : nodes.headD head ∈ head :: nodes := by
    cases nodes <;> simp
  have notBehind : new ≠ nodes.headD head := fun same => fresh (same ▸ among)
  obtain ⟨after, inserted, next, prev, confined⟩ := insertBetween_spec mapped
    (circle.mapped (List.mem_cons_self ..)) (circle.mapped among)
  refine ⟨after, ?_, ⟨?_, ⟨?_, ?_⟩, ?_⟩, confined.mono ?_⟩
  · rw [CircularList.insertFirst, behind, Option.bind_eq_bind, Option.bind_some, inserted]
  · exact List.nodup_cons.mpr
      ⟨by simp [Ne.symm notHead, headOnce], List.nodup_cons.mpr ⟨notNode, distinct⟩⟩
  · rw [next, Function.update_self]
  · rw [prev, Function.update_self]
  · refine circle.path.restart ?_ ?_ (fun place member => ?_) fun place member => ?_
    · rw [next, Function.update_of_ne notHead, Function.update_self]
    · rw [prev, Function.update_of_ne (Ne.symm notBehind), Function.update_self]
    · rw [next, Function.update_of_ne (ne_of_mem_of_not_mem member headOnce),
        Function.update_of_ne (ne_of_mem_of_not_mem member notNode)]
    · have later : place ∈ nodes ++ [head] := List.mem_of_mem_tail member
      have notFirst := ne_first circle.targets member
      rw [prev, Function.update_of_ne ?_, Function.update_of_ne notFirst]
      rintro rfl
      simp [notHead, notNode] at later
  · simp only [List.cons_subset, List.mem_cons, true_or, or_true, List.nil_subset, and_true,
      true_and]
    exact .inr (List.mem_cons.mp among)

theorem remove_spec {before behind : Place} (prior : memory.prev entry = some before)
    (later : memory.next entry = some behind) (ahead : (memory before).isSome)
    (after : (memory behind).isSome) (poisonNext poisonPrev : Place) :
    ∃ after, remove poisonNext poisonPrev entry memory = some after ∧
      after.next = Function.update (Function.update memory.next before (some behind)) entry
        (some poisonNext) ∧
      after.prev = Function.update (Function.update memory.prev behind (some before)) entry
        (some poisonPrev) ∧
      Confined memory after [entry, before, behind] := by
  have mapped : (memory entry).isSome := Memory.isSome_iff_next.mpr ⟨behind, later⟩
  obtain ⟨first, wrote, one⟩ := memory.setPrev_spec after before
  have upTo : Confined memory first [entry, before, behind] := one.confined.mono (by simp)
  obtain ⟨second, wroteSecond, two⟩ := first.setNext_spec ((upTo.mapped before).trans ahead) behind
  replace upTo := upTo.trans (two.confined.mono (by simp))
  obtain ⟨third, wroteThird, three⟩ :=
    second.setNext_spec ((upTo.mapped entry).trans mapped) poisonNext
  replace upTo := upTo.trans (three.confined.mono (by simp))
  obtain ⟨final, wroteFinal, four⟩ :=
    third.setPrev_spec ((upTo.mapped entry).trans mapped) poisonPrev
  replace upTo := upTo.trans (four.confined.mono (by simp))
  refine ⟨final, by simp [remove, prior, later, wrote, wroteSecond, wroteThird, wroteFinal],
    ?_, ?_, upTo⟩
  · rw [four.next, three.next, two.next, one.next]
  · rw [four.prev, three.prev, two.prev, one.prev]

theorem Circle.remove_alone (circle : Circle memory head []) (poisonNext poisonPrev : Place) :
    ∃ after, remove poisonNext poisonPrev head memory = some after ∧
      Confined memory after [head] := by
  have mapped := circle.mapped (List.mem_cons_self ..)
  obtain ⟨after, removed, -, -, confined⟩ := remove_spec circle.path.2 circle.path.1 mapped mapped
    poisonNext poisonPrev
  exact ⟨after, removed, confined.mono (by simp)⟩

theorem Path.bypass {first last : Place} {after : Memory Place} {poisonNext poisonPrev : Place}
    (path : Path memory entry back last) (sources : (first :: entry :: back).Nodup)
    (targets : (entry :: back ++ [last]).Nodup)
    (next : after.next = Function.update
      (Function.update memory.next first (some (back.headD last))) entry (some poisonNext))
    (prev : after.prev = Function.update
      (Function.update memory.prev (back.headD last) (some first)) entry (some poisonPrev)) :
    Path after first back last := by
  obtain ⟨firstOnce, entryOnce, -⟩ := List.nodup_cons.mp sources |>.imp_right List.nodup_cons.mp
  obtain ⟨notEntry, notFirst⟩ := not_or.mp (mt List.mem_cons.mpr firstOnce)
  obtain ⟨entryApart, distinct⟩ := List.nodup_cons.mp targets
  refine path.restart ?_ ?_ (fun place member => ?_) fun place member => ?_
  · rw [next, Function.update_of_ne notEntry, Function.update_self]
  · rw [prev, Function.update_of_ne (ne_of_mem_of_not_mem (headD_mem back last) entryApart),
      Function.update_self]
  · rw [next, Function.update_of_ne (ne_of_mem_of_not_mem member entryOnce),
      Function.update_of_ne (ne_of_mem_of_not_mem member notFirst)]
  · have later := List.mem_of_mem_tail member
    rw [prev, Function.update_of_ne (ne_of_mem_of_not_mem later entryApart),
      Function.update_of_ne (ne_first distinct member)]

theorem Circle.remove (circle : Circle memory head (front ++ entry :: back))
    (poisonNext poisonPrev : Place) :
    ∃ after, remove poisonNext poisonPrev entry memory = some after ∧
      Circle after head (front ++ back) ∧
      Confined memory after (head :: (front ++ entry :: back)) := by
  obtain ⟨toEntry, fromEntry⟩ := path_append.mp circle.path
  have beforeAmong : front.getLastD head ∈ head :: (front ++ entry :: back) := by
    rcases List.eq_nil_or_concat front with rfl | ⟨earlier, before, rfl⟩ <;> simp
  have behindAmong : back.headD head ∈ head :: (front ++ entry :: back) := by
    cases back <;> simp
  obtain ⟨after, removed, next, prev, confined⟩ := remove_spec toEntry.prev_last fromEntry.next_first
    (circle.mapped beforeAmong) (circle.mapped behindAmong) poisonNext poisonPrev
  refine ⟨after, removed, ⟨?_, ?_⟩, confined.mono ?_⟩
  · refine circle.distinct.sublist (List.Sublist.cons_cons head ?_)
    exact (List.Sublist.refl front).append (List.sublist_cons_self entry back)
  · have sources := circle.distinct
    have targets := circle.targets
    rcases List.eq_nil_or_concat front with rfl | ⟨earlier, before, rfl⟩
    · exact fromEntry.bypass sources targets next prev
    · rw [List.concat_eq_append] at *
      simp only [List.append_assoc, List.singleton_append] at *
      rw [List.getLastD_concat] at next prev
      have toBefore := (path_append.mp toEntry).1
      have sourcesEnd := (List.nodup_append.mp (List.nodup_cons.mp sources).2).2.1
      have targetsEnd := (List.nodup_append.mp targets).2.1
      refine path_append.mpr ⟨toBefore.congr (fun place member => ?_) fun place member => ?_,
        fromEntry.bypass sourcesEnd (List.nodup_cons.mp targetsEnd).2 next prev⟩
      · rw [← List.cons_append] at sources
        have apart := (List.nodup_append.mp sources).2.2 place member
        rw [next, Function.update_of_ne (apart entry (by simp)),
          Function.update_of_ne (apart before (by simp))]
      · rw [List.cons_append, List.append_cons earlier before] at targets
        have apart := (List.nodup_append.mp targets).2.2 place member
        rw [prev, Function.update_of_ne (apart entry (by simp)), Function.update_of_ne]
        exact apart _ (List.mem_cons_of_mem _ (headD_mem back head))
  · exact List.cons_subset.mpr ⟨by simp, List.cons_subset.mpr
      ⟨beforeAmong, List.cons_subset.mpr ⟨behindAmong, List.nil_subset _⟩⟩⟩

theorem Circle.isAlone (circle : Circle memory head nodes) :
    isAlone head memory = some nodes.isEmpty := by
  rw [CircularList.isAlone, circle.path.next_first, Option.map_some]
  cases nodes with
  | nil => simp
  | cons node nodes =>
      simp [circle.linked.1]

/-! ### Loops over a list -/

/-- The nodes that a loop comes by, if it gets around within the number of steps. -/
def visitsFrom (head : Place) : Nat → Place → Memory Place → Option (List Place)
  | 0, _, _ => none
  | fuel + 1, pos, memory =>
      if pos = head then some []
      else do
        let following ← memory.next pos
        let later ← visitsFrom head fuel following memory
        return pos :: later

def visits (fuel : Nat) (head : Place) (memory : Memory Place) : Option (List Place) := do
  let first ← memory.next head
  visitsFrom head fuel first memory

/-- The loop whose body may take the node out that it is at: the next one is read before.  The body
may also end the loop. -/
def eachFrom (body : Place → Memory Place → Option (Bool × Memory Place)) (head : Place) :
    Nat → Place → Place → Memory Place → Option (Bool × Memory Place)
  | 0, _, _, _ => none
  | fuel + 1, pos, tmp, memory =>
      if pos = head then some (false, memory)
      else do
        let (ended, after) ← body pos memory
        if ended then return (true, after)
        let following ← after.next tmp
        eachFrom body head fuel tmp following after

def each (body : Place → Memory Place → Option (Bool × Memory Place)) (fuel : Nat) (head : Place)
    (memory : Memory Place) : Option (Bool × Memory Place) := do
  let first ← memory.next head
  let tmp ← memory.next first
  eachFrom body head fuel first tmp memory

theorem Path.visitsFrom {first : Place} (path : Path memory first nodes head)
    (away : head ∉ nodes) {fuel : Nat} (enough : nodes.length < fuel) :
    visitsFrom head fuel (nodes.headD head) memory = some nodes := by
  induction nodes generalizing first fuel with
  | nil =>
      obtain ⟨fuel, rfl⟩ : ∃ less, fuel = less + 1 := ⟨fuel - 1, by simp at enough; omega⟩
      simp [CircularList.visitsFrom]
  | cons node nodes ih =>
      obtain ⟨fuel, rfl⟩ : ∃ less, fuel = less + 1 := ⟨fuel - 1, by simp at enough; omega⟩
      obtain ⟨apart, farther⟩ := not_or.mp (mt List.mem_cons.mpr away)
      have rest := ih path.2 farther (by simpa using enough)
      rw [List.headD_cons, CircularList.visitsFrom, if_neg (Ne.symm apart), path.2.next_first]
      simp only [Option.bind_eq_bind, Option.bind_some, rest]
      rfl

/-- A loop around a circle comes by each node once, in order. -/
theorem Circle.visits (circle : Circle memory head nodes) {fuel : Nat}
    (enough : nodes.length < fuel) : visits fuel head memory = some nodes := by
  rw [CircularList.visits, circle.path.next_first, Option.bind_eq_bind, Option.bind_some]
  exact circle.path.visitsFrom (List.nodup_cons.mp circle.distinct).1 enough

section Rule

variable {body : Place → Memory Place → Option (Bool × Memory Place)}
  (Holds : List Place → Memory Place → Prop) (Ended : Memory Place → Prop)

/-- What a loop comes to whose body passes on what holds of the nodes ahead: the link from the node
it is at leads to them, and at their end the head is still there. -/
theorem each_rule
    (linked : ∀ node rest memory, Holds (node :: rest) memory →
      node ≠ head ∧ memory.next node = some (rest.headD head))
    (headed : ∀ memory, Holds [] memory → (memory head).isSome)
    (step : ∀ node rest memory, Holds (node :: rest) memory →
      ∃ ended after, body node memory = some (ended, after) ∧
        if ended then Ended after else Holds rest after)
    (holds : Holds nodes memory) (first : memory.next head = some (nodes.headD head)) {fuel : Nat}
    (enough : nodes.length < fuel) :
    ∃ ended after, each body fuel head memory = some (ended, after) ∧
      if ended then Ended after else Holds [] after := by
  have linkOf : ∀ rest memory, Holds rest memory →
      ∃ target, memory.next (rest.headD head) = some target := by
    intro rest memory holds
    cases rest with
    | nil => exact Memory.isSome_iff_next.mp (headed memory holds)
    | cons node rest => exact ⟨_, (linked node rest memory holds).2⟩
  obtain ⟨tmp, second⟩ := linkOf nodes memory holds
  rw [each, first, Option.bind_eq_bind, Option.bind_some, second, Option.bind_some]
  clear first
  induction nodes generalizing memory fuel tmp with
  | nil =>
      obtain ⟨fuel, rfl⟩ : ∃ less, fuel = less + 1 := ⟨fuel - 1, by simp at enough; omega⟩
      exact ⟨false, memory, by simp [eachFrom], by simpa using holds⟩
  | cons node rest ih =>
      obtain ⟨fuel, rfl⟩ : ∃ less, fuel = less + 1 := ⟨fuel - 1, by simp at enough; omega⟩
      obtain ⟨apart, link⟩ := linked node rest memory holds
      obtain ⟨ended, after, ran, met⟩ := step node rest memory holds
      rw [List.headD_cons] at second ⊢
      obtain rfl := Option.some.inj (link.symm.trans second)
      rw [eachFrom, if_neg apart, ran]
      cases ended with
      | true => exact ⟨true, after, by simp, met⟩
      | false =>
          obtain ⟨following, third⟩ := linkOf rest after met
          simp only [Option.bind_eq_bind, Option.bind_some, Bool.false_eq_true, if_false, third]
          exact ih met (by simpa using enough) following third

end Rule

end Operations

end CircularList
