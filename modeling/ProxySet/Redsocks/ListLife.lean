import ProxySet.Lib.StepRun
import ProxySet.Redsocks.ListCore

/-!
What the lists of `redsocks.c` stand for over a run of the program: the instances that are in use,
and the clients of each, the newest first.
-/

namespace ProxySet.Blocks

open CircularList

structure Entry where
  block : Nat
  clients : List Nat
deriving DecidableEq, Repr

def Entry.blocks (entry : Entry) : List Nat := entry.block :: entry.clients

def blocks (live : List Entry) : List Nat := live.flatMap Entry.blocks

/-- The list heads in the blocks that are in use, and the static one. -/
def Owned (live : List Entry) : Place → Prop
  | .instances => True
  | .list block => block ∈ blocks live
  | .clients block => ∃ entry ∈ live, entry.block = block
  | _ => False

/-- The heap has the lists, and nothing but them. -/
structure Keeps (heap : Heap) (live : List Entry) : Prop where
  distinct : (blocks live).Nodup
  instances : Circle heap .instances (live.map fun entry => .list entry.block)
  clients : ∀ entry ∈ live, Circle heap (.clients entry.block) (entry.clients.map .list)
  owned : ∀ place, (heap place).isSome → Owned live place

section Apart

variable {live front back : List Entry} {entry other : Entry}

theorem mem_blocks {block : Nat} : block ∈ blocks live ↔ ∃ entry ∈ live, block ∈ entry.blocks :=
  List.mem_flatMap

theorem mem_middle : other ∈ front ++ entry :: back ↔ other = entry ∨ other ∈ front ++ back := by
  rw [List.perm_middle.mem_iff, List.mem_cons]

theorem blocks_perm (front : List Entry) (entry : Entry) (back : List Entry) :
    (blocks (front ++ entry :: back)).Perm (entry.blocks ++ blocks (front ++ back)) := by
  have moved : (blocks (front ++ entry :: back)).Perm (blocks (entry :: (front ++ back))) :=
    List.perm_middle.flatMap_right Entry.blocks
  simpa [blocks] using moved

theorem apart_of_distinct (distinct : (blocks (front ++ entry :: back)).Nodup)
    (member : other ∈ front ++ back) {block : Nat} (inside : block ∈ entry.blocks) :
    block ∉ other.blocks := by
  have split := (blocks_perm front entry back).nodup_iff.mp distinct
  intro outside
  exact (List.nodup_append.mp split).2.2 block inside block
    (mem_blocks.mpr ⟨other, member, outside⟩) rfl

theorem block_not_client (distinct : (blocks live).Nodup) (member : entry ∈ live)
    (otherMember : other ∈ live) : entry.block ∉ other.clients := by
  obtain ⟨front, back, rfl⟩ := List.append_of_mem otherMember
  have split := (blocks_perm front other back).nodup_iff.mp distinct
  rcases mem_middle.mp member with rfl | elsewhere
  · exact (List.nodup_cons.mp (List.nodup_append.mp split).1).1
  · intro outside
    exact apart_of_distinct distinct elsewhere (List.mem_cons_of_mem _ outside)
      (List.mem_cons_self ..)

theorem client_not_block (distinct : (blocks live).Nodup) (member : entry ∈ live) {client : Nat}
    (among : client ∈ entry.clients) : ∀ other ∈ live, other.block ≠ client := by
  rintro other present rfl
  exact block_not_client distinct present member among

theorem Owned.mono {more : List Entry} {place : Place} (owned : Owned live place)
    (wider : ∀ entry ∈ live, entry ∈ more) : Owned more place := by
  cases place with
  | list block =>
      obtain ⟨entry, member, belongs⟩ := mem_blocks.mp owned
      exact mem_blocks.mpr ⟨entry, wider entry member, belongs⟩
  | clients block =>
      obtain ⟨entry, member, here⟩ := owned
      exact ⟨entry, wider entry member, here⟩
  | _ => exact owned

theorem Owned.split {place : Place} (owned : Owned (front ++ entry :: back) place) :
    place = .clients entry.block ∨ (∃ block ∈ entry.blocks, place = .list block) ∨
      Owned (front ++ back) place := by
  cases place with
  | list block =>
      obtain ⟨other, member, belongs⟩ := mem_blocks.mp owned
      rcases mem_middle.mp member with rfl | elsewhere
      · exact .inr (.inl ⟨block, belongs, rfl⟩)
      · exact .inr (.inr (mem_blocks.mpr ⟨other, elsewhere, belongs⟩))
  | clients block =>
      obtain ⟨other, member, rfl⟩ := owned
      rcases mem_middle.mp member with rfl | elsewhere
      · exact .inl rfl
      · exact .inr (.inr ⟨other, elsewhere, rfl⟩)
  | _ => exact .inr (.inr owned)

end Apart

section Changes

variable {heap after : Heap} {front back : List Entry} {entry : Entry} {block : Nat}

/-- An instance gets other clients: only the list heads of its old and new clients change. -/
theorem Keeps.replace (keeps : Keeps heap (front ++ entry :: back)) {clients : List Nat}
    (distinct : (blocks (front ++ ⟨entry.block, clients⟩ :: back)).Nodup)
    (circle : Circle after (.clients entry.block) (clients.map .list))
    (elsewhere : ∀ place, place ≠ .clients entry.block → place ∉ entry.clients.map Place.list →
      place ∉ clients.map Place.list → after place = heap place)
    (gone : ∀ client ∈ entry.clients, client ∉ clients → after (.list client) = none) :
    Keeps after (front ++ ⟨entry.block, clients⟩ :: back) := by
  have inside : entry ∈ front ++ entry :: back := mem_middle.mpr (.inl rfl)
  have renewed : (⟨entry.block, clients⟩ : Entry) ∈ front ++ ⟨entry.block, clients⟩ :: back :=
    mem_middle.mpr (.inl rfl)
  refine ⟨distinct, ?_, ?_, ?_⟩
  · have same : (front ++ (⟨entry.block, clients⟩ : Entry) :: back).map
        (fun entry => Place.list entry.block) =
          (front ++ entry :: back).map fun entry => Place.list entry.block := by
      simp
    rw [same]
    refine keeps.instances.congr fun place member => ?_
    rcases List.mem_cons.mp member with rfl | listed
    · exact elsewhere _ (by simp) (by simp) (by simp)
    · obtain ⟨other, among, rfl⟩ := List.mem_map.mp listed
      have notOld := block_not_client keeps.distinct among inside
      have notNew : other.block ∉ clients := by
        rcases mem_middle.mp among with rfl | elsewhere
        · exact block_not_client distinct renewed renewed
        · exact block_not_client distinct (mem_middle.mpr (.inr elsewhere)) renewed
      exact elsewhere _ (by simp) (by simpa using notOld) (by simpa using notNew)
  · intro other member
    rcases mem_middle.mp member with rfl | among
    · exact circle
    · have old : ∀ block ∈ entry.blocks, block ∉ other.blocks :=
        fun _ => apart_of_distinct keeps.distinct among
      have new : ∀ block ∈ entry.block :: clients, block ∉ other.blocks :=
        fun _ => apart_of_distinct distinct among
      refine (keeps.clients other (mem_middle.mpr (.inr among))).congr fun place member => ?_
      rcases List.mem_cons.mp member with rfl | listed
      · refine elsewhere _ ?_ (by simp) (by simp)
        intro same
        exact old _ (List.mem_cons_self ..) (by simp [Entry.blocks, Place.clients.inj same])
      · obtain ⟨client, belongs, rfl⟩ := List.mem_map.mp listed
        have inOther : client ∈ other.blocks := List.mem_cons_of_mem _ belongs
        refine elsewhere _ (by simp) ?_ ?_
        · intro outside
          exact old client (List.mem_cons_of_mem _ (by simpa using outside)) inOther
        · intro outside
          exact new client (List.mem_cons_of_mem _ (by simpa using outside)) inOther
  · intro place found
    by_cases isHead : place = .clients entry.block
    · exact isHead ▸ ⟨_, renewed, rfl⟩
    · by_cases joined : place ∈ clients.map Place.list
      · obtain ⟨client, among, rfl⟩ := List.mem_map.mp joined
        exact mem_blocks.mpr ⟨_, renewed, List.mem_cons_of_mem _ among⟩
      · have stays : place ∉ entry.clients.map Place.list := by
          intro left
          obtain ⟨client, among, rfl⟩ := List.mem_map.mp left
          simp [gone client among (by simpa using joined)] at found
        rw [elsewhere place isHead stays joined] at found
        rcases (keeps.owned place found).split with rfl | ⟨block, belongs, rfl⟩ | owned
        · exact absurd rfl isHead
        · rcases List.mem_cons.mp belongs with rfl | client
          · exact mem_blocks.mpr ⟨_, renewed, List.mem_cons_self ..⟩
          · exact absurd (List.mem_map.mpr ⟨block, client, rfl⟩) stays
        · exact owned.mono fun other member => mem_middle.mpr (.inr member)

theorem redsocksClose_eq {env : Env} {nodes : List Place} (circle : Circle heap .instances nodes)
    (enough : nodes.length < env.fuel) : redsocksClose env heap = some heap := by
  rw [redsocksClose, circle.visits enough, Option.map_some]

theorem redsocksCloseIf_eq {env : Env} {nodes : List Place} (circle : Circle heap .instances nodes)
    (enough : nodes.length < env.fuel) (opened : Bool) :
    redsocksCloseIf env opened heap = some heap := by
  rw [redsocksCloseIf, redsocksClose_eq circle enough, ite_self]

theorem redsocksCloses_eq {env : Env} {nodes : List Place} (circle : Circle heap .instances nodes)
    (enough : nodes.length < env.fuel) (count : Nat) :
    redsocksCloses env count heap = some heap := by
  induction count with
  | zero => rfl
  | succ count ih => simp [redsocksCloses, redsocksClose_eq circle enough, ih]

theorem free_spec {block : Nat} (mapped : (heap (.list block)).isSome) :
    ∃ after, free block heap = some after ∧ after (.list block) = none ∧
      after (.clients block) = none ∧
      ∀ place, place ≠ .list block → place ≠ .clients block → after place = heap place := by
  obtain ⟨cell, found⟩ := Option.isSome_iff_exists.mp mapped
  refine ⟨_, by rw [free, found, Option.map_some], by simp, by simp, ?_⟩
  intro place notList notClients
  cases place with
  | list other => simpa using fun same => absurd (congrArg Place.list same) notList
  | clients other => simpa using fun same => absurd (congrArg Place.clients same) notClients
  | _ => rfl

theorem callocClient_spec (heap : Heap) (client : Nat) :
    ∃ made, initListHead (.list client) (callocClient client heap) = some made ∧
      Circle made (.list client) [] ∧ ∀ place, place ≠ .list client → made place = heap place := by
  have mapped : (callocClient client heap (.list client)).isSome := by simp [callocClient]
  obtain ⟨made, initialized, circle, confined⟩ := makeHead_spec mapped
  refine ⟨made, initialized, circle, fun place other => ?_⟩
  rw [confined.others place (by simpa using other)]
  cases place with
  | list block => simpa [callocClient] using fun same => absurd (congrArg Place.list same) other
  | _ => rfl

theorem Keeps.join (keeps : Keeps heap (front ++ entry :: back)) (env : Env) {client : Nat}
    (fresh : client ∉ blocks (front ++ entry :: back)) :
    ∃ after, redsocksAcceptClient env entry.block client true heap = some after ∧
      Keeps after (front ++ ⟨entry.block, client :: entry.clients⟩ :: back) := by
  obtain ⟨made, initialized, alone, same⟩ := callocClient_spec heap client
  have inside : entry ∈ front ++ entry :: back := mem_middle.mpr (.inl rfl)
  have new : client ∉ entry.blocks := fun member => fresh (mem_blocks.mpr ⟨entry, inside, member⟩)
  obtain ⟨notBlock, notClient⟩ := not_or.mp (mt List.mem_cons.mpr new)
  have circle : Circle made (.clients entry.block) (entry.clients.map .list) := by
    refine (keeps.clients entry inside).congr fun place member => same place ?_
    rintro rfl
    simp [notClient] at member
  obtain ⟨after, added, joined, confined⟩ := circle.insertFirst
    (alone.mapped (List.mem_cons_self ..)) (by simpa using notClient)
  refine ⟨after, by simp [redsocksAcceptClient, initialized, listAdd, added], ?_⟩
  refine keeps.replace ?_ joined (fun place notHead notOld notNew => ?_) fun other old notNew => ?_
  · have split := (blocks_perm front entry back).nodup_iff.mp keeps.distinct
    have unused := mt (blocks_perm front entry back).mem_iff.mpr fresh
    refine (blocks_perm front _ back).nodup_iff.mpr ?_
    have swap : ((⟨entry.block, client :: entry.clients⟩ : Entry).blocks ++
        blocks (front ++ back)).Perm (client :: (entry.blocks ++ blocks (front ++ back))) :=
      List.Perm.swap client entry.block _
    exact swap.nodup_iff.mpr (List.nodup_cons.mpr ⟨unused, split⟩)
  · have notListed : place ≠ .list client := by
      rintro rfl
      simp at notNew
    rw [confined.others place (by
      simp only [List.mem_cons, not_or]
      exact ⟨notListed, notHead, notOld⟩), same place notListed]
  · exact absurd (List.mem_cons_of_mem _ old) notNew

theorem Keeps.refuse {env : Env} {live : List Entry} (keeps : Keeps heap live)
    (enough : live.length < env.fuel) {client : Nat} (fresh : client ∉ blocks live) (self : Nat) :
    ∃ after, redsocksAcceptClient env self client false heap = some after ∧ Keeps after live := by
  obtain ⟨made, initialized, alone, same⟩ := callocClient_spec heap client
  have circle : Circle made .instances (live.map fun entry => .list entry.block) := by
    refine keeps.instances.congr fun place member => same place ?_
    rintro rfl
    obtain ⟨entry, among, here⟩ := List.mem_map.mp (by simpa using member)
    exact fresh (mem_blocks.mpr ⟨entry, among, by simp [Entry.blocks, here]⟩)
  have closed := redsocksCloses_eq circle (by simpa using enough) (env.buffers client)
  obtain ⟨left, removed, confined⟩ := alone.remove_alone .poison1 .poison2
  obtain ⟨after, freed, noList, noClients, others⟩ := free_spec
    ((confined.mapped (.list client)).trans (alone.mapped (List.mem_cons_self ..)))
  have unowned : ∀ place, ¬Owned live place → heap place = none := fun place not =>
    Option.not_isSome_iff_eq_none.mp (mt (keeps.owned place) not)
  have untouched : after = heap := by
    funext place
    by_cases isList : place = .list client
    · rw [isList, noList, unowned (.list client) fresh]
    · by_cases isClients : place = .clients client
      · rw [isClients, noClients, unowned]
        rintro ⟨entry, among, rfl⟩
        exact fresh (mem_blocks.mpr ⟨entry, among, List.mem_cons_self ..⟩)
      · rw [others place isList isClients, confined.others place (by simpa using isList),
          same place isList]
  have closing : redsocksClose env heap = some heap :=
    redsocksClose_eq keeps.instances (by simpa using enough)
  rw [untouched] at freed
  refine ⟨heap, ?_, keeps⟩
  simp [redsocksAcceptClient, initialized, redsocksDropClient, closed, listDel, removed, freed,
    closing]

theorem Keeps.drop {env : Env} {block client : Nat} {ahead behind : List Nat}
    (keeps : Keeps heap (front ++ ⟨block, ahead ++ client :: behind⟩ :: back))
    (enough : front.length + back.length + 1 < env.fuel) :
    ∃ after, redsocksDropClient env client heap = some after ∧
      Keeps after (front ++ ⟨block, ahead ++ behind⟩ :: back) := by
  have inside : (⟨block, ahead ++ client :: behind⟩ : Entry) ∈
      front ++ ⟨block, ahead ++ client :: behind⟩ :: back := mem_middle.mpr (.inl rfl)
  have closed := redsocksCloses_eq keeps.instances (by simp; omega) (env.buffers client)
  have circle := keeps.clients _ inside
  rw [List.map_append, List.map_cons] at circle
  have mapped : (heap (.list client)).isSome := circle.mapped (by simp)
  obtain ⟨left, removed, without, confined⟩ := circle.remove .poison1 .poison2
  obtain ⟨after, freed, noList, noClients, others⟩ :=
    free_spec ((confined.mapped (.list client)).trans mapped)
  have split := (blocks_perm front _ back).nodup_iff.mp keeps.distinct
  obtain ⟨blockOnce, distinct⟩ := List.nodup_cons.mp (List.nodup_append.mp split).1
  have once : client ∉ ahead ++ behind :=
    (List.nodup_cons.mp (List.perm_middle.nodup_iff.mp distinct)).1
  have notBlock : block ≠ client := by
    rintro rfl
    simp at blockOnce
  have shorter : (ahead ++ behind).Sublist (ahead ++ client :: behind) :=
    (List.Sublist.refl ahead).append (List.sublist_cons_self client behind)
  refine ⟨after, by simp [redsocksDropClient, closed, listDel, removed, freed], ?_⟩
  refine keeps.replace ?_ ?_ (fun place notHead notOld _ => ?_) fun other old notNew => ?_
  · refine (blocks_perm front _ back).nodup_iff.mpr (split.sublist ?_)
    exact (shorter.cons_cons block).append (List.Sublist.refl _)
  · rw [List.map_append]
    refine without.congr fun place member => others place ?_ ?_
    · rintro rfl
      exact once (by simpa using member)
    · rintro rfl
      exact notBlock (by simpa using member : client = block).symm
  · have notList : place ≠ .list client := by
      rintro rfl
      simp at notOld
    have kept : left place = heap place := confined.others place (by
      simpa [List.mem_cons, notHead] using notOld)
    by_cases isClients : place = .clients client
    · rw [isClients, noClients]
      refine (Option.not_isSome_iff_eq_none.mp fun found => ?_).symm
      obtain ⟨other, member, rfl⟩ := keeps.owned _ found
      exact block_not_client keeps.distinct member inside (by simp)
    · rw [others place notList isClients, kept]
  · have isClient : other = client := by
      simp only [List.mem_append, List.mem_cons] at old notNew
      tauto
    rw [isClient, noList]

theorem Keeps.release (keeps : Keeps heap (front ++ ⟨block, []⟩ :: back)) :
    ∃ left after, listDel (.list block) heap = some left ∧ free block left = some after ∧
      Keeps after (front ++ back) := by
  have inside : (⟨block, []⟩ : Entry) ∈ front ++ ⟨block, []⟩ :: back := mem_middle.mpr (.inl rfl)
  have circle := keeps.instances
  rw [List.map_append, List.map_cons] at circle
  have mapped : (heap (.list block)).isSome := circle.mapped (by simp)
  obtain ⟨left, removed, without, confined⟩ := circle.remove .poison1 .poison2
  obtain ⟨after, freed, noList, noClients, others⟩ :=
    free_spec ((confined.mapped (.list block)).trans mapped)
  have split := (blocks_perm front _ back).nodup_iff.mp keeps.distinct
  obtain ⟨once, distinct⟩ := List.nodup_cons.mp split
  have apart : ∀ other ∈ front ++ back, block ∉ other.blocks := fun other member belongs =>
    once (mem_blocks.mpr ⟨other, member, belongs⟩)
  refine ⟨left, after, removed, freed, distinct, ?_, fun other member => ?_, fun place found => ?_⟩
  · rw [List.map_append]
    refine without.congr fun place member => others place ?_ ?_
    · rintro rfl
      rw [← List.map_append] at member
      obtain ⟨other, among, here⟩ :=
        List.mem_map.mp ((List.mem_cons.mp member).resolve_left (by simp))
      exact apart other among (by simp [Entry.blocks, Place.list.inj here])
    · rintro rfl
      simp at member
  · have before := keeps.clients other (mem_middle.mpr (.inr member))
    have known : other ∈ front ++ ⟨block, []⟩ :: back := mem_middle.mpr (.inr member)
    refine before.congr fun place belongs => ?_
    rcases List.mem_cons.mp belongs with rfl | listed
    · have notBlock : other.block ≠ block := by
        rintro rfl
        exact apart other member (List.mem_cons_self ..)
      rw [others _ (by simp) (by simpa using notBlock), confined.others _ (by simp)]
    · obtain ⟨client, among, rfl⟩ := List.mem_map.mp listed
      have notBlock : client ≠ block := by
        rintro rfl
        exact apart other member (List.mem_cons_of_mem _ among)
      rw [others _ (by simpa using notBlock) (by simp), confined.others]
      have notListed := client_not_block keeps.distinct known among
      simpa [or_imp, forall_and, notBlock, Ne.symm notBlock] using notListed
  · have notList : place ≠ .list block := by
      rintro rfl
      simp [noList] at found
    have notClients : place ≠ .clients block := by
      rintro rfl
      simp [noClients] at found
    rw [others place notList notClients, confined.mapped] at found
    rcases (keeps.owned place found).split with isHead | ⟨other, belongs, isList⟩ | owned
    · exact absurd isHead notClients
    · rw [isList] at notList
      exact absurd (by simpa [Entry.blocks] using belongs) notList
    · exact owned

theorem Keeps.dropAll {env : Env} {clients : List Nat}
    (keeps : Keeps heap (front ++ ⟨block, clients⟩ :: back))
    (enough : front.length + back.length + 1 < env.fuel) (room : clients.length < env.fuel) :
    ∃ after, each (dropEach env) env.fuel (.clients block) heap = some (false, after) ∧
      Keeps after (front ++ ⟨block, []⟩ :: back) := by
  have circleOf : ∀ heap rest, Keeps heap (front ++ ⟨block, rest⟩ :: back) →
      Circle heap (.clients block) (rest.map .list) := fun heap rest keeps =>
    keeps.clients _ (mem_middle.mpr (.inl rfl))
  have looped : ∃ ended after, each (dropEach env) env.fuel (.clients block) heap =
      some (ended, after) ∧ if ended then False else ∃ rest, [] = rest.map Place.list ∧
        Keeps after (front ++ ⟨block, rest⟩ :: back) := by
    refine each_rule (fun nodes heap => ∃ rest, nodes = rest.map Place.list ∧
      Keeps heap (front ++ ⟨block, rest⟩ :: back)) (fun _ => False) ?_ ?_ ?_ ⟨clients, rfl, keeps⟩
      (circleOf _ _ keeps).path.next_first (by simpa using room)
    · rintro node nodes heap ⟨rest, same, keeps⟩
      have circle := circleOf _ _ keeps
      rw [← same] at circle
      exact circle.linked
    · rintro heap ⟨rest, -, keeps⟩
      exact (circleOf _ _ keeps).mapped (List.mem_cons_self ..)
    · rintro node nodes heap ⟨rest, same, keeps⟩
      obtain ⟨client, rest, rfl, rfl, rfl⟩ := List.map_eq_cons_iff.mp same.symm
      have listed : Keeps heap (front ++ ⟨block, [] ++ client :: rest⟩ :: back) := keeps
      obtain ⟨after, dropped, kept⟩ := listed.drop enough
      exact ⟨false, after, by simp [dropEach, Place.block, dropped], rest, rfl, kept⟩
  obtain ⟨ended, after, ran, met⟩ := looped
  cases ended with
  | true => exact absurd met (by simp)
  | false =>
      obtain ⟨rest, same, kept⟩ := met
      obtain rfl := List.map_eq_nil_iff.mp same.symm
      exact ⟨after, ran, kept⟩

theorem Keeps.dropClients {env : Env} {clients : List Nat}
    (keeps : Keeps heap (front ++ ⟨block, clients⟩ :: back))
    (enough : front.length + back.length + 1 < env.fuel) (room : clients.length < env.fuel) :
    ∃ after, dropClients env block heap = some after ∧
      Keeps after (front ++ ⟨block, []⟩ :: back) := by
  have circle := keeps.clients ⟨block, clients⟩ (mem_middle.mpr (.inl rfl))
  have empty : listEmpty (.clients block) heap = some clients.isEmpty := by
    rw [listEmpty, circle.isAlone, List.isEmpty_map]
  rw [Blocks.dropClients, empty, Option.bind_eq_bind, Option.bind_some]
  cases clients with
  | nil => exact ⟨heap, rfl, keeps⟩
  | cons client rest =>
      obtain ⟨after, ran, kept⟩ := keeps.dropAll enough room
      exact ⟨after, by simp [ran], kept⟩

theorem Keeps.finiInstance {env : Env} {clients : List Nat}
    (keeps : Keeps heap (front ++ ⟨block, clients⟩ :: back))
    (enough : front.length + back.length + 1 < env.fuel) (room : clients.length < env.fuel) :
    ∃ after, redsocksFiniInstance env block heap = some after ∧ Keeps after (front ++ back) := by
  obtain ⟨alone, dropped, keptAlone⟩ := keeps.dropClients enough room
  have stopped : redsocksCloseIf env (env.listener block) alone = some alone :=
    redsocksCloseIf_eq keptAlone.instances (by simp; omega) _
  obtain ⟨left, after, removed, freed, kept⟩ := keptAlone.release
  exact ⟨after, by simp [redsocksFiniInstance, dropped, stopped, removed, freed], kept⟩

theorem length_blocks (front : List Entry) (entry : Entry) (back : List Entry) :
    (blocks (front ++ entry :: back)).length =
      entry.clients.length + 1 + (blocks (front ++ back)).length := by
  rw [(blocks_perm front entry back).length_eq, List.length_append, Entry.blocks, List.length_cons]

theorem length_le_blocks (live : List Entry) : live.length ≤ (blocks live).length := by
  induction live with
  | nil => simp
  | cons entry live ih =>
      have split := length_blocks [] entry live
      rw [List.nil_append, List.nil_append] at split
      rw [split, List.length_cons]
      omega

theorem Keeps.configure {live : List Entry} (keeps : Keeps heap live) (fresh : block ∉ blocks live) :
    ∃ after, redsocksSection block heap = some after ∧ Keeps after (⟨block, []⟩ :: live) := by
  have mapped : (callocInstance block heap (.list block)).isSome := by simp [callocInstance]
  have mappedClients : (callocInstance block heap (.clients block)).isSome := by
    simp [callocInstance]
  obtain ⟨listed, madeList, -, one⟩ := makeHead_spec mapped
  obtain ⟨entered, madeClients, alone, two⟩ :=
    makeHead_spec ((one.mapped (.clients block)).trans mappedClients)
  have same : ∀ place, place ≠ .list block → place ≠ .clients block →
      entered place = heap place := by
    intro place notList notClients
    rw [two.others place (by simpa using notClients), one.others place (by simpa using notList)]
    cases place with
    | list other =>
        simpa [callocInstance] using fun here => absurd (congrArg Place.list here) notList
    | clients other =>
        simpa [callocInstance] using fun here => absurd (congrArg Place.clients here) notClients
    | _ => rfl
  have apart : ∀ entry ∈ live, block ∉ entry.blocks := fun entry member belongs =>
    fresh (mem_blocks.mpr ⟨entry, member, belongs⟩)
  have unlisted : Place.list block ∉
      .instances :: live.map fun entry => Place.list entry.block := by
    intro member
    obtain ⟨entry, among, here⟩ :=
      List.mem_map.mp ((List.mem_cons.mp member).resolve_left (by simp))
    exact apart entry among (by simp [Entry.blocks, Place.list.inj here])
  have instances : Circle entered .instances (live.map fun entry => .list entry.block) := by
    refine keeps.instances.congr fun place member => same place ?_ ?_
    · exact ne_of_mem_of_not_mem member unlisted
    · rintro rfl
      simp at member
  have mappedList : (entered (.list block)).isSome :=
    (two.mapped (.list block)).trans ((one.mapped (.list block)).trans mapped)
  obtain ⟨after, added, joined, confined⟩ := instances.insertFirst mappedList unlisted
  refine ⟨after, by simp [redsocksSection, initListHead, madeList, madeClients, listAdd, added],
    List.nodup_cons.mpr ⟨fresh, keeps.distinct⟩, joined, ?_, fun place found => ?_⟩
  · refine List.forall_mem_cons.mpr ⟨alone.elsewhere confined ?_, fun entry member => ?_⟩
    · simp
    · have known := keeps.clients entry member
      refine known.congr fun place belongs => ?_
      rcases List.mem_cons.mp belongs with rfl | inside
      · have notBlock : entry.block ≠ block := by
          rintro rfl
          exact apart entry member (List.mem_cons_self ..)
        rw [confined.others _ (by simp), same _ (by simp) (by simpa using notBlock)]
      · obtain ⟨client, among, rfl⟩ := List.mem_map.mp inside
        have notBlock : client ≠ block := by
          rintro rfl
          exact apart entry member (List.mem_cons_of_mem _ among)
        have notListed := client_not_block keeps.distinct member among
        rw [confined.others _ (by simpa [notBlock] using notListed),
          same _ (by simpa using notBlock) (by simp)]
  · rw [confined.mapped] at found
    by_cases isList : place = .list block
    · exact isList ▸ mem_blocks.mpr ⟨_, List.mem_cons_self .., List.mem_cons_self ..⟩
    · by_cases isClients : place = .clients block
      · exact isClients ▸ ⟨_, List.mem_cons_self .., rfl⟩
      · rw [same place isList isClients] at found
        exact (keeps.owned place found).mono fun entry => List.mem_cons_of_mem _

theorem Keeps.fini {env : Env} {live : List Entry} (keeps : Keeps heap live)
    (enough : (blocks live).length < env.fuel) :
    ∃ after, redsocksFini env heap = some after ∧ Keeps after [] := by
  have looped : ∃ ended after, each (finiEach env) env.fuel .instances heap = some (ended, after) ∧
      if ended then False else ∃ rest : List Entry,
        [] = rest.map (fun entry => Place.list entry.block) ∧ Keeps after rest ∧
          (blocks rest).length < env.fuel := by
    refine each_rule (fun nodes heap => ∃ rest : List Entry,
      nodes = rest.map (fun entry => Place.list entry.block) ∧ Keeps heap rest ∧
        (blocks rest).length < env.fuel) (fun _ => False) ?_ ?_ ?_ ⟨live, rfl, keeps, enough⟩
      keeps.instances.path.next_first ?_
    · rintro node nodes heap ⟨rest, same, keeps, -⟩
      have circle := keeps.instances
      rw [← same] at circle
      exact circle.linked
    · rintro heap ⟨rest, -, keeps, -⟩
      exact keeps.instances.mapped (List.mem_cons_self ..)
    · rintro node nodes heap ⟨rest, same, keeps, room⟩
      obtain ⟨entry, rest, rfl, rfl, rfl⟩ := List.map_eq_cons_iff.mp same.symm
      have first : Keeps heap ([] ++ ⟨entry.block, entry.clients⟩ :: rest) := keeps
      have sizes := length_blocks [] entry rest
      rw [List.nil_append, List.nil_append] at sizes
      have fewer := length_le_blocks rest
      have space : 0 + rest.length + 1 < env.fuel := by omega
      obtain ⟨after, left, kept⟩ := first.finiInstance space (by omega)
      exact ⟨false, after, by simp [finiEach, Place.block, left], rest, rfl, kept, by omega⟩
    · have fewer := length_le_blocks live
      rw [List.length_map]
      omega
  obtain ⟨ended, after, ran, met⟩ := looped
  cases ended with
  | true => exact absurd met (by simp)
  | false =>
      obtain ⟨rest, same, kept, -⟩ := met
      obtain rfl := List.map_eq_nil_iff.mp same.symm
      exact ⟨after, by rw [redsocksFini, ran, Option.map_some], kept⟩

def started (env : Env) (live : List Entry) : Bool :=
  live.all fun entry => decide (env.init entry.block = .listening)

theorem Keeps.init {env : Env} {live : List Entry} (keeps : Keeps heap live)
    (enough : (blocks live).length < env.fuel) :
    ∃ after, (redsocksInit env heap).map Prod.snd = some after ∧
      Keeps after (if started env live then live else []) := by
  have looped : ∃ ended after, each (initEach env) env.fuel .instances heap = some (ended, after) ∧
      if ended then (∃ shorter, Keeps after shorter ∧ (blocks shorter).length < env.fuel) ∧
          started env live = false
      else ∃ done rest, live = done ++ rest ∧
        [] = rest.map (fun entry => Place.list entry.block) ∧ started env done = true ∧
          Keeps after live := by
    refine each_rule (fun nodes heap => ∃ done rest, live = done ++ rest ∧
        nodes = rest.map (fun entry => Place.list entry.block) ∧ started env done = true ∧
          Keeps heap live)
      (fun heap => (∃ shorter, Keeps heap shorter ∧ (blocks shorter).length < env.fuel) ∧
        started env live = false) ?_ ?_ ?_ ⟨[], live, rfl, rfl, rfl, keeps⟩
      keeps.instances.path.next_first ?_
    · rintro node nodes heap ⟨done, rest, rfl, same, -, keeps⟩
      obtain ⟨entry, rest, rfl, rfl, rfl⟩ := List.map_eq_cons_iff.mp same.symm
      have path := keeps.instances.path
      rw [List.map_append, List.map_cons] at path
      exact ⟨by simp, (path_append.mp path).2.next_first⟩
    · rintro heap ⟨done, rest, -, -, -, keeps⟩
      exact keeps.instances.mapped (List.mem_cons_self ..)
    · rintro node nodes heap ⟨done, rest, rfl, same, begun, keeps⟩
      obtain ⟨entry, rest, rfl, rfl, rfl⟩ := List.map_eq_cons_iff.mp same.symm
      have sizes := length_blocks done entry rest
      have fewer := length_le_blocks (done ++ rest)
      rw [List.length_append] at fewer
      cases ends : env.init entry.block with
      | listening =>
          refine ⟨false, heap, by simp [initEach, Place.block, redsocksInitInstance, ends],
            done ++ [entry], rest, by simp, rfl, ?_, keeps⟩
          simpa [started, ends] using begun
      | failed socket =>
          have listed : Keeps heap (done ++ ⟨entry.block, entry.clients⟩ :: rest) := keeps
          have space : done.length + rest.length + 1 < env.fuel := by omega
          obtain ⟨after, left, kept⟩ := listed.finiInstance space (by omega)
          have closed : redsocksCloseIf env socket after = some after :=
            redsocksCloseIf_eq kept.instances
              (by rw [List.length_map, List.length_append]; omega) socket
          refine ⟨true, after, ?_, ⟨done ++ rest, kept, by omega⟩, ?_⟩
          · simp [initEach, Place.block, redsocksInitInstance, ends, left, closed]
          · simp [started, ends]
    · have fewer := length_le_blocks live
      rw [List.length_map]
      omega
  obtain ⟨ended, after, ran, met⟩ := looped
  cases ended with
  | true =>
      obtain ⟨⟨shorter, kept, room⟩, failed⟩ := met
      obtain ⟨final, freed, none⟩ := kept.fini room
      exact ⟨final, by simp [redsocksInit, ran, freed], by simpa [failed] using none⟩
  | false =>
      obtain ⟨done, rest, split, same, begun, kept⟩ := met
      obtain rfl := List.map_eq_nil_iff.mp same.symm
      rw [List.append_nil] at split
      refine ⟨after, by simp [redsocksInit, ran], ?_⟩
      rw [if_pos (split ▸ begun)]
      exact kept

end Changes

/-! ### Runs of the program -/

inductive Op where
  | configure (block : Nat)
  | init
  | accept (self client : Nat) (joined : Bool)
  | drop (client : Nat)
  | close
  | fini
deriving DecidableEq, Repr

def join (self client : Nat) (live : List Entry) : List Entry :=
  live.map fun entry =>
    if entry.block = self then { entry with clients := client :: entry.clients } else entry

def leave (client : Nat) (live : List Entry) : List Entry :=
  live.map fun entry => { entry with clients := entry.clients.erase client }

/-- What becomes of the instances and clients.  `calloc` hands out blocks that are not in use. -/
def liveStep (env : Env) (live : List Entry) : Op → Option (List Entry)
  | .configure block => if block ∈ blocks live then none else some (⟨block, []⟩ :: live)
  | .init => some (if started env live then live else [])
  | .accept self client joined =>
      if self ∈ live.map Entry.block ∧ client ∉ blocks live then
        some (if joined then join self client live else live)
      else none
  | .drop client => if client ∈ live.flatMap Entry.clients then some (leave client live) else none
  | .close => some live
  | .fini => some []

def heapStep (env : Env) (heap : Heap) : Op → Option Heap
  | .configure block => redsocksSection block heap
  | .init => (redsocksInit env heap).map Prod.snd
  | .accept self client joined => redsocksAcceptClient env self client joined heap
  | .drop client => redsocksDropClient env client heap
  | .close => redsocksClose env heap
  | .fini => redsocksFini env heap

section Runs

variable {env : Env} {live next : List Entry} {heap : Heap} {front back : List Entry} {entry : Entry}

theorem map_unchanged {change : Entry → Entry} (same : ∀ entry ∈ live, change entry = entry) :
    live.map change = live :=
  calc
    live.map change = live.map id := List.map_congr_left same
    _ = live := List.map_id live

theorem join_split (distinct : (blocks (front ++ entry :: back)).Nodup) (client : Nat) :
    join entry.block client (front ++ entry :: back) =
      front ++ ⟨entry.block, client :: entry.clients⟩ :: back := by
  have others : ∀ other ∈ front ++ back, (if other.block = entry.block then
      ({ other with clients := client :: other.clients } : Entry) else other) = other := by
    intro other member
    rw [if_neg]
    intro same
    exact apart_of_distinct distinct member (List.mem_cons_self ..) (by simp [Entry.blocks, same])
  obtain ⟨ahead, behind⟩ := List.forall_mem_append.mp others
  rw [join, List.map_append, List.map_cons, map_unchanged ahead, map_unchanged behind, if_pos rfl]

theorem leave_split {block client : Nat} {ahead behind : List Nat}
    (distinct : (blocks (front ++ ⟨block, ahead ++ client :: behind⟩ :: back)).Nodup) :
    leave client (front ++ ⟨block, ahead ++ client :: behind⟩ :: back) =
      front ++ ⟨block, ahead ++ behind⟩ :: back := by
  have others : ∀ other ∈ front ++ back,
      ({ other with clients := other.clients.erase client } : Entry) = other := by
    intro other member
    have own : client ∈ (⟨block, ahead ++ client :: behind⟩ : Entry).blocks := by
      simp [Entry.blocks]
    have absent : client ∉ other.clients := fun belongs =>
      apart_of_distinct distinct member own (List.mem_cons_of_mem _ belongs)
    rw [List.erase_of_not_mem absent]
  have own := (List.nodup_append.mp ((blocks_perm front _ back).nodup_iff.mp distinct)).1
  have once : client ∉ ahead := by
    intro member
    exact (List.nodup_append.mp (List.nodup_cons.mp own).2).2.2 client member client (by simp) rfl
  obtain ⟨before, after⟩ := List.forall_mem_append.mp others
  rw [leave, List.map_append, List.map_cons, map_unchanged before, map_unchanged after,
    List.erase_append_right _ once, List.erase_cons_head]

/-- A step of the program keeps the lists, and takes one more block at most. -/
theorem Keeps.step {op : Op} (keeps : Keeps heap live) (enough : (blocks live).length < env.fuel)
    (taken : liveStep env live op = some next) :
    ∃ after, heapStep env heap op = some after ∧ Keeps after next ∧
      (blocks next).length ≤ (blocks live).length + 1 := by
  have fewer := length_le_blocks live
  cases op with
  | configure block =>
      obtain ⟨fresh, taken⟩ := Option.ite_none_left_eq_some.mp taken
      obtain rfl := Option.some.inj taken
      obtain ⟨after, made, kept⟩ := keeps.configure fresh
      exact ⟨after, made, kept, Nat.le_refl _⟩
  | init =>
      obtain rfl := Option.some.inj taken
      obtain ⟨after, made, kept⟩ := keeps.init enough
      refine ⟨after, made, kept, ?_⟩
      split
      · omega
      · simp [blocks]
  | accept self client joined =>
      obtain ⟨⟨listed, fresh⟩, taken⟩ := Option.ite_none_right_eq_some.mp taken
      obtain rfl := Option.some.inj taken
      obtain ⟨entry, member, rfl⟩ := List.mem_map.mp listed
      cases joined with
      | false =>
          have space : live.length < env.fuel := by omega
          obtain ⟨after, made, kept⟩ := keeps.refuse space fresh entry.block
          exact ⟨after, made, kept, Nat.le_succ _⟩
      | true =>
          obtain ⟨front, back, rfl⟩ := List.append_of_mem member
          obtain ⟨after, made, kept⟩ := keeps.join env fresh
          refine ⟨after, made, ?_, ?_⟩
          · rw [if_pos rfl, join_split keeps.distinct]
            exact kept
          · rw [if_pos rfl, join_split keeps.distinct, length_blocks, length_blocks,
              List.length_cons]
            omega
  | drop client =>
      obtain ⟨listed, taken⟩ := Option.ite_none_right_eq_some.mp taken
      obtain rfl := Option.some.inj taken
      obtain ⟨⟨block, clients⟩, member, belongs⟩ := List.mem_flatMap.mp listed
      obtain ⟨front, back, rfl⟩ := List.append_of_mem member
      obtain ⟨ahead, behind, rfl⟩ := List.append_of_mem belongs
      rw [List.length_append, List.length_cons] at fewer
      have space : front.length + back.length + 1 < env.fuel := by omega
      obtain ⟨after, made, kept⟩ := keeps.drop space
      refine ⟨after, made, ?_, ?_⟩
      · rw [leave_split keeps.distinct]
        exact kept
      · rw [leave_split keeps.distinct, length_blocks, length_blocks, List.length_append,
          List.length_append, List.length_cons]
        omega
  | close =>
      obtain rfl := Option.some.inj taken
      have same : redsocksClose env heap = some heap :=
        redsocksClose_eq keeps.instances (by rw [List.length_map]; omega)
      exact ⟨heap, same, keeps, Nat.le_succ _⟩
  | fini =>
      obtain rfl := Option.some.inj taken
      obtain ⟨after, made, kept⟩ := keeps.fini enough
      exact ⟨after, made, kept, by simp [blocks]⟩

theorem keeps_atStart : Keeps atStart [] where
  distinct := List.nodup_nil
  instances := ⟨by simp, rfl, rfl⟩
  clients := by simp
  owned := by
    intro place found
    cases place with
    | instances => trivial
    | _ => simp [atStart] at found

theorem Keeps.run {ops : List Op} (keeps : Keeps heap live)
    (enough : (blocks live).length + ops.length < env.fuel)
    (ran : StepRun.run (liveStep env) ops live = some next) :
    ∃ after, StepRun.run (heapStep env) ops heap = some after ∧ Keeps after next ∧
      (blocks next).length < env.fuel := by
  induction ops generalizing heap live with
  | nil =>
      obtain rfl := Option.some.inj ran
      exact ⟨heap, rfl, keeps, by simpa using enough⟩
  | cons op ops ih =>
      rw [List.length_cons] at enough
      obtain ⟨middle, taken, rest⟩ := StepRun.run_cons_some ran
      obtain ⟨after, made, kept, grown⟩ := keeps.step (by omega) taken
      rw [StepRun.run_cons, made, Option.bind_some]
      exact ih kept (by omega) rest

/-- In every run of the program the lists in memory are those of the instances and clients in use:
no function comes by a block that has been freed or a link that has been poisoned, and loops over the
lists come by each of their entries once. -/
theorem lists_kept (env : Env) (ops : List Op) (live : List Entry)
    (ran : StepRun.run (liveStep env) ops [] = some live) (enough : ops.length < env.fuel) :
    ∃ heap, StepRun.run (heapStep env) ops atStart = some heap ∧ Keeps heap live ∧
      visits env.fuel .instances heap = some (live.map fun entry => .list entry.block) ∧
      ∀ entry ∈ live,
        visits env.fuel (.clients entry.block) heap = some (entry.clients.map .list) := by
  obtain ⟨heap, made, kept, room⟩ := keeps_atStart.run (by simpa [blocks] using enough) ran
  have fewer := length_le_blocks live
  refine ⟨heap, made, kept, kept.instances.visits (by rw [List.length_map]; omega), ?_⟩
  intro entry member
  refine (kept.clients entry member).visits ?_
  obtain ⟨front, back, rfl⟩ := List.append_of_mem member
  rw [length_blocks] at room
  rw [List.length_map]
  omega

def sampleEnv : Env :=
  { init := fun _ => .listening, listener := fun _ => true, buffers := fun _ => 2, fuel := 20 }

/-- Two instances, of whose clients one is refused and one goes. -/
def sampleOps : List Op :=
  [.configure 1, .configure 2, .init, .accept 1 3 true, .accept 1 4 true, .accept 2 5 false,
    .accept 2 5 true, .close, .drop 3]

theorem lists_kept_two_instances :
    ∃ heap, StepRun.run (heapStep sampleEnv) sampleOps atStart = some heap ∧
      Keeps heap [⟨2, [5]⟩, ⟨1, [4]⟩] ∧
      visits sampleEnv.fuel .instances heap = some [.list 2, .list 1] ∧
      ∀ entry ∈ [(⟨2, [5]⟩ : Entry), ⟨1, [4]⟩],
        visits sampleEnv.fuel (.clients entry.block) heap = some (entry.clients.map .list) :=
  lists_kept sampleEnv sampleOps [⟨2, [5]⟩, ⟨1, [4]⟩] rfl (by decide)

end Runs

end ProxySet.Blocks
