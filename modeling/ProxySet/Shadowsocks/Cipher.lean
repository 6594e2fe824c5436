import Mathlib.Data.List.GetD
import ProxySet.Shadowsocks.Encrypt

/-!
The two methods of the shadowsocks client as stream coders.  The merge sort of
`encrypt.c` is a stable sort by `_a % (x + _i)`, so the table is an arrangement of
all bytes that any stable sort arrives at, and the second table undoes it.
-/

namespace ProxySet.Shadowsocks

open StableSort

variable {compare : UInt8 → UInt8 → Int} {hash : Bytes}

def tableKey (hash : Bytes) (i : Nat) (byte : UInt8) : Nat :=
  (leadingWord hash).toNat % (byte.toNat + i)

theorem toNat_slot {i : Nat} (small : i < 1024) (byte : UInt8) :
    (byte.toUInt32 + i.toUInt32).toUInt64.toNat = byte.toNat + i := by
  have below := byte.toNat_lt
  simp only [UInt32.toNat_toUInt64, UInt32.toNat_add, UInt8.toNat_toUInt32, Nat.toUInt32_eq,
    UInt32.toNat_ofNat']
  omega

/-- The difference fits an `int`, so its sign is that of the two remainders. -/
theorem randomCompare_le_zero_iff (a : UInt64) {i : Nat} (positive : 0 < i) (small : i < 1024)
    (x y : UInt8) :
    randomCompare a i.toUInt32 x y ≤ 0 ↔ a.toNat % (x.toNat + i) ≤ a.toNat % (y.toNat + i) := by
  have xBound : a.toNat % (x.toNat + i) < 1280 := by
    have below := Nat.mod_lt a.toNat (show 0 < x.toNat + i by omega)
    have byte := x.toNat_lt
    omega
  have yBound : a.toNat % (y.toNat + i) < 1280 := by
    have below := Nat.mod_lt a.toNat (show 0 < y.toNat + i by omega)
    have byte := y.toNat_lt
    omega
  unfold randomCompare cInt
  rw [UInt64.toNat_sub, UInt64.toNat_mod, UInt64.toNat_mod, toNat_slot small, toNat_slot small]
  generalize a.toNat % (x.toNat + i) = left at xBound
  generalize a.toNat % (y.toNat + i) = right at yBound
  unfold Int.bmod
  dsimp only
  split
  · omega
  · omega

theorem merge_eq (left right : Bytes) :
    merge compare left right = left.merge right fun x y => decide (compare x y ≤ 0) := by
  induction left, right using merge.induct compare with
  | case1 right => simp [merge]
  | case2 left filled => simp [merge]
  | case3 ll left rr right before ih => simp [merge, before, ih]
  | case4 ll left rr right after ih => simp [merge, after, ih]

/-- The halves are those of `List.mergeSort`, as long as `middle` fits its byte. -/
theorem mergesort_eq {fuel : Nat} {array : Bytes} (filled : 0 < fuel) (enough : array.length ≤ fuel)
    (short : array.length < 512) :
    mergesort compare fuel array =
      some (array.mergeSort fun x y => decide (compare x y ≤ 0)) := by
  induction fuel generalizing array with
  | zero => omega
  | succ fuel ih =>
      match array, enough, short with
      | [], _, _ => simp [mergesort]
      | [_], _, _ => simp [mergesort]
      | first :: second :: rest, enough, short =>
          simp only [List.length_cons] at enough short
          have middle : (first :: second :: rest).length / 2 % 256 =
              (first :: second :: rest).length / 2 := by
            simp only [List.length_cons]
            omega
          have half : (first :: second :: rest).length - (first :: second :: rest).length / 2 =
              (rest.length + 1 + 1 + 1) / 2 := by
            simp only [List.length_cons]
            omega
          have left := @ih ((first :: second :: rest).take ((rest.length + 1 + 1 + 1) / 2))
            (by omega) (by simp only [List.length_take, List.length_cons]; omega)
            (by simp only [List.length_take, List.length_cons]; omega)
          have right := @ih ((first :: second :: rest).drop ((rest.length + 1 + 1 + 1) / 2))
            (by omega) (by simp only [List.length_drop, List.length_cons]; omega)
            (by simp only [List.length_drop, List.length_cons]; omega)
          have long : ¬(first :: second :: rest).length ≤ 1 := by simp
          rw [mergesort, if_neg long]
          simp only [middle, half, left, right, Option.bind_some, Option.map_some, Option.some.injEq]
          rw [merge_eq, List.mergeSort]
          simp

theorem length_identityTable : identityTable.length = 256 := by
  simp [identityTable]

def rounds (hash : Bytes) : Nat → Bytes
  | 0 => identityTable
  | count + 1 => (rounds hash count).mergeSort (keyLe (tableKey hash (count + 1)))

theorem rounds_perm (hash : Bytes) (count : Nat) : (rounds hash count).Perm identityTable := by
  induction count with
  | zero => exact List.Perm.refl _
  | succ count ih => exact (List.mergeSort_perm _ _).trans ih

theorem length_rounds (hash : Bytes) (count : Nat) : (rounds hash count).length = 256 := by
  rw [(rounds_perm hash count).length_eq, length_identityTable]

theorem foldlM_rounds {count : Nat} (bound : count ≤ 1023) :
    (List.range' 1 count).foldlM (fun table i =>
      mergesort (randomCompare (leadingWord hash) i.toUInt32) 256 table) identityTable =
      some (rounds hash count) := by
  induction count with
  | zero => rfl
  | succ count ih =>
      have compares : (fun x y => decide (randomCompare (leadingWord hash)
          (1 + 1 * count).toUInt32 x y ≤ 0)) = keyLe (tableKey hash (count + 1)) := by
        funext x y
        rw [show 1 + 1 * count = count + 1 by omega, keyLe, decide_eq_decide]
        exact randomCompare_le_zero_iff _ (by omega) (by omega) x y
      rw [List.range'_concat, List.foldlM_append, ih (by omega)]
      have length := length_rounds hash count
      simp only [Option.bind_eq_bind, Option.bind_some, List.foldlM_cons, List.foldlM_nil,
        Option.pure_def, Option.bind_fun_some]
      rw [mergesort_eq (by omega) (by omega) (by omega), compares, rounds]

theorem getTable_eq (hash : Bytes) : getTable hash = some (tablesOf (rounds hash 1023)) := by
  rw [getTable, foldlM_rounds (by omega)]
  rfl

/-- The table of `get_table` is what 1023 stable sorts of all bytes arrive at, whichever stable
sorts they are. -/
theorem getTable_sorts (hash : Bytes) : ∃ tables, getTable hash = some tables ∧
    ∀ arranged : Nat → Bytes, arranged 0 = identityTable →
      (∀ i < 1023, Sorted (tableKey hash (i + 1)) (arranged i) (arranged (i + 1))) →
      tables.encryptTable = arranged 1023 := by
  refine ⟨_, getTable_eq hash, ?_⟩
  intro arranged start sorts
  have agree : ∀ count ≤ 1023, rounds hash count = arranged count := by
    intro count
    induction count with
    | zero =>
        intro _
        exact start.symm
    | succ count ih =>
        intro bound
        have before := ih (by omega)
        have sorted := sorted_mergeSort (tableKey hash (count + 1)) (rounds hash count)
        rw [before] at sorted
        rw [rounds, before]
        exact sorted.unique (sorts count (by omega))
  exact agree 1023 (by omega)

theorem length_foldl_set (spots : List Nat) (place : Nat → Nat) (value : Nat → UInt8)
    (table : Bytes) :
    (spots.foldl (fun table i => table.set (place i) (value i)) table).length = table.length := by
  induction spots generalizing table with
  | nil => rfl
  | cons spot rest ih => simp [ih]

theorem getD_foldl_set {count : Nat} {place : Nat → Nat} {value : Nat → UInt8} {table : Bytes}
    (inside : ∀ i < count, place i < table.length)
    (apart : ∀ i < count, ∀ j < count, place i = place j → i = j) {spot : Nat} (here : spot < count) :
    ((List.range count).foldl (fun table i => table.set (place i) (value i)) table).getD
      (place spot) 0 = value spot := by
  induction count with
  | zero => omega
  | succ count ih =>
      rw [List.range_succ, List.foldl_append]
      simp only [List.foldl_cons, List.foldl_nil]
      rw [List.getD_eq_getElem?_getD, List.getElem?_set]
      by_cases last : place count = place spot
      · obtain rfl := apart count (by omega) spot here last
        rw [if_pos rfl, if_pos (by rw [length_foldl_set]; exact inside count (by omega))]
        rfl
      · have earlier : spot < count := by
          rcases Nat.lt_or_ge spot count with earlier | later
          · exact earlier
          · exact absurd (by rw [show spot = count by omega]) last
        rw [if_neg last, ← List.getD_eq_getElem?_getD]
        exact ih (fun i bound => inside i (by omega))
          (fun i first j second => apart i (by omega) j (by omega)) earlier

theorem nodup_identityTable : identityTable.Nodup := by
  rw [identityTable, List.nodup_map_iff_inj_on List.nodup_range]
  intro first firstIn second secondIn same
  simp only [List.mem_range] at firstIn secondIn
  have equal := congrArg UInt8.toNat same
  simp only [Nat.toUInt8_eq, UInt8.toNat_ofNat'] at equal
  omega

theorem decryptTableOf_getD {table : Bytes} (arranges : table.Perm identityTable) (byte : UInt8) :
    (decryptTableOf table).getD (table.getD byte.toNat 0).toNat 0 = byte := by
  have length : table.length = 256 := by rw [arranges.length_eq, length_identityTable]
  have distinct : table.Nodup := arranges.nodup_iff.mpr nodup_identityTable
  have inside : ∀ i < 256, (table.getD i 0).toNat < (List.replicate 256 (0 : UInt8)).length := by
    intro i _
    rw [List.length_replicate]
    exact (table.getD i 0).toNat_lt
  have apart : ∀ i < 256, ∀ j < 256, (table.getD i 0).toNat = (table.getD j 0).toNat → i = j := by
    intro i first j second same
    have equal := UInt8.toNat_inj.mp same
    rw [List.getD_eq_getElem _ _ (by omega), List.getD_eq_getElem _ _ (by omega)] at equal
    exact (List.Nodup.getElem_inj_iff distinct).mp equal
  have stored := @getD_foldl_set 256 (fun i => (table.getD i 0).toNat) Nat.toUInt8 _
    inside apart _ byte.toNat_lt
  rw [decryptTableOf, stored, Nat.toUInt8_eq, UInt8.ofNat_toNat]

/-- The contexts of the two ends of one direction. -/
inductive Paired : Ctx → Ctx → Prop where
  | table {tables : Tables} : (∀ byte : UInt8,
      tables.decryptTable.getD (tables.encryptTable.getD byte.toNat 0).toNat 0 = byte) →
      Paired (.table tables) (.table tables)
  | rc4 (key : Rc4Key) : Paired (.rc4 key) (.rc4 key)

theorem Paired.of_perm {table : Bytes} (arranges : table.Perm identityTable) :
    Paired (.table (tablesOf table)) (.table (tablesOf table)) := by
  refine .table ?_
  intro byte
  simp only [tablesOf]
  exact decryptTableOf_getD arranges byte

theorem decrypt_undoes : encrypt.Undoes decrypt Paired where
  symbol := by
    intro state other byte paired
    cases paired with
    | table inverse => exact inverse byte
    | rc4 key => simp [encrypt, decrypt, encryptByte, decryptByte, rc4Loop, ← UInt8.xor_assoc]
  related := by
    intro state other byte paired
    cases paired with
    | table inverse => exact .table inverse
    | rc4 key => exact .rc4 _

theorem newCtx_paired (method : Method) (hash : Bytes) :
    ∃ ctx, newCtx method hash = some ctx ∧ Paired ctx ctx := by
  cases method with
  | table =>
      have made := congrArg (Option.map Ctx.table) (getTable_eq hash)
      exact ⟨_, made, .of_perm (rounds_perm hash 1023)⟩
  | rc4 => exact ⟨_, rfl, .rc4 _⟩

/-- Whatever chunks a stream is encrypted in and whatever pieces it arrives in, the other end
decrypts the same stream. -/
theorem decrypts_in_pieces (method : Method) (hash : Bytes) :
    ∃ ctx, newCtx method hash = some ctx ∧ ∀ chunks pieces : List Bytes,
      pieces.flatten = (encrypt.codePieces ctx chunks).flatten →
      (decrypt.codePieces ctx pieces).flatten = chunks.flatten := by
  obtain ⟨ctx, made, paired⟩ := newCtx_paired method hash
  refine ⟨ctx, made, ?_⟩
  intro chunks pieces same
  exact decrypt_undoes.codePieces paired same

end ProxySet.Shadowsocks
