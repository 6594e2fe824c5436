import ProxySet.Droid.JsonText
import ProxySet.Droid.Profiles

/-!
The list of profiles over every history of the main screen: the two strings that keep it
stay in step, and the current profile is one of those listed.
-/

namespace ProxySet.Droid

open StepRun

/-! ### Lists with bars -/

theorem barred_append (first second : List Bytes) :
    barred (first ++ second) = barred first ++ barred second :=
  List.flatMap_append

theorem splitOn_barred {parts : List Bytes} {last : Bytes} (noBars : ∀ part ∈ parts, 124 ∉ part)
    (noBar : 124 ∉ last) : (barred parts ++ last).splitOn 124 = parts ++ [last] := by
  induction parts with
  | nil => exact List.splitOn_eq_singleton noBar
  | cons part parts ih =>
      have shape : barred (part :: parts) ++ last = part ++ 124 :: (barred parts ++ last) := by
        have bar : ascii "|" = [124] := by decide
        simp [barred, bar]
      have alone : part.splitOn 124 = [part] := List.splitOn_eq_singleton (noBars part (by simp))
      rw [shape, List.splitOn_append_cons_self, alone,
        ih fun other member => noBars other (by simp [member])]
      rfl

theorem splitList_barred {parts : List Bytes} {last : Bytes} (noBars : ∀ part ∈ parts, 124 ∉ part)
    (noBar : 124 ∉ last) (spoken : last ≠ []) :
    splitList (barred parts ++ last) = parts ++ [last] := by
  have nonempty : barred parts ++ last ≠ [] := by simp [spoken]
  rw [splitList, if_neg nonempty, splitBars, splitOn_barred noBars noBar,
    List.rdropWhile_concat_neg]
  simp [spoken]

theorem decimal_noBar (number : Nat) : 124 ∉ decimal number := by
  intro member
  have digit := decimal_isdigit number 124 member
  exact absurd digit (by decide)

theorem decimal_inj {first second : Nat} (same : decimal first = decimal second) :
    first = second := by
  rw [← valueIn_decimal first, same, valueIn_decimal second]

theorem zero_text : ascii "0" = decimal 0 := by decide

theorem decimal_ne_zero {number : Nat} (positive : 0 < number) : decimal number ≠ ascii "0" := by
  rw [zero_text]
  intro same
  have zero := decimal_inj same
  omega

namespace Screen

variable {strings : Strings} {json : Json} {screen next : Screen} {rows : List (Nat × Bytes)}

/-- The two strings list these numbers and names, in front of the entry for a new profile. -/
structure Rows (strings : Strings) (settings : Settings) (rows : List (Nat × Bytes)) : Prop where
  values : settings.getString .profileValues [] =
    barred (rows.map fun row => decimal row.1) ++ ascii "0"
  entries : settings.getString .profileEntries [] =
    barred (rows.map Prod.snd) ++ strings.profileNew
  rows_ne_nil : rows ≠ []
  increasing : (rows.map Prod.fst).Pairwise (· < ·)
  numbers : ∀ row ∈ rows, 0 < row.1 ∧ row.1 < 2 ^ 31
  names : ∀ row ∈ rows, row.2 ≠ [] ∧ 124 ∉ row.2

/-- The current profile is one of those listed. -/
structure Lists (strings : Strings) (screen : Screen) (rows : List (Nat × Bytes)) : Prop
    extends Rows strings screen.settings rows where
  current : ∃ row ∈ rows, screen.settings.getString .profile [] = decimal row.1 ∧
    screen.profile = decimal row.1

/-- The names that have been given can stand in the list. -/
def Titled (screen : Screen) : Prop :=
  ∀ number name, screen.settings.strings (.named number) = some name → name ≠ [] ∧ 124 ∉ name

theorem values_of_rows (listed : Rows strings screen.settings rows) :
    screen.profileValues = (rows.map fun row => decimal row.1) ++ [ascii "0"] := by
  rw [profileValues, listed.values]
  refine splitList_barred ?_ (by decide) (by decide)
  intro part member
  obtain ⟨row, -, rfl⟩ := List.mem_map.mp member
  exact decimal_noBar row.1

theorem entries_of_rows (listed : Rows strings screen.settings rows) :
    screen.profileEntries = rows.map Prod.snd ++ [strings.profileNew] := by
  rw [profileEntries, listed.entries]
  refine splitList_barred ?_ strings.new_noBar strings.new_ne_nil
  intro part member
  obtain ⟨row, here, rfl⟩ := List.mem_map.mp member
  exact (listed.names row here).2

theorem Rows.carry {settings changed : Settings} (listed : Rows strings settings rows)
    (values : changed.getString .profileValues [] = settings.getString .profileValues [])
    (entries : changed.getString .profileEntries [] = settings.getString .profileEntries []) :
    Rows strings changed rows :=
  ⟨values.trans listed.values, entries.trans listed.entries, listed.rows_ne_nil, listed.increasing,
    listed.numbers, listed.names⟩

theorem switched_strings {key : TextKey} (other : key.isField = false) :
    (switched strings json screen).settings.strings key =
      if key = .saved screen.profile then
        some ((screen.mProfile.getProfile screen.settings).text json)
      else screen.settings.strings key := by
  simp only [switched, onProfileChange]
  rw [Profile.strings_setProfile _ _ other]
  rfl

theorem switched_getString {key : TextKey} (other : key.isField = false)
    (notSaved : ∀ number, key ≠ .saved number) (defValue : Bytes) :
    (switched strings json screen).settings.getString key defValue =
      screen.settings.getString key defValue := by
  rw [Settings.getString, switched_strings other, if_neg (notSaved _), Settings.getString]

theorem switched_profile :
    (switched strings json screen).profile = screen.settings.getString .profile [] := rfl

theorem titled_switched (titled : Titled screen) : Titled (switched strings json screen) := by
  intro number name here
  rw [switched_strings rfl, if_neg (by simp)] at here
  exact titled number name here

theorem lists_switched {number : Nat} (listed : Rows strings screen.settings rows)
    (profile : screen.settings.getString .profile [] = decimal number)
    (member : number ∈ rows.map Prod.fst) : Lists strings (switched strings json screen) rows := by
  obtain ⟨row, inside, rfl⟩ := List.mem_map.mp member
  refine ⟨listed.carry (switched_getString rfl (by simp) _) (switched_getString rfl (by simp) _),
    row, inside, ?_, profile⟩
  rw [switched_getString rfl (by simp), profile]

/-! ### Selecting -/

theorem rows_positive {settings : Settings} (listed : Rows strings settings rows) {number : Nat}
    (member : number ∈ rows.map Prod.fst) : 0 < number := by
  obtain ⟨row, inside, rfl⟩ := List.mem_map.mp member
  exact (listed.numbers row inside).1

theorem lists_putProfile (json : Json) (screen : Screen)
    (listed : Rows strings screen.settings rows)
    (shown : screen.settings.getString .profile [] = screen.profile) {number : Nat}
    (member : number ∈ rows.map Prod.fst) :
    ∃ next, putProfile strings json screen (decimal number) = some next ∧
      Lists strings next rows ∧ next.profile = decimal number := by
  have stored : Rows strings (screen.settings.putString .profile (decimal number)) rows :=
    listed.carry (by simp) (by simp)
  rw [putProfile]
  by_cases same : screen.settings.getString .profile [] = decimal number
  · obtain ⟨row, inside, rfl⟩ := List.mem_map.mp member
    have profile : screen.profile = decimal row.1 := shown ▸ same
    rw [if_pos same]
    exact ⟨_, rfl, ⟨stored, row, inside, by simp, profile⟩, profile⟩
  · rw [if_neg same, if_neg (decimal_ne_zero (rows_positive listed member))]
    refine ⟨_, rfl, lists_switched stored (by simp) member, ?_⟩
    rw [switched_profile]
    simp

theorem lastNumber_of_rows {front : List (Nat × Bytes)} {last : Nat × Bytes}
    (listed : Rows strings screen.settings (front ++ [last])) :
    screen.lastNumber = some (last.1 : Int) := by
  have small := (listed.numbers last (by simp)).2
  rw [lastNumber, values_of_rows listed]
  have place : ((front ++ [last]).map (fun row => decimal row.1) ++ [ascii "0"]).length - 2 =
      (front.map fun row => decimal row.1).length := by simp
  rw [place, if_pos (by simp)]
  simp [integerValueOf_decimal small]

def extended (strings : Strings) (settings : Settings) (rows : List (Nat × Bytes))
    (number : Bytes) : Settings :=
  (putList strings settings (rows.map Prod.snd ++ [getProfileName strings settings number])
    ((rows.map fun row => decimal row.1) ++ [number])).putString .profile number

theorem created_of_rows {front : List (Nat × Bytes)} {last : Nat × Bytes}
    (listed : Rows strings screen.settings (front ++ [last])) (number : Bytes)
    (new : number = integerText (int32 (last.1 + 1))) :
    created strings json screen =
      if number = ascii "0" then
        some { screen with settings := extended strings screen.settings (front ++ [last]) number }
      else some (switched strings json
        { screen with settings := extended strings screen.settings (front ++ [last]) number }) := by
  have values := values_of_rows listed
  have entries := entries_of_rows listed
  have count : screen.profileValues.length - 1 = (front ++ [last]).length := by simp [values]
  have enough : ¬screen.profileEntries.length < screen.profileValues.length - 1 := by
    rw [count, entries]
    simp
  have takeValues : screen.profileValues.take (front ++ [last]).length =
      (front ++ [last]).map fun row => decimal row.1 := by
    rw [values]
    exact List.take_left' (by simp)
  have takeEntries : screen.profileEntries.take (front ++ [last]).length =
      (front ++ [last]).map Prod.snd := by
    rw [entries]
    exact List.take_left' (by simp)
  simp only [created, lastNumber_of_rows listed, if_neg enough]
  simp only [count, takeValues, takeEntries, ← new, extended]

theorem getProfileName_fits (strings : Strings) (titled : Titled screen) {number : Bytes}
    (noBar : 124 ∉ number) :
    getProfileName strings screen.settings number ≠ [] ∧
      124 ∉ getProfileName strings screen.settings number := by
  rw [getProfileName, Settings.getString]
  cases given : screen.settings.strings (.named number) with
  | some name => exact titled number name given
  | none =>
      have space : ascii " " = [32] := by decide
      rw [Option.getD_none, defaultName, space]
      constructor
      · simp
      · simp [strings.base_noBar, noBar]

theorem rows_extended {settings : Settings} {number : Nat} {name : Bytes}
    (listed : Rows strings settings rows) (larger : ∀ row ∈ rows, row.1 < number)
    (small : number < 2 ^ 31) (named : getProfileName strings settings (decimal number) = name)
    (fits : name ≠ [] ∧ 124 ∉ name) :
    Rows strings (extended strings settings rows (decimal number)) (rows ++ [(number, name)]) := by
  have positive : 0 < number := by
    obtain ⟨row, member⟩ := List.exists_mem_of_ne_nil rows listed.rows_ne_nil
    have less := larger row member
    omega
  refine ⟨?_, ?_, by simp, ?_, ?_, ?_⟩
  · simp [extended, putList]
  · simp [extended, putList, named]
  · rw [List.map_append, List.pairwise_append]
    refine ⟨listed.increasing, by simp, ?_⟩
    intro first inside second last
    obtain ⟨row, member, rfl⟩ := List.mem_map.mp inside
    simp only [List.map_singleton, List.mem_singleton] at last
    exact last ▸ larger row member
  · intro row member
    rcases List.mem_append.mp member with old | new
    · exact listed.numbers row old
    · rw [List.mem_singleton.mp new]
      exact ⟨positive, small⟩
  · intro row member
    rcases List.mem_append.mp member with old | new
    · exact listed.names row old
    · rw [List.mem_singleton.mp new]
      exact fits

theorem rows_last_largest {settings : Settings} {front : List (Nat × Bytes)} {last : Nat × Bytes}
    (listed : Rows strings settings (front ++ [last])) :
    ∀ row ∈ front ++ [last], row.1 < last.1 + 1 := by
  have increasing := listed.increasing
  rw [List.map_append, List.pairwise_append] at increasing
  intro row member
  rcases List.mem_append.mp member with old | new
  · have less := increasing.2.2 row.1 (List.mem_map_of_mem old) last.1 (by simp)
    omega
  · rw [List.mem_singleton.mp new]
    omega

theorem next_text {last : Nat} (room : last + 1 < 2 ^ 31) :
    decimal (last + 1) = integerText (int32 (last + 1)) := by
  have wraps : int32 ((last : Int) + 1) = ((last + 1 : Nat) : Int) := by
    rw [int32, Int.bmod_eq_of_le]
    · rfl
    · omega
    · omega
  rw [wraps, integerText_natCast]

theorem lists_created (json : Json) (screen : Screen) {front : List (Nat × Bytes)}
    {last : Nat × Bytes}
    (listed : Rows strings screen.settings (front ++ [last])) (titled : Titled screen)
    (room : last.1 + 1 < 2 ^ 31) :
    ∃ next name, created strings json screen = some next ∧
      Lists strings next (front ++ [last] ++ [(last.1 + 1, name)]) := by
  have fits := getProfileName_fits strings titled (decimal_noBar (last.1 + 1))
  have rowsNext := rows_extended listed (rows_last_largest listed) room rfl fits
  have profile : (extended strings screen.settings (front ++ [last])
      (decimal (last.1 + 1))).getString .profile [] = decimal (last.1 + 1) := by simp [extended]
  rw [created_of_rows listed _ (next_text room), if_neg (decimal_ne_zero (Nat.succ_pos _))]
  exact ⟨_, _, rfl, lists_switched rowsNext profile (by simp)⟩

theorem created_overflow (json : Json) (screen : Screen) {front : List (Nat × Bytes)}
    {last : Nat × Bytes}
    (listed : Rows strings screen.settings (front ++ [last])) (full : last.1 = 2 ^ 31 - 1) :
    ∃ next, created strings json screen = some next ∧
      ∀ rows, ¬Rows strings next.settings rows := by
  have wraps : int32 ((last.1 : Int) + 1) = -2147483648 := by
    rw [full]
    decide
  have new : 45 :: decimal 2147483648 = integerText (int32 (last.1 + 1)) := by
    rw [wraps]
    rfl
  have other : (45 :: decimal 2147483648 : Bytes) ≠ ascii "0" := by
    have zero : ascii "0" = [48] := by decide
    simp [zero]
  rw [created_of_rows listed _ new, if_neg other]
  refine ⟨_, rfl, fun rows wrong => ?_⟩
  have numbers := wrong.values
  rw [switched_getString rfl (by simp)] at numbers
  have parts := congrArg (List.splitOn 124) numbers
  have noBars : ∀ (rows : List (Nat × Bytes)), ∀ part ∈ rows.map fun row => decimal row.1,
      124 ∉ part := by
    intro rows part member
    obtain ⟨row, -, rfl⟩ := List.mem_map.mp member
    exact decimal_noBar row.1
  simp only [extended, putList, Settings.getString_putString, reduceCtorEq, if_false,
    if_true] at parts
  have noBar : 124 ∉ (45 :: decimal 2147483648 : Bytes) := by
    simp [decimal_noBar]
  rw [splitOn_barred ?_ (by decide), splitOn_barred (noBars rows) (by decide)] at parts
  · have member : (45 :: decimal 2147483648 : Bytes) ∈ rows.map fun row => decimal row.1 := by
      rw [← List.append_cancel_right parts]
      simp
    obtain ⟨row, -, same⟩ := List.mem_map.mp member
    have digit := decimal_isdigit row.1 45 (by rw [same]; simp)
    exact absurd digit (by decide)
  · intro part member
    rcases List.mem_append.mp member with old | last
    · exact noBars _ part old
    · rw [List.mem_singleton.mp last]
      exact noBar

/-! ### Renaming and deleting -/

theorem rows_putList {settings : Settings} (rows_ne_nil : rows ≠ [])
    (increasing : (rows.map Prod.fst).Pairwise (· < ·))
    (numbers : ∀ row ∈ rows, 0 < row.1 ∧ row.1 < 2 ^ 31)
    (names : ∀ row ∈ rows, row.2 ≠ [] ∧ 124 ∉ row.2) :
    Rows strings (putList strings settings (rows.map Prod.snd)
      (rows.map fun row => decimal row.1)) rows :=
  ⟨by simp [putList], by simp [putList], rows_ne_nil, increasing, numbers, names⟩

theorem putList_getString {settings : Settings} {entries values : List Bytes} {key : TextKey}
    (other : key ≠ .profileEntries ∧ key ≠ .profileValues) (defValue : Bytes) :
    (putList strings settings entries values).getString key defValue =
      settings.getString key defValue := by
  simp [putList, other.1, other.2]

theorem renamedEntries_rows (number : Nat) (name : Bytes) (rows : List (Nat × Bytes))
    (more : List Bytes) :
    renamedEntries (decimal number) name (rows.map fun row => decimal row.1)
        (rows.map Prod.snd ++ more) =
      some (rows.map fun row => if row.1 = number then name else row.2) := by
  induction rows with
  | nil => rfl
  | cons row rows ih =>
      have same : decimal row.1 = decimal number ↔ row.1 = number :=
        ⟨decimal_inj, fun same => by rw [same]⟩
      simp only [List.map_cons, List.cons_append, renamedEntries, List.tail_cons, List.head?_cons,
        ih, same]
      by_cases here : row.1 = number <;> simp [here]

theorem lists_rename (lists : Lists strings screen rows) (text : Bytes) :
    ∃ next changed, rename strings screen text = some next ∧ Lists strings next changed := by
  obtain ⟨row, member, stored, shown⟩ := lists.current
  rw [rename]
  by_cases silent : text.filter (· ≠ 124) = []
  · exact ⟨screen, rows, by rw [if_pos silent], lists⟩
  have noBar : 124 ∉ text.filter (· ≠ 124) := by simp
  have name : getProfileName strings (screen.settings.putString (.named screen.profile)
      (text.filter (· ≠ 124))) screen.profile = text.filter (· ≠ 124) := by
    simp [getProfileName]
  have values : screen.profileValues.dropLast = rows.map fun row => decimal row.1 := by
    rw [values_of_rows lists.toRows, List.dropLast_concat]
  have entries := entries_of_rows lists.toRows
  rw [if_neg silent]
  simp only [name, values, entries]
  rw [shown, renamedEntries_rows, Option.map_some]
  let changed := rows.map fun other =>
    (other.1, if other.1 = row.1 then text.filter (· ≠ 124) else other.2)
  have numbersKept : changed.map Prod.fst = rows.map Prod.fst := by simp [changed]
  have namesPut : changed.map Prod.snd =
      rows.map fun other => if other.1 = row.1 then text.filter (· ≠ 124) else other.2 := by
    simp [changed]
  have valuesPut : (changed.map fun other => decimal other.1) =
      rows.map fun other => decimal other.1 := by simp [changed]
  have listed : Rows strings (putList strings (screen.settings.putString (.named (decimal row.1))
      (text.filter (· ≠ 124))) (changed.map Prod.snd) (changed.map fun other => decimal other.1))
      changed := by
    refine rows_putList ?_ ?_ ?_ ?_
    · simpa [changed] using lists.rows_ne_nil
    · rw [numbersKept]
      exact lists.increasing
    · intro other inside
      obtain ⟨old, before, rfl⟩ := List.mem_map.mp inside
      exact lists.numbers old before
    · intro other inside
      obtain ⟨old, before, rfl⟩ := List.mem_map.mp inside
      by_cases here : old.1 = row.1
      · simp only [here, if_true]
        exact ⟨silent, noBar⟩
      · simp only [here, if_false]
        exact lists.names old before
  rw [namesPut, valuesPut] at listed
  refine ⟨_, changed, rfl, listed, ?_⟩
  refine ⟨(row.1, text.filter (· ≠ 124)), ?_, ?_, rfl⟩
  · exact List.mem_map.mpr ⟨row, member, by simp⟩
  · rw [putList_getString (by simp)]
    simpa using stored

theorem keptParts_rows (number : Nat) (rows : List (Nat × Bytes)) (more : List Bytes) :
    keptParts (decimal number) (rows.map fun row => decimal row.1) (rows.map Prod.snd ++ more) =
      some ((rows.filter fun row => row.1 ≠ number).map fun row => (decimal row.1, row.2)) := by
  induction rows with
  | nil => rfl
  | cons row rows ih =>
      have same : decimal number = decimal row.1 ↔ row.1 = number :=
        ⟨fun same => (decimal_inj same).symm, fun same => by rw [same]⟩
      simp only [List.map_cons, List.cons_append, keptParts, List.tail_cons, List.head?_cons,
        ih, same]
      by_cases here : row.1 = number <;> simp [here]

theorem filter_ne_nil {number : Nat} (increasing : (rows.map Prod.fst).Pairwise (· < ·))
    (several : 2 ≤ rows.length) : (rows.filter fun row => row.1 ≠ number) ≠ [] := by
  intro none
  rw [List.filter_eq_nil_iff] at none
  match rows, several with
  | first :: second :: rest, _ =>
      have firstSame := none first (by simp)
      have secondSame := none second (by simp)
      simp only [ne_eq, decide_eq_true_eq, not_not] at firstSame secondSame
      have less : first.1 < second.1 := List.rel_of_pairwise_cons increasing (by simp)
      omega

theorem lists_delete (json : Json) {number : Nat} {kept : List (Nat × Bytes)}
    (lists : Lists strings screen rows) (current : screen.profile = decimal number)
    (several : 2 ≤ rows.length) (others : kept = rows.filter fun row => row.1 ≠ number) :
    ∃ next, delProfile strings json screen = some next ∧ Lists strings next kept := by
  obtain ⟨row, member, stored, shown⟩ := lists.current
  have kept_ne_nil : kept ≠ [] := others ▸ filter_ne_nil lists.increasing several
  obtain ⟨front, last, split⟩ : ∃ front last, kept = front ++ [last] :=
    ⟨kept.dropLast, kept.getLast kept_ne_nil, (List.dropLast_append_getLast kept_ne_nil).symm⟩
  have inside : ∀ row ∈ kept, row ∈ rows := by
    intro row member
    rw [others] at member
    exact List.mem_of_mem_filter member
  have listed : Rows strings (putList strings screen.settings (kept.map Prod.snd)
      (kept.map fun row => decimal row.1)) kept := by
    refine rows_putList kept_ne_nil ?_ (fun row here => lists.numbers row (inside row here))
      (fun row here => lists.names row (inside row here))
    rw [others]
    exact lists.increasing.sublist (List.filter_sublist.map Prod.fst)
  have values : screen.profileValues.dropLast = rows.map fun row => decimal row.1 := by
    rw [values_of_rows lists.toRows, List.dropLast_concat]
  have entries := entries_of_rows lists.toRows
  have enough : 2 < screen.profileEntries.length := by
    rw [entries, List.length_append, List.length_map]
    simp only [List.length_singleton]
    omega
  have parts : keptParts screen.profile screen.profileValues.dropLast screen.profileEntries =
      some (kept.map fun row => (decimal row.1, row.2)) := by
    rw [values, entries, current, keptParts_rows, others]
  have firsts : (kept.map fun row => (decimal row.1, row.2)).map Prod.fst =
      kept.map fun row => decimal row.1 := by simp
  have seconds : (kept.map fun row => (decimal row.1, row.2)).map Prod.snd =
      kept.map Prod.snd := by simp
  have newest : (kept.map fun row => decimal row.1).getLastD (ascii "1") = decimal last.1 := by
    rw [split, List.map_append, List.map_singleton, List.getLastD_concat]
  have shownStill : (putList strings screen.settings (kept.map Prod.snd)
      (kept.map fun row => decimal row.1)).getString .profile [] = screen.profile := by
    rw [putList_getString (by simp), stored, shown]
  have listedLast : last.1 ∈ kept.map Prod.fst := by
    rw [split]
    simp
  obtain ⟨next, put, now, -⟩ := lists_putProfile json { screen with settings := _ } listed
    shownStill listedLast
  refine ⟨next, ?_, now⟩
  rw [delProfile, if_pos enough, parts, Option.bind_some]
  simp only [firsts, seconds, newest]
  exact put

/-! ### Names -/

theorem titled_putString (titled : Titled screen) (key : TextKey) (value : Bytes)
    (other : ∀ number, key ≠ .named number) :
    Titled { screen with settings := screen.settings.putString key value } := by
  intro number name here
  rw [Settings.strings_putString, if_neg (fun same => other number same.symm)] at here
  exact titled number name here

theorem titled_putList (titled : Titled screen) (entries values : List Bytes) :
    Titled { screen with settings := putList strings screen.settings entries values } :=
  titled_putString (titled_putString titled .profileEntries _ (by simp)) .profileValues _ (by simp)

theorem titled_named (titled : Titled screen) {number name : Bytes} (fits : name ≠ [] ∧ 124 ∉ name) :
    Titled { screen with settings := screen.settings.putString (.named number) name } := by
  intro other given here
  rw [Settings.strings_putString] at here
  split at here
  · exact Option.some.inj here ▸ fits
  · exact titled other given here

theorem titled_created (titled : Titled screen) (made : created strings json screen = some next) :
    Titled next := by
  unfold created at made
  split at made
  · cases made
  · split at made
    · cases made
    · dsimp only at made
      split at made
      · refine Option.some.inj made ▸ titled_putString (titled_putList titled _ _) .profile _ ?_
        simp
      · refine Option.some.inj made ▸
          titled_switched (titled_putString (titled_putList titled _ _) .profile _ ?_)
        simp

theorem titled_putProfile (titled : Titled screen) {profile : Bytes}
    (put : putProfile strings json screen profile = some next) : Titled next := by
  have stored := titled_putString titled .profile profile (by simp)
  unfold putProfile at put
  split at put
  · exact Option.some.inj put ▸ stored
  · split at put
    · exact titled_created stored put
    · exact Option.some.inj put ▸ titled_switched stored

theorem titled_operate (titled : Titled screen) {op : Op}
    (done : operate strings json screen op = some next) : Titled next := by
  cases op with
  | select index =>
      rw [operate] at done
      split at done
      · exact titled_putProfile titled done
      · exact Option.some.inj done ▸ titled
  | delete =>
      rw [operate, delProfile] at done
      split at done
      · obtain ⟨kept, -, put⟩ := Option.bind_eq_some_iff.mp done
        exact titled_putProfile (titled_putList titled _ _) put
      · exact Option.some.inj done ▸ titled
  | rename text =>
      rw [operate, rename] at done
      split at done
      · exact Option.some.inj done ▸ titled
      case isFalse spoken =>
        obtain ⟨entries, -, rfl⟩ := Option.map_eq_some_iff.mp done
        exact titled_putList (titled_named titled ⟨spoken, by simp⟩) _ _
  | editText key value =>
      rw [operate] at done
      split at done
      case isTrue field =>
        refine Option.some.inj done ▸ titled_putString titled key value ?_
        rintro number rfl
        cases field
      case isFalse => exact Option.some.inj done ▸ titled
  | editFlag key value => exact Option.some.inj done ▸ titled

/-! ### Every history of the list -/

/-- The screen has not crashed, and its list is as it should be. -/
def Consistent (strings : Strings) (screen? : Option Screen) : Prop :=
  ∃ screen rows, screen? = some screen ∧ Lists strings screen rows

/-- A new profile is not asked for when the last number is the largest `int`. -/
def Roomy (screen? : Option Screen) : Op → Prop
  | .select index => ∀ screen ∈ screen?, screen.profileValues[index]? = some (ascii "0") →
      screen.lastNumber ≠ some (2 ^ 31 - 1)
  | _ => True

theorem putProfile_zero (lists : Lists strings screen rows) :
    putProfile strings json screen (ascii "0") =
      created strings json
        { screen with settings := screen.settings.putString .profile (ascii "0") } := by
  obtain ⟨row, member, stored, -⟩ := lists.current
  have other : screen.settings.getString .profile [] ≠ ascii "0" := by
    rw [stored]
    exact decimal_ne_zero (lists.numbers row member).1
  rw [putProfile, if_neg other, if_pos rfl]

theorem select_cases (lists : Lists strings screen rows) (index : Nat) :
    (∃ row ∈ rows, screen.profileValues[index]? = some (decimal row.1)) ∨
      screen.profileValues[index]? = some (ascii "0") ∨ screen.profileValues[index]? = none := by
  cases chosen : screen.profileValues[index]? with
  | none => exact .inr (.inr rfl)
  | some value =>
      have member := List.mem_of_getElem? chosen
      rw [values_of_rows lists.toRows, List.mem_append, List.mem_singleton] at member
      rcases member with listed | rfl
      · obtain ⟨row, inside, rfl⟩ := List.mem_map.mp listed
        exact .inl ⟨row, inside, rfl⟩
      · exact .inr (.inl rfl)

theorem putProfile_new (json : Json) {front : List (Nat × Bytes)} {last : Nat × Bytes}
    (lists : Lists strings screen (front ++ [last])) (titled : Titled screen)
    (room : last.1 + 1 < 2 ^ 31) :
    ∃ next name, putProfile strings json screen (ascii "0") = some next ∧
      Lists strings next (front ++ [last] ++ [(last.1 + 1, name)]) := by
  rw [putProfile_zero lists]
  exact lists_created json _ (lists.carry (by simp) (by simp))
    (titled_putString titled .profile (ascii "0") (by simp)) room

theorem putProfile_overflow (json : Json) {front : List (Nat × Bytes)} {last : Nat × Bytes}
    (lists : Lists strings screen (front ++ [last])) (full : last.1 = 2 ^ 31 - 1) :
    ∃ next, putProfile strings json screen (ascii "0") = some next ∧
      ∀ rows, ¬Rows strings next.settings rows := by
  rw [putProfile_zero lists]
  exact created_overflow json _ (lists.carry (by simp) (by simp)) full

theorem exists_last (listed : Rows strings screen.settings rows) :
    ∃ front last, rows = front ++ [last] :=
  ⟨rows.dropLast, rows.getLast listed.rows_ne_nil,
    (List.dropLast_append_getLast listed.rows_ne_nil).symm⟩

/-- The list stays as it should be unless the numbers have come to an end. -/
theorem consistent_operate_iff (lists : Lists strings screen rows) (titled : Titled screen)
    (op : Op) :
    Consistent strings (operate strings json screen op) ↔ Roomy (some screen) op := by
  cases op with
  | select index =>
      simp only [Roomy, Option.mem_def, Option.some.injEq, forall_eq', operate]
      rcases select_cases lists index with ⟨row, inside, chosen⟩ | chosen | chosen
      · obtain ⟨current, member, stored, shown⟩ := lists.current
        obtain ⟨next, put, now, -⟩ := lists_putProfile json screen lists.toRows
          (stored.trans shown.symm) (List.mem_map_of_mem inside)
        rw [chosen]
        refine iff_of_true ⟨next, rows, put, now⟩ fun zero => ?_
        exact absurd (Option.some.inj zero) (decimal_ne_zero (lists.numbers row inside).1)
      · obtain ⟨front, last, rfl⟩ := exists_last lists.toRows
        have small := (lists.numbers last (by simp)).2
        rw [chosen, lastNumber_of_rows lists.toRows]
        by_cases room : last.1 + 1 < 2 ^ 31
        · obtain ⟨next, name, put, now⟩ := putProfile_new json lists titled room
          refine iff_of_true ⟨next, _, put, now⟩ fun _ => ?_
          simp only [ne_eq, Option.some.injEq]
          omega
        · have full : last.1 = 2 ^ 31 - 1 := by omega
          obtain ⟨next, put, wrong⟩ := putProfile_overflow json lists full
          refine iff_of_false ?_ (by simp [full])
          rintro ⟨other, others, same, now⟩
          obtain rfl := Option.some.inj (put.symm.trans same)
          exact wrong others now.toRows
      · rw [chosen]
        exact iff_of_true ⟨screen, rows, rfl, lists⟩ (fun zero => by cases zero)
  | delete =>
      refine iff_of_true ?_ trivial
      by_cases several : 2 ≤ rows.length
      · obtain ⟨row, member, -, shown⟩ := lists.current
        obtain ⟨next, done, now⟩ := lists_delete json lists shown several rfl
        exact ⟨next, _, done, now⟩
      · have few : ¬2 < screen.profileEntries.length := by
          rw [entries_of_rows lists.toRows, List.length_append, List.length_map,
            List.length_singleton]
          omega
        exact ⟨screen, rows, by rw [operate, delProfile, if_neg few], lists⟩
  | rename text =>
      obtain ⟨next, changed, done, now⟩ := lists_rename lists text
      exact iff_of_true ⟨next, changed, done, now⟩ trivial
  | editText key value =>
      refine iff_of_true ?_ trivial
      by_cases field : key.isField = true
      · have others : ∀ other : TextKey, other.isField = false → other ≠ key := by
          rintro other outside rfl
          rw [outside] at field
          cases field
        obtain ⟨row, member, stored, shown⟩ := lists.current
        rw [operate, if_pos field]
        refine ⟨_, rows, rfl, lists.carry ?_ ?_, row, member, ?_, shown⟩
        · rw [Settings.getString_putString, if_neg (others _ rfl)]
        · rw [Settings.getString_putString, if_neg (others _ rfl)]
        · rw [Settings.getString_putString, if_neg (others _ rfl)]
          exact stored
      · exact ⟨screen, rows, by rw [operate, if_neg field], lists⟩
  | editFlag key value =>
      obtain ⟨row, member, stored, shown⟩ := lists.current
      exact iff_of_true ⟨_, rows, rfl, lists.carry rfl rfl, row, member, stored, shown⟩ trivial

theorem lists_firstStart (strings : Strings) :
    Lists strings (firstStart strings) [(1, strings.profileDefault)] := by
  have one : decimal 1 = ascii "1" := by decide
  have bar : ascii "|" = [124] := by decide
  refine ⟨⟨?_, ?_, by simp, by simp, ?_, ?_⟩, _, List.mem_singleton_self _, ?_, one.symm⟩
  · simp only [firstStart, firstSettings, Settings.getString_putString, reduceCtorEq, if_false,
      if_true, barred, List.map_singleton, List.flatMap_singleton, one]
    decide
  · simp [firstStart, firstSettings, barred]
  · simp
  · simp [strings.default_ne_nil, strings.default_noBar]
  · simp [firstStart, firstSettings, one]

theorem titled_firstStart (strings : Strings) : Titled (firstStart strings) := by
  intro number name here
  cases here

theorem consistent_run_iff (strings : Strings) (json : Json) (ops : List Op) :
    (∀ taken rest next, ops = taken ++ rest →
      run (step strings json) taken (some (firstStart strings)) = some next →
      Consistent strings next) ↔
      Along (step strings json) Roomy ops (some (firstStart strings)) := by
  refine always_iff_along (fun screen? => ∀ screen ∈ screen?, Titled screen) (Consistent strings)
    ?_ ?_ ?_ (fun _ _ => trivial : ∀ op ∈ ops, True) ?_ ?_
  · intro screen? op next titled _ taken screen here
    obtain rfl := Option.some.inj taken
    obtain ⟨before, rfl, done⟩ := Option.bind_eq_some_iff.mp here
    exact titled_operate (titled before rfl) done
  · rintro _ op next titled ⟨screen, rows, rfl, lists⟩ _ taken
    obtain rfl := Option.some.inj taken
    exact consistent_operate_iff lists (titled screen rfl) op
  · intro screen? op _ blocked
    cases blocked
  · intro screen here
    obtain rfl := Option.some.inj here
    exact titled_firstStart strings
  · exact ⟨_, _, rfl, lists_firstStart strings⟩

/-- Create a profile, go back to the only other one and delete that. -/
theorem next_number (json : Json) {number : Nat} {name : Bytes}
    (lists : Lists strings screen [(number, name)]) (titled : Titled screen)
    (room : number + 1 < 2 ^ 31) :
    ∃ next name, run (step strings json) [.select 1, .select 0, .delete] (some screen) =
      some (some next) ∧ Lists strings next [(number + 1, name)] ∧ Titled next := by
  have listsFirst : Lists strings screen ([] ++ [(number, name)]) := lists
  obtain ⟨second, newName, put, listsSecond⟩ := putProfile_new json listsFirst titled room
  rw [List.nil_append, List.singleton_append] at listsSecond
  obtain ⟨current, -, stored, shown⟩ := listsSecond.current
  have older : number ∈ [(number, name), (number + 1, newName)].map Prod.fst := by simp
  have newer : [(number + 1, newName)] =
      [(number, name), (number + 1, newName)].filter fun row => row.1 ≠ number := by simp
  obtain ⟨third, back, listsThird, profile⟩ := lists_putProfile json second listsSecond.toRows
    (stored.trans shown.symm) older
  obtain ⟨fourth, deleted, listsFourth⟩ := lists_delete json listsThird profile (by simp) newer
  have first : operate strings json screen (.select 1) = some second := by
    simp only [operate, values_of_rows lists.toRows, List.map_singleton, List.singleton_append,
      List.getElem?_cons_succ, List.getElem?_cons_zero]
    exact put
  have next : operate strings json second (.select 0) = some third := by
    simp only [operate, values_of_rows listsSecond.toRows, List.map_cons, List.cons_append,
      List.getElem?_cons_zero]
    exact back
  have last : operate strings json third .delete = some fourth := deleted
  refine ⟨fourth, newName, ?_, listsFourth, ?_⟩
  · simp [step, first, next, last]
  · exact titled_operate (titled_operate (titled_operate titled first) next) last

theorem reach_number (strings : Strings) (json : Json) {number : Nat} (positive : 1 ≤ number)
    (small : number < 2 ^ 31) :
    ∃ ops screen name, run (step strings json) ops (some (firstStart strings)) =
      some (some screen) ∧ Lists strings screen [(number, name)] ∧ Titled screen := by
  induction number, positive using Nat.le_induction with
  | base =>
      exact ⟨[], _, _, rfl, lists_firstStart strings, titled_firstStart strings⟩
  | succ number positive ih =>
      obtain ⟨ops, screen, name, ran, lists, titled⟩ := ih (by omega)
      obtain ⟨next, newName, more, listsNext, titledNext⟩ := next_number json lists titled small
      refine ⟨ops ++ [.select 1, .select 0, .delete], next, newName, ?_, listsNext, titledNext⟩
      rw [run_append, ran, Option.bind_some, more]

theorem consistent_run_overflow :
    ∃ ops next, run (step .english .simple) ops (some (firstStart .english)) = some next ∧
      ¬Consistent .english next := by
  have large : (1 : Nat) ≤ 2 ^ 31 - 1 := by decide
  obtain ⟨ops, screen, name, ran, lists, titled⟩ :=
    reach_number .english .simple large (by decide)
  have listsLast : Lists .english screen ([] ++ [(2 ^ 31 - 1, name)]) := lists
  obtain ⟨next, put, wrong⟩ := putProfile_overflow .simple listsLast rfl
  refine ⟨ops ++ [.select 1], some next, ?_, ?_⟩
  · have selected : operate .english .simple screen (.select 1) = some next := by
      simp only [operate, values_of_rows lists.toRows, List.map_singleton, List.singleton_append,
        List.getElem?_cons_succ, List.getElem?_cons_zero]
      exact put
    rw [run_append, ran, Option.bind_some]
    simp [step, selected]
  · rintro ⟨other, rows, same, now⟩
    obtain rfl := Option.some.inj same
    exact wrong rows now.toRows

end Screen

end ProxySet.Droid
