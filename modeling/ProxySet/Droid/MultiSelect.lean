import ProxySet.Droid.AutoConnect

/-!
`ListPreferenceMultiSelect`: a dialog of check boxes over a list of values, and the text in
which the checked ones are stored.  The flags of the boxes outlive the dialog.
-/

namespace ProxySet.Droid.MultiSelect

open StepRun TextReplace AutoConnect

/-! ### The preference -/

def separator : Bytes := [32, 44, 32]

def trim (text : Bytes) : Bytes :=
  (text.dropWhile (· ≤ 32)).rdropWhile (· ≤ 32)

structure Preference where
  /-- `mClickedDialogEntryIndices` -/
  clicked : List Bool
  /-- `getValue()` -/
  value : Option Bytes
  showing : Bool
  deriving DecidableEq

inductive Label where
  | showDialog
  /-- `onClick(dialog, which, val)` -/
  | click (which : Nat) (val : Bool)
  | dialogClosed (positiveResult : Bool)
  /-- From outside, as a switch of the profile does. -/
  | setValue (value : Option Bytes)

section Steps

variable (entryValues : List Bytes)

def create (value : Option Bytes) : Preference where
  clicked := List.replicate entryValues.length false
  value := value
  showing := false

def checkEntry (clicked : List Bool) (val : Bytes) : List Bool :=
  match entryValues.findIdx? (· = trim val) with
  | some index => clicked.set index true
  | none => clicked

def storedValues (value : Option Bytes) : List Bytes :=
  (value.bind parseStoredValue).getD []

def restoreCheckedEntries (preference : Preference) : Preference :=
  { preference with
    clicked := (storedValues preference.value).foldl (checkEntry entryValues) preference.clicked }

def checkedValues (clicked : List Bool) : List Bytes :=
  ((entryValues.zip clicked).filter (·.2)).map (·.1)

def checkedText (clicked : List Bool) : Bytes :=
  let value := (checkedValues entryValues clicked).flatMap (· ++ separator)
  if 0 < value.length then value.take (value.length - separator.length) else value

def step (preference : Preference) : Label → Option Preference
  | .showDialog =>
      if preference.showing then none
      else some { restoreCheckedEntries entryValues preference with showing := true }
  | .click which val =>
      if preference.showing ∧ which < entryValues.length then
        some { preference with clicked := preference.clicked.set which val }
      else none
  | .dialogClosed positiveResult =>
      if preference.showing then
        if positiveResult then
          some
            { preference with
              value := some (checkedText entryValues preference.clicked)
              showing := false }
        else some { preference with showing := false }
      else none
  | .setValue value => some { preference with value := value }

end Steps

/-! ### What the dialog is for -/

/-- The entries are told apart in the stored text. -/
structure Listed (entryValues : List Bytes) : Prop where
  distinct : entryValues.Nodup
  unseparated : ∀ entry ∈ entryValues, ¬separator <:+: entry
  trimmed : ∀ entry ∈ entryValues, trim entry = entry

/-- The dialog shows what is stored, cancelling changes nothing, and what is checked at the end
is read back. -/
def Serves (entryValues : List Bytes) (preference : Preference) (label : Label)
    (next : Preference) : Prop :=
  match label with
  | .showDialog => checkedValues entryValues next.clicked =
      entryValues.filter (· ∈ (storedValues preference.value).map trim)
  | .dialogClosed false => next.value = preference.value
  | .dialogClosed true => next.value.bind parseStoredValue =
      if checkedValues entryValues preference.clicked = [] then none
      else some (checkedValues entryValues preference.clicked)
  | _ => True

/-- Values that are told apart when they are read back. -/
def Storable (values : List Bytes) : Prop :=
  values.getLast? ≠ some [] ∧ ∀ value ∈ values.dropLast, ¬[32, 44] <:+ value

/-- No flag is left of a value that is not stored, and no value that cannot be read back is
stored. -/
def Settled (entryValues : List Bytes) (preference : Preference) : Label → Prop
  | .showDialog => preference.showing = false →
      ∀ entry ∈ checkedValues entryValues preference.clicked,
        entry ∈ (storedValues preference.value).map trim
  | .dialogClosed true => preference.showing = true →
      Storable (checkedValues entryValues preference.clicked)
  | _ => True

/-! ### The stored text -/

theorem clear_separator_iff {value : Bytes} (unseparated : ¬separator <:+: value) :
    Clear separator value ↔ ¬[32, 44] <:+ value := by
  constructor
  · intro clear ends
    exact clear [32, 44] ends (by simp) (by decide)
  · intro ends back inside nonempty occurs
    match back, inside, nonempty, occurs with
    | [first], _, _, occurs => simp [separator] at occurs
    | [first, second], inside, _, occurs =>
        simp only [separator, List.cons_append, List.nil_append, List.cons_prefix_cons] at occurs
        obtain ⟨rfl, rfl, -⟩ := occurs
        exact ends inside
    | first :: second :: third :: back, inside, _, occurs =>
        refine unseparated (List.IsPrefix.isInfix ?_ |>.trans inside.isInfix)
        refine List.prefix_of_prefix_length_le occurs (List.prefix_append _ _) ?_
        simp [separator]

theorem flatMap_separator {values : List Bytes} (spoken : values ≠ []) :
    values.flatMap (· ++ separator) = separator.intercalate values ++ separator := by
  induction values with
  | nil => exact absurd rfl spoken
  | cons value values ih =>
      cases values with
      | nil => simp
      | cons second values =>
          rw [List.flatMap_cons, ih (by simp), List.intercalate_cons_cons, List.append_assoc,
            List.append_assoc, List.append_assoc]

theorem checkedText_eq (entryValues : List Bytes) (clicked : List Bool) :
    checkedText entryValues clicked = separator.intercalate (checkedValues entryValues clicked) := by
  unfold checkedText
  dsimp only
  generalize checkedValues entryValues clicked = values
  cases values with
  | nil => rfl
  | cons value values =>
      rw [flatMap_separator (by simp)]
      have size : separator.length = 3 := rfl
      have long : 0 < (separator.intercalate (value :: values) ++ separator).length := by
        rw [List.length_append]
        omega
      rw [if_pos long, List.length_append, Nat.add_sub_cancel, List.take_left]

theorem intercalate_append {first second : List Bytes} (someFirst : first ≠ [])
    (someSecond : second ≠ []) :
    separator.intercalate (first ++ second) =
      separator.intercalate first ++ separator ++ separator.intercalate second := by
  induction first with
  | nil => exact absurd rfl someFirst
  | cons value first ih =>
      cases first with
      | nil =>
          obtain ⟨head, tail, rfl⟩ := List.exists_cons_of_ne_nil someSecond
          simp [List.intercalate_cons_cons]
      | cons next first =>
          rw [List.cons_append, List.cons_append, List.intercalate_cons_cons, ← List.cons_append,
            ih (by simp), List.intercalate_cons_cons]
          simp only [List.append_assoc]

theorem rdropWhile_cuts_iff {values : List Bytes} (spoken : values ≠ [])
    (kept : values.getLast? ≠ some []) :
    (cuts separator (separator.intercalate values)).rdropWhile List.isEmpty = values ↔
      cuts separator (separator.intercalate values) = values := by
  constructor
  · intro dropped
    obtain ⟨tail, whole⟩ := List.rdropWhile_prefix List.isEmpty
      (l := cuts separator (separator.intercalate values))
    rw [dropped] at whole
    by_cases none : tail = []
    · rw [none, List.append_nil] at whole
      exact whole.symm
    · have text := intercalate_cuts (by decide : separator ≠ []) (separator.intercalate values)
      rw [← whole, intercalate_append spoken none] at text
      have longer := congrArg List.length text
      have size : separator.length = 3 := rfl
      simp only [List.length_append] at longer
      omega
  · intro same
    rw [same, List.rdropWhile_eq_self_iff]
    intro some empty
    rw [List.getLast?_eq_some_getLast some] at kept
    exact kept (congrArg _ (List.isEmpty_iff.mp empty))

theorem storable_iff {values : List Bytes} (unseparated : ∀ value ∈ values, ¬separator <:+: value) :
    parseStoredValue (separator.intercalate values) = (if values = [] then none else some values) ↔
      Storable values := by
  have named : ascii " , " = separator := by decide
  rcases List.eq_nil_or_concat values with rfl | ⟨front, last, rfl⟩
  · simp [Storable, parseStoredValue]
  · rw [List.concat_eq_append] at unseparated ⊢
    have spoken : front ++ [last] ≠ [] := by simp
    have clear : (∀ value ∈ front, Clear separator value) ↔ ∀ value ∈ front, ¬[32, 44] <:+ value := by
      refine forall₂_congr fun value member => clear_separator_iff ?_
      exact unseparated value (List.mem_append_left _ member)
    rw [if_neg spoken, Storable, List.getLast?_concat, List.dropLast_concat, ← clear]
    by_cases silent : last = []
    · refine iff_of_false (fun parsed => ?_) fun storable => storable.1 (congrArg _ silent)
      rw [parseStoredValue] at parsed
      split at parsed
      · cases parsed
      · have again := List.rdropWhile_idempotent List.isEmpty
          (cuts (ascii " , ") (separator.intercalate (front ++ [last])))
        rw [Option.some.inj parsed, List.rdropWhile_eq_self_iff] at again
        exact again spoken (by simp [silent])
    · have kept : (front ++ [last]).getLast? ≠ some [] := by simpa using silent
      have long : separator.intercalate (front ++ [last]) ≠ [] := by
        by_cases alone : front = []
        · simpa [alone] using silent
        · rw [intercalate_append alone (by simp)]
          simp [separator]
      rw [parseStoredValue, if_neg long, Option.some.injEq, named, rdropWhile_cuts_iff spoken kept,
        cuts_intercalate_iff (by decide) (unseparated last (by simp))]
      simp [silent]

/-! ### The flags -/

section

variable {entryValues : List Bytes} {clicked : List Bool} {preference next : Preference}

theorem mem_checkedValues_iff {entry : Bytes} :
    entry ∈ checkedValues entryValues clicked ↔
      ∃ index : Nat, entryValues[index]? = some entry ∧ clicked[index]? = some true := by
  rw [checkedValues, List.mem_map]
  constructor
  · rintro ⟨pair, member, rfl⟩
    obtain ⟨zipped, flagged⟩ := List.mem_filter.mp member
    obtain ⟨index, found⟩ := List.mem_iff_getElem?.mp zipped
    obtain ⟨listed, flag⟩ := List.getElem?_zip_eq_some.mp found
    exact ⟨index, listed, flag.trans (congrArg some flagged)⟩
  · rintro ⟨index, listed, flagged⟩
    have zipped := List.getElem?_zip_eq_some (z := (entry, true)).mpr ⟨listed, flagged⟩
    exact ⟨(entry, true), List.mem_filter.mpr ⟨List.mem_of_getElem? zipped, rfl⟩, rfl⟩

theorem checkedValues_eq_filter (distinct : entryValues.Nodup)
    (sized : clicked.length = entryValues.length) :
    checkedValues entryValues clicked =
      entryValues.filter (· ∈ checkedValues entryValues clicked) := by
  induction entryValues generalizing clicked with
  | nil => rfl
  | cons entry entryValues ih =>
      obtain ⟨fresh, distinctLater⟩ := List.nodup_cons.mp distinct
      cases clicked with
      | nil => cases sized
      | cons flag clicked =>
          have sizedLater : clicked.length = entryValues.length := Nat.succ.inj sized
          have absent : entry ∉ checkedValues entryValues clicked := by
            intro member
            obtain ⟨index, found, -⟩ := mem_checkedValues_iff.mp member
            exact fresh (List.mem_of_getElem? found)
          have later : entryValues.filter (· ∈ checkedValues (entry :: entryValues) (flag :: clicked)) =
              entryValues.filter (· ∈ checkedValues entryValues clicked) := by
            refine List.filter_congr fun other member => ?_
            have different : other ≠ entry := fun same => fresh (same ▸ member)
            cases flag <;> simp [checkedValues, different]
          have rest := ih distinctLater sizedLater
          cases flag with
          | false =>
              have same : checkedValues (entry :: entryValues) (false :: clicked) =
                checkedValues entryValues clicked := rfl
              rw [List.filter_cons, later, ← rest, same, if_neg (by simpa using absent)]
          | true =>
              have same : checkedValues (entry :: entryValues) (true :: clicked) =
                entry :: checkedValues entryValues clicked := rfl
              rw [List.filter_cons, later, ← rest, same, if_pos (by simp)]

theorem checkEntry_length (val : Bytes) :
    (checkEntry entryValues clicked val).length = clicked.length := by
  unfold checkEntry
  split
  · rw [List.length_set]
  · rfl

theorem mem_checkEntry_iff (sized : clicked.length = entryValues.length) {val entry : Bytes} :
    entry ∈ checkedValues entryValues (checkEntry entryValues clicked val) ↔
      entry ∈ checkedValues entryValues clicked ∨ entry ∈ entryValues ∧ entry = trim val := by
  unfold checkEntry
  split
  · rename_i place found
    obtain ⟨bound, here, -⟩ := List.findIdx?_eq_some_iff_getElem.mp found
    have same : entryValues[place] = trim val := of_decide_eq_true here
    have flagBound : place < clicked.length := sized ▸ bound
    rw [mem_checkedValues_iff, mem_checkedValues_iff]
    constructor
    · rintro ⟨index, listed, flagged⟩
      by_cases here : index = place
      · subst here
        rw [List.getElem?_eq_getElem bound, Option.some.injEq] at listed
        exact .inr ⟨List.mem_of_getElem listed, listed.symm.trans same⟩
      · rw [List.getElem?_set_ne (Ne.symm here)] at flagged
        exact .inl ⟨index, listed, flagged⟩
    · rintro (⟨index, listed, flagged⟩ | ⟨listed, rfl⟩)
      · refine ⟨index, listed, ?_⟩
        by_cases here : index = place
        · subst here
          rw [List.getElem?_set_self flagBound]
        · rw [List.getElem?_set_ne (Ne.symm here), flagged]
      · refine ⟨place, ?_, List.getElem?_set_self flagBound⟩
        rw [List.getElem?_eq_getElem bound, same]
  · rename_i missing
    refine ⟨.inl, fun either => either.resolve_right ?_⟩
    rintro ⟨listed, same⟩
    have different := List.findIdx?_eq_none_iff.mp missing entry listed
    simp [same] at different

theorem foldl_checkEntry (vals : List Bytes) (sized : clicked.length = entryValues.length) :
    (vals.foldl (checkEntry entryValues) clicked).length = entryValues.length ∧
      ∀ entry, entry ∈ checkedValues entryValues (vals.foldl (checkEntry entryValues) clicked) ↔
        entry ∈ checkedValues entryValues clicked ∨ entry ∈ entryValues ∧ entry ∈ vals.map trim := by
  induction vals generalizing clicked with
  | nil => exact ⟨sized, fun entry => by simp⟩
  | cons val vals ih =>
      obtain ⟨length, checked⟩ := ih ((checkEntry_length val).trans sized)
      refine ⟨length, fun entry => ?_⟩
      rw [List.foldl_cons, checked, mem_checkEntry_iff sized, List.map_cons, List.mem_cons]
      tauto

theorem checkedValues_subset : ∀ entry ∈ checkedValues entryValues clicked, entry ∈ entryValues := by
  intro entry member
  obtain ⟨index, listed, -⟩ := mem_checkedValues_iff.mp member
  exact List.mem_of_getElem? listed

theorem shows_iff (distinct : entryValues.Nodup) (vals : List Bytes)
    (sized : clicked.length = entryValues.length) :
    checkedValues entryValues (vals.foldl (checkEntry entryValues) clicked) =
        entryValues.filter (· ∈ vals.map trim) ↔
      ∀ entry ∈ checkedValues entryValues clicked, entry ∈ vals.map trim := by
  obtain ⟨length, checked⟩ := foldl_checkEntry vals sized
  rw [checkedValues_eq_filter distinct length]
  constructor
  · intro same entry member
    have shown : entry ∈ entryValues.filter (· ∈ vals.map trim) := by
      rw [← same, List.mem_filter, decide_eq_true_iff]
      exact ⟨checkedValues_subset entry member, (checked entry).mpr (.inl member)⟩
    simpa using (List.mem_filter.mp shown).2
  · intro stored
    refine List.filter_congr fun entry listed => ?_
    rw [decide_eq_decide, checked]
    constructor
    · rintro (member | ⟨-, member⟩)
      · exact stored entry member
      · exact member
    · exact fun member => .inr ⟨listed, member⟩

theorem sized_step {label : Label} (sized : preference.clicked.length = entryValues.length)
    (taken : step entryValues preference label = some next) :
    next.clicked.length = entryValues.length := by
  cases label with
  | showDialog =>
      rw [step] at taken
      split at taken
      · cases taken
      · obtain rfl := Option.some.inj taken
        exact (foldl_checkEntry _ sized).1
  | click which val =>
      rw [step] at taken
      split at taken
      · obtain rfl := Option.some.inj taken
        rw [List.length_set, sized]
      · cases taken
  | dialogClosed positiveResult =>
      rw [step] at taken
      split at taken
      · split at taken
        · obtain rfl := Option.some.inj taken
          exact sized
        · obtain rfl := Option.some.inj taken
          exact sized
      · cases taken
  | setValue value =>
      obtain rfl := Option.some.inj taken
      exact sized

theorem serves_step_iff (listed : Listed entryValues) (label : Label)
    (sized : preference.clicked.length = entryValues.length) :
    (∀ next, step entryValues preference label = some next →
      Serves entryValues preference label next) ↔ Settled entryValues preference label := by
  cases label with
  | showDialog =>
      cases closed : preference.showing with
      | true => simp [step, Settled, closed]
      | false =>
          simp only [step, closed, Bool.false_eq_true, if_false, Option.some.injEq, forall_eq',
            Serves, Settled, forall_const]
          exact shows_iff listed.distinct (storedValues preference.value) sized
  | click which val => exact iff_of_true (fun _ _ => trivial) trivial
  | dialogClosed positiveResult =>
      cases opened : preference.showing with
      | false => cases positiveResult <;> simp [step, Settled, opened]
      | true =>
          cases positiveResult with
          | false =>
              simp only [step, opened, if_true, Bool.false_eq_true, if_false, Option.some.injEq,
                forall_eq', Serves, Settled]
          | true =>
              simp only [step, opened, if_true, Option.some.injEq, forall_eq', Serves, Settled,
                forall_const, Option.bind_some, checkedText_eq]
              refine storable_iff fun value member => ?_
              exact listed.unseparated value (checkedValues_subset value member)
  | setValue value => exact iff_of_true (fun _ _ => trivial) trivial

end

theorem selection_served_iff {entryValues : List Bytes} (listed : Listed entryValues)
    (value : Option Bytes) (labels : List Label) :
    (∀ taken label rest preference next, labels = taken ++ label :: rest →
      run (step entryValues) taken (create entryValues value) = some preference →
      step entryValues preference label = some next → Serves entryValues preference label next) ↔
      Along (step entryValues) (Settled entryValues) labels (create entryValues value) := by
  have sized (taken : List Label) (preference : Preference)
      (ran : run (step entryValues) taken (create entryValues value) = some preference) :
      preference.clicked.length = entryValues.length :=
    run_invariant (·.clicked.length = entryValues.length)
      (fun _ _ _ before stepped => sized_step before stepped) List.length_replicate ran
  rw [along_iff_at]
  constructor
  · intro serves taken label rest preference split ran
    refine (serves_step_iff listed label (sized taken preference ran)).mp fun next stepped => ?_
    exact serves taken label rest preference next split ran stepped
  · intro settled taken label rest preference next split ran stepped
    refine (serves_step_iff listed label (sized taken preference ran)).mpr ?_ next stepped
    exact settled taken label rest preference split ran

instance (entryValues : List Bytes) (preference : Preference) :
    DecidablePred (Settled entryValues preference)
  | .showDialog => inferInstanceAs (Decidable (_ → ∀ entry ∈ _, _))
  | .click _ _ => .isTrue trivial
  | .dialogClosed true => inferInstanceAs (Decidable (_ → _ ∧ ∀ value ∈ List.dropLast _, _))
  | .dialogClosed false => .isTrue trivial
  | .setValue _ => .isTrue trivial

def twoNetworks : List Bytes := [ascii "home", ascii "work"]

theorem twoNetworks_listed : Listed twoNetworks where
  distinct := by decide +kernel
  unseparated := by decide +kernel
  trimmed := by decide +kernel

def chosenAndReopened : List Label :=
  [.showDialog, .click 1 true, .dialogClosed true, .showDialog, .dialogClosed false]

theorem chosen_network_served :
    Listed twoNetworks ∧
      ∀ taken label rest preference next, chosenAndReopened = taken ++ label :: rest →
        run (step twoNetworks) taken (create twoNetworks (some [])) = some preference →
        step twoNetworks preference label = some next →
        Serves twoNetworks preference label next := by
  have settled : Along (step twoNetworks) (Settled twoNetworks) chosenAndReopened
      (create twoNetworks (some [])) := by decide +kernel
  exact ⟨twoNetworks_listed,
    (selection_served_iff twoNetworks_listed (some []) chosenAndReopened).mpr settled⟩

/-- A network is checked, the dialog cancelled and opened again. -/
theorem cancelled_network_shown :
    Listed twoNetworks ∧ ∃ preference next,
      run (step twoNetworks) [.showDialog, .click 0 true, .dialogClosed false]
        (create twoNetworks (some [])) = some preference ∧
      step twoNetworks preference .showDialog = some next ∧
      ¬Serves twoNetworks preference .showDialog next := by
  refine ⟨twoNetworks_listed, ⟨[true, false], some [], false⟩, ⟨[true, false], some [], true⟩,
    by decide +kernel, by decide +kernel, ?_⟩
  have shown : checkedValues twoNetworks [true, false] ≠
      twoNetworks.filter (· ∈ (storedValues (some [])).map trim) := by decide +kernel
  exact shown

end ProxySet.Droid.MultiSelect
