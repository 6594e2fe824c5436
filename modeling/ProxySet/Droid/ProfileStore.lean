import ProxySet.Droid.ProfileList
import ProxySet.Droid.JsonText

/-!
The settings of single profiles over the histories of the main screen: what a new profile
starts with, and what a switch brings back.
-/

namespace ProxySet.Droid.Screen

open StepRun

variable {strings : Strings} {json : Json} {screen next : Screen} {rows : List (Nat × Bytes)}

/-! ### What an operation does to the texts of profiles -/

structure Alike (screen other : Screen) : Prop where
  profile : other.profile = screen.profile
  mProfile : other.mProfile = screen.mProfile
  fields : ∀ key, TextKey.isField key = true →
    other.settings.strings key = screen.settings.strings key
  flags : other.settings.booleans = screen.settings.booleans
  saved : ∀ number, other.settings.strings (.saved number) = screen.settings.strings (.saved number)

theorem Alike.refl (screen : Screen) : Alike screen screen :=
  ⟨rfl, rfl, fun _ _ => rfl, rfl, fun _ => rfl⟩

theorem Alike.putString {other : Screen} (alike : Alike screen other) (key : TextKey)
    (value : Bytes) (notField : key.isField = false) (notSaved : ∀ number, key ≠ .saved number) :
    Alike screen { other with settings := other.settings.putString key value } := by
  refine ⟨alike.profile, alike.mProfile, ?_, alike.flags, ?_⟩
  · intro field isField
    have apart : field ≠ key := by
      rintro rfl
      rw [notField] at isField
      cases isField
    rw [Settings.strings_putString, if_neg apart]
    exact alike.fields field isField
  · intro number
    rw [Settings.strings_putString, if_neg (notSaved number).symm]
    exact alike.saved number

theorem Alike.putList {other : Screen} (alike : Alike screen other)
    (entries values : List Bytes) :
    Alike screen { other with settings := putList strings other.settings entries values } :=
  (alike.putString .profileEntries _ rfl (by simp)).putString .profileValues _ rfl (by simp)

theorem Alike.getProfile {other : Screen} (alike : Alike screen other) :
    other.mProfile.getProfile other.settings = screen.mProfile.getProfile screen.settings := by
  have texts : ∀ key, TextKey.isField key = true → ∀ defValue,
      other.settings.getString key defValue = screen.settings.getString key defValue := by
    intro key isField defValue
    rw [Settings.getString, alike.fields key isField, Settings.getString]
  have flags : ∀ key defValue,
      other.settings.getBoolean key defValue = screen.settings.getBoolean key defValue := by
    intro key defValue
    rw [Settings.getBoolean, alike.flags, Settings.getBoolean]
  simp only [Profile.getProfile, alike.mProfile, flags, texts .profileName rfl, texts .host rfl,
    texts .port rfl, texts .bypassAddrs rfl, texts .proxyed rfl, texts .user rfl,
    texts .password rfl, texts .domain rfl, texts .proxyType rfl, texts .certificate rfl,
    texts .ssid rfl]

theorem created_cases {other : Screen} (alike : Alike screen other)
    (made : created strings json other = some next) :
    Alike screen next ∨ ∃ before, Alike screen before ∧ next = switched strings json before := by
  unfold created at made
  split at made
  · cases made
  · split at made
    · cases made
    · dsimp only at made
      split at made
      · obtain rfl := Option.some.inj made
        exact .inl ((alike.putList _ _).putString .profile _ rfl (by simp))
      · refine .inr ⟨_, ?_, (Option.some.inj made).symm⟩
        exact (alike.putList _ _).putString .profile _ rfl (by simp)

theorem putProfile_cases {other : Screen} (alike : Alike screen other) {profile : Bytes}
    (put : putProfile strings json other profile = some next) :
    Alike screen next ∨ ∃ before, Alike screen before ∧ next = switched strings json before := by
  have stored := alike.putString .profile profile rfl (by simp)
  unfold putProfile at put
  split at put
  · exact .inl (Option.some.inj put ▸ stored)
  · split at put
    · exact created_cases stored put
    · exact .inr ⟨_, stored, (Option.some.inj put).symm⟩

/-- The profile stays on the screen and no text changes, or another one comes by a switch. -/
theorem operate_cases {op : Op} (done : operate strings json screen op = some next) :
    (next.profile = screen.profile ∧ ∀ number,
      next.settings.strings (.saved number) = screen.settings.strings (.saved number)) ∨
    ∃ before, Alike screen before ∧ next = switched strings json before := by
  have listed : ∀ {other : Screen}, (Alike screen other ∨
      ∃ before, Alike screen before ∧ other = switched strings json before) →
      (other.profile = screen.profile ∧ ∀ number,
        other.settings.strings (.saved number) = screen.settings.strings (.saved number)) ∨
      ∃ before, Alike screen before ∧ other = switched strings json before :=
    fun either => either.imp_left fun alike => ⟨alike.profile, alike.saved⟩
  cases op with
  | select index =>
      rw [operate] at done
      split at done
      · exact listed (putProfile_cases (Alike.refl screen) done)
      · exact .inl (Option.some.inj done ▸ ⟨rfl, fun _ => rfl⟩)
  | delete =>
      rw [operate, delProfile] at done
      split at done
      · obtain ⟨kept, -, put⟩ := Option.bind_eq_some_iff.mp done
        exact listed (putProfile_cases ((Alike.refl screen).putList _ _) put)
      · exact .inl (Option.some.inj done ▸ ⟨rfl, fun _ => rfl⟩)
  | rename text =>
      rw [operate, rename] at done
      split at done
      · exact .inl (Option.some.inj done ▸ ⟨rfl, fun _ => rfl⟩)
      · obtain ⟨entries, -, rfl⟩ := Option.map_eq_some_iff.mp done
        refine listed (.inl (Alike.putList (Alike.putString (Alike.refl screen)
          (.named screen.profile) _ rfl ?_) _ _))
        simp
  | editText key value =>
      rw [operate] at done
      split at done
      case isTrue field =>
        obtain rfl := Option.some.inj done
        refine .inl ⟨rfl, fun number => ?_⟩
        rw [Settings.strings_putString, if_neg]
        rintro rfl
        cases field
      case isFalse => exact .inl (Option.some.inj done ▸ ⟨rfl, fun _ => rfl⟩)
  | editFlag key value => exact .inl (Option.some.inj done ▸ ⟨rfl, fun _ => rfl⟩)

theorem operate_saved {op : Op} (done : operate strings json screen op = some next)
    {number : Bytes} (other : number ≠ screen.profile) :
    next.settings.strings (.saved number) = screen.settings.strings (.saved number) := by
  rcases operate_cases done with ⟨-, kept⟩ | ⟨before, alike, rfl⟩
  · exact kept number
  · rw [switched_strings rfl, if_neg, alike.saved]
    rw [alike.profile]
    exact fun same => other (TextKey.saved.inj same)

theorem operate_left {op : Op} (done : operate strings json screen op = some next)
    (left : next.profile ≠ screen.profile) :
    next.settings.strings (.saved screen.profile) =
      some ((screen.mProfile.getProfile screen.settings).text json) := by
  rcases operate_cases done with ⟨stays, -⟩ | ⟨before, alike, rfl⟩
  · exact absurd stays left
  · rw [switched_strings rfl, alike.profile, if_pos rfl, alike.getProfile]

/-- Every text that is kept for a profile was written by `toString`. -/
def Stored (json : Json) (screen : Screen) : Prop :=
  ∀ number text, screen.settings.strings (.saved number) = some text →
    ∃ profile : Profile, profile.Whole ∧ text = profile.text json

theorem Alike.stored {other : Screen} (alike : Alike screen other) (stored : Stored json screen) :
    Stored json other := by
  intro number text here
  rw [alike.saved] at here
  exact stored number text here

theorem stored_switched (stored : Stored json screen) :
    Stored json (switched strings json screen) := by
  intro number text here
  rw [switched_strings rfl] at here
  split at here
  · exact ⟨_, Profile.whole_getProfile _ _, (Option.some.inj here).symm⟩
  · exact stored number text here

theorem stored_operate (stored : Stored json screen) {op : Op}
    (done : operate strings json screen op = some next) : Stored json next := by
  rcases operate_cases done with ⟨-, kept⟩ | ⟨before, alike, rfl⟩
  · intro number text here
    rw [kept] at here
    exact stored number text here
  · exact stored_switched (alike.stored stored)

theorem stored_firstStart (strings : Strings) (json : Json) : Stored json (firstStart strings) := by
  intro number text here
  cases here

/-! ### What a switch brings -/

theorem nextProfile_saved {current profile : Profile} {settings : Settings} {number : Bytes}
    (lawful : json.Lawful) (whole : profile.Whole)
    (here : settings.strings (.saved number) = some (profile.text json)) :
    nextProfile strings json current settings number = profile := by
  have text : settings.getString (.saved number) [] = profile.text json := by
    rw [Settings.getString, here, Option.getD_some]
  have spoken : profile.text json ≠ [] := lawful.print_ne_nil _
  simp only [nextProfile, text, if_neg spoken]
  exact Profile.decodeJson_text lawful current whole.isInt

theorem nextProfile_new {current : Profile} {settings : Settings} {number : Bytes}
    (missing : settings.strings (.saved number) = none) :
    nextProfile strings json current settings number =
      { current.init with name := getProfileName strings settings number } := by
  have text : settings.getString (.saved number) [] = [] := by
    rw [Settings.getString, missing, Option.getD_none]
  simp only [nextProfile, text, if_true]

theorem switched_reads {profile : Profile} (whole : profile.Whole)
    (brings : (switched strings json screen).mProfile = profile) (before : Profile) :
    before.getProfile (switched strings json screen).settings = profile := by
  have written : (switched strings json screen).settings =
      (switched strings json screen).mProfile.setProfile (screen.settings.putString
        (.saved screen.profile) ((screen.mProfile.getProfile screen.settings).text json)) := rfl
  rw [written, brings]
  exact Profile.getProfile_setProfile before profile _ whole.named whole.isInt

/-! ### Leaving a profile and coming back -/

def working (settings : Settings) : Profile :=
  { Profile.fresh.getProfile settings with name := settings.getString .profileName [] }

/-- The profile has a name, and its port is an `int`. -/
structure Proper (settings : Settings) : Prop where
  named : settings.getString .profileName [] ≠ []
  port : integerValueOf (settings.getString .port []) ≠ none

theorem getProfile_working {settings : Settings} (before : Profile)
    (named : settings.getString .profileName [] ≠ []) :
    before.getProfile settings = working settings := by
  simp only [working, Profile.getProfile, if_neg named]

theorem operate_enters {profile : Profile} (lawful : json.Lawful) (whole : profile.Whole) {op : Op}
    (done : operate strings json screen op = some next) (enters : next.profile ≠ screen.profile)
    (saved : screen.settings.strings (.saved next.profile) = some (profile.text json)) :
    working next.settings = profile ∧
      next.settings.getString .port [] = integerText profile.port := by
  rcases operate_cases done with ⟨stays, -⟩ | ⟨before, alike, rfl⟩
  · exact absurd stays enters
  · have apart : TextKey.saved (switched strings json before).profile ≠ .saved before.profile := by
      rw [alike.profile]
      exact fun same => enters (TextKey.saved.inj same)
    have brings : (switched strings json before).mProfile = profile := by
      refine nextProfile_saved lawful whole ((if_neg apart).trans ?_)
      rw [← saved, ← alike.saved]
      rfl
    have reads := switched_reads whole brings Profile.fresh
    have name : (switched strings json before).settings.getString .profileName [] =
        profile.name := by
      rw [← brings]
      rfl
    constructor
    · rw [← getProfile_working Profile.fresh (name ▸ whole.named), reads]
    · rw [← brings]
      rfl

theorem run_saved {number text : Bytes} {ops : List Op} {there : Screen}
    (elsewhere : Along (step strings json)
      (fun screen? _ => ∀ screen ∈ screen?, screen.profile ≠ number) ops (some screen))
    (ran : run (step strings json) ops (some screen) = some (some there))
    (saved : screen.settings.strings (.saved number) = some text) :
    there.settings.strings (.saved number) = some text := by
  refine run_invariant_along
    (fun screen? => ∀ screen ∈ screen?, screen.settings.strings (.saved number) = some text)
    ?_ ?_ elsewhere ran there rfl
  · intro screen? op next held other taken after here
    obtain rfl := Option.some.inj taken
    obtain ⟨before, rfl, done⟩ := Option.bind_eq_some_iff.mp here
    rw [operate_saved done (other before rfl).symm]
    exact held before rfl
  · intro here same
    obtain rfl := Option.some.inj same
    exact saved

theorem return_restores (strings : Strings) (json : Json) (lawful : json.Lawful)
    (left after there : Screen) (leave : Op) (ops : List Op) (proper : Proper left.settings)
    (leaves : operate strings json left leave = some after)
    (gone : after.profile ≠ left.profile)
    (elsewhere : Along (step strings json)
      (fun screen? _ => ∀ screen ∈ screen?, screen.profile ≠ left.profile) ops (some after))
    (ran : run (step strings json) ops (some after) = some (some there))
    (still : there.profile ≠ left.profile) :
    (∀ enter back, operate strings json there enter = some back → back.profile = left.profile →
      working back.settings = working left.settings ∧
        back.settings.getString .port [] = integerText (working left.settings).port) ∧
    ∀ index, there.profileValues[index]? = some left.profile → left.profile ≠ ascii "0" →
      there.settings.getString .profile [] = there.profile →
      ∃ back, operate strings json there (.select index) = some back ∧
        back.profile = left.profile := by
  have text := operate_left leaves gone
  rw [getProfile_working left.mProfile proper.named] at text
  have whole : (working left.settings).Whole :=
    ⟨proper.named, Profile.isInt_getProfile Profile.fresh left.settings⟩
  have saved := run_saved elsewhere ran text
  constructor
  · intro enter back enters here
    rw [← here] at saved
    exact operate_enters lawful whole enters (here ▸ still.symm) saved
  · intro index listed notZero shown
    have other : there.settings.getString .profile [] ≠ left.profile := shown ▸ still
    simp only [operate, listed, putProfile, if_neg other, if_neg notZero]
    exact ⟨_, rfl, by rw [switched_profile]; simp⟩

def homeScreen : Screen :=
  { firstStart .english with
    settings := (firstSettings .english)
      |>.putString .profileName (ascii "Home")
      |>.putString .host (ascii "10.0.0.1") }

theorem return_restores_home :
    ∃ left after back : Screen, operate .english .simple left (.select 1) = some after ∧
      operate .english .simple after (.select 0) = some back ∧
      back.profile = left.profile ∧ working back.settings = working left.settings := by
  have created : (operate .english .simple homeScreen (.select 1)).any (fun after =>
      decide (after.profile ≠ homeScreen.profile ∧
        after.profileValues[0]? = some homeScreen.profile ∧
        after.settings.getString .profile [] = after.profile)) = true := by decide +kernel
  obtain ⟨after, leaves, known⟩ := (Option.any_eq_true _ _).mp created
  obtain ⟨gone, listed, shown⟩ := of_decide_eq_true known
  obtain ⟨restores, enters⟩ := return_restores .english .simple Json.simple_lawful homeScreen
    after after (.select 1) [] ⟨by decide, by decide⟩ leaves gone trivial rfl gone
  obtain ⟨back, entered, here⟩ := enters 0 listed (by decide) shown
  exact ⟨homeScreen, after, back, leaves, entered, here, (restores _ back entered here).1⟩

/-! ### New profiles -/

/-- A fresh profile on empty preferences, with the default name for its number. -/
def blankProfile (strings : Strings) (number : Bytes) : Profile :=
  { Profile.fresh.getProfile Settings.empty with name := defaultName strings number }

theorem blankProfile_eq (strings : Strings) (number : Bytes) :
    blankProfile strings number = { Profile.fresh with name := defaultName strings number } := by
  have port : integerValueOf [] = none := by decide
  simp [blankProfile, Profile.getProfile, Profile.fresh, Settings.empty, Settings.getString,
    Settings.getBoolean, port]

theorem defaultName_ne_nil (strings : Strings) (number : Bytes) :
    defaultName strings number ≠ [] := by
  have space : ascii " " = [32] := by decide
  simp [defaultName, space]

theorem whole_blankProfile (strings : Strings) (number : Bytes) :
    (blankProfile strings number).Whole := by
  rw [blankProfile_eq]
  have isInt : IsInt 3128 := ⟨by decide, by decide⟩
  exact ⟨defaultName_ne_nil strings number, isInt⟩

structure Blank (strings : Strings) (screen : Screen) : Prop where
  settings : Profile.fresh.getProfile screen.settings = blankProfile strings screen.profile
  mProfile : screen.mProfile = blankProfile strings screen.profile
  name : getProfileName strings screen.settings screen.profile =
    defaultName strings screen.profile
  entry : screen.profileEntries[screen.profileEntries.length - 2]? =
    some (defaultName strings screen.profile)

/-- Nothing is left of an earlier profile with the number, and where there has been none the
current profile has the two flags unset that `init` does not reset. -/
structure Untouched (strings : Strings) (json : Json) (settings : Settings) (number : Bytes) :
    Prop where
  unnamed : ∀ name, settings.strings (.named number) = some name →
    name = defaultName strings number
  unsaved : ∀ text, settings.strings (.saved number) = some text →
    text = (blankProfile strings number).text json
  unset : settings.strings (.saved number) = none →
    settings.getBoolean .isAutoSetProxy false = false ∧
      settings.getBoolean .isBypassApps false = false

theorem getProfileName_default_iff {settings : Settings} {number : Bytes} :
    getProfileName strings settings number = defaultName strings number ↔
      ∀ name, settings.strings (.named number) = some name →
        name = defaultName strings number := by
  rw [getProfileName, Settings.getString]
  cases settings.strings (.named number) with
  | none => simp
  | some name => simp

theorem init_blank_iff {current : Profile} {name number : Bytes} :
    { current.init with name := name } = blankProfile strings number ↔
      name = defaultName strings number ∧ current.isAutoSetProxy = false ∧
        current.isBypassApps = false := by
  rw [blankProfile_eq]
  simp [Profile.init, Profile.fresh]

/-- What the screen brings for a number that is new in the list. -/
theorem nextProfile_blank_iff {current : Profile} {settings : Settings} {number : Bytes}
    (lawful : json.Lawful)
    (stored : ∀ text, settings.strings (.saved number) = some text →
      ∃ profile : Profile, profile.Whole ∧ text = profile.text json)
    (read : current.isAutoSetProxy = settings.getBoolean .isAutoSetProxy false ∧
      current.isBypassApps = settings.getBoolean .isBypassApps false) :
    nextProfile strings json current settings number = blankProfile strings number ∧
        getProfileName strings settings number = defaultName strings number ↔
      Untouched strings json settings number := by
  cases saved : settings.strings (.saved number) with
  | none =>
      rw [nextProfile_new saved, init_blank_iff, read.1, read.2, getProfileName_default_iff]
      constructor
      · rintro ⟨⟨-, unset⟩, unnamed⟩
        refine ⟨unnamed, ?_, fun _ => unset⟩
        intro text same
        rw [saved] at same
        cases same
      · intro untouched
        exact ⟨⟨untouched.unnamed, untouched.unset saved⟩, untouched.unnamed⟩
  | some text =>
      obtain ⟨profile, whole, rfl⟩ := stored text saved
      rw [nextProfile_saved lawful whole saved, getProfileName_default_iff]
      constructor
      · rintro ⟨rfl, unnamed⟩
        refine ⟨unnamed, ?_, ?_⟩
        · intro text same
          rw [saved] at same
          exact (Option.some.inj same).symm
        · intro missing
          rw [saved] at missing
          cases missing
      · intro untouched
        refine ⟨?_, untouched.unnamed⟩
        exact Profile.text_inj lawful whole.isInt (whole_blankProfile strings number).isInt
          (untouched.unsaved _ saved)

theorem Untouched.congr {settings changed : Settings} {number : Bytes}
    (untouched : Untouched strings json settings number)
    (named : changed.strings (.named number) = settings.strings (.named number))
    (saved : changed.strings (.saved number) = settings.strings (.saved number))
    (flags : changed.booleans = settings.booleans) :
    Untouched strings json changed number := by
  refine ⟨named ▸ untouched.unnamed, saved ▸ untouched.unsaved, fun missing => ?_⟩
  rw [Settings.getBoolean, Settings.getBoolean, flags]
  exact untouched.unset (saved ▸ missing)

/-- A step that asks for a new profile ends with a blank one on the screen. -/
def BlankStep (strings : Strings) (json : Json) (screen? : Option Screen) : Op → Prop
  | .select index => ∀ screen ∈ screen?, screen.profileValues[index]? = some (ascii "0") →
      ∃ next, operate strings json screen (.select index) = some next ∧ Blank strings next
  | _ => True

/-- A new profile is asked for when nothing is in the way of its number. -/
def Clean (strings : Strings) (json : Json) (screen? : Option Screen) : Op → Prop
  | .select index => ∀ screen ∈ screen?, screen.profileValues[index]? = some (ascii "0") →
      ∃ last, screen.lastNumber = some last ∧ last < 2 ^ 31 - 1 ∧
        Untouched strings json screen.settings (integerText (last + 1))
  | _ => True

theorem roomy_of_clean {screen? : Option Screen} {op : Op} (clean : Clean strings json screen? op) :
    Roomy screen? op := by
  cases op with
  | select index =>
      intro screen here chosen full
      obtain ⟨last, number, room, -⟩ := clean screen here chosen
      rw [full] at number
      have same := Option.some.inj number
      omega
  | delete => trivial
  | rename text => trivial
  | editText key value => trivial
  | editFlag key value => trivial

theorem switched_blank {number : Bytes} (lawful : json.Lawful) (stored : Stored json screen)
    (profile : screen.settings.getString .profile [] = number) (other : screen.profile ≠ number)
    (untouched : Untouched strings json screen.settings number) :
    (switched strings json screen).mProfile = blankProfile strings number ∧
      getProfileName strings (switched strings json screen).settings number =
        defaultName strings number := by
  have apart : TextKey.saved number ≠ .saved screen.profile :=
    fun same => other (TextKey.saved.inj same).symm
  have kept : (screen.settings.putString (.saved screen.profile)
      ((screen.mProfile.getProfile screen.settings).text json)).strings (.saved number) =
        screen.settings.strings (.saved number) := by
    rw [Settings.strings_putString, if_neg apart]
  have brings : nextProfile strings json (screen.mProfile.getProfile screen.settings)
      (screen.settings.putString (.saved screen.profile)
        ((screen.mProfile.getProfile screen.settings).text json)) number =
          blankProfile strings number ∧ _ :=
    (nextProfile_blank_iff lawful (kept ▸ stored number) ⟨rfl, rfl⟩).mpr
      (untouched.congr rfl kept rfl)
  constructor
  · rw [← brings.1, ← profile]
    rfl
  · rw [getProfileName_default_iff]
    intro name here
    rw [switched_strings rfl, if_neg (by simp)] at here
    exact untouched.unnamed name here

theorem blank_switched {number : Nat} {name : Bytes} (lawful : json.Lawful)
    (stored : Stored json screen)
    (listed : Rows strings screen.settings (rows ++ [(number, name)]))
    (profile : screen.settings.getString .profile [] = decimal number)
    (other : screen.profile ≠ decimal number)
    (untouched : Untouched strings json screen.settings (decimal number))
    (named : name = defaultName strings (decimal number)) :
    Blank strings (switched strings json screen) := by
  obtain ⟨brings, called⟩ := switched_blank lawful stored profile other untouched
  have lists : Lists strings (switched strings json screen) (rows ++ [(number, name)]) :=
    lists_switched listed profile (by simp)
  have shown : (switched strings json screen).profile = decimal number := profile
  constructor
  · rw [shown]
    exact switched_reads (whole_blankProfile strings _) brings Profile.fresh
  · rw [shown, brings]
  · rw [shown, called]
  · rw [shown, entries_of_rows lists.toRows, ← named]
    simp

theorem created_blank (lawful : json.Lawful) (screen : Screen) {front : List (Nat × Bytes)}
    {last : Nat × Bytes} (listed : Rows strings screen.settings (front ++ [last]))
    (stored : Stored json screen) (titled : Titled screen) (room : last.1 + 1 < 2 ^ 31)
    (current : ∃ row ∈ front ++ [last], screen.profile = decimal row.1)
    (untouched : Untouched strings json screen.settings (decimal (last.1 + 1))) :
    ∃ next, created strings json screen = some next ∧ Blank strings next := by
  obtain ⟨row, member, shown⟩ := current
  have less := rows_last_largest listed row member
  have other : screen.profile ≠ decimal (last.1 + 1) := by
    rw [shown]
    intro same
    have equal := decimal_inj same
    omega
  have fits := getProfileName_fits strings titled (decimal_noBar (last.1 + 1))
  have rowsNext := rows_extended listed (rows_last_largest listed) room rfl fits
  have storedNext : Stored json { screen with
      settings := extended strings screen.settings (front ++ [last]) (decimal (last.1 + 1)) } :=
    (((Alike.refl screen).putList _ _).putString .profile _ rfl (by simp)).stored stored
  rw [created_of_rows listed _ (next_text room), if_neg (decimal_ne_zero (Nat.succ_pos _))]
  refine ⟨_, rfl, blank_switched lawful storedNext rowsNext (by simp [extended]) other ?_ ?_⟩
  · exact untouched.congr rfl rfl rfl
  · exact getProfileName_default_iff.mpr untouched.unnamed

theorem blankStep_of_clean (lawful : json.Lawful) (lists : Lists strings screen rows)
    (titled : Titled screen) (stored : Stored json screen) {op : Op}
    (clean : Clean strings json (some screen) op) : BlankStep strings json (some screen) op := by
  cases op with
  | delete => trivial
  | rename text => trivial
  | editText key value => trivial
  | editFlag key value => trivial
  | select index =>
      intro here same chosen
      obtain rfl := Option.some.inj same
      obtain ⟨number, last, room, untouched⟩ := clean screen rfl chosen
      obtain ⟨front, final, rfl⟩ := exists_last lists.toRows
      rw [lastNumber_of_rows lists.toRows] at last
      obtain rfl := Option.some.inj last
      have text : integerText ((final.1 : Int) + 1) = decimal (final.1 + 1) :=
        integerText_natCast (final.1 + 1)
      obtain ⟨row, member, -, shown⟩ := lists.current
      simp only [operate, chosen]
      rw [putProfile_zero lists]
      refine created_blank lawful _ (lists.carry (by simp) (by simp))
        (((Alike.refl screen).putString .profile _ rfl (by simp)).stored stored)
        (titled_putString titled .profile _ (by simp)) (by omega) ⟨row, member, shown⟩ ?_
      exact (text ▸ untouched).congr rfl rfl rfl

theorem blank_along (strings : Strings) (json : Json) (lawful : json.Lawful) (ops : List Op)
    (clean : Along (step strings json) (Clean strings json) ops (some (firstStart strings))) :
    Along (step strings json) (BlankStep strings json) ops (some (firstStart strings)) := by
  refine along_of_along (fun screen? => Consistent strings screen? ∧
    ∀ screen ∈ screen?, Titled screen ∧ Stored json screen) ?_ ?_ ?_ clean
  · rintro _ op next ⟨⟨screen, rows, rfl, lists⟩, known⟩ allowed taken
    obtain ⟨titled, stored⟩ := known screen rfl
    obtain rfl := Option.some.inj taken
    refine ⟨(consistent_operate_iff lists titled op).mpr (roomy_of_clean allowed), ?_⟩
    intro after done
    exact ⟨titled_operate titled done, stored_operate stored done⟩
  · rintro _ op ⟨⟨screen, rows, rfl, lists⟩, known⟩ allowed
    obtain ⟨titled, stored⟩ := known screen rfl
    exact blankStep_of_clean lawful lists titled stored allowed
  · refine ⟨⟨_, _, rfl, lists_firstStart strings⟩, ?_⟩
    intro screen here
    obtain rfl := Option.some.inj here
    exact ⟨titled_firstStart strings, stored_firstStart strings json⟩

theorem blank_along_unset :
    Along (step .english .simple) (BlankStep .english .simple)
      [.editFlag .isAutoSetProxy false, .select 1] (some (firstStart .english)) := by
  refine blank_along .english .simple Json.simple_lawful _ ⟨trivial, ?_⟩
  intro next taken
  obtain rfl := Option.some.inj taken
  refine ⟨?_, fun _ _ => trivial⟩
  intro screen here _
  obtain rfl := Option.some.inj here
  refine ⟨1, by decide +kernel, by decide, ?_, ?_, ?_⟩
  · intro name given
    cases given
  · intro text given
    cases given
  · exact fun _ => ⟨by decide, by decide⟩

theorem new_profile_leak :
    ¬∀ ops, Along (step .english .simple) (BlankStep .english .simple) ops
      (some (firstStart .english)) := by
  intro blank
  obtain ⟨next, created, now⟩ := (blank [.select 1]).1 (firstStart .english) rfl
    (by decide +kernel)
  have flag : (operate .english .simple (firstStart .english) (.select 1)).any
      (fun screen => screen.mProfile.isAutoSetProxy) = true := by decide +kernel
  rw [created, Option.any_some, now.mProfile, blankProfile_eq] at flag
  cases flag

end ProxySet.Droid.Screen
