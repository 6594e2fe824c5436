import ProxySet.Droid.Settings
import ProxySet.Lib.StepRun

/-!
The main screen of ProxyDroid with its list of profiles.  The list is kept in two strings,
the numbers and the names, with a bar between any two parts; a change of the current
profile is noticed by the screen itself, on the way out of the commit.
-/

namespace ProxySet.Droid

/-! ### The screen -/

structure Strings where
  profileDefault : Bytes
  profileNew : Bytes
  profileBase : Bytes
  default_ne_nil : profileDefault ≠ []
  new_ne_nil : profileNew ≠ []
  default_noBar : 124 ∉ profileDefault
  new_noBar : 124 ∉ profileNew
  base_noBar : 124 ∉ profileBase

def Strings.english : Strings where
  profileDefault := ascii "Profile 1"
  profileNew := ascii "New Profile"
  profileBase := ascii "Profile"
  default_ne_nil := by decide
  new_ne_nil := by decide
  default_noBar := by decide
  new_noBar := by decide
  base_noBar := by decide

def barred (parts : List Bytes) : Bytes :=
  parts.flatMap fun part => part ++ ascii "|"

def defaultName (strings : Strings) (profile : Bytes) : Bytes :=
  strings.profileBase ++ ascii " " ++ profile

def getProfileName (strings : Strings) (settings : Settings) (profile : Bytes) : Bytes :=
  settings.getString (.named profile) (defaultName strings profile)

/-- The activity: the preferences, its current profile and its `mProfile`. -/
structure Screen where
  settings : Settings
  profile : Bytes
  mProfile : Profile

namespace Screen

open StepRun

variable (strings : Strings) (json : Json)

/-- What `proxydroid_preference.xml` and `onCreate` store on the first start. -/
def firstSettings : Settings :=
  Settings.empty
    |>.putBoolean .isPAC false
    |>.putString .port (ascii "3128")
    |>.putString .proxyType (ascii "http")
    |>.putString .ssid []
    |>.putBoolean .isAuth false
    |>.putBoolean .isAutoSetProxy true
    |>.putBoolean .isBypassApps false
    |>.putString .profileValues (ascii "1|0")
    |>.putString .profileEntries (strings.profileDefault ++ ascii "|" ++ strings.profileNew)
    |>.putString .profile (ascii "1")

def firstStart : Screen where
  settings := firstSettings strings
  profile := ascii "1"
  mProfile := Profile.fresh

def nextProfile (current : Profile) (settings : Settings) (profile : Bytes) : Profile :=
  let profileString := settings.getString (.saved profile) []
  if profileString = [] then
    { current.init with name := getProfileName strings settings profile }
  else current.decodeJson json profileString

/-- The widgets write what `setProfile` writes in the end. -/
def onProfileChange (screen : Screen) (oldProfileName : Bytes) : Screen :=
  let current := screen.mProfile.getProfile screen.settings
  let settings := screen.settings.putString (.saved oldProfileName) (current.text json)
  let mProfile := nextProfile strings json current settings screen.profile
  { screen with settings := mProfile.setProfile settings, mProfile := mProfile }

def profileValues (screen : Screen) : List Bytes :=
  splitList (screen.settings.getString .profileValues [])

def profileEntries (screen : Screen) : List Bytes :=
  splitList (screen.settings.getString .profileEntries [])

def switched (screen : Screen) : Screen :=
  let profileString := screen.settings.getString .profile []
  onProfileChange strings json { screen with profile := profileString } screen.profile

def lastNumber (screen : Screen) : Option Int :=
  if 2 ≤ screen.profileValues.length then
    (screen.profileValues[screen.profileValues.length - 2]?).bind integerValueOf
  else none

def putList (settings : Settings) (entries values : List Bytes) : Settings :=
  settings
    |>.putString .profileEntries (barred entries ++ strings.profileNew)
    |>.putString .profileValues (barred values ++ ascii "0")

/-- The branch for the entry `0`; an index out of range or a text that is no number throws. -/
def created (screen : Screen) : Option Screen :=
  match screen.lastNumber with
  | none => none
  | some last =>
      if screen.profileEntries.length < screen.profileValues.length - 1 then none
      else
        let newProfileValue := integerText (int32 (last + 1))
        let count := screen.profileValues.length - 1
        let settings := putList strings screen.settings
          (screen.profileEntries.take count ++
            [getProfileName strings screen.settings newProfileValue])
          (screen.profileValues.take count ++ [newProfileValue])
        let next := { screen with settings := settings.putString .profile newProfileValue }
        if newProfileValue = ascii "0" then some next else some (switched strings json next)

/-- A new value of the key `profile`; the listener hears of it if it is another. -/
def putProfile (screen : Screen) (profile : Bytes) : Option Screen :=
  let next := { screen with settings := screen.settings.putString .profile profile }
  if screen.settings.getString .profile [] = profile then some next
  else if profile = ascii "0" then created strings json next
  else some (switched strings json next)

def renamedEntries (profile name : Bytes) : List Bytes → List Bytes → Option (List Bytes)
  | [], _ => some []
  | value :: values, entries =>
      match if value = profile then some name else entries.head?,
          renamedEntries profile name values entries.tail with
      | some entry, some rest => some (entry :: rest)
      | _, _ => none

def rename (screen : Screen) (text : Bytes) : Option Screen :=
  let name := text.filter (· ≠ 124)
  if name = [] then some screen
  else
    let settings := screen.settings.putString (.named screen.profile) name
    let values := screen.profileValues.dropLast
    (renamedEntries screen.profile (getProfileName strings settings screen.profile) values
      screen.profileEntries).map fun entries =>
        { screen with settings := putList strings settings entries values }

def keptParts (profile : Bytes) : List Bytes → List Bytes → Option (List (Bytes × Bytes))
  | [], _ => some []
  | value :: values, entries =>
      if profile = value then keptParts profile values entries.tail
      else
        match entries.head?, keptParts profile values entries.tail with
        | some entry, some rest => some ((value, entry) :: rest)
        | _, _ => none

def delProfile (screen : Screen) : Option Screen :=
  if 2 < screen.profileEntries.length then
    (keptParts screen.profile screen.profileValues.dropLast screen.profileEntries).bind fun kept =>
      let values := kept.map Prod.fst
      let settings := putList strings screen.settings (kept.map Prod.snd) values
      putProfile strings json { screen with settings := settings } (values.getLastD (ascii "1"))
  else some screen

inductive Op where
  /-- An entry of the list, by its place; the last one makes a new profile. -/
  | select (index : Nat)
  | delete
  | rename (text : Bytes)
  | editText (key : TextKey) (value : Bytes)
  | editFlag (key : FlagKey) (value : Bool)

def operate (screen : Screen) : Op → Option Screen
  | .select index =>
      match screen.profileValues[index]? with
      | some profile => putProfile strings json screen profile
      | none => some screen
  | .delete => delProfile strings json screen
  | .rename text => rename strings screen text
  | .editText key value =>
      if key.isField then some { screen with settings := screen.settings.putString key value }
      else some screen
  | .editFlag key value =>
      some { screen with settings := screen.settings.putBoolean key value }

def step (screen? : Option Screen) (op : Op) : Option (Option Screen) :=
  some (screen?.bind fun screen => operate strings json screen op)

end Screen

end ProxySet.Droid
