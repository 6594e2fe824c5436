import ProxySet.Droid.LaunchPaths
import ProxySet.Droid.ProfileStore

/-!
`ConnectivityBroadcastReceiver`: after a change of the network, the first listed profile
that asks for it is put in the place of the current one.
-/

namespace ProxySet.Droid.AutoConnect

open TextReplace Screen

/-! ### The receiver -/

inductive NetworkState where
  | connecting
  | connected
  | suspended
  | disconnecting
  | disconnected
  | unknown
  deriving DecidableEq

structure NetworkInfo where
  state : NetworkState
  isWifi : Bool

/-- The active network, and the name of the Wi-Fi where there is one. -/
structure Device where
  networkInfo : Option NetworkInfo
  wifiSsid : Option Bytes

def only3g : Bytes := ascii "2G/3G"

def onlyWifi : Bytes := ascii "WIFI"

def wifiAnd3g : Bytes := ascii "WIFI/2G/3G"

def parseStoredValue (value : Bytes) : Option (List Bytes) :=
  if value = [] then none
  else some ((cuts (ascii " , ") value).rdropWhile List.isEmpty)

def unquoted (text : Bytes) : Bytes :=
  text.filter (· ≠ 34)

def onlineSSID (device : Device) (ssid : Bytes) : Option Bytes :=
  match parseStoredValue ssid, device.networkInfo with
  | some ssids, some networkInfo =>
      if networkInfo.isWifi then
        match device.wifiSsid with
        | none => none
        | some current =>
            if current = [] then none
            else ssids.find? fun item =>
              item = wifiAnd3g || item = onlyWifi || item = unquoted current
      else ssids.find? fun item => item = wifiAnd3g || item = only3g
  | _, _ => none

structure Hit where
  profile : Bytes
  mProfile : Profile
  curSSID : Bytes

/-- The loop over the list; one object holds a candidate after the other. -/
def scan (json : Json) (device : Device) (settings : Settings) : Profile → List Bytes → Option Hit
  | _, [] => none
  | mProfile, profile :: profileValues =>
      let candidate := mProfile.decodeJson json (settings.getString (.saved profile) [])
      match onlineSSID device candidate.ssid with
      | some curSSID =>
          if candidate.isAutoConnect then some ⟨profile, candidate, curSSID⟩
          else scan json device settings candidate profileValues
      | none => scan json device settings candidate profileValues

/-- The preferences and the service, with what has been asked of it. -/
structure Phone where
  settings : Settings
  lastSSID : Option Bytes
  isWorking : Bool
  isConnecting : Bool
  stopService : Bool
  startService : Option Launch.Extras

def acts (device : Device) (phone : Phone) : Bool :=
  match device.networkInfo with
  | some networkInfo =>
      networkInfo.state ≠ .connecting && networkInfo.state ≠ .disconnecting &&
        networkInfo.state ≠ .unknown
  | none => phone.isWorking

/-- Whether the last trigger is no longer met; `none` is a return from the whole of it. -/
def outdated (device : Device) (lastSSID : Bytes) : Option Bool :=
  match device.networkInfo with
  | none => some (lastSSID ≠ only3g && lastSSID ≠ wifiAnd3g && lastSSID ≠ onlyWifi)
  | some networkInfo =>
      if networkInfo.state ≠ .connected then none
      else if networkInfo.isWifi then
        some (lastSSID ≠ ascii "-1" && device.wifiSsid.any fun current => unquoted current ≠ lastSSID)
      else some (lastSSID ≠ only3g && lastSSID ≠ wifiAnd3g)

def oldProfile (settings : Settings) : Bytes :=
  settings.getString .profile (ascii "1")

def storeCurrent (json : Json) (settings : Settings) : Settings :=
  settings.putString (.saved (oldProfile settings)) ((Profile.fresh.getProfile settings).text json)

def profileValues (settings : Settings) : List Bytes :=
  splitList (settings.getString .profileValues [])

def findProfile (json : Json) (device : Device) (settings : Settings) : Option Hit :=
  scan json device (storeCurrent json settings) (Profile.fresh.getProfile settings)
    (profileValues settings)

def switchProfile (json : Json) (device : Device) (settings : Settings) : Settings :=
  match findProfile json device settings with
  | some hit => hit.mProfile.setProfile ((storeCurrent json settings).putString .profile hit.profile)
  | none => storeCurrent json settings

def startsProxy (phone : Phone) (curSSID : Bytes) : Phone :=
  if phone.isWorking then phone
  else
    { phone with
      lastSSID := some curSSID
      isConnecting := true
      startService := Launch.receiverOnReceive phone.settings }

/-- What `onReceive` posts. -/
def run (json : Json) (device : Device) (phone : Phone) : Phone :=
  if acts device phone then
    let next := { phone with settings := switchProfile json device phone.settings }
    match outdated device (phone.lastSSID.getD (ascii "-1")) with
    | none => next
    | some stops =>
        let stopped := { next with stopService := phone.stopService || (stops && phone.isWorking) }
        match findProfile json device phone.settings with
        | some hit => startsProxy stopped hit.curSSID
        | none => stopped
  else phone

def onReceive (json : Json) (device : Device) (isConnectivityAction : Bool) (phone : Phone) :
    Phone :=
  if phone.isConnecting then phone
  else if isConnectivityAction then run json device phone
  else phone

/-! ### The profile that is wanted -/

/-- One of the items of a profile's `ssid` stands for the network. -/
def Suits (device : Device) (ssid : Bytes) : Prop :=
  ∃ networkInfo ∈ device.networkInfo, ∃ item ∈ (parseStoredValue ssid).getD [],
    if networkInfo.isWifi then
      ∃ current ∈ device.wifiSsid, current ≠ [] ∧
        (item = wifiAnd3g ∨ item = onlyWifi ∨ item = unquoted current)
    else item = wifiAnd3g ∨ item = only3g

/-- A profile that is not the entry for a new one asks for the network. -/
def Wanted (device : Device) (own : Bytes → Profile) (number : Bytes) : Prop :=
  number ≠ ascii "0" ∧ (own number).isAutoConnect = true ∧ Suits device (own number).ssid

def First (wanted : Bytes → Prop) (numbers : List Bytes) (number : Bytes) : Prop :=
  ∃ front back, numbers = front ++ number :: back ∧ wanted number ∧
    ∀ other ∈ front, ¬wanted other

/-- The settings of each listed profile: those in use, or those of its text. -/
structure Holds (json : Json) (settings : Settings) (own : Bytes → Profile) : Prop where
  current : own (oldProfile settings) = Profile.fresh.getProfile settings
  texts : ∀ number ∈ profileValues settings, number ≠ ascii "0" → number ≠ oldProfile settings →
    IsInt (own number).port ∧ settings.strings (.saved number) = some ((own number).text json)

/-- The first profile that is wanted has become the current one, or none has. -/
structure Chooses (json : Json) (device : Device) (own : Bytes → Profile)
    (before after : Settings) : Prop where
  switches : ∀ number, First (Wanted device own) (profileValues before) number →
    oldProfile after = number ∧ number ≠ ascii "0" ∧ working after = own number ∧
      after.strings (.saved number) = some ((own number).text json) ∧
      after.strings (.saved (oldProfile before)) =
        some ((Profile.fresh.getProfile before).text json)
  stays : (∀ number ∈ profileValues before, ¬Wanted device own number) →
    working after = working before ∧ oldProfile after = oldProfile before

theorem onlineSSID_isSome (device : Device) (ssid : Bytes) :
    (onlineSSID device ssid).isSome = true ↔ Suits device ssid := by
  obtain ⟨networkInfo, wifiSsid⟩ := device
  rw [Suits, onlineSSID]
  cases parseStoredValue ssid with
  | none => simp
  | some ssids =>
      cases networkInfo with
      | none => simp
      | some info =>
          by_cases wifi : info.isWifi = true
          · cases wifiSsid with
            | none => simp [wifi]
            | some current =>
                by_cases empty : current = []
                · simp [wifi, empty]
                · simp [wifi, empty, or_assoc]
          · simp [wifi]

variable {json : Json} {device : Device} {settings : Settings} {own : Bytes → Profile}

def Hits (device : Device) (profile : Profile) : Prop :=
  profile.isAutoConnect = true ∧ Suits device profile.ssid

theorem scan_cons (mProfile : Profile) (profile : Bytes) (values : List Bytes) {candidate : Profile}
    (decoded : mProfile.decodeJson json (settings.getString (.saved profile) []) = candidate) :
    (Hits device candidate → ∃ curSSID, scan json device settings mProfile (profile :: values) =
      some ⟨profile, candidate, curSSID⟩) ∧
    (¬Hits device candidate → scan json device settings mProfile (profile :: values) =
      scan json device settings candidate values) := by
  have matched := onlineSSID_isSome device candidate.ssid
  simp only [scan, decoded, Hits, ← matched]
  cases onlineSSID device candidate.ssid with
  | none => simp
  | some curSSID =>
      by_cases auto : candidate.isAutoConnect = true
      · simp [auto]
      · simp [auto]

/-- The texts that the scan finds; it finds none under the entry for a new profile. -/
structure Readable (json : Json) (settings : Settings) (own : Bytes → Profile)
    (numbers : List Bytes) : Prop where
  texts : ∀ number ∈ numbers, number ≠ ascii "0" →
    IsInt (own number).port ∧ settings.strings (.saved number) = some ((own number).text json)
  none : settings.strings (.saved (ascii "0")) = none

theorem Readable.tail {number : Bytes} {numbers : List Bytes}
    (readable : Readable json settings own (number :: numbers)) :
    Readable json settings own numbers :=
  ⟨fun other member => readable.texts other (List.mem_cons_of_mem _ member), readable.none⟩

theorem Readable.decodes {number : Bytes} {numbers : List Bytes} (lawful : json.Lawful)
    (readable : Readable json settings own numbers) (listed : number ∈ numbers)
    (mProfile : Profile) :
    mProfile.decodeJson json (settings.getString (.saved number) []) =
      if number = ascii "0" then mProfile else own number := by
  by_cases zero : number = ascii "0"
  · rw [if_pos zero, zero, Settings.getString, readable.none, Option.getD_none, Profile.decodeJson,
      lawful.parse_nil]
  · obtain ⟨isInt, text⟩ := readable.texts number listed zero
    rw [if_neg zero, Settings.getString, text, Option.getD_some, Profile.decodeJson_text lawful _ isInt]

/-- The object may hold anything in front of a listed profile, and in front of the entry for
a new one it holds a profile that is not switched to. -/
theorem scan_first (lawful : json.Lawful) {numbers : List Bytes}
    (readable : Readable json settings own numbers) (mProfile : Profile)
    (quiet : numbers.head? = some (ascii "0") → ¬Hits device mProfile) :
    (∃ number curSSID, First (Wanted device own) numbers number ∧
      scan json device settings mProfile numbers = some ⟨number, own number, curSSID⟩) ∨
    (∀ number ∈ numbers, ¬Wanted device own number) ∧
      scan json device settings mProfile numbers = none := by
  induction numbers generalizing mProfile with
  | nil => exact .inr ⟨by simp, rfl⟩
  | cons number numbers ih =>
      have decoded := readable.decodes lawful (List.mem_cons_self ..) mProfile
      obtain ⟨hits, misses⟩ := scan_cons mProfile number numbers decoded
      by_cases hit : Hits device (if number = ascii "0" then mProfile else own number)
      · obtain ⟨curSSID, found⟩ := hits hit
        by_cases zero : number = ascii "0"
        · rw [if_pos zero] at hit
          exact absurd hit (quiet (by simp [zero]))
        · rw [if_neg zero] at hit found
          exact .inl ⟨number, curSSID, ⟨[], numbers, rfl, ⟨zero, hit⟩, by simp⟩, found⟩
      · have unwanted : ¬Wanted device own number := by
          rintro ⟨other, asks⟩
          rw [if_neg other] at hit
          exact hit asks
        rw [misses hit]
        rcases ih readable.tail _ (fun _ => hit) with ⟨later, curSSID, first, found⟩ | ⟨others, found⟩
        · obtain ⟨front, back, rfl, wanted, earlier⟩ := first
          refine .inl ⟨later, curSSID, ⟨number :: front, back, rfl, wanted, ?_⟩, found⟩
          exact List.forall_mem_cons.mpr ⟨unwanted, earlier⟩
        · exact .inr ⟨List.forall_mem_cons.mpr ⟨unwanted, others⟩, found⟩

theorem First.unique {wanted : Bytes → Prop} {numbers : List Bytes} {first second : Bytes}
    (isFirst : First wanted numbers first) (isSecond : First wanted numbers second) :
    first = second := by
  obtain ⟨front, back, rfl, wantedFirst, earlier⟩ := isFirst
  obtain ⟨front', back', same, wantedSecond, earlier'⟩ := isSecond
  rcases List.append_eq_append_iff.mp same with ⟨more, rfl, split⟩ | ⟨more, rfl, split⟩
  · cases more with
    | nil => exact (List.cons.inj split).1
    | cons other more =>
        obtain ⟨rfl, -⟩ := List.cons.inj split
        exact absurd wantedFirst (earlier' first (by simp))
  · cases more with
    | nil => exact (List.cons.inj split).1.symm
    | cons other more =>
        obtain ⟨rfl, -⟩ := List.cons.inj split
        exact absurd wantedSecond (earlier second (by simp))

theorem First.mem {wanted : Bytes → Prop} {numbers : List Bytes} {number : Bytes}
    (isFirst : First wanted numbers number) : number ∈ numbers ∧ wanted number := by
  obtain ⟨front, back, rfl, here, -⟩ := isFirst
  exact ⟨by simp, here⟩

/-! ### The preferences afterwards -/

theorem working_setProfile {profile : Profile} (isInt : IsInt profile.port) (settings : Settings) :
    working (profile.setProfile settings) = profile := by
  simp [working, Profile.getProfile, Profile.setProfile, integerValueOf_integerText isInt]

theorem storeCurrent_strings (json : Json) (settings : Settings) (key : TextKey) :
    (storeCurrent json settings).strings key =
      if key = .saved (oldProfile settings) then
        some ((Profile.fresh.getProfile settings).text json)
      else settings.strings key := rfl

theorem readable_of_holds (holds : Holds json settings own)
    (unsaved : settings.strings (.saved (ascii "0")) = none)
    (notZero : oldProfile settings ≠ ascii "0") :
    Readable json (storeCurrent json settings) own (profileValues settings) := by
  constructor
  · intro number listed other
    rw [storeCurrent_strings]
    by_cases current : number = oldProfile settings
    · subst current
      rw [if_pos rfl, holds.current]
      exact ⟨Profile.isInt_getProfile _ _, rfl⟩
    · rw [if_neg (fun same => current (TextKey.saved.inj same))]
      exact holds.texts number listed other current
  · rw [storeCurrent_strings, if_neg (fun same => notZero (TextKey.saved.inj same).symm)]
    exact unsaved

theorem switchProfile_chooses (lawful : json.Lawful) (holds : Holds json settings own)
    (unsaved : settings.strings (.saved (ascii "0")) = none)
    (notZero : oldProfile settings ≠ ascii "0")
    (headed : (profileValues settings).head? ≠ some (ascii "0")) :
    Chooses json device own settings (switchProfile json device settings) := by
  have readable := readable_of_holds holds unsaved notZero
  have quiet : (profileValues settings).head? = some (ascii "0") →
      ¬Hits device (Profile.fresh.getProfile settings) := fun zero => absurd zero headed
  rw [switchProfile, findProfile]
  rcases scan_first lawful readable _ quiet with ⟨number, curSSID, first, found⟩ | ⟨others, found⟩
  · obtain ⟨listed, wanted⟩ := first.mem
    obtain ⟨isInt, text⟩ := readable.texts number listed wanted.1
    rw [found]
    constructor
    · intro other isFirst
      obtain rfl := isFirst.unique first
      refine ⟨?_, wanted.1, working_setProfile isInt _, ?_, ?_⟩
      · rw [oldProfile, Settings.getString, Profile.strings_setProfile _ _ rfl,
          Settings.strings_putString, if_pos rfl, Option.getD_some]
      · rw [Profile.strings_setProfile _ _ rfl, Settings.strings_putString, if_neg (by simp), text]
      · rw [Profile.strings_setProfile _ _ rfl, Settings.strings_putString, if_neg (by simp),
          storeCurrent_strings, if_pos rfl]
    · intro none
      exact absurd wanted (none number listed)
  · rw [found]
    constructor
    · intro number isFirst
      obtain ⟨listed, wanted⟩ := isFirst.mem
      exact absurd wanted (others number listed)
    · intro _
      exact ⟨rfl, rfl⟩

/-! ### The receiver as a whole -/

theorem run_settings (json : Json) (device : Device) (phone : Phone) :
    (run json device phone).settings =
      if acts device phone then switchProfile json device phone.settings else phone.settings := by
  rw [run]
  split
  · dsimp only
    split
    · rfl
    · split
      · rw [startsProxy]
        split <;> rfl
      · rfl
  · rfl

theorem onReceive_chooses (json : Json) (lawful : json.Lawful) (device : Device)
    (isConnectivityAction : Bool) (phone : Phone) (own : Bytes → Profile)
    (holds : Holds json phone.settings own)
    (headed : (profileValues phone.settings).head? ≠ some (ascii "0"))
    (unsaved : phone.settings.strings (.saved (ascii "0")) = none)
    (notZero : oldProfile phone.settings ≠ ascii "0") :
    if phone.isConnecting = false ∧ isConnectivityAction = true ∧ acts device phone = true then
      Chooses json device own phone.settings
        (onReceive json device isConnectivityAction phone).settings
    else onReceive json device isConnectivityAction phone = phone := by
  have chooses : Chooses json device own phone.settings (switchProfile json device phone.settings) :=
    switchProfile_chooses lawful holds unsaved notZero headed
  cases connecting : phone.isConnecting with
  | true => simp [onReceive, connecting]
  | false =>
      cases isConnectivityAction with
      | false => simp [onReceive, connecting]
      | true =>
          by_cases acting : acts device phone = true
          · simpa [onReceive, connecting, acting, run_settings] using chooses
          · simp [onReceive, connecting, acting, run]

def officeProfile : Profile :=
  { Profile.fresh with name := ascii "Office", isAutoConnect := true, ssid := ascii "Office" }

def officePhone : Phone where
  settings := Settings.empty
    |>.putString .profile (ascii "1")
    |>.putString .profileValues (ascii "1|2|0")
    |>.putString (.saved (ascii "1")) (Profile.fresh.text .simple)
    |>.putString (.saved (ascii "2")) (officeProfile.text .simple)
  lastSSID := none
  isWorking := false
  isConnecting := false
  stopService := false
  startService := none

def officeWifi (state : NetworkState) : Device where
  networkInfo := some ⟨state, true⟩
  wifiSsid := some (34 :: ascii "Office" ++ [34])

def officeOwn (number : Bytes) : Profile :=
  if number = ascii "2" then officeProfile else Profile.fresh.getProfile officePhone.settings

theorem officeHolds : Holds .simple officePhone.settings officeOwn := by
  refine ⟨by decide +kernel, ?_⟩
  have listed : profileValues officePhone.settings = [ascii "1", ascii "2", ascii "0"] := by
    decide +kernel
  have isInt : IsInt officeProfile.port := ⟨by decide, by decide⟩
  rw [listed]
  intro number member notZero other
  have two : number = ascii "2" := by
    simp only [List.mem_cons, List.not_mem_nil, or_false] at member
    rcases member with rfl | rfl | rfl
    · exact absurd (by decide +kernel) other
    · rfl
    · exact absurd rfl notZero
  rw [two]
  exact ⟨isInt, rfl⟩

theorem officeFirst (state : NetworkState) :
    First (Wanted (officeWifi state) officeOwn) (profileValues officePhone.settings)
      (ascii "2") := by
  have suits : Suits (officeWifi state) (officeOwn (ascii "2")).ssid := by
    refine (onlineSSID_isSome _ _).mp ?_
    cases state <;> decide +kernel
  refine ⟨[ascii "1"], [ascii "0"], by decide +kernel, ⟨by decide, by decide, suits⟩, ?_⟩
  intro other member wanted
  rw [List.mem_singleton.mp member] at wanted
  exact absurd wanted.2.1 (by decide +kernel)

theorem onReceive_chooses_office :
    oldProfile (onReceive .simple (officeWifi .connected) true officePhone).settings = ascii "2" ∧
      working (onReceive .simple (officeWifi .connected) true officePhone).settings =
        officeProfile := by
  have chooses := onReceive_chooses .simple Json.simple_lawful (officeWifi .connected) true
    officePhone officeOwn officeHolds (by decide +kernel) rfl (by decide)
  rw [if_pos ⟨rfl, rfl, by decide⟩] at chooses
  obtain ⟨current, -, settings, -⟩ := chooses.switches _ (officeFirst .connected)
  exact ⟨current, settings⟩

theorem onReceive_connecting :
    Holds .simple officePhone.settings officeOwn ∧
      ¬Chooses .simple (officeWifi .connecting) officeOwn officePhone.settings
        (onReceive .simple (officeWifi .connecting) true officePhone).settings := by
  refine ⟨officeHolds, fun chooses => ?_⟩
  obtain ⟨current, -⟩ := chooses.switches _ (officeFirst .connecting)
  exact absurd current (by decide +kernel)

end ProxySet.Droid.AutoConnect
