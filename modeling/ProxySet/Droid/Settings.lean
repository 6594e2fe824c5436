import ProxySet.Droid.EnableProxy
import ProxySet.Redsocks.Numbers

/-!
The shared preferences of ProxyDroid, and the `Profile` that is read from them, written to
them and kept as a text of JSON.
-/

namespace ProxySet.Droid

/-! ### Integers of Java -/

def int32 (value : Int) : Int :=
  value.bmod (2 ^ 32)

def integerText (value : Int) : Bytes :=
  if value < 0 then 45 :: decimal value.natAbs else decimal value.natAbs

/-- `Integer.valueOf`, which throws for a text that is no number or no `int`. -/
def integerValueOf (text : Bytes) : Option Int :=
  let negative := text.head? = some 45
  let digits := if negative ∨ text.head? = some 43 then text.drop 1 else text
  let value : Int := if negative then -valueIn 10 digits else valueIn 10 digits
  if digits ≠ [] ∧ digits.all isdigit = true ∧ -2 ^ 31 ≤ value ∧ value < 2 ^ 31 then some value
  else none

def IsInt (value : Int) : Prop :=
  -2 ^ 31 ≤ value ∧ value < 2 ^ 31

theorem integerText_natCast (value : Nat) : integerText value = decimal value := by
  have notNegative : ¬((value : Int) < 0) := by omega
  simp only [integerText, if_neg notNegative, Int.natAbs_natCast]

theorem decimal_unsigned (value : Nat) :
    (decimal value).head? ≠ some 45 ∧ (decimal value).head? ≠ some 43 := by
  constructor <;>
  · intro sign
    have digit := decimal_isdigit value _ (List.mem_of_head? sign)
    exact absurd digit (by decide)

theorem integerValueOf_decimal {value : Nat} (small : value < 2 ^ 31) :
    integerValueOf (decimal value) = some (value : Int) := by
  have lower : (-2 ^ 31 : Int) ≤ value := by omega
  have upper : (value : Int) < 2 ^ 31 := by omega
  have digits : (decimal value).all isdigit = true := List.all_eq_true.mpr (decimal_isdigit value)
  simp only [integerValueOf, (decimal_unsigned value).1, (decimal_unsigned value).2, or_self,
    if_false, valueIn_decimal]
  exact if_pos ⟨decimal_ne_nil value, digits, lower, upper⟩

theorem integerValueOf_integerText {value : Int} (isInt : IsInt value) :
    integerValueOf (integerText value) = some value := by
  obtain ⟨lower, upper⟩ := isInt
  by_cases negative : value < 0
  · have digits : (decimal value.natAbs).all isdigit = true :=
      List.all_eq_true.mpr (decimal_isdigit value.natAbs)
    have same : -(value.natAbs : Int) = value := by omega
    simp only [integerText, if_pos negative, integerValueOf, List.head?_cons, true_or, if_true,
      List.drop_one, List.tail_cons, valueIn_decimal, same]
    exact if_pos ⟨decimal_ne_nil _, digits, lower, upper⟩
  · have same : (value.natAbs : Int) = value := by omega
    rw [integerText, if_neg negative, integerValueOf_decimal (by omega), same]

theorem isInt_of_valueOf {text : Bytes} {value : Int} (read : integerValueOf text = some value) :
    IsInt value := by
  obtain ⟨known, same⟩ := Option.ite_none_right_eq_some.mp read
  exact Option.some.inj same ▸ ⟨known.2.2.1, known.2.2.2⟩

/-! ### The preferences -/

inductive TextKey where
  | profileName
  | host
  | port
  | bypassAddrs
  | proxyed
  | user
  | password
  | domain
  | proxyType
  | certificate
  | ssid
  | profile
  | profileEntries
  | profileValues
  /-- The text of a profile. -/
  | saved (number : Bytes)
  /-- The name that a profile has been given. -/
  | named (number : Bytes)
  deriving DecidableEq

inductive FlagKey where
  | isAuth
  | isNTLM
  | isAutoConnect
  | isAutoSetProxy
  | isBypassApps
  | isDNSProxy
  | isPAC
  deriving DecidableEq

def TextKey.text : TextKey → Bytes
  | .profileName => ascii "profileName"
  | .host => ascii "host"
  | .port => ascii "port"
  | .bypassAddrs => ascii "bypassAddrs"
  | .proxyed => ascii "Proxyed"
  | .user => ascii "user"
  | .password => ascii "password"
  | .domain => ascii "domain"
  | .proxyType => ascii "proxyType"
  | .certificate => ascii "certificate"
  | .ssid => ascii "ssid"
  | .profile => ascii "profile"
  | .profileEntries => ascii "profileEntries"
  | .profileValues => ascii "profileValues"
  | .saved number => number
  | .named number => ascii "profile" ++ number

def FlagKey.text : FlagKey → Bytes
  | .isAuth => ascii "isAuth"
  | .isNTLM => ascii "isNTLM"
  | .isAutoConnect => ascii "isAutoConnect"
  | .isAutoSetProxy => ascii "isAutoSetProxy"
  | .isBypassApps => ascii "isBypassApps"
  | .isDNSProxy => ascii "isDNSProxy"
  | .isPAC => ascii "isPAC"

def TextKey.isField : TextKey → Bool
  | .profile => false
  | .profileEntries => false
  | .profileValues => false
  | .saved _ => false
  | .named _ => false
  | _ => true

structure Settings where
  strings : TextKey → Option Bytes
  booleans : FlagKey → Option Bool

namespace Settings

def empty : Settings where
  strings := fun _ => none
  booleans := fun _ => none

def getString (settings : Settings) (key : TextKey) (defValue : Bytes) : Bytes :=
  (settings.strings key).getD defValue

def getBoolean (settings : Settings) (key : FlagKey) (defValue : Bool) : Bool :=
  (settings.booleans key).getD defValue

def putString (settings : Settings) (key : TextKey) (value : Bytes) : Settings :=
  { settings with strings := fun other => if other = key then some value else settings.strings other }

def putBoolean (settings : Settings) (key : FlagKey) (value : Bool) : Settings :=
  { settings with
    booleans := fun other => if other = key then some value else settings.booleans other }

variable (settings : Settings)

theorem strings_putString (key other : TextKey) (value : Bytes) :
    (settings.putString key value).strings other =
      if other = key then some value else settings.strings other := rfl

@[simp] theorem getString_putString (key other : TextKey) (value defValue : Bytes) :
    (settings.putString key value).getString other defValue =
      if other = key then value else settings.getString other defValue := by
  simp only [getString, putString]
  split <;> rfl

@[simp] theorem getBoolean_putBoolean (key other : FlagKey) (value defValue : Bool) :
    (settings.putBoolean key value).getBoolean other defValue =
      if other = key then value else settings.getBoolean other defValue := by
  simp only [getBoolean, putBoolean]
  split <;> rfl

@[simp] theorem getBoolean_putString (key : TextKey) (other : FlagKey) (value : Bytes)
    (defValue : Bool) :
    (settings.putString key value).getBoolean other defValue =
      settings.getBoolean other defValue := rfl

@[simp] theorem getString_putBoolean (key : FlagKey) (other : TextKey) (value : Bool)
    (defValue : Bytes) :
    (settings.putBoolean key value).getString other defValue =
      settings.getString other defValue := rfl

end Settings

/-! ### Profiles -/

structure Profile where
  name : Bytes
  host : Bytes
  proxyType : Bytes
  port : Int
  bypassAddrs : Bytes
  user : Bytes
  password : Bytes
  certificate : Bytes
  proxyedApps : Bytes
  isAutoConnect : Bool
  isAutoSetProxy : Bool
  isBypassApps : Bool
  isAuth : Bool
  isNTLM : Bool
  isDNSProxy : Bool
  isPAC : Bool
  domain : Bytes
  ssid : Bytes
  deriving DecidableEq

namespace Profile

/-- `init`, which leaves the name and two of the flags as they are. -/
def init (profile : Profile) : Profile :=
  { profile with
    host := []
    port := 3128
    ssid := []
    user := []
    domain := []
    password := []
    certificate := []
    isAuth := false
    proxyType := ascii "http"
    isAutoConnect := false
    isNTLM := false
    bypassAddrs := []
    proxyedApps := []
    isDNSProxy := false
    isPAC := false }

/-- `new Profile()`; the name, which is `null` there, is read by nothing before it is set. -/
def fresh : Profile where
  name := []
  host := []
  proxyType := ascii "http"
  port := 3128
  bypassAddrs := []
  user := []
  password := []
  certificate := []
  proxyedApps := []
  isAutoConnect := false
  isAutoSetProxy := false
  isBypassApps := false
  isAuth := false
  isNTLM := false
  isDNSProxy := false
  isPAC := false
  domain := []
  ssid := []

/-- The name of a profile without one has the port that was there before. -/
def getProfile (profile : Profile) (settings : Settings) : Profile where
  name :=
    if settings.getString .profileName [] = [] then
      settings.getString .host [] ++ ascii ":" ++ integerText profile.port ++ ascii "." ++
        settings.getString .proxyType (ascii "http")
    else settings.getString .profileName []
  host := settings.getString .host []
  proxyType := settings.getString .proxyType (ascii "http")
  port := (integerValueOf (settings.getString .port [])).getD 3128
  bypassAddrs := settings.getString .bypassAddrs []
  user := settings.getString .user []
  password := settings.getString .password []
  certificate := settings.getString .certificate []
  proxyedApps := settings.getString .proxyed []
  isAutoConnect := settings.getBoolean .isAutoConnect false
  isAutoSetProxy := settings.getBoolean .isAutoSetProxy false
  isBypassApps := settings.getBoolean .isBypassApps false
  isAuth := settings.getBoolean .isAuth false
  isNTLM := settings.getBoolean .isNTLM false
  isDNSProxy := settings.getBoolean .isDNSProxy false
  isPAC := settings.getBoolean .isPAC false
  domain := settings.getString .domain []
  ssid := settings.getString .ssid []

def setProfile (profile : Profile) (settings : Settings) : Settings :=
  settings
    |>.putString .profileName profile.name
    |>.putString .host profile.host
    |>.putString .port (integerText profile.port)
    |>.putString .bypassAddrs profile.bypassAddrs
    |>.putString .proxyed profile.proxyedApps
    |>.putString .user profile.user
    |>.putString .password profile.password
    |>.putBoolean .isAuth profile.isAuth
    |>.putBoolean .isNTLM profile.isNTLM
    |>.putString .domain profile.domain
    |>.putString .proxyType profile.proxyType
    |>.putString .certificate profile.certificate
    |>.putBoolean .isAutoConnect profile.isAutoConnect
    |>.putBoolean .isAutoSetProxy profile.isAutoSetProxy
    |>.putBoolean .isBypassApps profile.isBypassApps
    |>.putBoolean .isPAC profile.isPAC
    |>.putBoolean .isDNSProxy profile.isDNSProxy
    |>.putString .ssid profile.ssid

theorem isInt_getProfile (profile : Profile) (settings : Settings) :
    IsInt (profile.getProfile settings).port := by
  simp only [getProfile]
  cases read : integerValueOf (settings.getString .port []) with
  | none => exact ⟨by decide, by decide⟩
  | some value => exact isInt_of_valueOf read

theorem getProfile_name (profile : Profile) (settings : Settings) :
    (profile.getProfile settings).name ≠ [] := by
  simp only [getProfile]
  split
  · have colon : ascii ":" ≠ [] := by decide
    simp [colon]
  · assumption

theorem getProfile_setProfile (before profile : Profile) (settings : Settings)
    (named : profile.name ≠ []) (isInt : IsInt profile.port) :
    before.getProfile (profile.setProfile settings) = profile := by
  simp [getProfile, setProfile, named, integerValueOf_integerText isInt]

theorem strings_setProfile (profile : Profile) (settings : Settings) {key : TextKey}
    (other : key.isField = false) :
    (profile.setProfile settings).strings key = settings.strings key := by
  cases key <;> first | rfl | simp [TextKey.isField] at other

end Profile

/-! ### Profiles as JSON -/

structure JsonObject where
  name : Option Bytes
  ssid : Option Bytes
  host : Option Bytes
  proxyType : Option Bytes
  user : Option Bytes
  password : Option Bytes
  domain : Option Bytes
  certificate : Option Bytes
  bypassAddrs : Option Bytes
  proxyed : Option Bytes
  isAuth : Option Bool
  isNTLM : Option Bool
  isAutoConnect : Option Bool
  isAutoSetProxy : Option Bool
  isBypassApps : Option Bool
  isDNSProxy : Option Bool
  isPAC : Option Bool
  port : Option Int
  deriving DecidableEq

structure Json where
  toJSONString : JsonObject → Bytes
  parse : Bytes → Option JsonObject

/-- It parses back what it prints, which is never empty, and no empty text. -/
structure Json.Lawful (json : Json) : Prop where
  parse_print : ∀ object, json.parse (json.toJSONString object) = some object
  print_ne_nil : ∀ object, json.toJSONString object ≠ []
  parse_nil : json.parse [] = none

namespace Profile

def encodeJson (profile : Profile) : JsonObject where
  name := some profile.name
  ssid := some profile.ssid
  host := some profile.host
  proxyType := some profile.proxyType
  user := some profile.user
  password := some profile.password
  domain := some profile.domain
  certificate := some profile.certificate
  bypassAddrs := some profile.bypassAddrs
  proxyed := some profile.proxyedApps
  isAuth := some profile.isAuth
  isNTLM := some profile.isNTLM
  isAutoConnect := some profile.isAutoConnect
  isAutoSetProxy := some profile.isAutoSetProxy
  isBypassApps := some profile.isBypassApps
  isDNSProxy := some profile.isDNSProxy
  isPAC := some profile.isPAC
  port := some profile.port

def text (json : Json) (profile : Profile) : Bytes :=
  json.toJSONString profile.encodeJson

def getInt (member : Option Int) (default : Int) : Int :=
  match member with
  | some value => (integerValueOf (integerText value)).getD default
  | none => default

def ofObject (object : JsonObject) : Profile where
  name := object.name.getD []
  host := object.host.getD []
  proxyType := object.proxyType.getD (ascii "http")
  port := getInt object.port 3128
  bypassAddrs := object.bypassAddrs.getD []
  user := object.user.getD []
  password := object.password.getD []
  certificate := object.certificate.getD []
  proxyedApps := object.proxyed.getD []
  isAutoConnect := object.isAutoConnect.getD false
  isAutoSetProxy := object.isAutoSetProxy.getD false
  isBypassApps := object.isBypassApps.getD false
  isAuth := object.isAuth.getD false
  isNTLM := object.isNTLM.getD false
  isDNSProxy := object.isDNSProxy.getD false
  isPAC := object.isPAC.getD false
  domain := object.domain.getD []
  ssid := object.ssid.getD []

def decodeJson (json : Json) (profile : Profile) (values : Bytes) : Profile :=
  match json.parse values with
  | some object => ofObject object
  | none => profile

structure Whole (profile : Profile) : Prop where
  named : profile.name ≠ []
  isInt : IsInt profile.port

theorem whole_getProfile (profile : Profile) (settings : Settings) :
    Whole (profile.getProfile settings) :=
  ⟨getProfile_name profile settings, isInt_getProfile profile settings⟩

theorem ofObject_encodeJson {profile : Profile} (isInt : IsInt profile.port) :
    ofObject profile.encodeJson = profile := by
  simp [ofObject, encodeJson, getInt, integerValueOf_integerText isInt]

theorem decodeJson_text {json : Json} (lawful : json.Lawful) (before : Profile) {profile : Profile}
    (isInt : IsInt profile.port) : decodeJson json before (profile.text json) = profile := by
  rw [decodeJson, text, lawful.parse_print]
  exact ofObject_encodeJson isInt

theorem text_inj {json : Json} (lawful : json.Lawful) {first second : Profile}
    (firstInt : IsInt first.port) (secondInt : IsInt second.port)
    (same : first.text json = second.text json) : first = second := by
  rw [← decodeJson_text lawful .fresh firstInt, same, decodeJson_text lawful .fresh secondInt]

end Profile

end ProxySet.Droid
