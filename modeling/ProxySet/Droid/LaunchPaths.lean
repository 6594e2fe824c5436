import ProxySet.Droid.Settings

/-!
The three ways to start ProxyDroid's service.  Each of them reads a `Profile` from the
preferences and puts it into the extras of an intent; a string that is missing there is
`null` for the service.
-/

namespace ProxySet.Droid.Launch

open TextReplace

/-! ### Intents -/

structure Extras where
  strings : TextKey → Option Bytes
  booleans : FlagKey → Option Bool
  port : Option Int

namespace Extras

def empty : Extras where
  strings := fun _ => none
  booleans := fun _ => none
  port := none

def putString (extras : Extras) (key : TextKey) (value : Bytes) : Extras :=
  { extras with strings := fun other => if other = key then some value else extras.strings other }

def putBoolean (extras : Extras) (key : FlagKey) (value : Bool) : Extras :=
  { extras with booleans := fun other => if other = key then some value else extras.booleans other }

def putPort (extras : Extras) (value : Int) : Extras :=
  { extras with port := some value }

def getString (extras : Extras) (key : TextKey) : Option Bytes :=
  extras.strings key

def getBoolean (extras : Extras) (key : FlagKey) : Bool :=
  (extras.booleans key).getD false

def getPort (extras : Extras) : Int :=
  extras.port.getD 0

end Extras

/-- What all the three builders put. -/
def putProfile (mProfile : Profile) : Extras :=
  Extras.empty
    |>.putString .host mProfile.host
    |>.putString .user mProfile.user
    |>.putString .bypassAddrs mProfile.bypassAddrs
    |>.putString .password mProfile.password
    |>.putString .domain mProfile.domain
    |>.putString .proxyType mProfile.proxyType
    |>.putBoolean .isAutoSetProxy mProfile.isAutoSetProxy
    |>.putBoolean .isBypassApps mProfile.isBypassApps
    |>.putBoolean .isAuth mProfile.isAuth
    |>.putBoolean .isNTLM mProfile.isNTLM
    |>.putBoolean .isDNSProxy mProfile.isDNSProxy
    |>.putBoolean .isPAC mProfile.isPAC
    |>.putPort mProfile.port

/-- `ProxyDroid.serviceStart`, with what the screen's `mProfile` held before. -/
def serviceStart (working : Bool) (mProfile : Profile) (settings : Settings) : Option Extras :=
  if working then none
  else
    let read := mProfile.getProfile settings
    some ((putProfile read).putString .certificate read.certificate)

def receiverOnReceive (settings : Settings) : Option Extras :=
  let mProfile := Profile.fresh.getProfile settings
  if mProfile.isAutoConnect then some (putProfile mProfile) else none

/-- `ProxyDroidWidgetProvider.onReceive` for the switch; a service that works is stopped. -/
def widgetOnReceive (working : Bool) (settings : Settings) : Option Extras :=
  if working then none else some (putProfile (Profile.fresh.getProfile settings))

inductive Path where
  | screen (mProfile : Profile)
  | receiver
  | widget

def Path.intent (settings : Settings) : Path → Option Extras
  | .screen mProfile => serviceStart false mProfile settings
  | .receiver => receiverOnReceive settings
  | .widget => widgetOnReceive false settings

/-! ### onStart and getAddress -/

/-- The fields of the service; a string may be `null`. -/
structure Fields where
  host : Option Bytes
  port : Int
  bypassAddrs : Option Bytes
  user : Option Bytes
  password : Option Bytes
  domain : Option Bytes
  proxyType : Option Bytes
  certificate : Option Bytes
  auth : Bytes
  isAuth : Bool
  isNTLM : Bool
  isDNSProxy : Bool
  isPAC : Bool
  isAutoSetProxy : Bool
  isBypassApps : Bool
  apps : List Nat
  deriving DecidableEq

def Fields.created : Fields where
  host := none
  port := 0
  bypassAddrs := some []
  user := none
  password := none
  domain := none
  proxyType := some (ascii "http")
  certificate := none
  auth := ascii "false"
  isAuth := false
  isNTLM := false
  isDNSProxy := false
  isPAC := false
  isAutoSetProxy := false
  isBypassApps := false
  apps := []

def onStart (fields : Fields) (bundle : Extras) : Fields :=
  { fields with
    host := bundle.getString .host
    bypassAddrs := bundle.getString .bypassAddrs
    proxyType := bundle.getString .proxyType
    port := bundle.getPort
    isAutoSetProxy := bundle.getBoolean .isAutoSetProxy
    isBypassApps := bundle.getBoolean .isBypassApps
    isAuth := bundle.getBoolean .isAuth
    isNTLM := bundle.getBoolean .isNTLM
    isDNSProxy := bundle.getBoolean .isDNSProxy
    isPAC := bundle.getBoolean .isPAC
    auth := if bundle.getBoolean .isAuth then ascii "true" else ascii "false"
    user := if bundle.getBoolean .isAuth then bundle.getString .user else some []
    password := if bundle.getBoolean .isAuth then bundle.getString .password else some []
    domain := if bundle.getBoolean .isNTLM then bundle.getString .domain else some []
    certificate :=
      if bundle.getString .proxyType = some (ascii "https") then bundle.getString .certificate
      else fields.certificate }

structure PacProxy where
  host : Bytes
  port : Int
  isSocks : Bool

def PacProxy.type (proxy : PacProxy) : Bytes :=
  if proxy.isSocks then ascii "socks5" else ascii "http"

structure Network where
  select : Option Bytes → Option PacProxy
  getByName : Option Bytes → Option Bytes

def resolve (network : Network) (fields : Fields) : Option Fields :=
  (network.getByName fields.host).map fun address => { fields with host := some address }

def getAddress (network : Network) (fields : Fields) : Option Fields :=
  if fields.isPAC then
    match network.select fields.host with
    | none => none
    | some proxy =>
        if proxy.port = 0 then none
        else resolve network
          { fields with
            proxyType := some proxy.type
            host := some proxy.host
            port := proxy.port }
  else resolve network fields

/-! ### enableProxy -/

/-- What `enableProxy` has done in the end, or before it has thrown. -/
structure Enabled where
  effects : List Effect
  threw : Bool
  deriving DecidableEq

def shown (text : Option Bytes) : Bytes :=
  text.getD (ascii "null")

structure Target where
  proxyHost : Option Bytes
  proxyPort : Int
  proxyType : Option Bytes

def Target.local : Target where
  proxyHost := some (ascii "127.0.0.1")
  proxyPort := 8126
  proxyType := some (ascii "http")

def stunnelConf (fields : Fields) (certificate : Bytes) : Bytes :=
  ascii "debug = 0\n" ++ ascii "client = yes\n" ++ ascii "pid = " ++ base ++
    ascii "stunnel.pid\n" ++ ascii "[https]\n" ++ ascii "sslVersion = all\n" ++
    ascii "accept = 127.0.0.1:8126\n" ++ ascii "connect = " ++ shown fields.host ++ ascii ":" ++
    integerText fields.port ++ ascii "\n" ++
    (if certificate.length = 0 then [] else ascii "cert = " ++ base ++ ascii "client.pem\n")

/-- The file is open, and empty, when the length of the certificate is asked for. -/
def stunnel (fields : Fields) : List Effect × Option Target :=
  match fields.certificate with
  | none => ([.writeFile (base ++ ascii "stunnel.conf") []], none)
  | some certificate =>
      ([.writeFile (base ++ ascii "stunnel.conf") (stunnelConf fields certificate)] ++
        (if certificate.length = 0 then []
          else [.writeFile (base ++ ascii "client.pem") certificate,
            .runCommand (ascii "chmod 0600 " ++ base ++ ascii "client.pem")]) ++
        [.runRootCommand (base ++ ascii "stunnel " ++ base ++ ascii "stunnel.conf")],
        some Target.local)

def shrpx (fields : Fields) : List Effect × Option Target :=
  ([.runRootCommand (base ++ ascii "shrpx -D -k -p -f 127.0.0.1,8126 -b " ++ shown fields.host ++
    ascii "," ++ integerText fields.port ++ ascii " --pid-file=" ++ base ++ ascii "shrpx.pid")],
    some Target.local)

def tunnel (fields : Fields) : List Effect × Option Target :=
  if fields.proxyType = some (ascii "https") then stunnel fields
  else if fields.proxyType = some (ascii "spdy") then shrpx fields
  else ([], some ⟨fields.host, fields.port, fields.proxyType⟩)

def cntlmScript (fields : Fields) (domain : Bytes) (target : Target) : Bytes :=
  base ++ ascii "proxy.sh start http 127.0.0.1 8025 false\n" ++ base ++
    ascii "cntlm -P " ++ base ++ ascii "cntlm.pid -l 8025 -u " ++ shown fields.user ++
    (if domain = [] then ascii "@local" else ascii "@" ++ domain) ++
    ascii " -p " ++ shown fields.password ++ ascii " " ++
    shown target.proxyHost ++ ascii ":" ++ integerText target.proxyPort ++ ascii "\n"

def proxyScript (fields : Fields) (user password proxyType : Bytes) (target : Target) : Bytes :=
  base ++ ascii "proxy.sh start" ++ ascii " " ++ proxyType ++ ascii " " ++
    shown target.proxyHost ++ ascii " " ++ integerText target.proxyPort ++
    ascii " " ++ fields.auth ++ ascii " \"" ++ preserve user ++ ascii "\" \"" ++
    preserve password ++ ascii "\""

/-- The script that starts the proxy, unless a method of `null` is called on the way. -/
def startScript (fields : Fields) (target : Target) : Option Bytes :=
  match target.proxyType with
  | none => none
  | some proxyType =>
      if proxyType = ascii "http" ∧ fields.isAuth = true ∧ fields.isNTLM = true then
        fields.domain.map fun domain => cntlmScript fields domain target
      else
        match fields.user, fields.password with
        | some user, some password => some (proxyScript fields user password proxyType target)
        | _, _ => none

def redirectCmd (proxyType : Bytes) : Bytes :=
  if proxyType = ascii "socks4" ∨ proxyType = ascii "socks5" then cmdIptablesRedirectAddSocks
  else if proxyType = ascii "http-tunnel" then cmdIptablesRedirectAddHttpTunnel
  else cmdIptablesRedirectAddHttp

def dnatCmd (proxyType : Bytes) : Bytes :=
  if proxyType = ascii "socks4" ∨ proxyType = ascii "socks5" then cmdIptablesDnatAddSocks
  else if proxyType = ascii "http-tunnel" then cmdIptablesDnatAddHttpTunnel
  else cmdIptablesDnatAddHttp

def forwardCmd (device : Device) (proxyType : Bytes) : Bytes :=
  if device.hasRedirectSupport then redirectCmd proxyType else dnatCmd proxyType

def rules (device : Device) (fields : Fields) (host proxyType : Bytes) : Bytes :=
  replace (ascii "iptables") device.iptables.path
    ((if fields.isDNSProxy then dnsCmd device else []) ++
      returnCmd host ++
      (bypassed device fields.bypassAddrs).flatMap returnCmd ++
      (if fields.isBypassApps then (loadApps device fields.apps false).flatMap returnAppCmd
        else []) ++
      (if fields.isAutoSetProxy || fields.isBypassApps then forwardCmd device proxyType
        else (loadApps device fields.apps true).flatMap fun uid =>
          ownerCmd uid (forwardCmd device proxyType)))

def enableProxy (device : Device) (fields : Fields) : Enabled :=
  match tunnel fields with
  | (effects, none) => ⟨effects, true⟩
  | (effects, some target) =>
      match startScript fields target with
      | none => ⟨effects, true⟩
      | some script =>
          match fields.host, target.proxyType with
          | some host, some proxyType =>
              ⟨effects ++ [.runRootCommand script,
                .runRootCommand (rules device fields host proxyType)], false⟩
          | _, _ => ⟨effects ++ [.runRootCommand script], true⟩

/-! ### A service with all its strings -/

def Fields.ofService (service : Service) (isPAC : Bool) : Fields where
  host := some service.host
  port := service.port
  bypassAddrs := service.bypassAddrs
  user := some service.user
  password := some service.password
  domain := some service.domain
  proxyType := some service.proxyType.text
  certificate := some service.certificate
  auth := service.auth
  isAuth := service.isAuth
  isNTLM := service.isNTLM
  isDNSProxy := service.isDNSProxy
  isPAC := isPAC
  isAutoSetProxy := service.isAutoSetProxy
  isBypassApps := service.isBypassApps
  apps := service.apps

theorem text_eq_iff (first second : ProxyType) : first.text = second.text ↔ first = second := by
  constructor
  · intro same
    cases first <;> cases second <;>
      first
        | rfl
        | (simp only [ProxyType.text] at same
           repeat rw [ascii_ofList] at same
           exact absurd same (by decide +kernel))
  · rintro rfl
    rfl

theorem forwardCmd_text (device : Device) (proxyType : ProxyType) :
    forwardCmd device proxyType.text = Droid.forwardCmd device proxyType := by
  have socks4 : (proxyType.text = ascii "socks4") = (proxyType = .socks4) :=
    propext (text_eq_iff proxyType .socks4)
  have socks5 : (proxyType.text = ascii "socks5") = (proxyType = .socks5) :=
    propext (text_eq_iff proxyType .socks5)
  have httpTunnel : (proxyType.text = ascii "http-tunnel") = (proxyType = .httpTunnel) :=
    propext (text_eq_iff proxyType .httpTunnel)
  rw [forwardCmd, Droid.forwardCmd, redirectCmd, dnatCmd]
  simp only [socks4, socks5, httpTunnel]
  cases proxyType <;> rfl

theorem rules_ofService (device : Device) (service : Service) (isPAC : Bool)
    (proxyType : ProxyType) :
    rules device (.ofService service isPAC) service.host proxyType.text =
      Droid.rules device service proxyType := by
  simp only [rules, Droid.rules, cmd, forwardCmd_text, Fields.ofService]
  rfl

def Target.ofService (service : Service) : Target where
  proxyHost := some (upstream service).proxyHost
  proxyPort := (upstream service).proxyPort
  proxyType := some (upstream service).proxyType.text

theorem tunnel_ofService (service : Service) (isPAC : Bool) :
    tunnel (.ofService service isPAC) = (tunnelEffects service, some (.ofService service)) := by
  have https : (service.proxyType.text = ascii "https") = (service.proxyType = .https) :=
    propext (text_eq_iff service.proxyType .https)
  have spdy : (service.proxyType.text = ascii "spdy") = (service.proxyType = .spdy) :=
    propext (text_eq_iff service.proxyType .spdy)
  rw [tunnel]
  simp only [Fields.ofService, Option.some.injEq, https, spdy]
  by_cases isHttps : service.proxyType = .https
  · simp [isHttps, stunnel, tunnelEffects, stunnelEffects, stunnelConf, Droid.stunnelConf,
      Target.ofService, Target.local, upstream, shown, integerText_natCast, ProxyType.text]
  · by_cases isSpdy : service.proxyType = .spdy
    · simp [isSpdy, shrpx, tunnelEffects, shrpxEffects, Target.ofService, Target.local, upstream,
        shown, integerText_natCast, ProxyType.text]
    · simp only [tunnelEffects, Target.ofService, upstream, isHttps, isSpdy, or_self, if_false]

theorem startScript_ofService (service : Service) (isPAC : Bool) :
    startScript (.ofService service isPAC) (.ofService service) =
      some (Droid.startScript service) := by
  have http : ((upstream service).proxyType.text = ascii "http") =
      ((upstream service).proxyType = .http) := propext (text_eq_iff _ .http)
  have uses : usesCntlm service = true ↔ (upstream service).proxyType = .http ∧
      service.isAuth = true ∧ service.isNTLM = true := by
    simp [usesCntlm, and_assoc]
  rw [startScript, Droid.startScript]
  simp only [Target.ofService, Fields.ofService, http]
  by_cases cntlm : (upstream service).proxyType = .http ∧ service.isAuth = true ∧
      service.isNTLM = true
  · rw [if_pos cntlm, if_pos (uses.mpr cntlm)]
    simp [cntlmScript, Droid.cntlmScript, shown, integerText_natCast]
  · rw [if_neg cntlm, if_neg (fun cntlmUsed => cntlm (uses.mp cntlmUsed))]
    simp [proxyScript, Droid.proxyScript, shown, integerText_natCast]

/-- With no string missing nothing is thrown, and the service is the one of `Droid.enableProxy`. -/
theorem enableProxy_ofService (device : Device) (service : Service) (isPAC : Bool) :
    enableProxy device (.ofService service isPAC) =
      ⟨Droid.enableProxy device service, false⟩ := by
  rw [enableProxy, tunnel_ofService]
  simp only [startScript_ofService]
  simp only [Target.ofService, Droid.enableProxy]
  rw [show (Fields.ofService service isPAC).host = some service.host from rfl]
  simp only [rules_ofService]

/-! ### The paths compared -/

def Path.fields (settings : Settings) (path : Path) : Option Fields :=
  (path.intent settings).map (onStart .created)

def Path.enabled (network : Network) (device : Device) (settings : Settings) (path : Path) :
    Option Enabled :=
  ((path.fields settings).bind (getAddress network)).map (enableProxy device)

structure StartsAlike (settings : Settings) : Prop where
  starts : ∀ path : Path, (path.fields settings).isSome = true
  fields : ∀ first second : Path, first.fields settings = second.fields settings
  effects : ∀ network device (first second : Path),
    first.enabled network device settings = second.enabled network device settings
  quiet : ∀ network device (path : Path) enabled,
    path.enabled network device settings = some enabled → enabled.threw = false

/-- No string is missing that is read before or behind the tunnel. -/
structure Complete (fields : Fields) : Prop where
  user : fields.user.isSome = true
  password : fields.password.isSome = true
  domain : fields.domain.isSome = true
  proxyType : fields.proxyType.isSome = true
  notHttps : fields.proxyType ≠ some (ascii "https")

theorem PacProxy.type_ne_https (proxy : PacProxy) : proxy.type ≠ ascii "https" := by
  rw [PacProxy.type]
  split
  · exact fun same => absurd ((text_eq_iff .socks5 .https).mp same) (by decide)
  · exact fun same => absurd ((text_eq_iff .http .https).mp same) (by decide)

theorem resolve_complete {network : Network} {fields resolved : Fields} (complete : Complete fields)
    (done : resolve network fields = some resolved) :
    Complete resolved ∧ resolved.host.isSome = true := by
  obtain ⟨address, -, rfl⟩ := Option.map_eq_some_iff.mp done
  exact ⟨⟨complete.user, complete.password, complete.domain, complete.proxyType,
    complete.notHttps⟩, rfl⟩

theorem getAddress_complete {network : Network} {fields found : Fields} (complete : Complete fields)
    (done : getAddress network fields = some found) :
    Complete found ∧ found.host.isSome = true := by
  rw [getAddress] at done
  split at done
  · cases selected : network.select fields.host with
    | none => simp [selected] at done
    | some proxy =>
        simp only [selected] at done
        split at done
        · cases done
        · refine resolve_complete ?_ done
          exact ⟨complete.user, complete.password, complete.domain, rfl,
            fun same => proxy.type_ne_https (Option.some.inj same)⟩
  · exact resolve_complete complete done

theorem tunnel_complete {fields : Fields} (complete : Complete fields) :
    ∃ effects target proxyType, tunnel fields = (effects, some target) ∧
      target.proxyType = some proxyType := by
  obtain ⟨proxyType, known⟩ := Option.isSome_iff_exists.mp complete.proxyType
  rw [tunnel, if_neg complete.notHttps]
  split
  · exact ⟨_, _, _, rfl, rfl⟩
  · exact ⟨_, _, proxyType, rfl, known⟩

theorem startScript_complete {fields : Fields} {target : Target} {proxyType : Bytes}
    (complete : Complete fields) (known : target.proxyType = some proxyType) :
    ∃ script, startScript fields target = some script := by
  obtain ⟨user, hasUser⟩ := Option.isSome_iff_exists.mp complete.user
  obtain ⟨password, hasPassword⟩ := Option.isSome_iff_exists.mp complete.password
  obtain ⟨domain, hasDomain⟩ := Option.isSome_iff_exists.mp complete.domain
  simp only [startScript, known, hasUser, hasPassword, hasDomain, Option.map_some]
  split
  · exact ⟨_, rfl⟩
  · exact ⟨_, rfl⟩

theorem enableProxy_quiet (device : Device) {fields : Fields} (complete : Complete fields)
    (hasHost : fields.host.isSome = true) : (enableProxy device fields).threw = false := by
  obtain ⟨host, known⟩ := Option.isSome_iff_exists.mp hasHost
  obtain ⟨effects, target, proxyType, tunnelled, typed⟩ := tunnel_complete complete
  obtain ⟨script, started⟩ := startScript_complete complete typed
  simp only [enableProxy, tunnelled, started, known, typed]

def sharedFields (settings : Settings) : Fields :=
  onStart .created (putProfile (Profile.fresh.getProfile settings))

theorem sharedFields_complete {settings : Settings}
    (notHttps : settings.getString .proxyType (ascii "http") ≠ ascii "https") :
    Complete (sharedFields settings) where
  user := by
    simp only [sharedFields, onStart]
    split <;> rfl
  password := by
    simp only [sharedFields, onStart]
    split <;> rfl
  domain := by
    simp only [sharedFields, onStart]
    split <;> rfl
  proxyType := rfl
  notHttps := fun same => notHttps (Option.some.inj same)

theorem onStart_certificate {fields : Fields} {bundle : Extras} (certificate : Bytes)
    (notHttps : bundle.getString .proxyType ≠ some (ascii "https")) :
    onStart fields (bundle.putString .certificate certificate) = onStart fields bundle := by
  have kept : (bundle.putString .certificate certificate).getString .proxyType =
      bundle.getString .proxyType := rfl
  simp only [onStart, kept, if_neg notHttps]
  rfl

theorem path_fields {settings : Settings}
    (autoConnect : settings.getBoolean .isAutoConnect false = true)
    (notHttps : settings.getString .proxyType (ascii "http") ≠ ascii "https") (path : Path) :
    path.fields settings = some (sharedFields settings) := by
  cases path with
  | screen mProfile =>
      have missing : (putProfile (mProfile.getProfile settings)).getString .proxyType ≠
          some (ascii "https") := fun same => notHttps (Option.some.inj same)
      exact congrArg some (onStart_certificate _ missing)
  | receiver =>
      have auto : (Profile.fresh.getProfile settings).isAutoConnect = true := autoConnect
      simp only [Path.fields, Path.intent, receiverOnReceive, auto, if_true, Option.map_some]
      rfl
  | widget => rfl

theorem widget_https (network : Network) (device : Device) {settings : Settings} {address : Bytes}
    (https : settings.getString .proxyType (ascii "http") = ascii "https")
    (direct : settings.getBoolean .isPAC false = false)
    (resolved : network.getByName (some (settings.getString .host [])) = some address) :
    Path.widget.enabled network device settings =
      some ⟨[.writeFile (base ++ ascii "stunnel.conf") []], true⟩ := by
  have fields : Path.widget.fields settings = some (sharedFields settings) := rfl
  have found : getAddress network (sharedFields settings) =
      some { sharedFields settings with host := some address } := by
    have notPac : (sharedFields settings).isPAC = false := direct
    have named : network.getByName (sharedFields settings).host = some address := resolved
    rw [getAddress, notPac]
    simp only [Bool.false_eq_true, if_false, resolve, named, Option.map_some]
  have typed : (sharedFields settings).proxyType = some (ascii "https") := congrArg some https
  have missing : (sharedFields settings).certificate = none := by
    simp only [sharedFields, onStart]
    split <;> rfl
  rw [Path.enabled, fields, Option.bind_some, found, Option.map_some, enableProxy, tunnel]
  simp only [typed, if_true, stunnel, missing]

theorem startsAlike_iff (settings : Settings)
    (autoConnect : settings.getBoolean .isAutoConnect false = true) :
    StartsAlike settings ↔ settings.getString .proxyType (ascii "http") ≠ ascii "https" := by
  constructor
  · rintro alike https
    -- Only the intent of the main screen has a certificate to read.
    have certificates := alike.fields (.screen .fresh) .widget
    have stored : (onStart .created (putProfile (Profile.fresh.getProfile settings))).certificate =
        none := by
      simp only [onStart]
      split <;> rfl
    have read : (onStart .created ((putProfile (Profile.fresh.getProfile settings)).putString
        .certificate (settings.getString .certificate []))).certificate =
          some (settings.getString .certificate []) :=
      if_pos (congrArg some https)
    have same := congrArg Fields.certificate (Option.some.inj certificates)
    rw [stored] at same
    exact absurd (read.symm.trans same) (by simp)
  · intro notHttps
    have fields := path_fields autoConnect notHttps
    refine ⟨fun path => by rw [fields]; rfl, fun first second => by rw [fields, fields], ?_, ?_⟩
    · intro network device first second
      rw [Path.enabled, Path.enabled, fields, fields]
    · intro network device path enabled done
      rw [Path.enabled, fields] at done
      obtain ⟨found, address, rfl⟩ := Option.map_eq_some_iff.mp done
      obtain ⟨complete, hasHost⟩ :=
        getAddress_complete (sharedFields_complete notHttps) (by simpa using address)
      exact enableProxy_quiet device complete hasHost

def autoConnected (proxyType : Bytes) : Settings :=
  Settings.empty
    |>.putBoolean .isAutoConnect true
    |>.putString .host (ascii "10.0.0.1")
    |>.putString .proxyType proxyType

theorem startsAlike_socks5 :
    (autoConnected (ascii "socks5")).getBoolean .isAutoConnect false = true ∧
      StartsAlike (autoConnected (ascii "socks5")) := by
  have autoConnect : (autoConnected (ascii "socks5")).getBoolean .isAutoConnect false = true := rfl
  refine ⟨autoConnect, (startsAlike_iff _ autoConnect).mpr fun same => ?_⟩
  exact absurd ((text_eq_iff .socks5 .https).mp same) (by decide)

theorem startsAlike_https :
    (autoConnected (ascii "https")).getBoolean .isAutoConnect false = true ∧
      ¬StartsAlike (autoConnected (ascii "https")) := by
  refine ⟨rfl, fun alike => ?_⟩
  let network : Network := { select := fun _ => none, getByName := id }
  let device : Device :=
    { getHostAddress := fun _ => none, packages := ⟨[], fun _ => []⟩, tordAppString := [],
      hasRedirectSupport := true, iptables := .default, dnsPort := 0 }
  have https : (autoConnected (ascii "https")).getString .proxyType (ascii "http") =
      ascii "https" := rfl
  have thrown := widget_https network device https rfl rfl
  have quiet := alike.quiet network device .widget _ thrown
  cases quiet

end ProxySet.Droid.Launch
