import ProxySet.Lib.StepRun
import ProxySet.Lib.TokenReader
import ProxySet.Lib.RelayFlow
import ProxySet.Lib.FieldScript
import ProxySet.Redsocks.EventCore
import ProxySet.Redsocks.Client
import ProxySet.Redsocks.Progress
import ProxySet.Redsocks.HttpWait
import ProxySet.Redsocks.HttpAnswer
import ProxySet.Redsocks.HttpRelay
import ProxySet.Redsocks.HttpRequest
import ProxySet.Redsocks.Socks5
import ProxySet.Redsocks.Verdicts
import ProxySet.Redsocks.DigestCount
import ProxySet.Lib.Lines
import ProxySet.Redsocks.ParserLayout
import ProxySet.Redsocks.Backoff
import ProxySet.Redsocks.LifeCycle
import ProxySet.Redsocks.AuditWorld
import ProxySet.Lib.ShellWords
import ProxySet.Lib.SortedSearch
import ProxySet.Lib.TextReplace
import ProxySet.Redsocks.Numbers
import ProxySet.Droid.EnableProxy
import ProxySet.Lib.FirstMatch
import ProxySet.Droid.Iptables
import ProxySet.Droid.RuleSet
import ProxySet.Lib.ShellScore
import ProxySet.Droid.RootScript
import ProxySet.Redsocks.ConfigCore
import ProxySet.Redsocks.ConfigText
import ProxySet.Droid.ProxySh
import ProxySet.Droid.ProxyConf
import ProxySet.App.StartRedsocks
import ProxySet.App.Redirect
import ProxySet.Tool.CopyDir
import ProxySet.Droid.StopStart
import ProxySet.Droid.Settings
import ProxySet.Droid.LaunchPaths
import ProxySet.Droid.DnsCore
import ProxySet.Droid.DnsAnswers
import ProxySet.Droid.DnsPending
import ProxySet.Droid.Profiles
import ProxySet.Droid.ProfileList
import ProxySet.Droid.ProfileStore
import ProxySet.Droid.AutoConnect
import ProxySet.Droid.BypassList
import ProxySet.App.Install
import ProxySet.Redsocks.BackoffBounds
import ProxySet.Redsocks.HttpRewrite
import ProxySet.Redsocks.Socks5Auth
import ProxySet.Redsocks.HttprBuffer
import ProxySet.Redsocks.ParserBuffer
import ProxySet.Redsocks.Digest
import ProxySet.Droid.DnsMessage
import ProxySet.Droid.DnsNames
import ProxySet.Droid.DnsAddress
import ProxySet.Droid.DnsLoop
import ProxySet.Droid.BypassAddrs
import ProxySet.Droid.MultiSelect
import ProxySet.Lib.LifeLog
import ProxySet.Redsocks.UdpCore
import ProxySet.Redsocks.UdpSteps
import ProxySet.Redsocks.UdpRelay
import ProxySet.Redsocks.UdpBound
import ProxySet.Redsocks.UdpLife
import ProxySet.Redsocks.UdpQueue
import ProxySet.Redsocks.ParserNumeral
import ProxySet.Redsocks.ParserToken
import ProxySet.Redsocks.ConfigValues
import ProxySet.Droid.Credentials
import ProxySet.App.Listeners
import ProxySet.Lib.StreamCoder
import ProxySet.Lib.StableSort
import ProxySet.Shadowsocks.Encrypt
import ProxySet.Shadowsocks.Cipher
import ProxySet.Shadowsocks.Local
import ProxySet.Shadowsocks.Request
import ProxySet.Shadowsocks.Relay
import ProxySet.Shadowsocks.Forward
import ProxySet.Redsocks.Socks5Asked
import ProxySet.Shadowsocks.Tunnel
import ProxySet.Lib.BlockStream
import ProxySet.Redsocks.Md5Stream
import ProxySet.Redsocks.Base64
import ProxySet.Lib.CircularList
import ProxySet.Redsocks.ListCore
import ProxySet.Redsocks.ListLife
