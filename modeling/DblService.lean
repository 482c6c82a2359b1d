import DblService.Manager.SettingsManager
import DblService.Manager.DomainManager
import DblService.Framework.Run
import DblService.DnsProxy
import DblService.Updater
import DblService.Whitelist
import DblService.Isolation
import DblService.Crypto
import DblService.Auth
import DblService.Service.ServiceConnection
import DblService.Service.Access
import DblService.Client.Password
import DblService.Client.Wire
import DblService.Service.Reports
import DblService.Blocking
import DblService.Client.Domains
import DblService.DnsConfig
import DblService.Framework.Framing
import DblService.Framework.Monitor
import DblService.Leases
import DblService.Mgmt
import DblService.Publications
import DblService.Service.Answers
import DblService.Service.Chunks
import DblService.Client.Connection
import DblService.ConfigFile
import DblService.Conflicts
import DblService.Decoding
import DblService.Headers
import DblService.HttpResponder
import DblService.Query
import DblService.Configurator
import DblService.Dates
import DblService.Framework.Substitution
import DblService.Hits
import DblService.Launch
import DblService.Request
import DblService.Template
import DblService.Worker
import DblService.Policy.ProxyFile
import DblService.Policy.Updates
import DblService.CommandLine
import DblService.Client.Calls
import DblService.Unix.Rounds
import DblService.Unix.Workers
import DblService.Unix.Proxy
import DblService.Policy.Threads
import DblService.System
import DblService.Client.Reads
