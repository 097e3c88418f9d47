import IncusDemo.Conc.Prog
import IncusDemo.Conc.System
import IncusDemo.Conc.Traced
import IncusDemo.Conc.Alone
import IncusDemo.Conc.Eval
import IncusDemo.Conc.Rely
import IncusDemo.Conc.Account
import IncusDemo.Go.Std
import IncusDemo.Go.Map
import IncusDemo.Go.Strconv
import IncusDemo.Go.Io
import IncusDemo.Go.Utf8
import IncusDemo.Go.Net
import IncusDemo.Go.Sha256
import IncusDemo.Js.Number
import IncusDemo.Js.Json
import IncusDemo.Js.Lines
import IncusDemo.Go.Json
import IncusDemo.Sql.Table
import IncusDemo.Config
import IncusDemo.Db
import IncusDemo.Incus
import IncusDemo.Effect
import IncusDemo.Encoding
import IncusDemo.Instance
import IncusDemo.Start
import IncusDemo.Rwc
import IncusDemo.Works
import IncusDemo.Address
import IncusDemo.Proxy
import IncusDemo.Startup
import IncusDemo.Endpoints
import IncusDemo.Statistics
import IncusDemo.Feedback
import IncusDemo.Console
import IncusDemo.Server
import IncusDemo.Protocol
import IncusDemo.Follows
import IncusDemo.Steps
import IncusDemo.Sequential
import IncusDemo.Sessions
import IncusDemo.Handout
import IncusDemo.Limits
import IncusDemo.Names
import IncusDemo.Timeout
import IncusDemo.ConsoleSafety
import IncusDemo.Mail
import IncusDemo.Status
import IncusDemo.Pool
import IncusDemo.Resync
import IncusDemo.Reload
import IncusDemo.Identity
import IncusDemo.Partition
import IncusDemo.ReadOnly
import IncusDemo.StartStream
import IncusDemo.Register
import IncusDemo.Sql.Reference
import IncusDemo.ForeignKey
import IncusDemo.Rejected
import IncusDemo.Isolation
import IncusDemo.Placement
import IncusDemo.StartupLoop
import IncusDemo.StartupSafety
import IncusDemo.Expiry
import IncusDemo.Agreement
import IncusDemo.Browser
import IncusDemo.Cleanups
import IncusDemo.Recovery
import IncusDemo.Creation
import IncusDemo.FailedStart
import IncusDemo.Rollback
import IncusDemo.Conc.Contract
import IncusDemo.Logic
import IncusDemo.Connection
import IncusDemo.Lock
import IncusDemo.Mutex
import IncusDemo.Foreign
import IncusDemo.Conc.Roles
import IncusDemo.Go.Copy
import IncusDemo.Relay
import IncusDemo.RelaySafety
import IncusDemo.Go.Pipe
import IncusDemo.ConsoleRelay
import IncusDemo.ConsoleOrder
import IncusDemo.Conc.Reactive
import IncusDemo.Js.Coerce
import IncusDemo.Page
import IncusDemo.PageScreens
import IncusDemo.PageConsole
import IncusDemo.PageStart
import IncusDemo.PageSession
import IncusDemo.Sql.Evolution
import IncusDemo.Ledger
import IncusDemo.PoolSize
