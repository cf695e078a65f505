import Solverr.Lib.Run
import Solverr.Lib.Dict
import Solverr.Lib.Recency
import Solverr.Lib.Eviction
import Solverr.Lib.Custody
import Solverr.Lib.SingleFlight
import Solverr.Lib.Text
import Solverr.Sessions.Store
import Solverr.Sessions.Calls
import Solverr.Sessions.Effect
import Solverr.Sessions.Origin
import Solverr.Sessions.Sequential
import Solverr.Sessions.Custody
import Solverr.Sessions.Claims
import Solverr.Sessions.Sweep
import Solverr.Sessions.Timeout
import Solverr.Sessions.Forget
import Solverr.Sessions.CreateCommand
import Solverr.Sessions.Egress
import Solverr.Passthrough.Route
import Solverr.Passthrough.Cache
import Solverr.Passthrough.Handler
import Solverr.Passthrough.Target
import Solverr.Passthrough.Coalesce
import Solverr.Passthrough.Publish
import Solverr.Controller.Fallback
import Solverr.Controller.Outcome
import Solverr.Controller.Budget
import Solverr.Controller.Memory
import Solverr.Lib.Changes
import Solverr.Lib.Split
import Solverr.Lib.Url
import Solverr.Redact.Body
import Solverr.Redact.Credentials
import Solverr.Redact.Independence
import Solverr.Engines.Pipeline
import Solverr.Engines.Titles
import Solverr.Engines.Watch
import Solverr.Engines.Browse
import Solverr.Engines.Assembly
import Solverr.Engines.Chrome
import Solverr.Engines.Clearing
import Solverr.Engines.Stealth
import Solverr.Engines.Press
import Solverr.Engines.Token
import Solverr.Lib.Percent
import Solverr.Lib.Html
import Solverr.PostForm.Build
import Solverr.PostForm.Urlencoded
import Solverr.Geo.Tags
import Solverr.Geo.Zones
import Solverr.Geo.Proxy
import Solverr.Geo.Exit
import Solverr.Geo.Resolving
import Solverr.Engines.Solve
import Solverr.Engines.GivingBack
import Solverr.Passthrough.Links
import Solverr.Redact.ProxyLogin
import Solverr.Geo.Calls
import Solverr.Geo.Remembered
import Solverr.Geo.Identity
import Solverr.Launch.Arguments
import Solverr.Launch.Driver
import Solverr.Launch.LeftBehind
import Solverr.Launch.Address
import Solverr.Launch.ProxyServer
import Solverr.Sessions.Ttl
import Solverr.Cookies.Dialects
import Solverr.Cookies.Batch
import Solverr.Cookies.RoundTrip
import Solverr.Controller.MaxTimeout
import Solverr.Engines.Deadlines
import Solverr.Geo.Countries
import Solverr.Geo.Canonical
import Solverr.Lib.Admission
import Solverr.Metrics.Labels
import Solverr.Lib.JsonText
import Solverr.Lib.JsonTrip
import Solverr.Lib.JsonPlain
import Solverr.Launch.Extension
import Solverr.Controller.Fields
import Solverr.Controller.Plan
import Solverr.Controller.Endpoint
import Solverr.Controller.Admission
import Solverr.Controller.Answer
import Solverr.Controller.Affinity
import Solverr.Lib.Annotated
import Solverr.Passthrough.Provenance
import Solverr.Lib.Base64
import Solverr.Engines.Document
import Solverr.Passthrough.Serve
import Solverr.Lib.Execution
import Solverr.Sessions.Exclusion
import Solverr.Passthrough.Ending
import Solverr.Engines.Context
