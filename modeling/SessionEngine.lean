import SessionEngine.Worker.Pool
import SessionEngine.Worker.Drain
import SessionEngine.Session.Manager
import SessionEngine.Session.Lifecycle
import SessionEngine.Scheduler.Dispatch
import SessionEngine.Scheduler.Shutdown
import SessionEngine.Cluster.Master
import SessionEngine.Cluster.Subscribers
import SessionEngine.Cluster.Versions
import SessionEngine.Cluster.Jar
import SessionEngine.Cluster.WorkerClient
import SessionEngine.Lock.InMemory
import SessionEngine.Lock.Safety
import SessionEngine.Lock.Exclusion
import SessionEngine.Payload.Schema
import SessionEngine.Token.Heartbeat
import SessionEngine.Token.Claim
import SessionEngine.Token.Refresh
import SessionEngine.Client.Headers
import SessionEngine.Client.OrderedHeader
import SessionEngine.Fingerprint.Profile
import SessionEngine.Proxy.Rotation
import SessionEngine.Token.Background
import SessionEngine.Lock.Cancel
import SessionEngine.Fingerprint.Sensor
import SessionEngine.Encoding.Url
import SessionEngine.Fingerprint.SensorRequest
import SessionEngine.Encoding.Quote
import SessionEngine.Challenge.Otto
import SessionEngine.Dashboard.Logs
import SessionEngine.Token.Publication
import SessionEngine.Proxy.Load
import SessionEngine.Metrics.Counters
import SessionEngine.Dashboard.Config
import SessionEngine.Session.Startup
import SessionEngine.Payload.Validator
import SessionEngine.Config.Load
import SessionEngine.Token.Renewal
import SessionEngine.Cluster.Status
import SessionEngine.Fingerprint.Generate
import SessionEngine.Payload.Report
