import Kernexys.Lib.Machine
import Kernexys.Lib.Program
import Kernexys.Lib.Linearization
import Kernexys.Lib.Coupling
import Kernexys.Lib.Paging
import Kernexys.Lib.Text
import Kernexys.Lib.Patterns
import Kernexys.Lib.Json
import Kernexys.Lib.JsonText
import Kernexys.Lib.Hex
import Kernexys.Lib.Runs
import Kernexys.Lib.JsonCompare
import Kernexys.Lib.CanonicalJson
import Kernexys.Lib.Table
import Kernexys.Lib.Source
import Kernexys.Lib.OpenApi
import Kernexys.Config.Environment
import Kernexys.Config.Settings
import Kernexys.Queue.Redis
import Kernexys.Queue.Scripts
import Kernexys.Queue.Worker
import Kernexys.Queue.Delivery
import Kernexys.Queue.Expiry
import Kernexys.Queue.Lease
import Kernexys.Queue.Results
import Kernexys.Queue.Sweep
import Kernexys.Queue.Capacity
import Kernexys.Queue.Enqueue
import Kernexys.Queue.Fleet
import Kernexys.Queue.Redated
import Kernexys.Queue.Margin
import Kernexys.Queue.Periodic
import Kernexys.Queue.Timing
import Kernexys.Queue.Order
import Kernexys.Controller.Objects
import Kernexys.Controller.Workload
import Kernexys.Controller.Resources
import Kernexys.Controller.Status
import Kernexys.Controller.Reconcile
import Kernexys.Controller.ApiServer
import Kernexys.Controller.Convergence
import Kernexys.Controller.ServiceDrift
import Kernexys.Controller.InvalidSpec
import Kernexys.Controller.Trace
import Kernexys.Controller.System
import Kernexys.Controller.Ownership
import Kernexys.Controller.StatusRuns
import Kernexys.Controller.Serving
import Kernexys.Controller.Rollout
import Kernexys.Controller.Handover
import Kernexys.Http.BodyLimit
import Kernexys.Http.Replay
import Kernexys.Inference.Request
import Kernexys.Inference.Outcome
import Kernexys.Inference.JobIds
import Kernexys.Inference.Jobs
import Kernexys.Inference.Endpoint
import Kernexys.Inference.Classifier
import Kernexys.Api.Schemas
import Kernexys.Api.Resource
import Kernexys.Api.Crd
import Kernexys.Api.Reading
import Kernexys.Api.Quantities
import Kernexys.Api.RoundTrip
import Kernexys.Api.Database
import Kernexys.Api.Gateway
import Kernexys.Api.Routes
import Kernexys.Api.Trace
import Kernexys.Api.Registry
import Kernexys.Api.Linearizable
import Kernexys.Api.Listing
import Kernexys.Api.VersionAnswers
import Kernexys.Api.Deployments
import Kernexys.Api.Versions
import Kernexys.Api.RollbackCalls
import Kernexys.Api.Rollback
import Kernexys.Platform.Workloads
