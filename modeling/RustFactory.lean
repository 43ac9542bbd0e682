import RustFactory.Storage.Model
import RustFactory.Storage.Local
import RustFactory.Storage.Accounting
import RustFactory.Storage.Codec
import RustFactory.Storage.Redb
import RustFactory.Storage.Refinement
import RustFactory.Storage.Consistency
import RustFactory.Storage.Integrity
import RustFactory.Storage.Versions
import RustFactory.Agent.Model
import RustFactory.Workflow.Model
import RustFactory.Workflow.Lifecycle
import RustFactory.Lib.Digest
import RustFactory.Gateway.Model
import RustFactory.Workflow.Interleaving
import RustFactory.Workflow.Cancellation
import RustFactory.Workflow.Completion
import RustFactory.Knowledge.Model
import RustFactory.Agent.Runtime
import RustFactory.Agent.Planning
import RustFactory.Agent.Authority
import RustFactory.Agent.Validation
import RustFactory.Workflow.Index
import RustFactory.Lib.Framing
import RustFactory.Policy.Model
import RustFactory.Policy.Canonical
import RustFactory.Evaluation.Canonical
import RustFactory.Agent.Digest
import RustFactory.Agent.Ceiling
import RustFactory.Agent.Request
import RustFactory.Lib.Text
import RustFactory.Observability.Model
import RustFactory.Observability.Propagation
import RustFactory.Memory.Agentic
import RustFactory.Memory.Local
import RustFactory.Memory.Refinement
import RustFactory.Memory.Failure
import RustFactory.Auth.Decision
import RustFactory.Auth.Biscuit
import RustFactory.Auth.Minted
import RustFactory.Evaluation.Service
import RustFactory.Evaluation.Assessment
import RustFactory.Evaluation.Store
import RustFactory.Memory.Isolation
import RustFactory.Observability.Telemetry
import RustFactory.Gateway.Sorting
import RustFactory.Observability.Retention
import RustFactory.Workflow.Json
import RustFactory.Agent.Listing
import RustFactory.Mcp.Router
import RustFactory.Mcp.Routing
import RustFactory.Workflow.NormalForm
import RustFactory.Workflow.Duplicates
import RustFactory.Mcp.Ingress
import RustFactory.Lib.Program
import RustFactory.Sandbox.Docker
import RustFactory.Sandbox.Daemon
import RustFactory.Sandbox.Starts
import RustFactory.Mcp.Gates
import RustFactory.Sandbox.Ownership
import RustFactory.Lib.JsonText
import RustFactory.Memory.Mcp
import RustFactory.Storage.Listing
import RustFactory.Lib.Update
import RustFactory.Storage.Writes
import RustFactory.Agent.Budget
import RustFactory.Observability.Headers
import RustFactory.Workflow.Stored
import RustFactory.Knowledge.Static
import RustFactory.Lib.JsonSize
import RustFactory.Memory.Contents
import RustFactory.Observability.Mcp
import RustFactory.Memory.Page
import RustFactory.Lib.Utf8Lossy
import RustFactory.Sandbox.Execute
import RustFactory.Lib.Toml
import RustFactory.Lib.DebugText
import RustFactory.Project.Plan
import RustFactory.Evaluation.Length
import RustFactory.Workflow.Identity
import RustFactory.Lib.FileTree
import RustFactory.Project.Materialize
import RustFactory.Project.Writers
import RustFactory.Demo.Evidence
import RustFactory.Observability.Service
import RustFactory.Demo.Composition
import RustFactory.Demo.Pipeline
import RustFactory.Demo.Replay
