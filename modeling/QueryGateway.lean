import QueryGateway.Log.Record
import QueryGateway.Main
import QueryGateway.Operation.Record
import QueryGateway.Tool.Dispatcher
import QueryGateway.Value.Json.Reading
import QueryGateway.Value.Arithmetic
import QueryGateway.Proofs.Engine.Commits
import QueryGateway.Proofs.Plan.Meaning
import QueryGateway.Proofs.Plan.Parameters
import QueryGateway.Proofs.Plan.WellClosed
import QueryGateway.Proofs.Database.Events
import QueryGateway.Proofs.Retry.Tries
import QueryGateway.Proofs.Engine.Courses
import QueryGateway.Proofs.Engine.Attempts
import QueryGateway.Proofs.Engine.Atomicity
import QueryGateway.Proofs.Settings.Bounds
import QueryGateway.Proofs.Engine.Policy
import QueryGateway.Proofs.Database.Holding
import QueryGateway.Proofs.Engine.Connections
import QueryGateway.Proofs.Sql.FirstWord
import QueryGateway.Proofs.Plan.Openings
import QueryGateway.Proofs.Plan.Columns
import QueryGateway.Proofs.Plan.Orderings
import QueryGateway.Proofs.Engine.Durability
import QueryGateway.Proofs.Engine.Retrying
import QueryGateway.Proofs.Database.Agreement
import QueryGateway.Proofs.Engine.Secrecy
import QueryGateway.Proofs.Operation.Kinds
import QueryGateway.Proofs.Engine.Findings
import QueryGateway.Proofs.Tool.Dispatching
import QueryGateway.Proofs.Sql.Sentences
import QueryGateway.Proofs.Sql.Wordings
import QueryGateway.Proofs.Sql.Directives
import QueryGateway.Proofs.Engine.Binding
import QueryGateway.Proofs.Engine.SchemaChanges
import QueryGateway.Proofs.Engine.Prechecks
import QueryGateway.Proofs.Engine.StepNumbers
import QueryGateway.Proofs.Plan.Queries
import QueryGateway.Proofs.Plan.Definitions
import QueryGateway.Proofs.Sql.Literals
import QueryGateway.Proofs.Failure.Signals
import QueryGateway.Proofs.Tool.Selections
import QueryGateway.Proofs.Log.Passwords
import QueryGateway.Proofs.Sql.Formatting
import QueryGateway.Proofs.Sql.Defaults
import QueryGateway.Proofs.Sql.ColumnTypes
import QueryGateway.Proofs.Engine.Accounts
import QueryGateway.Proofs.Plan.ProtectedSchemas
import QueryGateway.Proofs.Settings.ConnectionStrings
import QueryGateway.Proofs.Settings.Masks
import QueryGateway.Proofs.Engine.WarmUps
import QueryGateway.Proofs.CommandLine.Endings
import QueryGateway.Proofs.Value.Documents
import QueryGateway.Proofs.Engine.Tests
import QueryGateway.Proofs.Tool.Attribution
import QueryGateway.Proofs.Retry.Line
