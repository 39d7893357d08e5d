import Langbridge.Federation.Smq
import Langbridge.Federation.JoinOrder
import Langbridge.Federation.FullQuery
import Langbridge.Federation.StageColumns
import Langbridge.Federation.SourceTables
import Langbridge.Runtime.CursorOrder
import Langbridge.Runtime.KeyedMerges
import Langbridge.Runtime.RowFilters
import Langbridge.Runtime.ResourceRows
import Langbridge.Federation.ApiScan
import Langbridge.Runtime.SyncFailures
import Langbridge.Runtime.DatasetEdits
import Langbridge.Runtime.DatasetDescriptors
import Langbridge.Runtime.FederatedAliases
import Langbridge.Runtime.SyncedColumns
import Langbridge.Runtime.PreviewLimit
import Langbridge.Orchestrator.AnalystTools
import Langbridge.Runtime.SessionSecrets
import Langbridge.Runtime.UnitsOfWork
import Langbridge.Runtime.AskFailures
import Langbridge.Runtime.OdbcStartup
import Langbridge.Runtime.OdbcRows
import Langbridge.Runtime.OdbcParams
import Langbridge.Runtime.OdbcReplies
import Langbridge.Runtime.LoginIdentifiers
import Langbridge.Runtime.RequestAuth
import Langbridge.Connectors.LinkHeader
import Langbridge.Connectors.HandWritten
import Langbridge.Connectors.Extraction
import Langbridge.Connectors.SelectGuard
import Langbridge.Connectors.FaissVectors
import Langbridge.Federation.QueryService
import Langbridge.Federation.SchedulerRuns
import Langbridge.Federation.ArtifactWrites
import Langbridge.Runtime.VectorRefresh
import Langbridge.Runtime.RefreshIntervals
import Langbridge.Runtime.BackgroundTasks
import Langbridge.Runtime.ConnectorUpdates
import Langbridge.Federation.SourceBindings
import Langbridge.Semantic.JoinSides
import Langbridge.Semantic.ModelBuilder
import Langbridge.Semantic.ResultRows
import Langbridge.Semantic.Bindings
import Langbridge.Semantic.UnifiedModel
import Langbridge.Orchestrator.RouteAvoidance
import Langbridge.Orchestrator.DeniedRequests
import Langbridge.Orchestrator.TemporalPredicates
import Langbridge.Orchestrator.MeasureReferences
import Langbridge.Orchestrator.Conversations
