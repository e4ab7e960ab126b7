import Gargantuan.RemoteLink
import Gargantuan.SchedulerOrder
import Gargantuan.SimulatedRuns
import Gargantuan.SessionRuns
import Gargantuan.StructuralFairness
import Gargantuan.StructuralPlanningRuns
import Gargantuan.CharacterReconciliation
import Gargantuan.PooledFeedbackLedger
import Gargantuan.ReliableByteAdmissionCredit
import Gargantuan.ReliableByteAdmissionTurns
import Gargantuan.RemoteEncoding
import Gargantuan.ReplicaCandidateRemoval
import Gargantuan.SchedulerSupersession
import Gargantuan.GameSessionEncoding
import Gargantuan.ReplicationEncoding
import Gargantuan.ObjectRegistry
import Gargantuan.ReplicaSession
import Gargantuan.PreparedPropertyReplay
import Gargantuan.SpatialRuntimeProjectionRuns
import Gargantuan.ContentCapacity
import Gargantuan.ContentDemand
import Gargantuan.RenderDirtyRuns
import Gargantuan.TagIndexRuns
import Gargantuan.RenderProjectionRuns
import Gargantuan.ResidencyDemandRuns
import Gargantuan.CompiledInputGraphRuns
import Gargantuan.EntitlementRequestRuns
import Gargantuan.EntitlementServiceRuns
import Gargantuan.WireJournalDocuments
import Gargantuan.CreditRefill
import Gargantuan.PackageBuilder
import Gargantuan.AssetPublication
import Gargantuan.SnapshotHierarchy
import Gargantuan.ObjMeshes
import Gargantuan.CoarseQueries
import Gargantuan.ProtocolUtf8
import Gargantuan.SchedulerFlushes
import Gargantuan.ParsedManifests
import Gargantuan.PlanningLookup
import Gargantuan.RuntimeSchemaLifecycle
