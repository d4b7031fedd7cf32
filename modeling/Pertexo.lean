import Pertexo.Addresses.Membership
import Pertexo.Archives.ArchiveRoundTrip
import Pertexo.Bodies.RulesAgree
import Pertexo.Callable.LocalCalls
import Pertexo.Canonical.ParsedText
import Pertexo.DecisionTrees.FailureRoutes
import Pertexo.Engine.EventNumbers
import Pertexo.Engine.JoinSettlement
import Pertexo.Engine.KeyInjectivity
import Pertexo.Engine.LoopBookkeeping
import Pertexo.Engine.OutcomeDelivery
import Pertexo.Engine.ParallelRuns
import Pertexo.Engine.PrunedInvocations
import Pertexo.Engine.Retries
import Pertexo.Folders.FolderAccessRules
import Pertexo.Folders.FolderTree
import Pertexo.HumanWaits.WaitRuns
import Pertexo.JsonBoundaries.BoundariesAgree
import Pertexo.JsonBoundaries.ByteCounters
import Pertexo.Notices.NoticeWindows
import Pertexo.Pages.PageRoundTrip
import Pertexo.Pagination.PaginationRuns
import Pertexo.Portability.RoundTrip
import Pertexo.PortableText.PortableAdmission
import Pertexo.Preflight.KeysKept
import Pertexo.RateLimits.LimiterRuns
import Pertexo.Redaction.RedactedBody
import Pertexo.Spreadsheets.GridRoundTrip
import Pertexo.StoredValues.FaithfulStorage
import Pertexo.Triggers.DeduplicatedEvents
import Pertexo.Triggers.OrderIndependence
import Pertexo.Triggers.ThrottledEvents
