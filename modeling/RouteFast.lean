import RouteFast.Dispatch.CancelEndpoint
import RouteFast.Dispatch.Recovery
import RouteFast.Dispatch.Timeouts
import RouteFast.Driver.Availability
import RouteFast.Order.Containment
import RouteFast.Order.Idempotency
import RouteFast.Reliability.Retry
import RouteFast.Reliability.Spacing
import RouteFast.Routing.Incremental
import RouteFast.System.Cancellation
import RouteFast.System.Convergence
import RouteFast.System.Decided
import RouteFast.System.Freshness
import RouteFast.System.Audit
import RouteFast.System.Rest
import RouteFast.System.Saga
import RouteFast.System.Scoring
import RouteFast.System.Settlement
import RouteFast.Tracking.Gateway
import RouteFast.Tracking.Queries
