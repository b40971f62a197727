import RuntimeRegistry.Targets
import RuntimeRegistry.Exclusivity
import RuntimeRegistry.Refusals
import RuntimeRegistry.Leases
import RuntimeRegistry.Assignment
import RuntimeRegistry.Succession
import RuntimeRegistry.Generations
import RuntimeRegistry.Tombstones
import RuntimeRegistry.Incarnations
import RuntimeRegistry.Admission
import RuntimeRegistry.Recency
import RuntimeRegistry.Outcomes
import RuntimeRegistry.Classification
import RuntimeRegistry.Deaths
import RuntimeRegistry.Runtimes
import RuntimeRegistry.Reclaiming
import RuntimeRegistry.Healing
import RuntimeRegistry.Coordinator
import RuntimeRegistry.Endpoints
import RuntimeRegistry.Retries
import RuntimeRegistry.Population
import RuntimeRegistry.Gauges
import RuntimeRegistry.Clients
import RuntimeRegistry.Envelopes
import RuntimeRegistry.Lifecycles
import RuntimeRegistry.Available
import RuntimeRegistry.Snapshots
import RuntimeRegistry.Isolation
import RuntimeRegistry.Corruption
import RuntimeRegistry.Images
import RuntimeRegistry.Loading
import RuntimeRegistry.Reception
import RuntimeRegistry.Replies
import RuntimeRegistry.Revalidation
import RuntimeRegistry.Validity
import RuntimeRegistry.Precedence
import RuntimeRegistry.CrcTables
import RuntimeRegistry.Delimiting
import RuntimeRegistry.References
import RuntimeRegistry.Counters
import RuntimeRegistry.Histories
import RuntimeRegistry.Consistency
import RuntimeRegistry.Digests
import RuntimeRegistry.Closings
import RuntimeRegistry.Network
import RuntimeRegistry.Visibility
import RuntimeRegistry.Convergence
