import HostAgent.Cluster
import HostAgent.Config
import HostAgent.Container.Daemon
import HostAgent.Identity
import HostAgent.Main
import HostAgent.Proofs.Agent.Deliveries
import HostAgent.Proofs.Agent.Overwrites
import HostAgent.Proofs.Agent.Rejections
import HostAgent.Proofs.Agent.Sequence
import HostAgent.Proofs.Agent.SingleMark
import HostAgent.Proofs.Agent.Turnover
import HostAgent.Proofs.Cluster.Directory
import HostAgent.Proofs.Cluster.Placement
import HostAgent.Proofs.Cluster.Routing
import HostAgent.Proofs.Cluster.Translation
import HostAgent.Proofs.Config.Servers
import HostAgent.Proofs.Container.Bodies
import HostAgent.Proofs.Container.Devices
import HostAgent.Proofs.Container.History
import HostAgent.Proofs.Container.Reports
import HostAgent.Proofs.Container.Requests
import HostAgent.Proofs.Container.StandIn
import HostAgent.Proofs.Record.Lenient
import HostAgent.Proofs.Store.CommitOrder
import HostAgent.Proofs.Store.Indexes
import HostAgent.Proofs.Store.Isolation
import HostAgent.Proofs.Store.KeyAddresses
import HostAgent.Proofs.Store.Refinement
import HostAgent.Proofs.Store.Retries
import HostAgent.Proofs.Store.Scan
import HostAgent.Store.Etcd
