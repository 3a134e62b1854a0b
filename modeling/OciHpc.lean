import OciHpc.ClusterCli.BackupSync
import OciHpc.ClusterCli.CleanupJournal
import OciHpc.ClusterCli.UidNumbers
import OciHpc.ClusterCli.UserAddLdap
import OciHpc.ClusterCli.UserAddTopic
import OciHpc.ClusterCli.UserDeleteOrder
import OciHpc.Destroy.Lock
import OciHpc.Autoscale.DestroyList
import OciHpc.Autoscale.Admission
import OciHpc.Autoscale.Caps
import OciHpc.Autoscale.NodeLists
import OciHpc.Slurm.TopicCleanup
import OciHpc.Slurm.ScopeHistory
import OciHpc.Slurm.MailProg
import OciHpc.Slurm.PublishRate
import OciHpc.Slurm.WorkerQueue
import OciHpc.Resize.Dns
import OciHpc.Resize.ComputeClusterAdd
import OciHpc.Resize.PoolAdd
import OciHpc.Resize.RemovedLines
import OciHpc.Resize.CoversOnce
import OciHpc.Base.Files
import OciHpc.Base.Trace
import OciHpc.Base.JsonEquality
import OciHpc.Resize.InventoryFile
import OciHpc.Resize.RemoveSelection
import OciHpc.Resize.HostLineRewrite
import OciHpc.Resize.MountPoint
import OciHpc.Slurm.TableLayout
import OciHpc.Slurm.Truncation
import OciHpc.Resize.Calls
import OciHpc.Resize.PendingJournal
import OciHpc.Resize.Termination
import OciHpc.Resize.PendingRemoval
import OciHpc.Resize.CleanupComputeCluster
import OciHpc.Resize.PendingReached
import OciHpc.Resize.ResumePolicy
import OciHpc.Resize.OwnedOnly
import OciHpc.Resize.AllOrNothing
import OciHpc.Resize.WriteAhead
import OciHpc.Resize.InventoryPreparation
import OciHpc.Resize.UpdateTFState
import OciHpc.Rack.NodeOrdering
import OciHpc.Partitions.EvenDistribution
import OciHpc.Partitions.ClusterNodes
import OciHpc.OpenOnDemand.PhysicalCores
import OciHpc.HealthChecks.LinkFlapping
import OciHpc.HealthChecks.Xid
import OciHpc.Slurm.TopicNames
import OciHpc.Slurm.BoundedRetries
import OciHpc.Monitor.JobRows
import OciHpc.Base.Base64
import OciHpc.Base.JsonText
import OciHpc.Base.JsonRoundTrip
import OciHpc.ClusterCli.SnapshotText
import OciHpc.Resize.CrashConvergence
import OciHpc.Autoscale.ManyPasses
import OciHpc.Resize.InventoryHistory
import OciHpc.Slurm.PrivateDelivery
import OciHpc.Destroy.DeletionHistory
