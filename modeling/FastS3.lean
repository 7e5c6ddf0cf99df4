import FastS3.Alloc.Checkpointer
import FastS3.Alloc.Pins
import FastS3.Alloc.Reassembly
import FastS3.Alloc.Recovered
import FastS3.Alloc.Replay
import FastS3.Alloc.Windows
import FastS3.Batch.Inventory
import FastS3.Batch.Truthful
import FastS3.Core.Md5x4
import FastS3.Daemon.Recovery
import FastS3.Device.Format
import FastS3.Engine.BatchedRead
import FastS3.Engine.Compaction
import FastS3.Engine.Confinement
import FastS3.Engine.EncryptedRead
import FastS3.Engine.LockClock
import FastS3.Engine.RestoreAddress
import FastS3.Engine.Rewrap
import FastS3.Http.Notify
import FastS3.Meta.AuditEntries
import FastS3.Meta.BackfillInvariant
import FastS3.Meta.BucketFormats
import FastS3.Meta.CurrentViews
import FastS3.Meta.ReplicaHistory
import FastS3.Meta.RuleCache
import FastS3.Meta.Sessions
import FastS3.Meta.StoredOps
import FastS3.Repl.Faithful
import FastS3.Repl.Topology
import FastS3.S3.AmzDate
import FastS3.S3.ArchiveGate
import FastS3.S3.Audit
import FastS3.S3.ByteRanges
import FastS3.S3.DefaultEncryption
import FastS3.S3.Glob
import FastS3.S3.LockedVersions
import FastS3.S3.PartRead
import FastS3.S3.PolicyCache
import FastS3.S3.PolicyContext
import FastS3.S3.QueryOrder
import FastS3.S3.StreamRead
