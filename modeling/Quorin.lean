import Quorin.Library.ByteMemory
import Quorin.Library.MemoryProgram
import Quorin.Library.LinearProbe
import Quorin.Construction.Segment
import Quorin.Proof.Segment.SegmentState
import Quorin.Construction.Layout
import Quorin.Construction.Segment
import Quorin.Proof.Segment.SegmentState
import Quorin.Library.LinearProbe
import Quorin.Proof.Segment.LayoutSound
import Quorin.Proof.Segment.SegmentState
import Quorin.Proof.Segment.InsertPlan
import Quorin.Proof.Segment.Operations
import Quorin.Proof.Segment.WritePrefix
import Quorin.Library.BoundedMap
import Quorin.Proof.Segment.Refinement
import Quorin.Construction.History
import Quorin.Proof.Segment.MapSpec
import Quorin.Proof.Segment.Histories
import Quorin.Construction.Writer
import Quorin.Proof.Segment.Writer
import Quorin.Proof.Segment.LockFree
import Quorin.Construction.InsertMany
import Quorin.Construction.Evolution
import Quorin.Proof.Evolution.FieldOffsets
import Quorin.Proof.Evolution.BulkInsert
import Quorin.Proof.Evolution.TranslationColumns
import Quorin.Proof.Evolution.TranslationTable
import Quorin.Proof.Evolution.Migration
import Quorin.Construction.RowPack
import Quorin.Construction.OfflineStore
import Quorin.Construction.Producer
import Quorin.Construction.Consumer
import Quorin.Construction.ConsumerSystem
import Quorin.Construction.ConsumerSteps
import Quorin.Proof.Offline.Conservation
import Quorin.Proof.Consumer.WireText
import Quorin.Proof.Consumer.ApplySpec
import Quorin.Proof.Consumer.Durability
import Quorin.Proof.Consumer.DurableRuns
import Quorin.Proof.Consumer.Delivery
import Quorin.Proof.Offline.AcceptedRows
import Quorin.Proof.Consumer.Blocking
import Quorin.Proof.Consumer.Progress
import Quorin.Proof.Consumer.SegmentLog
import Quorin.Proof.Evolution.CrashedUpgrade
import Quorin.Construction.Registry
import Quorin.Proof.Registry.Accounting
import Quorin.Proof.Registry.Pointer
import Quorin.Proof.Registry.Removal
import Quorin.Proof.Registry.Holders
import Quorin.Construction.Upgrade
import Quorin.Proof.Upgrade.CallRuns
import Quorin.Proof.Upgrade.PointerSafety
import Quorin.Construction.Hydration
import Quorin.Proof.Upgrade.HydrationVisibility
import Quorin.Construction.PackRow
import Quorin.Proof.Evolution.BulkParity
import Quorin.Construction.Assembly
import Quorin.Proof.Serving.Probes
import Quorin.Proof.Serving.ReadParity
import Quorin.Construction.PointInTime
import Quorin.Library.Utf8Order
import Quorin.Proof.Offline.PointInTime
import Quorin.Construction.DrainCheck
import Quorin.Proof.Consumer.StreamOrder
import Quorin.Proof.Upgrade.DrainCheck
import Quorin.Proof.Consumer.RowBuffers
import Quorin.Proof.Consumer.HomeSegments
import Quorin.Proof.Consumer.Arrivals
import Quorin.Proof.Consumer.DrainGates
import Quorin.Proof.Consumer.LastWrite
import Quorin.Proof.Consumer.ReplayRuns
import Quorin.Proof.Consumer.BatchOutcome
import Quorin.Proof.Consumer.AllOrNothing
import Quorin.Proof.Consumer.FlushTask
import Quorin.Proof.Consumer.AckTrim
import Quorin.Library.Inevitable
import Quorin.Proof.Consumer.DrainTermination
import Quorin.Construction.WatchdogScripts
import Quorin.Proof.Watchdog.Scripts
import Quorin.Construction.Watchdog
import Quorin.Proof.Watchdog.DrainQueue
import Quorin.Construction.WatchdogSystem
import Quorin.Proof.Watchdog.PidReuse
import Quorin.Proof.Watchdog.RegistryKeys
import Quorin.Construction.OverlappingUpgrades
import Quorin.Proof.Upgrade.Overlap
import Quorin.Proof.Upgrade.SerialUpgrades
import Quorin.Proof.Consumer.ReadYourWrites
import Quorin.Construction.ConcurrentUpgrade
import Quorin.Proof.Evolution.CopiedRows
import Quorin.Proof.Upgrade.CopyWindow
import Quorin.Proof.Upgrade.OpeningSpecs
import Quorin.Proof.Upgrade.CallStages
import Quorin.Proof.Upgrade.YieldedRuns
import Quorin.Proof.Evolution.CopySoundness
import Quorin.Proof.Evolution.Composition
import Quorin.Construction.ConsumerLock
import Quorin.Proof.Consumer.ConsumerLock
import Quorin.Proof.Consumer.PackedRow
import Quorin.Proof.Consumer.EncodedValues
import Quorin.Proof.Evolution.OldMessages
import Quorin.Proof.Consumer.Applicable
import Quorin.Construction.ColumnBuffers
import Quorin.Proof.Offline.ColumnBuffers
import Quorin.Proof.Offline.ColumnTables
import Quorin.Proof.Offline.ColumnStores
import Quorin.Proof.Offline.BufferConservation
import Quorin.Proof.Serving.WireRoundTrip
import Quorin.Construction.DateText
import Quorin.Construction.LatestFeatures
import Quorin.Proof.Offline.DateText
import Quorin.Proof.Offline.LatestFeatures
import Quorin.Proof.Offline.PartitionPruning
import Quorin.Construction.AppliedStream
import Quorin.Proof.Offline.AppliedStream
import Quorin.Proof.Upgrade.HydratedSegment
import Quorin.Proof.Upgrade.StreamHydration
import Quorin.Library.Blake2b
import Quorin.Construction.HashKernel
import Quorin.Proof.Hash.HashKernel
import Quorin.Construction.SegmentHeader
import Quorin.Library.MemoryWrites
import Quorin.Proof.Segment.HeaderWords
import Quorin.Proof.Segment.CorruptHeader
import Quorin.Proof.Segment.OffsetTables
import Quorin.Construction.PackFormat
import Quorin.Proof.Consumer.PackFormat
import Quorin.Construction.DryRun
import Quorin.Proof.Upgrade.DryRun
import Quorin.Construction.BufferPool
import Quorin.Proof.Pool.Ownership
import Quorin.Proof.Pool.Cap
import Quorin.Construction.GcManager
import Quorin.Proof.Gc.SingleCollector
import Quorin.Library.CheckedArrays
import Quorin.Construction.CheckedKernels
import Quorin.Proof.Segment.CheckedSlots
import Quorin.Proof.Serving.CheckedReads
import Quorin.Proof.Evolution.CheckedBulk
import Quorin.Proof.Serving.KernelBounds
import Quorin.Proof.Upgrade.UpgradePhases
import Quorin.Proof.Upgrade.LostUpdates
import Quorin.Construction.Lifetime
import Quorin.Library.VersionedLog
import Quorin.Proof.Evolution.StoredFeatures
import Quorin.Proof.Upgrade.UpgradeOutcome
import Quorin.Proof.Upgrade.Lifetimes
import Quorin.Proof.Consumer.TracedRows
import Quorin.Proof.Offline.MessageReads
import Quorin.Proof.Serving.ServedWrites
import Quorin.Construction.RunForever
import Quorin.Proof.Watchdog.Reclaim
import Quorin.Proof.Watchdog.LeakedSegments
import Quorin.Construction.SealedDisk
import Quorin.Proof.Offline.CrashSafeDataset
import Quorin.Proof.Upgrade.Recovery
import Quorin.Proof.Watchdog.Silence
import Quorin.Construction.Heartbeat
import Quorin.Proof.Watchdog.Heartbeat
import Quorin.Construction.WriteSync
import Quorin.Proof.Serving.WriteSync
import Quorin.Proof.Serving.GracefulRestarts

