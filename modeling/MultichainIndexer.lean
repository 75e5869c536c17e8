import MultichainIndexer.Store.AdjustEach
import MultichainIndexer.Ingester.PromoteLater
import MultichainIndexer.Pipeline.IndexedBlocks
import MultichainIndexer.Replay.Unforced
import MultichainIndexer.Pipeline.Backfill
import MultichainIndexer.Pipeline.WatchedOnly
import MultichainIndexer.Ingester.ZeroBalance
import MultichainIndexer.Pipeline.UtxoBalances
import MultichainIndexer.Pipeline.Activation
import MultichainIndexer.Pipeline.ReplayRequest
import MultichainIndexer.Reconciliation.Report
import MultichainIndexer.Ingester.SnapshotChain
import MultichainIndexer.Pipeline.RetryLoop
import MultichainIndexer.Chain.ScanComplete
import MultichainIndexer.Coordinator.JobRange
import MultichainIndexer.Fetcher.BatchSize
import MultichainIndexer.Fetcher.SolanaPaging
import MultichainIndexer.Chain.BtcPrefetch
import MultichainIndexer.Chain.BtcFee
import MultichainIndexer.Normalizer.SolanaOrder
import MultichainIndexer.Pipeline.EvmFeeIdentity
import MultichainIndexer.Normalizer.EventIdentity
import MultichainIndexer.Pipeline.Restart
import MultichainIndexer.Sidecar.BalanceValidator
import MultichainIndexer.Store.EventUpsert
import MultichainIndexer.Replay.Compare
import MultichainIndexer.Coordinator.ReleaseWindow
import MultichainIndexer.CircuitBreaker
import MultichainIndexer.Chain.Sightings
import MultichainIndexer.Normalizer.ArrivalOrder
import MultichainIndexer.Coordinator.Signals
import MultichainIndexer.ReorgDetector.Recovery
import MultichainIndexer.AddressIndex.ShardedIndex
import MultichainIndexer.Coordinator.CatchUp
import MultichainIndexer.Replay.Preview
import MultichainIndexer.Coordinator.InFlight
