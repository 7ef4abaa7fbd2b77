import GoQuarkChain.Lib.SortedMap
import GoQuarkChain.Lib.BigEndian
import GoQuarkChain.Lib.ExceptState
import GoQuarkChain.Lib.SortedList
import GoQuarkChain.Lib.Ledger
import GoQuarkChain.Serialize.ByteBuffer
import GoQuarkChain.Serialize.Serializer
import GoQuarkChain.Types.TokenBalances
import GoQuarkChain.Account.Branch
import GoQuarkChain.Config.QuarkChainConfig
import GoQuarkChain.State.StateDB
import GoQuarkChain.Core.StateTransition
import GoQuarkChain.Core.StateProcessor
import GoQuarkChain.Core.MinorBlockChain
import GoQuarkChain.Core.XShardTxCursor
import GoQuarkChain.Core.DepositOrder
import GoQuarkChain.Core.CursorRefinement
import GoQuarkChain.Core.ValidateTx
import GoQuarkChain.Cluster.ConnManager
import GoQuarkChain.Consensus.LLRB
import GoQuarkChain.Consensus.Qkchash
import GoQuarkChain.Core.BlockProcessing
import GoQuarkChain.Core.Miner
import GoQuarkChain.Core.RootBlockChain
import GoQuarkChain.Vm.Evm
import GoQuarkChain.Core.TransitionPaths
import GoQuarkChain.Core.RootBlockValidator
import GoQuarkChain.Core.RootCoinbase
import GoQuarkChain.Core.CrossShardSend
import GoQuarkChain.Lib.KeyValue
import GoQuarkChain.Core.TxIndex
import GoQuarkChain.Core.Reorg
import GoQuarkChain.Lib.BijectiveBase
import GoQuarkChain.Common.TokenCodec
import GoQuarkChain.Account.Address
import GoQuarkChain.Consensus.Difficulty
import GoQuarkChain.Core.Ancestry
import GoQuarkChain.Lib.MerkleLevels
import GoQuarkChain.Types.DeriveSha
import GoQuarkChain.Lib.LruCache
import GoQuarkChain.Consensus.Posw
import GoQuarkChain.Core.TxPool
import GoQuarkChain.State.Journal
import GoQuarkChain.Lib.TopSearch
import GoQuarkChain.Cluster.Sync
import GoQuarkChain.Core.HistoryKeys
import GoQuarkChain.Lib.Paging
import GoQuarkChain.Core.TxHistory
import GoQuarkChain.Consensus.CacheSeed
import GoQuarkChain.Types.ChainMask
import GoQuarkChain.Cluster.ShardRouting
import GoQuarkChain.Serialize.RoundTrip
import GoQuarkChain.Lib.Yields
import GoQuarkChain.Serialize.Decoded
import GoQuarkChain.P2p.Message
import GoQuarkChain.Cluster.Handshake
import GoQuarkChain.Lib.Bisect
import GoQuarkChain.Core.EstimateGas
