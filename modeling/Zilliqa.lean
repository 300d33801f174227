import Zilliqa.Lib.FinStore
import Zilliqa.Lib.Loop
import Zilliqa.Lib.KeepBest
import Zilliqa.Lib.Mealy
import Zilliqa.Lib.Codec
import Zilliqa.Common.Serializable
import Zilliqa.Utils.SafeMath
import Zilliqa.Utils.SafeMathTypes
import Zilliqa.Utils.DataConversion
import Zilliqa.Cps.Gas
import Zilliqa.Cps.AccountStore
import Zilliqa.Data.Transaction
import Zilliqa.Cps.Types
import Zilliqa.Cps.Context
import Zilliqa.Cps.RunEvm
import Zilliqa.Cps.RunScilla
import Zilliqa.Cps.Executor
import Zilliqa.Cps.Effects
import Zilliqa.Cps.RunSpec
import Zilliqa.Cps.Invariants
import Zilliqa.Cps.Correctness.Failure
import Zilliqa.Cps.Correctness.Termination
import Zilliqa.Cps.Correctness.Conservation
import Zilliqa.Cps.Correctness.Static
import Zilliqa.Cps.Correctness.Atomic
import Zilliqa.Data.TxnPool
import Zilliqa.Data.AccountStore
import Zilliqa.Message.AccountDelta
import Zilliqa.Persistence.ContractStorage
import Zilliqa.Persistence.StateValue
import Zilliqa.Consensus.Backup
import Zilliqa.Consensus.BackupSafety
import Zilliqa.Consensus.CollectiveSig
import Zilliqa.Node.MicroBlockPreProcessing
import Zilliqa.Blockchain.Block
import Zilliqa.Blockchain.Serialization
import Zilliqa.Eth.Transaction
import Zilliqa.Eth.Signing
import Zilliqa.Network.P2PMessage
import Zilliqa.Blockchain.BlockChain
import Zilliqa.Lib.Fold
import Zilliqa.Lib.UpperBound
import Zilliqa.Lib.Digits
import Zilliqa.Eth.BlocksCache
import Zilliqa.Eth.PendingTxnCache
import Zilliqa.Eth.FiltersUtils
import Zilliqa.Eth.FiltersImpl
import Zilliqa.Lib.History
import Zilliqa.Eth.FinalizedEpochs
import Zilliqa.Eth.APICache
import Zilliqa.Eth.EventFilters
import Zilliqa.Network.RumorSpreading
import Zilliqa.Lib.Bimap
import Zilliqa.Network.RumorManager
import Zilliqa.Data.AccountStoreBase
import Zilliqa.Cps.Correctness.Admission
import Zilliqa.Cps.Correctness.TrapGas
import Zilliqa.DirectoryService.Coinbase
import Zilliqa.DirectoryService.DSComposition
import Zilliqa.DirectoryService.Difficulty
import Zilliqa.DirectoryService.GasPricer
import Zilliqa.Consensus.Leader
import Zilliqa.Data.TxnOrderVerifier
