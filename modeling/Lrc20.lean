import Lrc20.Receipts.Multisig
import Lrc20.P2p.Stream
import Lrc20.P2p.StateMachine
import Lrc20.P2p.Time
import Lrc20.Storage.Converters
import Lrc20.Storage.InnerKeys
import Lrc20.Indexers.Announcement
import Lrc20.Indexers.Contiguous
import Lrc20.Node.Acceptance
import Lrc20.Node.Consumption
import Lrc20.Node.Relay
import Lrc20.Node.Freeze
import Lrc20.Rpc.Emulator
import Lrc20.Node.KeyFreeze
import Lrc20.Node.LateCap
import Lrc20.Node.ProofFreeze
import Lrc20.Node.Supply
import Lrc20.TxConfirm.Scheduling
import Lrc20.Confidential.Conservation
import Lrc20.TxCheck.Credit
import Lrc20.TxCheck.Mixing
import Lrc20.Node.Ownership
import Lrc20.Node.Inflation
import Lrc20.DevKit.CoinSelection
import Lrc20.Sdk.CoinSelection
import Lrc20.Sdk.TokenSelection
