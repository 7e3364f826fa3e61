import LnPay.KeyedTable
import LnPay.TransitionSystem
import LnPay.Transaction
import LnPay.Binary64
import LnPay.HoldInvoice
import LnPay.HoldLaws
import LnPay.HoldAgreement
import LnPay.InboxEvent
import LnPay.LnRules
import LnPay.LnStore
import LnPay.LnFlow
import LnPay.LnHandlers
import LnPay.LnWatcher
import LnPay.LnEffects
import LnPay.LnDaemon
import LnPay.LnEdges
import LnPay.LnTransactions
import LnPay.LnInvariants
import LnPay.LnClock
import LnPay.LnClose
import LnPay.LnRuns
import LnPay.LnSound
import LnPay.LnPayouts
import LnPay.LnFrozen
import LnPay.LnStateTable
import LnPay.LnCloseRule
import LnPay.HoldPlans
import LnPay.EffectQueue
import LnPay.EffectQueueLaws
import LnPay.EffectIsolation
import LnPay.InboxDispatch
import LnPay.InboxLaws
import LnPay.ClientEvents
import LnPay.AccountGate
import LnPay.AccountDelivery
import LnPay.OcRules
import LnPay.Escrow
import LnPay.SettlementTx
import LnPay.OcOrder
import LnPay.SignCheck
import LnPay.SignSound
import LnPay.SettlementSize
import LnPay.Presignature
import LnPay.OcStore
import LnPay.OcChain
import LnPay.OcDecide
import LnPay.OcFlow
import LnPay.OcHandlers
import LnPay.OcWatcher
import LnPay.OcFacts
import LnPay.OcEdges
import LnPay.OcRuns
import LnPay.OcFinality
import LnPay.OcFreshness
import LnPay.OcLag
import LnPay.OcTotality
import LnPay.OcWinner
import LnPay.OcTerminals
import LnPay.OcWindow
import LnPay.OcCommands
import LnPay.Projection
import LnPay.OcBonds
import LnPay.OcRelease
import LnPay.OcReorg
import LnPay.OcComplete
import LnPay.LnGate
import LnPay.PartyGate
import LnPay.LnDisbursed
import LnPay.LnOutlive
import LnPay.Savepoints
import LnPay.NestedTx
import LnPay.PreimageRecovery
import LnPay.DepositNotices
import LnPay.OcDeposits
import LnPay.OcStrays
import LnPay.Explorer
import LnPay.UnknownAnswers
import LnPay.FormUrl
import LnPay.Routing
import LnPay.OrderTags
import LnPay.LnOrderTags
import LnPay.OrderSnapshots
import LnPay.Median
import LnPay.PriceTracker
import LnPay.OcEnded
import LnPay.LnEnded
import LnPay.ChatStore
import LnPay.PeerChat
import LnPay.AccountCommitment
import LnPay.AdminChat
import LnPay.AdminCommands
import LnPay.Alerts
import LnPay.Settings
import LnPay.KeyPathSweep
import LnPay.LndCalls
import LnPay.SubscriptionGuard
