import Mirror.Evm.Arithmetic
import Mirror.Js.Number
import Mirror.Js.Text
import Mirror.Js.Numeral
import Mirror.Js.Json
import Mirror.Js.Completion
import Mirror.Js.Hex
import Mirror.Js.Plain
import Mirror.Js.Lexeme
import Mirror.Js.Arithmetic
import Mirror.Js.Path
import Mirror.Js.Calculation
import Mirror.Js.StableSort
import Mirror.Js.Utf8
import Mirror.Js.Decimal
import Mirror.Js.Shortest
import Mirror.Js.Reading
import Mirror.Js.Gate
import Mirror.Js.Desk
import Mirror.Js.Process
import Mirror.Js.Form
import Mirror.Js.Asking
import Mirror.Js.Base64
import Mirror.Evm.Abi
import Mirror.Evm.Run
import Mirror.Evm.Enumeration
import Mirror.Evm.Token
import Mirror.Escrow.Book
import Mirror.Credit.Positions
import Mirror.Credit.Shares
import Mirror.Series.Drawdown
import Mirror.Series.Alternation
import Mirror.Oracle.Snapshot
import Mirror.Oracle.Quote
import Mirror.Contracts.Common
import Mirror.Contracts.Holding
import Mirror.Contracts.Registry
import Mirror.Contracts.Vault
import Mirror.Contracts.Fee
import Mirror.Contracts.Sender
import Mirror.Contracts.Onboarder
import Mirror.Contracts.System
import Mirror.Contracts.HealthAuth
import Mirror.Contracts.Leaderboard
import Mirror.Contracts.Instructions
import Mirror.Mocks.SparkDexRouter
import Mirror.Mocks.KineticPool
import Mirror.Mocks.EnosysCdp
import Mirror.Mocks.FirelightStrategy
import Mirror.Agent.Health
import Mirror.Agent.Measures
import Mirror.Agent.Scoring
import Mirror.Agent.Outcome
import Mirror.Engine.Encoding
import Mirror.Engine.Handlers
import Mirror.Engine.Framework
import Mirror.Engine.Server
import Mirror.Engine.Node
import Mirror.Frontend.Encrypt
import Mirror.Agent.Handlers
import Mirror.Onboarding.PaymentReference
import Mirror.Relayer.Monitor
import Mirror.Relayer.AttestationRequest
import Mirror.Relayer.AttestationGate
import Mirror.Relayer.TeeProxy
import Mirror.TypesServer.Decode
import Mirror.Refinement.Treasury
import Mirror.Refinement.Record
import Mirror.Refinement.SwapEvents
import Mirror.Refinement.History
import Mirror.Refinement.Custody
import Mirror.Refinement.Access
import Mirror.Refinement.Actions
import Mirror.Refinement.Matching
import Mirror.Refinement.Settling
import Mirror.Refinement.Runs
import Mirror.Refinement.Fees
import Mirror.Refinement.Readiness
import Mirror.Refinement.FeeTill
import Mirror.Refinement.Anchors
import Mirror.Refinement.Signals
import Mirror.Refinement.Conversions
import Mirror.Refinement.Paths
import Mirror.Refinement.Fills
import Mirror.Refinement.Payloads
import Mirror.Refinement.FanOut
import Mirror.Refinement.Attestations
import Mirror.Refinement.Scores
import Mirror.Refinement.ScoredEvents
import Mirror.Refinement.Outcomes
import Mirror.Refinement.TypedEvents
import Mirror.Refinement.Lending
import Mirror.Refinement.Loans
import Mirror.Refinement.Staking
import Mirror.Refinement.Serving
import Mirror.Refinement.Effects
import Mirror.Refinement.HexText
import Mirror.Refinement.Wire
import Mirror.Refinement.Attestation
import Mirror.Properties.Solvency
import Mirror.Properties.LockCover
import Mirror.Properties.LockLedger
import Mirror.Properties.ExactlyOnce
import Mirror.Properties.OwnProof
import Mirror.Properties.Settleable
import Mirror.Properties.Reconfiguration
import Mirror.Properties.FeeRate
import Mirror.Properties.FeeSolvency
import Mirror.Properties.SwapPool
import Mirror.Properties.FeeRelease
import Mirror.Properties.FundAccess
import Mirror.Properties.Consent
import Mirror.Properties.DivergenceGuard
import Mirror.Properties.AnchorSampling
import Mirror.Properties.TopUpSizing
import Mirror.Properties.SignalReplay
import Mirror.Properties.NotionalCap
import Mirror.Properties.HandlerTotality
import Mirror.Properties.TopUpAuthorization
import Mirror.Properties.RouterReserves
import Mirror.Properties.FollowerLists
import Mirror.Properties.SinglePass
import Mirror.Properties.PaymentReference
import Mirror.Properties.ScoreTotality
import Mirror.Properties.TradeDirection
import Mirror.Properties.FanOut
import Mirror.Properties.Addressees
import Mirror.Properties.Slippage
import Mirror.Properties.ExactOutputGuard
import Mirror.Properties.RegistryConsistency
import Mirror.Properties.Onboarding
import Mirror.Properties.BatchNonces
import Mirror.Properties.BatchSettlement
import Mirror.Properties.FeeAdditivity
import Mirror.Properties.ReferenceLayout
import Mirror.Properties.StatusFiles
import Mirror.Properties.AttestationFee
import Mirror.Properties.EventOrder
import Mirror.Properties.Drawdown
import Mirror.Properties.ScoreAgreement
import Mirror.Properties.DriftPatterns
import Mirror.Properties.LendingBooks
import Mirror.Properties.HealthViews
import Mirror.Properties.CdpBooks
import Mirror.Properties.ShareDilution
import Mirror.Properties.DecodePrivacy
import Mirror.Properties.PlaintextGuard
import Mirror.Properties.ServingOrder
import Mirror.Properties.Greetings
import Mirror.Properties.LogPrivacy
import Mirror.Properties.Dispatch
import Mirror.Properties.WireRoundTrip
import Mirror.Properties.LogTransfer
import Mirror.Properties.Leaderboard
import Mirror.Properties.Instructions
import Mirror.Properties.AttestationOrder
import Mirror.Properties.Withdrawals
import Mirror.Properties.SignalDelivery
import Mirror.Properties.StakingBooks
import Mirror.Properties.AccountStatement
import Mirror.Js.Order
import Mirror.Properties.ScoreOrder
