import VoltProtocol.Machine.Run
import VoltProtocol.Machine.History
import VoltProtocol.Machine.Nonces
import VoltProtocol.Machine.Callback
import VoltProtocol.Machine.Lockstep
import VoltProtocol.Machine.Projection
import VoltProtocol.Machine.Reservoir
import VoltProtocol.Machine.TokenBucket
import VoltProtocol.ToMathlib.Ledger
import VoltProtocol.ToMathlib.Rescale
import VoltProtocol.ToMathlib.Timeline
import VoltProtocol.Model.Solidity
import VoltProtocol.Model.CoreRef
import VoltProtocol.Model.Permissions
import VoltProtocol.Model.OracleRef
import VoltProtocol.Model.VoltSystemOracle
import VoltProtocol.Model.RateLimited
import VoltProtocol.Model.RateLimitedV2
import VoltProtocol.Model.PegStabilityModule
import VoltProtocol.Model.ERC20Allocator
import VoltProtocol.Model.MorphoCompoundPCVDeposit
import VoltProtocol.Model.CompoundPCVRouter
import VoltProtocol.Model.MakerRouter
import VoltProtocol.Model.Vcon
import VoltProtocol.Model.Volt
import VoltProtocol.Model.KArrayTree
import VoltProtocol.Model.ERC20HoldingPCVDeposit
import VoltProtocol.Model.PCVGuardian
import VoltProtocol.Model.ERC20CompoundPCVDeposit
import VoltProtocol.Model.OtcEscrow
import VoltProtocol.Soundness.VoltPrice
import VoltProtocol.Soundness.PegStabilitySystem
import VoltProtocol.Soundness.FixedPrice
import VoltProtocol.Soundness.RedemptionValue
import VoltProtocol.Soundness.OracleInversion
import VoltProtocol.Soundness.SurplusTests
import VoltProtocol.Soundness.MintLimit
import VoltProtocol.Soundness.PriceBand
import VoltProtocol.Soundness.PeakDemand
import VoltProtocol.Soundness.PreviewAgreement
import VoltProtocol.Soundness.LimiterLiveness
import VoltProtocol.Soundness.LimiterRefinement
import VoltProtocol.Soundness.LimiterAgreement
import VoltProtocol.Soundness.AllocatorSystem
import VoltProtocol.Soundness.AllocatorLimit
import VoltProtocol.Soundness.AllocatorTokens
import VoltProtocol.Soundness.AllocatorConvergence
import VoltProtocol.Soundness.AllocatorSweep
import VoltProtocol.Soundness.AllocatorViews
import VoltProtocol.Soundness.MorphoSystem
import VoltProtocol.Soundness.MorphoReentrancy
import VoltProtocol.Soundness.PCVOracleDrift
import VoltProtocol.Soundness.PCVOracleTotals
import VoltProtocol.Soundness.RouterLeftovers
import VoltProtocol.Soundness.MakerLeftovers
import VoltProtocol.Soundness.VoteConservation
import VoltProtocol.Soundness.VoteHistory
import VoltProtocol.Soundness.Allowances
import VoltProtocol.Soundness.SignatureReplay
import VoltProtocol.Soundness.VoltPermits
import VoltProtocol.Soundness.GuardianPowers
import VoltProtocol.Soundness.UniqueRoles
import VoltProtocol.Soundness.TreeDepth
import VoltProtocol.Soundness.PartialActions
import VoltProtocol.Soundness.PCVOracleFleet
import VoltProtocol.Soundness.CompoundSystem
import VoltProtocol.Soundness.VotingPower
import VoltProtocol.Soundness.FairExchange
import VoltProtocol.Soundness.ProtocolSystem
import VoltProtocol.Soundness.ProtocolFrames
import VoltProtocol.Soundness.ProtocolCallers
import VoltProtocol.Soundness.ProtocolBooks
import VoltProtocol.Soundness.ProtocolViews
import VoltProtocol.Soundness.ProtocolSettings
import VoltProtocol.Soundness.SupplyGrowth
import VoltProtocol.Soundness.Solvency
import VoltProtocol.Soundness.Coalitions
import VoltProtocol.Soundness.Evacuation
import VoltProtocol.Soundness.EmergencyStop
