import STS2RL.Core.Dict
import STS2RL.Core.Except
import STS2RL.Core.Forall2
import STS2RL.Core.Json
import STS2RL.Api.PyRepr
import STS2RL.Core.Run
import STS2RL.Api.Validation
import STS2RL.Api.SessionLedger
import STS2RL.Api.Server
import STS2RL.Api.AtMostOnce
import STS2RL.Combat.DecisionContext
import STS2RL.Combat.FaultTaxonomy
import STS2RL.Combat.WorkItem
import STS2RL.Combat.BranchResult
import STS2RL.Combat.RetryLoop
import STS2RL.Combat.RetryLaw
import STS2RL.Combat.Aggregation
import STS2RL.Combat.Search
import STS2RL.Combat.BeamRefinement
import STS2RL.Combat.WorkerRuntime
import STS2RL.Combat.WorkerPool
import STS2RL.Combat.LeaseSoundness
import STS2RL.Combat.BranchManager
import STS2RL.Combat.Poll
import STS2RL.Combat.PollExactlyOnce
import STS2RL.WholeRun.ChoiceWork
import STS2RL.WholeRun.WorkerPool
import STS2RL.WholeRun.MessageAccounting
import STS2RL.Combat.Replay
import STS2RL.Combat.CombatPhase
import STS2RL.Combat.MainLoop
import STS2RL.Combat.MainLoopReplay
import STS2RL.Combat.Snapshot
import STS2RL.Combat.RngHypothesis
import STS2RL.Combat.HypothesisBlindness
import STS2RL.Core.Tally
import STS2RL.Core.PyNumber
import STS2RL.Api.ChoiceCardSemantics
import STS2RL.Api.Masking
import STS2RL.Core.JsonRewrite
import STS2RL.Api.MaskingWalk
import STS2RL.Api.ReprText
import STS2RL.Api.PileOrder
import STS2RL.Api.HiddenFields
import STS2RL.Core.Act
import STS2RL.WholeRun.GameAccess
import STS2RL.WholeRun.LeaseMachine
import STS2RL.Api.InstanceOwnership
import STS2RL.Api.RuntimeProcess
import STS2RL.Api.TcpServer
import STS2RL.Combat.DeckExactness
import STS2RL.Combat.DrawEvidence
import STS2RL.Combat.ManagerRun
import STS2RL.Combat.RequestAccounts
import STS2RL.Combat.ManagerLeases
import STS2RL.Combat.PoolUse
import STS2RL.Combat.TaintedWorkers
import STS2RL.Api.Identifiers
import STS2RL.Api.CombatInstance
import STS2RL.Api.EmulationAgreement
import STS2RL.Api.HypothesisTable
import STS2RL.Api.SimulationOptions
import STS2RL.Api.StartResponse
import STS2RL.Api.TotalRequests
import STS2RL.Combat.CommitDecision
import STS2RL.Combat.ObservedDraws
import STS2RL.WholeRun.EventAtomicity
import STS2RL.WholeRun.RejectedRequests
import STS2RL.WholeRun.RoomHistory
import STS2RL.WholeRun.ChoiceWorker
import STS2RL.WholeRun.EventChain
import STS2RL.Api.PendingChoiceNormal
import STS2RL.Api.MaskedTwice
import STS2RL.Combat.CascadeGraph
import STS2RL.Combat.EnemyMaxHp
import STS2RL.WholeRun.SharedHypotheses
import STS2RL.Combat.CandidatePipeline
import STS2RL.Combat.ContextIdentity
import STS2RL.Combat.BattleStateKey
import STS2RL.Api.RecordCodec
import STS2RL.Combat.SnapshotWire
import STS2RL.Combat.TypedSubstitution
import STS2RL.Combat.SnapshotReferences
import STS2RL.WholeRun.BranchForest
import STS2RL.WholeRun.Capacity
import STS2RL.WholeRun.DecisionOnce
import STS2RL.Combat.CombatEnv
import STS2RL.Combat.LiveReplay
import STS2RL.Combat.SlotNames
