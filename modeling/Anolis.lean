import Anolis.Proofs.AfterOrder
import Anolis.Proofs.Availability
import Anolis.Proofs.Coercion
import Anolis.Proofs.Convergence
import Anolis.Proofs.Coverage
import Anolis.Proofs.EmissionSpacing
import Anolis.Proofs.FailedRuns
import Anolis.Proofs.FaultTexts
import Anolis.Proofs.HandleSegments
import Anolis.Proofs.HooklessRestart
import Anolis.Proofs.IdentityClamp
import Anolis.Proofs.LatchSurvives
import Anolis.Proofs.LockCycle
import Anolis.Proofs.LossLatchOrder
import Anolis.Proofs.ModeGates
import Anolis.Proofs.ObservedStop
import Anolis.Proofs.Outage
import Anolis.Proofs.Parameters
import Anolis.Proofs.QueueAccount
import Anolis.Proofs.Rearm
import Anolis.Proofs.RefusedRequest
import Anolis.Proofs.RegistryIndex
import Anolis.Proofs.Reissue
import Anolis.Proofs.RepeatedFailure
import Anolis.Proofs.RestartAtomic
import Anolis.Proofs.RestartBudget
import Anolis.Proofs.RowText
import Anolis.Proofs.RunDurability
import Anolis.Proofs.RunRecords
import Anolis.Proofs.RungNone
import Anolis.Proofs.SinkStop
import Anolis.Proofs.StaleStatus
import Anolis.Proofs.TriggerPersists
