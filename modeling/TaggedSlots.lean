import TaggedSlots.Main
import TaggedSlots.Operation
import TaggedSlots.Proofs.ArrayCreation
import TaggedSlots.Proofs.ArrayLengths
import TaggedSlots.Proofs.Atomicity
import TaggedSlots.Proofs.Attribution
import TaggedSlots.Proofs.Consistency
import TaggedSlots.Proofs.ElementAccess
import TaggedSlots.Proofs.ExactArithmetic
import TaggedSlots.Proofs.ExecutionTrace
import TaggedSlots.Proofs.FaultMessages
import TaggedSlots.Proofs.Flattening
import TaggedSlots.Proofs.Independence
import TaggedSlots.Proofs.KindErasure
import TaggedSlots.Proofs.KindHistory
import TaggedSlots.Proofs.LastWrites
import TaggedSlots.Proofs.LiteralGrammar
import TaggedSlots.Proofs.Locality
import TaggedSlots.Proofs.LogLines
import TaggedSlots.Proofs.OptionOrder
import TaggedSlots.Proofs.ReadBack
import TaggedSlots.Proofs.Replay
import TaggedSlots.Proofs.Reporting
import TaggedSlots.Proofs.SessionReport
import TaggedSlots.Proofs.SlotReports
import TaggedSlots.Proofs.StepReports
import TaggedSlots.Proofs.Substitution
import TaggedSlots.Proofs.TypedEvaluation
import TaggedSlots.Proofs.Widening
