import RecordQuery.Calendar.Moment
import RecordQuery.Configured
import RecordQuery.Operand.Conversion
import RecordQuery.Proofs.Acceptance
import RecordQuery.Proofs.Completion
import RecordQuery.Proofs.Composition
import RecordQuery.Proofs.EnvironmentFile
import RecordQuery.Proofs.Forms
import RecordQuery.Proofs.Grammar
import RecordQuery.Proofs.History
import RecordQuery.Proofs.Literals
import RecordQuery.Proofs.Loading
import RecordQuery.Proofs.Marks
import RecordQuery.Proofs.Reachability
import RecordQuery.Proofs.Reading
import RecordQuery.Proofs.TwoClocks
import RecordQuery.Proofs.TwoFormats
import RecordQuery.Proofs.TwoPolicies
import RecordQuery.Proofs.Violations
import RecordQuery.Proofs.Junctions
import RecordQuery.Proofs.OneRendering
import RecordQuery.Proofs.Splitting
import RecordQuery.Proofs.InRange
import RecordQuery.Proofs.TwoKeys
import RecordQuery.Proofs.SingleTexts
import RecordQuery.Proofs.LiteralOrder
import RecordQuery.Proofs.EqualOperands
