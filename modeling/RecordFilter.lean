import RecordFilter.Main
import RecordFilter.Proofs.Evaluation.Connectives
import RecordFilter.Proofs.Evaluation.Kleene
import RecordFilter.Proofs.Evaluation.Membership
import RecordFilter.Proofs.Evaluation.Through
import RecordFilter.Proofs.Evaluation.Choices
import RecordFilter.Proofs.Evaluation.Inlining
import RecordFilter.Proofs.Evaluation.TextSearch
import RecordFilter.Proofs.Evaluation.Dates
import RecordFilter.Proofs.Evaluation.Complement
import RecordFilter.Proofs.Compiler.Typing
import RecordFilter.Proofs.Node.Wrapping
import RecordFilter.Proofs.Predicate.JoinSet
import RecordFilter.Proofs.Compiler.Growth
import RecordFilter.Proofs.Compiler.Literals
import RecordFilter.Proofs.Compiler.Declarations
import RecordFilter.Proofs.Evaluation.Numbers
import RecordFilter.Proofs.DateFormat.Layout
import RecordFilter.Proofs.DateFormat.Weekdays
import RecordFilter.Proofs.Token.Layout
import RecordFilter.Proofs.Node.Refusal
import RecordFilter.Proofs.Evaluation.Patterns
import RecordFilter.Proofs.Path.Cuts
import RecordFilter.Proofs.Path.Walk
import RecordFilter.Proofs.Compiler.Leaves
import RecordFilter.Proofs.Evaluation.Nulls
import RecordFilter.Proofs.Evaluation.Copies
import RecordFilter.Proofs.Evaluation.Sight
import RecordFilter.Proofs.Predicate.Decoding
import RecordFilter.Proofs.Schema.RoundTrip
import RecordFilter.Proofs.Value.Words
import RecordFilter.Proofs.Evaluation.Tables
import RecordFilter.Proofs.Node.Exhaustion
