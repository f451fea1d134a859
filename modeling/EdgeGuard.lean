import EdgeGuard.Context.Display
import EdgeGuard.Json.Tag
import EdgeGuard.Main
import EdgeGuard.Proofs.Edge.Frame
import EdgeGuard.Proofs.Expr.Grammar
import EdgeGuard.Proofs.Eval.Faults
import EdgeGuard.Proofs.Eval.Calls
import EdgeGuard.Proofs.Expr.Words
import EdgeGuard.Proofs.Eval.Alike
import EdgeGuard.Proofs.Json.Equivalence
import EdgeGuard.Proofs.Eval.Compose
import EdgeGuard.Proofs.Eval.Annotations
import EdgeGuard.Proofs.Eval.Connectives
import EdgeGuard.Proofs.Expr.Leaves
import EdgeGuard.Proofs.Expr.Problems
import EdgeGuard.Proofs.Expr.Readable
import EdgeGuard.Proofs.Eval.Comparison
import EdgeGuard.Proofs.Eval.Negation
import EdgeGuard.Proofs.Eval.Membership
import EdgeGuard.Proofs.Expr.Canonical
import EdgeGuard.Proofs.Eval.Log
import EdgeGuard.Proofs.Eval.Texts
import EdgeGuard.Proofs.Edge.Stored
import EdgeGuard.Proofs.CommandLine
