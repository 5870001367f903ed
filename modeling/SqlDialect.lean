import SqlDialect.Main
import SqlDialect.Proofs.Ddl.SetNull
import SqlDialect.Proofs.Environment
import SqlDialect.Proofs.Expr.Arithmetic
import SqlDialect.Proofs.Expr.Arrangement
import SqlDialect.Proofs.Expr.Comments
import SqlDialect.Proofs.Expr.Operands
import SqlDialect.Proofs.Floats
import SqlDialect.Proofs.Join.Optional
import SqlDialect.Proofs.Query.Assignments
import SqlDialect.Proofs.Query.Columns
import SqlDialect.Proofs.Query.Counting
import SqlDialect.Proofs.Query.Having
import SqlDialect.Proofs.Query.Positions
import SqlDialect.Proofs.Query.SimulatedLocking
import SqlDialect.Proofs.Schema.Sizes
import SqlDialect.Proofs.Server.Protocol
import SqlDialect.Proofs.Text.Quotation
import SqlDialect.Proofs.Text.Template
