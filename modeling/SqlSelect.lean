import SqlSelect.Main
import SqlSelect.Proofs.Token.Clauses
import SqlSelect.Proofs.Token.Quoted
import SqlSelect.Proofs.Token.Column
import SqlSelect.Proofs.Grammar.ReadBack
import SqlSelect.Proofs.Query.Edits
import SqlSelect.Proofs.Descriptor.Normal
import SqlSelect.Proofs.Descriptor.Presentation
import SqlSelect.Proofs.Descriptor.Undeclared
import SqlSelect.Proofs.Descriptor.Integers
import SqlSelect.Proofs.CommandLine.Invocations
import SqlSelect.Proofs.Binary.Nearest
import SqlSelect.Proofs.Binary.Coarsest
import SqlSelect.Proofs.Binary.Widening
import SqlSelect.Proofs.Json.Fuel
import SqlSelect.Proofs.Json.NumberText
import SqlSelect.Proofs.Literal.Float
import SqlSelect.Proofs.Query.Texts
import SqlSelect.Proofs.Query.Conjunction
import SqlSelect.Proofs.Expr.Context
import SqlSelect.Proofs.Keyword.Case
