import SqlScribe.CommandLine.FileTree
import SqlScribe.Main
import SqlScribe.Session
import SqlScribe.Document.Config
import SqlScribe.Proofs.Conjunction
import SqlScribe.Proofs.Injection
import SqlScribe.Proofs.Scope
import SqlScribe.Proofs.Unambiguous
import SqlScribe.Proofs.Upsert
import SqlScribe.Proofs.Compile.Predicate
import SqlScribe.Proofs.Nesting
import SqlScribe.Proofs.Compile.Success
import SqlScribe.Proofs.Acceptance
import SqlScribe.Proofs.GeneratedAliases
import SqlScribe.Proofs.Compile.Parallel
import SqlScribe.Proofs.Standalone
import SqlScribe.Proofs.ConstraintOrder
import SqlScribe.Proofs.DistinctNames
import SqlScribe.Proofs.ValidNames
import SqlScribe.Proofs.Membership
import SqlScribe.Proofs.SessionRuns
import SqlScribe.Proofs.SkipWarnings
import SqlScribe.Proofs.ColumnAlignment
import SqlScribe.Proofs.ConstraintPlaces
import SqlScribe.Proofs.RowAcceptance
import SqlScribe.Proofs.RowCalls
import SqlScribe.Proofs.Increments
import SqlScribe.Proofs.Patterns
import SqlScribe.Proofs.ReadOperations
import SqlScribe.Proofs.DelimitedKeys
import SqlScribe.Proofs.ConstraintGrammar
import SqlScribe.Proofs.TableCreation
import SqlScribe.Proofs.AlteredColumns
import SqlScribe.Proofs.StatementKinds
import SqlScribe.Proofs.StringLiterals
import SqlScribe.Proofs.QuotedNames
import SqlScribe.Proofs.IdentifierGrammar
import SqlScribe.Proofs.ConstraintGroups
import SqlScribe.Proofs.OptionSpellings
import SqlScribe.Proofs.ColumnSizes
import SqlScribe.Proofs.AliasSupply
import SqlScribe.Proofs.ShownStatements
