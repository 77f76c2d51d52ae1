import SchemaSync.CommandLine.Plain
import SchemaSync.CommandLine.Program
import SchemaSync.Main
import SchemaSync.Proofs.CommandLine.Check
import SchemaSync.Proofs.CommandLine.Update
import SchemaSync.Proofs.Definitions.FlatLayout
import SchemaSync.Proofs.Definitions.Provenance
import SchemaSync.Proofs.Firebird.FieldText
import SchemaSync.Proofs.Firebird.Session
import SchemaSync.Proofs.Firebird.Signature
import SchemaSync.Proofs.Firebird.TableGroups
import SchemaSync.Proofs.Plan.Constants
import SchemaSync.Proofs.Plan.LetterCase
import SchemaSync.Proofs.Plan.Order
import SchemaSync.Proofs.Run.BuildAccount
import SchemaSync.Proofs.Run.EventStream
import SchemaSync.Proofs.Run.ExportPlan
import SchemaSync.Proofs.Run.PartialFailure
import SchemaSync.Proofs.Run.ReportAccount
import SchemaSync.Proofs.Run.StepAccount
import SchemaSync.Proofs.Schema.TableForm
import SchemaSync.Proofs.Script.Answer
import SchemaSync.Proofs.Script.Batch
import SchemaSync.Proofs.Script.CheckClause
import SchemaSync.Proofs.Script.ClauseOrder
import SchemaSync.Proofs.Script.ColumnName
import SchemaSync.Proofs.Script.CommaParts
import SchemaSync.Proofs.Script.FollowedTable
import SchemaSync.Proofs.Script.NumberedType
import SchemaSync.Proofs.Script.Part
import SchemaSync.Proofs.Script.PlainTable
import SchemaSync.Proofs.Script.ProcedureBatch
import SchemaSync.Proofs.Script.ProcedureReadBack
import SchemaSync.Proofs.Script.ProcedureStatement
import SchemaSync.Proofs.Script.Recut
import SchemaSync.Proofs.Script.Replacement
import SchemaSync.Proofs.Script.WholeStatement
import SchemaSync.Proofs.Settings.Resolution
