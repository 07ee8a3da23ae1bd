import TypedConfig.CommandLine
import TypedConfig.Config.Contention
import TypedConfig.Config.Derived
import TypedConfig.Json.Reader
import TypedConfig.Json.Text
import TypedConfig.Loading.Documents
import TypedConfig.Proofs.Agreement
import TypedConfig.Proofs.Alone
import TypedConfig.Proofs.Collecting
import TypedConfig.Proofs.Composing
import TypedConfig.Proofs.Contest
import TypedConfig.Proofs.Extension
import TypedConfig.Proofs.Inheritance
import TypedConfig.Proofs.InsertionOrder
import TypedConfig.Proofs.JsonRoundTrip
import TypedConfig.Proofs.NormalForm
import TypedConfig.Proofs.ReadBack
import TypedConfig.Proofs.Rendering
import TypedConfig.Proofs.ReportLines
import TypedConfig.Proofs.Roots
import TypedConfig.Proofs.Selection
import TypedConfig.Proofs.Serializing
import TypedConfig.Proofs.SingleAssignment
import TypedConfig.Proofs.Stages
import TypedConfig.Proofs.TypeNames
import TypedConfig.Proofs.Usage
import TypedConfig.Proofs.WholeSection
import TypedConfig.Sample.Records
import TypedConfig.Sample.Schemas
import TypedConfig.Sample.Session
import TypedConfig.Schema.Outline
