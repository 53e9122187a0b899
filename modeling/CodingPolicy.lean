import CodingPolicy.Text.Lines
import CodingPolicy.Text.Quoted
import CodingPolicy.Text.Table
import CodingPolicy.Text.Utf8
import CodingPolicy.Json.Reader
import CodingPolicy.Json.Printer
import CodingPolicy.Json.Literal
import CodingPolicy.Uri.Basic
import CodingPolicy.Failure
import CodingPolicy.Namespace.Service
import CodingPolicy.Namespace.Schema
import CodingPolicy.Command.Basic
import CodingPolicy.Command.Answer
import CodingPolicy.Disk.Basic
import CodingPolicy.Config.Load
import CodingPolicy.Log.File
import CodingPolicy.Invocation
import CodingPolicy.Main
import CodingPolicy.Proofs.Call
import CodingPolicy.Proofs.Course
import CodingPolicy.Proofs.Arguments
import CodingPolicy.Proofs.Validity
import CodingPolicy.Proofs.Record
import CodingPolicy.Proofs.Memory
import CodingPolicy.Proofs.Status
import CodingPolicy.Proofs.Paths
import CodingPolicy.Proofs.Escape
import CodingPolicy.Proofs.Ascent
import CodingPolicy.Proofs.Ancestors
import CodingPolicy.Proofs.History
import CodingPolicy.Proofs.RoundTrip
import CodingPolicy.Proofs.Form
import CodingPolicy.Proofs.Refinement
import CodingPolicy.Proofs.Directories
import CodingPolicy.Proofs.Persistence
import CodingPolicy.Proofs.Inheritance
import CodingPolicy.Proofs.Provenance
import CodingPolicy.Proofs.StateFile
import CodingPolicy.Proofs.Spelling
import CodingPolicy.Proofs.StoredPaths
import CodingPolicy.Proofs.Growth
import CodingPolicy.Proofs.Footprint
import CodingPolicy.Proofs.Settings
import CodingPolicy.Proofs.Preparation
import CodingPolicy.Proofs.Audit
import CodingPolicy.Proofs.Independence
import CodingPolicy.Proofs.Effect
import CodingPolicy.Proofs.UriPaths
import CodingPolicy.Proofs.Numbers
import CodingPolicy.Proofs.Blocks
import CodingPolicy.Proofs.Logging
import CodingPolicy.Proofs.LogFile
import CodingPolicy.Proofs.Refusal
import CodingPolicy.Proofs.Cancellation
import CodingPolicy.Proofs.Joining
import CodingPolicy.Proofs.Extraction
import CodingPolicy.Proofs.Alike
import CodingPolicy.Proofs.OptionOrder
import CodingPolicy.Proofs.GenericOptions
import CodingPolicy.Proofs.Precedence
import CodingPolicy.Proofs.EventLines
import CodingPolicy.Proofs.WorkingDirectory
import CodingPolicy.Proofs.FileSystems
import CodingPolicy.Proofs.Admission
import CodingPolicy.Proofs.Lineage
import CodingPolicy.Proofs.Wrapping
import CodingPolicy.Proofs.Tables
