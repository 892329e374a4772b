import PointerScript.Application
import PointerScript.Files
import PointerScript.Host
import PointerScript.Json.Access
import PointerScript.Json.Basic
import PointerScript.Json.Reader
import PointerScript.Json.Shown
import PointerScript.Json.Writer
import PointerScript.Key
import PointerScript.Log
import PointerScript.Machine.Basic
import PointerScript.Machine.Device
import PointerScript.Machine.Effect
import PointerScript.Machine.Memory
import PointerScript.Machine.Run
import PointerScript.Main
import PointerScript.Number.Binary64
import PointerScript.Number.Decimal
import PointerScript.Number.Mixed
import PointerScript.Number.Places
import PointerScript.Number.Reading
import PointerScript.Number.Writing
import PointerScript.Proofs.Assembly
import PointerScript.Proofs.ControlFlow
import PointerScript.Proofs.Effects
import PointerScript.Proofs.Linking
import PointerScript.Proofs.ReturnStack
import PointerScript.Proofs.SafeMode
import PointerScript.Proofs.SourceLines
import PointerScript.Proofs.Structured.Count
import PointerScript.Proofs.Structured.Execution
import PointerScript.Proofs.Structured.Layout
import PointerScript.Proofs.Structured.Lines
import PointerScript.Proofs.Structured.Unrolling
import PointerScript.Proofs.Turns
import PointerScript.Recording
import PointerScript.Script.Command
import PointerScript.Script.Compiler
import PointerScript.Script.Exchange
import PointerScript.Script.Instruction
import PointerScript.Script.Listing
import PointerScript.Script.Name
import PointerScript.Script.Operand
import PointerScript.Script.Standard
import PointerScript.Script.Value
import PointerScript.Session.Dialog
import PointerScript.Session.RecordingRun
import PointerScript.Session.ScriptRun
import PointerScript.Settings
import PointerScript.Template
import PointerScript.Text.Character
import PointerScript.Text.DigitTable
import PointerScript.Text.Line
import PointerScript.Text.LowerTable
import PointerScript.Text.Quoted
import PointerScript.Text.Ranges
import PointerScript.Text.Split
import PointerScript.Text.Surrogate
import PointerScript.Text.UnprintableTable
import PointerScript.Text.Utf8
import PointerScript.Text.WordTable
import PointerScript.Toml.Basic
import PointerScript.Toml.Reader
import PointerScript.Tool.KeyCode
import PointerScript.Tool.Offset
import PointerScript.Tool.Resource
import PointerScript.Version
import PointerScript.Window.Editor
import PointerScript.Window.Gutter
import PointerScript.Window.Highlight
import PointerScript.Window.Icon
import PointerScript.Window.OffsetDialog
import PointerScript.Window.SettingsDialog
import PointerScript.Window.Terminal
import PointerScript.Proofs.CountedJumps
import PointerScript.Proofs.Variables
import PointerScript.Proofs.Number.ReadBack
import PointerScript.Proofs.Number.Order
import PointerScript.Proofs.Recorded.Gestures
import PointerScript.Proofs.Relisting
import PointerScript.Proofs.Recorded.Replay
import PointerScript.Proofs.Pausing
import PointerScript.Proofs.Retracing
import PointerScript.Proofs.CommandForms
import PointerScript.Proofs.Evaluation
import PointerScript.Proofs.Displacement
import PointerScript.Proofs.Anchoring
import PointerScript.Proofs.NeatText
import PointerScript.Proofs.ControlPanel
import PointerScript.Proofs.RoundTrip
import PointerScript.Proofs.ListedJumps
import PointerScript.Proofs.Repetition
import PointerScript.Proofs.Recorded.Clicks
import PointerScript.Proofs.Recorded.Delivery
import PointerScript.Proofs.Relocation
import PointerScript.Proofs.Reuse
import PointerScript.Proofs.Supervision
import PointerScript.Proofs.RawReturns
import PointerScript.Proofs.CountedVisits
import PointerScript.Proofs.FailureReports
import PointerScript.Proofs.UnsavedText
import PointerScript.Proofs.Layout
import PointerScript.Proofs.FileFailures
import PointerScript.Proofs.Encoding
import PointerScript.Proofs.Json.Numerals
import PointerScript.Proofs.Json.ReadBack
import PointerScript.Proofs.Json.Texts
import PointerScript.Proofs.StoredSettings
import PointerScript.Proofs.SettingsLoading
import PointerScript.Proofs.UntouchedDialog
import PointerScript.Proofs.Highlighting
import PointerScript.Proofs.VariableNames
