import KeyLayout.Thickness
import KeyLayout.Label
import KeyLayout.Json.Writer
import KeyLayout.Document.Complaint
import KeyLayout.Document.Reading
import KeyLayout.Json.Reader
import KeyLayout.Definition
import KeyLayout.Key
import KeyLayout.KeyGrid
import KeyLayout.Definition.Record
import KeyLayout.KeyGrid.Record
import KeyLayout.FilePath
import KeyLayout.FileTree
import KeyLayout.Log
import KeyLayout.Catalog.Table
import KeyLayout.Catalog.Builtin
import KeyLayout.Catalog
import KeyLayout.Command
import KeyLayout.Command.Line
import KeyLayout.Main
import KeyLayout.Proofs.KeyGrid.Calls
import KeyLayout.Proofs.Definition.Conflicts
import KeyLayout.Proofs.Keyboard.Build
import KeyLayout.Proofs.Keyboard.Load
import KeyLayout.Proofs.Keyboard.Plugin
import KeyLayout.Proofs.Definition.Validity
import KeyLayout.Proofs.Key.Losses
import KeyLayout.Proofs.Keyboard.Issues
import KeyLayout.Proofs.Definition.Reordering
import KeyLayout.Proofs.Keyboard.Reordering
import KeyLayout.Proofs.Decimal.Whole
import KeyLayout.Proofs.Document.Rereading
import KeyLayout.Proofs.Json.Shown
import KeyLayout.Proofs.KeyGrid.Record
import KeyLayout.Proofs.Definition.Fits
import KeyLayout.Proofs.Keyboard.Record
import KeyLayout.Proofs.Keyboard.Bounds
import KeyLayout.Proofs.KeyGrid.Faithful
import KeyLayout.Proofs.Definition.Layout
import KeyLayout.Proofs.Definition.KeySet
import KeyLayout.Proofs.FilePath.Parent
import KeyLayout.Proofs.Key.Link
import KeyLayout.Proofs.Keyboard.Dependence
import KeyLayout.Proofs.Catalog.Extension
import KeyLayout.Proofs.FilePath.Sibling
import KeyLayout.Proofs.FileTree.Walk
import KeyLayout.Proofs.Config.SaveLoad
import KeyLayout.Proofs.Toml.Quote
import KeyLayout.Proofs.Toml.Tables
import KeyLayout.Proofs.Key.Sizing
import KeyLayout.Proofs.Definition.AnchorIndex
import KeyLayout.Proofs.Command.Agreement
import KeyLayout.Proofs.Definition.Snippet
import KeyLayout.Proofs.Text.LineCount
import KeyLayout.Proofs.Label.OnePass
import KeyLayout.Proofs.Keyboard.Detail
import KeyLayout.Proofs.Config.Atomic
import KeyLayout.Proofs.Config.Resolve
import KeyLayout.Proofs.Decimal.Plain
import KeyLayout.Proofs.Text.Unbroken
import KeyLayout.Proofs.Keyboard.Summary
import KeyLayout.Proofs.Decimal.RoundTrip
import KeyLayout.Proofs.Thickness.Reading
