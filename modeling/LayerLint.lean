import LayerLint.Main
import LayerLint.Proofs.Coverage.Output
import LayerLint.Proofs.Coverage.Summary
import LayerLint.Proofs.Graph.Change
import LayerLint.Proofs.Lint.Slash
import LayerLint.Proofs.Lint.Steps
import LayerLint.Proofs.Lint.Stopping
import LayerLint.Proofs.ModulePath.Directive
import LayerLint.Proofs.Path.Comparison
import LayerLint.Proofs.Path.Segments
import LayerLint.Proofs.Path.Slash
import LayerLint.Proofs.Preset.Failure
import LayerLint.Proofs.Preset.ReadBack
import LayerLint.Proofs.Preset.Reload
import LayerLint.Proofs.Report.Severity
import LayerLint.Proofs.Rule.Coverage
import LayerLint.Proofs.Rule.Exclusions
import LayerLint.Proofs.Rule.Fixes
import LayerLint.Proofs.Rule.Layer
import LayerLint.Proofs.Rule.SharedImports
import LayerLint.Proofs.Rule.Slash
import LayerLint.Proofs.Rule.Structure
import LayerLint.Proofs.Rule.Unknown
import LayerLint.Proofs.Rule.Unused
import LayerLint.Proofs.Scan.Listing
import LayerLint.Proofs.Scan.Spelling
import LayerLint.Proofs.Settings.Given
import LayerLint.Proofs.Settings.Layout
import LayerLint.Proofs.Source.File
import LayerLint.Proofs.Validation.Order
import LayerLint.Proofs.Validation.Switches
import LayerLint.Proofs.Validation.Symbols
import LayerLint.Proofs.Report.Porcelain
import LayerLint.Proofs.Source.Usage
import LayerLint.Proofs.Json.Grammar
import LayerLint.Proofs.Report.Markdown
import LayerLint.Proofs.Json.Rendering
import LayerLint.Proofs.Report.Document
