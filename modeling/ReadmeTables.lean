import ReadmeTables.Proofs.Patch.Flush
import ReadmeTables.Proofs.Console
import ReadmeTables.Proofs.Region
import ReadmeTables.Proofs.Text.RoundTrip
import ReadmeTables.Main
import ReadmeTables.Command
import ReadmeTables.Arguments
import ReadmeTables.Usage
import ReadmeTables.Run
import ReadmeTables.Document
import ReadmeTables.Settings
import ReadmeTables.Yaml.Value
import ReadmeTables.Yaml.Graph
import ReadmeTables.Yaml.Scalar
import ReadmeTables.Yaml.Token
import ReadmeTables.Yaml.Block
import ReadmeTables.Yaml.Plain
import ReadmeTables.Yaml.Quoted
import ReadmeTables.Patch
import ReadmeTables.Patch.Tasks
import ReadmeTables.Host
import ReadmeTables.Files.World
import ReadmeTables.Diff.Unified
import ReadmeTables.Extraction
import ReadmeTables.Json.Reader
import ReadmeTables.Number.Shortest
import ReadmeTables.Region
import ReadmeTables.Text.Lines
import ReadmeTables.Text.Quoted
import ReadmeTables.Proofs.Patch.History
import ReadmeTables.Proofs.Patch.Whole
import ReadmeTables.Proofs.Patch.Own
import ReadmeTables.Proofs.Patch.Flag
import ReadmeTables.Proofs.Patch.Destination
import ReadmeTables.Proofs.Patch.Isolation
import ReadmeTables.Proofs.Patch.Confinement
import ReadmeTables.Proofs.Extraction
import ReadmeTables.Proofs.Diff.Unchanged
import ReadmeTables.Proofs.Preview
import ReadmeTables.Proofs.Independence
import ReadmeTables.Proofs.ReadBack
import ReadmeTables.Proofs.Footprint
import ReadmeTables.Proofs.Atomicity
import ReadmeTables.Proofs.Reporting
import ReadmeTables.Proofs.Routing
import ReadmeTables.Proofs.Diff.Reading
import ReadmeTables.Proofs.Diff.Applying
import ReadmeTables.Proofs.Shown
import ReadmeTables.Proofs.Text.Lines
import ReadmeTables.Proofs.Diff.LastLines
import ReadmeTables.Proofs.Diff.Hunks
import ReadmeTables.Proofs.Diff.Tally
import ReadmeTables.Proofs.Diff.Printed
import ReadmeTables.Proofs.Logging
import ReadmeTables.Proofs.Patch.Turns
import ReadmeTables.Proofs.Patch.Tasks
import ReadmeTables.Proofs.Patch.Progress
import ReadmeTables.Proofs.Patch.Serial
import ReadmeTables.Proofs.Patch.Orders
import ReadmeTables.Proofs.Patch.Accounting
import ReadmeTables.Proofs.Summary
import ReadmeTables.Proofs.Pruning
import ReadmeTables.Proofs.Walk
import ReadmeTables.Proofs.Markdown
import ReadmeTables.Proofs.Fragments.Shared
import ReadmeTables.Proofs.Fragments.Arrivals
import ReadmeTables.Proofs.Cleaning
import ReadmeTables.Proofs.Settings.Roots
import ReadmeTables.Proofs.Files.Resolving
import ReadmeTables.Proofs.Settings.Location
