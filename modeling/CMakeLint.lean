import CMakeLint.Check.Catalog
import CMakeLint.Check.Findings
import CMakeLint.Comment
import CMakeLint.Disk.Archive
import CMakeLint.Lint
import CMakeLint.Main
import CMakeLint.Proofs.Check.Emphasis
import CMakeLint.Proofs.Check.Locality
import CMakeLint.Proofs.Suppression
import CMakeLint.Proofs.Walk.BadEntry
import CMakeLint.Run.Outcome
import CMakeLint.Text.Quoted
import CMakeLint.Version
import CMakeLint.Proofs.Walk.Output
import CMakeLint.Proofs.Walk.Interrupt
import CMakeLint.Proofs.Walk.Verbosity
import CMakeLint.Proofs.Disk.Reordering
import CMakeLint.Proofs.Walk.Relisting
import CMakeLint.Proofs.Check.Copies
import CMakeLint.Proofs.Walk.Status
import CMakeLint.Proofs.Pattern.Pieces
import CMakeLint.Proofs.Pattern.Scan
import CMakeLint.Proofs.Pattern.Calls
import CMakeLint.Proofs.Pattern.Mentions
import CMakeLint.Proofs.Check.Limit
import CMakeLint.Proofs.Check.Calls
import CMakeLint.Proofs.Check.MinimumVersion
import CMakeLint.Proofs.Check.SystemKeyword
import CMakeLint.Proofs.Pragma.Grammar
import CMakeLint.Proofs.Check.Places
import CMakeLint.Proofs.ReadingOrder
import CMakeLint.Proofs.Grid.Search
import CMakeLint.Proofs.Check.Refusal
import CMakeLint.Proofs.Text.Substitution
import CMakeLint.Proofs.Check.Description
import CMakeLint.Proofs.Grid.Screen
import CMakeLint.Proofs.Text.Bounds
import CMakeLint.Proofs.Check.Context
import CMakeLint.Proofs.Grid.Coordinates
import CMakeLint.Proofs.Grid.Refusal
