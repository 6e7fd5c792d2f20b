import StepFlow.CaseFile.Tally
import StepFlow.CommandLine.Run
import StepFlow.Graph.Inspection
import StepFlow.Json.Message
import StepFlow.Main
import StepFlow.Proofs.Brackets
import StepFlow.Proofs.Outlines
import StepFlow.Proofs.Renumbering
import StepFlow.Proofs.Searches
import StepFlow.Proofs.Enclosure
import StepFlow.Proofs.Links
import StepFlow.Proofs.Levels
import StepFlow.Proofs.Confinement
import StepFlow.Proofs.Repeats
import StepFlow.Proofs.Routes
import StepFlow.Proofs.Finishing
import StepFlow.Proofs.Decisions
import StepFlow.Proofs.Grammar
import StepFlow.Proofs.Derivations
import StepFlow.Proofs.Faults
import StepFlow.Proofs.Concatenation
import StepFlow.Proofs.Skeletons
import StepFlow.Proofs.Chains
import StepFlow.Proofs.Exit
import StepFlow.Proofs.Wiring
import StepFlow.Proofs.Prefixes
import StepFlow.Proofs.Unclosed
import StepFlow.Proofs.Wrapping
import StepFlow.Proofs.Texts
import StepFlow.Proofs.Listings
import StepFlow.Proofs.CaseFiles
import StepFlow.Proofs.Reports
import StepFlow.Proofs.CaseSources
import StepFlow.Proofs.StoredSuites
import StepFlow.Proofs.CommandsAlike
import StepFlow.Proofs.Stacks
import StepFlow.Proofs.Words
import StepFlow.Proofs.Verdicts
import StepFlow.Proofs.CaseScans
import StepFlow.Proofs.JsonPretty
import StepFlow.Proofs.GraphOutputs
