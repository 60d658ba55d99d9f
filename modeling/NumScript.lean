import NumScript.Session.Dialogue
import NumScript.Main
import NumScript.Proofs.Acceptance
import NumScript.Proofs.Reading
import NumScript.Proofs.Derivability
import NumScript.Proofs.MeantDerivation
import NumScript.Proofs.Lexicon
import NumScript.Proofs.ParserExactness
import NumScript.Proofs.Segmentation
import NumScript.Proofs.EarliestError
import NumScript.Proofs.ParserImage
import NumScript.Proofs.Joining
import NumScript.Proofs.Actions
import NumScript.Proofs.FaultyWriter
import NumScript.Proofs.Sequencing
import NumScript.Proofs.Provenance
import NumScript.Proofs.KeptTokens
import NumScript.Proofs.Layout
import NumScript.Proofs.Rendering
import NumScript.Proofs.LineByLine
import NumScript.Proofs.Takes
import NumScript.Proofs.Output
import NumScript.Proofs.Evaluated
import NumScript.Proofs.SharedReader
import NumScript.Proofs.ReadBack
import NumScript.Proofs.Forms
import NumScript.Proofs.Places
import NumScript.Proofs.Outlines
import NumScript.Proofs.Assignments
import NumScript.Proofs.SharedStore
import NumScript.Proofs.Nodes
import NumScript.Proofs.Correspondence
import NumScript.Proofs.Footprint
import NumScript.Proofs.Faults
import NumScript.Proofs.Diagnostics
import NumScript.Proofs.SourceOrder
import NumScript.Proofs.Rounds
import NumScript.Proofs.Endings
import NumScript.Proofs.Renaming
import NumScript.Proofs.RenamedRuns
import NumScript.Proofs.Operators
import NumScript.Proofs.Resuming
import NumScript.Proofs.Targets
import NumScript.Proofs.Stopping
import NumScript.Proofs.NeededValues
import NumScript.Proofs.Splicing
import NumScript.Proofs.Truth
import NumScript.Proofs.Parentheses
import NumScript.Proofs.Locality
import NumScript.Proofs.Rewrapping
import NumScript.Proofs.NumberLines
import NumScript.Proofs.PrintedNumbers
