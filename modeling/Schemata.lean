import Schemata.Checking
import Schemata.Document.Draft
import Schemata.Session
import Schemata.Workspace
import Schemata.Proofs.Layout
import Schemata.Proofs.Recall
import Schemata.Proofs.Tree
import Schemata.Proofs.Loaded
import Schemata.Proofs.Lookup
import Schemata.Proofs.Resolution
import Schemata.Proofs.Imports
import Schemata.Proofs.Classifiers
import Schemata.Proofs.ReferenceFindings
import Schemata.Proofs.Findings
import Schemata.Proofs.RepeatFindings
import Schemata.Proofs.Blocked
import Schemata.Proofs.Types
import Schemata.Proofs.WellFormed
import Schemata.Proofs.Clean
import Schemata.Proofs.Hidden
import Schemata.Proofs.InStep
import Schemata.Proofs.Agreement
import Schemata.Proofs.CheckAgreement
import Schemata.Proofs.LoadOrder
import Schemata.Proofs.Repeats
import Schemata.Proofs.Bystander
import Schemata.Proofs.Walks
import Schemata.Proofs.DocumentOrder
import Schemata.Document.Lowering
import Schemata.Document.Reading
import Schemata.Proofs.Reading
import Schemata.Proofs.Entries
import Schemata.Proofs.Renumbering
import Schemata.Proofs.Reentry
import Schemata.Proofs.FileTable
import Schemata.Proofs.FileHistory
import Schemata.Proofs.Targets
import Schemata.Proofs.Additions
import Schemata.Proofs.Offers
import Schemata.Proofs.Erasure
import Schemata.Proofs.Acceptance
import Schemata.Proofs.Retexting
import Schemata.Proofs.Completion
import Schemata.Proofs.Placement
import Schemata.Proofs.FindingOrder
import Schemata.Proofs.Unplaced
import Schemata.Proofs.Positions
import Schemata.Proofs.Refusals
import Schemata.Proofs.FirstMatches
import Schemata.Proofs.Mismatches
import Schemata.Proofs.ValueNodes
import Schemata.Proofs.Literals
import Schemata.Proofs.SameReading
import Schemata.Proofs.Counterparts
import Schemata.Proofs.DuplicateNames
import Schemata.Proofs.ArrayElements
import Schemata.Proofs.MissingMembers
import Schemata.Proofs.LinePositions
import Schemata.Proofs.LineSegments
import Schemata.Proofs.Limits
import Schemata.Proofs.Requirements
import Schemata.Proofs.PayloadReading
import Schemata.Proofs.Spacing
import Schemata.Proofs.Tally
import Schemata.Proofs.Ranks
