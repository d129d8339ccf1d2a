import Monotype.Annotation
import Monotype.Command.Check
import Monotype.Command.Files
import Monotype.Command.Options
import Monotype.Command.Run
import Monotype.Constraint
import Monotype.Diagnostic
import Monotype.Env
import Monotype.Event
import Monotype.Forest
import Monotype.Inference
import Monotype.Log
import Monotype.Main
import Monotype.OrderedMap
import Monotype.Proofs.Acceptance
import Monotype.Proofs.Actions
import Monotype.Proofs.Blame
import Monotype.Proofs.Checked
import Monotype.Proofs.Clashes
import Monotype.Proofs.Collection
import Monotype.Proofs.Consistency
import Monotype.Proofs.Constructions
import Monotype.Proofs.Contract
import Monotype.Proofs.Declarations
import Monotype.Proofs.Flattening
import Monotype.Proofs.Grammar
import Monotype.Proofs.Heights
import Monotype.Proofs.Invariants
import Monotype.Proofs.Labelling
import Monotype.Proofs.Loop
import Monotype.Proofs.NormalForms
import Monotype.Proofs.Numbering
import Monotype.Proofs.Numerals
import Monotype.Proofs.Operations
import Monotype.Proofs.Partition
import Monotype.Proofs.Parts
import Monotype.Proofs.Places
import Monotype.Proofs.Precedence
import Monotype.Proofs.Printing
import Monotype.Proofs.Reading
import Monotype.Proofs.Rearrangement
import Monotype.Proofs.Relexing
import Monotype.Proofs.Rendering
import Monotype.Proofs.Runs
import Monotype.Proofs.Scanning
import Monotype.Proofs.Scoping
import Monotype.Proofs.Solved
import Monotype.Proofs.Spelling
import Monotype.Proofs.Substitution
import Monotype.Proofs.Transitions
import Monotype.Proofs.Typing
import Monotype.Proofs.Unification
import Monotype.Proofs.Variants
import Monotype.Proofs.Viability
import Monotype.Proofs.Ways
import Monotype.Source.Lexing
import Monotype.Source.Reading
import Monotype.Source.Token
import Monotype.Term
import Monotype.Text.Classes
import Monotype.Text.Decoding
import Monotype.Text.Delimited
import Monotype.Text.Numeral
import Monotype.Text.Uppercase
import Monotype.Ty.Basic
import Monotype.Ty.Text
import Monotype.Unifier
