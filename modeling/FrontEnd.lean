import FrontEnd.Main
import FrontEnd.Outline
import FrontEnd.Proofs.Answers
import FrontEnd.Proofs.Binding
import FrontEnd.Proofs.Brackets
import FrontEnd.Proofs.Chronology
import FrontEnd.Proofs.Collection
import FrontEnd.Proofs.CommaLists
import FrontEnd.Proofs.Comments
import FrontEnd.Proofs.Coverage
import FrontEnd.Proofs.Embedding
import FrontEnd.Proofs.Grades
import FrontEnd.Proofs.HonestParse
import FrontEnd.Proofs.Labels
import FrontEnd.Proofs.Layout
import FrontEnd.Proofs.Leaves
import FrontEnd.Proofs.LoopBindings
import FrontEnd.Proofs.MissedNames
import FrontEnd.Proofs.Modifiers
import FrontEnd.Proofs.OperatorChains
import FrontEnd.Proofs.Quotation
import FrontEnd.Proofs.Respacing
import FrontEnd.Proofs.Snippets
import FrontEnd.Proofs.Termination
import FrontEnd.Proofs.Traces
import FrontEnd.Proofs.TypeParamTexts
import FrontEnd.Proofs.WellFormed
import FrontEnd.Proofs.Wrapping
