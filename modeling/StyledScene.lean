import StyledScene.Journal.Scene
import StyledScene.Style.Diagnostic
import StyledScene.Tree.Outline
import StyledScene.Proofs.Ends
import StyledScene.Proofs.Tree.Paths
import StyledScene.Proofs.Tree.Reshaping
import StyledScene.Proofs.Tree.Edits
import StyledScene.Proofs.Tree.Slots
import StyledScene.Proofs.Tree.Marking
import StyledScene.Proofs.Tree.Roots
import StyledScene.Proofs.Tree.Linked
import StyledScene.Proofs.Tree.Records
import StyledScene.Proofs.Tree.Walks
import StyledScene.Proofs.Tree.Births
import StyledScene.Proofs.Tree.Simulation
import StyledScene.Proofs.Tree.ForestInvariant
import StyledScene.Proofs.Tree.Traversals
import StyledScene.Proofs.Tree.Drawing
import StyledScene.Proofs.Tree.Pictures
import StyledScene.Proofs.Box.Signs
import StyledScene.Proofs.Box.Foretelling
import StyledScene.Proofs.Tree.Refusals
import StyledScene.Proofs.Tree.Subtrees
import StyledScene.Proofs.Tree.Effects
import StyledScene.Proofs.Cascade.Orderly
import StyledScene.Proofs.Cascade.Precedence
import StyledScene.Proofs.Cascade.Validity
import StyledScene.Proofs.Cascade.Indexed
import StyledScene.Proofs.Cascade.Positions
import StyledScene.Proofs.Cascade.Addressing
import StyledScene.Proofs.Cascade.Agreement
import StyledScene.Proofs.Cascade.OrderedMap
import StyledScene.Proofs.Scene.Visits
import StyledScene.Proofs.Scene.Pass
import StyledScene.Proofs.Scene.Sync
import StyledScene.Proofs.Scene.Settling
import StyledScene.Proofs.Scene.Agenda
import StyledScene.Proofs.Scene.Steps
import StyledScene.Proofs.Scene.Accounting
import StyledScene.Proofs.Scene.Hosting
import StyledScene.Proofs.Scene.Announcing
import StyledScene.Proofs.Scene.Freshness
import StyledScene.Proofs.Scene.Following
import StyledScene.Proofs.Scene.LazyStyles
import StyledScene.Proofs.Scene.Inheritance
import StyledScene.Proofs.Scene.Gaps
import StyledScene.Proofs.Scene.Refusals
import StyledScene.Proofs.Scene.Linked
import StyledScene.Proofs.Scene.Represented
import StyledScene.Proofs.Scene.Descent
import StyledScene.Proofs.Scene.Stepwise
import StyledScene.Proofs.Scene.OnDemand
import StyledScene.Proofs.Scene.Alike
import StyledScene.Proofs.Scene.Interchange
import StyledScene.Proofs.Selector.Linked
import StyledScene.Proofs.Selector.Hosts
import StyledScene.Proofs.Selector.Backtracking
import StyledScene.Proofs.Selector.Grammar
import StyledScene.Proofs.Text.SmallForms
import StyledScene.Proofs.Selector.RoundTrip
import StyledScene.Proofs.Text.Trimming
import StyledScene.Proofs.Property.Spellings
import StyledScene.Proofs.Color.Channels
import StyledScene.Proofs.Color.HexText
import StyledScene.Proofs.Color.Acceptance
import StyledScene.Proofs.Tree.ClassCalls
import StyledScene.Proofs.Tree.Classes
import StyledScene.Proofs.Tree.ClassHistory
import StyledScene.Proofs.Text.InPlace
import StyledScene.Proofs.Selector.NameTexts
import StyledScene.Proofs.Selector.SameCase
import StyledScene.Proofs.Style.SameValues
import StyledScene.Proofs.Style.MappedStyle
import StyledScene.Proofs.Style.MergeLaws
import StyledScene.Proofs.Style.Notices
import StyledScene.Proofs.Style.Congruence
import StyledScene.Proofs.Cascade.Sameness
import StyledScene.Proofs.Selector.Concatenation
