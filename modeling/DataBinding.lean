import DataBinding.Session.Run
import DataBinding.Proofs.Document.Slots
import DataBinding.Proofs.Document.Links
import DataBinding.Proofs.Document.Release
import DataBinding.Proofs.Document.Arena
import DataBinding.Proofs.Reactive.Data
import DataBinding.Proofs.Reactive.Effects
import DataBinding.Proofs.Reactive.Invariants
import DataBinding.Proofs.Reactive.Refusal
import DataBinding.Proofs.Reactive.Frame
import DataBinding.Proofs.Reactive.Reentrancy
import DataBinding.Proofs.Document.Reading
import DataBinding.Proofs.Document.Tree
import DataBinding.Proofs.Document.Graft
import DataBinding.Proofs.Document.Writing
import DataBinding.Proofs.Number.Comparison
import DataBinding.Proofs.Reactive.Display
import DataBinding.Proofs.Reactive.Observed
import DataBinding.Proofs.Reactive.Path
import DataBinding.Proofs.View.Bindings
import DataBinding.Proofs.View.Fitting
import DataBinding.Proofs.View.Attending
import DataBinding.Proofs.View.Mounted
import DataBinding.Proofs.View.Opening
import DataBinding.Proofs.View.Template
import DataBinding.Proofs.View.Wiring
import DataBinding.Proofs.View.Mounting
import DataBinding.Proofs.View.Consistency
import DataBinding.Proofs.Markup.Attributes
import DataBinding.Proofs.Markup.Construction
import DataBinding.Proofs.Markup.Rules
import DataBinding.Proofs.Document.Handles
import DataBinding.Proofs.Document.Acyclic
import DataBinding.Proofs.Document.Rooted
import DataBinding.Proofs.Document.Leaves
import DataBinding.Proofs.Document.Rendering
import DataBinding.Proofs.Document.Numbering
import DataBinding.Proofs.View.Consulting
import DataBinding.Proofs.View.Compiling
import DataBinding.Proofs.View.Termination
import DataBinding.Proofs.Reactive.Shape
import DataBinding.Proofs.View.Demands
import DataBinding.Proofs.View.Literal
import DataBinding.Proofs.Reactive.Record
import DataBinding.Proofs.View.Routine
import DataBinding.Proofs.Reactive.Grounded
import DataBinding.Proofs.Reactive.Refinement
import DataBinding.Proofs.Reactive.Replacement
import DataBinding.Proofs.View.Nesting
import DataBinding.Proofs.Markup.Spelling
import DataBinding.Proofs.View.Registration
import DataBinding.Proofs.View.Released
import DataBinding.Proofs.View.TwoWay
import DataBinding.Proofs.Reactive.Firing
import DataBinding.Proofs.View.Leftover
import DataBinding.Proofs.Markup.Rereading
import DataBinding.Proofs.Reactive.Lookup
import DataBinding.Proofs.Reactive.Collection
import DataBinding.Proofs.Reactive.Locality
import DataBinding.Proofs.Reactive.Tame
import DataBinding.Proofs.Reactive.Failures
import DataBinding.Proofs.Reactive.ReadBack
import DataBinding.Proofs.Reactive.Subscribing
import DataBinding.Proofs.Reactive.Splitting
import DataBinding.Proofs.Document.Replacing
import DataBinding.Proofs.Document.Rewording
import DataBinding.Proofs.Reactive.Equivalence
import DataBinding.Proofs.View.Suppression
import DataBinding.Proofs.Document.Refusing
import DataBinding.Proofs.Document.Moving
import DataBinding.Proofs.Document.Selecting
import DataBinding.Proofs.View.Directives
import DataBinding.Proofs.View.Forwarding
