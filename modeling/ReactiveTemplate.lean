import ReactiveTemplate.Json.Reader
import ReactiveTemplate.Proofs.Template.Safety
import ReactiveTemplate.Proofs.Component.Pieces
import ReactiveTemplate.Proofs.Reactive.Values
import ReactiveTemplate.Proofs.Template.Showing
import ReactiveTemplate.Proofs.Markup.RoundTrip
import ReactiveTemplate.Proofs.Template.Pushes
import ReactiveTemplate.Proofs.Component.Agreement
import ReactiveTemplate.Proofs.Template.Resolution
import ReactiveTemplate.Proofs.Template.Locality
import ReactiveTemplate.Proofs.Graph.Presentation
import ReactiveTemplate.Proofs.Graph.Reports
import ReactiveTemplate.Proofs.Interpolation.Capturing
import ReactiveTemplate.Proofs.Asset.Uniting
import ReactiveTemplate.Proofs.Reactive.Direct
import ReactiveTemplate.Proofs.Reactive.Statements
import ReactiveTemplate.Proofs.Component.Injected
import ReactiveTemplate.Proofs.Markup.Moving
import ReactiveTemplate.Proofs.Template.Slots
import ReactiveTemplate.Proofs.Reactive.Quoting
import ReactiveTemplate.Proofs.Expression.Reads
import ReactiveTemplate.Proofs.Template.Ordering
import ReactiveTemplate.Proofs.Text.Lines
