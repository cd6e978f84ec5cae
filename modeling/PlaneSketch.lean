import PlaneSketch.FormatSpec.Template
import PlaneSketch.Picture
import PlaneSketch.Session
import PlaneSketch.Proofs.Insertion
import PlaneSketch.Proofs.Rounding.Monotone
import PlaneSketch.Proofs.Rounding.Nearest
import PlaneSketch.Proofs.Rounding.Floats
import PlaneSketch.Proofs.Rounding.Doubling
import PlaneSketch.Proofs.Binary64.Special
import PlaneSketch.Proofs.Binary64.Order
import PlaneSketch.Proofs.Binary64.SignedZero
import PlaneSketch.Proofs.Binary64.Direction
import PlaneSketch.Proofs.Binary64.Nearest
import PlaneSketch.Proofs.Binary64.Units
import PlaneSketch.Proofs.Binary64.Corner
import PlaneSketch.Proofs.Number.Rational
import PlaneSketch.Proofs.Number.Lengths
import PlaneSketch.Proofs.Decimal.Value
import PlaneSketch.Proofs.Decimal.Shortest
import PlaneSketch.Proofs.Decimal.Exact
import PlaneSketch.Proofs.Decimal.Layout
import PlaneSketch.Proofs.Text.Pieces
import PlaneSketch.Proofs.Text.Words
import PlaneSketch.Proofs.Numeral.Grammar
import PlaneSketch.Proofs.Numeral.Exact
import PlaneSketch.Proofs.Numeral.Value
import PlaneSketch.Proofs.Decimal.SixPlaces
import PlaneSketch.Proofs.Rectangle
import PlaneSketch.Proofs.TransformText.Grammar
import PlaneSketch.Proofs.TransformText.StrayCharacters
import PlaneSketch.Proofs.TransformText.Concatenation
import PlaneSketch.Proofs.TransformText.RoundTrip
import PlaneSketch.Proofs.Transform.Equality
import PlaneSketch.Proofs.Transform.Identity
import PlaneSketch.Proofs.Transform.Viewport
import PlaneSketch.Proofs.Nesting.Points
import PlaneSketch.Proofs.Operation.Meaning
import PlaneSketch.Proofs.Operation.Bracketing
import PlaneSketch.Proofs.Operation.Neutral
import PlaneSketch.Proofs.Canvas.Construction
import PlaneSketch.Proofs.Canvas.Faults
import PlaneSketch.Proofs.Canvas.Calls
import PlaneSketch.Proofs.Canvas.Clearing
import PlaneSketch.Proofs.Canvas.Geometry
import PlaneSketch.Proofs.Canvas.Borders
import PlaneSketch.Proofs.Session.Overflow
import PlaneSketch.Proofs.Session.Run
import PlaneSketch.Proofs.Picture.Formats
import PlaneSketch.Proofs.Binary64.Enclosure
import PlaneSketch.Proofs.Picture.Rendering
import PlaneSketch.Proofs.Color.Hue
import PlaneSketch.Proofs.Color.Range
import PlaneSketch.Proofs.Color.Normalized
import PlaneSketch.Proofs.Binary64.Narrowing
import PlaneSketch.Proofs.Color.Components
import PlaneSketch.Proofs.Color.Texts
import PlaneSketch.Proofs.Canvas.Widths
import PlaneSketch.Proofs.Binary64.Distance
import PlaneSketch.Proofs.Transform.Closeness
