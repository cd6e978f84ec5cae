import PlaneSketch.Canvas.Basic
import PlaneSketch.Text.Blank
import PlaneSketch.Text.LowerCase

/-!
# Pictures

Paths are rendered on a fresh canvas in one or more formats, which are named in a text between `,`, `;` and
`|`. Blanks behind a separator are skipped and letter case does not matter; a name that is not known is
refused before anything is drawn.
-/

namespace PlaneSketch

inductive Format where
  | image
  | snapshot
  | array
  deriving DecidableEq

namespace Format

open Text

def isSeparator (c : Char) : Bool := c = ';' || c = ',' || c = '|'

/-- A character put in front of the first of several pieces. -/
def prepend (c : Char) : List (List Char) → List (List Char)
  | [] => [[c]]
  | piece :: pieces => (c :: piece) :: pieces

/-- The pieces between separators; `skipping` says that the text begins behind a separator and its blanks. -/
def pieces (skipping : Bool) : List Char → List (List Char)
  | [] => [[]]
  | c :: s =>
    if isSeparator c then [] :: pieces true s
    else if skipping && isBlank c then pieces true s
    else prepend c (pieces false s)

def names : List (String × Format) := [("pil", .image), ("skia", .snapshot), ("numpy", .array)]

/-- The names in a text, in lower case. -/
def namesIn (s : String) : List String := (pieces false s.toList).map fun piece => String.ofList (lower piece)

/-- The formats that a text names; those that are not known are reported in order, each once. -/
def read (s : String) : Except Fault (List Format) :=
  let unknown := (namesIn s).filter fun name => (names.lookup name).isNone
  if unknown.isEmpty then .ok ((namesIn s).filterMap fun name => names.lookup name)
  else .error (.unknownFormats (unknown.eraseDups.mergeSort fun a b => decide (a ≤ b)))

end Format

/-- The bytes of pixels along three axes: rows from the top, columns from the left, and the channels red, green, blue
and alpha. -/
structure PixelArray where
  rows : Nat
  columns : Nat
  channels : Nat
  byte : Nat → Nat → Nat → Nat

def Drawing.pixels (d : Drawing) : PixelArray where
  rows := d.size.height
  columns := d.size.width
  channels := 4
  byte row column channel := (d.pixel column row).getD channel 0

/-- A picture as it is handed out. -/
inductive Output where
  | image (pixels : PixelArray)
  | snapshot (drawing : Drawing)
  | array (pixels : PixelArray)

namespace Output

/-- What an output tells of its extents: an image and a snapshot their width and height, an array all its axes. -/
def extents : Output → List Nat
  | image pixels => [pixels.columns, pixels.rows]
  | snapshot drawing => [drawing.size.width, drawing.size.height]
  | array pixels => [pixels.rows, pixels.columns, pixels.channels]

end Output

def Format.output (d : Drawing) : Format → Output
  | image => .image d.pixels
  | snapshot => .snapshot d
  | array => .array d.pixels

structure Rendering where
  drawing : Drawing
  formats : List Format

namespace Rendering

/-- The drawing in a format, if it is wanted. -/
def entry (r : Rendering) (f : Format) : Option Output := if f ∈ r.formats then some (f.output r.drawing) else none

end Rendering

namespace Picture

def defaultResolution : List Number := [.int 600, .int 600]

def defaultFormats : String := "pil"

variable (surfaces : SurfaceMaker) (paths : List (Path Binary64))

def draw (resolution : List Number) (parameters : Parameters) : Except Fault Drawing := do
  let (canvas, calls) ← Canvas.make surfaces resolution parameters
  match canvas.draw paths with
  | ⟨drawn, none⟩ => .ok ⟨canvas.area.size, calls ++ drawn⟩
  | ⟨_, some fault⟩ => .error fault

/-- Paths rendered in the formats that a text names. -/
def render (resolution : List Number := defaultResolution) (parameters : Parameters := {})
    (formats : String := defaultFormats) : Except Fault Rendering := do
  let formats ← Format.read formats
  .ok ⟨← draw surfaces paths resolution parameters, formats⟩

/-- What showing paths does: the pictures that are displayed, and the one that is handed back. -/
structure Shown where
  displayed : List Output
  returned : Option Output

/-- Displays the snapshot of paths, or hands it back without displaying it. -/
def present (resolution : List Number := defaultResolution) (parameters : Parameters := {}) (display : Bool := true) :
    Except Fault Shown := do
  let snapshot := Format.snapshot.output (← draw surfaces paths resolution parameters)
  .ok (if display then ⟨[snapshot], none⟩ else ⟨[], some snapshot⟩)

/-- The part of an exported image file that tells its form. -/
structure FileHeader where
  extents : List Nat
  bitDepth : Nat
  colorType : Nat

/-- The header of the file that paths are exported to: eight bits each of red, green, blue and alpha. -/
def exportHeader (resolution : List Number := defaultResolution) (parameters : Parameters := {}) :
    Except Fault FileHeader := do
  let image := Format.image.output (← draw surfaces paths resolution parameters)
  .ok ⟨image.extents, 8, 6⟩

end Picture

end PlaneSketch
