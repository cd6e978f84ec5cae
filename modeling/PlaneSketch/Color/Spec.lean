import PlaneSketch.Number.Basic
import PlaneSketch.Fault

/-!
# Colours as they are given

A colour is given by a name or a code, or by a list of components. Values of other kinds may be given in
its place; they are kept as they were written and are refused when a colour is needed.
-/

namespace PlaneSketch

inductive ColorSpec where
  | named (text : String)
  | components (values : List Number)
  | foreign (kind : ForeignKind) (written : String)
  deriving DecidableEq

def ColorSpec.black : ColorSpec := .named "black"

def ColorSpec.white : ColorSpec := .named "white"

end PlaneSketch
