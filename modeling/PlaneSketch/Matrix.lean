/-!
# Matrices of three rows

Triples of scalars, and matrices of three rows of them. Every sum of products is formed from the left,
starting at zero, so that the result is determined also where addition and multiplication round. Nothing
is assumed of the scalars here: they may be double precision numbers or the elements of a ring.
-/

namespace PlaneSketch

structure Triple (K : Type) where
  x : K
  y : K
  z : K
  deriving DecidableEq

structure Matrix (K : Type) where
  top : Triple K
  middle : Triple K
  bottom : Triple K
  deriving DecidableEq

variable {K : Type} [Zero K] [One K] [Add K] [Mul K] [BEq K]

namespace Triple

/-- The sum of the products of corresponding entries, from the left. -/
def dot (u v : Triple K) : K := 0 + u.x * v.x + u.y * v.y + u.z * v.z

/-- Whether all entries are equal in value. -/
def same (u v : Triple K) : Bool := u.x == v.x && u.y == v.y && u.z == v.z

/-- The last row of every affine matrix. -/
def unit : Triple K := ⟨0, 0, 1⟩

def map {L : Type} (f : K → L) (u : Triple K) : Triple L := ⟨f u.x, f u.y, f u.z⟩

end Triple

namespace Matrix

def transpose (m : Matrix K) : Matrix K where
  top := ⟨m.top.x, m.middle.x, m.bottom.x⟩
  middle := ⟨m.top.y, m.middle.y, m.bottom.y⟩
  bottom := ⟨m.top.z, m.middle.z, m.bottom.z⟩

def mulColumn (m : Matrix K) (v : Triple K) : Triple K := ⟨m.top.dot v, m.middle.dot v, m.bottom.dot v⟩

def rowMul (v : Triple K) (m : Matrix K) : Triple K :=
  ⟨v.dot m.transpose.top, v.dot m.transpose.middle, v.dot m.transpose.bottom⟩

protected def mul (m n : Matrix K) : Matrix K := ⟨rowMul m.top n, rowMul m.middle n, rowMul m.bottom n⟩

instance : Mul (Matrix K) := ⟨Matrix.mul⟩

def identity : Matrix K := ⟨⟨1, 0, 0⟩, ⟨0, 1, 0⟩, Triple.unit⟩

/-- Whether all corresponding entries are related. -/
def related (r : K → K → Bool) (m n : Matrix K) : Bool :=
  r m.top.x n.top.x && r m.top.y n.top.y && r m.top.z n.top.z &&
  (r m.middle.x n.middle.x && r m.middle.y n.middle.y && r m.middle.z n.middle.z) &&
  (r m.bottom.x n.bottom.x && r m.bottom.y n.bottom.y && r m.bottom.z n.bottom.z)

def same (m n : Matrix K) : Bool := m.related (· == ·) n

end Matrix

end PlaneSketch
