import PlaneSketch.Binary64.Basic

/-!
# Arithmetic of double precision numbers

Sum, difference, product and quotient are the exact results rounded once. A sum that is exactly zero is
`-0` only if both terms are negative zeros; products and quotients take the sign that the signs of their
operands give. The module ends with narrowing to single precision and with the passage to integers.
-/

namespace PlaneSketch.Binary64

protected def add : Binary64 → Binary64 → Binary64
  | nan, _ => nan
  | _, nan => nan
  | infinite s, infinite t => if s = t then infinite s else nan
  | infinite s, finite .. => infinite s
  | finite .., infinite t => infinite t
  | finite s m _, finite t n _ =>
    let sum : Int := (if s then -(m : Int) else m) + (if t then -(n : Int) else n)
    if sum = 0 then ofRatio (s && t) 0 1 else ofRatio (sum < 0) sum.natAbs 1

protected def mul : Binary64 → Binary64 → Binary64
  | nan, _ => nan
  | _, nan => nan
  | infinite s, infinite t => infinite (s ^^ t)
  | infinite s, finite t n _ => if n = 0 then nan else infinite (s ^^ t)
  | finite s m _, infinite t => if m = 0 then nan else infinite (s ^^ t)
  | finite s m _, finite t n _ => ofRatio (s ^^ t) (m * n) unitsPerOne

protected def div : Binary64 → Binary64 → Binary64
  | nan, _ => nan
  | _, nan => nan
  | infinite _, infinite _ => nan
  | infinite s, finite t _ _ => infinite (s ^^ t)
  | finite s _ _, infinite t => ofRatio (s ^^ t) 0 1
  | finite s m _, finite t n _ =>
    if n = 0 then (if m = 0 then nan else infinite (s ^^ t)) else ofRatio (s ^^ t) (m * unitsPerOne) n

instance : Add Binary64 := ⟨Binary64.add⟩
instance : Mul Binary64 := ⟨Binary64.mul⟩
instance : Div Binary64 := ⟨Binary64.div⟩
instance : Sub Binary64 := ⟨fun x y => x + -y⟩

/-- The double nearest to `numerator / denominator`. -/
def ofFraction (numerator denominator : Nat) : Binary64 := ofRatio false (numerator * unitsPerOne) denominator

/-! ### Single precision -/

theorem fitsDouble_of_single {n : Nat} (ha : Precision.single.Aligned n) (hb : n < Precision.single.limit) :
    FitsDouble n := by
  refine ⟨Nat.dvd_trans (Nat.pow_dvd_pow 2 ?_) ha, Nat.lt_trans hb (Precision.limit_lt_limit (by decide))⟩
  simp only [Precision.spacingLog, Precision.double, Precision.single]
  omega

/-- The nearest single precision number, ties to even; infinite when that is out of range. -/
def toSingle : Binary64 → Binary64
  | nan => nan
  | infinite s => infinite s
  | finite s n _ =>
    if h : Precision.single.round n 1 < Precision.single.limit then
      finite s (Precision.single.round n 1) (fitsDouble_of_single (Precision.single.round_aligned n 1) h)
    else infinite s

/-! ### Integers -/

/-- The greatest integer not above a finite value. -/
def floor? : Binary64 → Option Int
  | finite s n _ => some ((if s then -(n : Int) else n) / unitsPerOne)
  | _ => none

/-- The least integer not below a finite value. -/
def ceil? : Binary64 → Option Int
  | finite s n _ => some (-((if s then (n : Int) else -n) / unitsPerOne))
  | _ => none

end PlaneSketch.Binary64
