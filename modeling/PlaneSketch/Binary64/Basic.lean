import PlaneSketch.Rounding

/-!
# Double precision numbers

Every finite double is a whole number of units of `2 ^ -1074`, so `Binary64` holds a sign and a count of
units that lies on the double grid; the infinities and one not-a-number value complete it. Two values are
equal exactly when they are the same datum, the sign of zero included. `Binary64.ofRatio` rounds a quotient
of units, and every inexact operation of the library ends in it.
-/

namespace PlaneSketch

/-- Double precision, counted in units of `2 ^ -1074`. -/
def Precision.double : Precision := ⟨53, 0, 2098, by decide⟩

/-- Single precision, counted in units of `2 ^ -1074`. -/
def Precision.single : Precision := ⟨24, 925, 1202, by decide⟩

/-- A count of units that a finite double can hold. -/
structure FitsDouble (n : Nat) : Prop where
  aligned : Precision.double.Aligned n
  below : n < Precision.double.limit

/-- A double precision number; `finite negative units _` is `units * 2 ^ -1074` with its sign. -/
inductive Binary64 where
  | nan
  | infinite (negative : Bool)
  | finite (negative : Bool) (units : Nat) (fits : FitsDouble units)
  deriving DecidableEq

namespace Binary64

@[irreducible] def unitsPerOne : Nat := Nat.pow 2 1074

theorem unitsPerOne_pos : 0 < unitsPerOne := by decide +kernel

/-- `num / den` units, rounded to the nearest double; infinite when that is out of range. -/
def ofRatio (negative : Bool) (num den : Nat) : Binary64 :=
  let n := Precision.double.round num den
  if h : n < Precision.double.limit then .finite negative n ⟨Precision.double.round_aligned _ _, h⟩
  else .infinite negative

def ofNat (n : Nat) : Binary64 := ofRatio false (n * unitsPerOne) 1

def ofInt (i : Int) : Binary64 := ofRatio (i < 0) (i.natAbs * unitsPerOne) 1

instance : Inhabited Binary64 := ⟨nan⟩
instance (n : Nat) : OfNat Binary64 n := ⟨ofNat n⟩
instance : Zero Binary64 := ⟨ofNat 0⟩
instance : One Binary64 := ⟨ofNat 1⟩

def negZero : Binary64 := ofRatio true 0 1

/-- Whether the value is neither infinite nor `nan`. -/
def isFinite : Binary64 → Bool
  | finite .. => true
  | _ => false

def isNaN : Binary64 → Bool
  | nan => true
  | _ => false

/-- Whether the sign is a minus; `nan` has no sign. -/
def isNegative : Binary64 → Bool
  | nan => false
  | infinite s => s
  | finite s _ _ => s

/-- The value in units, the infinities standing just outside the finite range. -/
def units? : Binary64 → Option Int
  | nan => none
  | infinite s => some (if s then -(Precision.double.limit : Int) else Precision.double.limit)
  | finite s n _ => some (if s then -(n : Int) else n)

/-- The opposite; zero changes its sign as well. -/
protected def neg : Binary64 → Binary64
  | nan => nan
  | infinite s => infinite !s
  | finite s n h => finite (!s) n h

instance : Neg Binary64 := ⟨Binary64.neg⟩

def abs : Binary64 → Binary64
  | nan => nan
  | infinite _ => infinite false
  | finite _ n h => finite false n h

/-! ### Order -/

/-- A comparison of values; it is false as soon as one of them is `nan`. -/
def compareBy (r : Int → Int → Bool) (x y : Binary64) : Bool :=
  match x.units?, y.units? with
  | some a, some b => r a b
  | _, _ => false

/-- Equality of values: the two zeros are equal and `nan` equals nothing. -/
instance : BEq Binary64 := ⟨compareBy fun a b => a == b⟩

/-- Order of values; `nan` is below and above nothing. -/
instance : LT Binary64 := ⟨fun x y => compareBy (fun a b => a < b) x y⟩

instance : LE Binary64 := ⟨fun x y => compareBy (fun a b => a ≤ b) x y⟩

instance (x y : Binary64) : Decidable (x < y) := inferInstanceAs (Decidable (_ = true))

instance (x y : Binary64) : Decidable (x ≤ y) := inferInstanceAs (Decidable (_ = true))

/-! ### Small laws -/

@[simp] theorem ofRatio_ne_nan (s : Bool) (num den : Nat) : ofRatio s num den ≠ nan := by
  unfold ofRatio
  dsimp only
  split <;> simp

theorem ofRatio_fits (s : Bool) {n : Nat} (h : FitsDouble n) : ofRatio s n 1 = finite s n h := by
  have hr := Precision.double.round_of_aligned h.aligned
  unfold ofRatio
  simp [hr, h.below]

@[simp] theorem neg_neg (x : Binary64) : - -x = x := by
  cases x <;> simp [Neg.neg, Binary64.neg]

end Binary64

end PlaneSketch
