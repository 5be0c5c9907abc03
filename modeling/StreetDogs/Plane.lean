/-!
# Vectors in the plane

Positions and velocities with binary64 coordinates.  The vertical axis points
down, so north is negative `y`.
-/

namespace StreetDogs

/-- A position or a velocity.  The Boolean equality is the one of binary64
numbers: the two zeros are equal and a coordinate that is no number equals
nothing. -/
structure Vec where
  x : Float
  y : Float
deriving BEq, DecidableEq, Repr

namespace Vec

def zero : Vec := ⟨0.0, 0.0⟩
def north : Vec := ⟨0.0, -1.0⟩
def south : Vec := ⟨0.0, 1.0⟩
def west : Vec := ⟨-1.0, 0.0⟩
def east : Vec := ⟨1.0, 0.0⟩

instance : Inhabited Vec := ⟨zero⟩

instance : Add Vec := ⟨fun a b => ⟨a.x + b.x, a.y + b.y⟩⟩
instance : Sub Vec := ⟨fun a b => ⟨a.x - b.x, a.y - b.y⟩⟩
instance : Neg Vec := ⟨fun a => ⟨-a.x, -a.y⟩⟩
instance : HMul Vec Float Vec := ⟨fun a scale => ⟨a.x * scale, a.y * scale⟩⟩
instance : HMul Float Vec Vec := ⟨fun scale a => a * scale⟩

def length (a : Vec) : Float := (a.x * a.x + a.y * a.y).sqrt

def isFinite (a : Vec) : Bool := a.x.isFinite && a.y.isFinite

/-- Both coordinates lie strictly within `epsilon` of zero. -/
def isNearZero (a : Vec) (epsilon : Float) : Bool :=
  decide (a.x.abs < epsilon) && decide (a.y.abs < epsilon)

/-- Both coordinates of `a` and `b` lie strictly within `epsilon` of each other. -/
def isNear (a b : Vec) (epsilon : Float) : Bool :=
  decide ((a.x - b.x).abs < epsilon) && decide ((a.y - b.y).abs < epsilon)

end Vec

end StreetDogs
