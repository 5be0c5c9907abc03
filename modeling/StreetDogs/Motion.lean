import StreetDogs.StreetMap
import StreetDogs.Heading
import StreetDogs.Duration
import StreetDogs.Text.Quoted

/-!
# Motion state

A dog in motion is anchored to one road of its map.  Its position stays in the
widened bounding box of that road; `StreetDogs.Motion.Advance` moves it.
-/

namespace StreetDogs

/-- The road a dog is anchored to, by index, with its position and velocity. -/
structure Motion where
  road : Nat
  position : Vec
  velocity : Vec
deriving DecidableEq, Repr

inductive MotionError where
  | invalidHeading (code : String)
  | unknownRoad (road : Nat)
  | nonFinitePosition
deriving DecidableEq, Repr

def MotionError.message : MotionError → String
  | invalidHeading code => s!"invalid direction {Text.quoted code}"
  | unknownRoad road => s!"road {road} does not exist on this map"
  | nonFinitePosition => "movement produced a non-finite position"

/-- The heading of a request, or the error that names its code. -/
def Heading.ofCode (code : String) : Except MotionError Heading :=
  match ofCode? code with
  | some heading => .ok heading
  | none => .error (.invalidHeading code)

namespace Motion

/-- At rest at a position, anchored to a road. -/
def atRest (road : Nat) (position : Vec) : Motion := ⟨road, position, .zero⟩

def withVelocity (motion : Motion) (velocity : Vec) : Motion := { motion with velocity }

end Motion

end StreetDogs
