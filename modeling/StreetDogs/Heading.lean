import StreetDogs.Road

/-!
# Headings

The five movement commands.  Each moving heading has an axis, a unit vector and
a wire code; `stop` has the empty code and no axis.
-/

namespace StreetDogs

inductive Heading where
  | north
  | south
  | east
  | west
  | stop
deriving DecidableEq, Repr

namespace Heading

/-- A dog that was never commanded faces north. -/
instance : Inhabited Heading := ⟨north⟩

/-- The axis of travel. -/
def axis? : Heading → Option Axis
  | east | west => some .horizontal
  | north | south => some .vertical
  | stop => none

def unit : Heading → Vec
  | north => .north
  | south => .south
  | east => .east
  | west => .west
  | stop => .zero

/-- Travel increases the coordinate on its axis. -/
def isForward : Heading → Bool
  | south | east => true
  | north | west | stop => false

/-- The velocity of a dog commanded to move at `speed`. -/
def velocity (heading : Heading) (speed : Float) : Vec := heading.unit * speed

/-- The code in requests. -/
def code : Heading → String
  | north => "U"
  | south => "D"
  | east => "R"
  | west => "L"
  | stop => ""

/-- The code in state answers, where a stopped dog reads as one facing north. -/
def shownCode : Heading → String
  | stop => north.code
  | heading => heading.code

def ofCode? : String → Option Heading
  | "U" => some north
  | "D" => some south
  | "R" => some east
  | "L" => some west
  | "" => some stop
  | _ => none

theorem ofCode?_code (heading : Heading) : ofCode? heading.code = some heading := by
  cases heading <;> rfl

def name : Heading → String
  | north => "North"
  | south => "South"
  | east => "East"
  | west => "West"
  | stop => "Stop"

/-- All headings, in the order in which documents list them. -/
def all : List Heading := [north, south, east, west, stop]

end Heading

def Axis.name : Axis → String
  | .horizontal => "Horizontal"
  | .vertical => "Vertical"

def Axis.all : List Axis := [.horizontal, .vertical]

end StreetDogs
