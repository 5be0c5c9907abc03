import StreetDogs.Motion.Advance
import StreetDogs.Motion.Spawn

/-!
# Dogs

A dog remembers its last command, which is applied anew at every step, and its
motion, whose velocity is the one the roads let it keep.
-/

namespace StreetDogs

structure Dog where
  heading : Heading
  /-- The commanded velocity. -/
  command : Vec
  motion : Motion
deriving DecidableEq, Repr

structure DogSnapshot where
  position : Vec
  velocity : Vec
  heading : Heading
deriving DecidableEq, Repr

namespace Dog

/-- A dog that was never commanded. -/
def ofMotion (motion : Motion) : Dog := ⟨default, .zero, motion⟩

def spawn (map : StreetMap) (randomize : Bool) (words : Supply UInt64) : Dog × Supply UInt64 :=
  let (motion, words) := Motion.spawn map randomize words
  (ofMotion motion, words)

/-- Commands the dog; it turns to the velocity at once and moves at the next
step. -/
def steer (dog : Dog) (heading : Heading) (speed : Float) : Dog where
  heading
  command := heading.velocity speed
  motion := dog.motion.withVelocity (heading.velocity speed)

/-- Moves the dog for `time` under its last command. -/
def move (map : StreetMap) (time : Duration) (dog : Dog) : Except MotionError Dog :=
  (dog.motion.advance map dog.heading dog.command time).map ({ dog with motion := · })

def snapshot (dog : Dog) : DogSnapshot :=
  ⟨dog.motion.position, dog.motion.velocity, dog.heading⟩

end Dog

end StreetDogs
