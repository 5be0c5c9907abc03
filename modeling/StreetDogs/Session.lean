import StreetDogs.Dog
import StreetDogs.Token

/-!
# Sessions

The players on one map, in the order in which they joined.  Players never
leave, so the id of a player is also the player's place in the roster.
-/

namespace StreetDogs

abbrev PlayerId := UInt32

structure Player where
  id : PlayerId
  name : String
  token : Token
  dog : Dog
deriving DecidableEq, Repr

structure Session where
  mapId : MapId
  /-- The place of the map in the list of maps. -/
  mapIndex : Nat
  players : List Player := []
deriving DecidableEq, Repr

namespace Session

def playerNamed? (session : Session) (name : String) : Option Player :=
  session.players.find? (·.name == name)

def playerWithToken? (session : Session) (token : Token) : Option Player :=
  session.players.find? (·.token == token)

/-- The player with an id, looked up by the place the id stands for. -/
def player? (session : Session) (id : PlayerId) : Option Player :=
  session.players[id.toNat]?.filter (·.id == id)

def playerCount (session : Session) : Nat := session.players.length

def isEmpty (session : Session) : Bool := session.players.isEmpty

/-- Joins by name.  A name that is known returns its player and uses neither
the token nor a random word. -/
def join (session : Session) (name : String) (map : StreetMap) (randomize : Bool)
    (words : Supply UInt64) (token : Token) : Player × Session × Supply UInt64 :=
  match session.playerNamed? name with
  | some player => (player, session, words)
  | none =>
    let (dog, words) := Dog.spawn map randomize words
    let player := ⟨UInt32.ofNat session.players.length, name, token, dog⟩
    (player, { session with players := session.players ++ [player] }, words)

def updateDog (session : Session) (id : PlayerId) (change : Dog → Dog) : Session :=
  { session with
    players := session.players.modify id.toNat fun player =>
      { player with dog := change player.dog } }

/-- The player after a step of its dog; a dog that cannot move stays as it is. -/
def movePlayer (map : StreetMap) (time : Duration) (player : Player) : Player :=
  match player.dog.move map time with
  | .ok dog => { player with dog }
  | .error _ => player

def moveFails (map : StreetMap) (time : Duration) (player : Player) : Bool :=
  match player.dog.move map time with
  | .ok _ => false
  | .error _ => true

/-- Moves every dog; returns the number of dogs that could not move. -/
def advance (session : Session) (map : StreetMap) (time : Duration) : Nat × Session :=
  (session.players.countP (moveFails map time),
    { session with players := session.players.map (movePlayer map time) })

end Session

end StreetDogs
