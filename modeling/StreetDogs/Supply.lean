/-!
# Supplies

A supply is an endless sequence of items together with the number of items
already taken from it.  Random words and fresh player tokens both come from a
supply, so "nothing was drawn" is the statement that the supply is unchanged.
-/

namespace StreetDogs

/-- An endless sequence of items and the position of the next one. -/
structure Supply (α : Type) where
  item : Nat → α
  taken : Nat := 0

namespace Supply

variable {α : Type}

def next (supply : Supply α) : α × Supply α :=
  (supply.item supply.taken, { supply with taken := supply.taken + 1 })

/-- Takes items until one is accepted, giving up after `limit` refusals. -/
def search (accept : α → Bool) (supply : Supply α) : Nat → Option (α × Supply α)
  | 0 => none
  | limit + 1 =>
    let (item, rest) := supply.next
    if accept item then some (item, rest) else search accept rest limit

/-- The listed items first, then the items of `later`. -/
def ofList (items : List α) (later : Nat → α) : Supply α where
  item index := items[index]?.getD (later (index - items.length))

end Supply

end StreetDogs
