import StreetDogs.Json.Lexeme

/-!
# Document trees

A text is read into a tree of the values it holds, up to the first place where
it stops making sense.  The tree marks that place, so whoever decodes it in text
order meets a wrong value or the break in the text, whichever comes first.
-/

namespace StreetDogs.Json

mutual

/-- A value as it stands in a text, or the place where none can be made out. -/
inductive Node where
  | null
  | bool (value : Bool)
  | number (numeral : Numeral)
  | string (content : Option String)
  | array (items : Items)
  | object (members : Members)
  | broken

/-- The items of an array, which is closed or cut off. -/
inductive Items where
  | closed
  | cut
  | cons (head : Node) (tail : Items)

/-- The members of an object, which is closed or cut off. -/
inductive Members where
  | closed
  | cut
  | cons (key : Option String) (value : Node) (tail : Members)

end

def Items.isClosed : Items → Bool
  | closed => true
  | cut => false
  | cons _ tail => tail.isClosed

def Members.isClosed : Members → Bool
  | closed => true
  | cut => false
  | cons _ _ tail => tail.isClosed

/-- The value was read to its end.  A container that was closed holds no break,
since reading stops for good at the first one. -/
def Node.isWhole : Node → Bool
  | broken => false
  | array items => items.isClosed
  | object members => members.isClosed
  | null | bool _ | number _ | string _ => true

/-- A container that is being read, with what it holds so far, latest first. -/
inductive Frame where
  | array (items : List Node)
  /-- Between two members. -/
  | object (members : List (Option String × Node))
  /-- Behind a key. -/
  | member (members : List (Option String × Node)) (key : Option String)

def Items.prepend (items : Items) (latestFirst : List Node) : Items :=
  latestFirst.foldl (fun tail head => .cons head tail) items

def Members.prepend (members : Members) (latestFirst : List (Option String × Node)) : Members :=
  latestFirst.foldl (fun tail (key, value) => .cons key value tail) members

inductive Reading where
  | expectValue (stack : List Frame)
  /-- A value, or the end of the array just opened. -/
  | expectItem (stack : List Frame)
  /-- A key, or the end of the object just opened. -/
  | expectMember (stack : List Frame)
  | expectKey (stack : List Frame)
  | expectColon (stack : List Frame)
  /-- A comma, or the end of the innermost container. -/
  | expectMore (stack : List Frame)
  /-- The end of the text. -/
  | done (root : Node)

/-- What was read: the value of the text, and whether nothing follows it. -/
structure Document where
  root : Node
  ended : Bool

namespace Reading

def deliver (node : Node) : List Frame → Reading
  | [] => .done node
  | .array items :: stack => .expectMore (.array (node :: items) :: stack)
  | .object members :: stack => .expectMore (.object members :: stack)
  | .member members key :: stack => .expectMore (.object ((key, node) :: members) :: stack)

def start? (stack : List Frame) : Lexeme → Option Reading
  | .null => some (deliver .null stack)
  | .bool value => some (deliver (.bool value) stack)
  | .number numeral => some (deliver (.number numeral) stack)
  | .string content => some (deliver (.string content) stack)
  | .openBracket => some (.expectItem (.array [] :: stack))
  | .openBrace => some (.expectMember (.object [] :: stack))
  | _ => none

def close? : Lexeme → List Frame → Option Reading
  | .closeBracket, .array items :: stack =>
    some (deliver (.array (Items.closed.prepend items)) stack)
  | .closeBrace, .object members :: stack =>
    some (deliver (.object (Members.closed.prepend members)) stack)
  | _, _ => none

def step? : Reading → Lexeme → Option Reading
  | .expectValue stack, lexeme => start? stack lexeme
  | .expectItem stack, .closeBracket => close? .closeBracket stack
  | .expectItem stack, lexeme => start? stack lexeme
  | .expectMember stack, .closeBrace => close? .closeBrace stack
  | .expectMember (.object members :: stack), .string content
  | .expectKey (.object members :: stack), .string content =>
    some (.expectColon (.member members content :: stack))
  | .expectColon stack, .colon => some (.expectValue stack)
  | .expectMore (.array items :: stack), .comma => some (.expectValue (.array items :: stack))
  | .expectMore (.object members :: stack), .comma => some (.expectKey (.object members :: stack))
  | .expectMore stack, lexeme => close? lexeme stack
  | _, _ => none

/-- The innermost container, cut off after what it holds so far or inside the
value `node`. -/
def cutFrame (node : Option Node) : Frame → Node
  | .array items => .array ((Items.cut.prepend node.toList).prepend items)
  | .object members => .object (Members.cut.prepend members)
  | .member members key =>
    .object (Members.cut.prepend ((key, node.getD .broken) :: members))

/-- The value of a text that breaks off inside the containers of the stack. -/
def cutStack (node : Option Node) : List Frame → Node
  | [] => node.getD .broken
  | frame :: stack => cutStack (some (cutFrame node frame)) stack

/-- The document when nothing more can be read; `ended` says whether that is
because the text has ended. -/
def finish (ended : Bool) : Reading → Document
  | .done root => ⟨root, ended⟩
  | .expectValue stack => ⟨cutStack (some .broken) stack, false⟩
  | .expectItem stack | .expectMember stack | .expectKey stack | .expectColon stack
  | .expectMore stack => ⟨cutStack none stack, false⟩

def run (reading : Reading) (text : List Char) : Document :=
  match text with
  | [] => reading.finish true
  | c :: rest =>
    if isBlank c then
      run reading rest
    else
      match _h : Lexeme.scan? (c :: rest) with
      | none => reading.finish false
      | some (lexeme, rest') =>
        match reading.step? lexeme with
        | none => reading.finish false
        | some next => run next rest'
termination_by text.length
decreasing_by
  · simp
  · exact Lexeme.scan?_length ‹_›

end Reading

def Document.read (text : List Char) : Document := (Reading.expectValue []).run text

end StreetDogs.Json
