import StreetDogs.Proofs.Json.Lexeme
import StreetDogs.Json.Decoder

/-!
# Documents read back

The text of a tree without breaks is read into that tree, and the reader stops
exactly where the text of the tree ends.  A value is written as its tree, so its
text is read into the tree of the value.
-/

namespace StreetDogs.Json

/-- The tree of a number; one that is not finite was written as `null`. -/
def Node.ofNumber (number : Number) : Node :=
  match number.numeral? with
  | some numeral => .number numeral
  | none => .null

namespace Value

mutual

def node : Value → Node
  | null => .null
  | bool value => .bool value
  | number n => .ofNumber n
  | string content => .string (some content)
  | array items => .array (itemNodes items)
  | object members => .object (memberNodes members)

def itemNodes : List Value → Items
  | [] => .closed
  | item :: items => .cons item.node (itemNodes items)

def memberNodes : List (String × Value) → Members
  | [] => .closed
  | member :: members => .cons (memberNode member).1 (memberNode member).2 (memberNodes members)

def memberNode : String × Value → Option String × Node
  | (key, value) => (some key, value.node)

end

end Value

namespace Reading

variable {reading next : Reading} {stack : List Frame} {rest : List Char}

/-- A lexeme is taken by itself, and reading goes on behind it. -/
theorem run_lexeme (lexeme : Lexeme) (hstands : lexeme.StandsBefore rest)
    (hstep : reading.step? lexeme = some next) :
    reading.run (lexeme.chars ++ rest) = next.run rest := by
  obtain ⟨c, more, hchars, hblank⟩ := lexeme.chars_eq_cons_of_not_isBlank
  have hscan := Lexeme.scan?_chars hstands
  rw [hchars, List.cons_append] at hscan ⊢
  rw [run, hblank, if_neg Bool.false_ne_true]
  split
  · next hnone => simp [hscan] at hnone
  · next found rest' hsome =>
      rw [hscan] at hsome
      obtain ⟨rfl, rfl⟩ : lexeme = found ∧ rest = rest' := by simpa using hsome
      rw [hstep]

/-- A value is expected, whatever else may stand here. -/
def Awaits (reading : Reading) (stack : List Frame) : Prop :=
  ∀ {lexeme next}, start? stack lexeme = some next → reading.step? lexeme = some next

theorem awaits_expectValue (stack : List Frame) : (expectValue stack).Awaits stack :=
  fun hstart => hstart

theorem awaits_expectItem (stack : List Frame) : (expectItem stack).Awaits stack := by
  intro lexeme next hstart
  cases lexeme with
  | closeBracket => cases hstart
  | _ => exact hstart

def AwaitsKey (reading : Reading) (members : List (Option String × Node))
    (stack : List Frame) : Prop :=
  ∀ key, reading.step? (.string key) = some (.expectColon (.member members key :: stack))

theorem awaitsKey_expectKey (members : List (Option String × Node)) (stack : List Frame) :
    (expectKey (.object members :: stack)).AwaitsKey members stack := fun _ => rfl

theorem awaitsKey_expectMember (members : List (Option String × Node)) (stack : List Frame) :
    (expectMember (.object members :: stack)).AwaitsKey members stack := fun _ => rfl

end Reading

/-! ## Reading trees -/

mutual

/-- The lexemes of a tree up to its first break. -/
def Node.lexemes : Node → List Lexeme
  | .null => [.null]
  | .bool value => [.bool value]
  | .number numeral => [.number numeral]
  | .string content => [.string content]
  | .array .closed => [.openBracket, .closeBracket]
  | .array .cut => [.openBracket]
  | .array (.cons head tail) => .openBracket :: (head.lexemes ++ tail.moreLexemes)
  | .object .closed => [.openBrace, .closeBrace]
  | .object .cut => [.openBrace]
  | .object (.cons key value tail) =>
    .openBrace :: (.string key :: .colon :: value.lexemes ++ tail.moreLexemes)
  | .broken => []

def Items.moreLexemes : Items → List Lexeme
  | .closed => [.closeBracket]
  | .cut => []
  | .cons head tail => .comma :: (head.lexemes ++ tail.moreLexemes)

def Members.moreLexemes : Members → List Lexeme
  | .closed => [.closeBrace]
  | .cut => []
  | .cons key value tail =>
    .comma :: (.string key :: .colon :: value.lexemes ++ tail.moreLexemes)

end

mutual

/-- The tree has no break, and all its strings have a content. -/
def Node.IsPlain : Node → Prop
  | .null | .bool _ | .number _ => True
  | .string content => content.isSome
  | .array items => items.IsPlain
  | .object members => members.IsPlain
  | .broken => False

def Items.IsPlain : Items → Prop
  | .closed => True
  | .cut => False
  | .cons head tail => head.IsPlain ∧ tail.IsPlain

def Members.IsPlain : Members → Prop
  | .closed => True
  | .cut => False
  | .cons key value tail => key.isSome ∧ value.IsPlain ∧ tail.IsPlain

end

/-- The text of lexemes in front of other text. -/
def spell (lexemes : List Lexeme) (rest : List Char) : List Char :=
  lexemes.flatMap Lexeme.chars ++ rest

@[simp]
theorem spell_cons (lexeme : Lexeme) (lexemes : List Lexeme) (rest : List Char) :
    spell (lexeme :: lexemes) rest = lexeme.chars ++ spell lexemes rest := by
  rw [spell, spell, List.flatMap_cons, List.append_assoc]

@[simp]
theorem spell_append (first more : List Lexeme) (rest : List Char) :
    spell (first ++ more) rest = spell first (spell more rest) := by
  rw [spell, spell, spell, List.flatMap_append, List.append_assoc]

/-- Further items do not go on with the number before them. -/
theorem Items.endsNumber_moreLexemes {items : Items} (h : items.IsPlain) (rest : List Char) :
    Lexeme.EndsNumber (spell items.moreLexemes rest) := by
  cases items with
  | cut => exact h.elim
  | closed | cons =>
      rintro c ⟨⟩
      decide

theorem Members.endsNumber_moreLexemes {members : Members} (h : members.IsPlain)
    (rest : List Char) : Lexeme.EndsNumber (spell members.moreLexemes rest) := by
  cases members with
  | cut => exact h.elim
  | closed | cons =>
      rintro c ⟨⟩
      decide

namespace Reading

variable {reading : Reading} {stack : List Frame} {rest : List Char}
  {latestFirst : List (Option String × Node)}

/-- Where a key is expected, a member is read if its value is. -/
theorem run_member {key : Option String} {value : Node} (hkey : key.isSome)
    (hreading : reading.AwaitsKey latestFirst stack)
    (hvalue : (expectValue (.member latestFirst key :: stack)).run (spell value.lexemes rest) =
      (deliver value (.member latestFirst key :: stack)).run rest) :
    reading.run (spell (.string key :: .colon :: value.lexemes) rest) =
      (expectMore (.object ((key, value) :: latestFirst) :: stack)).run rest := by
  rw [spell_cons, run_lexeme (.string key) hkey (hreading _), spell_cons,
    run_lexeme .colon trivial rfl, hvalue]
  rfl

mutual

/-- Where a value is expected, the lexemes of a tree are read as that tree. -/
theorem run_node {reading : Reading} {stack : List Frame} {rest : List Char}
    (hreading : reading.Awaits stack) (hrest : Lexeme.EndsNumber rest) :
    ∀ node : Node, node.IsPlain →
      reading.run (spell node.lexemes rest) = (deliver node stack).run rest
  | .null, _ => by
      rw [Node.lexemes, spell_cons]
      exact run_lexeme .null trivial (hreading rfl)
  | .bool value, _ => by
      rw [Node.lexemes, spell_cons]
      exact run_lexeme (.bool value) trivial (hreading rfl)
  | .number numeral, _ => by
      rw [Node.lexemes, spell_cons]
      exact run_lexeme (.number numeral) hrest (hreading rfl)
  | .string content, h => by
      rw [Node.lexemes, spell_cons]
      exact run_lexeme (.string content) h (hreading rfl)
  | .array .closed, _ => by
      rw [Node.lexemes, spell_cons, run_lexeme .openBracket trivial (hreading rfl)]
      exact run_lexeme .closeBracket trivial rfl
  | .array (.cons head tail), h => by
      rw [Node.lexemes, spell_cons, run_lexeme .openBracket trivial (hreading rfl), spell_append,
        run_node (awaits_expectItem _) (Items.endsNumber_moreLexemes h.2 rest) head h.1]
      exact run_moreItems stack [head] rest tail h.2
  | .object .closed, _ => by
      rw [Node.lexemes, spell_cons, run_lexeme .openBrace trivial (hreading rfl)]
      exact run_lexeme .closeBrace trivial rfl
  | .object (.cons key value tail), h => by
      rw [Node.lexemes, spell_cons, run_lexeme .openBrace trivial (hreading rfl), spell_append,
        run_member h.1 (awaitsKey_expectMember [] stack) (run_node (awaits_expectValue _)
          (Members.endsNumber_moreLexemes h.2.2 rest) value h.2.1)]
      exact run_moreMembers stack [(key, value)] rest tail h.2.2

/-- The items behind the first are read behind those that were read before. -/
theorem run_moreItems (stack : List Frame) (latestFirst : List Node) (rest : List Char) :
    ∀ items : Items, items.IsPlain →
      (expectMore (.array latestFirst :: stack)).run (spell items.moreLexemes rest) =
        (deliver (.array (items.prepend latestFirst)) stack).run rest
  | .closed, _ => run_lexeme .closeBracket trivial rfl
  | .cons head tail, h => by
      rw [Items.moreLexemes, spell_cons, run_lexeme .comma trivial rfl, spell_append,
        run_node (awaits_expectValue _) (Items.endsNumber_moreLexemes h.2 rest) head h.1]
      exact run_moreItems stack (head :: latestFirst) rest tail h.2

theorem run_moreMembers (stack : List Frame) (latestFirst : List (Option String × Node))
    (rest : List Char) :
    ∀ members : Members, members.IsPlain →
      (expectMore (.object latestFirst :: stack)).run (spell members.moreLexemes rest) =
        (deliver (.object (members.prepend latestFirst)) stack).run rest
  | .closed, _ => run_lexeme .closeBrace trivial rfl
  | .cons key value tail, h => by
      rw [Members.moreLexemes, spell_cons, run_lexeme .comma trivial rfl, spell_append,
        run_member h.1 (awaitsKey_expectKey latestFirst stack) (run_node (awaits_expectValue _)
          (Members.endsNumber_moreLexemes h.2.2 rest) value h.2.1)]
      exact run_moreMembers stack ((key, value) :: latestFirst) rest tail h.2.2

end

end Reading

def Node.text (node : Node) : String := String.ofList (node.lexemes.flatMap Lexeme.chars)

/-- The text of a tree without breaks is a document that holds this tree and nothing
else. -/
theorem Node.read_text {node : Node} (h : node.IsPlain) :
    Document.read node.text.toList = ⟨node, true⟩ := by
  have hspell : node.text.toList = spell node.lexemes [] := by
    rw [text, spell, String.toList_ofList, List.append_nil]
  rw [Document.read, hspell, Reading.run_node (Reading.awaits_expectValue [])
    Lexeme.endsNumber_nil node h, Reading.deliver, Reading.run]
  rfl

namespace Value

theorem lexemes_ofNumber (n : Number) : (Node.ofNumber n).lexemes = [numberLexeme n] := by
  rw [numberLexeme, Node.ofNumber]
  cases n.numeral? <;> rfl

mutual

/-- The tree of a value has the lexemes of the value. -/
theorem lexemes_node : ∀ value : Value, value.node.lexemes = value.lexemes
  | null => rfl
  | bool _ => rfl
  | number n => lexemes_ofNumber n
  | string _ => rfl
  | array [] => rfl
  | array (item :: items) => by
      rw [node, itemNodes, Node.lexemes, lexemes, lexemes_node item, moreLexemes_itemNodes items]
  | object [] => rfl
  | object ((key, value) :: members) => by
      rw [node, memberNodes, memberNode, Node.lexemes, lexemes, memberLexemes, lexemes_node value,
        moreLexemes_memberNodes members]

theorem moreLexemes_itemNodes : ∀ items : List Value,
    (itemNodes items).moreLexemes = moreItems items
  | [] => rfl
  | item :: items => by
      rw [itemNodes, Items.moreLexemes, moreItems, lexemes_node item, moreLexemes_itemNodes items]

theorem moreLexemes_memberNodes : ∀ members : List (String × Value),
    (memberNodes members).moreLexemes = moreMembers members
  | [] => rfl
  | (key, value) :: members => by
      rw [memberNodes, memberNode, Members.moreLexemes, moreMembers, memberLexemes,
        lexemes_node value, moreLexemes_memberNodes members]

end

mutual

theorem isPlain_node : ∀ value : Value, value.node.IsPlain
  | null => trivial
  | bool _ => trivial
  | number n => by
      rw [node, Node.ofNumber]
      cases n.numeral? <;> trivial
  | string _ => rfl
  | array items => isPlain_itemNodes items
  | object members => isPlain_memberNodes members

theorem isPlain_itemNodes : ∀ items : List Value, (itemNodes items).IsPlain
  | [] => trivial
  | item :: items => ⟨isPlain_node item, isPlain_itemNodes items⟩

theorem isPlain_memberNodes : ∀ members : List (String × Value), (memberNodes members).IsPlain
  | [] => trivial
  | (_, value) :: members => ⟨rfl, isPlain_node value, isPlain_memberNodes members⟩

end

/-- The text of a value is a document that holds this value and nothing else. -/
theorem read_text (value : Value) : Document.read value.text.toList = ⟨value.node, true⟩ := by
  have htext : value.text = value.node.text := by rw [text, Node.text, lexemes_node]
  rw [htext, Node.read_text value.isPlain_node]

end Value

/-- A text written from a value decodes as its tree does. -/
theorem Decoder.decode_text {α : Type} (decoder : Decoder α) (value : Value) :
    decoder.decode value.text = decoder maxDepth value.node := by
  rw [decode, value.read_text]
  cases decoder maxDepth value.node <;> rfl

end StreetDogs.Json
