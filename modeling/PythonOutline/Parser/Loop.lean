import PythonOutline.Parser.Basic

/-! # Loops

Every loop of the grammar is an iteration of one step. A step that continues takes at least one
token, and no step takes the end of the input, so the number of tokens bounds the iterations; the
bound is there to make the loop a total function and is never reached.
-/

namespace PythonOutline.Parser

variable {α β : Type}

/-- What a step of a loop decides. -/
inductive Step (α β : Type) where
  /-- Go on with a state. -/
  | next (state : α)
  /-- Stop with a result. -/
  | done (result : β)

/-- Iterates a step at most `fuel` times. -/
def iterateFor (step : α → Parser (Step α β)) : (fuel : Nat) → α → Parser β
  | 0, _ => failNext .unexpectedEnd
  | fuel + 1, state => do
    match ← step state with
    | .next state => iterateFor step fuel state
    | .done result => return result

/-- Iterates a step from a state until it stops. -/
def iterate (state : α) (step : α → Parser (Step α β)) : Parser β := do
  iterateFor step ((← read).tokens.size + 1) state

/-- Reads one more item if a condition holds. The items before it come last one first. -/
abbrev repeatStep (condition : Parser Bool) (item : Parser α) (items : List α) :
    Parser (Step (List α) (List α)) := do
  if ← condition then return .next ((← item) :: items) else return .done items.reverse

/-- Runs a parser for as long as a condition holds, and yields its values in order. -/
def repeatWhile (condition : Parser Bool) (item : Parser α) : Parser (List α) :=
  iterate [] (repeatStep condition item)

/-- One or more items with commas between them. -/
def commaSeparated (item : Parser α) : Parser (List α) := do
  let first ← item
  let others ← repeatWhile (accept .comma) item
  return first :: others

/-- Takes the closing token of a list, or reads one more item with the comma or the closing token
behind it. -/
abbrev listStep (close : TokenKind) (item : Parser α) (items : List α) :
    Parser (Step (List α) (List α)) := do
  if ← accept close then return .done items.reverse
  let value ← item
  if ← accept .comma then return .next (value :: items)
  let _ ← expect close
  return .done (value :: items).reverse

/-- Items with commas between them up to a closing token, which is taken. A comma may stand behind
the last item. -/
def listUntil (close : TokenKind) (item : Parser α) : Parser (List α) :=
  iterate [] (listStep close item)

end PythonOutline.Parser
