import SelectiveTrace.Text.Blank
import SelectiveTrace.Value.Repr

/-! Descriptions of values for variable histories: containers show one element a line, functions
where they are defined, and objects their public data attributes. -/
namespace SelectiveTrace

def Function.describe (f : Function) : String :=
  match f.file, f.line, f.definition with
  | some file, some line, some definition =>
    "[Function] " ++ file.text ++ ":" ++ toString line ++ " -> " ++ Text.trim definition
  | _, _, _ => "[Function] <uninspectable> (" ++ f.name ++ "): source is not available"

namespace Value

/-- An attribute is listed unless its name begins with two underscores or it holds a function. -/
def isListed (a : String × Value) : Bool :=
  !Text.startsWith a.1 "__" &&
    match a.2 with
    | .callable _ => false
    | _ => true

def describeObject (class_ : String) (attributes : List (String × Value)) : String :=
  let shown := (attributes.filter isListed).map fun (name, value) =>
    "  - " ++ name ++ ": " ++ value.repr
  let listing := if shown.isEmpty then "  (no public attributes)" else "\n".intercalate shown
  "[Object] Instance of '" ++ class_ ++ "':\n" ++ listing

def describeElement : Value → String
  | .callable f => f.describe
  | .object _ class_ attributes _ => describeObject class_ attributes
  | v => "[Value] " ++ v.repr

def describe : Value → String
  | .list items | .tuple items | .set items => "\n".intercalate (items.map describeElement)
  | .dict entries =>
    "\n".intercalate (entries.map fun (key, item) => key.display ++ ": " ++ item.describeElement)
  | v => v.describeElement

end Value
end SelectiveTrace
