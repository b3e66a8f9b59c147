import MaxApi.Lib.Json
import MaxApi.Lib.Text

/-! # Path texts

`gjson` and `sjson` take a location as a text: components separated by dots, with a backslash
before a character that is meant as it stands.  What the two libraries do with a text is a
parameter (`Libraries`); the overrides rely on what they document about texts without a query
(`Documented`), and each library has its own reading of these: in `sjson` a colon before a
component makes it a name even if it looks like an index, in `gjson` it belongs to the name. -/

namespace MaxApi.Override

open Json (Component)

/-- What the overrides take from their libraries. -/
structure Libraries where
  /-- The decimal value that is written for a number that has been read as a `float64`. -/
  rewrite : ℚ → ℚ
  /-- `gjson.GetBytes`; a result that does not exist is none. -/
  gjsonGet : Json → String → Option Json
  /-- `sjson.SetBytes`. -/
  sjsonSet : Json → String → Json → Except String Json
  /-- `sjson.DeleteBytes`. -/
  sjsonDelete : Json → String → Except String Json

/-! ### Components -/

/-- The characters of a path text, each with whether it is escaped. -/
def characters (escaped : Bool) : List Char → List (Char × Bool)
  | [] => []
  | c :: cs =>
      if escaped then (c, true) :: characters false cs
      else if c = '\\' then characters true cs
      else (c, false) :: characters false cs

/-- The components of a path text. -/
def pathParts (path : String) : List (List (Char × Bool)) :=
  (characters false path.toList).splitOn ('.', false)

/-- The text of a component, without the backslashes. -/
def partName (part : List (Char × Bool)) : String := String.ofList (part.map Prod.fst)

/-- The characters of queries. -/
def isQueryChar (c : Char) : Bool := c == '|' || c == '#' || c == '@' || c == '*' || c == '?'

/-- A component with a query; such a path is complex for `sjson`. -/
def isQuery (part : List (Char × Bool)) : Bool := part.any fun c => isQueryChar c.1 && !c.2

/-- A text that `gjson` takes for a value of its own behind `!`. -/
def isStatic : List (Char × Bool) → Bool
  | (c, false) :: text =>
      c == '\x7b' || c == '[' || c == '"' || c == '+' || c == '-' || c.isDigit ||
        text.all (fun c => !c.2) && decide (Text.toLower (partName ((c, false) :: text)) ∈
          ["true", "false", "null", "nan", "inf"])
  | _ => false

/-- A component that `gjson` takes for a value or a selection of its own; `more` says whether the
path goes on behind it. -/
def isSelector (more : Bool) : List (Char × Bool) → Bool
  | (c, false) :: text =>
      c == '!' && isStatic text || (c == '[' || c == '\x7b') && (more || !text.isEmpty)
  | _ => false

/-- A component that is a name or an index, with no backslash before a digit. -/
def isPlain (more : Bool) (part : List (Char × Bool)) : Bool :=
  !isQuery part && !isSelector more part && part.all fun c => !(c.2 && c.1.isDigit)

/-! ### Locations -/

/-- The components that `gjson` reads. -/
def gjsonParts : List (List (Char × Bool)) → Option (List String)
  | [] => some []
  | part :: parts =>
      if isPlain (!parts.isEmpty) part then (gjsonParts parts).map (partName part :: ·) else none

/-- The location that a path text is for `gjson`; two dots at the start stand for lines. -/
def gjsonPath (path : String) : Option (List String) :=
  match pathParts path with
  | [] :: [] :: _ :: _ => none
  | parts => gjsonParts parts

/-- The component that `sjson` reads. -/
def sjsonPart : List (Char × Bool) → Option Component
  | (':', false) :: part => if isPlain false part then some ⟨partName part, true⟩ else none
  | part => if isPlain false part then some ⟨partName part, false⟩ else none

/-- The location that a path text is for `sjson`. -/
def sjsonPath (path : String) : Option (List Component) := (pathParts path).mapM sjsonPart

/-- What the libraries document about a path text that is a location. -/
structure Documented (lib : Libraries) : Prop where
  get : ∀ {path : String} {loc : List String} (doc : Json), gjsonPath path = some loc →
    lib.gjsonGet doc path = Json.getAt doc loc
  set : ∀ {path : String} {cs : List Component} (doc v : Json), path ≠ "" →
    sjsonPath path = some cs → lib.sjsonSet doc path v = Json.setAt doc cs v
  set_empty : ∀ doc v : Json, lib.sjsonSet doc "" v = .error "path cannot be empty"
  delete : ∀ {path : String} {cs : List Component} (doc : Json), path ≠ "" →
    sjsonPath path = some cs → lib.sjsonDelete doc path = .ok (Json.deleteAt doc cs)
  delete_empty : ∀ doc : Json, lib.sjsonDelete doc "" = .error "path cannot be empty"

/-- The libraries on locations: a query finds nothing. -/
def locationLibraries (rewrite : ℚ → ℚ) : Libraries where
  rewrite := rewrite
  gjsonGet doc path := (gjsonPath path).bind fun loc => Json.getAt doc loc
  sjsonSet doc path v :=
    if path = "" then .error "path cannot be empty"
    else match sjsonPath path with
      | some cs => Json.setAt doc cs v
      | none => .ok doc
  sjsonDelete doc path :=
    if path = "" then .error "path cannot be empty"
    else match sjsonPath path with
      | some cs => .ok (Json.deleteAt doc cs)
      | none => .error "cannot delete value from a complex path"

theorem locationLibraries_documented (rewrite : ℚ → ℚ) :
    Documented (locationLibraries rewrite) where
  get doc h := by
    show (gjsonPath _).bind _ = _
    rw [h, Option.bind_some]
  set doc v hne h := by
    show (if _ then _ else _) = _
    rw [if_neg hne, h]
  set_empty _ _ := rfl
  delete doc hne h := by
    show (if _ then _ else _) = _
    rw [if_neg hne, h]
  delete_empty _ := rfl

/-- `escapeSjsonLiteralKey`. -/
def escapeSjsonLiteralKey (key : String) : String :=
  String.ofList (key.toList.flatMap fun c =>
    if c = '.' ∨ c = '*' ∨ c = '?' ∨ c = '\\' then ['\\', c] else [c])

end MaxApi.Override
