import TagQuery.Text

/-! The values of a TOML document. Numbers with a fraction and times are only recognised. -/
namespace TagQuery.Toml

/-- How a table came to be, which decides whether later lines may add to it. -/
inductive Origin where
  /-- written in braces, and complete -/
  | inline
  /-- stated by a header of its own -/
  | header
  /-- implied by the header of a table inside it -/
  | implied
  /-- implied by a dotted key -/
  | dotted
  deriving DecidableEq, Repr

inductive Value where
  | text (content : Text)
  | integer (number : Int)
  | flag (set : Bool)
  /-- a number with a fraction or an exponent, or one that is not finite -/
  | float
  /-- a date, a time of day, or both -/
  | time
  | array (elements : List Value)
  | table (origin : Origin) (entries : List (Text × Value))
  /-- the tables that stand under headers in double brackets -/
  | tables (elements : List (List (Text × Value)))
  deriving Repr

namespace Value

def text? : Value → Option Text
  | text content => some content
  | _ => none

/-- An integer that is not negative. -/
def natural? : Value → Option Nat
  | integer (.ofNat n) => some n
  | _ => none

def flag? : Value → Option Bool
  | flag set => some set
  | _ => none

/-- The elements of an array of texts. -/
def texts? : Value → Option (List Text)
  | array elements => elements.mapM text?
  | _ => none

end Value

/-- The entries of a table, in the order in which they were first written. -/
abbrev Entries := List (Text × Value)

namespace Entries

/-- The value of a key. -/
def find? (entries : Entries) (key : Text) : Option Value :=
  (List.find? (·.1 == key) entries).map Prod.snd

/-- Gives a key a value, in the place of any value that it has. -/
def set (key : Text) (value : Value) : Entries → Entries
  | [] => [(key, value)]
  | (k, v) :: rest => if k = key then (key, value) :: rest else (k, v) :: set key value rest

@[simp] theorem find?_nil (key : Text) : find? [] key = none := rfl

@[simp] theorem find?_cons (p : Text × Value) (entries : Entries) (key : Text) :
    find? (p :: entries) key = if p.1 = key then some p.2 else find? entries key := by
  by_cases h : p.1 = key <;> simp [find?, h]

@[simp] theorem find?_set (entries : Entries) (key other : Text) (value : Value) :
    (entries.set key value).find? other =
      if key = other then some value else entries.find? other := by
  induction entries with
  | nil => simp [set]
  | cons p rest ih => by_cases h : p.1 = key <;> grind [set, find?_cons]

end Entries
end TagQuery.Toml
