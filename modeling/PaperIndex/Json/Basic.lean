import PaperIndex.Decimal.Shortest

/-! # JSON values

A value as it is held in memory. The fields of an object are a list of pairs, in the order in which
they were written; `canonical` puts them into the order of their keys and keeps the last of several
fields with one key, at every depth. -/

namespace PaperIndex

/-- A number of a JSON value: an integer, or the bits of a double. -/
inductive Json.Number
  | integer (n : Int)
  | double (bits : UInt64)
deriving DecidableEq, Repr

/-- A JSON value. -/
inductive Json
  | null
  | bool (b : Bool)
  | number (n : Json.Number)
  | string (s : String)
  | array (items : List Json)
  | object (fields : List (String × Json))
deriving Repr, Inhabited

namespace Json

/-- The text of the double with the given bits: positional from `1e-5` up to `1e16`, and always with
a point or an exponent. -/
def doubleText (bits : UInt64) : String := Decimal.textOfBits ⟨-5, 15⟩ bits

/-- The integer `n`. -/
def int (n : Int) : Json := .number (.integer n)

/-- The text, or `null` if there is none. -/
def ofOption (s : Option String) : Json := s.elim .null .string

/-- Puts a field at the place of its key, unless the key has a field already. -/
def addField (k : String) (j : Json) : List (String × Json) → List (String × Json)
  | [] => [(k, j)]
  | (k', j') :: fs =>
    if k = k' then (k', j') :: fs
    else if k < k' then (k, j) :: (k', j') :: fs
    else (k', j') :: addField k j fs

mutual

/-- The value with the fields of every object in the order of their keys, the last field of a key
standing for all of them. -/
def canonical : Json → Json
  | .array items => .array (canonicalItems items)
  | .object fields => .object (canonicalFields fields)
  | j => j

/-- The items, each in canonical form. -/
def canonicalItems : List Json → List Json
  | [] => []
  | j :: js => canonical j :: canonicalItems js

/-- The fields in canonical form and order. -/
def canonicalFields : List (String × Json) → List (String × Json)
  | [] => []
  | (k, j) :: fs => addField k (canonical j) (canonicalFields fs)

end

/-- The value of a field: of the last one with the key. -/
def field? (k : String) : Json → Option Json
  | .object fields => fields.reverse.lookup k
  | _ => none

/-- The text of a value that is a text. -/
def text? : Json → Option String
  | .string s => some s
  | _ => none

/-- The integer of a value that is one. -/
def int? : Json → Option Int
  | .number (.integer n) => some n
  | _ => none

/-- The flag of a value that is one. -/
def bool? : Json → Option Bool
  | .bool b => some b
  | _ => none

/-- The items of a value that is an array, and none otherwise. -/
def items : Json → List Json
  | .array js => js
  | _ => []

/-- The fields of a value that is an object, and none otherwise. -/
def fields : Json → List (String × Json)
  | .object fs => fs
  | _ => []

theorem text?_eq_some_iff {j : Json} {s : String} : j.text? = some s ↔ j = .string s := by
  cases j <;> simp [text?]

/-! ### Canonical form -/

theorem keys_addField (k : String) (j : Json) (fs : List (String × Json)) (k' : String) :
    k' ∈ (addField k j fs).map Prod.fst ↔ k' = k ∨ k' ∈ fs.map Prod.fst := by
  induction fs with
  | nil => simp [addField]
  | cons f fs ih =>
    obtain ⟨l, i⟩ := f
    rw [addField]
    split
    · next h => subst h; simp
    · split
      · simp
      · rw [List.map_cons, List.mem_cons, ih, List.map_cons, List.mem_cons]
        exact or_left_comm

theorem canonicalItems_eq_map (items : List Json) : canonicalItems items = items.map canonical := by
  induction items with
  | nil => rfl
  | cons j items ih => rw [canonicalItems, ih, List.map_cons]

/-- A number prints as itself in canonical form. -/
@[simp] theorem canonical_int (n : Int) : canonical (int n) = int n := rfl

@[simp] theorem canonical_string (s : String) : canonical (.string s) = .string s := rfl

end Json

end PaperIndex
