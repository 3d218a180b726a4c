import ReadmeTables.Number.Double
import ReadmeTables.Text.Basic
/-!
JSON values.

Whole numbers are kept apart from numbers with a fraction or an exponent. The members of an
object have different keys; `insert` keeps the place of the first and the value of the last
when a key comes again.
-/

namespace ReadmeTables.Json

inductive Value where
  | null
  | bool (b : Bool)
  | whole (n : Int)
  | real (x : Double)
  | text (t : Text)
  | list (items : List Value)
  | object (members : List (Text × Value))
deriving Inhabited

abbrev Members := List (Text × Value)

namespace Members

-- Sets a member: at its place if the key is there, else at the end.
def insert (key : Text) (value : Value) : Members → Members
  | [] => [(key, value)]
  | (k, v) :: rest => if k = key then (k, value) :: rest else (k, v) :: insert key value rest

def ofList (pairs : List (Text × Value)) : Members :=
  pairs.foldl (fun members (key, value) => insert key value members) []

def get? (key : Text) : Members → Option Value
  | [] => none
  | (k, v) :: rest => if k = key then some v else get? key rest

theorem get?_insert (key other : Text) (value : Value) (members : Members) :
    get? other (insert key value members) =
      if other = key then some value else get? other members := by
  induction members with
  | nil =>
    by_cases h : other = key
    · simp [insert, get?, h]
    · simp [insert, get?, h, Ne.symm h]
  | cons pair rest ih =>
    obtain ⟨k, v⟩ := pair
    by_cases hk : k = key
    · subst hk
      by_cases h : other = k
      · simp [insert, get?, h]
      · simp [insert, get?, h, Ne.symm h]
    · by_cases ho : k = other
      · subst ho
        simp [insert, get?, hk]
      · simp [insert, get?, hk, ho, ih]

end Members

namespace Value

def text? : Value → Option Text
  | text t => some t
  | _ => none

end Value

end ReadmeTables.Json
