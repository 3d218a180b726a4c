/-!
Beginnings and ends of lists.

Main statements: `afterPrefix?` and `beforeSuffix?` give the rest of a list exactly when it
begins or ends as asked.
-/

namespace ReadmeTables

variable {α : Type} [DecidableEq α]

-- What follows `start` in a list that begins with it.
def afterPrefix? : (start list : List α) → Option (List α)
  | [], list => some list
  | _ :: _, [] => none
  | a :: start, b :: list => if a = b then afterPrefix? start list else none

-- What comes before `last` in a list that ends with it.
def beforeSuffix? (last list : List α) : Option (List α) :=
  (afterPrefix? last.reverse list.reverse).map List.reverse

theorem afterPrefix?_eq_some_iff {start list rest : List α} :
    afterPrefix? start list = some rest ↔ list = start ++ rest := by
  induction start generalizing list with
  | nil => simp [afterPrefix?]
  | cons a start ih =>
    cases list with
    | nil => simp [afterPrefix?]
    | cons b list =>
      by_cases h : a = b
      · simp [afterPrefix?, h, ih]
      · simp [afterPrefix?, h, Ne.symm h]

theorem beforeSuffix?_eq_some_iff {last list rest : List α} :
    beforeSuffix? last list = some rest ↔ list = rest ++ last := by
  simp only [beforeSuffix?, Option.map_eq_some_iff, afterPrefix?_eq_some_iff]
  constructor
  · rintro ⟨r, h, rfl⟩
    have := congrArg List.reverse h
    simpa using this
  · rintro rfl
    exact ⟨rest.reverse, by simp, by simp⟩

end ReadmeTables
