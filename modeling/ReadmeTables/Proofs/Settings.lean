import ReadmeTables.Proofs.Failing
import ReadmeTables.Settings
/-!
What the settings can fail with.

Main statement: the errors that are not reported are those of a path that is no name for the
system, of a file that is there but cannot be read as text, of a value that has the form of its
type and still is none, and of a number with too many digits.
-/

namespace ReadmeTables.Settings

open Failing

variable {w : World} {p root : Path} {entries : Entries} {name fallback : Text} {error : Error}

-- The names that settings are looked up by.
def names : List Text := ["input", "packages_dir", "component_filter", "module_prefix"]

-- A setting is a whole number that has no text.
def IsLong (entries : Entries) (name : Text) : Prop :=
  ∃ n, entry? entries name = some (.scalar (.whole n)) ∧
    Number.digitLimit < (Text.ofNat n.natAbs).length

-- Settings with an error that is not reported.
inductive Escapes (w : World) (p : Path) : Prop where
  | file {error : Error} (h : fileFor w p = .error error)
  | name {file : Path} {error : FileError} (hfile : fileFor w p = .ok file)
      (h : w.isPresent file = .error error)
  | text {file : Path} {error : ReadError} (hfile : fileFor w p = .ok file)
      (hpresent : w.isPresent file = .ok true) (h : w.readText file = .error error)
  | value {file : Path} {chars : List Char} {error : Yaml.Error} (hfile : fileFor w p = .ok file)
      (hpresent : w.isPresent file = .ok true) (hread : w.readText file = .ok chars)
      (hspace : chars.all Text.isSpace = false) (h : Yaml.read chars = .error error)
      (hvalue : error ≠ .malformed)
  | number {file : Path} {chars : List Char} {entries : Entries} {name : Text}
      (hfile : fileFor w p = .ok file) (hpresent : w.isPresent file = .ok true)
      (hread : w.readText file = .ok chars) (hspace : chars.all Text.isSpace = false)
      (hmapping : Yaml.read chars = .ok (.mapping entries)) (hname : name ∈ names)
      (h : IsLong entries name)

theorem textOf?_eq_error_iff {item : Yaml.Item} :
    textOf? item = .error error ↔
      error = .longNumber ∧ ∃ n, item = .scalar (.whole n) ∧
        Number.digitLimit < (Text.ofNat n.natAbs).length := by
  cases item with
  | scalar value =>
    cases value with
    | whole n =>
      rw [textOf?]
      split
      · rename_i hlong
        simp [hlong, eq_comm]
      · rename_i hshort
        simp [hshort]
    | _ => simp [textOf?]
  | _ => simp [textOf?]

theorem get?_eq_error_iff :
    get? entries name = .error error ↔ error = .longNumber ∧ IsLong entries name := by
  rw [get?, IsLong]
  cases entry? entries name with
  | none => simp
  | some item => simp [textOf?_eq_error_iff]

theorem getOr_eq_error_iff :
    getOr entries name fallback = .error error ↔ error = .longNumber ∧ IsLong entries name := by
  rw [getOr, bind_eq_error_iff, get?_eq_error_iff, or_iff_left]
  rintro ⟨t?, -, h⟩
  cases t? <;> simp at h

theorem filterOf_eq_error_iff :
    filterOf entries fallback = .error error ↔
      error = .longNumber ∧ IsLong entries "component_filter" := by
  rw [filterOf, IsLong]
  cases entry? entries "component_filter" with
  | none => simp
  | some item =>
    simp only [Functor.map, map_eq_error_iff, textOf?_eq_error_iff, Option.some.injEq]

theorem longNumber_of_ofEntries (h : ofEntries root entries = .error error) :
    error = .longNumber ∧ ∃ name ∈ names, IsLong entries name := by
  simp only [ofEntries, bind_eq_error_iff, getOr_eq_error_iff, filterOf_eq_error_iff, reduceCtorEq,
    and_false, exists_false, or_false] at h
  rcases h with ⟨herror, h⟩ | ⟨-, -, ⟨herror, h⟩ | ⟨-, -, ⟨herror, h⟩ | ⟨-, -, herror, h⟩⟩⟩
  · exact ⟨herror, _, by simp [names], h⟩
  · exact ⟨herror, _, by simp [names], h⟩
  · exact ⟨herror, _, by simp [names], h⟩
  · exact ⟨herror, _, by simp [names], h⟩

theorem ofEntries_of_isLong (hname : name ∈ names) (h : IsLong entries name) :
    ofEntries root entries = .error .longNumber := by
  cases hresult : ofEntries root entries with
  | error error => rw [(longNumber_of_ofEntries hresult).1]
  | ok settings =>
    -- settings that are read without an error have no long number among them
    simp only [ofEntries, bind_eq_ok_iff] at hresult
    obtain ⟨input, hinput, packages, hpackages, filter, hfilter, start, hstart, -⟩ := hresult
    simp only [names, List.mem_cons, List.not_mem_nil, or_false] at hname
    rcases hname with rfl | rfl | rfl | rfl
    · simp [getOr_eq_error_iff.mpr ⟨rfl, h⟩] at hinput
    · simp [getOr_eq_error_iff.mpr ⟨rfl, h⟩] at hpackages
    · simp [filterOf_eq_error_iff.mpr ⟨rfl, h⟩] at hfilter
    · simp [getOr_eq_error_iff.mpr ⟨rfl, h⟩] at hstart

theorem ofText_unreported_iff {chars : List Char} :
    (∃ error, ofText root chars = .error error ∧ error.isReported = false) ↔
      chars.all Text.isSpace = false ∧
        ((∃ error, Yaml.read chars = .error error ∧ error ≠ .malformed) ∨
          ∃ entries, Yaml.read chars = .ok (.mapping entries) ∧
            ∃ name ∈ names, IsLong entries name) := by
  rw [ofText]
  cases hspace : chars.all Text.isSpace with
  | true => simp
  | false =>
    simp only [Bool.false_eq_true, if_false, true_and]
    cases hyaml : Yaml.read chars with
    | error e => cases e <;> simp [Error.isReported]
    | ok value =>
      cases value with
      | mapping entries =>
        simp only [ofValue, reduceCtorEq, false_and, exists_false, false_or, Except.ok.injEq,
          Yaml.Value.mapping.injEq, exists_eq_left']
        constructor
        · rintro ⟨error, herror, -⟩
          exact (longNumber_of_ofEntries herror).2
        · rintro ⟨name, hname, h⟩
          exact ⟨_, ofEntries_of_isLong hname h, rfl⟩
      | _ =>
        simp only [ofValue]
        split <;> simp [Error.isReported]

theorem isReported_of_fileFor (h : fileFor w p = .error error) : error.isReported = false := by
  rw [fileFor, bind_eq_error_iff] at h
  rcases h with h | ⟨expanded, -, h⟩
  · obtain ⟨e, -, rfl⟩ := mapError_eq_error_iff.mp h
    rfl
  · cases expanded with
    | none =>
      obtain rfl := Except.error.inj h
      rfl
    | some file =>
      simp only [bind_eq_error_iff, mapError_eq_error_iff] at h
      obtain ⟨e, -, rfl⟩ | ⟨isDirectory, -, e, -, rfl⟩ := h <;> rfl

-- The settings of a project fail with an error that is not reported exactly in these ways.
theorem load_unreported_iff :
    (∃ error, load w p = .error error ∧ error.isReported = false) ↔ Escapes w p := by
  constructor
  · rintro ⟨error, h, hunreported⟩
    rw [load, bind_eq_error_iff] at h
    rcases h with h | ⟨file, hfile, h⟩
    · exact .file h
    simp only [bind_eq_error_iff, mapError_eq_error_iff, mapError_eq_ok_iff] at h
    rcases h with ⟨e, h, -⟩ | ⟨isPresent, hpresent, h⟩
    · exact .name hfile h
    cases isPresent with
    | false => simp at h
    | true =>
      simp only [if_true, bind_eq_error_iff, mapError_eq_error_iff, mapError_eq_ok_iff] at h
      rcases h with ⟨e, h, -⟩ | ⟨chars, hread, h⟩
      · exact .text hfile hpresent h
      · obtain ⟨hspace, ⟨e, he, hvalue⟩ | ⟨entries, hmapping, name, hname, hlong⟩⟩ :=
          ofText_unreported_iff.mp ⟨error, h, hunreported⟩
        · exact .value hfile hpresent hread hspace he hvalue
        · exact .number hfile hpresent hread hspace hmapping hname hlong
  · -- a file that is there and can be read fails as its text does
    have htext {file : Path} {chars : List Char} (hfile : fileFor w p = .ok file)
        (hpresent : w.isPresent file = .ok true) (hread : w.readText file = .ok chars) :
        load w p = ofText file.parent chars := by
      simp [load, hfile, hpresent, hread, ok_bind, mapError_ok]
    intro hescapes
    cases hescapes with
    | file h => exact ⟨_, by rw [load, h]; rfl, isReported_of_fileFor h⟩
    | @name file error hfile h =>
      exact ⟨.path error, by simp [load, hfile, h, ok_bind, error_bind, mapError_error], rfl⟩
    | @text file error hfile hpresent h =>
      refine ⟨.unreadable error, ?_, rfl⟩
      simp [load, hfile, hpresent, h, ok_bind, error_bind, mapError_ok, mapError_error]
    | value hfile hpresent hread hspace h hvalue =>
      rw [htext hfile hpresent hread]
      exact ofText_unreported_iff.mpr ⟨hspace, .inl ⟨_, h, hvalue⟩⟩
    | number hfile hpresent hread hspace hmapping hname h =>
      rw [htext hfile hpresent hread]
      exact ofText_unreported_iff.mpr ⟨hspace, .inr ⟨_, hmapping, _, hname, h⟩⟩

end ReadmeTables.Settings
