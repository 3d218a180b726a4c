import ReadmeTables.Proofs.Patch.Flush
import ReadmeTables.Proofs.Settings
/-!
Which values a file of settings may have.

A mapping is read for its settings, whatever else it holds, and nothing at all stands for settings
that say nothing. Of the other values, those that count as nothing and those of a text that is all
white space are taken for nothing as well. Main statement: the settings are rejected exactly for
the remaining values, and the settings of a mapping are read unless one of them is a number with
too many digits.
-/

namespace ReadmeTables

deriving instance DecidableEq for Yaml.Item, Yaml.Value

namespace Settings

open Failing

variable {w : World} {p file root : Path} {chars : List Char} {value : Yaml.Value}

-- The file with the settings of a project is there, and its text writes a value.
structure Says (w : World) (p file : Path) (chars : List Char) (value : Yaml.Value) : Prop where
  located : fileFor w p = .ok file
  present : w.isPresent file = .ok true
  text : w.readText file = .ok chars
  reads : Yaml.read chars = .ok value

def IsBlank (chars : List Char) : Prop :=
  chars.all Text.isSpace = true

instance (chars : List Char) : Decidable (IsBlank chars) :=
  inferInstanceAs (Decidable (_ = true))

-- No document, or one that says that there is nothing.
def IsEmpty (value : Yaml.Value) : Prop :=
  value = .nothing ∨ value = .scalar .null

instance (value : Yaml.Value) : Decidable (IsEmpty value) :=
  inferInstanceAs (Decidable (_ ∨ _))

-- A scalar, a list or a set.
def IsOther (value : Yaml.Value) : Prop :=
  ¬IsEmpty value ∧ ∀ entries, value ≠ .mapping entries

-- Values that count as nothing, although they say something.
inductive IsHollow : Yaml.Value → Prop
  | falsehood : IsHollow (.scalar (.truth false))
  | zero : IsHollow (.scalar (.whole 0))
  | realZero {x : Double} (h : x.isZero = true) : IsHollow (.scalar (.real x))
  | emptyText : IsHollow (.scalar (.text []))
  | noBytes : IsHollow (.scalar (.bytes true))
  | emptyList : IsHollow (.list true)
  | emptySet : IsHollow (.set true)

theorem isNothing_eq_true_iff : isNothing value = true ↔ IsEmpty value ∨ IsHollow value := by
  constructor
  · intro h
    cases value with
    | nothing => exact .inl (.inl rfl)
    | scalar scalar =>
      cases scalar with
      | null => exact .inl (.inr rfl)
      | truth b =>
        cases b with
        | false => exact .inr .falsehood
        | true => simp [isNothing] at h
      | whole n =>
        obtain rfl : n = 0 := by simpa [isNothing] using h
        exact .inr .zero
      | real x => exact .inr (.realZero h)
      | text t =>
        obtain rfl : t = [] := by simpa [isNothing] using h
        exact .inr .emptyText
      | moment => simp [isNothing] at h
      | bytes isEmpty =>
        obtain rfl : isEmpty = true := h
        exact .inr .noBytes
    | list isEmpty =>
      obtain rfl : isEmpty = true := h
      exact .inr .emptyList
    | set isEmpty =>
      obtain rfl : isEmpty = true := h
      exact .inr .emptySet
    | mapping entries => simp [isNothing] at h
  · rintro ((rfl | rfl) | hollow)
    · rfl
    · rfl
    · cases hollow with
      | realZero h => exact h
      | _ => rfl

theorem ofValue_of_isNothing (h : isNothing value = true) :
    ofValue root value = .ok (default root) := by
  cases value with
  | mapping entries => simp [isNothing] at h
  | _ => simp [ofValue, h]

theorem ofValue_of_isOther (hother : IsOther value) (h : ¬IsHollow value) :
    ofValue root value = .error .notMapping := by
  have hsomething : isNothing value = false := by
    rw [Bool.eq_false_iff, ne_eq, isNothing_eq_true_iff, not_or]
    exact ⟨hother.1, h⟩
  cases value with
  | mapping entries => exact absurd rfl (hother.2 entries)
  | _ => simp [ofValue, hsomething]

-- The settings of a mapping cannot be read only if one of them is a number with too many digits.
theorem exists_ofEntries_iff {entries : Entries} :
    (∃ settings, ofEntries root entries = .ok settings) ↔
      ∀ name ∈ names, ¬IsLong entries name := by
  constructor
  · rintro ⟨settings, h⟩ name hname hlong
    simp [ofEntries_of_isLong hname hlong] at h
  · intro hshort
    cases h : ofEntries root entries with
    | ok settings => exact ⟨settings, rfl⟩
    | error error =>
      obtain ⟨-, name, hname, hlong⟩ := longNumber_of_ofEntries h
      exact absurd hlong (hshort name hname)

theorem Says.load_eq (h : Says w p file chars value) : load w p = ofText file.parent chars := by
  simp [load, h.located, h.present, h.text, ok_bind, mapError_ok]

theorem Says.load_of_isBlank (h : Says w p file chars value) (hblank : IsBlank chars) :
    load w p = .ok (default file.parent) :=
  h.load_eq.trans (if_pos hblank)

theorem Says.load_of_not_isBlank (h : Says w p file chars value) (hblank : ¬IsBlank chars) :
    load w p = ofValue file.parent value := by
  refine h.load_eq.trans ((if_neg hblank).trans ?_)
  rw [h.reads]

theorem Says.load_of_hollow (h : Says w p file chars value)
    (hhollow : IsBlank chars ∨ IsEmpty value ∨ IsHollow value) :
    load w p = .ok (default file.parent) := by
  by_cases hblank : IsBlank chars
  · exact h.load_of_isBlank hblank
  · rw [h.load_of_not_isBlank hblank]
    exact ofValue_of_isNothing (isNothing_eq_true_iff.mpr (hhollow.resolve_left hblank))

theorem Says.load_of_other (h : Says w p file chars value) (hother : IsOther value)
    (hblank : ¬IsBlank chars) (hhollow : ¬IsHollow value) : load w p = .error .notMapping := by
  rw [h.load_of_not_isBlank hblank, ofValue_of_isOther hother hhollow]

theorem Says.load_of_mapping {entries : Entries} (h : Says w p file chars (.mapping entries))
    (hblank : ¬IsBlank chars) : load w p = ofEntries file.parent entries :=
  h.load_of_not_isBlank hblank

-- Settings whose file writes a value are rejected exactly for a value that is neither a mapping nor
-- nothing, does not count as nothing, and does not come from white space alone. Where the last two
-- fail the defaults are taken, as for nothing at all. A mapping has settings, unless its file is to
-- be read and one of its settings is a number with too many digits.
theorem settings_rejected_iff (h : Says w p file chars value) :
    ((∃ error, load w p = .error error ∧ error.isReported = true) ↔
      IsOther value ∧ ¬IsBlank chars ∧ ¬IsHollow value) ∧
    (∀ error, load w p = .error error → error.isReported = true → error = .notMapping) ∧
    (IsBlank chars ∨ IsEmpty value ∨ IsHollow value → load w p = .ok (default file.parent)) ∧
    ∀ entries, value = .mapping entries →
      ((∃ settings, load w p = .ok settings) ↔
        IsBlank chars ∨ ∀ name ∈ names, ¬IsLong entries name) ∧
      ∀ error, load w p = .error error → error = .longNumber := by
  have hmapping {entries : Entries} (hvalue : value = .mapping entries) :
      ((∃ settings, load w p = .ok settings) ↔
        IsBlank chars ∨ ∀ name ∈ names, ¬IsLong entries name) ∧
      ∀ error, load w p = .error error → error = .longNumber := by
    subst hvalue
    by_cases hblank : IsBlank chars
    · simp [h.load_of_isBlank hblank, hblank]
    · rw [h.load_of_mapping hblank, exists_ofEntries_iff]
      exact ⟨(or_iff_right hblank).symm, fun error herror => (longNumber_of_ofEntries herror).1⟩
  have hreported (error : Error) (herror : load w p = .error error)
      (hisReported : error.isReported = true) :
      error = .notMapping ∧ IsOther value ∧ ¬IsBlank chars ∧ ¬IsHollow value := by
    have hsomething : ¬(IsBlank chars ∨ IsEmpty value ∨ IsHollow value) := by
      intro hhollow
      simp [h.load_of_hollow hhollow] at herror
    simp only [not_or] at hsomething
    obtain ⟨hblank, hempty, hhollow⟩ := hsomething
    have hother : IsOther value := by
      refine ⟨hempty, fun entries hvalue => ?_⟩
      obtain rfl := (hmapping hvalue).2 error herror
      exact Bool.false_ne_true hisReported
    rw [h.load_of_other hother hblank hhollow] at herror
    exact ⟨(Except.error.inj herror).symm, hother, hblank, hhollow⟩
  refine ⟨⟨?_, ?_⟩, fun error herror hisReported => (hreported error herror hisReported).1,
    h.load_of_hollow, fun entries hvalue => hmapping hvalue⟩
  · rintro ⟨error, herror, hisReported⟩
    exact (hreported error herror hisReported).2
  · rintro ⟨hother, hblank, hhollow⟩
    exact ⟨.notMapping, h.load_of_other hother hblank hhollow, rfl⟩

-- A world at the root whose file of settings has a text.
def worldSaying (text : String) : World :=
  (Patch.packagesHolding []).setFile (World.locationOf (.ofText ("/" ++ fileName)))
    (Utf8.bytesOf text.toList)

theorem settings_rejected_of_list :
    let w := worldSaying "[0]\n"
    let file : Path := ⟨.root, [fileName]⟩
    Says w (.ofText ".") file "[0]\n".toList (.list false) ∧
      load w (.ofText ".") = .error .notMapping := by
  intro w file
  have hwritten : Says w (.ofText ".") file "[0]\n".toList (.list false) :=
    ⟨by decide +kernel, by decide +kernel, by decide +kernel, by decide +kernel⟩
  have hother : IsOther (.list false) := ⟨by simp [IsEmpty], by simp⟩
  have hblank : ¬IsBlank "[0]\n".toList := by decide +kernel
  obtain ⟨hiff, honly, -⟩ := settings_rejected_iff hwritten
  obtain ⟨error, herror, hreported⟩ := hiff.mpr ⟨hother, hblank, nofun⟩
  rw [honly error herror hreported] at herror
  exact ⟨hwritten, herror⟩

-- An empty list and a no-break space are neither mappings nor nothing, and are taken for nothing
-- all the same.
theorem settings_taken_from_hollow_roots :
    let file : Path := ⟨.root, [fileName]⟩
    let space : Yaml.Value := .scalar (.text "\u00a0")
    (Says (worldSaying "[]\n") (.ofText ".") file "[]\n".toList (.list true) ∧
      IsOther (.list true) ∧ load (worldSaying "[]\n") (.ofText ".") = .ok (default ⟨.root, []⟩)) ∧
    Says (worldSaying "\u00a0\n") (.ofText ".") file "\u00a0\n".toList space ∧
      IsOther space ∧ load (worldSaying "\u00a0\n") (.ofText ".") = .ok (default ⟨.root, []⟩) := by
  intro file space
  refine ⟨⟨⟨?_, ?_, ?_, ?_⟩, ⟨?_, nofun⟩, ?_⟩, ⟨?_, ?_, ?_, ?_⟩, ⟨?_, nofun⟩, ?_⟩
  all_goals decide +kernel

end Settings

end ReadmeTables
