import ReadmeTables.Document
import ReadmeTables.Patch
/-!
What a document can fail with.

Main statements: a document is loaded exactly if its file holds the text of an object, and the
errors that are not reported are those of a path that is no name for the system and of a number
with too many digits.
-/

namespace ReadmeTables.Document

-- The object that the text of a file writes.
def IsIn (w : World) (source : Path) (members : Json.Members) : Prop :=
  ∃ bytes chars, w.readBytes source = .ok bytes ∧ Utf8.decode bytes = .ok chars ∧
    Json.read (Text.unifyLineEnds chars) = .ok (.object members)

theorem ofText_eq_ok_iff {chars : List Char} {members : Json.Members} :
    ofText chars = .ok members ↔ Json.read chars = .ok (.object members) := by
  rw [ofText]
  cases Json.read chars with
  | error e => simp
  | ok value => cases value <;> simp

theorem load_eq_ok_iff {w : World} {source : Path} {members : Json.Members} :
    load w source = .ok members ↔ IsIn w source members := by
  rw [load, World.readText]
  cases hread : w.readBytes source with
  | error e => simp [IsIn, hread]
  | ok bytes =>
    cases hdecode : Utf8.decode bytes with
    | error e => simp [IsIn, hread, hdecode]
    | ok chars =>
      simp only [hdecode, ofText_eq_ok_iff]
      constructor
      · exact fun h => ⟨bytes, chars, hread, hdecode, h⟩
      · rintro ⟨found, decoded, hfound, hdecoded, h⟩
        obtain rfl := Except.ok.inj (hread.symm.trans hfound)
        obtain rfl := Except.ok.inj (hdecode.symm.trans hdecoded)
        exact h

theorem exists_load_eq_error_iff {w : World} {source : Path} :
    (∃ error, Document.load w source = .error error) ↔
      ∀ members, ¬IsIn w source members := by
  simp only [← load_eq_ok_iff]
  cases load w source <;> simp

-- A document with an error that is not reported: its path is no name for the system, or a number in
-- its text has too many digits.
inductive Escapes (w : World) (source : Path) : Prop where
  | path {error : FileError} (h : w.readBytes source = .error error)
      (hname : Patch.isNoted error = false)
  | number {bytes : Utf8.Bytes} {chars : List Char} {digits : Nat}
      (hread : w.readBytes source = .ok bytes) (hdecode : Utf8.decode bytes = .ok chars)
      (h : Json.read (Text.unifyLineEnds chars) = .error (.tooManyDigits digits))

theorem isReported_ofFileError (error : FileError) :
    (Error.ofReadError (.file error)).isReported = Patch.isNoted error := by
  cases error with
  | refused refusal path => cases refusal <;> rfl
  | nullByte => rfl
  | unencodable error => rfl

theorem ofText_unreported_iff {chars : List Char} :
    (∃ error, ofText chars = .error error ∧ error.isReported = false) ↔
      ∃ digits, Json.read chars = .error (.tooManyDigits digits) := by
  rw [ofText]
  cases hjson : Json.read chars with
  | error e => cases e <;> simp [Error.ofJsonError, Error.isReported]
  | ok value => cases value <;> simp [Error.isReported]

theorem load_unreported_iff {w : World} {source : Path} :
    (∃ error, load w source = .error error ∧ error.isReported = false) ↔ Escapes w source := by
  rw [load, World.readText]
  constructor
  · rintro ⟨error, h, hunreported⟩
    cases hread : w.readBytes source with
    | error e =>
      rw [hread] at h
      obtain rfl := Except.error.inj h
      exact .path hread (isReported_ofFileError e ▸ hunreported)
    | ok bytes =>
      cases hdecode : Utf8.decode bytes with
      | error e =>
        simp only [hread, hdecode] at h
        obtain rfl := Except.error.inj h
        simp [Error.ofReadError, Error.isReported] at hunreported
      | ok chars =>
        simp only [hread, hdecode] at h
        obtain ⟨digits, hdigits⟩ := ofText_unreported_iff.mp ⟨error, h, hunreported⟩
        exact .number hread hdecode hdigits
  · rintro (⟨h, hname⟩ | ⟨hread, hdecode, h⟩)
    · exact ⟨_, by rw [h], by rw [isReported_ofFileError, hname]⟩
    · simp only [hread, hdecode]
      exact ofText_unreported_iff.mpr ⟨_, h⟩

end ReadmeTables.Document
