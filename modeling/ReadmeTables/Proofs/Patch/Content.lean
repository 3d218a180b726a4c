import Mathlib.Data.List.Induction
import ReadmeTables.Proofs.Region
import ReadmeTables.Proofs.Text.RoundTrip
/-!
What a README holds after a body was put into it, as a function of its bytes.

Main statements: what a README holds after two bodies is what it holds after the second one
alone, and whether a body can be stored does not depend on the bodies before it.
-/

namespace ReadmeTables.Patch

-- The text of a README with a body put into its region.
def revised (chars : List Char) (body : Text) : Text :=
  Region.replace (Text.ofChars (Text.unifyLineEnds chars)) body

-- What a file holds once a text was written to it: nothing, if the text has no encoding.
def stored (t : Text) : Utf8.Bytes :=
  (Utf8.encode t).toOption.getD []

-- What a README holds after its component had its turn. If it is still, nothing is written.
def left (still : Bool) (bytes : Utf8.Bytes) (body : Text) : Utf8.Bytes :=
  if still then bytes
  else
    match Utf8.decode bytes with
    | .error _ => bytes
    | .ok chars => stored (revised chars body)

-- The text that a body makes of a README has an encoding, if it is to be written.
def Storable (still : Bool) (bytes : Utf8.Bytes) (body : Text) : Prop :=
  still = true ∨ ∀ chars, Utf8.decode bytes = .ok chars → ∃ cs, revised chars body = Text.ofChars cs

theorem stored_ofChars (cs : List Char) : stored (Text.ofChars cs) = Utf8.bytesOf cs := by
  rw [stored, Utf8.encode_ofChars]
  rfl

theorem left_of_decode {bytes : Utf8.Bytes} {chars : List Char}
    (h : Utf8.decode bytes = .ok chars) (body : Text) :
    left false bytes body = stored (revised chars body) := by
  simp only [left, h, Bool.false_eq_true, if_false]

theorem left_of_error {bytes : Utf8.Bytes} {e : Utf8.DecodeError}
    (h : Utf8.decode bytes = .error e) (still : Bool) (body : Text) :
    left still bytes body = bytes := by
  simp only [left, h, ite_self]

theorem left_still (bytes : Utf8.Bytes) (body : Text) : left true bytes body = bytes :=
  if_pos rfl

-- A README that was revised, written and read again is revised as before.
theorem revised_reread {chars cs : List Char} {body : Text}
    (h : revised chars body = Text.ofChars cs) (next : Text) :
    revised cs next = revised chars next := by
  cases hregion : Region.inner? (Text.ofChars (Text.unifyLineEnds chars)) with
  | some parts =>
    obtain ⟨inner, final⟩ := parts
    have hfinal := (Region.inner?_eq_some_iff.mp hregion).1
    rw [revised, Region.replace_of_inner? hregion] at h
    obtain ⟨again, hagain⟩ := Region.inner?_reread hfinal h
    rw [revised, Region.replace_of_inner? hagain, revised, Region.replace_of_inner? hregion]
  | none =>
    rw [revised, Region.replace_of_not_hasRegion (Region.not_hasRegion_of_inner? hregion)] at h
    obtain rfl := Text.ofChars_injective h
    rw [revised, Text.unifyLineEnds_idem]
    rfl

variable {still : Bool} {bytes : Utf8.Bytes} {body : Text}

theorem left_cases (h : Storable still bytes body) :
    left still bytes body = bytes ∨
      ∃ chars cs, still = false ∧ Utf8.decode bytes = .ok chars ∧
        revised chars body = Text.ofChars cs ∧ left still bytes body = Utf8.bytesOf cs := by
  cases still with
  | true => exact .inl (left_still _ _)
  | false =>
    cases hd : Utf8.decode bytes with
    | error e => exact .inl (left_of_error hd _ _)
    | ok chars =>
      obtain ⟨cs, hcs⟩ := h.resolve_left (by simp) chars hd
      refine .inr ⟨chars, cs, rfl, rfl, hcs, ?_⟩
      rw [left_of_decode hd, hcs, stored_ofChars]

theorem left_left (h : Storable still bytes body) (next : Text) :
    left still (left still bytes body) next = left still bytes next := by
  rcases left_cases h with hsame | ⟨chars, cs, rfl, hd, hcs, hleft⟩
  · rw [hsame]
  · rw [hleft, left_of_decode (Utf8.decode_bytesOf cs), left_of_decode hd, revised_reread hcs]

theorem storable_left_iff (h : Storable still bytes body) (next : Text) :
    Storable still (left still bytes body) next ↔ Storable still bytes next := by
  rcases left_cases h with hsame | ⟨chars, cs, rfl, hd, hcs, hleft⟩
  · rw [hsame]
  · rw [hleft]
    simp only [Storable, Bool.false_eq_true, false_or, Utf8.decode_bytesOf, hd, Except.ok.injEq,
      forall_eq', revised_reread hcs]

-- What the last of several bodies leaves; without any, nothing happens.
def leftByLast (still : Bool) (bodies : List Text) (bytes : Utf8.Bytes) : Utf8.Bytes :=
  (bodies.getLast?.map (left still bytes)).getD bytes

theorem left_leftByLast {bodies : List Text} (h : ∀ body ∈ bodies, Storable still bytes body)
    (next : Text) : left still (leftByLast still bodies bytes) next = left still bytes next := by
  rw [leftByLast]
  cases hlast : bodies.getLast? with
  | none => rfl
  | some last => exact left_left (h last (List.mem_of_getLast? hlast)) next

theorem storable_leftByLast_iff {bodies : List Text}
    (h : ∀ body ∈ bodies, Storable still bytes body) (next : Text) :
    Storable still (leftByLast still bodies bytes) next ↔ Storable still bytes next := by
  rw [leftByLast]
  cases hlast : bodies.getLast? with
  | none => rfl
  | some last => exact storable_left_iff (h last (List.mem_of_getLast? hlast)) next

theorem leftByLast_append_singleton (still : Bool) (bodies : List Text) (last : Text)
    (bytes : Utf8.Bytes) : leftByLast still (bodies ++ [last]) bytes = left still bytes last := by
  rw [leftByLast, List.getLast?_concat]
  rfl

theorem foldl_left {bodies : List Text} (h : ∀ body ∈ bodies, Storable still bytes body) :
    bodies.foldl (left still) bytes = leftByLast still bodies bytes := by
  induction bodies using List.reverseRecOn with
  | nil => rfl
  | append_singleton bodies last ih =>
    have hinit (body : Text) (hbody : body ∈ bodies) : Storable still bytes body :=
      h body (List.mem_append_left _ hbody)
    rw [List.foldl_append, ih hinit, leftByLast_append_singleton]
    exact left_leftByLast hinit last

end ReadmeTables.Patch
