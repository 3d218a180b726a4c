import ReadmeTables.Proofs.Text.Characters
import ReadmeTables.Proofs.Text.RoundTrip
/-!
Which texts name files.

A name is encoded code point by code point. Main statements: a text has a name exactly if each
of its code points has bytes, a name of texts one after another is made of their names, a name is
made of dots only if its text is, and texts without surrogates are different names.
-/

namespace ReadmeTables.Utf8

-- The bytes of a code point in a name.
def nameBytes? : CodePoint → Option Bytes
  | .scalar c => some (String.utf8EncodeChar c)
  | .surrogate offset => (escapedByte offset).map ([·])

theorem encodeFrom_cons_iff {i : Nat} {p : CodePoint} {rest : Text} {bytes : Bytes} :
    encodeFrom escapedByte i (p :: rest) = .ok bytes ↔
      ∃ first others, nameBytes? p = some first ∧
        encodeFrom escapedByte (i + 1) rest = .ok others ∧ bytes = first ++ others := by
  cases p with
  | scalar c =>
    cases hr : encodeFrom escapedByte (i + 1) rest <;>
      simp [encodeFrom, nameBytes?, hr, Functor.map, Except.map, eq_comm]
  | surrogate offset =>
    cases hb : escapedByte offset with
    | none => simp [encodeFrom, nameBytes?, hb]
    | some b =>
      cases hr : encodeFrom escapedByte (i + 1) rest <;>
        simp [encodeFrom, nameBytes?, hb, hr, Functor.map, Except.map, eq_comm]

theorem exists_encodeName_iff {t : Text} :
    (∃ bytes, encodeName t = .ok bytes) ↔ ∀ p ∈ t, ∃ first, nameBytes? p = some first := by
  have hfrom (i : Nat) : (∃ bytes, encodeFrom escapedByte i t = .ok bytes) ↔
      ∀ p ∈ t, ∃ first, nameBytes? p = some first := by
    induction t generalizing i with
    | nil => simp [encodeFrom]
    | cons p rest ih =>
      rw [List.forall_mem_cons, ← ih (i + 1)]
      simp only [encodeFrom_cons_iff]
      constructor
      · rintro ⟨-, first, others, hfirst, hothers, -⟩
        exact ⟨⟨first, hfirst⟩, others, hothers⟩
      · rintro ⟨⟨first, hfirst⟩, others, hothers⟩
        exact ⟨_, first, others, hfirst, hothers, rfl⟩
  exact hfrom 0

-- The name of a text is made of the bytes of its code points.
theorem encodeFrom_eq_ok_iff {i : Nat} {t : Text} {bytes : Bytes} :
    encodeFrom escapedByte i t = .ok bytes ↔
      ∃ parts, t.mapM nameBytes? = some parts ∧ bytes = parts.flatten := by
  induction t generalizing i bytes with
  | nil => simp [encodeFrom, eq_comm]
  | cons p rest ih =>
    simp only [encodeFrom_cons_iff, ih, List.mapM_cons, Option.pure_def, Option.bind_eq_bind,
      Option.bind_eq_some_iff, Option.some.injEq]
    constructor
    · rintro ⟨first, _, hfirst, ⟨parts, hparts, rfl⟩, rfl⟩
      exact ⟨first :: parts, ⟨first, hfirst, parts, hparts, rfl⟩, rfl⟩
    · rintro ⟨_, ⟨first, hfirst, parts, hparts, rfl⟩, rfl⟩
      exact ⟨first, parts.flatten, hfirst, ⟨parts, hparts, rfl⟩, rfl⟩

theorem encodeName_append_eq_ok_iff {t u : Text} {bytes : Bytes} :
    encodeName (t ++ u) = .ok bytes ↔
      ∃ front back, encodeName t = .ok front ∧ encodeName u = .ok back ∧ bytes = front ++ back := by
  simp only [encodeName, encodeFrom_eq_ok_iff, List.mapM_append, Option.pure_def,
    Option.bind_eq_bind, Option.bind_eq_some_iff, Option.some.injEq]
  constructor
  · rintro ⟨_, ⟨fronts, hfronts, backs, hbacks, rfl⟩, rfl⟩
    exact ⟨_, _, ⟨fronts, hfronts, rfl⟩, ⟨backs, hbacks, rfl⟩, List.flatten_append⟩
  · rintro ⟨_, _, ⟨fronts, hfronts, rfl⟩, ⟨backs, hbacks, rfl⟩, rfl⟩
    exact ⟨_, ⟨fronts, hfronts, backs, hbacks, rfl⟩, List.flatten_append.symm⟩

def dotByte : UInt8 := 0x2E

theorem ne_dotByte_of_toNat {b : UInt8} (h : b.toNat ≠ 0x2E) : b ≠ dotByte := by
  rintro rfl
  exact h rfl

theorem exists_byte_ne_dot_of_char {c : Char} (h : c ≠ '.') :
    ∃ b ∈ String.utf8EncodeChar c, b ≠ dotByte := by
  have hvalid := char_toNat_valid c
  by_cases h₁ : c.toNat < 0x80
  · rw [utf8EncodeChar_one h₁]
    refine ⟨_, List.mem_cons_self, ne_dotByte_of_toNat ?_⟩
    rw [toNat_ofNat_byte (by omega)]
    intro hdot
    exact h (Char.toNat_inj.mp hdot)
  by_cases h₂ : c.toNat < 0x800
  · rw [utf8EncodeChar_two ⟨by omega, h₂⟩]
    refine ⟨_, List.mem_cons_self, ne_dotByte_of_toNat ?_⟩
    rw [toNat_ofNat_byte (by omega)]
    omega
  by_cases h₃ : c.toNat < 0x10000
  · rw [utf8EncodeChar_three ⟨by omega, h₃⟩]
    refine ⟨_, List.mem_cons_self, ne_dotByte_of_toNat ?_⟩
    rw [toNat_ofNat_byte (by omega)]
    omega
  · rw [utf8EncodeChar_four (by omega)]
    refine ⟨_, List.mem_cons_self, ne_dotByte_of_toNat ?_⟩
    rw [toNat_ofNat_byte (by omega)]
    omega

theorem ne_dotByte_of_escapedByte {offset : Fin 2048} {b : UInt8}
    (h : escapedByte offset = some b) : b ≠ dotByte := by
  rw [escapedByte] at h
  split at h
  · obtain rfl := Option.some.inj h
    apply ne_dotByte_of_toNat
    rw [toNat_ofNat_byte (by omega)]
    omega
  · simp at h

theorem exists_byte_ne_dot_of_codePoint {p : CodePoint} {bytes : Bytes}
    (hbytes : nameBytes? p = some bytes) (hdot : p ≠ .scalar '.') : ∃ b ∈ bytes, b ≠ dotByte := by
  cases p with
  | scalar c =>
    obtain rfl := Option.some.inj hbytes
    exact exists_byte_ne_dot_of_char fun h => hdot (congrArg _ h)
  | surrogate offset =>
    obtain ⟨b, hb, rfl⟩ := Option.map_eq_some_iff.mp hbytes
    exact ⟨b, List.mem_singleton_self b, ne_dotByte_of_escapedByte hb⟩

-- The name of a text with something else than dots has something else than dots, too.
theorem exists_byte_ne_dot {t : Text} {bytes : Bytes} (hname : encodeName t = .ok bytes)
    {p : CodePoint} (hp : p ∈ t) (hdot : p ≠ .scalar '.') : ∃ b ∈ bytes, b ≠ dotByte := by
  have hfrom (i : Nat) (h : encodeFrom escapedByte i t = .ok bytes) : ∃ b ∈ bytes, b ≠ dotByte := by
    clear hname
    induction t generalizing i bytes with
    | nil => simp at hp
    | cons first rest ih =>
      obtain ⟨front, others, hfront, hothers, rfl⟩ := encodeFrom_cons_iff.mp h
      rcases List.mem_cons.mp hp with rfl | hp
      · obtain ⟨b, hb, hne⟩ := exists_byte_ne_dot_of_codePoint hfront hdot
        exact ⟨b, List.mem_append_left _ hb, hne⟩
      · obtain ⟨b, hb, hne⟩ := ih hp (i + 1) hothers
        exact ⟨b, List.mem_append_right _ hb, hne⟩
  exact hfrom 0 hname

-- A text whose name is made of dots has as many dots.
theorem eq_of_encodeName_dots {t : Text} {n : Nat}
    (h : encodeName t = .ok (bytesOf (List.replicate n '.'))) :
    t = Text.ofChars (List.replicate n '.') := by
  have hbytes (b : UInt8) (hb : b ∈ bytesOf (List.replicate n '.')) : b = dotByte := by
    obtain ⟨c, hc, hb⟩ := List.mem_flatMap.mp hb
    obtain rfl := List.eq_of_mem_replicate hc
    exact List.mem_singleton.mp hb
  have hdots (p : CodePoint) (hp : p ∈ t) : p = .scalar '.' := by
    by_contra hne
    obtain ⟨b, hb, hnot⟩ := exists_byte_ne_dot h hp hne
    exact hnot (hbytes b hb)
  have ht : t = Text.ofChars (List.replicate t.length '.') := by
    rw [Text.ofChars, List.map_replicate]
    exact List.eq_replicate_of_mem hdots
  rw [ht, encodeName, encodeFrom_ofChars] at h
  rw [ht, bytesOf_injective (Except.ok.inj h)]

theorem eq_of_encodeName_eq {t u : Text} (ht : ∀ p ∈ t, p.isSurrogate = false)
    (hu : ∀ p ∈ u, p.isSurrogate = false) (h : encodeName t = encodeName u) : t = u := by
  obtain ⟨cs, rfl⟩ := Text.exists_chars_iff.mpr ht
  obtain ⟨ds, rfl⟩ := Text.exists_chars_iff.mpr hu
  rw [encodeName, encodeName, encodeFrom_ofChars, encodeFrom_ofChars] at h
  rw [bytesOf_injective (Except.ok.inj h)]

end ReadmeTables.Utf8
