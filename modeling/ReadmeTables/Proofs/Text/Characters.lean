import ReadmeTables.Text.Basic
/-!
Texts that are made of characters.

Main statement: a text is made of characters exactly if it holds no lone surrogate.
-/

namespace ReadmeTables.Text

theorem exists_chars_of_append {t u : Text} {cs : List Char} (h : t ++ u = ofChars cs) :
    ∃ ts us, t = ofChars ts ∧ u = ofChars us ∧ cs = ts ++ us := by
  obtain ⟨ts, us, hcs, ht, hu⟩ := List.map_eq_append_iff.mp h.symm
  exact ⟨ts, us, ht.symm, hu.symm, hcs⟩

theorem ofChars_append (cs ds : List Char) :
    ofChars (cs ++ ds) = ofChars cs ++ ofChars ds :=
  List.map_append

theorem ofChars_injective {cs ds : List Char} (h : ofChars cs = ofChars ds) : cs = ds :=
  (List.map_inj_right fun _ _ e => CodePoint.scalar.inj e).mp h

theorem exists_chars_iff {t : Text} :
    (∃ cs, t = ofChars cs) ↔ ∀ p ∈ t, p.isSurrogate = false := by
  constructor
  · rintro ⟨cs, rfl⟩ p hp
    obtain ⟨c, -, rfl⟩ := List.mem_map.mp hp
    rfl
  · intro h
    induction t with
    | nil => exact ⟨[], rfl⟩
    | cons p rest ih =>
      obtain ⟨hp, hrest⟩ := List.forall_mem_cons.mp h
      obtain ⟨cs, rfl⟩ := ih hrest
      cases p with
      | scalar c => exact ⟨c :: cs, rfl⟩
      | surrogate offset => simp [CodePoint.isSurrogate] at hp

end ReadmeTables.Text
