import ReadmeTables.Text.Utf8
import Mathlib.Tactic.ByContra
/-!
UTF-8 there and back.

Main statements: a text has an encoding exactly if it is made of characters, decoding that
encoding gives the characters back, and bytes that can be decoded are the encoding of what
they decode to.
-/

namespace ReadmeTables.Utf8

def bytesOf (cs : List Char) : Bytes :=
  cs.flatMap String.utf8EncodeChar

@[simp] theorem bytesOf_nil : bytesOf [] = [] := rfl

@[simp] theorem bytesOf_cons (c : Char) (cs : List Char) :
    bytesOf (c :: cs) = String.utf8EncodeChar c ++ bytesOf cs := rfl

theorem encodeFrom_ofChars (escape : Fin 2048 → Option UInt8) (i : Nat) (cs : List Char) :
    encodeFrom escape i (Text.ofChars cs) = .ok (bytesOf cs) := by
  induction cs generalizing i with
  | nil => rfl
  | cons c cs ih =>
    have hrest : encodeFrom escape (i + 1) (cs.map CodePoint.scalar) = .ok (bytesOf cs) := ih (i + 1)
    simp [Text.ofChars, encodeFrom, hrest, Functor.map, Except.map]

theorem encode_ofChars (cs : List Char) : encode (Text.ofChars cs) = .ok (bytesOf cs) :=
  encodeFrom_ofChars _ 0 cs

theorem exists_chars_of_encodeFrom {i : Nat} {t : Text} {bytes : Bytes}
    (h : encodeFrom (fun _ => none) i t = .ok bytes) : ∃ cs, t = Text.ofChars cs := by
  induction t generalizing i bytes with
  | nil => exact ⟨[], rfl⟩
  | cons c rest ih =>
    cases c with
    | surrogate s => simp [encodeFrom] at h
    | scalar c =>
      cases hr : encodeFrom (fun _ => none) (i + 1) rest with
      | error e => simp [encodeFrom, hr, Functor.map, Except.map] at h
      | ok tail =>
        obtain ⟨cs, rfl⟩ := ih hr
        exact ⟨c :: cs, rfl⟩

-- A text has an encoding exactly if it is made of characters.
theorem encode_eq_ok_iff {t : Text} {bytes : Bytes} :
    encode t = .ok bytes ↔ ∃ cs, t = Text.ofChars cs ∧ bytes = bytesOf cs := by
  constructor
  · intro h
    obtain ⟨cs, rfl⟩ := exists_chars_of_encodeFrom h
    rw [encode_ofChars] at h
    exact ⟨cs, rfl, (Except.ok.inj h).symm⟩
  · rintro ⟨cs, rfl, rfl⟩
    exact encode_ofChars cs

theorem encode_append {t u : Text} {front back : Bytes} (ht : encode t = .ok front)
    (hu : encode u = .ok back) : encode (t ++ u) = .ok (front ++ back) := by
  obtain ⟨cs, rfl, rfl⟩ := encode_eq_ok_iff.mp ht
  obtain ⟨ds, rfl, rfl⟩ := encode_eq_ok_iff.mp hu
  exact encode_eq_ok_iff.mpr ⟨cs ++ ds, List.map_append.symm, List.flatMap_append.symm⟩

-- The number of a character is a scalar value.
theorem char_toNat_valid (c : Char) :
    c.toNat < 0xD800 ∨ (0xDFFF < c.toNat ∧ c.toNat < 0x110000) :=
  c.valid

theorem toNat_ofNat_of_valid {n : Nat} (h : n < 0xD800 ∨ (0xDFFF < n ∧ n < 0x110000)) :
    (Char.ofNat n).toNat = n := by
  have hv : n.isValidChar := h
  rw [Char.ofNat, dif_pos hv]
  rfl

theorem toNat_ofNat_byte {n : Nat} (h : n < 256) : (UInt8.ofNat n).toNat = n := by
  rw [UInt8.toNat_ofNat']
  omega

theorem begin?_two {b : UInt8} (i : Nat) (hlow : 0xC2 ≤ b.toNat) (hhigh : b.toNat < 0xE0) :
    Pending.begin? i b = some ⟨i, b, 1, 0x80, 0xBF, b.toNat - 0xC0⟩ := by
  simp [Pending.begin?, show ¬b.toNat < 0xC2 by omega, hhigh]

-- The second byte may be any that leads neither to a number that needs fewer bytes nor to a
-- surrogate.
theorem begin?_three {b : UInt8} (i : Nat) (hlow : 0xE0 ≤ b.toNat) (hhigh : b.toNat < 0xF0) :
    ∃ low high, Pending.begin? i b = some ⟨i, b, 2, low, high, b.toNat - 0xE0⟩ ∧
      ∀ n, (low ≤ n ∧ n ≤ high) ↔ 0x80 ≤ n ∧ n ≤ 0xBF ∧
        0x20 ≤ (b.toNat - 0xE0) * 64 + (n - 0x80) ∧
        ¬(0x360 ≤ (b.toNat - 0xE0) * 64 + (n - 0x80) ∧
          (b.toNat - 0xE0) * 64 + (n - 0x80) < 0x380) := by
  by_cases hfirst : b.toNat = 0xE0
  · exact ⟨0xA0, 0xBF, by simp [Pending.begin?, hfirst], by intro n; omega⟩
  by_cases hlast : b.toNat = 0xED
  · exact ⟨0x80, 0x9F, by simp [Pending.begin?, hlast], by intro n; omega⟩
  refine ⟨0x80, 0xBF, ?_, by intro n; omega⟩
  simp [Pending.begin?, show ¬b.toNat < 0xC2 by omega, show ¬b.toNat < 0xE0 by omega, hfirst, hlast,
    hhigh]

theorem begin?_four {b : UInt8} (i : Nat) (hlow : 0xF0 ≤ b.toNat) (hhigh : b.toNat ≤ 0xF4) :
    ∃ low high, Pending.begin? i b = some ⟨i, b, 3, low, high, b.toNat - 0xF0⟩ ∧
      ∀ n, (low ≤ n ∧ n ≤ high) ↔ 0x80 ≤ n ∧ n ≤ 0xBF ∧
        0x10 ≤ (b.toNat - 0xF0) * 64 + (n - 0x80) ∧
        (b.toNat - 0xF0) * 64 + (n - 0x80) < 0x110 := by
  by_cases hfirst : b.toNat = 0xF0
  · exact ⟨0x90, 0xBF, by simp [Pending.begin?, hfirst], by intro n; omega⟩
  by_cases hlast : b.toNat = 0xF4
  · exact ⟨0x80, 0x8F, by simp [Pending.begin?, hlast], by intro n; omega⟩
  refine ⟨0x80, 0xBF, ?_, by intro n; omega⟩
  simp [Pending.begin?, show ¬b.toNat < 0xC2 by omega, show ¬b.toNat < 0xE0 by omega,
    show b.toNat ≠ 0xE0 by omega, show b.toNat ≠ 0xED by omega, show ¬b.toNat < 0xF0 by omega,
    hfirst, hlast, show b.toNat < 0xF4 by omega]

-- A byte that begins a sequence begins one of two, three or four bytes.
theorem le_of_begin?_eq_some {b : UInt8} {i : Nat} {p : Pending} (h : Pending.begin? i b = some p) :
    0xC2 ≤ b.toNat ∧ b.toNat ≤ 0xF4 := by
  by_contra hn
  have hnone : Pending.begin? i b = none := by
    simp only [Pending.begin?]
    repeat' split
    all_goals first | rfl | omega
  simp [hnone] at h

theorem decodeFrom_in_range {i : Nat} {p : Pending} {b : UInt8} {rest : Bytes}
    (h : p.low ≤ b.toNat ∧ b.toNat ≤ p.high) :
    decodeFrom i (some p) (b :: rest) =
      if (p.next b).left = 0 then (Char.ofNat (p.next b).bits :: ·) <$> decodeFrom (i + 1) none rest
      else decodeFrom (i + 1) (some (p.next b)) rest := by
  simp only [decodeFrom, h, and_self, if_true]

-- Inside a sequence only a byte in range goes on.
theorem exists_byte_of_decodeFrom_pending {i : Nat} {p : Pending} {bytes : Bytes} {cs : List Char}
    (h : decodeFrom i (some p) bytes = .ok cs) :
    ∃ b rest, bytes = b :: rest ∧ p.low ≤ b.toNat ∧ b.toNat ≤ p.high := by
  cases bytes with
  | nil => simp [decodeFrom] at h
  | cons b rest =>
    by_cases hb : p.low ≤ b.toNat ∧ b.toNat ≤ p.high
    · exact ⟨b, rest, rfl, hb⟩
    · simp [decodeFrom, hb] at h

theorem decodeFrom_one {i : Nat} {b : UInt8} {rest : Bytes} (h : b.toNat < 0x80) :
    decodeFrom i none (b :: rest) = (Char.ofNat b.toNat :: ·) <$> decodeFrom (i + 1) none rest := by
  simp only [decodeFrom, h, if_true]

theorem decodeFrom_begin {i : Nat} {b : UInt8} {rest : Bytes} {p : Pending}
    (h : Pending.begin? i b = some p) :
    decodeFrom i none (b :: rest) = decodeFrom (i + 1) (some p) rest := by
  have hb := (le_of_begin?_eq_some h).1
  simp [decodeFrom, h, show ¬b.toNat < 0x80 by omega]

-- A whole sequence gives the character whose number its low bits make.
theorem decodeFrom_two {i : Nat} {b₀ b₁ : UInt8} (rest : Bytes)
    (h₀ : 0xC2 ≤ b₀.toNat ∧ b₀.toNat < 0xE0) (h₁ : 0x80 ≤ b₁.toNat ∧ b₁.toNat ≤ 0xBF) :
    decodeFrom i none (b₀ :: b₁ :: rest) =
      (Char.ofNat ((b₀.toNat - 0xC0) * 64 + (b₁.toNat - 0x80)) :: ·) <$>
        decodeFrom (i + 2) none rest := by
  rw [decodeFrom_begin (begin?_two i h₀.1 h₀.2), decodeFrom_in_range h₁]
  rfl

theorem decodeFrom_three {i : Nat} {b₀ b₁ b₂ : UInt8} (rest : Bytes)
    (h₀ : 0xE0 ≤ b₀.toNat ∧ b₀.toNat < 0xF0) (h₁ : 0x80 ≤ b₁.toNat ∧ b₁.toNat ≤ 0xBF)
    (h₂ : 0x80 ≤ b₂.toNat ∧ b₂.toNat ≤ 0xBF)
    (hlow : 0x20 ≤ (b₀.toNat - 0xE0) * 64 + (b₁.toNat - 0x80))
    (hgap : ¬(0x360 ≤ (b₀.toNat - 0xE0) * 64 + (b₁.toNat - 0x80) ∧
      (b₀.toNat - 0xE0) * 64 + (b₁.toNat - 0x80) < 0x380)) :
    decodeFrom i none (b₀ :: b₁ :: b₂ :: rest) =
      (Char.ofNat (((b₀.toNat - 0xE0) * 64 + (b₁.toNat - 0x80)) * 64 + (b₂.toNat - 0x80)) :: ·) <$>
        decodeFrom (i + 3) none rest := by
  obtain ⟨low, high, hbegin, hrange⟩ := begin?_three i h₀.1 h₀.2
  rw [decodeFrom_begin hbegin, decodeFrom_in_range ((hrange _).mpr ⟨h₁.1, h₁.2, hlow, hgap⟩)]
  simp only [Pending.next, Nat.add_one_sub_one, Nat.reduceEqDiff, if_false]
  rw [decodeFrom_in_range h₂]
  rfl

theorem decodeFrom_four {i : Nat} {b₀ b₁ b₂ b₃ : UInt8} (rest : Bytes)
    (h₀ : 0xF0 ≤ b₀.toNat ∧ b₀.toNat ≤ 0xF4) (h₁ : 0x80 ≤ b₁.toNat ∧ b₁.toNat ≤ 0xBF)
    (h₂ : 0x80 ≤ b₂.toNat ∧ b₂.toNat ≤ 0xBF) (h₃ : 0x80 ≤ b₃.toNat ∧ b₃.toNat ≤ 0xBF)
    (hlow : 0x10 ≤ (b₀.toNat - 0xF0) * 64 + (b₁.toNat - 0x80))
    (hhigh : (b₀.toNat - 0xF0) * 64 + (b₁.toNat - 0x80) < 0x110) :
    decodeFrom i none (b₀ :: b₁ :: b₂ :: b₃ :: rest) =
      (Char.ofNat ((((b₀.toNat - 0xF0) * 64 + (b₁.toNat - 0x80)) * 64 + (b₂.toNat - 0x80)) * 64 +
        (b₃.toNat - 0x80)) :: ·) <$> decodeFrom (i + 4) none rest := by
  obtain ⟨low, high, hbegin, hrange⟩ := begin?_four i h₀.1 h₀.2
  rw [decodeFrom_begin hbegin, decodeFrom_in_range ((hrange _).mpr ⟨h₁.1, h₁.2, hlow, hhigh⟩)]
  simp only [Pending.next, Nat.reduceSub, Nat.reduceEqDiff, if_false]
  rw [decodeFrom_in_range h₂]
  simp only [Pending.next, Nat.reduceSub, Nat.reduceEqDiff, if_false]
  rw [decodeFrom_in_range h₃]
  rfl

-- The bytes of a character by the size of its number.
theorem utf8EncodeChar_one {c : Char} (h : c.toNat < 0x80) :
    String.utf8EncodeChar c = [UInt8.ofNat c.toNat] := by
  simp only [String.utf8EncodeChar, Char.toNat_val]
  rw [if_pos (by omega)]

theorem utf8EncodeChar_two {c : Char} (h : 0x80 ≤ c.toNat ∧ c.toNat < 0x800) :
    String.utf8EncodeChar c =
      [UInt8.ofNat (c.toNat / 64 % 0x20 + 0xC0), UInt8.ofNat (c.toNat % 0x40 + 0x80)] := by
  simp only [String.utf8EncodeChar, Char.toNat_val]
  rw [if_neg (by omega), if_pos (by omega)]

theorem utf8EncodeChar_three {c : Char} (h : 0x800 ≤ c.toNat ∧ c.toNat < 0x10000) :
    String.utf8EncodeChar c =
      [UInt8.ofNat (c.toNat / 4096 % 0x10 + 0xE0), UInt8.ofNat (c.toNat / 64 % 0x40 + 0x80),
        UInt8.ofNat (c.toNat % 0x40 + 0x80)] := by
  simp only [String.utf8EncodeChar, Char.toNat_val]
  rw [if_neg (by omega), if_neg (by omega), if_pos (by omega)]

theorem utf8EncodeChar_four {c : Char} (h : 0x10000 ≤ c.toNat) :
    String.utf8EncodeChar c =
      [UInt8.ofNat (c.toNat / 262144 % 0x08 + 0xF0), UInt8.ofNat (c.toNat / 4096 % 0x40 + 0x80),
        UInt8.ofNat (c.toNat / 64 % 0x40 + 0x80), UInt8.ofNat (c.toNat % 0x40 + 0x80)] := by
  simp only [String.utf8EncodeChar, Char.toNat_val]
  rw [if_neg (by omega), if_neg (by omega), if_neg (by omega)]

theorem decodeFrom_utf8EncodeChar (i : Nat) (c : Char) (rest : Bytes) :
    ∃ k, decodeFrom i none (String.utf8EncodeChar c ++ rest) =
      (c :: ·) <$> decodeFrom k none rest := by
  have hvalid := char_toNat_valid c
  by_cases hone : c.toNat < 0x80
  · have hb : (UInt8.ofNat c.toNat).toNat = c.toNat := toNat_ofNat_byte (by omega)
    refine ⟨i + 1, ?_⟩
    rw [utf8EncodeChar_one hone, List.cons_append, decodeFrom_one (by omega), hb, Char.ofNat_toNat]
    rfl
  have hlast : (UInt8.ofNat (c.toNat % 0x40 + 0x80)).toNat = c.toNat % 0x40 + 0x80 :=
    toNat_ofNat_byte (by omega)
  by_cases htwo : c.toNat < 0x800
  · have hfirst : (UInt8.ofNat (c.toNat / 64 % 0x20 + 0xC0)).toNat = c.toNat / 64 % 0x20 + 0xC0 :=
      toNat_ofNat_byte (by omega)
    refine ⟨i + 2, ?_⟩
    rw [utf8EncodeChar_two (by omega), List.cons_append, List.cons_append,
      decodeFrom_two _ (by omega) (by omega), hfirst, hlast]
    have hnumber : (c.toNat / 64 % 0x20 + 0xC0 - 0xC0) * 64 + (c.toNat % 0x40 + 0x80 - 0x80) =
        c.toNat := by omega
    rw [hnumber, Char.ofNat_toNat]
    rfl
  have hmiddle : (UInt8.ofNat (c.toNat / 64 % 0x40 + 0x80)).toNat = c.toNat / 64 % 0x40 + 0x80 :=
    toNat_ofNat_byte (by omega)
  by_cases hthree : c.toNat < 0x10000
  · have hfirst : (UInt8.ofNat (c.toNat / 4096 % 0x10 + 0xE0)).toNat =
        c.toNat / 4096 % 0x10 + 0xE0 := toNat_ofNat_byte (by omega)
    refine ⟨i + 3, ?_⟩
    rw [utf8EncodeChar_three (by omega), List.cons_append, List.cons_append, List.cons_append,
      decodeFrom_three _ (by omega) (by omega) (by omega) (by omega) (by omega), hfirst, hmiddle,
      hlast]
    have hnumber : ((c.toNat / 4096 % 0x10 + 0xE0 - 0xE0) * 64 +
        (c.toNat / 64 % 0x40 + 0x80 - 0x80)) * 64 + (c.toNat % 0x40 + 0x80 - 0x80) = c.toNat := by
      omega
    rw [hnumber, Char.ofNat_toNat]
    rfl
  · have hfirst : (UInt8.ofNat (c.toNat / 262144 % 0x08 + 0xF0)).toNat =
        c.toNat / 262144 % 0x08 + 0xF0 := toNat_ofNat_byte (by omega)
    have hsecond : (UInt8.ofNat (c.toNat / 4096 % 0x40 + 0x80)).toNat =
        c.toNat / 4096 % 0x40 + 0x80 := toNat_ofNat_byte (by omega)
    refine ⟨i + 4, ?_⟩
    rw [utf8EncodeChar_four (by omega), List.cons_append, List.cons_append, List.cons_append,
      List.cons_append, decodeFrom_four _ (by omega) (by omega) (by omega) (by omega) (by omega)
        (by omega), hfirst, hsecond, hmiddle, hlast]
    have hnumber : (((c.toNat / 262144 % 0x08 + 0xF0 - 0xF0) * 64 +
        (c.toNat / 4096 % 0x40 + 0x80 - 0x80)) * 64 + (c.toNat / 64 % 0x40 + 0x80 - 0x80)) * 64 +
        (c.toNat % 0x40 + 0x80 - 0x80) = c.toNat := by omega
    rw [hnumber, Char.ofNat_toNat]
    rfl

theorem decodeFrom_bytesOf (i : Nat) (cs : List Char) :
    decodeFrom i none (bytesOf cs) = .ok cs := by
  induction cs generalizing i with
  | nil => simp [decodeFrom]
  | cons c cs ih =>
    obtain ⟨k, hk⟩ := decodeFrom_utf8EncodeChar i c (bytesOf cs)
    rw [bytesOf_cons, hk, ih]
    rfl

theorem decode_bytesOf (cs : List Char) : decode (bytesOf cs) = .ok cs :=
  decodeFrom_bytesOf 0 cs

-- What can be decoded begins with the bytes of a character, and decodes to it and to what the
-- rest decodes to.
def BeginsWithChar (bytes : Bytes) (cs : List Char) : Prop :=
  ∃ c rest k tail, bytes = String.utf8EncodeChar c ++ rest ∧ cs = c :: tail ∧
    decodeFrom k none rest = .ok tail

theorem beginsWithChar_of_map {c : Char} {k : Nat} {bytes rest : Bytes} {cs : List Char}
    (hbytes : bytes = String.utf8EncodeChar c ++ rest)
    (h : (c :: ·) <$> decodeFrom k none rest = .ok cs) : BeginsWithChar bytes cs := by
  cases hr : decodeFrom k none rest with
  | error e => simp [hr, Functor.map, Except.map] at h
  | ok tail =>
    have hcs : cs = c :: tail := by simpa [hr, Functor.map, Except.map] using h.symm
    exact ⟨c, rest, k, tail, hbytes, hcs, hr⟩

theorem beginsWithChar_two {i : Nat} {b : UInt8} {bytes : Bytes} {cs : List Char}
    (hb : 0xC2 ≤ b.toNat ∧ b.toNat < 0xE0) (h : decodeFrom i none (b :: bytes) = .ok cs) :
    BeginsWithChar (b :: bytes) cs := by
  have hopen := h
  rw [decodeFrom_begin (begin?_two i hb.1 hb.2)] at hopen
  obtain ⟨b₁, rest, rfl, h₁⟩ := exists_byte_of_decodeFrom_pending hopen
  simp only at h₁
  rw [decodeFrom_two rest hb h₁] at h
  refine beginsWithChar_of_map ?_ h
  have hnumber := toNat_ofNat_of_valid (n := (b.toNat - 0xC0) * 64 + (b₁.toNat - 0x80)) (by omega)
  rw [utf8EncodeChar_two (by omega), hnumber]
  have hfirst : ((b.toNat - 0xC0) * 64 + (b₁.toNat - 0x80)) / 64 % 0x20 + 0xC0 = b.toNat := by omega
  have hlast : ((b.toNat - 0xC0) * 64 + (b₁.toNat - 0x80)) % 0x40 + 0x80 = b₁.toNat := by omega
  rw [hfirst, hlast, UInt8.ofNat_toNat, UInt8.ofNat_toNat]
  rfl

theorem beginsWithChar_three {i : Nat} {b : UInt8} {bytes : Bytes} {cs : List Char}
    (hb : 0xE0 ≤ b.toNat ∧ b.toNat < 0xF0) (h : decodeFrom i none (b :: bytes) = .ok cs) :
    BeginsWithChar (b :: bytes) cs := by
  obtain ⟨low, high, hbegin, hrange⟩ := begin?_three i hb.1 hb.2
  have hopen := h
  rw [decodeFrom_begin hbegin] at hopen
  obtain ⟨b₁, rest₁, rfl, hsecond⟩ := exists_byte_of_decodeFrom_pending hopen
  obtain ⟨hlow₁, hhigh₁, hlow, hgap⟩ := (hrange b₁.toNat).mp hsecond
  rw [decodeFrom_in_range hsecond] at hopen
  simp only [Pending.next, Nat.add_one_sub_one, Nat.reduceEqDiff, if_false] at hopen
  obtain ⟨b₂, rest, rfl, h₂⟩ := exists_byte_of_decodeFrom_pending hopen
  rw [decodeFrom_three rest hb ⟨hlow₁, hhigh₁⟩ h₂ hlow hgap] at h
  refine beginsWithChar_of_map ?_ h
  generalize hn : ((b.toNat - 0xE0) * 64 + (b₁.toNat - 0x80)) * 64 + (b₂.toNat - 0x80) = n
  simp only at h₂
  have hnumber := toNat_ofNat_of_valid (n := n) (by omega)
  rw [utf8EncodeChar_three (by omega), hnumber]
  have hfirst : n / 4096 % 0x10 + 0xE0 = b.toNat := by omega
  have hmiddle : n / 64 % 0x40 + 0x80 = b₁.toNat := by omega
  have hlast : n % 0x40 + 0x80 = b₂.toNat := by omega
  rw [hfirst, hmiddle, hlast, UInt8.ofNat_toNat, UInt8.ofNat_toNat, UInt8.ofNat_toNat]
  rfl

theorem beginsWithChar_four {i : Nat} {b : UInt8} {bytes : Bytes} {cs : List Char}
    (hb : 0xF0 ≤ b.toNat ∧ b.toNat ≤ 0xF4) (h : decodeFrom i none (b :: bytes) = .ok cs) :
    BeginsWithChar (b :: bytes) cs := by
  obtain ⟨low, high, hbegin, hrange⟩ := begin?_four i hb.1 hb.2
  have hopen := h
  rw [decodeFrom_begin hbegin] at hopen
  obtain ⟨b₁, rest₁, rfl, hsecond⟩ := exists_byte_of_decodeFrom_pending hopen
  obtain ⟨hlow₁, hhigh₁, hlow, hhigh⟩ := (hrange b₁.toNat).mp hsecond
  rw [decodeFrom_in_range hsecond] at hopen
  simp only [Pending.next, Nat.reduceSub, Nat.reduceEqDiff, if_false] at hopen
  obtain ⟨b₂, rest₂, rfl, h₂⟩ := exists_byte_of_decodeFrom_pending hopen
  rw [decodeFrom_in_range h₂] at hopen
  simp only [Pending.next, Nat.reduceSub, Nat.reduceEqDiff, if_false] at hopen
  obtain ⟨b₃, rest, rfl, h₃⟩ := exists_byte_of_decodeFrom_pending hopen
  rw [decodeFrom_four rest hb ⟨hlow₁, hhigh₁⟩ h₂ h₃ hlow hhigh] at h
  refine beginsWithChar_of_map ?_ h
  generalize hn : (((b.toNat - 0xF0) * 64 + (b₁.toNat - 0x80)) * 64 + (b₂.toNat - 0x80)) * 64 +
    (b₃.toNat - 0x80) = n
  simp only at h₂ h₃
  have hnumber := toNat_ofNat_of_valid (n := n) (by omega)
  rw [utf8EncodeChar_four (by omega), hnumber]
  have hfirst : n / 262144 % 0x08 + 0xF0 = b.toNat := by omega
  have hsecond : n / 4096 % 0x40 + 0x80 = b₁.toNat := by omega
  have hthird : n / 64 % 0x40 + 0x80 = b₂.toNat := by omega
  have hlast : n % 0x40 + 0x80 = b₃.toNat := by omega
  rw [hfirst, hsecond, hthird, hlast, UInt8.ofNat_toNat, UInt8.ofNat_toNat, UInt8.ofNat_toNat,
    UInt8.ofNat_toNat]
  rfl

theorem beginsWithChar_of_decodeFrom {i : Nat} {b : UInt8} {bytes : Bytes} {cs : List Char}
    (h : decodeFrom i none (b :: bytes) = .ok cs) : BeginsWithChar (b :: bytes) cs := by
  by_cases hone : b.toNat < 0x80
  · rw [decodeFrom_one hone] at h
    have hnumber : (Char.ofNat b.toNat).toNat = b.toNat := toNat_ofNat_of_valid (by omega)
    refine beginsWithChar_of_map ?_ h
    rw [utf8EncodeChar_one (by omega), hnumber, UInt8.ofNat_toNat]
    rfl
  cases hbegin : Pending.begin? i b with
  | none => simp [decodeFrom, hone, hbegin] at h
  | some p =>
    have hbounds := le_of_begin?_eq_some hbegin
    by_cases htwo : b.toNat < 0xE0
    · exact beginsWithChar_two ⟨hbounds.1, htwo⟩ h
    by_cases hthree : b.toNat < 0xF0
    · exact beginsWithChar_three ⟨by omega, hthree⟩ h
    · exact beginsWithChar_four ⟨by omega, hbounds.2⟩ h

theorem eq_bytesOf_of_decodeFrom {i : Nat} {bytes : Bytes} {cs : List Char}
    (h : decodeFrom i none bytes = .ok cs) : bytes = bytesOf cs := by
  induction cs generalizing i bytes with
  | nil =>
    cases bytes with
    | nil => rfl
    | cons b bytes =>
      obtain ⟨c, rest, k, tail, _, hcs, _⟩ := beginsWithChar_of_decodeFrom h
      simp at hcs
  | cons c cs ih =>
    cases bytes with
    | nil => simp [decodeFrom] at h
    | cons b bytes =>
      obtain ⟨d, rest, k, tail, hbytes, hcs, hrest⟩ := beginsWithChar_of_decodeFrom h
      obtain ⟨rfl, rfl⟩ := List.cons.inj hcs
      rw [hbytes, bytesOf_cons, ih hrest]

-- Bytes that can be decoded are the encoding of what they decode to.
theorem decode_eq_ok_iff {bytes : Bytes} {cs : List Char} :
    decode bytes = .ok cs ↔ bytes = bytesOf cs := by
  constructor
  · exact eq_bytesOf_of_decodeFrom
  · rintro rfl
    exact decode_bytesOf cs

theorem bytesOf_injective {cs ds : List Char} (h : bytesOf cs = bytesOf ds) : cs = ds := by
  have hd := decode_bytesOf cs
  rw [h, decode_bytesOf] at hd
  exact (Except.ok.inj hd).symm

end ReadmeTables.Utf8
