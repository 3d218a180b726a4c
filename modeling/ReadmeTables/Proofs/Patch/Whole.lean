import ReadmeTables.Proofs.Patch.Orders
import ReadmeTables.Proofs.Run
/-!
When a README stays whole.

A README is whole if it holds what it held before or a complete new text. Main statement: a
flush or a run, in any order of its tasks, leaves the README of one component so unless it may be
written, has a region, and is given a body with a surrogate; then it is left empty, if the task is
not given up before.
-/

namespace ReadmeTables.Patch

-- What a README holds afterwards is what it held before, or all of a text with one of the
-- bodies in its region.
def IsWhole (bodies : List Text) (before after : Utf8.Bytes) : Prop :=
  after = before ∨
    ∃ chars body, Utf8.decode before = .ok chars ∧ body ∈ bodies ∧
      Utf8.encode (revised chars body) = .ok after

-- A README that may be written has a region for a body with a surrogate.
def IsEmptied (locked : Bool) (bodies : List Text) (before : Utf8.Bytes) : Prop :=
  locked = false ∧ ∃ chars, Utf8.decode before = .ok chars ∧
    Region.hasRegion (Text.ofChars (Text.unifyLineEnds chars)) = true ∧
    ∃ body ∈ bodies, ∃ p ∈ body, p.isSurrogate = true

-- A README is whole unless a body empties it; then it is empty, or it was not written to yet.
structure StaysWhole (locked : Bool) (bodies : List Text) (before after : Utf8.Bytes) : Prop where
  whole : ¬IsEmptied locked bodies before → IsWhole bodies before after
  emptied : IsEmptied locked bodies before → after = before ∨ after = []

theorem exists_revised_iff {chars : List Char} {body : Text} :
    (∃ cs, revised chars body = Text.ofChars cs) ↔
      (Region.hasRegion (Text.ofChars (Text.unifyLineEnds chars)) = true →
        ∀ p ∈ body, p.isSurrogate = false) := by
  cases hregion : Region.inner? (Text.ofChars (Text.unifyLineEnds chars)) with
  | none =>
    have hno := Region.not_hasRegion_of_inner? hregion
    rw [revised, Region.replace_of_not_hasRegion hno, hno]
    simp
  | some parts =>
    obtain ⟨inner, final⟩ := parts
    have hfinal := (Region.inner?_eq_some_iff.mp hregion).1
    rw [revised, Region.replace_of_inner? hregion, Region.exists_chars_of_wrap_iff hfinal,
      Region.hasRegion_of_inner? hregion]
    simp

variable {locked : Bool} {bodies : List Text} {before : Utf8.Bytes}

theorem storable_of_not_isEmptied (h : ¬IsEmptied locked bodies before) :
    ∀ body ∈ bodies, Storable locked before body := by
  intro body hbody
  cases locked with
  | true => exact .inl rfl
  | false =>
    refine .inr fun chars hchars => exists_revised_iff.mpr fun hregion p hp => ?_
    rw [Bool.eq_false_iff]
    intro hsurrogate
    exact h ⟨rfl, chars, hchars, hregion, body, hbody, p, hp, hsurrogate⟩

theorem left_of_isEmptied {body : Text} (h : IsEmptied locked [body] before) :
    left locked before body = [] := by
  obtain ⟨rfl, chars, hchars, hregion, found, hfound, p, hp, hsurrogate⟩ := h
  obtain rfl := List.mem_singleton.mp hfound
  rw [left_of_decode hchars, stored]
  cases hencode : Utf8.encode (revised chars found) with
  | error e => rfl
  | ok bytes =>
    obtain ⟨cs, hcs, -⟩ := Utf8.encode_eq_ok_iff.mp hencode
    have hclean := exists_revised_iff.mp ⟨cs, hcs⟩ hregion p hp
    rw [hclean] at hsurrogate
    simp at hsurrogate

-- An empty file is not what such a README held, nor a text with a region.
theorem not_isWhole_nil (h : IsEmptied locked bodies before) : ¬IsWhole bodies before [] := by
  obtain ⟨-, chars, hchars, hregion, -⟩ := h
  rintro (rfl | ⟨found, body, hfound, -, hencode⟩)
  · obtain rfl := Except.ok.inj hchars
    revert hregion
    decide
  · obtain rfl := Except.ok.inj (hchars.symm.trans hfound)
    obtain ⟨cs, hcs, hbytes⟩ := Utf8.encode_eq_ok_iff.mp hencode
    obtain rfl := Utf8.bytesOf_injective (hbytes.symm.trans Utf8.bytesOf_nil.symm)
    obtain ⟨inner, final, hinner⟩ := Region.hasRegion_eq_true_iff.mp hregion
    rw [revised, Region.replace_of_inner? hinner] at hcs
    simp [Region.wrap, Region.lineFeed, Text.ofChars] at hcs

theorem isWhole_left {body : Text} (h : Storable locked before body) :
    IsWhole [body] before (left locked before body) := by
  rcases left_cases h with hsame | ⟨chars, cs, -, hchars, hcs, hleft⟩
  · exact .inl hsame
  · refine .inr ⟨chars, body, hchars, List.mem_singleton_self body, ?_⟩
    rw [hleft, hcs, Utf8.encode_ofChars]

variable {s s' : Session} {l : Location} {plan : Plan} {f : Fragments}

theorem Plan.ownAt_of_length_bodiesAt {w : World} {entries : List (Text × List Text)}
    (h : (plan.bodiesAt w l entries).length ≤ 1) : plan.OwnAt (· = l) w entries := by
  induction entries with
  | nil => exact .nil
  | cons entry rest ih =>
    by_cases hl : plan.leadsTo w entry.1 l
    · rw [bodiesAt_cons_of_leadsTo hl, List.length_cons] at h
      have hrest : plan.bodiesAt w l rest = [] := List.eq_nil_of_length_eq_zero (by omega)
      refine .cons (fun other hother m hm _ hl' => ?_) (ih (by simp [hrest]))
      subst hm
      have hbody := mem_bodiesAt_iff.mpr ⟨other, hother, hl', rfl⟩
      simp [hrest] at hbody
    · rw [bodiesAt_cons_of_not_leadsTo hl] at h
      refine .cons (fun other hother m hm hm' _ => ?_) (ih h)
      subst hm
      exact hl hm'

theorem Plan.bodiesAt_of_length {w : World} {entry : Text × List Text}
    {entries : List (Text × List Text)} (h : (plan.bodiesAt w l entries).length ≤ 1)
    (hentry : entry ∈ entries) (hl : plan.leadsTo w entry.1 l) :
    plan.bodiesAt w l entries = [render entry.2] := by
  have hbody := mem_bodiesAt_iff.mpr ⟨entry, hentry, hl, rfl⟩
  cases hbodies : plan.bodiesAt w l entries with
  | nil => simp [hbodies] at hbody
  | cons first rest =>
    rw [hbodies, List.length_cons] at h
    obtain rfl : rest = [] := List.eq_nil_of_length_eq_zero (by omega)
    rw [hbodies] at hbody
    rw [List.mem_singleton.mp hbody]

-- What a README holds after a flush, in any order: what it held, or what its body leaves.
theorem Flushes.bytes?_cases {result : Except FileError (List Outcome)} (hopen : s.LogIsOpen)
    (hlog : s.logFile? ≠ some l) (hbefore : s.world.tree.bytes? l = some before)
    (hone : (plan.bodiesAt s.world l (plan.selected f)).length ≤ 1)
    (h : Flushes plan s f s' result) :
    s'.world.tree.bytes? l = some before ∨
      ∃ body, plan.bodiesAt s.world l (plan.selected f) = [body] ∧
        s'.world.tree.bytes? l = some (left (plan.isStill s.world l) before body) := by
  obtain ⟨schedule, rfl, hresult⟩ := h
  have hwrites := launchAnd_writes hopen plan f schedule
  by_cases hsome : ∃ entry ∈ plan.selected f, plan.leadsTo s.world entry.1 l
  · obtain ⟨entry, hentry, hl⟩ := hsome
    have hmem := hentry
    rw [← entries_launchAnd plan s f schedule] at hmem
    obtain ⟨task, htask, rfl⟩ := List.mem_map.mp hmem
    have hstands := launchAnd_stands hopen (· = l) (fun m hm => hm ▸ hlog)
      (Plan.ownAt_of_length_bodiesAt hone) schedule task htask
      fun m hm => Except.ok.inj (hm.symm.trans hl)
    have hread := World.readBytes_eq_ok_iff.mpr ⟨l, hl, Tree.bytes?_eq_some_iff.mp hbefore⟩
    have hthere {bytes : Utf8.Bytes}
        (h : (launchAnd plan s f schedule).session.world.readBytes
          (plan.destination task.entry.1) = .ok bytes) :
        (launchAnd plan s f schedule).session.world.tree.bytes? l = some bytes := by
      obtain ⟨m, hm, hf⟩ := World.readBytes_eq_ok_iff.mp h
      rw [hwrites.world.locate_eq] at hm
      obtain rfl : l = m := Except.ok.inj (hl.symm.trans hm)
      exact Tree.bytes?_eq_some_iff.mpr hf
    rcases hstands.of_isOver (isOver_of_result? hresult task htask) with hkept | hleft
    · exact .inl (hthere (hkept.trans hread))
    · refine .inr ⟨_, Plan.bodiesAt_of_length hone hentry hl, hthere (hleft.trans ?_)⟩
      rw [Plan.leftIn, hread, Plan.isLocked_of_leadsTo hl, Plan.isStill_eq]
      rfl
  · refine .inl ?_
    rw [hwrites.world.bytes?_eq (not_or_intro hlog ?_), hbefore]
    rintro ⟨entry, hentry, hl⟩
    exact hsome ⟨entry, hentry, hl.2⟩

theorem Flushes.isWhole {result : Except FileError (List Outcome)} (hopen : s.LogIsOpen)
    (hlog : s.logFile? ≠ some l) (hbefore : s.world.tree.bytes? l = some before)
    (hdry : plan.dryRun = false)
    (hone : (plan.bodiesAt s.world l (plan.selected f)).length ≤ 1)
    (h : Flushes plan s f s' result) :
    ∃ after, s'.world.tree.bytes? l = some after ∧
      StaysWhole (l ∈ s.world.locked) (plan.bodiesAt s.world l (plan.selected f)) before after := by
  rcases h.bytes?_cases hopen hlog hbefore hone with hkept | ⟨body, hbodies, hleft⟩
  · exact ⟨before, hkept, fun _ => .inl rfl, fun _ => .inl rfl⟩
  · rw [Plan.isStill_eq, hdry, Bool.false_or] at hleft
    refine ⟨_, hleft, fun hnot => ?_, fun hemptied => .inr ?_⟩
    · rw [hbodies] at hnot ⊢
      exact isWhole_left (storable_of_not_isEmptied hnot body (List.mem_singleton_self body))
    · rw [hbodies] at hemptied
      exact left_of_isEmptied hemptied

-- A flush or a run that may write keeps the README of one component whole unless a body empties it.
theorem readme_whole_unless_emptied (hopen : s.LogIsOpen) (hlog : s.logFile? ≠ some l)
    (hbefore : s.world.tree.bytes? l = some before) :
    (∀ (plan : Plan) (f : Fragments) (s' : Session) (result : Except FileError (List Outcome)),
      plan.dryRun = false → (plan.bodiesAt s.world l (plan.selected f)).length ≤ 1 →
      Flushes plan s f s' result → ∃ after, s'.world.tree.bytes? l = some after ∧
        StaysWhole (l ∈ s.world.locked) (plan.bodiesAt s.world l (plan.selected f)) before after) ∧
    (∀ (request : Run.Request) (s' : Session) (result : Except Run.Error Run.Report),
      request.dryRun = false → (Run.bodiesAt s request l).length ≤ 1 →
      Run.Goes s request s' result → ∃ after, s'.world.tree.bytes? l = some after ∧
        StaysWhole (l ∈ s.world.locked) (Run.bodiesAt s request l) before after) := by
  constructor
  · intro plan f s' result hdry hone h
    exact h.isWhole hopen hlog hbefore hdry hone
  · intro request s' result hdry hone h
    rw [Run.Goes] at h
    rw [Run.bodiesAt] at hone ⊢
    rcases Run.run_cases hopen request with ⟨hstage, hrun⟩ | ⟨stage, hstage, htouches, hreal, -⟩
    · rw [hstage] at h
      obtain rfl : (run s request).1 = s' := congrArg Prod.fst h
      refine ⟨before, ?_, fun _ => .inl rfl, fun _ => .inl rfl⟩
      rw [hrun.world.bytes?_eq (Session.untouched hlog), hbefore]
    · rw [hstage] at h
      simp only [hstage] at hone ⊢
      obtain ⟨flushed, hflushes, -⟩ := h
      have hsame := htouches.world
      rw [← Plan.bodiesAt_congr hsame] at hone
      have hwhole := hflushes.isWhole (htouches.logIsOpen hopen)
        (by rwa [htouches.logFile?_eq])
        ((hsame.bytes?_eq (Session.untouched hlog)).trans hbefore) (hreal.trans hdry) hone
      rwa [Plan.bodiesAt_congr hsame, hsame.locked] at hwhole

-- A drawer's README takes in all of a body without surrogates.
theorem readme_whole_of_drawer :
    let plan : Plan := ⟨defaultPackages, defaultFilter, false⟩
    let before := Utf8.bytesOf
      "<!-- docgen-tsdoc-replacer:start -->\nold\n<!-- docgen-tsdoc-replacer:end -->".toList
    let s : Session := .start (packagesHolding [(defaultFilter, before)]) []
    let f : Fragments := ⟨[(defaultFilter, ["new"])]⟩
    let l := World.locationOf (plan.destination defaultFilter)
    ∃ after, (flush plan s f).1.world.tree.bytes? l = some after ∧
      IsWhole (plan.bodiesAt s.world l (plan.selected f)) before after := by
  intro plan before s f l
  have hopen : s.LogIsOpen := Session.start_logIsOpen _ _
  have hlog : s.logFile? ≠ some l := by
    rw [show s.logFile? = none from rfl]
    simp
  have hbefore : s.world.tree.bytes? l = some before := by decide +kernel
  have hbodies : plan.bodiesAt s.world l (plan.selected f) = [Text.ofString "new"] := by
    decide +kernel
  obtain ⟨after, hafter, hwhole⟩ :=
    (readme_whole_unless_emptied hopen hlog hbefore).1 plan f _ _ rfl (by simp [hbodies])
      (flush_flushes plan s f)
  refine ⟨after, hafter, hwhole.whole ?_⟩
  rw [hbodies]
  rintro ⟨-, chars, -, -, body, hbody, p, hp, hsurrogate⟩
  obtain rfl := List.mem_singleton.mp hbody
  have hclean : ∀ p ∈ Text.ofString "new", p.isSurrogate = false := by decide
  rw [hclean p hp] at hsurrogate
  simp at hsurrogate

-- A module name with a surrogate, written as an escape in the document, empties a README.
theorem run_empties_readme_of_surrogate :
    let request : Run.Request := ⟨".", [], false⟩
    let before := Utf8.bytesOf
      "<!-- docgen-tsdoc-replacer:start -->\nstale\n<!-- docgen-tsdoc-replacer:end -->\n".toList
    let document := Utf8.bytesOf
      ("\x7b\"children\": [\x7b\"name\": \"mdc-drawer\", \"children\": " ++
        "[\x7b\"name\": \"MDC\\ud800\"\x7d]\x7d]\x7d").toList
    let s : Session := .start ((packagesHolding [(defaultFilter, before)]).setFile
      (World.locationOf (.ofText "jsDoc.json")) document) []
    let l := World.locationOf ((defaultPackages.child defaultFilter).child readmeName)
    s.world.tree.bytes? l = some before ∧
      (run s request).1.world.tree.bytes? l = some [] ∧
      ¬IsWhole (Run.bodiesAt s request l) before [] := by
  intro request before document s l
  have hbodies : (Run.bodiesAt s request l).any (·.any CodePoint.isSurrogate) = true := by
    decide +kernel
  refine ⟨by decide +kernel, by decide +kernel, ?_⟩
  have hemptied : IsEmptied false (Run.bodiesAt s request l) before :=
    ⟨rfl, _, Utf8.decode_bytesOf _, by decide +kernel, by simpa using hbodies⟩
  exact not_isWhole_nil hemptied

end ReadmeTables.Patch
