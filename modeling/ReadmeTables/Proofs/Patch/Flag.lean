import ReadmeTables.Proofs.Patch.Own
/-!
What the flag of an outcome says about the bytes of its README.

The flag compares a new text with the text that was read, whose line ends were made equal, so
carriage returns are where it and the bytes part. Main statement: for each component with a
README of its own, exactly when the flag is set if and only if the bytes became others, and
when a second flush sets it again.
-/

namespace ReadmeTables.Patch

variable {plan : Plan} {w : World} {entry : Text × List Text} {outcome : Outcome}

-- A body alters a README if it makes another text of the one that is read.
def Alters (bytes : Utf8.Bytes) (body : Text) : Prop :=
  ∃ chars, Utf8.decode bytes = .ok chars ∧
    revised chars body ≠ Text.ofChars (Text.unifyLineEnds chars)

-- A README that has a region for a body with a carriage return.
def KeepsReturn (bytes : Utf8.Bytes) (body : Text) : Prop :=
  ∃ chars, Utf8.decode bytes = .ok chars ∧
    Region.hasRegion (Text.ofChars (Text.unifyLineEnds chars)) = true ∧
    CodePoint.scalar '\r' ∈ body

theorem changed_of_written {blank : Outcome} {locked : Bool} {former updated : Text}
    (h : plan.written blank locked former updated = .ok outcome) :
    outcome.changed = decide (updated ≠ former) := by
  rw [Plan.written] at h
  split at h
  · obtain rfl := Except.ok.inj h
    rfl
  split at h
  · obtain rfl := Except.ok.inj h
    rfl
  split at h
  · obtain rfl := Except.ok.inj h
    rfl
  · simp at h

theorem changed_iff_alters (h : plan.outcomeIn w entry = .ok outcome) :
    outcome.changed = true ↔
      ∃ bytes, w.readBytes (plan.destination entry.1) = .ok bytes ∧
        Alters bytes (Plan.render entry.2) := by
  rcases Plan.outcomeIn_cases h with ⟨refusal, shown, hread, rfl⟩ | ⟨bytes, e, hread, hd, rfl⟩ |
    ⟨bytes, chars, hread, hd, hwritten⟩
  · simp [Plan.blank, hread]
  · simp [Plan.blank, hread, Alters, hd]
  · rw [changed_of_written hwritten]
    simp [hread, Alters, hd]

-- A component that may be written and ends well has a README whose new text has an encoding.
theorem exists_readme_of_isOk (hdry : plan.dryRun = false)
    (h : plan.outcomeIn w entry = .ok outcome) (hok : outcome.isOk = true) :
    ∃ bytes chars cs, w.readBytes (plan.destination entry.1) = .ok bytes ∧
      plan.isLocked w entry.1 = false ∧ Utf8.decode bytes = .ok chars ∧
      revised chars (Plan.render entry.2) = Text.ofChars cs := by
  rcases Plan.outcomeIn_cases h with ⟨refusal, shown, hread, rfl⟩ | ⟨bytes, e, hread, hd, rfl⟩ |
    ⟨bytes, chars, hread, hd, hwritten⟩
  · simp [Outcome.isOk] at hok
  · simp [Outcome.isOk] at hok
  · simp only [Plan.written, hdry, Bool.false_eq_true, if_false] at hwritten
    cases hlocked : plan.isLocked w entry.1 with
    | true =>
      simp only [hlocked, if_true] at hwritten
      obtain rfl := Except.ok.inj hwritten
      simp [Outcome.isOk] at hok
    | false =>
      simp only [hlocked, Bool.false_eq_true, if_false] at hwritten
      cases hencode : Utf8.encode (revised chars (Plan.render entry.2)) with
      | error e => simp [hencode] at hwritten
      | ok written =>
        obtain ⟨cs, hcs, -⟩ := Utf8.encode_eq_ok_iff.mp hencode
        exact ⟨bytes, chars, cs, hread, rfl, hd, hcs⟩

-- Where the text that is compared and the bytes that are kept tell the same.
theorem flag_agrees_iff {chars cs : List Char} {body : Text}
    (hcs : revised chars body = Text.ofChars cs) :
    (revised chars body ≠ Text.ofChars (Text.unifyLineEnds chars) ↔
        Utf8.bytesOf cs ≠ Utf8.bytesOf chars) ↔
      ('\r' ∈ chars → revised chars body ≠ Text.ofChars (Text.unifyLineEnds chars) ∧
        revised chars body ≠ Text.ofChars chars) := by
  have hbytes : Utf8.bytesOf cs ≠ Utf8.bytesOf chars ↔ revised chars body ≠ Text.ofChars chars := by
    rw [hcs]
    constructor
    · rintro h hsame
      exact h (congrArg _ (Text.ofChars_injective hsame))
    · rintro h hsame
      exact h (congrArg _ (Utf8.bytesOf_injective hsame))
  rw [hbytes]
  by_cases hr : '\r' ∈ chars
  · -- the text that was read is not the one that the file holds, so a new text is one at most
    have hparts : Text.ofChars (Text.unifyLineEnds chars) ≠ Text.ofChars chars := fun h =>
      Text.unifyLineEnds_eq_self_iff.mp (Text.ofChars_injective h) hr
    constructor
    · intro hiff _
      by_cases hread : revised chars body = Text.ofChars (Text.unifyLineEnds chars)
      · have hsame := not_not.mp (mt hiff.mpr (not_not.mpr hread))
        exact (hparts (hread.symm.trans hsame)).elim
      · exact ⟨hread, hiff.mp hread⟩
    · intro h
      exact iff_of_true (h hr).1 (h hr).2
  · rw [Text.unifyLineEnds_eq_self hr]
    simp [hr]

theorem revised_of_not_hasRegion {chars : List Char}
    (h : Region.hasRegion (Text.ofChars (Text.unifyLineEnds chars)) = false) (body : Text) :
    revised chars body = Text.ofChars (Text.unifyLineEnds chars) := by
  rw [revised, Region.replace_of_not_hasRegion h]

theorem return_mem_iff {chars cs : List Char} {body : Text}
    (hcs : revised chars body = Text.ofChars cs) :
    '\r' ∈ cs ↔ Region.hasRegion (Text.ofChars (Text.unifyLineEnds chars)) = true ∧
      CodePoint.scalar '\r' ∈ body := by
  have hmem (ds : List Char) : '\r' ∈ ds ↔ CodePoint.scalar '\r' ∈ Text.ofChars ds := by
    simp [Text.ofChars]
  rw [hmem cs, ← hcs]
  cases hregion : Region.inner? (Text.ofChars (Text.unifyLineEnds chars)) with
  | none =>
    have hno := Region.not_hasRegion_of_inner? hregion
    rw [revised_of_not_hasRegion hno, ← hmem, hno]
    simpa using Text.not_mem_unifyLineEnds chars
  | some parts =>
    obtain ⟨inner, final⟩ := parts
    have hfinal := (Region.inner?_eq_some_iff.mp hregion).1
    rw [revised, Region.replace_of_inner? hregion, Region.return_mem_wrap_iff hfinal,
      Region.hasRegion_of_inner? hregion]
    simp

theorem alters_left_iff {still : Bool} {bytes : Utf8.Bytes} {body : Text}
    (h : Storable still bytes body) :
    Alters (left still bytes body) body ↔
      if still = true then Alters bytes body else KeepsReturn bytes body := by
  cases still with
  | true => simp [left_still]
  | false =>
    cases hd : Utf8.decode bytes with
    | error e => simp [left_of_error hd, Alters, KeepsReturn, hd]
    | ok chars =>
      obtain ⟨cs, hcs⟩ := h.resolve_left (by simp) chars hd
      have hagain : revised cs body ≠ Text.ofChars (Text.unifyLineEnds cs) ↔ '\r' ∈ cs := by
        rw [revised_reread hcs, hcs, ne_eq, ← not_not (a := '\r' ∈ cs),
          ← Text.unifyLineEnds_eq_self_iff]
        exact not_congr ⟨fun hsame => (Text.ofChars_injective hsame).symm, fun hsame => by rw [hsame]⟩
      rw [left_of_decode hd, hcs, stored_ofChars]
      simp only [Alters, KeepsReturn, Utf8.decode_bytesOf, hd, Except.ok.injEq, exists_eq_left',
        hagain, return_mem_iff hcs, Bool.false_eq_true, if_false]

section Flush

variable {s s' : Session} {f : Fragments} {outcomes : List Outcome}

theorem flag_of_isOk (hopen : s.LogIsOpen) (hdry : plan.dryRun = false)
    (happart : plan.LogsApart s (plan.selected f))
    (hown : plan.HaveOwnReadmes s.world (plan.selected f)) (hentry : entry ∈ plan.selected f)
    (h : plan.outcomeIn s.world entry = .ok outcome) (hok : outcome.isOk = true) :
    ∃ chars cs, s.world.readBytes (plan.destination entry.1) = .ok (Utf8.bytesOf chars) ∧
      (flush plan s f).1.world.readBytes (plan.destination entry.1) = .ok (Utf8.bytesOf cs) ∧
      revised chars (Plan.render entry.2) = Text.ofChars cs ∧
      outcome.changed = decide (revised chars (Plan.render entry.2) ≠
        Text.ofChars (Text.unifyLineEnds chars)) := by
  obtain ⟨bytes, chars, cs, hread, hlocked, hd, hcs⟩ := exists_readme_of_isOk hdry h hok
  have hafter := flush_readBytes_of_own hopen happart hown hentry
  rw [hread, hdry, hlocked, Except.map, Bool.or_self, left_of_decode hd, hcs, stored_ofChars]
    at hafter
  have hbytes := Utf8.decode_eq_ok_iff.mp hd
  refine ⟨chars, cs, hbytes ▸ hread, hafter, hcs, Bool.eq_iff_iff.mpr ?_⟩
  rw [changed_iff_alters h, hread]
  simp [Alters, hd]

-- A second flush of the same fragments sets a flag for what a body alters again.
theorem flush_again (hopen : s.LogIsOpen) (hdry : plan.dryRun = false)
    (happart : plan.LogsApart s (plan.selected f))
    (hown : plan.HaveOwnReadmes s.world (plan.selected f))
    (hall : ∀ entry ∈ plan.selected f, plan.Accepts s.world entry) :
    ∃ s'' again, flush plan (flush plan s f).1 f = (s'', .ok again) ∧
      List.Forall₂ (fun entry outcome => outcome.changed = true ↔
          ∃ before, s.world.readBytes (plan.destination entry.1) = .ok before ∧
            if plan.isLocked s.world entry.1 = true then Alters before (Plan.render entry.2)
            else KeepsReturn before (Plan.render entry.2))
        (plan.selected f) again := by
  have htouches := flush_touches hopen plan f
  have hopen' := htouches.logIsOpen hopen
  have happart' := happart.of_touches htouches
  have hall' : ∀ entry ∈ plan.selected f, plan.Accepts (flush plan s f).1.world entry :=
    fun entry hentry => ((flush_hasFlushed hopen plan hall).accepts_iff (happart entry hentry)).mpr
      (hall entry hentry)
  obtain ⟨s'', again, hagain⟩ := (exists_flush_iff hopen' plan f happart').mpr hall'
  refine ⟨s'', again, hagain, ?_⟩
  have honeByOne := flush_outcomes hopen' happart' (hown.of_sameBut htouches.world) hagain
  refine ((List.forall₂_and_left _ _).mpr ⟨fun _ hentry => hentry, honeByOne⟩).imp ?_
  rintro entry outcome ⟨hentry, houtcome⟩
  rw [changed_iff_alters houtcome, flush_readBytes_of_own hopen happart hown hentry, hdry,
    Bool.false_or]
  cases hread : s.world.readBytes (plan.destination entry.1) with
  | error e => simp [Except.map]
  | ok before =>
    obtain ⟨l, hl, hf⟩ := World.readBytes_eq_ok_iff.mp hread
    have hstorable : Storable (plan.isLocked s.world entry.1) before (Plan.render entry.2) := by
      have hstill := (Plan.accepts_of_file hl hf).mp (hall entry hentry)
      rwa [Plan.isStill_eq, hdry, Bool.false_or, ← Plan.isLocked_of_leadsTo hl] at hstill
    simp only [Except.map, Except.ok.injEq, exists_eq_left', alters_left_iff hstorable]

end Flush

-- Where a flag tells whether the bytes of a README became others: its text had no carriage
-- returns, or the new text is neither the one that was read nor the one that the file held.
theorem changed_flag_exact {s s' : Session} {f : Fragments} {outcomes : List Outcome}
    (hopen : s.LogIsOpen) (hdry : plan.dryRun = false)
    (happart : plan.LogsApart s (plan.selected f))
    (hown : plan.HaveOwnReadmes s.world (plan.selected f))
    (hflush : flush plan s f = (s', .ok outcomes)) :
    List.Forall₂ (fun entry outcome => outcome.isOk = true →
        ∃ before after chars, s.world.readBytes (plan.destination entry.1) = .ok before ∧
          s'.world.readBytes (plan.destination entry.1) = .ok after ∧
          Utf8.decode before = .ok chars ∧
          ((outcome.changed = true ↔ after ≠ before) ↔
            ('\r' ∈ chars →
              revised chars (Plan.render entry.2) ≠ Text.ofChars (Text.unifyLineEnds chars) ∧
              revised chars (Plan.render entry.2) ≠ Text.ofChars chars)) ∧
          (Region.hasRegion (Text.ofChars (Text.unifyLineEnds chars)) = false →
            outcome.changed = false ∧ (after = before ↔ '\r' ∉ chars)))
      (plan.selected f) outcomes ∧
    ∃ s'' again, flush plan s' f = (s'', .ok again) ∧
      List.Forall₂ (fun entry outcome => outcome.changed = true ↔
          ∃ before, s.world.readBytes (plan.destination entry.1) = .ok before ∧
            if plan.isLocked s.world entry.1 = true then Alters before (Plan.render entry.2)
            else KeepsReturn before (Plan.render entry.2))
        (plan.selected f) again := by
  obtain rfl : (flush plan s f).1 = s' := congrArg Prod.fst hflush
  have hall := (exists_flush_iff hopen plan f happart).mp ⟨_, _, hflush⟩
  refine ⟨?_, flush_again hopen hdry happart hown hall⟩
  have honeByOne := flush_outcomes hopen happart hown hflush
  refine ((List.forall₂_and_left _ _).mpr ⟨fun _ hentry => hentry, honeByOne⟩).imp ?_
  rintro entry outcome ⟨hentry, houtcome⟩ hok
  obtain ⟨chars, cs, hbefore, hafter, hcs, hchanged⟩ :=
    flag_of_isOk hopen hdry happart hown hentry houtcome hok
  refine ⟨_, _, chars, hbefore, hafter, Utf8.decode_bytesOf chars, ?_, fun hno => ?_⟩
  · rw [hchanged, decide_eq_true_iff]
    exact flag_agrees_iff hcs
  · have hsame := revised_of_not_hasRegion hno (Plan.render entry.2)
    obtain rfl := Text.ofChars_injective (hsame.symm.trans hcs)
    refine ⟨by simp [hchanged, hsame], ?_⟩
    rw [← Text.unifyLineEnds_eq_self_iff]
    exact ⟨fun h => Utf8.bytesOf_injective h, fun h => by rw [h]⟩

-- A drawer's README with line feeds only gets a new body and tells so.
theorem changed_flag_exact_of_drawer :
    let plan : Plan := ⟨defaultPackages, defaultFilter, false⟩
    let chars :=
      "<!-- docgen-tsdoc-replacer:start -->\nold\n<!-- docgen-tsdoc-replacer:end -->".toList
    let s : Session := .start (packagesHolding [(defaultFilter, Utf8.bytesOf chars)]) []
    let f : Fragments := ⟨[(defaultFilter, ["new"])]⟩
    let outcome : Outcome := { plan.blank defaultFilter with changed := true }
    ∃ s', flush plan s f = (s', .ok [outcome]) ∧
      ∃ before after, s.world.readBytes (plan.destination defaultFilter) = .ok before ∧
        s'.world.readBytes (plan.destination defaultFilter) = .ok after ∧
        (outcome.changed = true ↔ after ≠ before) := by
  intro plan chars s f outcome
  have hopen : s.LogIsOpen := Session.start_logIsOpen _ _
  have happart : plan.LogsApart s (plan.selected f) := Plan.logsApart_of_logFile?_eq_none rfl _
  have hselected : plan.selected f = f.entries := by decide
  have hown : plan.HaveOwnReadmes s.world (plan.selected f) := by
    rw [hselected]
    exact List.pairwise_singleton _ _
  have hread : s.world.readBytes (plan.destination defaultFilter) = .ok (Utf8.bytesOf chars) := by
    decide +kernel
  have houtcomes : (flush plan s f).2 = .ok [outcome] := by decide +kernel
  have hflush : flush plan s f = ((flush plan s f).1, .ok [outcome]) := by rw [← houtcomes]
  obtain ⟨hflags, -⟩ := changed_flag_exact hopen rfl happart hown hflush
  rw [hselected, List.forall₂_cons] at hflags
  obtain ⟨before, after, found, hbefore, hafter, hfound, hflag, -⟩ := hflags.1 rfl
  refine ⟨_, hflush, before, after, hbefore, hafter, hflag.mpr ?_⟩
  obtain rfl := Except.ok.inj (hread.symm.trans hbefore)
  obtain rfl := Except.ok.inj ((Utf8.decode_bytesOf chars).symm.trans hfound)
  have hreturn : '\r' ∉ chars := by decide
  exact fun h => (hreturn h).elim

-- A README without a region loses its carriage returns, and the flag says that it is the same.
theorem flush_drops_return_unflagged :
    let plan : Plan := ⟨defaultPackages, defaultFilter, false⟩
    let s : Session :=
      .start (packagesHolding [(defaultFilter, Utf8.bytesOf ['a', '\r', '\n'])]) []
    let f : Fragments := ⟨[(defaultFilter, ["new"])]⟩
    ∃ s', flush plan s f = (s', .ok [plan.blank defaultFilter]) ∧
      (plan.blank defaultFilter).isOk = true ∧ (plan.blank defaultFilter).changed = false ∧
      s.world.readBytes (plan.destination defaultFilter) = .ok (Utf8.bytesOf ['a', '\r', '\n']) ∧
      s'.world.readBytes (plan.destination defaultFilter) = .ok (Utf8.bytesOf ['a', '\n']) := by
  intro plan s f
  have houtcomes : (flush plan s f).2 = .ok [plan.blank defaultFilter] := by decide +kernel
  have hafter : (flush plan s f).1.world.readBytes (plan.destination defaultFilter) =
      .ok (Utf8.bytesOf ['a', '\n']) := by decide +kernel
  exact ⟨_, by rw [← houtcomes], rfl, rfl, by decide +kernel, hafter⟩

end ReadmeTables.Patch
