import ReadmeTables.Proofs.Failing
import ReadmeTables.Proofs.Patch.Whole
/-!
What a flush can fail with.

What the system refuses is noted with its component. Main statement: a flush, in any order of its
tasks, fails exactly if one of its components finds a path that is no name for the system, or a
README that would take in a body with a surrogate.
-/

namespace ReadmeTables.Patch

variable {s : Session} {plan : Plan} {e : FileError}

-- What is noted with a component is no error of the flush.
theorem Plan.isNoted_of_verdict {key body : Text} {locked : Bool}
    {former : Except FileError Utf8.Bytes} (h : plan.verdict key body locked former = .error e) :
    isNoted e = false := by
  cases former with
  | error found =>
    cases found with
    | refused refusal shown => simp [verdict] at h
    | nullByte =>
      obtain rfl := Except.error.inj h
      rfl
    | unencodable found =>
      obtain rfl := Except.error.inj h
      rfl
  | ok bytes =>
    cases hdecode : Utf8.decode bytes with
    | error found => simp [verdict, hdecode] at h
    | ok chars =>
      simp only [verdict, hdecode, written] at h
      split at h
      · simp at h
      · split at h
        · simp at h
        · split at h
          · simp at h
          · obtain rfl := Except.error.inj h
            rfl

-- The results of components, each as it is told when its turn comes.
theorem mem_components_iff (hopen : s.LogIsOpen) (plan : Plan) {entries : List (Text × List Text)}
    {result : Except FileError Outcome} :
    result ∈ (components plan s entries).2 ↔
      ∃ before entry after, entries = before ++ entry :: after ∧
        plan.outcomeIn (components plan s before).1.world entry = result := by
  induction entries generalizing s with
  | nil => simp [components]
  | cons first rest ih =>
    have hstep := component_touches hopen plan first.1 (Plan.render first.2)
    have hfirst : (component plan s first.1 (Plan.render first.2)).2 =
        plan.outcomeIn s.world first := component_snd hopen plan first.1 _
    rw [components, List.mem_cons, hfirst, ih (hstep.logIsOpen hopen)]
    constructor
    · rintro (rfl | ⟨before, entry, after, rfl, hresult⟩)
      · exact ⟨[], first, rest, rfl, rfl⟩
      · exact ⟨first :: before, entry, after, rfl, hresult⟩
    · rintro ⟨before, entry, after, hsplit, hresult⟩
      rcases List.cons_eq_append_iff.mp hsplit with ⟨rfl, hhead⟩ | ⟨earlier, rfl, rfl⟩
      · obtain ⟨rfl, rfl⟩ := List.cons.inj hhead
        exact .inl hresult.symm
      · exact .inr ⟨earlier, entry, after, rfl, hresult⟩

theorem mem_of_gather_eq_error {results : List (Except FileError Outcome)}
    (h : gather results = .error e) : .error e ∈ results := by
  induction results with
  | nil => simp [gather] at h
  | cons result rest ih =>
    cases result with
    | error found =>
      obtain rfl := Except.error.inj h
      exact List.mem_cons_self
    | ok outcome => exact List.mem_cons_of_mem _ (ih (Failing.map_eq_error_iff.mp h))

theorem isNoted_of_flush (hopen : s.LogIsOpen) {f : Fragments}
    (h : (flush plan s f).2 = .error e) : isNoted e = false := by
  obtain ⟨before, entry, after, -, hentry⟩ :=
    (mem_components_iff ((opened_touches hopen plan f).logIsOpen hopen) plan).mp
      (mem_of_gather_eq_error h)
  exact Plan.isNoted_of_verdict hentry

-- A component that fails: its path is no name for the system, or its README may be written, has a
-- region, and would take in a body with a surrogate.
inductive Plan.Rejects (plan : Plan) (w : World) (entry : Text × List Text) : Prop where
  | path {error : FileError} (h : w.readBytes (plan.destination entry.1) = .error error)
      (hname : isNoted error = false)
  | text {l : Location} {bytes : Utf8.Bytes} (hl : plan.leadsTo w entry.1 l)
      (hf : w.tree.get? l = some (.file bytes))
      (h : IsEmptied (plan.isStill w l) [Plan.render entry.2] bytes)

theorem storable_iff_not_isEmptied {still : Bool} {bytes : Utf8.Bytes} {body : Text} :
    Storable still bytes body ↔ ¬IsEmptied still [body] bytes := by
  constructor
  · rintro (rfl | hstorable) ⟨hwritten, chars, hchars, hregion, found, hfound, p, hp, hsurrogate⟩
    · simp at hwritten
    · obtain rfl := List.mem_singleton.mp hfound
      have hclean := exists_revised_iff.mp (hstorable chars hchars) hregion p hp
      simp [hclean] at hsurrogate
  · exact fun h => storable_of_not_isEmptied h body (List.mem_singleton_self body)

theorem Plan.not_accepts_iff_rejects {w : World} {entry : Text × List Text} :
    ¬plan.Accepts w entry ↔ plan.Rejects w entry := by
  cases hread : w.readBytes (plan.destination entry.1) with
  | ok bytes =>
    obtain ⟨l, hl, hf⟩ := World.readBytes_eq_ok_iff.mp hread
    rw [accepts_of_file hl hf, storable_iff_not_isEmptied, not_not]
    constructor
    · exact fun h => .text hl hf h
    · rintro (⟨h, -⟩ | ⟨hl', hf', h⟩)
      · simp [hread] at h
      · obtain rfl := Except.ok.inj (hl.symm.trans hl')
        obtain rfl : bytes = _ := by simpa [hf] using hf'
        exact h
  | error error =>
    have hverdict : plan.Accepts w entry ↔ isNoted error = true := by
      rw [Accepts, outcomeIn, hread]
      cases error <;> simp [verdict, isNoted]
    rw [hverdict, Bool.not_eq_true]
    constructor
    · exact fun h => .path hread h
    · rintro (⟨h, hname⟩ | ⟨hl, hf, -⟩)
      · obtain rfl := Except.error.inj (hread.symm.trans h)
        exact hname
      · rw [World.readBytes_eq_ok_iff.mpr ⟨_, hl, hf⟩] at hread
        simp at hread

-- Where each component has its own README, the order of the tasks does not decide whether a flush
-- fails.
theorem Flushes.exists_error_iff {s' : Session} {f : Fragments}
    {result : Except FileError (List Outcome)} (hopen : s.LogIsOpen)
    (happart : plan.LogsApart s (plan.selected f))
    (hown : plan.HaveOwnReadmes s.world (plan.selected f)) (h : Flushes plan s f s' result) :
    (∃ e, result = .error e) ↔ ∃ entry ∈ plan.selected f, plan.Rejects s.world entry := by
  obtain ⟨schedule, -, hresult⟩ := h
  have hfails : (∃ e, result = .error e) ↔ ¬∃ outcomes, result = .ok outcomes := by
    cases result <;> simp
  rw [hfails, launchAnd_ok_iff hopen happart hown hresult]
  simp only [← Plan.not_accepts_iff_rejects, not_forall, exists_prop]

end ReadmeTables.Patch
