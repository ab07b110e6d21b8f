import Chip8.Proofs.Layouts

/-!
# The scan for the fields of a pattern

The fields of a pattern are found in one scan from left to right, in which two loops are nested: the
outer one passes over a fixed digit or a whole run, the inner one measures the run.  `Scan` has a
state for every point at which one of the loops can stand, and `layout_exact` says that the scan
ends with the layout of the pattern, whatever the pattern is, and what this layout is.

* `Scan.Sound` is the invariant.  It does not say what has been found but that together with what
  is still ahead it comes to all fields; this does not change in any step.
* `Scan.remaining` is the measure.  It counts two for each character, because the last step of a
  run reads no new one.
* `Scan.Sound.next` is the step, and `Scan.Sound.exists_end` the run.
-/

namespace Chip8.Pattern

open Text

/-! ## The scan -/

/-- **Where a scan of a pattern stands.**  It looks at a place, has measured so many characters of
    the run that begins there (none if it has not begun to), and has found the fields before. -/
structure Scan where
  place : Nat
  measured : Nat
  found : Layout

namespace Scan

/-- A scan begins at the left end with nothing found. -/
def start : Scan := ⟨0, 0, []⟩

/-- **One step of a scan.**  A fixed digit is passed over.  Any other character begins a run, which
    is measured until another character or the end follows; then its field is put down, and the scan
    goes on behind the run.  There is no step at the end of the pattern. -/
def next (cs : List Char) (s : Scan) : Option Scan :=
  match cs[s.place]? with
  | none => none
  | some c =>
    if s.measured = 0 then
      if isFixed c then some { s with place := s.place + 1 } else some { s with measured := 1 }
    else if cs[s.place + s.measured]? = some c then some { s with measured := s.measured + 1 }
    else some {
      place := s.place + s.measured
      measured := 0
      found := s.found.put (fieldOf c s.measured)
        ⟨4 * (cs.length - (s.place + s.measured)), 4 * s.measured⟩ }

/-- So many steps of a scan. -/
def after (cs : List Char) : Nat → Scan → Option Scan
  | 0, s => some s
  | steps + 1, s => (s.next cs).bind (after cs steps)

/-- **The invariant of a scan:** what has been measured are equal characters that are no fixed
    digits, and the fields found so far with those of the rest of the pattern are all its fields. -/
structure Sound (cs : List Char) (s : Scan) : Prop where
  measured : s.measured ≠ 0 → ∃ c, isFixed c = false ∧
    cs.drop s.place = List.replicate s.measured c ++ cs.drop (s.place + s.measured)
  pending : layoutRuns s.found (runs (cs.drop s.place)) = layoutRuns [] (runs cs)

/-- A bound on the steps that are left: two for each character that has not been passed or
    measured, and one to put a field down. -/
def remaining (cs : List Char) (s : Scan) : Nat :=
  2 * (cs.length - (s.place + s.measured)) + min s.measured 1

variable {cs : List Char} {s t : Scan}

lemma sound_start (cs : List Char) : start.Sound cs := ⟨fun h => absurd rfl h, by simp [start]⟩

/-- A fixed digit in front adds no field. -/
lemma layoutRuns_fixed {c : Char} (hc : isFixed c = true) (found : Layout) (cs : List Char) :
    layoutRuns found (runs (c :: cs)) = layoutRuns found (runs cs) := by
  rw [runs]
  split
  · next hnil => simp [hnil, layoutRuns, hc]
  · next d len more hcons =>
      rw [hcons]
      split_ifs with hcd
      · simp [← hcd, layoutRuns, hc]
      · simp [layoutRuns, hc]

/-- A whole run in front adds its field. -/
lemma layoutRuns_run {c : Char} (hc : isFixed c = false) {len : Nat} (hlen : len ≠ 0)
    {behind : List Char} (hbehind : ∀ d ∈ behind.head?, d ≠ c) (found : Layout) :
    layoutRuns found (runs (List.replicate len c ++ behind)) =
      layoutRuns (found.put (fieldOf c len) ⟨4 * behind.length, 4 * len⟩) (runs behind) := by
  obtain ⟨len, rfl⟩ := Nat.exists_eq_succ_of_ne_zero hlen
  rw [Nat.succ_eq_add_one, runs_replicate_append hbehind, layoutRuns, runsLength_runs]
  simp [hc]

lemma drop_eq_cons {place : Nat} {c : Char} (h : cs[place]? = some c) :
    cs.drop place = c :: cs.drop (place + 1) := by
  obtain ⟨hlt, hget⟩ := List.getElem?_eq_some_iff.mp h
  rw [List.drop_eq_getElem_cons hlt, hget]

/-- The run that is being measured is one of the character at the place of the scan. -/
lemma Sound.run_eq (h : s.Sound cs) (hne : s.measured ≠ 0) {c : Char}
    (hc : cs[s.place]? = some c) :
    isFixed c = false ∧
      cs.drop s.place = List.replicate s.measured c ++ cs.drop (s.place + s.measured) := by
  obtain ⟨d, hd, hrun⟩ := h.measured hne
  obtain ⟨len, hlen⟩ := Nat.exists_eq_succ_of_ne_zero hne
  have hcd : c = d := by
    have hhead := congrArg List.head? hrun
    simpa [drop_eq_cons hc, hlen, List.replicate_succ] using hhead
  exact ⟨hcd ▸ hd, hcd ▸ hrun⟩

/-- **A step keeps the invariant and comes closer to the end.** -/
theorem Sound.next (h : s.Sound cs) (hstep : s.next cs = some t) :
    t.Sound cs ∧ t.remaining cs < s.remaining cs := by
  rw [Scan.next] at hstep
  split at hstep
  · cases hstep
  · next c hc =>
      have hlt : s.place < cs.length := (List.getElem?_eq_some_iff.mp hc).1
      split_ifs at hstep with hzero hfixed hmore
      · -- A fixed digit is passed over.
        obtain rfl := Option.some.inj hstep
        refine ⟨⟨fun hne => absurd hzero hne, ?_⟩, ?_⟩
        · rw [← h.pending, drop_eq_cons hc, layoutRuns_fixed hfixed]
        · simp only [remaining]
          omega
      · -- A run begins.
        obtain rfl := Option.some.inj hstep
        refine ⟨⟨fun _ => ⟨c, by simpa using hfixed, drop_eq_cons hc⟩, h.pending⟩, ?_⟩
        simp only [remaining]
        omega
      · -- The run goes on.
        obtain rfl := Option.some.inj hstep
        obtain ⟨hc', hrun⟩ := h.run_eq hzero hc
        have hlt' := (List.getElem?_eq_some_iff.mp hmore).1
        refine ⟨⟨fun _ => ⟨c, hc', ?_⟩, h.pending⟩, ?_⟩
        · rw [hrun, drop_eq_cons hmore, List.replicate_succ', List.append_assoc]
          rfl
        · simp only [remaining]
          omega
      · -- The run ends, and its field is put down.
        obtain rfl := Option.some.inj hstep
        obtain ⟨hc', hrun⟩ := h.run_eq hzero hc
        have hends : ∀ d ∈ (cs.drop (s.place + s.measured)).head?, d ≠ c := by
          rintro d hd rfl
          rw [List.head?_drop] at hd
          exact hmore hd
        refine ⟨⟨fun hne => absurd rfl hne, ?_⟩, ?_⟩
        · rw [← h.pending, hrun, layoutRuns_run hc' hzero hends, List.length_drop]
        · simp only [remaining]
          omega

/-- At the end everything has been found. -/
lemma Sound.found_eq (h : s.Sound cs) (hend : s.next cs = none) :
    s.found = layoutRuns [] (runs cs) := by
  have hplace : cs[s.place]? = none := by
    rw [Scan.next] at hend
    split at hend
    · assumption
    · split_ifs at hend
  have hdrop : cs.drop s.place = [] := by simpa using hplace
  have hpending := h.pending
  rwa [hdrop] at hpending

/-- **A scan comes to its end,** after as many steps as remain at most. -/
theorem Sound.exists_end (h : s.Sound cs) :
    ∃ steps ≤ s.remaining cs, ∃ t, after cs steps s = some t ∧ t.next cs = none ∧ t.Sound cs := by
  induction hn : s.remaining cs using Nat.strongRecOn generalizing s with
  | ind n ih =>
      cases hstep : s.next cs with
      | none => exact ⟨0, Nat.zero_le _, s, rfl, hstep, h⟩
      | some s' =>
          obtain ⟨hsound, hless⟩ := h.next hstep
          obtain ⟨steps, hle, t, hafter, hend, ht⟩ := ih _ (hn ▸ hless) hsound rfl
          exact ⟨steps + 1, by omega, t, by simp [after, hstep, hafter], hend, ht⟩

end Scan

/-! ## Layouts -/

/-- **What a layout is for a pattern.** -/
structure LaidOut (pattern : String) (layout : Layout) : Prop where
  /-- The scan comes to an end, and these are the fields that it has found. -/
  scanned : ∃ steps ≤ 2 * pattern.toList.length, ∃ s,
    Scan.after pattern.toList steps Scan.start = some s ∧ s.next pattern.toList = none ∧
      s.found = layout
  /-- Every name has one place. -/
  distinct : (layout.map Prod.fst).Nodup
  /-- It is the place of the last maximal run of that name. -/
  mem_iff : ∀ field span, (field, span) ∈ layout ↔
    ∃ e, IsFieldRun pattern.toList field e ∧ e.span = span ∧
      ∀ f, IsFieldRun pattern.toList field f → e.behind.length ≤ f.behind.length
  /-- Places of different names have no bits in common. -/
  apart : ∀ p ∈ layout, ∀ q ∈ layout, p.1 ≠ q.1 → Disjoint p.2.bits q.2.bits
  /-- All places lie within the pattern. -/
  within : ∀ p ∈ layout, p.2.bits ⊆ Finset.range (4 * pattern.toList.length)
  /-- No place has bits of a fixed digit. -/
  unfixed : ∀ p ∈ layout, ∀ front c behind, pattern.toList = front ++ c :: behind →
    c ∈ fixedDigits → Disjoint p.2.bits (⟨front, [c], behind⟩ : Excerpt).span.bits

/-- **The fields of any pattern are found in one scan,** of two steps for each character at most.
    Each is the place of a maximal run of one character that is no fixed digit, and of the runs of
    one name the last one counts.  So the places of different names are apart, lie within the
    pattern and keep clear of the fixed digits. -/
theorem layout_exact (pattern : String) : LaidOut pattern (layout pattern) where
  scanned := by
    obtain ⟨steps, hle, s, hafter, hend, hsound⟩ :=
      (Scan.sound_start pattern.toList).exists_end
    exact ⟨steps, by simpa [Scan.remaining, Scan.start] using hle, s, hafter, hend,
      hsound.found_eq hend⟩
  distinct := nodup_layout pattern
  mem_iff := fun _ _ => mem_layout_iff
  apart := fun _ hp _ hq => disjoint_bits hp hq
  within := fun _ hp => bits_subset hp
  unfixed := fun _ hp _ _ _ hcs hc => disjoint_bits_fixed hp hcs hc

/-- Of the three runs two have one name, which keeps its turn and gets the place of the second. -/
example : layout "xA-kkx" = [(.x, ⟨0, 4⟩), (.n, ⟨12, 4⟩), (.kk, ⟨4, 8⟩)] := by decide

end Chip8.Pattern
