import Mathlib.Tactic.Common

/-!
# Maximal runs of a text

Lines are cut into tokens, which are runs of characters that are no separators, and patterns into
fields, which are runs of one character.  This file says what a maximal run is without saying how
a text is cut.

* `Excerpt` is a part of a text together with what stands in front of it and behind it.  The same
  characters at two places are two excerpts.
* `Excerpt.IsRun` holds of the excerpts that have characters of some class only and that no
  neighbouring character of the class could be added to.
* `isRun_gap_iff` and `isRun_body_iff` take a text apart from the left.  A gap has no runs in it,
  and what stands in front of a gap is one run.  The inductions over tokens and over fields both
  rest on these two.
-/

namespace Chip8.Text

/-- **An excerpt of a text,** with what stands in front of it and behind it. -/
structure Excerpt where
  front : List Char
  body : List Char
  behind : List Char

namespace Excerpt

/-- The same excerpt in a text that has something more in front. -/
def after (e : Excerpt) (more : List Char) : Excerpt := { e with front := more ++ e.front }

/-- **A maximal run of a class in a text.** -/
structure IsRun (p : Char → Bool) (cs : List Char) (e : Excerpt) : Prop where
  text : e.front ++ (e.body ++ e.behind) = cs
  nonempty : e.body ≠ []
  inside : ∀ c ∈ e.body, p c = true
  left : ∀ c ∈ e.front.getLast?, p c = false
  right : ∀ c ∈ e.behind.head?, p c = false

section IsRun

variable {p : Char → Bool} {e : Excerpt}

lemma IsRun.exists_head {cs : List Char} (h : e.IsRun p cs) :
    ∃ c rest, e.body = c :: rest ∧ p c ≠ false := by
  obtain ⟨c, rest, hbody⟩ := List.exists_cons_of_ne_nil h.nonempty
  have hc := h.inside c (by simp [hbody])
  exact ⟨c, rest, hbody, by simp [hc]⟩

/-- Where a class ends, a text is split in one way only. -/
lemma split_unique {xs ys us vs : List Char} (hxs : ∀ c ∈ xs, p c = true)
    (hus : ∀ c ∈ us, p c = true) (hys : ∀ c ∈ ys.head?, p c = false)
    (hvs : ∀ c ∈ vs.head?, p c = false) (h : xs ++ ys = us ++ vs) : xs = us ∧ ys = vs := by
  rcases List.append_eq_append_iff.mp h with ⟨as, rfl, rfl⟩ | ⟨as, rfl, rfl⟩
  · cases as with
    | nil => simp
    | cons a as => simp_all
  · cases as with
    | nil => simp
    | cons a as => simp_all

lemma not_isRun_gap {gap : List Char} (hgap : ∀ c ∈ gap, p c = false) : ¬ e.IsRun p gap := by
  intro h
  obtain ⟨c, rest, hbody, hc⟩ := h.exists_head
  exact hc (hgap c (by simp [← h.text, hbody]))

/-- A run of the rest of a text is a run of the whole, if it does not begin at the seam or if
    what is in front of the seam is none of the class. -/
lemma IsRun.after {cs more : List Char} (h : e.IsRun p cs)
    (hseam : e.front = [] → ∀ c ∈ more.getLast?, p c = false) :
    (e.after more).IsRun p (more ++ cs) where
  text := by simp [Excerpt.after, h.text]
  nonempty := h.nonempty
  inside := h.inside
  left := by
    intro c hc
    cases hfront : e.front.getLast? with
    | none => exact hseam (by simpa using hfront) c (by simpa [Excerpt.after, hfront] using hc)
    | some d => exact h.left c (by simpa [Excerpt.after, hfront] using hc)
  right := h.right

/-- Conversely, a run that begins behind the seam is a run of the rest. -/
lemma IsRun.of_after {cs more : List Char} (h : (e.after more).IsRun p (more ++ cs)) :
    e.IsRun p cs where
  text := by simpa [Excerpt.after] using h.text
  nonempty := h.nonempty
  inside := h.inside
  left := by
    intro c hc
    exact h.left c (by simp_all [Excerpt.after])
  right := h.right

/-- **A gap has no runs in it.** -/
lemma isRun_gap_iff {gap cs : List Char} (hgap : ∀ c ∈ gap, p c = false) :
    e.IsRun p (gap ++ cs) ↔ ∃ f : Excerpt, f.IsRun p cs ∧ e = f.after gap := by
  constructor
  · intro h
    obtain ⟨c, rest, hbody, hc⟩ := h.exists_head
    have htext := h.text
    rw [hbody, List.cons_append] at htext
    rcases List.append_eq_append_iff.mp htext with ⟨as, hgap', has⟩ | ⟨more, hfront, -⟩
    · -- The first character of the run is one of the class, so the gap ends in front of it.
      cases as with
      | nil =>
          have heq : e = (⟨[], e.body, e.behind⟩ : Excerpt).after gap := by
            simp [Excerpt.after, hgap']
          exact ⟨_, (heq ▸ h).of_after, heq⟩
      | cons a as =>
          simp only [List.cons_append, List.cons.injEq] at has
          exact absurd (hgap c (by simp [hgap', has.1])) hc
    · have heq : e = (⟨more, e.body, e.behind⟩ : Excerpt).after gap := by
        simp [Excerpt.after, ← hfront]
      exact ⟨_, (heq ▸ h).of_after, heq⟩
  · rintro ⟨f, h, rfl⟩
    exact h.after fun _ c hc => hgap c (List.mem_of_getLast? hc)

/-- **What stands in front of a gap is one run.** -/
lemma isRun_body_iff {body cs : List Char} (hne : body ≠ []) (hbody : ∀ c ∈ body, p c = true)
    (hcs : ∀ c ∈ cs.head?, p c = false) :
    e.IsRun p (body ++ cs) ↔
      e = ⟨[], body, cs⟩ ∨ ∃ f : Excerpt, f.IsRun p cs ∧ e = f.after body := by
  constructor
  · intro h
    rcases List.eq_nil_or_concat e.front with hfront | ⟨init, last, hfront⟩
    · left
      have htext := h.text
      rw [hfront, List.nil_append] at htext
      obtain ⟨hrun, hbehind⟩ := split_unique h.inside hbody h.right hcs htext
      rw [← hfront, ← hrun, ← hbehind]
    · -- The character in front of the run is none of the class, so it stands behind the body.
      right
      have hlast : p last = false := h.left last (by simp [hfront])
      rcases List.append_eq_append_iff.mp h.text with ⟨as, hbody', -⟩ | ⟨more, hmore, -⟩
      · have htrue := hbody last (by simp [hbody', hfront])
        rw [htrue] at hlast
        cases hlast
      · have heq : e = (⟨more, e.body, e.behind⟩ : Excerpt).after body := by
          simp [Excerpt.after, ← hmore]
        exact ⟨_, (heq ▸ h).of_after, heq⟩
  · rintro (rfl | ⟨f, h, rfl⟩)
    · exact ⟨by simp, hne, hbody, by simp, hcs⟩
    · -- A run cannot begin with the first character behind the body, which is none of the class.
      refine h.after fun hfront => ?_
      obtain ⟨c, rest, hrun, hc⟩ := h.exists_head
      exact absurd (hcs c (by simp [← h.text, hfront, hrun])) hc

/-- **The runs of a text are its first run and the runs of what follows.** -/
lemma isRun_gap_body_iff {gap body cs : List Char} (hgap : ∀ c ∈ gap, p c = false)
    (hne : body ≠ []) (hbody : ∀ c ∈ body, p c = true) (hcs : ∀ c ∈ cs.head?, p c = false) :
    e.IsRun p (gap ++ (body ++ cs)) ↔
      e = ⟨gap, body, cs⟩ ∨ ∃ f : Excerpt, f.IsRun p cs ∧ e = f.after (gap ++ body) := by
  rw [isRun_gap_iff hgap]
  simp only [isRun_body_iff hne hbody hcs]
  constructor
  · rintro ⟨_, rfl | ⟨f, hf, rfl⟩, rfl⟩
    · exact Or.inl (by simp [Excerpt.after])
    · exact Or.inr ⟨f, hf, by simp [Excerpt.after]⟩
  · rintro (rfl | ⟨f, hf, rfl⟩)
    · exact ⟨⟨[], body, cs⟩, Or.inl rfl, by simp [Excerpt.after]⟩
    · exact ⟨f.after body, Or.inr ⟨f, hf, rfl⟩, by simp [Excerpt.after]⟩

end IsRun

end Excerpt

end Chip8.Text
