import Chip8.Text.Lines
import Mathlib.Tactic.Common

/-!
# Splitting a text that was joined from lines

A source is written line by line with a line feed between two lines, and read by splitting at
every line boundary that Unicode knows.  The two are inverse on lines that hold no boundary of
their own, as long as no line is empty: `lines_intercalate`.

Where a line feed is put between two texts, the lines of the joined text are those of the first
text with the line feed and those of the second (`lines_seam`).  That holds whatever the first text
ends in: a carriage return there makes one boundary with the line feed, and any other boundary
leaves an empty line in between (`lines_lineFeed`).

Lines hold no boundary (`isLineBreak_of_mem_lines`), so a text made of the lines of another has
these lines (`lines_closeLines`).  `length_splitLines_le` bounds the number of lines by the number
of characters, whatever the boundaries are.
-/

namespace Chip8.Text

/-- **A plain line:** it holds something, and no line boundary. -/
def IsPlainLine (cs : List Char) : Prop := cs ≠ [] ∧ ∀ c ∈ cs, isLineBreak c = false

/-- A character that is no boundary goes to the front of the first line of the rest. -/
lemma splitLines_cons {c : Char} (h : isLineBreak c = false) (rest : List Char) :
    splitLines (c :: rest) =
      match splitLines rest with
      | [] => [[c]]
      | line :: more => (c :: line) :: more := by
  have hcr : c ≠ '\r' := by rintro rfl; revert h; decide
  have hstep := splitLines.eq_3 c rest fun _ hc => absurd hc hcr
  exact hstep.trans (if_neg (by simp [h]))

lemma splitLines_lineFeed (rest : List Char) :
    splitLines ('\n' :: rest) = [] :: splitLines rest := by
  rw [splitLines.eq_3 '\n' rest (fun _ hc => absurd hc (by decide)), if_pos (by decide)]

lemma splitLines_plain {cs : List Char} (h : IsPlainLine cs) : splitLines cs = [cs] := by
  obtain ⟨hne, hcs⟩ := h
  induction cs with
  | nil => exact absurd rfl hne
  | cons c cs ih =>
      rw [splitLines_cons (hcs c List.mem_cons_self)]
      rcases cs with _ | ⟨d, cs⟩
      · rfl
      · rw [ih (by simp) fun x hx => hcs x (List.mem_cons_of_mem _ hx)]

/-- **A line ends at the first line feed behind it.** -/
lemma splitLines_append_lineFeed {cs : List Char} (h : ∀ c ∈ cs, isLineBreak c = false)
    (rest : List Char) : splitLines (cs ++ '\n' :: rest) = cs :: splitLines rest := by
  induction cs with
  | nil => exact splitLines_lineFeed rest
  | cons c cs ih =>
      rw [List.cons_append, splitLines_cons (h c List.mem_cons_self),
        ih fun x hx => h x (List.mem_cons_of_mem _ hx)]

lemma splitLines_intercalate {ls : List (List Char)} (h : ∀ l ∈ ls, IsPlainLine l) :
    splitLines (['\n'].intercalate ls) = ls := by
  induction ls with
  | nil => rfl
  | cons l ls ih =>
      have hl := h l List.mem_cons_self
      rcases ls with _ | ⟨m, ls⟩
      · simpa using splitLines_plain hl
      · have hrest := ih fun x hx => h x (List.mem_cons_of_mem _ hx)
        rw [List.intercalate_cons_cons, List.append_assoc, List.singleton_append,
          splitLines_append_lineFeed hl.2, hrest]

/-- **Plain lines joined into a text are its lines.** -/
theorem lines_intercalate {ls : List String} (h : ∀ l ∈ ls, IsPlainLine l.toList) :
    lines ("\n".intercalate ls) = ls := by
  have hn : "\n".toList = ['\n'] := rfl
  rw [lines, String.toList_intercalate, hn, splitLines_intercalate (by simpa using h),
    List.map_map]
  simp

/-! ## The seam between two texts -/

lemma splitLines_ne_nil {cs : List Char} (h : cs ≠ []) : splitLines cs ≠ [] := by
  fun_cases splitLines cs with
  | case1 => exact absurd rfl h
  | case2 => exact List.cons_ne_nil _ _
  | case3 => exact List.cons_ne_nil _ _
  | case4 => exact List.cons_ne_nil _ _
  | case5 => exact List.cons_ne_nil _ _

/-- A boundary character that makes no pair with the next one ends a line. -/
lemma splitLines_break {c : Char} (h : isLineBreak c = true) {rest : List Char}
    (hpair : ∀ tail, c = '\r' → rest ≠ '\n' :: tail) :
    splitLines (c :: rest) = [] :: splitLines rest := by
  rw [splitLines.eq_3 c rest fun tail hc hrest => hpair tail hc hrest, if_pos h]

/-- What follows behind a text that holds something does not make a new pair at its front. -/
lemma append_ne_pair {c : Char} {cs : List Char} (hne : cs ≠ [])
    (hpair : ∀ tail, c = '\r' → cs = '\n' :: tail → False) (more : List Char) :
    ∀ tail, c = '\r' → cs ++ more ≠ '\n' :: tail := by
  obtain ⟨d, ds, rfl⟩ := List.exists_cons_of_ne_nil hne
  intro tail hc hcs
  rw [List.cons_append, List.cons.injEq] at hcs
  exact hpair ds hc (by rw [hcs.1])

/-- **A text falls apart at a line feed.**  The line feed may end the last line of what is before
    it, or an empty line behind that, or be the second half of a boundary. -/
lemma splitLines_seam (cs rest : List Char) :
    splitLines (cs ++ '\n' :: rest) = splitLines (cs ++ ['\n']) ++ splitLines rest := by
  -- A character that is no boundary goes to the front of a line that is before the seam.
  have hfront : ∀ c cs, isLineBreak c = false →
      splitLines (cs ++ '\n' :: rest) = splitLines (cs ++ ['\n']) ++ splitLines rest →
      splitLines (c :: cs ++ '\n' :: rest) = splitLines (c :: cs ++ ['\n']) ++ splitLines rest := by
    intro c cs hc ih
    obtain ⟨line, more, hlines⟩ :=
      List.exists_cons_of_ne_nil (splitLines_ne_nil (List.concat_ne_nil '\n' cs))
    simp only [List.cons_append, splitLines_cons hc, ih, hlines]
  fun_induction splitLines cs with
  | case1 => rw [List.nil_append, List.nil_append, splitLines_lineFeed, splitLines_lineFeed]; rfl
  | case2 cs ih => simp only [List.cons_append, splitLines, ih]
  | case3 c cs hpair hbreak ih =>
      by_cases hne : cs = []
      · subst hne
        by_cases hc : c = '\r'
        · subst hc
          rfl
        · rw [List.cons_append, List.cons_append, splitLines_break hbreak fun _ h => absurd h hc,
            splitLines_break hbreak fun _ h => absurd h hc, ih]
          rfl
      · rw [List.cons_append, List.cons_append,
          splitLines_break hbreak (append_ne_pair hne hpair _),
          splitLines_break hbreak (append_ne_pair hne hpair _), ih]
        rfl
  | case4 c cs hpair hplain hnil ih => exact hfront c cs (by simpa using hplain) ih
  | case5 c cs hpair hplain line more hcons ih => exact hfront c cs (by simpa using hplain) ih

/-- **A line feed at the end adds an empty line or nothing.** -/
lemma splitLines_lineFeed_end (cs : List Char) :
    splitLines (cs ++ ['\n']) = splitLines cs ∨
      splitLines (cs ++ ['\n']) = splitLines cs ++ [[]] := by
  fun_induction splitLines cs with
  | case1 => exact Or.inr rfl
  | case2 cs ih =>
      simp only [List.cons_append, splitLines]
      exact ih.imp (congrArg _) (congrArg _)
  | case3 c cs hpair hbreak ih =>
      by_cases hne : cs = []
      · subst hne
        by_cases hc : c = '\r'
        · subst hc
          exact Or.inl rfl
        · right
          rw [List.cons_append, splitLines_break hbreak fun _ h => absurd h hc]
          rfl
      · rw [List.cons_append, splitLines_break hbreak (append_ne_pair hne hpair _)]
        exact ih.imp (congrArg _) (congrArg _)
  | case4 c cs hpair hplain hnil ih =>
      left
      rw [List.cons_append, splitLines_cons (by simpa using hplain)]
      rcases ih with h | h
      · rw [h, hnil]
      · rw [h, hnil]
        rfl
  | case5 c cs hpair hplain line more hcons ih =>
      rw [List.cons_append, splitLines_cons (by simpa using hplain)]
      rcases ih with h | h
      · left
        rw [h, hcons]
      · right
        rw [h, hcons]
        rfl

/-- **The lines of two texts with a line feed between them.** -/
theorem lines_seam (first second : String) :
    lines (first ++ "\n" ++ second) = lines (first ++ "\n") ++ lines second := by
  have hn : "\n".toList = ['\n'] := rfl
  simp only [lines, String.toList_append, hn, List.append_assoc, List.singleton_append]
  rw [splitLines_seam, List.map_append]

/-- **The lines of a text with a line feed behind it:** those of the text, and an empty one if the
    text ended in a boundary that the line feed does not complete. -/
theorem lines_lineFeed (text : String) :
    lines (text ++ "\n") = lines text ∨ lines (text ++ "\n") = lines text ++ [""] := by
  have hn : "\n".toList = ['\n'] := rfl
  simp only [lines, String.toList_append, hn]
  refine (splitLines_lineFeed_end text.toList).imp (congrArg _) fun h => ?_
  rw [h, List.map_append]
  rfl

/-! ## Texts made of lines -/

lemma isLineBreak_of_mem_splitLines {cs : List Char} :
    ∀ line ∈ splitLines cs, ∀ c ∈ line, isLineBreak c = false := by
  fun_induction splitLines cs with
  | case1 => exact List.forall_mem_nil _
  | case2 cs ih => exact List.forall_mem_cons.mpr ⟨List.forall_mem_nil _, ih⟩
  | case3 c cs hpair hbreak ih => exact List.forall_mem_cons.mpr ⟨List.forall_mem_nil _, ih⟩
  | case4 c cs hpair hplain hnil ih =>
      rw [List.forall_mem_singleton, List.forall_mem_singleton]
      simpa using hplain
  | case5 c cs hpair hplain first more hcons ih =>
      rw [hcons, List.forall_mem_cons] at ih
      exact List.forall_mem_cons.mpr
        ⟨List.forall_mem_cons.mpr ⟨by simpa using hplain, ih.1⟩, ih.2⟩

lemma splitLines_closed {ls : List (List Char)} (hne : ls ≠ [])
    (h : ∀ l ∈ ls, ∀ c ∈ l, isLineBreak c = false) :
    splitLines (['\n'].intercalate ls ++ ['\n']) = ls := by
  induction ls with
  | nil => exact absurd rfl hne
  | cons l ls ih =>
      rw [List.forall_mem_cons] at h
      rcases ls with _ | ⟨m, ls⟩
      · rw [List.intercalate_singleton, splitLines_append_lineFeed h.1]
        rfl
      · rw [List.intercalate_cons_cons, List.append_assoc, List.append_assoc,
          List.singleton_append, splitLines_append_lineFeed h.1, ih (List.cons_ne_nil _ _) h.2]

lemma isLineBreak_of_mem_lines {text line : String} (h : line ∈ lines text) :
    ∀ c ∈ line.toList, isLineBreak c = false := by
  obtain ⟨cs, hcs, rfl⟩ := List.mem_map.mp h
  rw [String.toList_ofList]
  exact isLineBreak_of_mem_splitLines cs hcs

/-- **A text that is made of closed lines has these lines.** -/
theorem lines_closeLines {ls : List String} (hne : ls ≠ [])
    (h : ∀ l ∈ ls, ∀ c ∈ l.toList, isLineBreak c = false) : lines (closeLines ls) = ls := by
  have hn : "\n".toList = ['\n'] := rfl
  have hclosed : splitLines (['\n'].intercalate (ls.map String.toList) ++ ['\n']) =
      ls.map String.toList := splitLines_closed (by simpa using hne) (by simpa using h)
  rw [lines, closeLines, String.toList_append, String.toList_intercalate, hn, hclosed, List.map_map]
  simp

/-- A joined text has the characters of what was joined and those put in between. -/
lemma forall_mem_intercalate {P : Char → Prop} {sep : List Char} (hsep : ∀ c ∈ sep, P c)
    {ls : List (List Char)} (h : ∀ l ∈ ls, ∀ c ∈ l, P c) : ∀ c ∈ sep.intercalate ls, P c := by
  induction ls with
  | nil => exact List.forall_mem_nil _
  | cons l ls ih =>
      rw [List.forall_mem_cons] at h
      rcases ls with _ | ⟨m, ls⟩
      · rw [List.intercalate_singleton]
        exact h.1
      · rw [List.intercalate_cons_cons, List.forall_mem_append, List.forall_mem_append]
        exact ⟨⟨h.1, hsep⟩, ih h.2⟩

/-- A text that is made of lines has the characters of its lines and line feeds. -/
lemma notMem_closeLines {c : Char} (hc : c ≠ '\n') {ls : List String}
    (h : ∀ l ∈ ls, c ∉ l.toList) : c ∉ (closeLines ls).toList := by
  have hfeed : ∀ d ∈ "\n".toList, d ≠ c := fun d hd => List.mem_singleton.mp hd ▸ hc.symm
  have hlines : ∀ l ∈ ls.map String.toList, ∀ d ∈ l, d ≠ c := by
    intro l hl d hd
    obtain ⟨text, htext, rfl⟩ := List.mem_map.mp hl
    rintro rfl
    exact h text htext hd
  rw [closeLines, String.toList_append, String.toList_intercalate, List.mem_append]
  exact not_or.mpr ⟨fun hmem => forall_mem_intercalate hfeed hlines c hmem rfl,
    fun hmem => hfeed c hmem rfl⟩

lemma length_splitLines_le (cs : List Char) : (splitLines cs).length ≤ cs.length := by
  fun_induction splitLines cs with
  | case1 => simp
  | case2 rest ih => simp only [List.length_cons]; omega
  | case3 c rest _ _ ih => simp only [List.length_cons]; omega
  | case4 c rest _ _ hnil _ => simp
  | case5 c rest _ _ line more hcons ih =>
      rw [hcons] at ih
      simp only [List.length_cons] at ih ⊢
      omega

end Chip8.Text
