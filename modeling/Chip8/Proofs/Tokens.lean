import Chip8.Token
import Mathlib.Data.List.TakeWhile
import Mathlib.Tactic.Common

/-!
# Reading the tokens of a written line

A line that is written out as tokens with separators between them is cut into just these
tokens.  Cutting a line without trimming it depends on one thing only, whether a character is one at
which the line is cut; so it is done for any such class (`Text.runs`), and `pieces` is the case of
the separators.  Everything about it follows from one equation, `Text.runs_append_cut`: runs may be
taken on either side of a character at which the line is cut.

* `pieces_joined` cuts a line in which any runs of separators stand between the tokens.
* `Text.exists_margins` says what trimming takes away: the blanks at both ends, and no more.
* `tokenChars_joined` adds the trimming, which does nothing to a line whose outer characters
  are no blanks.
-/

namespace Chip8

/-! ## Runs -/

namespace Text

section Runs

variable {cut : Char → Bool}

/-- **The runs of a line:** its non-empty parts between the characters at which it is cut. -/
def runs (cut : Char → Bool) (cs : List Char) : List (List Char) :=
  (cs.splitOnP cut).filter (!·.isEmpty)

@[simp] lemma runs_nil : runs cut [] = [] := by simp [runs]

/-- **Runs are taken on either side of a cut.** -/
lemma runs_append_cut {c : Char} (hc : cut c = true) (xs ys : List Char) :
    runs cut (xs ++ c :: ys) = runs cut xs ++ runs cut ys := by
  rw [runs, List.splitOnP_append_cons xs ys hc, List.filter_append, runs, runs]

lemma runs_cuts_append {sep : List Char} (h : ∀ c ∈ sep, cut c = true) (xs : List Char) :
    runs cut (sep ++ xs) = runs cut xs := by
  induction sep with
  | nil => rfl
  | cons c sep ih =>
      have hstep := runs_append_cut (h c List.mem_cons_self) [] (sep ++ xs)
      rw [runs_nil, List.nil_append, List.nil_append] at hstep
      rw [List.cons_append, hstep]
      exact ih fun d hd => h d (List.mem_cons_of_mem _ hd)

lemma runs_uncut {t : List Char} (hne : t ≠ []) (h : ∀ c ∈ t, cut c = false) :
    runs cut t = [t] := by
  rw [runs, List.splitOnP_eq_singleton h]
  simp [hne]

/-- What has no cut in it is a run, if a cut follows. -/
lemma runs_uncut_append {t sep : List Char} (hne : t ≠ []) (ht : ∀ c ∈ t, cut c = false)
    (hsep : sep ≠ []) (h : ∀ c ∈ sep, cut c = true) (xs : List Char) :
    runs cut (t ++ (sep ++ xs)) = t :: runs cut xs := by
  obtain ⟨c, sep, rfl⟩ := List.exists_cons_of_ne_nil hsep
  rw [List.cons_append, runs_append_cut (h c List.mem_cons_self), runs_uncut hne ht,
    runs_cuts_append fun d hd => h d (List.mem_cons_of_mem _ hd)]
  rfl

/-- **A piece has characters of the line,** and none at which the line is cut. -/
lemma mem_of_mem_splitOnP {cs piece : List Char} (h : piece ∈ cs.splitOnP cut) :
    ∀ c ∈ piece, c ∈ cs ∧ cut c = false := by
  induction cs generalizing piece with
  | nil =>
      rw [List.splitOnP_nil, List.mem_singleton] at h
      simp [h]
  | cons d cs ih =>
      have hrest : ∀ rest ∈ cs.splitOnP cut, ∀ c ∈ rest, c ∈ d :: cs ∧ cut c = false :=
        fun rest hmem c hc => (ih hmem c hc).imp_left (List.mem_cons_of_mem d)
      rw [List.splitOnP_cons_eq_if_modifyHead] at h
      split at h
      · rcases List.mem_cons.mp h with rfl | h
        · exact List.forall_mem_nil _
        · exact hrest piece h
      · next hd =>
          obtain ⟨first, more, hsplit⟩ := List.exists_cons_of_ne_nil (List.splitOnP_ne_nil cut cs)
          rw [hsplit, List.modifyHead_cons] at h
          rw [hsplit, List.forall_mem_cons] at hrest
          rcases List.mem_cons.mp h with rfl | h
          · exact List.forall_mem_cons.mpr
              ⟨⟨List.mem_cons_self, by simpa using hd⟩, hrest.1⟩
          · exact hrest.2 piece h

end Runs

end Text

/-! ## Tokens and separators -/

/-- **A token:** at least one character, and no separator among them. -/
def IsToken (cs : List Char) : Prop := cs ≠ [] ∧ ∀ c ∈ cs, isSeparator c = false

/-- The non-empty pieces between separators. -/
def pieces (cs : List Char) : List (List Char) :=
  (cs.splitOnP isSeparator).filter (!·.isEmpty)

lemma pieces_eq (cs : List Char) : pieces cs = Text.runs isSeparator cs := rfl

lemma tokenChars_eq (line : List Char) : tokenChars line = pieces (Text.trim line) := rfl

@[simp] lemma pieces_nil : pieces [] = [] := Text.runs_nil

lemma pieces_token {t : List Char} (h : IsToken t) : pieces t = [t] := Text.runs_uncut h.1 h.2

/-- Further tokens, each behind its run of separators. -/
def joined (rest : List (List Char × List Char)) : List Char :=
  rest.flatMap fun p => p.1 ++ p.2

@[simp] lemma joined_nil : joined [] = [] := rfl

@[simp] lemma joined_cons (p : List Char × List Char) (rest : List (List Char × List Char)) :
    joined (p :: rest) = p.1 ++ (p.2 ++ joined rest) := by simp [joined]

/-- **A line of tokens falls into them,** whatever separators stand between. -/
lemma pieces_joined {t : List Char} {rest : List (List Char × List Char)} (ht : IsToken t)
    (hrest : ∀ p ∈ rest, p.1 ≠ [] ∧ (∀ c ∈ p.1, isSeparator c = true) ∧ IsToken p.2) :
    pieces (t ++ joined rest) = t :: rest.map Prod.snd := by
  induction rest generalizing t with
  | nil => simpa using pieces_token ht
  | cons p rest ih =>
      obtain ⟨hne, hsep, hp⟩ := hrest p List.mem_cons_self
      rw [joined_cons, pieces_eq, Text.runs_uncut_append ht.1 ht.2 hne hsep, ← pieces_eq,
        ih hp fun q hq => hrest q (List.mem_cons_of_mem _ hq), List.map_cons]

/-! ## Margins -/

/-- A line is left as it is by trimming if neither of its outer characters is a blank. -/
lemma trim_eq_self {cs : List Char} (hfirst : ∀ c ∈ cs.head?, Text.isBlank c = false)
    (hlast : ∀ c ∈ cs.getLast?, Text.isBlank c = false) : Text.trim cs = cs := by
  have hd : ∀ ds : List Char, (∀ c ∈ ds.head?, Text.isBlank c = false) →
      ds.dropWhile Text.isBlank = ds := by
    intro ds h
    cases ds with
    | nil => rfl
    | cons d ds => simp [h d (by simp)]
  rw [Text.trim, hd cs hfirst, hd cs.reverse (by simpa using hlast), List.reverse_reverse]

lemma head_dropWhile (p : Char → Bool) (cs : List Char) :
    ∀ c ∈ (cs.dropWhile p).head?, p c = false := by
  intro c hc
  have hhead := List.head?_dropWhile_not p cs
  rw [Option.mem_def] at hc
  simpa [hc] using hhead

namespace Text

/-- **Blanks around a text are trimmed off.** -/
lemma trim_margins {before behind : List Char} (hbefore : ∀ c ∈ before, isBlank c = true)
    (hbehind : ∀ c ∈ behind, isBlank c = true) (cs : List Char) :
    trim (before ++ cs ++ behind) = trim cs := by
  rw [trim, trim, List.append_assoc, List.dropWhile_append_of_pos hbefore, List.dropWhile_append]
  split
  · next hempty =>
      have hnone : behind.dropWhile isBlank = [] :=
        (dropWhile_isBlank_eq_nil_iff behind).mpr (by simpa using hbehind)
      rw [hnone, List.isEmpty_iff.mp hempty]
  · rw [List.reverse_append, List.dropWhile_append_of_pos (by simpa using hbehind)]

/-- **Trimming takes the blanks at both ends and no more.** -/
lemma exists_margins (cs : List Char) : ∃ before behind, cs = before ++ trim cs ++ behind ∧
    (∀ c ∈ before ++ behind, isBlank c = true) ∧
    (∀ c ∈ (trim cs).head?, isBlank c = false) ∧ ∀ c ∈ (trim cs).getLast?, isBlank c = false := by
  have hrest : cs.dropWhile isBlank =
      trim cs ++ ((cs.dropWhile isBlank).reverse.takeWhile isBlank).reverse := by
    rw [trim, ← List.reverse_append, List.takeWhile_append_dropWhile, List.reverse_reverse]
  refine ⟨cs.takeWhile isBlank, ((cs.dropWhile isBlank).reverse.takeWhile isBlank).reverse,
    ?_, ?_, ?_, ?_⟩
  · rw [List.append_assoc, ← hrest, List.takeWhile_append_dropWhile]
  · intro c hc
    rcases List.mem_append.mp hc with hc | hc
    · exact List.mem_takeWhile_imp hc
    · exact List.mem_takeWhile_imp (List.mem_reverse.mp hc)
  · intro c hc
    refine head_dropWhile isBlank cs c ?_
    rw [hrest, List.head?_append]
    simp [Option.mem_def.mp hc]
  · intro c hc
    rw [trim, List.getLast?_reverse] at hc
    exact head_dropWhile isBlank _ c hc

end Text

lemma ends_of_trim_eq_self {cs : List Char} (h : Text.trim cs = cs) :
    (∀ c ∈ cs.head?, Text.isBlank c = false) ∧ ∀ c ∈ cs.getLast?, Text.isBlank c = false := by
  obtain ⟨-, -, -, -, hends⟩ := Text.exists_margins cs
  rwa [h] at hends

/-- **A written line is read as its tokens.** -/
lemma tokenChars_joined {t : List Char} {rest : List (List Char × List Char)} (ht : IsToken t)
    (hrest : ∀ p ∈ rest, p.1 ≠ [] ∧ (∀ c ∈ p.1, isSeparator c = true) ∧ IsToken p.2)
    (hfirst : ∀ c ∈ t.head?, Text.isBlank c = false)
    (hlast : ∀ c ∈ (t ++ joined rest).getLast?, Text.isBlank c = false) :
    tokenChars (t ++ joined rest) = t :: rest.map Prod.snd := by
  rw [tokenChars_eq, trim_eq_self _ hlast, pieces_joined ht hrest]
  obtain ⟨c, t, rfl⟩ := List.exists_cons_of_ne_nil ht.1
  simpa using hfirst

end Chip8
