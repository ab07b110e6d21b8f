import Chip8.Proofs.Excerpts
import Chip8.Proofs.Tokens
import Mathlib.Data.List.Basic
import Mathlib.Data.List.TakeWhile

/-!
# What a line is cut into

The tokens of a line are the maximal runs of characters that are no separators, in the line
without its margins (`tokens_exact`).  Nothing but separators is lost, and no order is changed.
In the other direction every way of writing tokens down is cut into these tokens again.

* `Text.runs_induction` takes a text apart at its first run.  Everything that is true of all runs
  is proved by it.
* `Text.exists_runs` lists the maximal runs from left to right.
* `Separated` holds of the lines in which tokens stand with separators between them.  The two
  notions of blank meet at the ends of such a line: the margins go because they are blanks, and
  trimming stops at the outer tokens because they neither begin nor end with one.
-/

namespace Chip8

/-! ## Runs of a text -/

namespace Text

section Runs

variable {cut : Char → Bool}

/-- **A text is a gap, or it is a gap, a run and a text that does not go on with the run.** -/
@[elab_as_elim]
theorem runs_induction (cut : Char → Bool) {motive : List Char → Prop}
    (gap : ∀ gap, (∀ c ∈ gap, cut c = true) → motive gap)
    (run : ∀ gap body cs, (∀ c ∈ gap, cut c = true) → body ≠ [] → (∀ c ∈ body, cut c = false) →
      (∀ c ∈ cs.head?, cut c = true) → motive cs → motive (gap ++ (body ++ cs)))
    (cs : List Char) : motive cs := by
  induction hn : cs.length using Nat.strongRecOn generalizing cs with
  | ind n ih =>
      have hskip : ∀ c ∈ cs.takeWhile cut, cut c = true := fun c hc => List.mem_takeWhile_imp hc
      cases hrest : cs.dropWhile cut with
      | nil =>
          refine gap cs ?_
          rwa [← List.takeWhile_append_dropWhile (p := cut) (l := cs), hrest, List.append_nil]
      | cons d rest =>
          have hd : cut d = false := head_dropWhile cut cs d (by simp [hrest])
          have hsplit : cs = cs.takeWhile cut ++
              ((d :: rest).takeWhile (!cut ·) ++ (d :: rest).dropWhile (!cut ·)) := by
            rw [List.takeWhile_append_dropWhile, ← hrest, List.takeWhile_append_dropWhile]
          rw [hsplit]
          refine run _ _ _ hskip (by simp [hd]) ?_ ?_ ?_
          · intro c hc
            simpa using List.mem_takeWhile_imp hc
          · intro c hc
            simpa using head_dropWhile (!cut ·) (d :: rest) c hc
          · -- At least the first character of the run is gone.
            have hdrop := (List.dropWhile_sublist (!cut ·) (l := rest)).length_le
            have hlen := (List.dropWhile_sublist cut (l := cs)).length_le
            rw [hrest, List.length_cons] at hlen
            refine ih _ ?_ _ rfl
            rw [List.dropWhile_cons_of_pos (by simp [hd])]
            omega

lemma runs_gap {gap : List Char} (hgap : ∀ c ∈ gap, cut c = true) : runs cut gap = [] := by
  simpa using runs_cuts_append hgap []

lemma runs_body_append {body cs : List Char} (hne : body ≠ []) (hbody : ∀ c ∈ body, cut c = false)
    (hcs : ∀ c ∈ cs.head?, cut c = true) : runs cut (body ++ cs) = body :: runs cut cs := by
  cases cs with
  | nil => simpa using runs_uncut hne hbody
  | cons c cs =>
      have hc : ∀ d ∈ [c], cut d = true := by simpa using hcs
      rw [← List.singleton_append, runs_uncut_append hne hbody (by simp) hc, runs_cuts_append hc]

lemma runs_gap_body_append {gap body cs : List Char} (hgap : ∀ c ∈ gap, cut c = true)
    (hne : body ≠ []) (hbody : ∀ c ∈ body, cut c = false) (hcs : ∀ c ∈ cs.head?, cut c = true) :
    runs cut (gap ++ (body ++ cs)) = body :: runs cut cs := by
  rw [runs_cuts_append hgap, runs_body_append hne hbody hcs]

/-- **Nothing is lost but the characters at which a text is cut.** -/
lemma flatten_runs (cs : List Char) : (runs cut cs).flatten = cs.filter (!cut ·) := by
  induction cs using runs_induction cut with
  | gap gap hgap =>
      have hnone : gap.filter (!cut ·) = [] := by simpa using hgap
      rw [runs_gap hgap, hnone, List.flatten_nil]
  | run gap body cs hgap hne hbody hcs ih =>
      have hnone : gap.filter (!cut ·) = [] := by simpa using hgap
      have hall : body.filter (!cut ·) = body := by simpa using hbody
      rw [runs_gap_body_append hgap hne hbody hcs, List.flatten_cons, ih, List.filter_append,
        List.filter_append, hnone, hall, List.nil_append]

/-- **The runs of a text are its maximal runs from left to right.** -/
theorem exists_runs (cut : Char → Bool) (cs : List Char) :
    ∃ es : List Excerpt, (es.Pairwise fun e f => e.front.length < f.front.length) ∧
      (∀ e, e ∈ es ↔ e.IsRun (!cut ·) cs) ∧ runs cut cs = es.map Excerpt.body := by
  induction cs using runs_induction cut with
  | gap gap hgap =>
      refine ⟨[], .nil, ?_, by simp [runs_gap hgap]⟩
      intro e
      have hnone : ¬ e.IsRun (!cut ·) gap := Excerpt.not_isRun_gap (by simpa using hgap)
      simp [hnone]
  | run gap body cs hgap hne hbody hcs ih =>
      obtain ⟨es, horder, hmem, hruns⟩ := ih
      refine ⟨⟨gap, body, cs⟩ :: es.map (·.after (gap ++ body)), ?_, ?_, ?_⟩
      · have hpos : 0 < body.length := List.length_pos_iff.mpr hne
        refine .cons ?_ (horder.map _ ?_)
        · intro f hf
          obtain ⟨e, -, rfl⟩ := List.mem_map.mp hf
          simp [Excerpt.after]
          omega
        · intro e f hlt
          simpa [Excerpt.after] using hlt
      · intro e
        rw [Excerpt.isRun_gap_body_iff (by simpa using hgap) hne (by simpa using hbody)
          (by simpa using hcs), List.mem_cons, List.mem_map]
        simp only [hmem, eq_comm]
      · rw [runs_gap_body_append hgap hne hbody hcs, hruns]
        simp [Excerpt.after, Function.comp_def]

end Runs

end Text

/-! ## Written lines -/

/-- The three characters that stand between tokens. -/
def separators : List Char := [' ', '\t', ',']

lemma isSeparator_iff {c : Char} : isSeparator c = true ↔ c ∈ separators := by
  simp [isSeparator, separators, or_assoc]

lemma not_isSeparator_eq : (!isSeparator ·) = fun c => decide (c ∉ separators) := by
  funext c
  rw [decide_not, ← Bool.decide_coe (isSeparator c)]
  simp only [isSeparator_iff]

/-- **What can be a token:** at least one character and no separator. -/
def IsTokenText (t : String) : Prop := t ≠ "" ∧ ∀ c ∈ t.toList, c ∉ separators

lemma isTokenText_iff {t : String} : IsTokenText t ↔ IsToken t.toList := by
  simp [IsTokenText, IsToken, ← isSeparator_iff]

/-- **Tokens with separators between them.** -/
inductive Separated : List String → String → Prop
  | none : Separated [] ""
  | single (token : String) : Separated [token] token
  | more {token gap next : String} {later : List String} {rest : String} :
      gap ≠ "" → (∀ c ∈ gap.toList, c ∈ separators) → Separated (next :: later) rest →
      Separated (token :: next :: later) (token ++ gap ++ rest)

namespace Separated

variable {ts : List String} {line : String}

/-- **A line is cut into the tokens that were written.** -/
lemma pieces_eq (h : Separated ts line) (hts : ∀ t ∈ ts, IsToken t.toList) :
    pieces line.toList = ts.map String.toList := by
  induction h with
  | none => simp
  | single token => simpa using pieces_token (hts token (by simp))
  | @more token gap next later rest hne hgap _ ih =>
      have htoken := hts token (by simp)
      have hne' : gap.toList ≠ [] := by simpa using hne
      have hcut : ∀ c ∈ gap.toList, isSeparator c = true :=
        fun c hc => isSeparator_iff.mpr (hgap c hc)
      rw [String.toList_append, String.toList_append, List.append_assoc, Chip8.pieces_eq,
        Text.runs_uncut_append htoken.1 htoken.2 hne' hcut, ← Chip8.pieces_eq,
        ih fun t ht => hts t (List.mem_cons_of_mem _ ht)]
      rfl

/-- A line begins as its first token does. -/
lemma mem_head? (h : Separated ts line) (hts : ∀ t ∈ ts, IsToken t.toList) :
    ∀ c ∈ line.toList.head?, ∃ t ∈ ts.head?, c ∈ t.toList.head? := by
  intro c hc
  cases h with
  | none => simp at hc
  | single token => exact ⟨line, by simp, hc⟩
  | @more token gap next later rest =>
      obtain ⟨d, cs, hcs⟩ := List.exists_cons_of_ne_nil (hts token (by simp)).1
      exact ⟨token, by simp, by simpa [hcs] using hc⟩

/-- A line ends as its last token does. -/
lemma mem_getLast? (h : Separated ts line) (hts : ∀ t ∈ ts, IsToken t.toList) :
    ∀ c ∈ line.toList.getLast?, ∃ t ∈ ts.getLast?, c ∈ t.toList.getLast? := by
  induction h with
  | none => simp
  | single token => simp
  | @more token gap next later rest _ _ hrest ih =>
      intro c hc
      have hts' : ∀ t ∈ next :: later, IsToken t.toList :=
        fun t ht => hts t (List.mem_cons_of_mem _ ht)
      have hne : rest.toList ≠ [] := by
        intro hnil
        have hpieces := hrest.pieces_eq hts'
        simp [hnil] at hpieces
      rw [String.toList_append, List.getLast?_append_of_ne_nil _ hne] at hc
      simpa using ih hts' c hc

end Separated

/-! ## Tokens -/

/-- **The tokens of a line:** its maximal runs of characters that are no separators, from left to
    right, when the margins are gone. -/
structure TokensOf (line : String) (ts : List String) : Prop where
  /-- The margins are the blanks at the two ends. -/
  margins : ∃ before behind, line = before ++ Text.strip line ++ behind ∧
    (∀ c ∈ before.toList ++ behind.toList, Text.isBlank c = true) ∧
    (∀ c ∈ (Text.strip line).toList.head?, Text.isBlank c = false) ∧
    ∀ c ∈ (Text.strip line).toList.getLast?, Text.isBlank c = false
  /-- Every maximal run is a token, and the tokens are in order. -/
  runs : ∃ es : List Text.Excerpt, (es.Pairwise fun e f => e.front.length < f.front.length) ∧
    (∀ e, e ∈ es ↔ e.IsRun (fun c => c ∉ separators) (Text.strip line).toList) ∧
    ts = es.map fun e => String.ofList e.body
  /-- A token has characters and no separator among them. -/
  token : ∀ t ∈ ts, IsTokenText t
  /-- Nothing is lost but the separators. -/
  joined : String.join ts =
    String.ofList ((Text.strip line).toList.filter fun c => c ∉ separators)

lemma tokens_eq (line : String) :
    tokens line = (Text.runs isSeparator (Text.strip line).toList).map String.ofList := by
  simp [tokens, tokenChars_eq, pieces_eq, Text.strip]

lemma tokensOf_tokens (line : String) : TokensOf line (tokens line) := by
  obtain ⟨es, horder, hmem, hruns⟩ := Text.exists_runs isSeparator (Text.strip line).toList
  rw [not_isSeparator_eq] at hmem
  constructor
  · obtain ⟨before, behind, hline, hblank, hfirst, hlast⟩ := Text.exists_margins line.toList
    refine ⟨String.ofList before, String.ofList behind, ?_, by simpa using hblank,
      by simpa [Text.strip] using hfirst, by simpa [Text.strip] using hlast⟩
    rw [← String.toList_inj]
    simpa [Text.strip] using hline
  · refine ⟨es, horder, hmem, ?_⟩
    rw [tokens_eq, hruns, List.map_map]
    rfl
  · intro t ht
    rw [tokens_eq, hruns, List.map_map] at ht
    obtain ⟨e, he, rfl⟩ := List.mem_map.mp ht
    have hrun := (hmem e).mp he
    exact ⟨by simpa using hrun.nonempty, by simpa using hrun.inside⟩
  · rw [tokens_eq, ← not_isSeparator_eq, ← Text.flatten_runs, ← String.toList_inj]
    simp [String.toList_join, List.flatMap_map]

lemma tokens_separated {ts : List String} {line before behind : String} (h : Separated ts line)
    (hts : ∀ t ∈ ts, IsTokenText t)
    (hfirst : ∀ t ∈ ts.head?, ∀ c ∈ t.toList.head?, Text.isBlank c = false)
    (hlast : ∀ t ∈ ts.getLast?, ∀ c ∈ t.toList.getLast?, Text.isBlank c = false)
    (hbefore : ∀ c ∈ before.toList, Text.isBlank c = true)
    (hbehind : ∀ c ∈ behind.toList, Text.isBlank c = true) :
    tokens (before ++ line ++ behind) = ts := by
  have htokens : ∀ t ∈ ts, IsToken t.toList := fun t ht => isTokenText_iff.mp (hts t ht)
  have htrim : Text.trim line.toList = line.toList := by
    refine trim_eq_self ?_ ?_
    · intro c hc
      obtain ⟨t, ht, hc⟩ := h.mem_head? htokens c hc
      exact hfirst t ht c hc
    · intro c hc
      obtain ⟨t, ht, hc⟩ := h.mem_getLast? htokens c hc
      exact hlast t ht c hc
  rw [tokens, tokenChars_eq, String.toList_append, String.toList_append,
    Text.trim_margins hbefore hbehind, htrim, h.pieces_eq htokens, List.map_map]
  simp [Function.comp_def]

/-- **Cutting a line keeps every character that is no separator, in its order.**  The tokens are
    the maximal runs of such characters in the line without its margins.  Conversely, tokens that
    are written with separators between them and blanks around are read back, if the first one does
    not begin and the last one does not end with a blank. -/
theorem tokens_exact :
    (∀ line, TokensOf line (tokens line)) ∧
    ∀ (ts : List String) (line before behind : String), Separated ts line →
      (∀ t ∈ ts, IsTokenText t) →
      (∀ t ∈ ts.head?, ∀ c ∈ t.toList.head?, Text.isBlank c = false) →
      (∀ t ∈ ts.getLast?, ∀ c ∈ t.toList.getLast?, Text.isBlank c = false) →
      (∀ c ∈ before.toList, Text.isBlank c = true) →
      (∀ c ∈ behind.toList, Text.isBlank c = true) →
      tokens (before ++ line ++ behind) = ts :=
  ⟨tokensOf_tokens, fun _ _ _ _ h => tokens_separated h⟩

/-- A no-break space goes as a part of the margin, and stays as the beginning of a token. -/
theorem tokens_exact_margins :
    Separated ["DRW", "V1", "\u00A0V2", "5"]
      ("DRW" ++ " " ++ ("V1" ++ "," ++ ("\u00A0V2" ++ "\t, " ++ "5"))) ∧
    (∀ t ∈ ["DRW", "V1", "\u00A0V2", "5"], IsTokenText t) ∧
    tokens ("\u00A0" ++ ("DRW" ++ " " ++ ("V1" ++ "," ++ ("\u00A0V2" ++ "\t, " ++ "5"))) ++ "\n") =
      ["DRW", "V1", "\u00A0V2", "5"] := by
  have hline : Separated ["DRW", "V1", "\u00A0V2", "5"]
      ("DRW" ++ " " ++ ("V1" ++ "," ++ ("\u00A0V2" ++ "\t, " ++ "5"))) := by
    refine .more (by decide) ?_ (.more (by decide) ?_ (.more (by decide) ?_ (.single "5")))
    · simp [separators]
    · simp [separators]
    · simp [separators]
  have htokens : ∀ t ∈ ["DRW", "V1", "\u00A0V2", "5"], IsTokenText t := by
    simp [IsTokenText, separators]
  refine ⟨hline, htokens, tokens_exact.2 _ _ _ _ hline htokens ?_ ?_ ?_ ?_⟩
  · simp [Text.isBlank]
  · simp [Text.isBlank]
  · simp [Text.isBlank]
  · simp [Text.isBlank]

end Chip8
