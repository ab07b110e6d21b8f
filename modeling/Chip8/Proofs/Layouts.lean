import Chip8.Proofs.Excerpts
import Chip8.Proofs.Patterns
import Mathlib.Order.Interval.Finset.Nat

/-!
# Where the fields of a pattern lie

A table may bring patterns of any length, with the same name in several places and with runs that
touch each other.  In all of them a field has the place of a maximal run, counted from the right
end, and of several runs with one name the last one counts (`mem_layout_iff`).  So fields of
different names do not overlap, and none of them takes up bits of a fixed digit.

* `mem_fieldSpans_runs` reads the fields off the maximal runs of the pattern
  (`Text.Excerpt.IsRun`), by induction on the runs.
* `mem_putAll_iff` is the dictionary: what is put last under a name stays.
* `disjoint_bits_run` compares a run with a character that is none of it.
-/

namespace Chip8

/-- The bits of a word that a place takes up. -/
def Span.bits (span : Span) : Finset Nat := Finset.Ico span.shift (span.shift + span.width)

/-- The place of an excerpt of a pattern: four bits for each character, from the right end on. -/
def Text.Excerpt.span (e : Text.Excerpt) : Span := ⟨4 * e.behind.length, 4 * e.body.length⟩

namespace Pattern

open Text

/-! ## Runs from the left -/

lemma head?_runs (cs : List Char) : (runs cs).head?.map Prod.fst = cs.head? := by
  cases cs with
  | nil => rfl
  | cons c cs =>
      rw [runs]
      split
      · simp
      · split_ifs <;> simp

lemma runs_cons_of_ne {c : Char} {cs : List Char} (h : ∀ d ∈ cs.head?, d ≠ c) :
    runs (c :: cs) = (c, 1) :: runs cs := by
  rw [← head?_runs] at h
  rw [runs]
  split
  · next hnil => rw [hnil]
  · next d len more hcons =>
      have hne : d ≠ c := h d (by simp [hcons])
      rw [hcons, if_neg hne.symm]

/-- **A pattern that begins with a whole run** has this run first. -/
lemma runs_replicate_append {c : Char} {behind : List Char} (h : ∀ d ∈ behind.head?, d ≠ c)
    (len : Nat) :
    runs (List.replicate (len + 1) c ++ behind) = (c, len + 1) :: runs behind := by
  induction len with
  | zero => simpa using runs_cons_of_ne h
  | succ len ih => rw [List.replicate_succ, List.cons_append, runs, ih]; simp

/-- **The first run of a pattern** ends where another character follows. -/
lemma exists_of_runs_eq_cons {cs : List Char} {c : Char} {len : Nat} {rest : List (Char × Nat)}
    (h : runs cs = (c, len) :: rest) :
    0 < len ∧ ∃ behind, cs = List.replicate len c ++ behind ∧ (∀ d ∈ behind.head?, d ≠ c) ∧
      runs behind = rest := by
  induction cs generalizing c len rest with
  | nil => simp [runs] at h
  | cons a cs ih =>
      have hhead := head?_runs cs
      rw [runs] at h
      split at h
      · next hnil =>
          obtain rfl : cs = [] := by simpa [hnil] using hhead.symm
          simp only [List.cons.injEq, Prod.mk.injEq] at h
          obtain ⟨⟨rfl, rfl⟩, rfl⟩ := h
          exact ⟨by simp, [], by simp, by simp, rfl⟩
      · next d more len' hcons =>
          obtain ⟨-, behind, hcs, hbehind, hrest⟩ := ih hcons
          split_ifs at h with had
          · simp only [List.cons.injEq, Prod.mk.injEq] at h
            obtain ⟨⟨rfl, rfl⟩, rfl⟩ := h
            exact ⟨by simp, behind, by simp [hcs, had, List.replicate_succ], had ▸ hbehind, hrest⟩
          · simp only [List.cons.injEq, Prod.mk.injEq] at h
            obtain ⟨⟨rfl, rfl⟩, rfl⟩ := h
            refine ⟨by simp, cs, by simp, ?_, hcons⟩
            simp [← hhead, hcons, Ne.symm had]

/-! ## Fields and maximal runs -/

/-- The digits that a pattern can fix.  Small letters are none of them. -/
def fixedDigits : List Char :=
  ['0', '1', '2', '3', '4', '5', '6', '7', '8', '9', 'A', 'B', 'C', 'D', 'E', 'F']

lemma isFixed_iff {c : Char} : isFixed c = true ↔ c ∈ fixedDigits := by
  constructor
  · intro h
    have hcode : c.toNat < 71 := by
      rw [isFixed, fixedDigit?] at h
      split_ifs at h
      all_goals simp at h
      all_goals omega
    have hcodes : ∀ n < 71, isFixed (Char.ofNat n) = true → Char.ofNat n ∈ fixedDigits := by decide
    have hc := hcodes c.toNat hcode
    rw [Char.ofNat_toNat] at hc
    exact hc h
  · have hdigits : fixedDigits.all isFixed = true := by decide
    exact List.all_eq_true.mp hdigits c

/-- **The name of a run.**  Three letters have names of their own; a run of any other character is
    an address if it has three characters and a nibble if not. -/
inductive Names : Char → Nat → Field → Prop
  | x (length : Nat) : Names 'x' length .x
  | y (length : Nat) : Names 'y' length .y
  | byte (length : Nat) : Names 'k' length .kk
  | address {c : Char} : c ∉ ['x', 'y', 'k'] → Names c 3 .nnn
  | nibble {c : Char} {length : Nat} : c ∉ ['x', 'y', 'k'] → length ≠ 3 → Names c length .n

lemma names_iff {c : Char} {length : Nat} {field : Field} :
    Names c length field ↔ fieldOf c length = field := by
  constructor
  · intro h
    cases h with
    | x | y | byte => rfl
    | address hc => simp_all [fieldOf]
    | nibble hc hlength => simp_all [fieldOf]
  · rintro rfl
    rw [fieldOf]
    split_ifs with hx hy hk hlength
    · exact hx ▸ .x length
    · exact hy ▸ .y length
    · exact hk ▸ .byte length
    · exact hlength ▸ .address (by simp [hx, hy, hk])
    · exact .nibble (by simp [hx, hy, hk]) hlength

/-- **A run of a pattern that stands for a field:** a maximal run of one character that is no fixed
    digit, with the name that it gives the field. -/
def IsFieldRun (cs : List Char) (field : Field) (e : Excerpt) : Prop :=
  ∃ c, e.IsRun (· == c) cs ∧ c ∉ fixedDigits ∧ Names c e.body.length field

lemma isFieldRun_iff {cs : List Char} {field : Field} {e : Excerpt} :
    IsFieldRun cs field e ↔
      ∃ c, e.IsRun (· == c) cs ∧ isFixed c = false ∧ fieldOf c e.body.length = field := by
  simp only [IsFieldRun, names_iff, ← isFixed_iff, Bool.not_eq_true]

lemma not_isFieldRun_nil {field : Field} {e : Excerpt} : ¬ IsFieldRun [] field e := by
  rintro ⟨c, hrun, -⟩
  exact Excerpt.not_isRun_gap (by simp) hrun

/-- The runs of a pattern are its first run and the runs of the rest. -/
lemma isFieldRun_replicate_iff {c : Char} {len : Nat} (hlen : 0 < len) {behind : List Char}
    (hbehind : ∀ d ∈ behind.head?, d ≠ c) {field : Field} {e : Excerpt} :
    IsFieldRun (List.replicate len c ++ behind) field e ↔
      (isFixed c = false ∧ fieldOf c len = field ∧ e = ⟨[], List.replicate len c, behind⟩) ∨
        ∃ f, IsFieldRun behind field f ∧ e = f.after (List.replicate len c) := by
  simp only [isFieldRun_iff]
  have hne : List.replicate len c ≠ [] := by simp; omega
  have hfirst : ∀ e : Excerpt, e.IsRun (· == c) (List.replicate len c ++ behind) ↔
      e = ⟨[], List.replicate len c, behind⟩ ∨
        ∃ f : Excerpt, f.IsRun (· == c) behind ∧ e = f.after (List.replicate len c) :=
    fun e => Excerpt.isRun_body_iff hne (by simp) (by simpa using hbehind)
  have hother : ∀ d ≠ c, ∀ e : Excerpt, e.IsRun (· == d) (List.replicate len c ++ behind) ↔
      ∃ f : Excerpt, f.IsRun (· == d) behind ∧ e = f.after (List.replicate len c) :=
    fun d hd e => Excerpt.isRun_gap_iff (by simp [Ne.symm hd])
  constructor
  · rintro ⟨d, hrun, hfixed, hfield⟩
    by_cases hd : d = c
    · subst hd
      rcases (hfirst e).mp hrun with rfl | ⟨f, hf, rfl⟩
      · exact Or.inl ⟨hfixed, by simpa using hfield, rfl⟩
      · exact Or.inr ⟨f, ⟨d, hf, hfixed, hfield⟩, rfl⟩
    · obtain ⟨f, hf, rfl⟩ := (hother d hd e).mp hrun
      exact Or.inr ⟨f, ⟨d, hf, hfixed, hfield⟩, rfl⟩
  · rintro (⟨hfixed, hfield, rfl⟩ | ⟨f, ⟨d, hf, hfixed, hfield⟩, rfl⟩)
    · exact ⟨c, (hfirst _).mpr (Or.inl rfl), hfixed, by simpa using hfield⟩
    · refine ⟨d, ?_, hfixed, hfield⟩
      by_cases hd : d = c
      · subst hd
        exact (hfirst _).mpr (Or.inr ⟨f, hf, rfl⟩)
      · exact (hother d hd _).mpr ⟨f, hf, rfl⟩

/-- **The fields of a pattern are its maximal runs of characters that are no fixed digits.** -/
lemma mem_fieldSpans_runs {cs : List Char} {p : Field × Span} :
    p ∈ fieldSpans (runs cs) ↔ ∃ e, IsFieldRun cs p.1 e ∧ e.span = p.2 := by
  induction hrs : runs cs generalizing cs with
  | nil =>
      have hnil : cs = [] := by
        have hhead := head?_runs cs
        simpa [hrs] using hhead.symm
      simp [fieldSpans, hnil, not_isFieldRun_nil]
  | cons q rest ih =>
      obtain ⟨c, len⟩ := q
      obtain ⟨hlen, behind, rfl, hbehind, hrest⟩ := exists_of_runs_eq_cons hrs
      have hlater := ih hrest
      have hlength : runsLength rest = behind.length := by rw [← hrest, runsLength_runs]
      simp only [isFieldRun_replicate_iff hlen hbehind]
      by_cases hc : isFixed c = true
      · simp only [fieldSpans, hc, if_true, hlater]
        constructor
        · rintro ⟨f, hf, hspan⟩
          exact ⟨_, Or.inr ⟨f, hf, rfl⟩, hspan⟩
        · rintro ⟨_, ⟨hfixed, -⟩ | ⟨f, hf, rfl⟩, hspan⟩
          · cases hfixed
          · exact ⟨f, hf, hspan⟩
      · simp only [fieldSpans, hc, if_false, Bool.false_eq_true, List.mem_cons, hlater, hlength]
        constructor
        · rintro (rfl | ⟨f, hf, hspan⟩)
          · exact ⟨_, Or.inl ⟨by simp, rfl, rfl⟩, by simp [Excerpt.span]⟩
          · exact ⟨_, Or.inr ⟨f, hf, rfl⟩, hspan⟩
        · rintro ⟨_, ⟨-, hfield, rfl⟩ | ⟨f, hf, rfl⟩, hspan⟩
          · left
            exact Prod.ext hfield.symm (by simp [← hspan, Excerpt.span])
          · exact Or.inr ⟨f, hf, hspan⟩

/-! ## The last run of a name -/

lemma map_fst_put_of_mem {layout : Layout} {field : Field} (h : field ∈ layout.map Prod.fst)
    (span : Span) : (layout.put field span).map Prod.fst = layout.map Prod.fst := by
  induction layout with
  | nil => simp at h
  | cons q layout ih =>
      obtain ⟨other, old⟩ := q
      rw [Layout.put]
      split_ifs with heq
      · simp [heq]
      · have hmem : field ∈ layout.map Prod.fst := by simpa [Ne.symm heq] using h
        simp [ih hmem]

/-- A name is put into a layout once. -/
lemma nodup_put {layout : Layout} (h : (layout.map Prod.fst).Nodup) (field : Field) (span : Span) :
    ((layout.put field span).map Prod.fst).Nodup := by
  by_cases hmem : field ∈ layout.map Prod.fst
  · rwa [map_fst_put_of_mem hmem]
  · rw [put_of_notMem hmem, List.map_append, List.nodup_append]
    refine ⟨h, by simp, ?_⟩
    rintro other hother _ hfield rfl
    simp only [List.map_cons, List.map_nil, List.mem_singleton] at hfield
    exact hmem (hfield ▸ hother)

lemma nodup_putAll {layout : Layout} (h : (layout.map Prod.fst).Nodup) (spans : Layout) :
    ((putAll layout spans).map Prod.fst).Nodup := by
  induction spans generalizing layout with
  | nil => exact h
  | cons q spans ih => exact ih (nodup_put h q.1 q.2)

lemma mem_put_iff {layout : Layout} (h : (layout.map Prod.fst).Nodup) {field : Field} {span : Span}
    {p : Field × Span} :
    p ∈ layout.put field span ↔ p = (field, span) ∨ (p.1 ≠ field ∧ p ∈ layout) := by
  induction layout with
  | nil => simp [Layout.put]
  | cons q layout ih =>
      obtain ⟨other, old⟩ := q
      simp only [List.map_cons, List.nodup_cons] at h
      rw [Layout.put]
      split_ifs with heq
      · -- The old place of the name goes, and the name occurs nowhere else.
        subst heq
        have hne : p ∈ layout → p.1 ≠ other := by
          rintro hp rfl
          exact h.1 (List.mem_map_of_mem hp)
        constructor
        · intro hp
          rcases List.mem_cons.mp hp with rfl | hp
          · exact Or.inl rfl
          · exact Or.inr ⟨hne hp, List.mem_cons_of_mem _ hp⟩
        · rintro (rfl | ⟨hfield, hp⟩)
          · exact List.mem_cons_self
          · rcases List.mem_cons.mp hp with rfl | hp
            · exact absurd rfl hfield
            · exact List.mem_cons_of_mem _ hp
      · rw [List.mem_cons, ih h.2, List.mem_cons]
        constructor
        · rintro (rfl | rfl | ⟨hfield, hp⟩)
          · exact Or.inr ⟨heq, Or.inl rfl⟩
          · exact Or.inl rfl
          · exact Or.inr ⟨hfield, Or.inr hp⟩
        · rintro (rfl | ⟨hfield, rfl | hp⟩)
          · exact Or.inr (Or.inl rfl)
          · exact Or.inl rfl
          · exact Or.inr (Or.inr ⟨hfield, hp⟩)

/-- **Of several places of one name the last one stays,** which is the lowest if the places come
    from left to right. -/
lemma mem_putAll_iff {spans : Layout} (horder : spans.Pairwise fun p q => q.2.shift < p.2.shift)
    {layout : Layout} (h : (layout.map Prod.fst).Nodup) {p : Field × Span} :
    p ∈ putAll layout spans ↔
      (p ∈ spans ∧ ∀ q ∈ spans, q.1 = p.1 → p.2.shift ≤ q.2.shift) ∨
        (p ∈ layout ∧ ∀ q ∈ spans, q.1 ≠ p.1) := by
  induction spans generalizing layout with
  | nil => simp
  | cons q spans ih =>
      obtain ⟨hfirst, hlater⟩ := List.pairwise_cons.mp horder
      rw [putAll_cons, ih hlater (nodup_put h q.1 q.2), mem_put_iff h]
      simp only [List.forall_mem_cons]
      rw [List.mem_cons]
      constructor
      · rintro (⟨hp, hleast⟩ | ⟨rfl | ⟨hfield, hp⟩, hnone⟩)
        · exact Or.inl ⟨Or.inr hp, fun _ => (hfirst p hp).le, hleast⟩
        · exact Or.inl ⟨Or.inl rfl, fun _ => le_rfl, fun r hr hname => absurd hname (hnone r hr)⟩
        · exact Or.inr ⟨hp, Ne.symm hfield, hnone⟩
      · rintro (⟨rfl | hp, -, hleast⟩ | ⟨hp, hfield, hnone⟩)
        · refine Or.inr ⟨Or.inl rfl, fun r hr hname => ?_⟩
          exact absurd (hleast r hr hname) (Nat.not_le.mpr (hfirst r hr))
        · exact Or.inl ⟨hp, hleast⟩
        · exact Or.inr ⟨Or.inr ⟨Ne.symm hfield, hp⟩, hnone⟩

lemma nodup_layout (pattern : String) : ((layout pattern).map Prod.fst).Nodup := by
  rw [layout_eq_putAll]
  exact nodup_putAll (by simp) _

lemma pairwise_fieldSpans_runs (cs : List Char) :
    (fieldSpans (runs cs)).Pairwise fun p q => q.2.shift < p.2.shift := by
  refine (pairwise_fieldSpans (runs cs)).imp_of_mem fun {p q} _ hq hle => ?_
  obtain ⟨e, ⟨c, hrun, -⟩, hspan⟩ := mem_fieldSpans_runs.mp hq
  have hpos : 0 < q.2.width := by
    rw [← hspan]
    exact Nat.mul_pos (by decide) (List.length_pos_iff.mpr hrun.nonempty)
  omega

/-- **A field has the place of the last run of its name.** -/
lemma mem_layout_iff {pattern : String} {p : Field × Span} :
    p ∈ layout pattern ↔ ∃ e, IsFieldRun pattern.toList p.1 e ∧ e.span = p.2 ∧
      ∀ f, IsFieldRun pattern.toList p.1 f → e.behind.length ≤ f.behind.length := by
  rw [layout_eq_putAll, mem_putAll_iff (pairwise_fieldSpans_runs _) (by simp)]
  simp only [List.not_mem_nil, false_and, or_false, mem_fieldSpans_runs]
  constructor
  · rintro ⟨⟨e, he, hspan⟩, hleast⟩
    refine ⟨e, he, hspan, fun f hf => ?_⟩
    have hle := hleast (p.1, f.span) ⟨f, hf, rfl⟩ rfl
    rw [← hspan] at hle
    exact Nat.le_of_mul_le_mul_left hle (by decide)
  · rintro ⟨e, he, hspan, hleast⟩
    refine ⟨⟨e, he, hspan⟩, ?_⟩
    rintro ⟨field, span⟩ ⟨f, hf, rfl⟩ rfl
    rw [← hspan]
    exact Nat.mul_le_mul_left 4 (hleast f hf)

lemma mem_fieldSpans_of_mem_layout {pattern : String} {p : Field × Span}
    (h : p ∈ layout pattern) : p ∈ fieldSpans (runs pattern.toList) := by
  obtain ⟨e, he, hspan, -⟩ := mem_layout_iff.mp h
  exact mem_fieldSpans_runs.mpr ⟨e, he, hspan⟩

/-! ## Bits of the fields -/

lemma disjoint_bits_of_le {span other : Span} (h : other.shift + other.width ≤ span.shift) :
    Disjoint span.bits other.bits := by
  rw [Finset.disjoint_left]
  intro bit hspan hother
  simp only [Span.bits, Finset.mem_Ico] at hspan hother
  omega

lemma disjoint_bits {pattern : String} {p q : Field × Span} (hp : p ∈ layout pattern)
    (hq : q ∈ layout pattern) (hne : p.1 ≠ q.1) : Disjoint p.2.bits q.2.bits := by
  have hbits : (fieldSpans (runs pattern.toList)).Pairwise fun p q => Disjoint p.2.bits q.2.bits :=
    (pairwise_fieldSpans _).imp disjoint_bits_of_le
  have hsymm : Std.Symm fun p q : Field × Span => Disjoint p.2.bits q.2.bits :=
    ⟨fun _ _ h => h.symm⟩
  exact hbits.forall (mem_fieldSpans_of_mem_layout hp) (mem_fieldSpans_of_mem_layout hq)
    fun h => hne (congrArg Prod.fst h)

lemma bits_subset {pattern : String} {p : Field × Span} (hp : p ∈ layout pattern) :
    p.2.bits ⊆ Finset.range (4 * pattern.toList.length) := by
  have hle := span_le (mem_fieldSpans_of_mem_layout hp)
  rw [runsLength_runs] at hle
  intro bit hbit
  rw [Span.bits, Finset.mem_Ico] at hbit
  rw [Finset.mem_range]
  omega

/-- **A run has no bits in common with a character that is none of the run.** -/
lemma disjoint_bits_run {cs front behind : List Char} {c d : Char} {e : Excerpt}
    (h : e.IsRun (· == d) cs) (hcs : cs = front ++ c :: behind) (hne : c ≠ d) :
    Disjoint e.span.bits (⟨front, [c], behind⟩ : Excerpt).span.bits := by
  have hlen : e.front.length + (e.body.length + e.behind.length) =
      front.length + (behind.length + 1) := by
    simpa [hcs] using congrArg List.length h.text
  by_cases hright : behind.length < e.behind.length
  · refine disjoint_bits_of_le ?_
    simp only [Excerpt.span, List.length_singleton]
    omega
  by_cases hleft : e.body.length + e.behind.length ≤ behind.length
  · refine (disjoint_bits_of_le ?_).symm
    simp only [Excerpt.span]
    omega
  -- Otherwise the character stands within the run.
  have hget : (e.front ++ (e.body ++ e.behind))[front.length]? = some c := by
    rw [h.text, hcs]
    simp
  rw [List.getElem?_append_right (by omega), List.getElem?_append_left (by omega)] at hget
  have hd := h.inside c (List.mem_of_getElem? hget)
  exact absurd (by simpa using hd) hne

lemma disjoint_bits_fixed {pattern : String} {p : Field × Span} (hp : p ∈ layout pattern)
    {front behind : List Char} {c : Char} (hcs : pattern.toList = front ++ c :: behind)
    (hc : c ∈ fixedDigits) :
    Disjoint p.2.bits (⟨front, [c], behind⟩ : Excerpt).span.bits := by
  obtain ⟨e, ⟨d, hrun, hfixed, -⟩, hspan, -⟩ := mem_layout_iff.mp hp
  rw [← hspan]
  refine disjoint_bits_run hrun hcs ?_
  rintro rfl
  exact hfixed hc

end Pattern

end Chip8
