import Chip8.Pattern
import Mathlib.Tactic.Ring
import Mathlib.Data.List.Nodup

/-!
# Patterns as numbers

A pattern counts its fixed digits from the left end and its fields from the right end.  On
patterns of four characters the two ways of counting agree, and this file is the arithmetic
behind that: it says what number a pattern is once its fields are filled.

* `total` puts one block of bits in the place of each run of a pattern.  The mask, the value and
  the filled pattern are all totals (`mask_eq`, `value_eq`, `filled`).
* `layout_eq` reads the fields and their places off the runs, if no name occurs twice.
* `eq_filled_iff` is the law of the file: a number is the filled pattern exactly when it has the
  fixed digits of the pattern and its fields hold the values.  The induction is on the runs; one
  step takes a number apart at the end of the first run, and conjunction with the mask is taken
  apart with it.
-/

namespace Chip8.Pattern

/-! ## Runs -/

@[simp] lemma runsLength_nil : runsLength [] = 0 := rfl

@[simp] lemma runsLength_cons (p : Char × Nat) (rest : List (Char × Nat)) :
    runsLength (p :: rest) = p.2 + runsLength rest := rfl

lemma runsLength_runs (cs : List Char) : runsLength (runs cs) = cs.length := by
  induction cs with
  | nil => rfl
  | cons c cs ih =>
      rw [runs]
      split
      · next h => rw [h] at ih; simp at ih; simp [← ih]
      · next d len more h =>
          rw [h, runsLength_cons] at ih
          split_ifs
          · simp only [runsLength_cons, List.length_cons]; omega
          · simp only [runsLength_cons, List.length_cons]; omega

/-- **One block of bits in the place of each run,** the first run highest. -/
def total (block : Char → Nat → Nat) : List (Char × Nat) → Nat
  | [] => 0
  | (c, length) :: rest => 2 ^ (4 * runsLength rest) * block c length + total block rest

lemma total_cons (block : Char → Nat → Nat) (c : Char) (len : Nat) (rest : List (Char × Nat)) :
    total block ((c, len) :: rest) = 2 ^ (4 * runsLength rest) * block c len + total block rest :=
  rfl

/-- Blocks that fit their runs add up to a number that fits the pattern. -/
lemma total_lt {block : Char → Nat → Nat} {rs : List (Char × Nat)}
    (h : ∀ p ∈ rs, block p.1 p.2 < 2 ^ (4 * p.2)) : total block rs < 2 ^ (4 * runsLength rs) := by
  induction rs with
  | nil => simp [total]
  | cons p rest ih =>
      obtain ⟨c, len⟩ := p
      have hrest := ih fun q hq => h q (List.mem_cons_of_mem _ hq)
      have hblock : block c len + 1 ≤ 2 ^ (4 * len) := h (c, len) List.mem_cons_self
      calc total block ((c, len) :: rest)
          < 2 ^ (4 * runsLength rest) * block c len + 2 ^ (4 * runsLength rest) :=
            Nat.add_lt_add_left hrest _
        _ = 2 ^ (4 * runsLength rest) * (block c len + 1) := by ring
        _ ≤ 2 ^ (4 * runsLength rest) * 2 ^ (4 * len) := Nat.mul_le_mul_left _ hblock
        _ = 2 ^ (4 * runsLength ((c, len) :: rest)) := by
            rw [← Nat.pow_add, runsLength_cons]
            congr 1
            omega

lemma eq_iff_div_mod (k u v : Nat) : u = v ↔ u / 2 ^ k = v / 2 ^ k ∧ u % 2 ^ k = v % 2 ^ k := by
  constructor
  · rintro rfl; exact ⟨rfl, rfl⟩
  · rintro ⟨hd, hm⟩
    rw [← Nat.div_add_mod u (2 ^ k), ← Nat.div_add_mod v (2 ^ k), hd, hm]

lemma total_div {block : Char → Nat → Nat} {rest : List (Char × Nat)} (c : Char) (len : Nat)
    (h : total block rest < 2 ^ (4 * runsLength rest)) :
    total block ((c, len) :: rest) / 2 ^ (4 * runsLength rest) = block c len := by
  rw [total, Nat.mul_add_div (Nat.two_pow_pos _), Nat.div_eq_of_lt h, Nat.add_zero]

lemma total_mod {block : Char → Nat → Nat} {rest : List (Char × Nat)} (c : Char) (len : Nat)
    (h : total block rest < 2 ^ (4 * runsLength rest)) :
    total block ((c, len) :: rest) % 2 ^ (4 * runsLength rest) = total block rest := by
  rw [total, Nat.mul_add_mod, Nat.mod_eq_of_lt h]

/-- If a block of a long run is made of blocks of its characters, a pattern may be read character
    by character. -/
lemma total_runs_cons {block : Char → Nat → Nat}
    (h : ∀ c len, block c (len + 1) = 2 ^ (4 * len) * block c 1 + block c len)
    (c : Char) (cs : List Char) :
    total block (runs (c :: cs)) = 2 ^ (4 * cs.length) * block c 1 + total block (runs cs) := by
  have hlen := runsLength_runs cs
  rw [runs]
  split
  · next hr =>
      rw [hr] at hlen ⊢
      simp [total, ← hlen]
  · next d len more hr =>
      rw [hr, runsLength_cons] at hlen
      split_ifs with hcd
      · subst hcd
        rw [hr, total, total, h, ← hlen, Nat.mul_add 4, Nat.pow_add]
        ring
      · rw [hr, total, runsLength_cons, hlen]

/-! ## Fixed digits -/

/-- A digit written several times. -/
def repeated (digit : Nat) : Nat → Nat
  | 0 => 0
  | len + 1 => 2 ^ (4 * len) * digit + repeated digit len

lemma fixedDigit_lt (c : Char) : (fixedDigit? c).getD 0 < 16 := by
  rw [fixedDigit?]
  split_ifs <;> simp <;> omega

lemma repeated_lt {digit : Nat} (h : digit < 16) (len : Nat) :
    repeated digit len < 2 ^ (4 * len) := by
  induction len with
  | zero => simp [repeated]
  | succ len ih =>
      have hpow : 2 ^ (4 * (len + 1)) = 2 ^ (4 * len) * 16 := by rw [Nat.mul_add, Nat.pow_add]
      have hmul : 2 ^ (4 * len) * digit ≤ 2 ^ (4 * len) * 15 := Nat.mul_le_mul_left _ (by omega)
      rw [repeated, hpow]
      omega

lemma repeated_zero (len : Nat) : repeated 0 len = 0 := by
  induction len with
  | zero => rfl
  | succ len ih => simp [repeated, ih]

/-- The bits of a run that the pattern fixes. -/
def maskBlock (c : Char) (len : Nat) : Nat := if isFixed c then 2 ^ (4 * len) - 1 else 0

/-- The digits of a run that the pattern fixes. -/
def valueBlock (c : Char) (len : Nat) : Nat := repeated ((fixedDigit? c).getD 0) len

lemma maskBlock_lt (c : Char) (len : Nat) : maskBlock c len < 2 ^ (4 * len) := by
  have := Nat.two_pow_pos (4 * len)
  rw [maskBlock]
  split_ifs <;> omega

lemma valueBlock_lt (c : Char) (len : Nat) : valueBlock c len < 2 ^ (4 * len) :=
  repeated_lt (fixedDigit_lt c) len

lemma valueBlock_field {c : Char} (h : isFixed c = false) (len : Nat) : valueBlock c len = 0 := by
  have hnone : fixedDigit? c = none := by simpa [isFixed] using h
  rw [valueBlock, hnone]
  exact repeated_zero len

/-- The weights of the nibbles of a number of so many nibbles, from the left. -/
def weights : Nat → List Nat
  | 0 => []
  | n + 1 => 2 ^ (4 * n) :: weights n

lemma maskFrom_weights (cs : List Char) :
    maskFrom (weights cs.length) cs = total maskBlock (runs cs) := by
  induction cs with
  | nil => rfl
  | cons c cs ih =>
      have hadd : ∀ c len,
          maskBlock c (len + 1) = 2 ^ (4 * len) * maskBlock c 1 + maskBlock c len := by
        intro c len
        have hpow : 2 ^ (4 * (len + 1)) = 2 ^ (4 * len) * 16 := by rw [Nat.mul_add, Nat.pow_add]
        have := Nat.two_pow_pos (4 * len)
        simp only [maskBlock, hpow]
        split_ifs <;> omega
      rw [total_runs_cons hadd, ← ih]
      simp only [List.length_cons, weights, maskFrom, maskBlock]
      split_ifs <;> ring

lemma valueFrom_weights (cs : List Char) :
    valueFrom (weights cs.length) cs = total valueBlock (runs cs) := by
  induction cs with
  | nil => rfl
  | cons c cs ih =>
      rw [total_runs_cons (fun c len => by simp [valueBlock, repeated]), ← ih]
      simp only [List.length_cons, weights, valueFrom, valueBlock, repeated]
      ring

lemma hasDefinedBits_of_length {pattern : String} (h : pattern.toList.length = 4) :
    hasDefinedBits pattern = true := by
  simp [hasDefinedBits, List.drop_eq_nil_of_le h.le]

/-- **The mask of a four-character pattern,** run by run. -/
lemma mask_eq {pattern : String} (h : pattern.toList.length = 4) :
    mask pattern = .ok (total maskBlock (runs pattern.toList)) := by
  rw [mask, if_pos (hasDefinedBits_of_length h), ← maskFrom_weights, h]
  rfl

/-- **The value of a four-character pattern,** run by run. -/
lemma value_eq {pattern : String} (h : pattern.toList.length = 4) :
    value pattern = .ok (total valueBlock (runs pattern.toList)) := by
  rw [value, if_pos (hasDefinedBits_of_length h), ← valueFrom_weights, h]
  rfl

/-! ## Fields -/

/-- The fields of a pattern and their places, the same name as often as it occurs. -/
def fieldSpans : List (Char × Nat) → Layout
  | [] => []
  | (c, length) :: rest =>
    if isFixed c then fieldSpans rest
    else (fieldOf c length, ⟨4 * runsLength rest, 4 * length⟩) :: fieldSpans rest

/-- No field name occurs twice in a pattern. -/
def HasDistinctFields (pattern : String) : Prop :=
  ((fieldSpans (runs pattern.toList)).map Prod.fst).Nodup

instance (pattern : String) : Decidable (HasDistinctFields pattern) :=
  inferInstanceAs (Decidable (List.Nodup _))

lemma put_of_notMem {layout : Layout} {field : Field} (h : field ∉ layout.map Prod.fst)
    (span : Span) : layout.put field span = layout ++ [(field, span)] := by
  induction layout with
  | nil => rfl
  | cons p layout ih =>
      simp only [List.map_cons, List.mem_cons, not_or] at h
      rw [Layout.put, if_neg (Ne.symm h.1), ih h.2, List.cons_append]

/-- Fields put into a layout one after the other. -/
def putAll (layout spans : Layout) : Layout := spans.foldl (fun found p => found.put p.1 p.2) layout

@[simp] lemma putAll_nil (layout : Layout) : putAll layout [] = layout := rfl

@[simp] lemma putAll_cons (layout : Layout) (p : Field × Span) (spans : Layout) :
    putAll layout (p :: spans) = putAll (layout.put p.1 p.2) spans := rfl

lemma layoutRuns_eq_putAll (layout : Layout) (rs : List (Char × Nat)) :
    layoutRuns layout rs = putAll layout (fieldSpans rs) := by
  induction rs generalizing layout with
  | nil => rfl
  | cons q rest ih =>
      obtain ⟨c, len⟩ := q
      by_cases hc : isFixed c = true
      · simp [layoutRuns, fieldSpans, hc, ih]
      · simp [layoutRuns, fieldSpans, hc, ih]

lemma layout_eq_putAll (pattern : String) :
    layout pattern = putAll [] (fieldSpans (runs pattern.toList)) :=
  layoutRuns_eq_putAll [] _

/-- Fields with new names are put at the end of a layout. -/
lemma putAll_eq_append {layout spans : Layout} (h : ((layout ++ spans).map Prod.fst).Nodup) :
    putAll layout spans = layout ++ spans := by
  induction spans generalizing layout with
  | nil => simp
  | cons p spans ih =>
      have hnew : p.1 ∉ layout.map Prod.fst := by
        intro hmem
        rw [List.map_append, List.nodup_append] at h
        exact h.2.2 _ hmem _ (by simp) rfl
      rw [putAll_cons, put_of_notMem hnew, ih (by simpa using h), List.append_assoc,
        List.singleton_append]

/-- **A pattern without repeated names is laid out run by run.** -/
lemma layout_eq {pattern : String} (h : HasDistinctFields pattern) :
    layout pattern = fieldSpans (runs pattern.toList) := by
  rw [layout_eq_putAll]
  exact putAll_eq_append h

/-- A field lies below the end of the runs that hold it. -/
lemma span_le {rs : List (Char × Nat)} {p : Field × Span} (h : p ∈ fieldSpans rs) :
    p.2.shift + p.2.width ≤ 4 * runsLength rs := by
  induction rs with
  | nil => simp [fieldSpans] at h
  | cons q rest ih =>
      obtain ⟨c, len⟩ := q
      rw [runsLength_cons]
      rw [fieldSpans] at h
      split_ifs at h
      · have := ih h; omega
      · rcases List.mem_cons.mp h with rfl | h
        · simp only; omega
        · have := ih h; omega

/-- Of two fields the one further to the left lies higher, and they do not overlap. -/
lemma pairwise_fieldSpans (rs : List (Char × Nat)) :
    (fieldSpans rs).Pairwise fun p q => q.2.shift + q.2.width ≤ p.2.shift := by
  induction rs with
  | nil => exact .nil
  | cons q rest ih =>
      obtain ⟨c, len⟩ := q
      rw [fieldSpans]
      split_ifs
      · exact ih
      · exact .cons (fun p hp => span_le hp) ih

/-! ## The filled pattern -/

/-- The bits of a run once its field is filled. -/
def filledBlock (values : Field → Nat) (c : Char) (len : Nat) : Nat :=
  if isFixed c then valueBlock c len else values (fieldOf c len)

/-- **The pattern with its fields filled in.** -/
def filled (values : Field → Nat) (rs : List (Char × Nat)) : Nat := total (filledBlock values) rs

lemma filled_cons (values : Field → Nat) (c : Char) (len : Nat) (rest : List (Char × Nat)) :
    filled values ((c, len) :: rest) =
      2 ^ (4 * runsLength rest) * filledBlock values c len + filled values rest :=
  rfl

/-- Whether values fit the fields of some runs. -/
def Fitting (values : Field → Nat) (layout : Layout) : Prop :=
  ∀ p ∈ layout, values p.1 < 2 ^ p.2.width

lemma Fitting.tail {values : Field → Nat} {q : Char × Nat} {rest : List (Char × Nat)}
    (h : Fitting values (fieldSpans (q :: rest))) : Fitting values (fieldSpans rest) := by
  intro p hp
  obtain ⟨c, len⟩ := q
  refine h p ?_
  rw [fieldSpans]
  split_ifs
  · exact hp
  · exact List.mem_cons_of_mem _ hp

lemma Fitting.head {values : Field → Nat} {c : Char} {len : Nat} {rest : List (Char × Nat)}
    (h : Fitting values (fieldSpans ((c, len) :: rest))) :
    filledBlock values c len < 2 ^ (4 * len) := by
  rw [filledBlock]
  split_ifs with hc
  · exact valueBlock_lt c len
  · exact h (fieldOf c len, ⟨4 * runsLength rest, 4 * len⟩) (by simp [fieldSpans, hc])

lemma filled_lt {values : Field → Nat} {rs : List (Char × Nat)}
    (h : Fitting values (fieldSpans rs)) : filled values rs < 2 ^ (4 * runsLength rs) := by
  refine total_lt ?_
  induction rs with
  | nil => simp
  | cons q rest ih =>
      intro p hp
      rcases List.mem_cons.mp hp with rfl | hp
      · exact h.head
      · exact ih h.tail p hp

/-- What lies in a span is not changed by cutting a number off above the span. -/
lemma mod_span {s w k : Nat} (h : s + w ≤ k) (u : Nat) :
    u % 2 ^ k / 2 ^ s % 2 ^ w = u / 2 ^ s % 2 ^ w := by
  have hk : 2 ^ k = 2 ^ s * 2 ^ (k - s) := by rw [← Nat.pow_add]; congr 1; omega
  rw [hk, Nat.mod_mul_right_div_self, Nat.mod_mod_of_dvd _ (Nat.pow_dvd_pow 2 (by omega))]

/-- A number is compared with a filled pattern above and below the end of the first run. -/
lemma eq_filled_cons_iff {values : Field → Nat} {c : Char} {len : Nat} {rest : List (Char × Nat)}
    (hrest : Fitting values (fieldSpans rest)) (u : Nat) :
    u = filled values ((c, len) :: rest) ↔
      u / 2 ^ (4 * runsLength rest) = filledBlock values c len ∧
        u % 2 ^ (4 * runsLength rest) = filled values rest := by
  rw [eq_iff_div_mod (4 * runsLength rest), filled, total_div c len (filled_lt hrest),
    total_mod c len (filled_lt hrest), filled]

/-- Likewise its digits with those that the pattern fixes. -/
lemma and_total_cons_iff (c : Char) (len : Nat) (rest : List (Char × Nat)) (u : Nat) :
    u &&& total maskBlock ((c, len) :: rest) = total valueBlock ((c, len) :: rest) ↔
      u / 2 ^ (4 * runsLength rest) &&& maskBlock c len = valueBlock c len ∧
        u % 2 ^ (4 * runsLength rest) &&& total maskBlock rest = total valueBlock rest := by
  have hmask : total maskBlock rest < 2 ^ (4 * runsLength rest) :=
    total_lt fun p _ => maskBlock_lt p.1 p.2
  have hvalue : total valueBlock rest < 2 ^ (4 * runsLength rest) :=
    total_lt fun p _ => valueBlock_lt p.1 p.2
  rw [eq_iff_div_mod (4 * runsLength rest), Nat.and_div_two_pow, Nat.and_mod_two_pow,
    total_div c len hmask, total_mod c len hmask, total_div c len hvalue, total_mod c len hvalue]

/-- **A number is the filled pattern exactly when it has the fixed digits of the pattern and its
    fields hold the values.** -/
theorem eq_filled_iff {values : Field → Nat} {rs : List (Char × Nat)}
    (hv : Fitting values (fieldSpans rs)) {u : Nat} (hu : u < 2 ^ (4 * runsLength rs)) :
    u = filled values rs ↔
      u &&& total maskBlock rs = total valueBlock rs ∧
        ∀ p ∈ fieldSpans rs, u / 2 ^ p.2.shift % 2 ^ p.2.width = values p.1 := by
  induction rs generalizing u with
  | nil =>
      have h0 : u = 0 := by simpa using hu
      simp [h0, filled, total, fieldSpans]
  | cons q rest ih =>
      obtain ⟨c, len⟩ := q
      have hlow := ih hv.tail (u := u % 2 ^ (4 * runsLength rest))
        (Nat.mod_lt _ (Nat.two_pow_pos _))
      have hhigh : u / 2 ^ (4 * runsLength rest) < 2 ^ (4 * len) := by
        rw [Nat.div_lt_iff_lt_mul (Nat.two_pow_pos _), ← Nat.pow_add]
        simpa [Nat.mul_add] using hu
      have hspans : (∀ p ∈ fieldSpans rest,
          u % 2 ^ (4 * runsLength rest) / 2 ^ p.2.shift % 2 ^ p.2.width = values p.1) ↔
          ∀ p ∈ fieldSpans rest, u / 2 ^ p.2.shift % 2 ^ p.2.width = values p.1 :=
        forall₂_congr fun p hp => by rw [mod_span (span_le hp)]
      rw [eq_filled_cons_iff hv.tail, and_total_cons_iff, hlow, hspans]
      -- The first run is a block of fixed digits, or it is a field and masked away.
      by_cases hc : isFixed c = true
      · simp only [filledBlock, maskBlock, fieldSpans, hc, if_true, Nat.and_two_pow_sub_one_eq_mod,
          Nat.mod_eq_of_lt hhigh, and_assoc]
      · have hc' : isFixed c = false := by simpa using hc
        simp only [filledBlock, maskBlock, fieldSpans, hc', if_false, Bool.false_eq_true,
          Nat.and_zero, valueBlock_field hc', List.forall_mem_cons, Nat.mod_eq_of_lt hhigh,
          true_and]
        exact and_left_comm

end Chip8.Pattern
