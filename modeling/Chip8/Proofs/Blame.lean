import Chip8.Proofs.StandardTable

/-!
# The operand to blame

An instruction whose operands are rejected is reported with one operand that is at fault, or with
none if their number is.  This file says which one that is.

The code looks at one place at a time: it blames the first operand that no form takes in its place,
and if there is none, the last.  That is not yet a law, since the operands before the blamed one may
have been taken by different forms.  The law is about single forms: the operands in front of the
blamed one are the beginning of something that one form takes, and with it they are not.

* `Form.TakesUpTo` is the beginning of a list of operands that a form takes.
* `Table.BlamesPlace.not_takesUpTo` is one half of the law and holds in every table, since a form
  that takes all operands in their places accepts them.
* `Table.BlamesPlace.exists_takesUpTo` is the other half.  It needs a table that can be judged by
  place (`Table.JudgedByPlace`): either there are at most two operands, so that there is one place
  in front of the last, or the forms in question have the same slots.
* `Blame` lists the three reasons, and `Blame.Fits.unique` says that they exclude each other.
* `Table.encodeInstruction_blames` is the result for the standard table.
-/

namespace Chip8

/-! ## The text of an operand -/

/-- **A token as a report shows it:** a keyword in capitals, anything else as it is. -/
def shownToken (token : String) : String :=
  if Text.uppercase token ∈ keywords then Text.uppercase token else token

/-- A token with a value is no keyword. -/
lemma Operand.text_of_value {token : String} {value : Nat} (h : (shape token).value? = some value) :
    (shape token).text = token := by
  cases hs : shape token with
  | register text index => exact (shape_eq_register_iff.mp hs).1
  | immediate text v => exact (shape_eq_immediate_iff.mp hs).1
  | keyword word =>
      rw [hs] at h
      cases h
  | invalid text =>
      rw [hs] at h
      cases h

lemma Operand.text_shape (token : String) : (shape token).text = shownToken token := by
  rw [shownToken]
  split_ifs with hkeyword
  · rw [shape_eq_keyword_iff.mpr ⟨rfl, hkeyword⟩, text]
  · rw [shape]
    split
    · rfl
    · split
      · rfl
      · rw [ofWord_eq, if_neg hkeyword, text]

lemma Slot.value_of_placed {slot : Slot} {operand : Operand} {q : Field × Nat}
    (h : slot.placed operand = some q) : operand.value? = some q.2 := by
  rw [placed] at h
  split at h
  · next field value hfield hvalue =>
      obtain rfl := Option.some.inj h
      exact hvalue
  · cases h

/-! ## The operands up to a place -/

/-- **A form takes the operands up to a place,** that place included. -/
def Form.TakesUpTo (form : Form) (operands : List Operand) (place : Nat) : Prop :=
  ∀ k ≤ place, form.TakesAt operands k

lemma Form.TakesAt.of_slots_eq {f g : Form} {operands : List Operand} {place : Nat}
    (h : f.TakesAt operands place) (hslots : f.slots = g.slots) : g.TakesAt operands place := by
  rw [Form.TakesAt, ← hslots]
  exact h

namespace Table

/-- **A table in which operands can be judged place by place:** of two rows with one mnemonic and
    equally many slots, either the slots are the same or there are at most two. -/
def JudgedByPlace (table : Table) : Prop :=
  ∀ f ∈ table, ∀ g ∈ table, f.mnemonic = g.mnemonic → f.slots.length = g.slots.length →
    f.slots.length ≤ 2 ∨ f.slots = g.slots

lemma standard_judgedByPlace : standard.JudgedByPlace := by
  unfold JudgedByPlace
  decide +kernel

namespace BlamesPlace

variable {candidates : List Form} {operands : List Operand} {place : Nat}
  (h : BlamesPlace candidates operands place)

include h

/-- **With the blamed operand no form takes the beginning,** if no form accepts the whole. -/
lemma not_takesUpTo {form : Form} (hform : form ∈ candidates)
    (hlen : form.slots.length = operands.length) (hno : form.accepts operands = .ok false) :
    ¬ form.TakesUpTo operands place := by
  intro htakes
  rcases h.here with hlast | hnone
  · have haccepts : form.accepts operands = .ok true := by
      refine Form.accepts_iff_takesAt.mpr ⟨hlen, fun k hk => htakes k ?_⟩
      omega
    rw [hno] at haccepts
    cases haccepts
  · exact hnone form hform (htakes place (le_refl _))

/-- **Without it one form does.** -/
lemma exists_takesUpTo (judged : operands.length ≤ 2 ∨
      ∀ f ∈ candidates, ∀ g ∈ candidates, f.slots = g.slots)
    {earlier : Nat} (hearlier : earlier < place) :
    ∃ form ∈ candidates, form.TakesUpTo operands earlier := by
  obtain ⟨form, hform, htakes⟩ := h.before earlier hearlier
  refine ⟨form, hform, fun k hk => ?_⟩
  rcases judged with hshort | hsame
  · have hlt := h.lt
    obtain rfl : k = earlier := by omega
    exact htakes
  · obtain ⟨other, hother, htakes'⟩ := h.before k (by omega)
    exact htakes'.of_slots_eq (hsame other hother form hform)

end BlamesPlace

end Table

/-! ## Three reasons -/

/-- **Why operands are rejected:** for their number, for the shape of one of them, or for its
    value. -/
inductive Blame
  | count | shape | range
  deriving DecidableEq

/-- **The reason for which operands are rejected** by the forms of a mnemonic, and the text that is
    blamed for it. -/
def Blame.Fits (forms : List Form) (given : List String) (operands : List Operand)
    (offending : Option String) : Blame → Prop
  | count => (∀ form ∈ forms, form.slots.length ≠ given.length) ∧ offending = none
  | shape =>
    (∃ form ∈ forms, form.slots.length = given.length) ∧
    (∀ form ∈ forms, form.accepts operands = .ok false) ∧
    ∃ place < given.length, offending = operands[place]?.map Operand.text ∧
      (∀ form ∈ forms, form.slots.length = given.length → ¬ form.TakesUpTo operands place) ∧
      ∀ earlier < place, ∃ form ∈ forms, form.slots.length = given.length ∧
        form.TakesUpTo operands earlier
  | range =>
    ∃ form, (∀ other, other ∈ forms ∧ other.accepts operands = .ok true ↔ other = form) ∧
      ∃ place < given.length, offending = given[place]? ∧
        Table.Exceeds form.slots operands place ∧
        ∀ earlier < place, ¬ Table.Exceeds form.slots operands earlier

namespace Blame.Fits

variable {forms : List Form} {given : List String} {operands : List Operand}
  {offending : Option String} {a b : Blame}

lemma eq_range_iff (h : a.Fits forms given operands offending)
    (hlen : operands.length = given.length) :
    a = .range ↔ ∃ form ∈ forms, form.accepts operands = .ok true := by
  cases a with
  | count =>
      refine iff_of_false (by simp) ?_
      rintro ⟨form, hform, ha⟩
      exact h.1 form hform ((Form.accepts_iff_takesAt.mp ha).1.trans hlen)
  | shape =>
      refine iff_of_false (by simp) ?_
      rintro ⟨form, hform, ha⟩
      rw [h.2.1 form hform] at ha
      cases ha
  | range =>
      obtain ⟨form, hform, -⟩ := h
      exact iff_of_true rfl ⟨form, (hform form).mpr rfl⟩

lemma eq_count_iff (h : a.Fits forms given operands offending)
    (hlen : operands.length = given.length) :
    a = .count ↔ ∀ form ∈ forms, form.slots.length ≠ given.length := by
  cases a with
  | count => exact iff_of_true rfl h.1
  | shape =>
      obtain ⟨⟨form, hform, hslots⟩, -⟩ := h
      exact iff_of_false (by simp) fun hnone => hnone form hform hslots
  | range =>
      obtain ⟨form, hform, ha⟩ := (h.eq_range_iff hlen).mp rfl
      refine iff_of_false (by simp) fun hnone => ?_
      exact hnone form hform ((Form.accepts_iff_takesAt.mp ha).1.trans hlen)

/-- **Only one reason fits.** -/
lemma unique (ha : a.Fits forms given operands offending)
    (hb : b.Fits forms given operands offending) (hlen : operands.length = given.length) :
    a = b := by
  have hcount := (ha.eq_count_iff hlen).trans (hb.eq_count_iff hlen).symm
  have hrange := (ha.eq_range_iff hlen).trans (hb.eq_range_iff hlen).symm
  cases a <;> cases b <;> simp_all

end Blame.Fits

/-! ## Rejected instructions -/

namespace Table

section

variable {table : Table} {mnemonic : String} {given : List String}

/-- The operand that is blamed in its place is the one at which no form goes on. -/
lemma fits_shape {offending : Option String} {place : Nat}
    (judged : table.JudgedByPlace)
    (hcount : ∃ form ∈ table.forms mnemonic, form.slots.length = given.length)
    (hno : ∀ form ∈ table.forms mnemonic, form.accepts (given.map Operand.shape) = .ok false)
    (hplace : BlamesPlace ((table.forms mnemonic).filter (·.slots.length == given.length))
      (given.map Operand.shape) place)
    (hoffending : offending = (given.map Operand.shape)[place]?.map Operand.text) :
    Blame.shape.Fits (table.forms mnemonic) given (given.map Operand.shape) offending := by
  have hlength : (given.map Operand.shape).length = given.length := List.length_map _
  have hcandidate : ∀ form, form ∈ (table.forms mnemonic).filter (·.slots.length == given.length) ↔
      form ∈ table.forms mnemonic ∧ form.slots.length = given.length := by simp
  refine ⟨hcount, hno, place, hlength ▸ hplace.lt, hoffending, fun form hform hlen => ?_, ?_⟩
  · exact hplace.not_takesUpTo ((hcandidate form).mpr ⟨hform, hlen⟩) (hlen.trans hlength.symm)
      (hno form hform)
  · intro earlier hearlier
    have hjudged : (given.map Operand.shape).length ≤ 2 ∨
        ∀ f ∈ (table.forms mnemonic).filter (·.slots.length == given.length),
          ∀ g ∈ (table.forms mnemonic).filter (·.slots.length == given.length),
            f.slots = g.slots := by
      rw [hlength]
      refine or_iff_not_imp_left.mpr fun hlong f hf g hg => ?_
      obtain ⟨hf, hflen⟩ := (hcandidate f).mp hf
      obtain ⟨hg, hglen⟩ := (hcandidate g).mp hg
      obtain ⟨hft, hfn⟩ := mem_forms.mp hf
      obtain ⟨hgt, hgn⟩ := mem_forms.mp hg
      have hsame := judged f hft g hgt (hfn.trans hgn.symm) (hflen.trans hglen.symm)
      exact hsame.resolve_left (by omega)
    obtain ⟨form, hform, htakes⟩ := hplace.exists_takesUpTo hjudged hearlier
    obtain ⟨hmem, hlen⟩ := (hcandidate form).mp hform
    exact ⟨form, hmem, hlen, htakes⟩

/-- The value that is rejected is the first that is beyond its field. -/
lemma fits_range {offending : Option String} {place : Nat} {form : Form} (h : table.WellFormed)
    (hform : form ∈ table.forms mnemonic)
    (ha : form.accepts (given.map Operand.shape) = .ok true)
    (hplace : Exceeds form.slots (given.map Operand.shape) place)
    (hbefore : ∀ k < place, ¬ Exceeds form.slots (given.map Operand.shape) k)
    (hoffending : offending = (given.map Operand.shape)[place]?.map Operand.text) :
    Blame.range.Fits (table.forms mnemonic) given (given.map Operand.shape) offending := by
  obtain ⟨hm, hn⟩ := mem_forms.mp hform
  have honly : ∀ other, other ∈ table.forms mnemonic ∧
      other.accepts (given.map Operand.shape) = .ok true ↔ other = form := by
    intro other
    constructor
    · rintro ⟨hother, ha'⟩
      obtain ⟨hm', hn'⟩ := mem_forms.mp hother
      exact h.eq_of_accepts hm' hm (hn'.trans hn.symm) ha' ha
    · rintro rfl
      exact ⟨hform, ha⟩
  have htoken : offending = given[place]? ∧ place < given.length := by
    obtain ⟨slot, operand, q, -, hoperand, hq, -⟩ := hplace
    rw [List.getElem?_map, Option.map_eq_some_iff] at hoperand
    obtain ⟨token, htoken, rfl⟩ := hoperand
    rw [hoffending, List.getElem?_map, htoken]
    refine ⟨?_, (List.getElem?_eq_some_iff.mp htoken).1⟩
    exact congrArg some (Operand.text_of_value (Slot.value_of_placed hq))
  exact ⟨form, honly, place, htoken.2, htoken.1, hplace, hbefore⟩

/-- **Operands are rejected for one reason.** -/
theorem WellFormed.encode_blames (h : table.WellFormed) (judged : table.JudgedByPlace)
    (hclass : Classified given) (hm : table.isMnemonic mnemonic = true)
    {setback : Setback Cause} (hrefused : table.encode mnemonic given = .error setback) :
    ∃ error, setback = .rejected (.operands (Text.uppercase mnemonic) given error) ∧
      ∃! blame : Blame, blame.Fits (table.forms mnemonic) given (given.map Operand.shape)
        error.offending := by
  have hlength : (given.map Operand.shape).length = given.length := List.length_map _
  suffices hblame : ∃ error, setback = .rejected (.operands (Text.uppercase mnemonic) given error) ∧
      ∃ blame : Blame, blame.Fits (table.forms mnemonic) given (given.map Operand.shape)
        error.offending by
    obtain ⟨error, he, blame, hfits⟩ := hblame
    exact ⟨error, he, blame, hfits, fun other hother => hother.unique hfits hlength⟩
  by_cases hsel : ∃ form ∈ table.forms mnemonic, form.accepts (given.map Operand.shape) = .ok true
  · obtain ⟨form, hmem, ha⟩ := hsel
    obtain ⟨hmt, hn⟩ := mem_forms.mp hmem
    have hform := h.forms form hmt
    rw [(h.encode_eq_fill (List.Subset.refl _) hclass hmt hn ha).2] at hrefused
    have hlimit : ¬ ∀ q ∈ placements form.slots (given.map Operand.shape), q.2 ≤ q.1.limit := by
      intro hall
      obtain ⟨w, hfill, -⟩ := fill_eq hform given ha hall
      rw [hrefused] at hfill
      cases hfill
    obtain ⟨error, place, he, hplace, hbefore, hoffending⟩ := fill_refused hform given ha hlimit
    rw [hrefused, hn, Except.error.injEq] at he
    exact ⟨error, he, .range, fits_range h hmem ha hplace hbefore hoffending⟩
  · have hno : ∀ form ∈ table.forms mnemonic,
        form.accepts (given.map Operand.shape) = .ok false := fun form hmem =>
      (h.forms form (mem_forms.mp hmem).1).accepts_eq_false fun ha => hsel ⟨form, hmem, ha⟩
    obtain ⟨error, he, hblame⟩ :=
      encode_refused h.forms hclass hm fun form hmem ha => hsel ⟨form, hmem, ha⟩
    rw [hrefused, Except.error.injEq] at he
    rcases hblame with ⟨hcount, hoffending⟩ | ⟨hcount, place, hplace, hoffending⟩
    · exact ⟨error, he, .count, hcount, hoffending⟩
    · exact ⟨error, he, .shape, fits_shape judged hcount hno hplace hoffending⟩

end

/-- **The blamed operand is the right one.**  A mnemonic of the standard table is rejected together
    with its operands as they were given and the line they stand in, as far as it is known, and
    exactly one of three reasons fits.  No form takes so many operands, and none of them is blamed.
    Or some form takes so many, but none takes these, and the operand is blamed at which no form
    goes on, although one form takes all operands in front of it.  Or the one form that takes these
    operands has no room for the value of the blamed one, but for all values in front of it. -/
theorem encodeInstruction_blames {mnemonic : String} {given : List String}
    (hm : standard.isMnemonic mnemonic = true) (hgiven : ∀ token ∈ given, Convertible token)
    (line : Option Int) (source : Option String) {setback : Setback Rejection}
    (hrefused : standard.encodeInstruction mnemonic given line source = .error setback) :
    ∃ operands error, given.mapM Operand.classify = .ok operands ∧
      operands.map Operand.text = given.map shownToken ∧
      setback = .rejected ⟨line, source, .operands (Text.uppercase mnemonic) given error⟩ ∧
      ∃! blame : Blame, blame.Fits (standard.forms mnemonic) given operands error.offending := by
  have hclass := Classified.of_convertible hgiven
  rw [encodeInstruction] at hrefused
  cases hencode : standard.encode mnemonic given with
  | ok w =>
      rw [hencode] at hrefused
      cases hrefused
  | error cause =>
      obtain ⟨error, rfl, hblame⟩ := standard_wellFormed.encode_blames standard_judgedByPlace hclass
        hm hencode
      rw [hencode] at hrefused
      refine ⟨given.map Operand.shape, error, hclass, ?_, (Except.error.inj hrefused).symm, hblame⟩
      rw [List.map_map]
      exact List.map_congr_left fun token _ => Operand.text_shape token

/-- Each of two delay timers is taken in its place, but not by one form: the second is blamed. -/
theorem encodeInstruction_blames_timers :
    ∃ error, standard.encodeInstruction "ld" ["dt", "dt"] (some 7) (some "ld dt,dt") =
        .error (.rejected ⟨some 7, some "ld dt,dt", .operands "LD" ["dt", "dt"] error⟩) ∧
      error.offending = some "DT" ∧
      ∃! blame : Blame, blame.Fits (standard.forms "ld") ["dt", "dt"]
        [.keyword "DT", .keyword "DT"] error.offending := by
  have hrefused : standard.encodeInstruction "ld" ["dt", "dt"] (some 7) (some "ld dt,dt") =
      .error (.rejected ⟨some 7, some "ld dt,dt", .operands "LD" ["dt", "dt"]
        (.shape "DT" ["I, Vx", "I, addr", "DT, Vx", "ST, Vx", "F, Vx", "B, Vx", "Vx, DT", "Vx, K",
          "Vx, I", "Vx, Vy", "Vx, kk"])⟩) := rfl
  obtain ⟨operands, error, hoperands, -, hset, hblame⟩ :=
    encodeInstruction_blames (by decide +kernel) (by decide) _ _ hrefused
  have hclass : ["dt", "dt"].mapM Operand.classify =
      .ok [Operand.keyword "DT", Operand.keyword "DT"] := rfl
  rw [hclass, Except.ok.injEq] at hoperands
  subst hoperands
  simp only [Setback.rejected.injEq, Rejection.mk.injEq, Cause.operands.injEq, true_and] at hset
  obtain ⟨-, rfl⟩ := hset
  exact ⟨_, hrefused, rfl, hblame⟩

end Table

end Chip8
