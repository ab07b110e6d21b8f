import Chip8.Proofs.Runs
import Mathlib.Logic.Basic

/-!
# What a run tells about its source

A run that is not broken off accounts for every line of its source (`Run.Accounts`): a line that is
not blank has either a word or a record of why it has none, in the order of the lines, with its
number, and the words lie one behind the other whatever was dropped in between.

* `assembleLines_leadsTo` goes along the lines: there is one event for each line that is not blank.
* `instructions_address` goes along the words: each of them takes two bytes.
* What is said about numbers follows from the first of the two, because an event carries the number
  of its line and the numbers of lines increase.
* `assemble_accounts` puts it together.
-/

namespace Chip8

/-! ## Events and lines -/

/-- The number of the line that an event is about. -/
def LineEvent.line : LineEvent → Int
  | .encoded line => line.line
  | .dropped rejection => rejection.diagnostic.line

/-- **What a line that is not blank leads to,** as its encoding tells. -/
def Table.LeadsTo (table : Table) (line : String × Nat) : LineEvent → Prop
  | .encoded e => table.encodeLine line.1 line.2 e.address = .ok e
  | .dropped r => ∀ address, table.encodeLine line.1 line.2 address = .error (.rejected r)

lemma Table.LeadsTo.line_eq {table : Table} {line : String × Nat} {event : LineEvent}
    (h : table.LeadsTo line event) : event.line = line.2 := by
  cases event with
  | encoded e => exact (Table.encodeLine_eq_ok_iff.mp h).2.1
  | dropped r =>
      obtain ⟨cause, -, rfl⟩ := Table.encodeLine_eq_rejected_iff.mp (h 0)
      rfl

/-- What is related to a list has a member for every member of the list. -/
lemma exists_of_forall₂ {α β : Type} {R : α → β → Prop} {as : List α} {bs : List β}
    (h : List.Forall₂ R as bs) {a : α} (ha : a ∈ as) : ∃ b ∈ bs, R a b := by
  induction h with
  | nil => cases ha
  | cons hab _ ih =>
      rcases List.mem_cons.mp ha with rfl | ha
      · exact ⟨_, List.mem_cons_self, hab⟩
      · obtain ⟨b, hb, hrel⟩ := ih ha
        exact ⟨b, List.mem_cons_of_mem _ hb, hrel⟩

/-- **A run has one event for each line that is not blank,** in the order of the lines. -/
lemma assembleLines_leadsTo {table : Table} {address : Int} {lines : List (String × Nat)}
    (h : (assembleLines table address lines).fault = none) :
    List.Forall₂ table.LeadsTo (lines.filter fun line => !Text.isBlankLine line.1)
      (assembleLines table address lines).events := by
  fun_induction assembleLines table address lines with
  | case1 address => exact .nil
  | case2 address source number rest hblank ih =>
      rw [List.filter_cons_of_neg (by simp [hblank])]
      exact ih h
  | case3 address source number rest hblank line hline ih =>
      rw [List.filter_cons_of_pos (by simp [hblank])]
      have hlead : table.LeadsTo (source, number) (.encoded line) := by
        rw [Table.LeadsTo, (Table.encodeLine_eq_ok_iff.mp hline).2.2.1]
        exact hline
      exact .cons hlead (ih h)
  | case4 address source number rest hblank rejection hline ih =>
      rw [List.filter_cons_of_pos (by simp [hblank])]
      have hcause := Table.encodeLine_eq_rejected_iff.mp hline
      exact .cons (fun _ => Table.encodeLine_eq_rejected_iff.mpr hcause) (ih h)
  | case5 address source number rest hblank fault hline => cases h

/-- **The words of a run lie one behind the other.** -/
lemma instructions_address {table : Table} {address : Int} {lines : List (String × Nat)} {k : Nat}
    {e : EncodedLine} (h : (assembleLines table address lines).instructions[k]? = some e) :
    e.address = address + 2 * k := by
  fun_induction assembleLines table address lines generalizing k with
  | case1 address => simp [Run.instructions] at h
  | case2 address source number rest hblank ih => exact ih h
  | case3 address source number rest hblank line hline ih =>
      rw [Run.instructions_cons_encoded] at h
      rcases k with _ | k
      · obtain rfl : line = e := by simpa using h
        simpa using (Table.encodeLine_eq_ok_iff.mp hline).2.2.1
      · rw [List.getElem?_cons_succ] at h
        rw [ih h]
        omega
  | case4 address source number rest hblank rejection hline ih => exact ih h
  | case5 address source number rest hblank fault hline => simp [Run.instructions] at h

/-! ## Numbers -/

lemma map_line_eq {table : Table} {lines : List (String × Nat)} {events : List LineEvent}
    (h : List.Forall₂ table.LeadsTo lines events) :
    events.map LineEvent.line = lines.map fun line => (line.2 : Int) := by
  induction h with
  | nil => rfl
  | cons hlead _ ih => rw [List.map_cons, List.map_cons, ih, hlead.line_eq]

section Numbers

variable {table : Table} {lines : List String} {events : List LineEvent}
  (h : List.Forall₂ table.LeadsTo
    ((lines.zipIdx 1).filter fun line => !Text.isBlankLine line.1) events)
include h

/-- Every line that is not blank has an event. -/
lemma exists_event {i : Nat} {source : String} (hline : lines[i]? = some source)
    (hblank : Text.isBlankLine source = false) :
    ∃ event ∈ events, table.LeadsTo (source, i + 1) event := by
  have hmem : (source, i + 1) ∈ (lines.zipIdx 1).filter fun line => !Text.isBlankLine line.1 := by
    rw [List.mem_filter, List.mk_mem_zipIdx_iff_le_and_getElem?_sub]
    simp [hline, hblank]
  exact exists_of_forall₂ h hmem

/-- Every event is about a line that is not blank. -/
lemma exists_line {event : LineEvent} (hevent : event ∈ events) :
    ∃ i source, lines[i]? = some source ∧ Text.isBlankLine source = false ∧
      table.LeadsTo (source, i + 1) event := by
  obtain ⟨⟨source, number⟩, hmem, hlead⟩ :=
    exists_of_forall₂ (R := flip table.LeadsTo) (List.Forall₂.flip h) hevent
  rw [List.mem_filter, List.mk_mem_zipIdx_iff_le_and_getElem?_sub] at hmem
  obtain ⟨⟨hpos, hline⟩, hblank⟩ := hmem
  obtain ⟨i, rfl⟩ : ∃ i, number = i + 1 := ⟨number - 1, by omega⟩
  rw [Nat.add_sub_cancel] at hline
  exact ⟨i, source, hline, by simpa using hblank, hlead⟩

/-- **The numbers of the events increase.** -/
lemma pairwise_line : events.Pairwise fun a b => a.line < b.line := by
  have hnumbers : (lines.zipIdx 1).Pairwise fun a b => a.2 < b.2 := by
    rw [← List.pairwise_map (f := Prod.snd), List.zipIdx_map_snd]
    exact List.pairwise_lt_range' 1
  rw [← List.pairwise_map (f := LineEvent.line) (R := (· < ·)), map_line_eq h, List.pairwise_map]
  exact (hnumbers.filter _).imp Int.ofNat_lt.mpr

/-- An event is known by its number. -/
lemma event_eq {a b : LineEvent} (ha : a ∈ events) (hb : b ∈ events) (hab : a.line = b.line) :
    a = b := by
  have hnodup : (events.map LineEvent.line).Nodup := by
    rw [List.Nodup, List.pairwise_map]
    exact (pairwise_line h).imp Int.ne_of_lt
  exact List.inj_on_of_nodup_map hnodup ha hb hab

end Numbers

/-! ## The account -/

namespace Run

variable {run : Run}

lemma mem_instructions_iff {e : EncodedLine} :
    e ∈ run.instructions ↔ LineEvent.encoded e ∈ run.events := by
  rw [instructions, List.mem_filterMap]
  constructor
  · rintro ⟨event, hevent, he⟩
    cases event with
    | encoded line => rwa [← Option.some.inj he]
    | dropped rejection => cases he
  · intro he
    exact ⟨.encoded e, he, rfl⟩

lemma mem_rejections_iff {r : Rejection} :
    r ∈ run.rejections ↔ LineEvent.dropped r ∈ run.events := by
  rw [rejections, List.mem_filterMap]
  constructor
  · rintro ⟨event, hevent, hr⟩
    cases event with
    | encoded line => cases hr
    | dropped rejection => rwa [← Option.some.inj hr]
  · intro hr
    exact ⟨.dropped r, hr, rfl⟩

lemma mem_instructions_line_iff {n : Int} :
    n ∈ run.instructions.map (·.line) ↔ ∃ e, LineEvent.encoded e ∈ run.events ∧ e.line = n := by
  simp only [List.mem_map, mem_instructions_iff]

lemma mem_diagnostics_line_iff {n : Int} :
    n ∈ run.diagnostics.map (·.line) ↔
      ∃ r, LineEvent.dropped r ∈ run.events ∧ r.diagnostic.line = n := by
  rw [diagnostics, List.map_map, List.mem_map]
  simp only [mem_rejections_iff, Function.comp_apply]

lemma warnings_trace (file : String) (event : LineEvent) :
    (event.trace file).filter (·.severity = .warning) =
      match event with
      | .encoded _ => []
      | .dropped r => [.warning (file ++ ": dropped " ++ r.diagnostic.text)] := by
  cases event with
  | encoded line =>
      rw [LineEvent.trace]
      cases line.raw <;> rfl
  | dropped r => rfl

/-- **The warnings of a run are about its dropped lines,** one about each of them. -/
lemma warnings_log (run : Run) (file : String) :
    (run.log file).filter (·.severity = .warning) =
      run.diagnostics.map fun d => .warning (file ++ ": dropped " ++ d.text) := by
  obtain ⟨events, fault⟩ := run
  have htotals : ∀ entry : String, [LogEntry.debug entry].filter (·.severity = .warning) = [] :=
    fun _ => rfl
  have hevents : (events.flatMap (·.trace file)).filter (·.severity = .warning) =
      ({ events := events, fault := fault } : Run).diagnostics.map fun d =>
        .warning (file ++ ": dropped " ++ d.text) := by
    induction events with
    | nil => rfl
    | cons event events ih =>
        rw [List.flatMap_cons, List.filter_append, ih, warnings_trace]
        cases event <;> rfl
  rw [log, List.filter_append, hevents]
  cases fault with
  | none => rw [htotals, List.append_nil]
  | some fault => rw [List.filter_nil, List.append_nil]

/-- **An account of the lines of a source,** which are numbered from one. -/
structure Accounts (run : Run) (table : Table) (load : Int) (lines : List String) : Prop where
  /-- The number of a blank line is in neither list. -/
  blank : ∀ (i : Nat) (source : String), lines[i]? = some source →
    Text.isBlankLine source = true →
      (i + 1 : Int) ∉ run.instructions.map (·.line) ∧ (i + 1 : Int) ∉ run.diagnostics.map (·.line)
  /-- The number of any other line is in exactly one of them. -/
  once : ∀ (i : Nat) (source : String), lines[i]? = some source →
    Text.isBlankLine source = false →
      Xor ((i + 1 : Int) ∈ run.instructions.map (·.line))
        ((i + 1 : Int) ∈ run.diagnostics.map (·.line))
  instructions_increase : (run.instructions.map (·.line)).Pairwise (· < ·)
  diagnostics_increase : (run.diagnostics.map (·.line)).Pairwise (· < ·)
  /-- An instruction is the encoding of its line at the address of its place in the image. -/
  encoded : ∀ (k : Nat) (e : EncodedLine), run.instructions[k]? = some e →
    ∃ (i : Nat) (source : String), lines[i]? = some source ∧
      table.encodeLine source (i + 1) (load + 2 * k) = .ok e ∧ e.line = i + 1 ∧
      e.address = load + 2 * k
  /-- A record is that of the rejection of its line, which is kept in the same place. -/
  dropped : ∀ (k : Nat) (d : Diagnostic), run.diagnostics[k]? = some d →
    ∃ (i : Nat) (source : String) (r : Rejection), lines[i]? = some source ∧
      run.rejections[k]? = some r ∧
      (∀ address, table.encodeLine source (i + 1) address = .error (.rejected r)) ∧
      d = ⟨i + 1, r.reason, Text.strip source⟩
  paired : run.diagnostics.length = run.rejections.length
  /-- The image is the words in order, high byte first. -/
  image : run.code = run.instructions.flatMap fun e =>
    [UInt8.ofNat (e.word.value / 256), UInt8.ofNat (e.word.value % 256)]
  size : run.code.length = 2 * run.instructions.length
  /-- There is one warning for each record. -/
  warnings : ∀ file : String, (run.log file).filter (·.severity = .warning) =
    run.diagnostics.map fun d => .warning (file ++ ": dropped " ++ d.text)

section Account

variable {table : Table} {lines : List String}
  (h : List.Forall₂ table.LeadsTo
    ((lines.zipIdx 1).filter fun line => !Text.isBlankLine line.1) run.events)
include h

lemma line_ne_of_blank {i : Nat} {source : String} (hline : lines[i]? = some source)
    (hblank : Text.isBlankLine source = true) : ∀ event ∈ run.events, event.line ≠ i + 1 := by
  intro event hevent heq
  obtain ⟨j, source', hline', hblank', hlead⟩ := exists_line h hevent
  have hnumber : ((j + 1 : Nat) : Int) = i + 1 := hlead.line_eq.symm.trans heq
  obtain rfl : j = i := by omega
  rw [hline, Option.some.injEq] at hline'
  rw [← hline', hblank] at hblank'
  cases hblank'

lemma notMem_of_blank {i : Nat} {source : String} (hline : lines[i]? = some source)
    (hblank : Text.isBlankLine source = true) :
    (i + 1 : Int) ∉ run.instructions.map (·.line) ∧
      (i + 1 : Int) ∉ run.diagnostics.map (·.line) := by
  rw [mem_instructions_line_iff, mem_diagnostics_line_iff]
  constructor
  · rintro ⟨e, he, hnumber⟩
    exact line_ne_of_blank h hline hblank _ he hnumber
  · rintro ⟨r, hr, hnumber⟩
    exact line_ne_of_blank h hline hblank _ hr hnumber

lemma mem_once {i : Nat} {source : String} (hline : lines[i]? = some source)
    (hblank : Text.isBlankLine source = false) :
    Xor ((i + 1 : Int) ∈ run.instructions.map (·.line))
      ((i + 1 : Int) ∈ run.diagnostics.map (·.line)) := by
  obtain ⟨event, hevent, hlead⟩ := exists_event h hline hblank
  have hnumber : event.line = i + 1 := hlead.line_eq
  rw [mem_instructions_line_iff, mem_diagnostics_line_iff]
  -- Any other event of this number would be the same event.
  cases event with
  | encoded e =>
      left
      refine ⟨⟨e, hevent, hnumber⟩, ?_⟩
      rintro ⟨r, hr, hr'⟩
      exact LineEvent.noConfusion (event_eq h hevent hr (hnumber.trans hr'.symm))
  | dropped r =>
      right
      refine ⟨⟨r, hevent, hnumber⟩, ?_⟩
      rintro ⟨e, he, he'⟩
      exact LineEvent.noConfusion (event_eq h hevent he (hnumber.trans he'.symm))

lemma instructions_increase : (run.instructions.map (·.line)).Pairwise (· < ·) := by
  rw [List.pairwise_map]
  refine (pairwise_line h).filterMap _ ?_
  intro a b hab e he e' he'
  cases a with
  | encoded line =>
      cases b with
      | encoded line' => rwa [← Option.some.inj he, ← Option.some.inj he']
      | dropped r => cases he'
  | dropped r => cases he

lemma diagnostics_increase : (run.diagnostics.map (·.line)).Pairwise (· < ·) := by
  rw [diagnostics, List.pairwise_map, List.pairwise_map]
  refine (pairwise_line h).filterMap _ ?_
  intro a b hab r hr r' hr'
  cases a with
  | encoded line => cases hr
  | dropped rejection =>
      cases b with
      | encoded line => cases hr'
      | dropped rejection' => rwa [← Option.some.inj hr, ← Option.some.inj hr']

lemma exists_encodeLine {e : EncodedLine} (he : e ∈ run.instructions) :
    ∃ (i : Nat) (source : String), lines[i]? = some source ∧
      table.encodeLine source (i + 1) e.address = .ok e ∧ e.line = i + 1 := by
  obtain ⟨i, source, hline, -, hlead⟩ := exists_line h (mem_instructions_iff.mp he)
  exact ⟨i, source, hline, hlead, hlead.line_eq⟩

lemma exists_rejection {r : Rejection} (hr : r ∈ run.rejections) :
    ∃ (i : Nat) (source : String), lines[i]? = some source ∧
      (∀ address, table.encodeLine source (i + 1) address = .error (.rejected r)) ∧
      r.diagnostic = ⟨i + 1, r.reason, Text.strip source⟩ := by
  obtain ⟨i, source, hline, -, hlead⟩ := exists_line h (mem_rejections_iff.mp hr)
  obtain ⟨cause, -, rfl⟩ := Table.encodeLine_eq_rejected_iff.mp (hlead 0)
  exact ⟨i, source, hline, hlead, rfl⟩

end Account

end Run

/-- **A run that is not broken off accounts for its source,** whatever the table and the load
    address are. -/
theorem assemble_accounts {table : Table} {load : Int} {source : String}
    (h : (assemble table load source).fault = none) :
    (assemble table load source).Accounts table load (Text.lines source) := by
  have hevents := assembleLines_leadsTo h
  refine ⟨fun i line => Run.notMem_of_blank hevents, fun i line => Run.mem_once hevents,
    Run.instructions_increase hevents, Run.diagnostics_increase hevents, ?_, ?_, ?_, rfl,
    Run.length_code _, Run.warnings_log _⟩
  · intro k e he
    obtain ⟨i, line, hline, hencode, hnumber⟩ :=
      Run.exists_encodeLine hevents (List.mem_of_getElem? he)
    have haddress : e.address = load + 2 * k := instructions_address he
    rw [haddress] at hencode
    exact ⟨i, line, hline, hencode, hnumber, haddress⟩
  · intro k d hd
    rw [Run.diagnostics, List.getElem?_map, Option.map_eq_some_iff] at hd
    obtain ⟨r, hr, rfl⟩ := hd
    obtain ⟨i, line, hline, hencode, hrecord⟩ :=
      Run.exists_rejection hevents (List.mem_of_getElem? hr)
    exact ⟨i, line, r, hline, hr, hencode, hrecord⟩
  · rw [Run.diagnostics, List.length_map]

/-- A word, a blank line, a line that is dropped and an instruction in a free spelling. -/
theorem assemble_accounts_mixed :
    (assemble Table.standard 0x200 "F090\n \nHALT\r\n ld v1,10").fault = none ∧
      (assemble Table.standard 0x200 "F090\n \nHALT\r\n ld v1,10").Accounts Table.standard 0x200
        ["F090", " ", "HALT", " ld v1,10"] := by
  have hrun : (assemble Table.standard 0x200 "F090\n \nHALT\r\n ld v1,10").fault = none := by
    decide +kernel
  have hlines : Text.lines "F090\n \nHALT\r\n ld v1,10" = ["F090", " ", "HALT", " ld v1,10"] := by
    decide
  exact ⟨hrun, hlines ▸ assemble_accounts hrun⟩

end Chip8
