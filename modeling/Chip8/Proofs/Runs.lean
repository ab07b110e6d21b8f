import Chip8.Assembly
import Chip8.Proofs.Tokens
import Mathlib.Data.List.Forall2
import Mathlib.Data.List.Nodup
import Mathlib.Tactic.Common

/-!
# Runs line by line

A run goes along the lines of a source.  This file has the equations for one line, and from them, by
induction over the lines, what every run does, whatever the table and whatever the lines.

* `Table.encodeLine_eq_ok_iff` and its companions take the place of a line away: what becomes of a
  line depends on its text alone (`Table.lineWord`).
* `assembleLines_blank`, `assembleLines_encoded`, `assembleLines_dropped` and
  `assembleLines_faulted` are the four things that can become of the first line.
* `assembleLines_append` cuts a run in two: the second part begins at the address where the first
  one ended.
* `exists_of_fault` finds the line that broke a run off, and `fault_eq_none_iff` says when there is
  none.

What a run tells about its source is put together from these in `Chip8.Proofs.Accounts`,
`Chip8.Proofs.Concatenation`, `Chip8.Proofs.Completion` and `Chip8.Proofs.Sessions`.
-/

namespace Chip8

/-! ## Lines and their places -/

namespace Table

variable {table : Table} {source : String} {line address : Int}

/-- **A line is encoded for its text;** its place is only carried along. -/
lemma encodeLine_eq_ok_iff {e : EncodedLine} :
    table.encodeLine source line address = .ok e ↔
      table.lineWord source = .ok (e.word, e.raw) ∧ e.line = line ∧ e.address = address ∧
        e.source = source := by
  obtain ⟨l, a, w, s, raw⟩ := e
  rw [encodeLine]
  cases table.lineWord source with
  | ok result =>
      obtain ⟨w', raw'⟩ := result
      simp only [Except.ok.injEq, EncodedLine.mk.injEq, Prod.mk.injEq]
      grind
  | error setback => simp

lemma encodeLine_eq_rejected_iff {r : Rejection} :
    table.encodeLine source line address = .error (.rejected r) ↔
      ∃ cause, table.lineWord source = .error (.rejected cause) ∧
        r = ⟨some line, some source, cause⟩ := by
  rw [encodeLine]
  cases table.lineWord source with
  | ok result => simp
  | error setback =>
      cases setback with
      | rejected cause => simp [Setback.map, eq_comm]
      | faulted fault => simp [Setback.map]

lemma encodeLine_eq_faulted_iff {fault : Fault} :
    table.encodeLine source line address = .error (.faulted fault) ↔
      table.lineWord source = .error (.faulted fault) := by
  rw [encodeLine]
  cases table.lineWord source with
  | ok result => simp
  | error setback => cases setback <;> simp [Setback.map]

/-- A blank line has no tokens, so nothing would become of it if it were encoded. -/
lemma lineWord_blank (h : Text.isBlankLine source = true) :
    table.lineWord source = .error (.rejected (.unencodable "")) := by
  have htrim : Text.trim source.toList = [] := (Text.trim_eq_nil_iff _).mpr h
  have ht : tokens source = [] := by
    rw [tokens, tokenChars_eq, htrim, pieces_nil, List.map_nil]
  rw [lineWord, ht]

end Table

/-! ## Runs from their parts -/

namespace Run

section Cons

variable (line : EncodedLine) (rejection : Rejection) (run : Run)

@[simp] lemma instructions_cons_encoded :
    (run.cons (.encoded line)).instructions = line :: run.instructions := rfl

@[simp] lemma rejections_cons_encoded :
    (run.cons (.encoded line)).rejections = run.rejections := rfl

@[simp] lemma rejections_cons_dropped :
    (run.cons (.dropped rejection)).rejections = rejection :: run.rejections := rfl

@[simp] lemma code_cons_encoded :
    (run.cons (.encoded line)).code = line.word.bytes ++ run.code := rfl

@[simp] lemma code_cons_dropped : (run.cons (.dropped rejection)).code = run.code := rfl

end Cons

/-- **A run that goes on as another one.** -/
def append (first second : Run) : Run := { second with events := first.events ++ second.events }

section Append

variable (first second : Run)

@[simp] lemma instructions_append :
    (first.append second).instructions = first.instructions ++ second.instructions :=
  List.filterMap_append

@[simp] lemma rejections_append :
    (first.append second).rejections = first.rejections ++ second.rejections :=
  List.filterMap_append

@[simp] lemma diagnostics_append :
    (first.append second).diagnostics = first.diagnostics ++ second.diagnostics := by
  rw [diagnostics, rejections_append, List.map_append]
  rfl

@[simp] lemma code_append : (first.append second).code = first.code ++ second.code := by
  rw [code, instructions_append, List.flatMap_append]
  rfl

end Append

/-- Every word of an image has two bytes. -/
lemma length_code (run : Run) : run.code.length = 2 * run.instructions.length := by
  rw [code, List.length_flatMap]
  simp [Word.bytes, Nat.mul_comm]

end Run

/-! ## A run line by line -/

section Steps

variable {table : Table} {address : Int} {source : String} {number : Nat}
  (rest : List (String × Nat))

lemma assembleLines_blank (h : Text.isBlankLine source = true) :
    assembleLines table address ((source, number) :: rest) = assembleLines table address rest := by
  rw [assembleLines, if_pos h]

variable (hblank : ¬ Text.isBlankLine source = true)
include hblank

lemma assembleLines_encoded {line : EncodedLine}
    (h : table.encodeLine source number address = .ok line) :
    assembleLines table address ((source, number) :: rest) =
      (assembleLines table (address + 2) rest).cons (.encoded line) := by
  rw [assembleLines, if_neg hblank, h]

lemma assembleLines_dropped {rejection : Rejection}
    (h : table.encodeLine source number address = .error (.rejected rejection)) :
    assembleLines table address ((source, number) :: rest) =
      (assembleLines table address rest).cons (.dropped rejection) := by
  rw [assembleLines, if_neg hblank, h]

lemma assembleLines_faulted {fault : Fault}
    (h : table.encodeLine source number address = .error (.faulted fault)) :
    assembleLines table address ((source, number) :: rest) = { fault := some fault } := by
  rw [assembleLines, if_neg hblank, h]

end Steps

section Lines

variable {table : Table} {address : Int}

/-- **A run over two lists of lines is the run over the first,** if that was not broken off, and the
    run over the second from where it ended. -/
theorem assembleLines_append {front : List (String × Nat)}
    (h : (assembleLines table address front).fault = none) (back : List (String × Nat)) :
    assembleLines table address (front ++ back) =
      (assembleLines table address front).append
        (assembleLines table (address + (assembleLines table address front).code.length) back) := by
  fun_induction assembleLines table address front with
  | case1 address =>
      simp only [Run.code, Run.instructions, List.filterMap_nil, List.flatMap_nil, List.length_nil,
        Int.natCast_zero, Int.add_zero, List.nil_append]
      rfl
  | case2 address source number rest hblank ih =>
      rw [List.cons_append, assembleLines_blank _ hblank, ih h]
  | case3 address source number rest hblank line hline ih =>
      set image := (assembleLines table (address + 2) rest).code with himage
      have hnext : address + (line.word.bytes ++ image).length = address + 2 + image.length := by
        rw [List.length_append, Word.bytes, List.length_cons, List.length_singleton]
        omega
      rw [List.cons_append, assembleLines_encoded _ hblank hline, Run.code_cons_encoded, ← himage,
        hnext, ih h]
      rfl
  | case4 address source number rest hblank rejection hline ih =>
      rw [List.cons_append, assembleLines_dropped _ hblank hline, Run.code_cons_dropped, ih h]
      rfl
  | case5 address source number rest hblank fault hline => cases h

/-- **A blank line at the end changes nothing,** wherever the run ended. -/
lemma assembleLines_blank_end (lines : List (String × Nat)) {source : String} {number : Nat}
    (h : Text.isBlankLine source = true) :
    assembleLines table address (lines ++ [(source, number)]) =
      assembleLines table address lines := by
  fun_induction assembleLines table address lines with
  | case1 address => rw [List.nil_append, assembleLines_blank _ h, assembleLines]
  | case2 address first number rest hblank ih =>
      rw [List.cons_append, assembleLines_blank _ hblank, ih]
  | case3 address first number rest hblank line hline ih =>
      rw [List.cons_append, assembleLines_encoded _ hblank hline, ih]
  | case4 address first number rest hblank rejection hline ih =>
      rw [List.cons_append, assembleLines_dropped _ hblank hline, ih]
  | case5 address first number rest hblank fault hline =>
      rw [List.cons_append, assembleLines_faulted _ hblank hline]

/-- A dropped line has a number. -/
lemma isSome_of_mem_rejections {lines : List (String × Nat)} :
    ∀ r ∈ (assembleLines table address lines).rejections, r.line.isSome := by
  fun_induction assembleLines table address lines with
  | case1 address => exact List.forall_mem_nil _
  | case2 address source number rest hblank ih => exact ih
  | case3 address source number rest hblank line hline ih => exact ih
  | case4 address source number rest hblank rejection hline ih =>
      obtain ⟨cause, -, rfl⟩ := Table.encodeLine_eq_rejected_iff.mp hline
      exact List.forall_mem_cons.mpr ⟨rfl, ih⟩
  | case5 address source number rest hblank fault hline => exact List.forall_mem_nil _

/-- **A run is broken off by the first line that cannot be judged,** and keeps what it had. -/
theorem exists_of_fault {lines : List (String × Nat)} {fault : Fault}
    (h : (assembleLines table address lines).fault = some fault) :
    ∃ front line back, lines = front ++ line :: back ∧
      table.lineWord line.1 = .error (.faulted fault) ∧
      assembleLines table address front =
        { events := (assembleLines table address lines).events } := by
  fun_induction assembleLines table address lines with
  | case1 address => cases h
  | case2 address source number rest hblank ih =>
      obtain ⟨front, line, back, rfl, hline, hfront⟩ := ih h
      refine ⟨(source, number) :: front, line, back, rfl, hline, ?_⟩
      rw [assembleLines_blank _ hblank, hfront]
  | case3 address source number rest hblank encoded hencoded ih =>
      obtain ⟨front, line, back, rfl, hline, hfront⟩ := ih h
      refine ⟨(source, number) :: front, line, back, rfl, hline, ?_⟩
      rw [assembleLines_encoded _ hblank hencoded, hfront]
      rfl
  | case4 address source number rest hblank rejection hrejected ih =>
      obtain ⟨front, line, back, rfl, hline, hfront⟩ := ih h
      refine ⟨(source, number) :: front, line, back, rfl, hline, ?_⟩
      rw [assembleLines_dropped _ hblank hrejected, hfront]
      rfl
  | case5 address source number rest hblank fault' hline =>
      obtain rfl : fault' = fault := Option.some.inj h
      exact ⟨[], (source, number), rest, rfl, Table.encodeLine_eq_faulted_iff.mp hline, rfl⟩

/-- **A run ends by itself exactly if every line can be judged.** -/
theorem fault_eq_none_iff {lines : List (String × Nat)} :
    (assembleLines table address lines).fault = none ↔
      ∀ line ∈ lines, ∀ fault, table.lineWord line.1 ≠ .error (.faulted fault) := by
  constructor
  · intro h
    fun_induction assembleLines table address lines with
    | case1 address => exact List.forall_mem_nil _
    | case2 address source number rest hblank ih =>
        refine List.forall_mem_cons.mpr ⟨fun fault hfault => ?_, ih h⟩
        rw [Table.lineWord_blank hblank] at hfault
        simp at hfault
    | case3 address source number rest hblank encoded hencoded ih =>
        refine List.forall_mem_cons.mpr ⟨fun fault hfault => ?_, ih h⟩
        rw [(Table.encodeLine_eq_ok_iff.mp hencoded).1] at hfault
        cases hfault
    | case4 address source number rest hblank rejection hrejected ih =>
        refine List.forall_mem_cons.mpr ⟨fun fault hfault => ?_, ih h⟩
        obtain ⟨cause, hcause, -⟩ := Table.encodeLine_eq_rejected_iff.mp hrejected
        rw [hcause] at hfault
        simp at hfault
    | case5 address source number rest hblank fault hline => cases h
  · intro h
    rw [Option.eq_none_iff_forall_ne_some]
    intro fault hfault
    obtain ⟨front, line, back, rfl, hline, -⟩ := exists_of_fault hfault
    exact h line (List.mem_append_right _ List.mem_cons_self) fault hline

end Lines

end Chip8
