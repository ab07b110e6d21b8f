import Chip8.Proofs.Lines
import Chip8.Proofs.Runs

/-!
# Assembling one source behind another

Nothing but its place passes from one line to the next: two sources put one behind the other give
the image of the first and the image of the second (`assemble_append`).  The lines of the second
source keep their words and their reasons; their numbers go up by the lines before them and their
addresses by the bytes before them.

* `assembleLines_shift` moves a run to another place, by the equations for one line.
* `assemble_lineFeed` lets a source end in any way at the seam: a line feed behind it adds a blank
  line or nothing, and a blank line changes nothing in the run.
* The rest is `assembleLines_append` on the lines on both sides of the seam.
-/

namespace Chip8

/-! ## Moving a run -/

/-- **An encoded line so many lines and bytes further on.** -/
def EncodedLine.shift (lines bytes : Nat) (e : EncodedLine) : EncodedLine :=
  { e with line := e.line + lines, address := e.address + bytes }

/-- **The record of a dropped line so many lines further on.** -/
def Diagnostic.shift (lines : Nat) (d : Diagnostic) : Diagnostic :=
  { d with line := d.line + lines }

def Rejection.shift (lines : Nat) (r : Rejection) : Rejection :=
  { r with line := r.line.map (· + lines) }

def LineEvent.shift (lines bytes : Nat) : LineEvent → LineEvent
  | .encoded e => .encoded (e.shift lines bytes)
  | .dropped r => .dropped (r.shift lines)

/-- **A run so many lines and bytes further on.** -/
def Run.shift (lines bytes : Nat) (run : Run) : Run :=
  { run with events := run.events.map (·.shift lines bytes) }

section Shift

variable {table : Table} {address : Int} (n bytes : Nat)

lemma Table.encodeLine_shift_ok {source : String} {line : Int} {e : EncodedLine}
    (h : table.encodeLine source line address = .ok e) :
    table.encodeLine source (line + n) (address + bytes) = .ok (e.shift n bytes) := by
  obtain ⟨hword, rfl, rfl, rfl⟩ := encodeLine_eq_ok_iff.mp h
  exact encodeLine_eq_ok_iff.mpr ⟨hword, rfl, rfl, rfl⟩

lemma Table.encodeLine_shift_rejected {source : String} {line : Int} {r : Rejection}
    (h : table.encodeLine source line address = .error (.rejected r)) (address' : Int) :
    table.encodeLine source (line + n) address' = .error (.rejected (r.shift n)) := by
  obtain ⟨cause, hcause, rfl⟩ := encodeLine_eq_rejected_iff.mp h
  exact encodeLine_eq_rejected_iff.mpr ⟨cause, hcause, rfl⟩

/-- **A run over lines further on is the run further on.** -/
theorem assembleLines_shift (lines : List (String × Nat)) :
    assembleLines table (address + bytes) (lines.map (Prod.map id (· + n))) =
      (assembleLines table address lines).shift n bytes := by
  fun_induction assembleLines table address lines with
  | case1 address => rfl
  | case2 address source number rest hblank ih =>
      rw [List.map_cons, Prod.map_apply, id_eq, assembleLines_blank _ hblank, ih]
  | case3 address source number rest hblank line hline ih =>
      have hshift := Table.encodeLine_shift_ok n bytes hline
      rw [Int.add_right_comm] at ih
      rw [List.map_cons, Prod.map_apply, id_eq, assembleLines_encoded _ hblank hshift, ih]
      rfl
  | case4 address source number rest hblank rejection hline ih =>
      have hshift := Table.encodeLine_shift_rejected n hline (address + bytes)
      rw [List.map_cons, Prod.map_apply, id_eq, assembleLines_dropped _ hblank hshift, ih]
      rfl
  | case5 address source number rest hblank fault hline =>
      have hfault := Table.encodeLine_eq_faulted_iff.mp hline
      rw [List.map_cons, Prod.map_apply, id_eq,
        assembleLines_faulted _ hblank (Table.encodeLine_eq_faulted_iff.mpr hfault)]
      rfl

end Shift

namespace Run

variable (n bytes : Nat) (run : Run)

lemma instructions_shift :
    (run.shift n bytes).instructions = run.instructions.map (·.shift n bytes) := by
  rw [instructions, instructions, shift, List.filterMap_map, List.map_filterMap]
  congr 1
  funext event
  cases event <;> rfl

lemma rejections_shift : (run.shift n bytes).rejections = run.rejections.map (·.shift n) := by
  rw [rejections, rejections, shift, List.filterMap_map, List.map_filterMap]
  congr 1
  funext event
  cases event <;> rfl

/-- A run keeps its words where it is moved to. -/
lemma code_shift : (run.shift n bytes).code = run.code := by
  rw [code, instructions_shift, List.flatMap_map]
  rfl

lemma diagnostics_shift (h : ∀ r ∈ run.rejections, r.line.isSome) :
    (run.shift n bytes).diagnostics = run.diagnostics.map (·.shift n) := by
  rw [diagnostics, diagnostics, rejections_shift, List.map_map, List.map_map]
  refine List.map_congr_left fun r hr => ?_
  obtain ⟨line, source, cause⟩ := r
  obtain ⟨number, rfl⟩ : ∃ number, line = some number := Option.isSome_iff_exists.mp (h _ hr)
  rfl

end Run

/-! ## The seam -/

section Seam

variable {table : Table} {load : Int}

/-- **A line feed behind a source changes nothing,** even if the source breaks the run off. -/
lemma assemble_lineFeed (source : String) :
    assemble table load (source ++ "\n") = assemble table load source := by
  rcases Text.lines_lineFeed source with hlines | hlines
  · rw [assemble, hlines, assemble]
  · rw [assemble, hlines, List.zipIdx_append, List.zipIdx_singleton,
      assembleLines_blank_end _ rfl, assemble]

/-- **Assembling two sources with a line feed between them gives the image of the one and the image
    of the other.**  The instructions and the records are those of the first source and those of the
    second, further on by the lines and the bytes before them. -/
theorem assemble_append {first second : String}
    (hfirst : (assemble table load first).fault = none)
    (hsecond : (assemble table load second).fault = none) :
    ∃ run, assemble table load (first ++ "\n" ++ second) = run ∧ run.fault = none ∧
      run.code = (assemble table load first).code ++ (assemble table load second).code ∧
      run.instructions = (assemble table load first).instructions ++
        (assemble table load second).instructions.map
          (·.shift (Text.lines (first ++ "\n")).length (assemble table load first).code.length) ∧
      run.diagnostics = (assemble table load first).diagnostics ++
        (assemble table load second).diagnostics.map
          (·.shift (Text.lines (first ++ "\n")).length) := by
  set n := (Text.lines (first ++ "\n")).length
  have hfront : assembleLines table load ((Text.lines (first ++ "\n")).zipIdx 1) =
      assemble table load first := assemble_lineFeed first
  have hback : (Text.lines second).zipIdx (1 + n) =
      ((Text.lines second).zipIdx 1).map (Prod.map id (· + n)) := by
    rw [List.map_snd_add_zipIdx_eq_zipIdx, Nat.add_comm]
  have hrun : assemble table load (first ++ "\n" ++ second) =
      (assemble table load first).append
        ((assemble table load second).shift n (assemble table load first).code.length) := by
    have hend := hfirst
    rw [← hfront] at hend
    rw [assemble, Text.lines_seam, List.zipIdx_append, assembleLines_append hend, hfront, hback,
      assembleLines_shift, ← assemble]
  have hnumbers : ∀ r ∈ (assemble table load second).rejections, r.line.isSome :=
    isSome_of_mem_rejections
  refine ⟨_, hrun, hsecond, ?_, ?_, ?_⟩
  · rw [Run.code_append, Run.code_shift]
  · rw [Run.instructions_append, Run.instructions_shift]
  · rw [Run.diagnostics_append, Run.diagnostics_shift _ _ _ hnumbers]

/-- The first source ends in a carriage return, the second begins with a line that is dropped. -/
theorem assemble_append_return :
    (assemble Table.standard 0x200 "CLS\r").fault = none ∧
      (assemble Table.standard 0x200 "HALT\nJP 512").fault = none ∧
      ∃ run, assemble Table.standard 0x200 ("CLS\r" ++ "\n" ++ "HALT\nJP 512") = run ∧
        run.code = [0x00, 0xE0, 0x12, 0x00] ∧
        run.instructions.map (fun e => (e.line, e.address)) = [(1, 0x200), (3, 0x202)] ∧
        run.diagnostics.map (·.line) = [2] := by
  have hfirst : (assemble Table.standard 0x200 "CLS\r").fault = none := by decide +kernel
  have hsecond : (assemble Table.standard 0x200 "HALT\nJP 512").fault = none := by decide +kernel
  obtain ⟨run, hrun, -, hcode, hinstructions, hdiagnostics⟩ := assemble_append hfirst hsecond
  refine ⟨hfirst, hsecond, run, hrun, ?_, ?_, ?_⟩
  · rw [hcode]
    decide +kernel
  · rw [hinstructions]
    decide +kernel
  · rw [hdiagnostics]
    decide +kernel

end Seam

end Chip8
