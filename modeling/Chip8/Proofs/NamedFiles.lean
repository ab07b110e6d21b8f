import Chip8.Proofs.FileSystems
import Chip8.Proofs.Naming
import Chip8.Tool.Arguments

/-!
# Files of the current directory

What a file name leads to, when a tool is given it without any directory: the file of that name in
the current directory.

* `IsFileName` is what a name has to fulfil for that: it is one component, no step upwards, and not
  too long.
* `Store.locate_name` is the place, `Store.look_name`, `Store.read_name` and `Store.write_name` are
  what can be done there; `Store.write_long_name` is what becomes of a name that is too long.
* `Arguments.parse_input` reads a name from the command line.
-/

namespace Chip8

/-- **A name that leads to a file of the current directory.** -/
structure IsFileName (name : String) : Prop where
  slash : '/' ∉ name.toList
  null : '\x00' ∉ name.toList
  part : Path.isPart name = true
  up : name ≠ ".."
  short : (Utf8.encode name).length ≤ Store.maxNameBytes

namespace Path

lemma text_ofName (name : String) : (ofName name).text = name := by
  rw [text, if_neg (by simp)]
  exact String.empty_append

end Path

namespace Store

variable {store : Store} {name : String} {bytes : List UInt8}

lemma isLonger_eq_false {text : String} {limit : Nat} (h : (Utf8.encode text).length ≤ limit) :
    isLonger text limit = false := by
  rw [isLonger, decide_eq_false_iff_not]
  omega

lemma hasNull_eq_false {text : String} (h : '\x00' ∉ text.toList) : hasNull text = false := by
  rw [hasNull, List.contains_eq_mem, decide_eq_false_iff_not]
  exact h

/-- **A name leads to its place in the current directory.** -/
lemma locate_name (hname : IsFileName name)
    (hcurrent : store.get? store.current = some .directory) :
    store.locate (.ofName name) = .ok (store.current ++ [name]) := by
  have hpath : isLonger name maxPathBytes = false :=
    isLonger_eq_false (Nat.le_trans hname.short (by decide))
  rw [locate, Path.text_ofName, hasNull_eq_false hname.null, hpath]
  simp [start, walk, hcurrent, isLonger_eq_false hname.short, stepTo, hname.up]

lemma look_name (hname : IsFileName name) (hcurrent : store.get? store.current = some .directory)
    (hfile : store.get? (store.current ++ [name]) = some (.file bytes)) :
    store.look name = .file := by
  refine look_eq_file_iff.mpr ⟨hasNull_eq_false hname.null, ?_, ?_, store.current ++ [name], bytes,
    ?_, hfile⟩
  · rintro (rfl | hlong)
    · exact absurd hname.part (by decide)
    · rw [isLonger_eq_false (Nat.le_trans hname.short (by decide))] at hlong
      cases hlong
  · rw [asksDirectory, Path.pieces_of_plain hname.slash]
    simp [hname.part]
  · rw [Path.parse_name hname.slash hname.part]
    exact locate_name hname hcurrent

lemma read_name (hname : IsFileName name) (hcurrent : store.get? store.current = some .directory)
    (hfile : store.get? (store.current ++ [name]) = some (.file bytes)) :
    store.read (.ofName name) = .ok bytes :=
  read_eq_ok_iff.mpr ⟨_, locate_name hname hcurrent, hfile⟩

lemma write_name (hname : IsFileName name) (hcurrent : store.get? store.current = some .directory)
    (hfile : store.get? (store.current ++ [name]) ≠ some .directory) (bytes : List UInt8) :
    store.write (.ofName name) bytes =
      .ok (store.put (store.current ++ [name]) (.file bytes)) :=
  write_eq_ok_iff.mpr ⟨_, locate_name hname hcurrent, hfile, rfl⟩

/-- **A name that is too long can be given to no file.** -/
lemma write_long_name (hnull : '\x00' ∉ name.toList)
    (hcurrent : store.get? store.current = some .directory)
    (hlong : maxNameBytes < (Utf8.encode name).length) (bytes : List UInt8) :
    store.write (.ofName name) bytes = .error (.about .nameTooLong (.ofName name)) := by
  have hlocate : store.locate (.ofName name) = .error .nameTooLong := by
    rw [locate, Path.text_ofName, hasNull_eq_false hnull, if_neg Bool.false_ne_true]
    split
    · rfl
    · simp [start, walk, hcurrent, isLonger, hlong]
  rw [write, hlocate]

end Store

namespace Arguments

variable {rules : List OptionRule} {name : String}

/-- A name that does not start with a dash is an input file. -/
lemma parse_input (h : name.toList.head? ≠ some '-') (rest : List String) :
    parse rules (name :: rest) = (parse rules rest).map (withInput name) := by
  have hdashes : name ≠ "--" := by
    rintro rfl
    exact h rfl
  have hoption : isOption name = false := by
    rw [isOption]
    split
    · next c cs hname =>
        rw [hname] at h
        exact absurd rfl h
    · rfl
  rw [parse, if_neg hdashes, hoption]
  rfl

/-- A name that has been looked up is the path that it is. -/
lemma input_name {look : String → Store.Look} (hname : IsFileName name) (hlook : look name = .file)
    (options : List (OptionKey × String)) :
    input look ⟨options, [name]⟩ = .ok (.ofName name) := by
  simp only [input, hlook, Path.parse_name hname.slash hname.part]

end Arguments

end Chip8
