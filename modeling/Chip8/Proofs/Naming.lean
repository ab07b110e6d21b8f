import Chip8.Files.Naming
import Chip8.Proofs.Tokens

/-!
# Names of output files

A path that has been read from a text has components without slashes, so a name that is made from
one of them by trading its ending is a name again: an input with a name has an output
(`assembledPath_eq`, `disassembledPath_eq`).

* `Path.parse_name` reads a path that consists of a name, `Path.mem_parse` tells what the components
  of any path are.
* `Path.tradeEnding_eq` is the new path, `dropEnding_append` says what the ending is traded for.

No environment sets the endings (`Settings.exists_ofEnvironment`), so they are the default ones.
-/

namespace Chip8

namespace Path

/-! ## Components -/

/-- **A component is neither empty nor a dot, and has no slash.** -/
lemma mem_parse {text part : String} (h : part ∈ (parse text).parts) :
    isPart part = true ∧ '/' ∉ part.toList := by
  obtain ⟨hmem, hpart⟩ := List.mem_filter.mp h
  obtain ⟨piece, hpiece, rfl⟩ := List.mem_map.mp hmem
  refine ⟨hpart, fun hslash => ?_⟩
  rw [String.toList_ofList] at hslash
  exact absurd (Text.mem_of_mem_splitOnP hpiece _ hslash).2 (by decide)

lemma pieces_of_plain {name : String} (h : '/' ∉ name.toList) : pieces name.toList = [name] := by
  have hsplit : name.toList.splitOnP (· == '/') = [name.toList] :=
    List.splitOnP_eq_singleton fun c hc => beq_eq_false_iff_ne.mpr fun hslash => h (hslash ▸ hc)
  rw [pieces, hsplit, List.map_singleton, String.ofList_toList]

/-- **The path that is a name.** -/
abbrev ofName (name : String) : Path := ⟨.current, [name]⟩

lemma parse_name {name : String} (h : '/' ∉ name.toList) (hpart : isPart name = true) :
    parse name = ofName name := by
  have hanchor : anchorOf name.toList = .current := by
    rcases hname : name.toList with _ | ⟨c, cs⟩
    · rfl
    · have hc : c ≠ '/' := fun hc => h (hname ▸ hc ▸ List.mem_cons_self)
      simp [anchorOf, hc]
  rw [parse, hanchor, pieces_of_plain h, List.filter_cons_of_pos hpart, List.filter_nil]

lemma name_mem {path : Path} (h : path.parts ≠ []) : path.name ∈ path.parts := by
  rw [name, List.getLastD_eq_getLast?, List.getLast?_eq_some_getLast h]
  exact List.getLast_mem h

/-! ## New names -/

lemma isName_of_plain {name : String} (h : '/' ∉ name.toList) (hpart : isPart name = true) :
    isName name = true := by
  have hhead : name.toList.head? ≠ some '/' := fun hh => h (List.mem_of_head? hh)
  have hlast : name.toList.getLast? ≠ some '/' := fun hl => h (List.mem_of_getLast? hl)
  simp [isName, hhead, hlast, pieces_of_plain h, hpart]

/-- What ends in more than one character is neither empty nor a dot. -/
lemma isPart_append {ending : String} (h : 2 ≤ ending.length) (stem : String) :
    isPart (stem ++ ending) = true := by
  have hlength : 2 ≤ (stem ++ ending).length := by
    rw [String.length_append]
    omega
  rw [isPart, Bool.and_eq_true, bne_iff_ne, bne_iff_ne]
  constructor <;> intro heq <;> rw [heq] at hlength <;> exact absurd hlength (by decide)

end Path

/-! ## Endings -/

/-- **The ending that a name has is dropped.** -/
lemma dropEnding_append (stem ending : String) : dropEnding (stem ++ ending) ending = stem := by
  have hsuffix : ending.toList.isSuffixOf (stem ++ ending).toList = true := by
    rw [List.isSuffixOf_iff_suffix, String.toList_append]
    exact List.suffix_append _ _
  rw [dropEnding, if_pos hsuffix, String.length_append, Nat.add_sub_cancel, String.toList_append,
    ← String.length_toList, List.take_left, String.ofList_toList]

lemma slash_notMem_dropEnding {name : String} (h : '/' ∉ name.toList) (ending : String) :
    '/' ∉ (dropEnding name ending).toList := by
  rw [dropEnding]
  split
  · rw [String.toList_ofList]
    exact fun hmem => h (List.mem_of_mem_take hmem)
  · exact h

namespace Path

/-- **A name trades its ending for one of more than one character.** -/
lemma tradeEnding_eq {path : Path} (old new : String) (hne : path.parts ≠ [])
    (hplain : '/' ∉ path.name.toList) (hnew : '/' ∉ new.toList) (hlength : 2 ≤ new.length) :
    path.tradeEnding old new =
      .ok { path with parts := path.parts.dropLast ++ [dropEnding path.name old ++ new] } := by
  have hslash : '/' ∉ (dropEnding path.name old ++ new).toList := by
    rw [String.toList_append, List.mem_append]
    exact not_or.mpr ⟨slash_notMem_dropEnding hplain old, hnew⟩
  rw [tradeEnding, withName, if_neg hne, if_pos (isName_of_plain hslash (isPart_append hlength _))]

end Path

/-! ## Output files -/

/-- **An environment sets the load address and the log level only.** -/
lemma Settings.exists_ofEnvironment (env : String → Option String) :
    ∃ address level, ofEnvironment env = { loadAddress := address, logLevel := level } := by
  have hload : ∃ address, ({} : Settings).withLoadAddress (env "CHASM_LOAD_ADDRESS") =
      { loadAddress := address } := by
    rw [withLoadAddress]
    split
    · exact ⟨_, rfl⟩
    · exact ⟨_, rfl⟩
  obtain ⟨address, hload⟩ := hload
  rw [ofEnvironment, hload, withLogLevel]
  split
  · split
    · exact ⟨address, _, rfl⟩
    · exact ⟨address, _, rfl⟩
  · exact ⟨address, _, rfl⟩

variable {env : String → Option String} {path : Path}

/-- **The ROM file of an assembly file,** by any environment. -/
lemma assembledPath_eq (hne : path.parts ≠ []) (hplain : '/' ∉ path.name.toList) :
    assembledPath (Settings.ofEnvironment env) path =
      .ok ⟨path.anchor,
        path.parts.dropLast ++ [dropEnding path.name ".chasm" ++ "_a.ch8"]⟩ := by
  obtain ⟨address, level, henv⟩ := Settings.exists_ofEnvironment env
  rw [assembledPath, henv]
  exact Path.tradeEnding_eq ".chasm" "_a.ch8" hne hplain (by decide) (by decide)

/-- **The assembly file of a ROM file,** by any environment. -/
lemma disassembledPath_eq (hne : path.parts ≠ []) (hplain : '/' ∉ path.name.toList) :
    disassembledPath (Settings.ofEnvironment env) path =
      .ok ⟨path.anchor,
        path.parts.dropLast ++ [dropEnding path.name ".ch8" ++ ".chasm"]⟩ := by
  obtain ⟨address, level, henv⟩ := Settings.exists_ofEnvironment env
  rw [disassembledPath, henv]
  exact Path.tradeEnding_eq ".ch8" ".chasm" hne hplain (by decide) (by decide)

variable {stem : String}

lemma assembledPath_name (h : '/' ∉ (stem ++ ".chasm").toList) :
    assembledPath (Settings.ofEnvironment env) (.ofName (stem ++ ".chasm")) =
      .ok (.ofName (stem ++ "_a.ch8")) := by
  have hname : (Path.ofName (stem ++ ".chasm")).name = stem ++ ".chasm" := rfl
  rw [assembledPath_eq (List.cons_ne_nil _ _) (hname ▸ h), hname, dropEnding_append]
  rfl

lemma disassembledPath_name (h : '/' ∉ (stem ++ ".ch8").toList) :
    disassembledPath (Settings.ofEnvironment env) (.ofName (stem ++ ".ch8")) =
      .ok (.ofName (stem ++ ".chasm")) := by
  have hname : (Path.ofName (stem ++ ".ch8")).name = stem ++ ".ch8" := rfl
  rw [disassembledPath_eq (List.cons_ne_nil _ _) (hname ▸ h), hname, dropEnding_append]
  rfl

end Chip8
