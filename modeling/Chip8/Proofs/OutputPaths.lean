import Chip8.Proofs.Naming

/-!
# Output files stand beside their inputs

An output path that is derived from an input path leads into the directory of the input and is
never the input itself (`outputs_beside`).  That holds for every name, whatever it ends in, and also
for the ROM of a source that was itself derived from a ROM.

* `Path.beside` is the path of another name in the same directory, and every derived path is one
  (`Path.IsNormal.tradeEnding_beside`).
* `Trades.ne` is why the name changes: what is put on is neither empty nor what was taken away.
* `Path.parse_text` reads a path in normal form back from its text, so it makes no difference
  whether a derived path is handed on as a path or as a text.
-/

namespace Chip8

namespace Path

/-! ## Normal form -/

/-- **A component:** what a path can have between two slashes. -/
def IsComponent (part : String) : Prop := isPart part = true ∧ '/' ∉ part.toList

/-- **A path in normal form** has components only. -/
def IsNormal (path : Path) : Prop := ∀ part ∈ path.parts, IsComponent part

lemma isNormal_parse (text : String) : (parse text).IsNormal := fun _ => mem_parse

lemma pieces_slash (cs : List Char) : pieces ('/' :: cs) = "" :: pieces cs := by
  rw [pieces, pieces, List.splitOnP_cons_eq_if_modifyHead, if_pos (by decide), List.map_cons]

section Components

variable {parts : List String} (h : ∀ part ∈ parts, IsComponent part)
include h

/-- Components that are joined by slashes are found again. -/
lemma pieces_intercalate : (pieces ("/".intercalate parts).toList).filter isPart = parts := by
  by_cases hne : parts = []
  · rw [hne]
    decide
  · have hslash : ∀ piece ∈ parts.map String.toList, '/' ∉ piece := by
      intro piece hpiece
      obtain ⟨part, hpart, rfl⟩ := List.mem_map.mp hpiece
      exact (h part hpart).2
    have hsplit := List.splitOn_intercalate '/' hslash (by simpa using hne)
    have hlist : (parts.map String.toList).map String.ofList = parts := by simp
    have hs : "/".toList = ['/'] := rfl
    rw [List.splitOn_eq_splitOnP] at hsplit
    rw [pieces, String.toList_intercalate, hs, hsplit, hlist, List.filter_eq_self]
    exact fun part hpart => (h part hpart).1

/-- What is joined from components does not begin with a slash. -/
lemma head?_intercalate : ("/".intercalate parts).toList.head? ≠ some '/' := by
  rcases parts with _ | ⟨first, rest⟩
  · decide
  · obtain ⟨hpart, hslash⟩ := h first List.mem_cons_self
    rw [isPart, Bool.and_eq_true, bne_iff_ne] at hpart
    have hne : first.toList ≠ [] := by simpa using hpart.1
    obtain ⟨c, cs, hfirst⟩ := List.exists_cons_of_ne_nil hne
    have hc : c ≠ '/' := by
      rintro rfl
      exact hslash (hfirst ▸ List.mem_cons_self)
    rw [String.toList_intercalate, List.map_cons, hfirst]
    cases rest <;> simp [hc]

end Components

lemma parse_anchor {rest : String} (h : rest.toList.head? ≠ some '/') (anchor : Anchor) :
    parse (anchor.text ++ rest) = ⟨anchor, (pieces rest.toList).filter isPart⟩ := by
  have hanchor : anchorOf rest.toList = .current ∧ anchorOf ('/' :: rest.toList) = .root ∧
      anchorOf ('/' :: '/' :: rest.toList) = .doubleRoot := by
    rcases hrest : rest.toList with _ | ⟨c, cs⟩
    · decide
    · have hc : c ≠ '/' := by
        rw [hrest] at h
        simpa using h
      simp [anchorOf, hc]
  obtain ⟨hcurrent, hroot, hdouble⟩ := hanchor
  cases anchor with
  | current => simp [parse, Anchor.text, hcurrent]
  | root => simp [parse, Anchor.text, hroot, pieces_slash, isPart]
  | doubleRoot => simp [parse, Anchor.text, hdouble, pieces_slash, isPart]

/-- **A path in normal form is read back from its text.** -/
theorem parse_text {path : Path} (h : path.IsNormal) : parse path.text = path := by
  rw [text]
  split_ifs with hdot
  · obtain ⟨anchor, parts⟩ := path
    obtain ⟨rfl, rfl⟩ := hdot
    decide
  · rw [parse_anchor (head?_intercalate h), pieces_intercalate h]

/-! ## Paths in one directory -/

/-- The directory that a path stands in; a path without components stands in itself. -/
def parent (path : Path) : Path := { path with parts := path.parts.dropLast }

/-- **The path of another name in the same directory.** -/
def beside (path : Path) (name : String) : Path :=
  { path with parts := path.parts.dropLast ++ [name] }

section Beside

variable (path : Path) (name : String)

@[simp] lemma parts_beside : (path.beside name).parts = path.parts.dropLast ++ [name] := rfl

@[simp] lemma name_beside : (path.beside name).name = name := by
  simp [Path.name, List.getLastD_eq_getLast?]

@[simp] lemma parent_beside : (path.beside name).parent = path.parent := by
  simp [parent, beside]

@[simp] lemma beside_beside (other : String) :
    (path.beside name).beside other = path.beside other := by
  simp [beside]

variable {path name}

lemma IsComponent.ne_empty {part : String} (h : IsComponent part) : part ≠ "" := by
  rintro rfl
  exact absurd h.1 (by decide)

lemma IsNormal.beside (h : path.IsNormal) (hname : IsComponent name) :
    (path.beside name).IsNormal := by
  intro part hpart
  rw [parts_beside, List.mem_append, List.mem_singleton] at hpart
  rcases hpart with hpart | rfl
  · exact h part (List.dropLast_subset _ hpart)
  · exact hname

/-- A path in normal form has a name exactly if it has components. -/
lemma IsNormal.name_eq_iff (h : path.IsNormal) : path.name = "" ↔ path.parts = [] := by
  constructor
  · intro hname
    by_contra hne
    exact (h path.name (name_mem hne)).ne_empty hname
  · intro hparts
    rw [Path.name, hparts]
    rfl

end Beside

/-- **A path that an output may be written to without touching the input:** another name in the same
    directory. -/
structure StandsBeside (output input : Path) : Prop where
  parent : output.parent = input.parent
  name : output.name ≠ input.name
  path : output ≠ input
  text : output.text ≠ input.text
  /-- The output is the same path when it is handed on as a text. -/
  normal : parse output.text = output

lemma IsNormal.standsBeside {path : Path} {name : String} (h : path.IsNormal)
    (hname : IsComponent name) (hne : name ≠ path.name) : (path.beside name).StandsBeside path := by
  have hpath : path.beside name ≠ path := by
    intro heq
    rw [← congrArg Path.name heq, name_beside] at hne
    exact hne rfl
  have hnormal := parse_text (h.beside hname)
  refine ⟨parent_beside path name, by rwa [name_beside], hpath, fun htext => ?_, hnormal⟩
  rw [htext, parse_text h] at hnormal
  exact hpath hnormal.symm

end Path

/-! ## Traded endings -/

/-- **A name trades an ending that it has, and only that,** for another one; a name without the
    ending gets the other one as well. -/
structure Trades (name old new result : String) : Prop where
  ending : ∀ stem, name = stem ++ old → result = stem ++ new
  noEnding : (∀ stem, name ≠ stem ++ old) → result = name ++ new

lemma dropEnding_of_ne {name ending : String} (h : ∀ stem, name ≠ stem ++ ending) :
    dropEnding name ending = name := by
  rw [dropEnding, if_neg]
  rw [List.isSuffixOf_iff_suffix]
  rintro ⟨stem, hstem⟩
  refine h (String.ofList stem) (String.toList_inj.mp ?_)
  rw [String.toList_append, String.toList_ofList, hstem]

lemma trades_dropEnding (name old new : String) :
    Trades name old new (dropEnding name old ++ new) where
  ending stem hstem := by rw [hstem, dropEnding_append]
  noEnding h := by rw [dropEnding_of_ne h]

/-- **A name is changed by a trade,** if the new ending is neither empty nor the old one. -/
lemma Trades.ne {name old new result : String} (h : Trades name old new result) (hne : new ≠ "")
    (hold : old ≠ new) : result ≠ name := by
  by_cases hending : ∃ stem, name = stem ++ old
  · obtain ⟨stem, hstem⟩ := hending
    rw [h.ending stem hstem, hstem]
    intro heq
    exact hold ((String.append_right_inj stem).mp heq.symm)
  · push Not at hending
    rw [h.noEnding hending]
    intro heq
    have hlength := congrArg String.length heq
    have hpos : new.length ≠ 0 := by simpa using hne
    rw [String.length_append] at hlength
    omega

namespace Path.IsNormal

variable {path : Path} (h : path.IsNormal)
include h

lemma tradeEnding_of_empty (hname : path.name = "") (old new : String) :
    path.tradeEnding old new = .error (.emptyName path) := by
  rw [tradeEnding, withName, if_pos (h.name_eq_iff.mp hname)]

variable (hname : path.name ≠ "") (old : String) {new : String} (hnew : '/' ∉ new.toList)
  (hlength : 2 ≤ new.length)
include hname hnew hlength

lemma isComponent_trade : IsComponent (dropEnding path.name old ++ new) := by
  have hne : path.parts ≠ [] := fun hparts => hname (h.name_eq_iff.mpr hparts)
  have hplain := (h path.name (name_mem hne)).2
  refine ⟨isPart_append hlength _, ?_⟩
  rw [String.toList_append, List.mem_append]
  exact not_or.mpr ⟨slash_notMem_dropEnding hplain old, hnew⟩

/-- **A traded ending leads to another name in the same directory.** -/
lemma tradeEnding_beside :
    path.tradeEnding old new = .ok (path.beside (dropEnding path.name old ++ new)) := by
  have hne : path.parts ≠ [] := fun hparts => hname (h.name_eq_iff.mpr hparts)
  exact tradeEnding_eq old new hne (h path.name (name_mem hne)).2 hnew hlength

/-- **Nothing but the name is new, and the name is.** -/
lemma standsBeside_trade (hold : old ≠ new) :
    (path.beside (dropEnding path.name old ++ new)).StandsBeside path ∧
      Trades path.name old new (path.beside (dropEnding path.name old ++ new)).name := by
  have htrades := trades_dropEnding path.name old new
  have hempty : new ≠ "" := by
    rintro rfl
    exact absurd hlength (by decide)
  refine ⟨h.standsBeside (h.isComponent_trade hname old hnew hlength) (htrades.ne hempty hold), ?_⟩
  rwa [name_beside]

end Path.IsNormal

/-! ## Output paths -/

/-- **The endings that every environment leaves as they are.** -/
structure Settings.HasDefaultEndings (settings : Settings) : Prop where
  source : settings.sourceSuffix = ".chasm"
  rom : settings.romSuffix = ".ch8"
  assembled : settings.assembledSuffix = "_a.ch8"

lemma Settings.endings_ofEnvironment (env : String → Option String) :
    (ofEnvironment env).HasDefaultEndings := by
  obtain ⟨address, level, henv⟩ := exists_ofEnvironment env
  rw [henv]
  exact ⟨rfl, rfl, rfl⟩

/-- **Derived output paths never overwrite the input.**  With the default endings, which every
    environment leaves, an input path with a name has an assembled and a disassembled file, both in
    its directory and under another name, and so is the file to which the disassembled file would be
    assembled again.  A path without a name has none of them. -/
theorem outputs_beside :
    (∀ env, (Settings.ofEnvironment env).HasDefaultEndings) ∧
    ∀ (settings : Settings), settings.HasDefaultEndings →
      ∀ (text : String) (path : Path), Path.parse text = path →
        (path.name = "" →
          assembledPath settings path = .error (.emptyName path) ∧
          disassembledPath settings path = .error (.emptyName path)) ∧
        (path.name ≠ "" → ∃ rom source again,
          assembledPath settings path = .ok rom ∧ rom.StandsBeside path ∧
          Trades path.name ".chasm" "_a.ch8" rom.name ∧
          disassembledPath settings path = .ok source ∧ source.StandsBeside path ∧
          Trades path.name ".ch8" ".chasm" source.name ∧
          assembledPath settings source = .ok again ∧ again.StandsBeside path ∧
          Trades path.name ".ch8" "_a.ch8" again.name) := by
  refine ⟨Settings.endings_ofEnvironment, fun settings hendings text path hpath => ?_⟩
  obtain ⟨hsource, hrom, hassembled⟩ := hendings
  have h : path.IsNormal := hpath ▸ Path.isNormal_parse text
  simp only [assembledPath, disassembledPath, hsource, hrom, hassembled]
  constructor
  · intro hname
    exact ⟨h.tradeEnding_of_empty hname _ _, h.tradeEnding_of_empty hname _ _⟩
  · intro hname
    have hmark : '/' ∉ "_a.ch8".toList ∧ 2 ≤ "_a.ch8".length := by decide
    have hending : '/' ∉ ".chasm".toList ∧ 2 ≤ ".chasm".length := by decide
    obtain ⟨hrom, hromName⟩ :=
      h.standsBeside_trade hname ".chasm" hmark.1 hmark.2 (by decide)
    obtain ⟨hsource, hsourceName⟩ :=
      h.standsBeside_trade hname ".ch8" hending.1 hending.2 (by decide)
    obtain ⟨hagain, hagainName⟩ :=
      h.standsBeside_trade hname ".ch8" hmark.1 hmark.2 (by decide)
    -- The source gives its ending back, and the mark comes to the stem of the ROM.
    have hpart := h.isComponent_trade hname ".ch8" hending.1 hending.2
    have hback := (h.beside hpart).tradeEnding_beside
      (by simpa only [Path.name_beside] using hpart.ne_empty) ".chasm" hmark.1 hmark.2
    rw [Path.name_beside, dropEnding_append, Path.beside_beside] at hback
    exact ⟨_, _, _, h.tradeEnding_beside hname _ hmark.1 hmark.2, hrom, hromName,
      h.tradeEnding_beside hname _ hending.1 hending.2, hsource, hsourceName, hback, hagain,
      hagainName⟩

/-- A ROM whose name carries the mark and two endings, in a directory that is written with dots. -/
theorem outputs_beside_dots :
    ∃ path rom source again,
      Path.parse ".//roms/..//pong_a.ch8.ch8/" = path ∧
      assembledPath {} path = .ok rom ∧ rom.StandsBeside path ∧
      rom.name = "pong_a.ch8.ch8_a.ch8" ∧
      disassembledPath {} path = .ok source ∧ source.StandsBeside path ∧
      source.name = "pong_a.ch8.chasm" ∧
      assembledPath {} source = .ok again ∧ again.StandsBeside path ∧
      again.name = "pong_a.ch8_a.ch8" := by
  have hname : (Path.parse ".//roms/..//pong_a.ch8.ch8/").name = "pong_a.ch8.ch8" := by decide
  obtain ⟨rom, source, again, hrom, hbeside, hromTrades, hsource, hsourceBeside, hsourceTrades,
    hagain, hagainBeside, hagainTrades⟩ :=
    (outputs_beside.2 {} ⟨rfl, rfl, rfl⟩ ".//roms/..//pong_a.ch8.ch8/" _ rfl).2
      (by rw [hname]; decide)
  rw [hname] at hromTrades hsourceTrades hagainTrades
  refine ⟨_, rom, source, again, rfl, hrom, hbeside, hromTrades.noEnding ?_, hsource,
    hsourceBeside, hsourceTrades.ending "pong_a.ch8" (by decide), hagain, hagainBeside,
    hagainTrades.ending "pong_a.ch8" (by decide)⟩
  intro stem heq
  have hlast := congrArg (fun text => text.toList.getLast?) heq
  simp at hlast

end Chip8
