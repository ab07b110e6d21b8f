import Chip8.Proofs.NamedFiles
import Chip8.Proofs.RomRoundTrip
import Chip8.Proofs.Sessions
import Chip8.Proofs.ToolRuns

/-!
# Disassembling a ROM file and assembling what comes out

The disassembler makes `pong.chasm` from `pong.ch8`, the assembler makes `pong_a.ch8` from that.
The two runs compose to the round trip of the image, and the ROM that they started from is not
touched: `tools_round_trip`.

* `IsStem` is what stands in front of the endings, `IsStem.isFileName` the names made from it.
* `disassembler_name` and `assembler_name` are a run of each tool on a name, up to its script.
* `disassembled_file` and `assembled_file` are what the two runs write.

The ending of assembly files is longer than that of ROM files, so a ROM can have a name for which
there is no name of an assembly file: `disassembler_long_name`.
-/

namespace Chip8

/-! ## Names -/

/-- **What stands in front of an ending:** any text without slash and null character that does not
    start with a dash. -/
structure IsStem (stem : String) : Prop where
  slash : '/' ∉ stem.toList
  null : '\x00' ∉ stem.toList
  dash : stem.toList.head? ≠ some '-'

/-- An ending of a file name. -/
structure IsEnding (ending : String) : Prop where
  slash : '/' ∉ ending.toList
  null : '\x00' ∉ ending.toList
  dash : ending.toList.head? ≠ some '-'
  long : 3 ≤ ending.length

lemma isEnding_rom : IsEnding ".ch8" := ⟨by decide, by decide, by decide, by decide⟩

lemma isEnding_source : IsEnding ".chasm" := ⟨by decide, by decide, by decide, by decide⟩

lemma isEnding_assembled : IsEnding "_a.ch8" := ⟨by decide, by decide, by decide, by decide⟩

namespace IsStem

variable {stem ending : String}

lemma null_notMem (h : IsStem stem) (he : IsEnding ending) : '\x00' ∉ (stem ++ ending).toList := by
  rw [String.toList_append, List.mem_append]
  exact not_or.mpr ⟨h.null, he.null⟩

/-- **A stem and an ending are a file name** unless they are too long. -/
lemma isFileName (h : IsStem stem) (he : IsEnding ending)
    (hshort : (Utf8.encode (stem ++ ending)).length ≤ Store.maxNameBytes) :
    IsFileName (stem ++ ending) where
  slash := by
    rw [String.toList_append, List.mem_append]
    exact not_or.mpr ⟨h.slash, he.slash⟩
  null := h.null_notMem he
  part := Path.isPart_append (Nat.le_trans (by decide) he.long) stem
  up := by
    intro hup
    have hlength := congrArg String.length hup
    have hlong := he.long
    rw [String.length_append] at hlength
    have htwo : (".." : String).length = 2 := rfl
    omega
  short := hshort

/-- Such a name is no option. -/
lemma head_ne_dash (h : IsStem stem) (he : IsEnding ending) :
    (stem ++ ending).toList.head? ≠ some '-' := by
  rw [String.toList_append]
  cases hstem : stem.toList with
  | nil => exact he.dash
  | cons c cs =>
      have hdash := h.dash
      rw [hstem] at hdash
      exact hdash

end IsStem

/-- **Files with different endings have different places.** -/
lemma place_ne (current : Location) (stem : String) {first second : String} (h : first ≠ second) :
    current ++ [stem ++ first] ≠ current ++ [stem ++ second] := by
  intro heq
  have hnames := List.singleton_inj.mp (List.append_cancel_left heq)
  exact h ((String.append_right_inj stem).mp hnames)

/-! ## A run on a name -/

variable {store : Store} {env : String → Option String} {name stem : String} {rom : List UInt8}

/-- **A run of the disassembler on a name.** -/
lemma disassembler_name (hname : IsFileName name) (hdash : name.toList.head? ≠ some '-')
    (hcurrent : store.get? store.current = some .directory)
    (hfile : store.get? (store.current ++ [name]) = some (.file rom)) :
    Tool.disassembler.run env [name] store =
      .ok (((DisassemblerRequest.mk (.ofName name) none false false).script
        (Settings.ofEnvironment env) (.ok rom)).perform store) := by
  have hparse : Arguments.parse Tool.disassembler.rules [name] = .ok ⟨[], [name]⟩ := by
    rw [Arguments.parse_input hdash]
    rfl
  have hlook := Store.look_name hname hcurrent hfile
  have hinput := Arguments.input_name hname (Store.look_name hname hcurrent hfile) []
  have hplan : Tool.disassembler.plan (Store.fileSystem.look store) (Settings.ofEnvironment env)
      ⟨[], [name]⟩ = .ok (.process (.ofName name)
        ((DisassemblerRequest.mk (.ofName name) none false false).script
          (Settings.ofEnvironment env))) := by
    simp only [Tool.plan, DisassemblerRequest.ofArguments, Store.fileSystem, hinput]
    rfl
  rw [Tool.run, runOn_of_plan hparse hplan, Plan.performOn_process]
  simp only [Store.fileSystem, Store.read_name hname hcurrent hfile]
  rfl

/-- The command lines of the assembler with a name, strict or not. -/
lemma parse_strict {texts : List String} (hdash : name.toList.head? ≠ some '-')
    (htexts : texts = [name] ∨ texts = ["--strict", name] ∨ texts = [name, "--strict"]) :
    ∃ options, Arguments.parse Tool.assembler.rules texts = .ok ⟨options, [name]⟩ ∧
      (options = [] ∨ options = [(.strict, "")]) := by
  have hstrict : ∀ rest, Arguments.parse Tool.assembler.rules ("--strict" :: rest) =
      (Arguments.parse Tool.assembler.rules rest).map
        (Arguments.withOptions [(.strict, "")]) := fun rest => rfl
  rcases htexts with rfl | rfl | rfl
  · refine ⟨[], ?_, .inl rfl⟩
    rw [Arguments.parse_input hdash]
    rfl
  · refine ⟨[(.strict, "")], ?_, .inr rfl⟩
    rw [hstrict, Arguments.parse_input hdash]
    rfl
  · refine ⟨[(.strict, "")], ?_, .inr rfl⟩
    rw [Arguments.parse_input hdash]
    rfl

/-- **A run of the assembler on a name,** strict or not. -/
lemma assembler_name (env : String → Option String) {texts : List String} {bytes : List UInt8}
    (hname : IsFileName name) (hdash : name.toList.head? ≠ some '-')
    (htexts : texts = [name] ∨ texts = ["--strict", name] ∨ texts = [name, "--strict"])
    (hcurrent : store.get? store.current = some .directory)
    (hfile : store.get? (store.current ++ [name]) = some (.file bytes)) :
    ∃ strict, Tool.assembler.run env texts store =
      .ok (((AssemblerRequest.mk (.ofName name) none none strict false).script
        (Settings.ofEnvironment env) (.ok bytes)).perform store) := by
  obtain ⟨options, hparse, hoptions⟩ := parse_strict hdash htexts
  have hinput := Arguments.input_name hname (Store.look_name hname hcurrent hfile) options
  have hplan : ∃ strict, Tool.assembler.plan (Store.fileSystem.look store)
      (Settings.ofEnvironment env) ⟨options, [name]⟩ = .ok (.process (.ofName name)
        ((AssemblerRequest.mk (.ofName name) none none strict false).script
          (Settings.ofEnvironment env))) := by
    simp only [Tool.plan, AssemblerRequest.ofArguments, Store.fileSystem, hinput]
    rcases hoptions with rfl | rfl
    · exact ⟨false, rfl⟩
    · exact ⟨true, rfl⟩
  obtain ⟨strict, hplan⟩ := hplan
  refine ⟨strict, ?_⟩
  rw [Tool.run, runOn_of_plan hparse hplan, Plan.performOn_process]
  simp only [Store.fileSystem, Store.read_name hname hcurrent hfile]
  rfl

/-! ## What the two runs write -/

/-- The source file of some words. -/
def sourceOf (ws : List Word) : List UInt8 := sourceBytes (ws.map textOf)

/-- **The file of a sweep** from an even address, all addresses of which can be printed. -/
lemma swept_eq {settings : Settings} (heven : settings.loadAddress % 2 = 0)
    (hprint : ∀ k < (wordsOf rom).length,
      Numeral.isPrintable (settings.loadAddress + 2 * k) = true) :
    (DisassemblerRequest.sweepOver settings rom).fault = none ∧
      DisassemblerRequest.swept settings rom = sourceOf (wordsOf rom) := by
  have hsweep : DisassemblerRequest.sweepOver settings rom =
      { words := readings settings.loadAddress (wordsOf rom) } := by
    rw [DisassemblerRequest.sweepOver, Decoder.sweep_of_even _ heven, sweepFrom_eq hprint]
  rw [DisassemblerRequest.swept, hsweep]
  exact ⟨rfl, congrArg sourceBytes (texts_readings _ _)⟩

/-- **The source file of some words is assembled without loss** as the canonical words. -/
lemma assemble_sourceOf (settings : Settings) (ws : List Word) :
    ∃ source, Utf8.readText (sourceOf ws) = .ok source ∧
      (AssemblerRequest.runOver settings source).fault = none ∧
      (AssemblerRequest.runOver settings source).hasErrors = false ∧
      (AssemblerRequest.runOver settings source).code = ws.flatMap fun w => w.canonical.bytes := by
  have hplain : ∀ l ∈ ws.map textOf, ∀ c ∈ l.toList, Text.isLineBreak c = false := by
    intro l hl
    obtain ⟨w, -, rfl⟩ := List.mem_map.mp hl
    exact (isPlainLine_textOf w).1.2
  have hreturn : '\r' ∉ (Text.closeLines (ws.map textOf)).toList := by
    refine Text.notMem_closeLines (by decide) fun l hl hmem => ?_
    have hbreak := hplain l hl _ hmem
    revert hbreak
    decide
  refine ⟨_, Utf8.readText_encode_eq hreturn, ?_⟩
  obtain ⟨hinstructions, hrejections⟩ :=
    instructions_encoded (assembled settings.loadAddress 1 ws) none
  rw [AssemblerRequest.runOver, assemble_closeLines hplain, assembleLines_texts]
  refine ⟨rfl, ?_, ?_⟩
  · rw [Run.hasErrors, hrejections]
    rfl
  · calc Run.code _
        = ((assembled settings.loadAddress 1 ws).map (·.word)).flatMap Word.bytes := by
          rw [Run.code, hinstructions, List.flatMap_map]
      _ = ws.flatMap fun w => w.canonical.bytes := by rw [words_assembled, List.flatMap_map]

/-! ## The usual settings -/

lemma Settings.ofEnvironment_none (hload : env "CHASM_LOAD_ADDRESS" = none)
    (hlevel : env "CHASM_LOG_LEVEL" = none) : Settings.ofEnvironment env = {} := by
  rw [Settings.ofEnvironment, hload, hlevel]
  rfl

/-- **All addresses of an image can be printed** unless its size takes more digits than that. -/
lemma isPrintable_address (hsize : 0x200 + rom.length ≤ 10 ^ Numeral.maxDigits) :
    ∀ k < (wordsOf rom).length,
      Numeral.isPrintable (({} : Settings).loadAddress + 2 * k) = true := by
  intro k hk
  rw [length_wordsOf] at hk
  have hlt : 0x200 + 2 * k < 10 ^ Numeral.maxDigits := by omega
  exact (Numeral.fitsIn_iff _ _).mpr hlt

/-! ## The two runs -/

section Disassembled

variable (hstem : IsStem stem) (hrom : rom ≠ [])
  (heven : (Settings.ofEnvironment env).loadAddress % 2 = 0)
  (hprint : ∀ k < (wordsOf rom).length,
    Numeral.isPrintable ((Settings.ofEnvironment env).loadAddress + 2 * k) = true)
  (hcurrent : store.get? store.current = some .directory)
  (hfile : store.get? (store.current ++ [stem ++ ".ch8"]) = some (.file rom))

include hstem hrom heven hprint hcurrent hfile

/-- What the disassembler is going to do with a ROM file. -/
lemma disassembler_script
    (hshort : (Utf8.encode (stem ++ ".ch8")).length ≤ Store.maxNameBytes) :
    ∃ script : Script,
      Tool.disassembler.run env [stem ++ ".ch8"] store = .ok (script.perform store) ∧
      script.writes = [(.ofName (stem ++ ".chasm"), sourceOf (wordsOf rom))] ∧
      script.status = .success := by
  have hname := hstem.isFileName isEnding_rom hshort
  have houtput : (DisassemblerRequest.mk (.ofName (stem ++ ".ch8")) none false false).outputPath
      (Settings.ofEnvironment env) = .ok (.ofName (stem ++ ".chasm")) :=
    disassembledPath_name hname.slash
  obtain ⟨hfault, hswept⟩ := swept_eq heven hprint
  have hending := DisassemblerRequest.script_written houtput hrom hfault
  rw [hswept] at hending
  exact ⟨_, disassembler_name hname (hstem.head_ne_dash isEnding_rom) hcurrent hfile,
    Prod.mk.inj hending⟩

/-- **The disassembler makes a source file from a ROM file.** -/
lemma disassembled_file
    (hshort : (Utf8.encode (stem ++ ".chasm")).length ≤ Store.maxNameBytes)
    (hsource : store.get? (store.current ++ [stem ++ ".chasm"]) ≠ some .directory) :
    ∃ outcome, Tool.disassembler.run env [stem ++ ".ch8"] store = .ok outcome ∧
      outcome.status = .success ∧
      outcome.store =
        store.put (store.current ++ [stem ++ ".chasm"]) (.file (sourceOf (wordsOf rom))) := by
  have hrom_short : (Utf8.encode (stem ++ ".ch8")).length ≤ Store.maxNameBytes := by
    refine Nat.le_trans ?_ hshort
    rw [Utf8.encode_append, Utf8.encode_append, List.length_append, List.length_append]
    exact Nat.add_le_add_left (by decide) _
  obtain ⟨script, hrun, hwrites, hgood⟩ :=
    disassembler_script hstem hrom heven hprint hcurrent hfile hrom_short
  have hwrite := Store.write_name (hstem.isFileName isEnding_source hshort) hcurrent hsource
    (sourceOf (wordsOf rom))
  obtain ⟨hstore, hstatus⟩ := Script.performOn_of_writes Store.fileSystem
    (hwrites ▸ FileSystem.writes_singleton_iff.mpr hwrite)
  exact ⟨_, hrun, hstatus.trans hgood, hstore⟩

/-- **A ROM whose name is too long with the other ending** is not disassembled. -/
lemma disassembler_long_name
    (hshort : (Utf8.encode (stem ++ ".ch8")).length ≤ Store.maxNameBytes)
    (hlong : Store.maxNameBytes < (Utf8.encode (stem ++ ".chasm")).length) :
    ∃ outcome, Tool.disassembler.run env [stem ++ ".ch8"] store = .ok outcome ∧
      outcome.status = .buildError ∧ outcome.store = store := by
  obtain ⟨script, hrun, hwrites, -⟩ :=
    disassembler_script hstem hrom heven hprint hcurrent hfile hshort
  have herror := Store.write_long_name (hstem.null_notMem isEnding_source) hcurrent hlong
    (sourceOf (wordsOf rom))
  have hfails : Store.fileSystem.Fails store script.writes store
      (.about .nameTooLong (.ofName (stem ++ ".chasm"))) := by
    rw [hwrites]
    exact .here herror
  obtain ⟨hstore, hstatus⟩ := Script.performOn_of_fails Store.fileSystem hfails
  exact ⟨_, hrun, hstatus, hstore⟩

end Disassembled

/-- **The assembler makes a ROM file from a source file of words,** strict or not. -/
lemma assembled_file {texts : List String} {ws : List Word} (hstem : IsStem stem)
    (hlength : (Utf8.encode (stem ++ ".chasm")).length ≤ Store.maxNameBytes)
    (htexts : texts = [stem ++ ".chasm"] ∨ texts = ["--strict", stem ++ ".chasm"] ∨
      texts = [stem ++ ".chasm", "--strict"])
    (hcurrent : store.get? store.current = some .directory)
    (hfile : store.get? (store.current ++ [stem ++ ".chasm"]) = some (.file (sourceOf ws)))
    (himage : store.get? (store.current ++ [stem ++ "_a.ch8"]) ≠ some .directory) :
    ∃ outcome, Tool.assembler.run env texts store = .ok outcome ∧ outcome.status = .success ∧
      outcome.store = store.put (store.current ++ [stem ++ "_a.ch8"])
        (.file (ws.flatMap fun w => w.canonical.bytes)) := by
  have hname := hstem.isFileName isEnding_source hlength
  have hshort : (Utf8.encode (stem ++ "_a.ch8")).length ≤ Store.maxNameBytes := by
    refine Nat.le_trans (Nat.le_of_eq ?_) hlength
    rw [Utf8.encode_append, Utf8.encode_append, List.length_append, List.length_append]
    exact congrArg _ (by decide)
  obtain ⟨strict, hrun⟩ := assembler_name env hname (hstem.head_ne_dash isEnding_source)
    htexts hcurrent hfile
  have houtput : (AssemblerRequest.mk (.ofName (stem ++ ".chasm")) none none strict
      false).outputPath (Settings.ofEnvironment env) = .ok (.ofName (stem ++ "_a.ch8")) :=
    assembledPath_name hname.slash
  obtain ⟨source, hsource, hfault, herrors, hcode⟩ :=
    assemble_sourceOf (Settings.ofEnvironment env) ws
  have hending := AssemblerRequest.script_written houtput hsource hfault
    (by rw [herrors]; exact fun h => Bool.false_ne_true h.2)
  rw [hcode] at hending
  obtain ⟨hplan, hgood⟩ := Prod.mk.inj hending
  have hwrite := Store.write_name (hstem.isFileName isEnding_assembled hshort) hcurrent himage
    (ws.flatMap fun w => w.canonical.bytes)
  obtain ⟨hstore, hstatus⟩ := Script.performOn_of_writes Store.fileSystem
    (hplan ▸ FileSystem.writes_singleton_iff.mpr hwrite)
  exact ⟨_, hrun, hstatus.trans hgood, hstore⟩

/-- **Disassembling a ROM file and assembling what comes out leaves the ROM file alone.**  In a
    directory in which neither output is in the way and the names are not too long, the assembly
    file and the second ROM are written and nothing else; the second ROM holds the canonical words
    of the first. -/
theorem tools_round_trip (env : String → Option String) {texts : List String}
    (hload : env "CHASM_LOAD_ADDRESS" = none) (hlevel : env "CHASM_LOG_LEVEL" = none)
    (hstem : IsStem stem) (hlength : (Utf8.encode (stem ++ ".chasm")).length ≤ Store.maxNameBytes)
    (hrom : rom ≠ []) (hsize : 0x200 + rom.length ≤ 10 ^ Numeral.maxDigits)
    (hcurrent : store.get? store.current = some .directory)
    (hfile : store.get? (store.current ++ [stem ++ ".ch8"]) = some (.file rom))
    (hsource : store.get? (store.current ++ [stem ++ ".chasm"]) ≠ some .directory)
    (himage : store.get? (store.current ++ [stem ++ "_a.ch8"]) ≠ some .directory)
    (htexts : texts = [stem ++ ".chasm"] ∨ texts = ["--strict", stem ++ ".chasm"] ∨
      texts = [stem ++ ".chasm", "--strict"]) :
    ∃ first second, Tool.disassembler.run env [stem ++ ".ch8"] store = .ok first ∧
      first.status = .success ∧
      Tool.assembler.run env texts first.store = .ok second ∧ second.status = .success ∧
      second.store.get? (store.current ++ [stem ++ ".ch8"]) = some (.file rom) ∧
      second.store.get? (store.current ++ [stem ++ "_a.ch8"]) =
        some (.file (canonicalImage rom)) ∧
      ∀ place, place ≠ store.current ++ [stem ++ ".chasm"] →
        place ≠ store.current ++ [stem ++ "_a.ch8"] →
        second.store.get? place = store.get? place := by
  have hsettings := Settings.ofEnvironment_none hload hlevel
  obtain ⟨first, hrun, hstatus, hstore⟩ := disassembled_file hstem hrom
    (by rw [hsettings]; decide) (hsettings ▸ isPrintable_address hsize) hcurrent hfile hlength
    hsource
  have hview : ∀ other, first.store.get? other =
      if other = store.current ++ [stem ++ ".chasm"] then
        some (.file (sourceOf (wordsOf rom))) else store.get? other := by
    rw [hstore]
    exact Store.get?_put store (by simp) _
  have hsame : first.store.current = store.current := by
    rw [hstore]
    rfl
  have hcurrent' : first.store.get? first.store.current = some .directory := by
    rw [hsame, hview, if_neg (by simp), hcurrent]
  have hfile' : first.store.get? (first.store.current ++ [stem ++ ".chasm"]) =
      some (.file (sourceOf (wordsOf rom))) := by
    rw [hsame, hview, if_pos rfl]
  have himage' : first.store.get? (first.store.current ++ [stem ++ "_a.ch8"]) ≠
      some .directory := by
    rwa [hsame, hview, if_neg (place_ne _ _ (by decide))]
  obtain ⟨second, hrun', hstatus', hstore'⟩ :=
    assembled_file hstem hlength htexts hcurrent' hfile' himage'
  have hview' : ∀ other, second.store.get? other =
      if other = store.current ++ [stem ++ "_a.ch8"] then
        some (.file (canonicalImage rom)) else first.store.get? other := by
    rw [hstore', hsame]
    exact Store.get?_put first.store (by simp) _
  refine ⟨first, second, hrun, hstatus, hrun', hstatus', ?_, ?_, ?_⟩
  · rw [hview', if_neg (place_ne _ _ (by decide)), hview, if_neg (place_ne _ _ (by decide)), hfile]
  · rw [hview', if_pos rfl]
  · intro place hplace hplace'
    rw [hview', if_neg hplace', hview, if_neg hplace]

/-- A ROM of one word with a stray digit and of a single byte, in a directory of its own. -/
theorem tools_round_trip_stray :
    ∃ store first second, store.get? ["games", "pong.ch8"] = some (.file [0x51, 0x23, 0xFF]) ∧
      Tool.disassembler.run (fun _ => none) ["pong.ch8"] store = .ok first ∧
      first.status = .success ∧
      Tool.assembler.run (fun _ => none) ["--strict", "pong.chasm"] first.store = .ok second ∧
      second.status = .success ∧
      second.store.get? ["games", "pong.ch8"] = some (.file [0x51, 0x23, 0xFF]) ∧
      second.store.get? ["games", "pong_a.ch8"] = some (.file [0x51, 0x20]) := by
  obtain ⟨store, hstore⟩ : ∃ store : Store, store = ⟨["games"], [(["games"], .directory),
      (["games", "pong.ch8"], .file [0x51, 0x23, 0xFF])]⟩ := ⟨_, rfl⟩
  have hsize : 0x200 + [(0x51 : UInt8), 0x23, 0xFF].length ≤ 10 ^ Numeral.maxDigits :=
    Nat.le_trans (show _ ≤ 10 ^ 3 by decide) (Nat.pow_le_pow_right (by decide) (by decide))
  have hcurrent : store.get? store.current = some .directory := by
    rw [hstore]
    rfl
  have hfile : store.get? (store.current ++ ["pong" ++ ".ch8"]) =
      some (.file [0x51, 0x23, 0xFF]) := by
    rw [hstore]
    rfl
  have hsource : store.get? (store.current ++ ["pong" ++ ".chasm"]) ≠ some .directory := by
    rw [hstore]
    decide
  have himage : store.get? (store.current ++ ["pong" ++ "_a.ch8"]) ≠ some .directory := by
    rw [hstore]
    decide
  obtain ⟨first, second, hrun, hstatus, hrun', hstatus', hrom, hcopy, -⟩ :=
    tools_round_trip (fun _ => none) rfl rfl ⟨by decide, by decide, by decide⟩ (by decide)
      (List.cons_ne_nil _ _) hsize hcurrent hfile hsource himage (.inr (.inl rfl))
  rw [hstore] at hfile hrom hcopy
  exact ⟨store, first, second, hstore ▸ hfile, hrun, hstatus, hrun', hstatus', hrom, hcopy⟩

/-- **A name of 255 bytes that no assembly file can have:** the ROM cannot be disassembled. -/
theorem round_trip_long_name :
    ∃ store outcome, ∃ stem : String, stem = String.ofList (List.replicate 251 'a') ∧
      store.get? [stem ++ ".ch8"] = some (.file [0x00, 0xE0]) ∧
      store.get? [stem ++ ".chasm"] = none ∧ store.get? [stem ++ "_a.ch8"] = none ∧
      Tool.disassembler.run (fun _ => none) [stem ++ ".ch8"] store = .ok outcome ∧
      outcome.status = .buildError ∧ outcome.store = store := by
  obtain ⟨stem, hname⟩ : ∃ stem, stem = String.ofList (List.replicate 251 'a') := ⟨_, rfl⟩
  obtain ⟨store, hstore⟩ : ∃ store : Store,
      store = { entries := [([stem ++ ".ch8"], .file [0x00, 0xE0])] } := ⟨_, rfl⟩
  have hfile : store.get? (store.current ++ [stem ++ ".ch8"]) = some (.file [0x00, 0xE0]) := by
    simp [hstore, Store.get?]
  have hother : ∀ ending, ending ≠ ".ch8" → store.get? [stem ++ ending] = none := by
    intro ending hne
    have hnames : (stem ++ ending == stem ++ ".ch8") = false :=
      beq_eq_false_iff_ne.mpr fun heq => hne ((String.append_right_inj stem).mp heq)
    simp [hstore, Store.get?, List.lookup_cons, hnames]
  have hstem : IsStem stem := by
    have hchars : ∀ c ∈ stem.toList, c = 'a' := by
      rw [hname, String.toList_ofList]
      exact fun c hc => (List.mem_replicate.mp hc).2
    refine ⟨fun h => ?_, fun h => ?_, fun h => ?_⟩
    · exact absurd (hchars _ h) (by decide)
    · exact absurd (hchars _ h) (by decide)
    · exact absurd (hchars _ (List.mem_of_head? h)) (by decide)
  have hbytes : (Utf8.encode stem).length = 251 := by
    rw [hname, Utf8.encode, String.toList_ofList, List.length_flatMap, List.map_replicate,
      List.sum_replicate_nat]
    decide
  have hshort : (Utf8.encode (stem ++ ".ch8")).length ≤ Store.maxNameBytes := by
    rw [Utf8.encode_append, List.length_append, hbytes]
    decide
  have hlong : Store.maxNameBytes < (Utf8.encode (stem ++ ".chasm")).length := by
    rw [Utf8.encode_append, List.length_append, hbytes]
    decide
  have hcurrent : store.get? store.current = some .directory := by
    rw [hstore]
    rfl
  have hprint : ∀ k < (wordsOf [0x00, 0xE0]).length, Numeral.isPrintable
      ((Settings.ofEnvironment fun _ => none).loadAddress + 2 * k) = true := by
    decide
  obtain ⟨outcome, hrun, hstatus, hkept⟩ := disassembler_long_name hstem (List.cons_ne_nil _ _)
    (by decide) hprint hcurrent hfile hshort hlong
  refine ⟨store, outcome, stem, hname, ?_, hother _ (by decide), hother _ (by decide), hrun,
    hstatus, hkept⟩
  rw [hstore] at hfile ⊢
  exact hfile

end Chip8
