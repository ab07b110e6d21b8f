import Chip8.Proofs.Classification
import Chip8.Proofs.Completion
import Chip8.Proofs.Naming
import Chip8.Proofs.ToolScripts
import Chip8.Tool
import Mathlib.Tactic.SplitIfs

/-!
# What a run of a tool leaves

A run of a tool changes its output file and, if it is a run of the assembler, its listing, and no
other file (`runs_leave`).  A run that fails changes nothing, with two exceptions.  The ROM is
written before the listing, so it stays where the listing could not be written; and a tool says what
it has done when everything has been written, so that all of it stays where such a line is refused.

* `AssemblerRequest.Leaves` and `DisassemblerRequest.Leaves` say in full what is left, and in which
  cases a run fails.
* `runs_leave_exceptions` are a run whose last line is refused, and one in which a dropped line is
  not the worst that happens.
* `failed_write_status` is about the status after a file that could not be written.  Only the error
  decides it, and not whether the file was to be read or written: what is missing or out of reach
  counts as a wrong argument also where it is the output.

All of this holds for any file system in which a write changes one file, and `runs_leave` for any
streams.
-/

namespace Chip8

variable {σ : Type} {files : FileSystem σ} {state : σ} {settings : Settings} {streams : Streams}

/-! ## Checked command lines -/

namespace Arguments

variable {look : String → Store.Look} {arguments : Arguments}

/-- **An input file has been looked at.** -/
lemma input_eq_ok {path : Path} (h : arguments.input look = .ok path) :
    ∃ text, look text = .file ∧ path = .parse text := by
  rw [input] at h
  split at h
  · cases h
  · next text more hinputs =>
      split at h
      · cases h
      · cases h
      · cases h
      · next hlook =>
          split at h
          · exact ⟨text, hlook, (Except.ok.inj h).symm⟩
          · cases h

end Arguments

lemma AssemblerRequest.input_of_ofArguments {look : String → Store.Look} {arguments : Arguments}
    {request : AssemblerRequest} (h : ofArguments look arguments = .ok request) :
    arguments.input look = .ok request.input := by
  obtain ⟨-, -, h⟩ := exists_of_bind_eq_ok h
  obtain ⟨input, hinput, h⟩ := exists_of_bind_eq_ok h
  obtain ⟨output, -, h⟩ := exists_of_bind_eq_ok h
  obtain ⟨listing, -, h⟩ := exists_of_bind_eq_ok h
  cases h
  exact hinput

lemma DisassemblerRequest.input_of_ofArguments {look : String → Store.Look} {arguments : Arguments}
    {request : DisassemblerRequest} (h : ofArguments look arguments = .ok request) :
    arguments.input look = .ok request.input := by
  obtain ⟨-, -, h⟩ := exists_of_bind_eq_ok h
  obtain ⟨input, hinput, h⟩ := exists_of_bind_eq_ok h
  obtain ⟨output, -, h⟩ := exists_of_bind_eq_ok h
  cases h
  exact hinput

section Outputs

variable (env : String → Option String) {arguments : Arguments} (view : files.View)

include view

/-- An input file has a name of one component. -/
lemma FileSystem.View.input_named {path : Path}
    (h : arguments.input (files.look state) = .ok path) :
    path.parts ≠ [] ∧ '/' ∉ path.name.toList := by
  obtain ⟨text, hlook, rfl⟩ := Arguments.input_eq_ok h
  have hne := view.named hlook
  exact ⟨hne, (Path.mem_parse (Path.name_mem hne)).2⟩

/-- **A checked command line has an output file.** -/
lemma AssemblerRequest.exists_outputPath {request : AssemblerRequest}
    (h : ofArguments (files.look state) arguments = .ok request) :
    ∃ output, request.outputPath (Settings.ofEnvironment env) = .ok output := by
  obtain ⟨hne, hplain⟩ := view.input_named (input_of_ofArguments h)
  rw [outputPath]
  split
  · exact ⟨_, rfl⟩
  · exact ⟨_, assembledPath_eq hne hplain⟩

lemma DisassemblerRequest.exists_outputPath {request : DisassemblerRequest}
    (h : ofArguments (files.look state) arguments = .ok request) :
    ∃ output, request.outputPath (Settings.ofEnvironment env) = .ok output := by
  obtain ⟨hne, hplain⟩ := view.input_named (input_of_ofArguments h)
  rw [outputPath]
  split
  · exact ⟨_, rfl⟩
  · exact ⟨_, disassembledPath_eq hne hplain⟩

end Outputs

/-! ## The assembler -/

namespace AssemblerRequest

variable (request : AssemblerRequest) (view : files.View)

/-- **The ROM was written, the listing could not be.** -/
def LosesListing (settings : Settings) (state : σ) (outcome : Outcome σ) : Prop :=
  ∃ bytes source output listing place e, files.read state request.input = .ok bytes ∧
    Utf8.readText bytes = .ok source ∧ (runOver settings source).fault = none ∧
    request.outputPath settings = .ok output ∧ view.place? state output = some place ∧
    (∀ other, view.entry? outcome.store other =
      if other = place then some (.file (runOver settings source).code)
      else view.entry? state other) ∧
    request.listing = some listing ∧
    files.write outcome.store listing (runOver settings source).listingBytes = .error e ∧
    (outcome.refusal = none → outcome.status = e.status)

/-- **All has been written:** the words of the source to the output file, and the listing. -/
def Written (files : FileSystem σ) (settings : Settings) (state final : σ) : Prop :=
  ∃ bytes source output, files.read state request.input = .ok bytes ∧
    Utf8.readText bytes = .ok source ∧ (runOver settings source).fault = none ∧
    request.outputPath settings = .ok output ∧
    files.Writes state ((output, (runOver settings source).code) ::
      request.listingWrites (runOver settings source)) final

/-- **What a run of the assembler leaves.** -/
structure Leaves (settings : Settings) (state : σ) (outcome : Outcome σ) : Prop where
  /-- Only the output file and the listing change. -/
  others : ∀ place, (∀ path, request.outputPath settings = .ok path →
      view.place? state path ≠ some place) →
    (∀ path, request.listing = some path → view.place? state path ≠ some place) →
    view.entry? outcome.store place = view.entry? state place
  /-- A run that fails changes nothing, unless only the listing was missing, or a line was refused
      when all had been written. -/
  failed : outcome.status ≠ .success →
    outcome.store = state ∨ request.LosesListing view settings state outcome ∨
      outcome.refusal ≠ none ∧ request.Written files settings state outcome.store
  /-- A strict run with dropped lines fails. -/
  strict : ∀ bytes source, files.read state request.input = .ok bytes →
    Utf8.readText bytes = .ok source → (runOver settings source).fault = none →
    (runOver settings source).hasErrors = true → request.strict = true →
    outcome.FailsWith .buildError state
  /-- An input that is no UTF-8 is refused. -/
  undecodable : ∀ bytes, files.read state request.input = .ok bytes →
    (∀ text, Utf8.encode text ≠ bytes) → outcome.FailsWith .internalError state
  /-- A run that is broken off fails. -/
  faulted : ∀ bytes source, files.read state request.input = .ok bytes →
    Utf8.readText bytes = .ok source → (runOver settings source).fault ≠ none →
    outcome.FailsWith .internalError state
  /-- After a run that succeeds the output file holds the words of the source. -/
  success : outcome.status = .success → ∃ bytes source output place,
    files.read state request.input = .ok bytes ∧ Utf8.readText bytes = .ok source ∧
    (runOver settings source).fault = none ∧ request.outputPath settings = .ok output ∧
    view.place? state output = some place ∧
    ((∀ path, request.listing = some path → view.place? state path ≠ some place) →
      view.entry? outcome.store place = some (.file (runOver settings source).code))

variable {request}

/-- A series that breaks off at the ROM or at the listing. -/
lemma store_of_fails {output : Path} {run : Run} {reached : σ} {e : SystemError}
    (h : files.Fails state ((output, run.code) :: request.listingWrites run) reached e) :
    reached = state ∨ ∃ listing, request.listing = some listing ∧
      files.write state output run.code = .ok reached ∧
      files.write reached listing run.listingBytes = .error e := by
  cases h with
  | here herror => exact .inl rfl
  | later hwrite hrest =>
      rw [listingWrites] at hrest
      cases hlisting : request.listing with
      | none =>
          rw [hlisting] at hrest
          cases hrest
      | some listing =>
          rw [hlisting] at hrest
          cases hrest with
          | here herror => exact .inr ⟨listing, rfl, hwrite, herror⟩
          | later hok hnone => cases hnone

/-- The way a run of the assembler ends. -/
abbrev outcome (request : AssemblerRequest) (streams : Streams) (files : FileSystem σ)
    (settings : Settings) (state : σ) : Outcome σ :=
  (request.script settings (files.read state request.input)).performTo streams files state

lemma outcome_failed (h : (request.outcome streams files settings state).status ≠ .success) :
    (request.outcome streams files settings state).store = state ∨
      request.LosesListing view settings state (request.outcome streams files settings state) ∨
      (request.outcome streams files settings state).refusal ≠ none ∧
        request.Written files settings state
          (request.outcome streams files settings state).store := by
  rcases request.script_cases settings (files.read state request.input) with
    ⟨status, hending, hcause⟩ | ⟨output, bytes, source, houtput, hread, htext, hfault, hending⟩
  · exact .inl (Script.performTo_of_ending hending hcause.ne_success streams files state).store
  · obtain ⟨hplan, hgood⟩ := Prod.mk.inj hending
    rcases Script.performTo_failed hgood (request.script_writesAtOnce settings _) h with
      hstore | ⟨e, hfails, hends⟩ | ⟨hrefusal, hwrites⟩
    · exact .inl hstore
    · rw [hplan] at hfails
      refine (store_of_fails hfails).imp_right fun hlost => .inl ?_
      obtain ⟨listing, hlisting, hwrite, herror⟩ := hlost
      obtain ⟨place, hplace, hentry⟩ := view.written hwrite
      exact ⟨bytes, source, output, listing, place, e, hread, htext, hfault, houtput, hplace,
        hentry, hlisting, herror, hends⟩
    · rw [hplan] at hwrites
      exact .inr (.inr
        ⟨hrefusal, bytes, source, output, hread, htext, hfault, houtput, hwrites⟩)

lemma outcome_success (h : (request.outcome streams files settings state).status = .success) :
    ∃ bytes source output place, files.read state request.input = .ok bytes ∧
      Utf8.readText bytes = .ok source ∧ (runOver settings source).fault = none ∧
      request.outputPath settings = .ok output ∧ view.place? state output = some place ∧
      ((∀ path, request.listing = some path → view.place? state path ≠ some place) →
        view.entry? (request.outcome streams files settings state).store place =
          some (.file (runOver settings source).code)) := by
  obtain ⟨hgood, hwrites⟩ := Script.writes_of_success h
  rcases request.script_cases settings (files.read state request.input) with
    ⟨status, hending, hcause⟩ | ⟨output, bytes, source, houtput, hread, htext, hfault, hending⟩
  · exact absurd ((Prod.mk.inj hending).2.symm.trans hgood) hcause.ne_success
  · rw [(Prod.mk.inj hending).1] at hwrites
    obtain ⟨place, hplace, hentry⟩ := hwrites.exists_place view
    refine ⟨bytes, source, output, place, hread, htext, hfault, houtput, hplace, ?_⟩
    intro hlisting
    refine hentry fun write hmem => ?_
    obtain ⟨path, hpath, rfl⟩ := mem_listingWrites.mp hmem
    exact hlisting path hpath

/-- **What a run of the assembler leaves** if it has an output file. -/
lemma leaves {output : Path} (houtput : request.outputPath settings = .ok output) :
    request.Leaves view settings state (request.outcome streams files settings state) where
  others := by
    intro place hother hlisting
    refine Script.entry?_performTo view fun write hmem => ?_
    rcases mem_writes hmem with hpath | hpath
    · exact hother write.1 hpath
    · exact hlisting write.1 hpath
  failed := outcome_failed view
  strict := by
    intro bytes source hread htext hfault herrors hstrict
    rw [outcome, hread]
    exact Script.performTo_of_ending (script_refused houtput htext hfault hstrict herrors)
      nofun streams files state
  undecodable := by
    intro bytes hread hbytes
    obtain ⟨fault, hfault⟩ := Utf8.exists_fault_iff.mpr hbytes
    rw [outcome, hread]
    exact Script.performTo_of_ending
      (script_undecodable houtput (Utf8.readText_eq_error_iff.mpr hfault)) nofun streams files state
  faulted := by
    intro bytes source hread htext hfault
    obtain ⟨fault, hfault⟩ := Option.ne_none_iff_exists'.mp hfault
    rw [outcome, hread]
    exact Script.performTo_of_ending (script_faulted houtput htext hfault) nofun streams files state
  success := outcome_success view

end AssemblerRequest

/-! ## The disassembler -/

namespace DisassemblerRequest

variable (request : DisassemblerRequest) (view : files.View)

/-- **All has been written:** the texts of the words to the output file. -/
def Written (files : FileSystem σ) (settings : Settings) (state final : σ) : Prop :=
  ∃ rom output, files.read state request.input = .ok rom ∧
    request.outputPath settings = .ok output ∧
    files.write state output (swept settings rom) = .ok final

/-- **What a run of the disassembler leaves.** -/
structure Leaves (settings : Settings) (state : σ) (outcome : Outcome σ) : Prop where
  /-- Only the output file changes. -/
  others : ∀ place, (∀ path, request.outputPath settings = .ok path →
      view.place? state path ≠ some place) →
    view.entry? outcome.store place = view.entry? state place
  /-- A run that fails changes nothing, unless a line was refused when all had been written. -/
  failed : outcome.status ≠ .success → outcome.store = state ∨
    outcome.refusal ≠ none ∧ request.Written files settings state outcome.store
  /-- An empty ROM is refused. -/
  empty : files.read state request.input = .ok [] → outcome.FailsWith .buildError state
  /-- After a run that succeeds the output file holds the texts of the words. -/
  success : outcome.status = .success → ∃ rom output place,
    files.read state request.input = .ok rom ∧ request.outputPath settings = .ok output ∧
    view.place? state output = some place ∧
    view.entry? outcome.store place = some (.file (swept settings rom))

variable {request}

/-- The way a run of the disassembler ends. -/
abbrev outcome (request : DisassemblerRequest) (streams : Streams) (files : FileSystem σ)
    (settings : Settings) (state : σ) : Outcome σ :=
  (request.script settings (files.read state request.input)).performTo streams files state

lemma outcome_failed (h : (request.outcome streams files settings state).status ≠ .success) :
    (request.outcome streams files settings state).store = state ∨
      (request.outcome streams files settings state).refusal ≠ none ∧
        request.Written files settings state
          (request.outcome streams files settings state).store := by
  rcases request.script_cases settings (files.read state request.input) with
    ⟨status, hending, hcause⟩ | ⟨output, rom, houtput, hread, hending⟩
  · exact .inl (Script.performTo_of_ending hending hcause.ne_success streams files state).store
  · obtain ⟨hplan, hgood⟩ := Prod.mk.inj hending
    rcases Script.performTo_failed hgood (request.script_writesAtOnce settings _) h with
      hstore | ⟨e, hfails, -⟩ | ⟨hrefusal, hwrites⟩
    · exact .inl hstore
    · rw [hplan] at hfails
      exact .inl hfails.singleton.1
    · rw [hplan, FileSystem.writes_singleton_iff] at hwrites
      exact .inr ⟨hrefusal, rom, output, hread, houtput, hwrites⟩

lemma outcome_success (h : (request.outcome streams files settings state).status = .success) :
    ∃ rom output place, files.read state request.input = .ok rom ∧
      request.outputPath settings = .ok output ∧ view.place? state output = some place ∧
      view.entry? (request.outcome streams files settings state).store place =
        some (.file (swept settings rom)) := by
  obtain ⟨hgood, hwrites⟩ := Script.writes_of_success h
  rcases request.script_cases settings (files.read state request.input) with
    ⟨status, hending, hcause⟩ | ⟨output, rom, houtput, hread, hending⟩
  · exact absurd ((Prod.mk.inj hending).2.symm.trans hgood) hcause.ne_success
  · rw [(Prod.mk.inj hending).1] at hwrites
    obtain ⟨place, hplace, hentry⟩ := hwrites.exists_place view
    exact ⟨rom, output, place, hread, houtput, hplace, hentry nofun⟩

/-- **What a run of the disassembler leaves** if it has an output file. -/
lemma leaves {output : Path} (houtput : request.outputPath settings = .ok output) :
    request.Leaves view settings state (request.outcome streams files settings state) where
  others := by
    intro place hother
    exact Script.entry?_performTo view fun write hmem => hother write.1 (mem_writes hmem)
  failed := outcome_failed
  empty := by
    intro hread
    rw [outcome, hread]
    exact Script.performTo_of_ending (script_empty houtput) nofun streams files state
  success := outcome_success view

end DisassemblerRequest

/-! ## Both tools -/

variable {tool : Tool} {env : String → Option String} {texts : List String}
  {outcome : Outcome σ} {arguments : Arguments}

/-- **What a run comes from:** arguments that could be read, and a plan that was made from them. -/
lemma exists_of_runTo (h : tool.runTo streams files env texts state = .ok outcome) :
    ∃ arguments plan, Arguments.parse tool.rules texts = .ok arguments ∧
      tool.plan (files.look state) (Settings.ofEnvironment env) arguments = .ok plan ∧
      outcome = plan.performTo streams files state := by
  obtain ⟨arguments, hparse, h⟩ := exists_of_bind_eq_ok h
  obtain ⟨plan, hplan, h⟩ := exists_of_bind_eq_ok h
  cases h
  exact ⟨arguments, plan, hparse, hplan, rfl⟩

lemma runOn_of_plan {plan : Plan} (hparse : Arguments.parse tool.rules texts = .ok arguments)
    (hplan : tool.plan (files.look state) (Settings.ofEnvironment env) arguments = .ok plan) :
    tool.runOn files env texts state = .ok (plan.performOn files state) := by
  rw [Tool.runOn, Tool.runTo, hparse]
  simp only [bind, Except.bind, hplan, pure, Except.pure]
  rfl

lemma Plan.performOn_process (files : FileSystem σ) (state : σ) (input : Path)
    (script : Except SystemError (List UInt8) → Script) :
    (Plan.process input script).performOn files state =
      (script (files.read state input)).performOn files state := rfl

/-- **What is planned for either tool** comes to nothing or ends well, if all can be written. -/
lemma plan_cases {look : String → Store.Look} {input : Path}
    {script : Except SystemError (List UInt8) → Script}
    (h : tool.plan look settings arguments = .ok (.process input script))
    (content : Except SystemError (List UInt8)) :
    (∃ status, (script content).ending = ([], status) ∧ IsFailure content status) ∨
      (∃ bytes, content = .ok bytes) ∧ (script content).status = .success := by
  cases tool with
  | assembler =>
      simp only [Tool.plan] at h
      split at h
      · cases h
      obtain ⟨request, -, h⟩ := exists_of_bind_eq_ok h
      cases h
      refine (request.script_cases settings content).imp_right ?_
      rintro ⟨output, bytes, source, -, hread, -, -, hending⟩
      exact ⟨⟨bytes, hread⟩, (Prod.mk.inj hending).2⟩
  | disassembler =>
      simp only [Tool.plan] at h
      split at h
      · cases h
      obtain ⟨request, -, h⟩ := exists_of_bind_eq_ok h
      cases h
      refine (request.script_cases settings content).imp_right ?_
      rintro ⟨output, rom, -, hread, hending⟩
      exact ⟨⟨rom, hread⟩, (Prod.mk.inj hending).2⟩

/-- A run ends with a wrong argument only because of a file that is missing or out of reach. -/
lemma missing_of_invalidArguments {input : Path} {script : Except SystemError (List UInt8) → Script}
    (hplan : tool.plan (files.look state) settings arguments = .ok (.process input script))
    (h : ((Plan.process input script).performOn files state).status = .invalidArguments) :
    ∃ e : SystemError, (e.kind = .missing ∨ e.kind = .denied) ∧
      (files.read state input = .error e ∨ ∃ bytes reached,
        files.read state input = .ok bytes ∧
          files.Fails state (script (.ok bytes)).writes reached e) := by
  rw [Plan.performOn_process] at h
  rcases plan_cases hplan (files.read state input) with
    ⟨status, hending, hcause⟩ | ⟨⟨bytes, hread⟩, hgood⟩
  · have hstatus := Script.performOn_of_ending files hending hcause.ne_success state
    rw [h] at hstatus
    subst hstatus
    rcases hcause with ⟨e, hread, hstatus⟩ | hstatus | hstatus
    · exact ⟨e, e.missing_of_status hstatus.symm, .inl hread⟩
    · cases hstatus
    · cases hstatus
  · obtain ⟨e, hfails, hstatus⟩ := Script.fails_of_success files hgood (by rw [h]; decide)
    rw [hread] at hfails
    exact ⟨e, e.missing_of_status (hstatus.symm.trans h), .inr ⟨bytes, _, hread, hfails⟩⟩

/-- Streams of which standard output goes to a device that is full. -/
def Streams.fullOutput : Streams where
  refusal?
    | _, .out, _ => some (.device ⟨.other, some 28, "No space left on device", none⟩)
    | _, .err, _ => none

/-- A text that breaks the run off decides the status, whatever was dropped before. -/
lemma strict_run_faulted {source : String} (hreturn : '\r' ∉ source.toList)
    (hfault : (assemble Table.standard 0x200 source).fault ≠ none) :
    ∃ outcome, Tool.assembler.run (fun _ => none) ["a.chasm", "--strict"]
        { entries := [(["a.chasm"], .file (Utf8.encode source))] } = .ok outcome ∧
      outcome.status = .internalError := by
  obtain ⟨fault, hfault⟩ := Option.ne_none_iff_exists'.mp hfault
  have hread : Utf8.readText (Utf8.encode source) = .ok source := Utf8.readText_encode_eq hreturn
  refine ⟨_, rfl, ?_⟩
  exact Script.performOn_of_ending _ (AssemblerRequest.script_faulted rfl hread hfault)
    (by decide) _

/-- **The error of a file that could not be written decides the status** once the input has been
    read: what is missing or out of reach is a wrong argument, any other error of the file system is
    a failure to build.  A run ends with a wrong argument only if some file, read or written, was
    missing or out of reach. -/
theorem failed_write_status {input : Path} {script : Except SystemError (List UInt8) → Script}
    (hparse : Arguments.parse tool.rules texts = .ok arguments)
    (hplan : tool.plan (files.look state) (Settings.ofEnvironment env) arguments =
      .ok (.process input script)) :
    ∃ outcome, tool.runOn files env texts state = .ok outcome ∧
      (∀ bytes reached e, files.read state input = .ok bytes →
        files.Fails state (script (.ok bytes)).writes reached e →
        (e.kind = .missing ∨ e.kind = .denied → outcome.status = .invalidArguments) ∧
        (¬ (e.kind = .missing ∨ e.kind = .denied) → e.kind ≠ .nullCharacter →
          outcome.status = .buildError)) ∧
      (outcome.status = .invalidArguments → ∃ e : SystemError,
        (e.kind = .missing ∨ e.kind = .denied) ∧
        (files.read state input = .error e ∨ ∃ bytes reached,
          files.read state input = .ok bytes ∧
            files.Fails state (script (.ok bytes)).writes reached e)) := by
  refine ⟨_, runOn_of_plan hparse hplan, ?_, ?_⟩
  · intro bytes reached e hread hfails
    have hstatus : ((Plan.process input script).performOn files state).status = e.status := by
      rw [Plan.performOn_process, hread]
      exact (Script.performOn_of_fails files hfails).2
    rw [hstatus]
    exact ⟨e.status_of_missing, e.status_of_other⟩
  · exact missing_of_invalidArguments hplan

/-- An output file below a file is a failure to build. -/
theorem failed_write_status_below_file :
    ∃ store outcome, store.get? ["a.ch8"] = some (.file [0x00, 0xE0]) ∧
      Tool.disassembler.run (fun _ => none) ["a.ch8", "-o", "a.ch8/a.chasm"] store = .ok outcome ∧
      outcome.status = .buildError := by
  have hparse : Arguments.parse Tool.disassembler.rules ["a.ch8", "-o", "a.ch8/a.chasm"] =
      .ok ⟨[(.output, "a.ch8/a.chasm")], ["a.ch8"]⟩ := rfl
  have hplan : Tool.disassembler.plan
      (Store.fileSystem.look { entries := [(["a.ch8"], .file [0x00, 0xE0])] })
      (Settings.ofEnvironment fun _ => none) ⟨[(.output, "a.ch8/a.chasm")], ["a.ch8"]⟩ =
      .ok (.process ⟨.current, ["a.ch8"]⟩ (DisassemblerRequest.script
        ⟨⟨.current, ["a.ch8"]⟩, some ⟨.current, ["a.ch8", "a.chasm"]⟩, false, false⟩ {})) := rfl
  have hread : Store.fileSystem.read { entries := [(["a.ch8"], .file [0x00, 0xE0])] }
      ⟨.current, ["a.ch8"]⟩ = .ok [0x00, 0xE0] := rfl
  have hwrites : (DisassemblerRequest.script ⟨⟨.current, ["a.ch8"]⟩,
      some ⟨.current, ["a.ch8", "a.chasm"]⟩, false, false⟩ {} (.ok [0x00, 0xE0])).writes =
      [(⟨.current, ["a.ch8", "a.chasm"]⟩, Utf8.encode "CLS\n")] := by decide +kernel
  have herror : Store.fileSystem.write { entries := [(["a.ch8"], .file [0x00, 0xE0])] }
      ⟨.current, ["a.ch8", "a.chasm"]⟩ (Utf8.encode "CLS\n") =
      .error (.about .notDirectory ⟨.current, ["a.ch8", "a.chasm"]⟩) := rfl
  obtain ⟨outcome, hrun, hwrite, -⟩ := failed_write_status hparse hplan
  have hstatus := hwrite _ _ _ hread (by rw [hwrites]; exact .here herror)
  exact ⟨_, outcome, rfl, hrun, hstatus.2 (by decide) (by decide)⟩

/-- An output file in a directory that is not there is a wrong argument, although the input has
    been read. -/
theorem missing_directory_status :
    ∃ store outcome, store.get? ["a.chasm"] = some (.file (Utf8.encode "CLS\n")) ∧
      store.read ⟨.current, ["a.chasm"]⟩ = .ok (Utf8.encode "CLS\n") ∧
      Tool.assembler.run (fun _ => none) ["a.chasm", "-o", "nodir/x.ch8"] store = .ok outcome ∧
      outcome.status = .invalidArguments ∧ outcome.store = store := by
  refine ⟨{ entries := [(["a.chasm"], .file (Utf8.encode "CLS\n"))] }, _, rfl, ?_, rfl, ?_, ?_⟩
  · rfl
  · rfl
  · rfl

end Chip8
