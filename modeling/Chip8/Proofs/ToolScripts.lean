import Chip8.Proofs.Scripts
import Chip8.Proofs.Utf8
import Chip8.Tool.Assembler
import Chip8.Tool.Disassembler

/-!
# What the two tools are going to write

A tool knows what it is going to do once it has read its input.  It writes all that it has to write
or nothing at all, and it plans to write nothing exactly if it is going to fail.

* `AssemblerRequest.script_cases` and `DisassemblerRequest.script_cases` are the two ways.
* The lemmas in front of them are the causes of failures, each with its status: an input that cannot
  be read, one that is not UTF-8, a run that is broken off, dropped lines in a strict run, an empty
  ROM.
-/

namespace Chip8

variable {settings : Settings} {content : Except SystemError (List UInt8)} {output : Path}
  {bytes : List UInt8}

/-- **How a script ends that has nothing to write:** with the error of the input that could not be
    read, or because of what was in it. -/
def IsFailure (content : Except SystemError (List UInt8)) (status : ExitStatus) : Prop :=
  (∃ e, content = .error e ∧ status = e.status) ∨ status = .buildError ∨ status = .internalError

lemma IsFailure.ne_success {status : ExitStatus} (h : IsFailure content status) :
    status ≠ .success := by
  rcases h with ⟨e, -, rfl⟩ | rfl | rfl
  · exact e.status_ne_success
  · decide
  · decide

/-! ## The assembler -/

lemma sourceText_ok (bytes : List UInt8) :
    sourceText (.ok bytes) = (Utf8.readText bytes).mapError .undecodable := rfl

namespace AssemblerRequest

variable {request : AssemblerRequest} {source : String}

/-- The run over a source under some settings. -/
abbrev runOver (settings : Settings) (source : String) : Run :=
  assemble Table.standard settings.loadAddress source

/-- What is written to the listing, if there is one. -/
def listingWrites (request : AssemblerRequest) (run : Run) : List FileWrite :=
  (request.listing.map fun path => (path, run.listingBytes)).toList

lemma writesOf_listingEffects (run : Run) :
    writesOf (request.listingEffects settings run) = request.listingWrites run := by
  rw [listingEffects, listingWrites]
  cases request.listing with
  | none => rfl
  | some path => cases request.verbose <;> simp

/-- The script of a request that has an output file. -/
lemma script_of_output (houtput : request.outputPath settings = .ok output) :
    (request.script settings content).ending =
      (match sourceText content with
        | .error failure => Script.failing (some "Assembly") failure
        | .ok source => request.assembleText settings output source).ending := by
  rw [script, houtput]
  refine Script.ending_after ?_ _
  cases request.verbose <;> rfl

lemma script_unread {e : SystemError} (houtput : request.outputPath settings = .ok output) :
    (request.script settings (.error e)).ending = ([], e.status) :=
  script_of_output houtput

lemma script_undecodable {fault : Utf8.Fault} (houtput : request.outputPath settings = .ok output)
    (hfault : Utf8.readText bytes = .error fault) :
    (request.script settings (.ok bytes)).ending = ([], .internalError) := by
  rw [script_of_output houtput, sourceText_ok, hfault]
  rfl

lemma script_faulted {fault : Fault} (houtput : request.outputPath settings = .ok output)
    (hsource : Utf8.readText bytes = .ok source)
    (hfault : (runOver settings source).fault = some fault) :
    (request.script settings (.ok bytes)).ending = ([], .internalError) := by
  rw [script_of_output houtput, sourceText_ok, hsource]
  simp only [Except.mapError, assembleText, hfault]
  exact Script.ending_after (writesOf_logLines _ _ _) _

/-- The script after a run that was not broken off. -/
lemma script_of_run (houtput : request.outputPath settings = .ok output)
    (hsource : Utf8.readText bytes = .ok source) (hfault : (runOver settings source).fault = none) :
    (request.script settings (.ok bytes)).ending =
      (request.finish settings output (runOver settings source)).ending := by
  rw [script_of_output houtput, sourceText_ok, hsource]
  simp only [Except.mapError, assembleText, hfault]
  exact Script.ending_after (writesOf_logLines _ _ _) _

lemma script_refused (houtput : request.outputPath settings = .ok output)
    (hsource : Utf8.readText bytes = .ok source) (hfault : (runOver settings source).fault = none)
    (hstrict : request.strict = true) (herrors : (runOver settings source).hasErrors = true) :
    (request.script settings (.ok bytes)).ending = ([], .buildError) := by
  rw [script_of_run houtput hsource hfault, finish, if_pos herrors,
    if_pos (by rw [hstrict, herrors]; rfl)]
  rfl

lemma script_written (houtput : request.outputPath settings = .ok output)
    (hsource : Utf8.readText bytes = .ok source) (hfault : (runOver settings source).fault = none)
    (h : ¬ (request.strict = true ∧ (runOver settings source).hasErrors = true)) :
    (request.script settings (.ok bytes)).ending =
      ((output, (runOver settings source).code) ::
        request.listingWrites (runOver settings source), .success) := by
  rw [script_of_run houtput hsource hfault, finish, if_neg (by rwa [Bool.and_eq_true])]
  cases (runOver settings source).hasErrors <;>
    simp [Script.ending, Script.writes, writesOf_listingEffects]

/-- **The assembler says nothing between the ROM and the listing.** -/
lemma writesAtOnce_finish (request : AssemblerRequest) (settings : Settings) (output : Path)
    (run : Run) : WritesAtOnce (request.finish settings output run).effects := by
  have hreported : writesOf (if run.hasErrors then [Effect.err run.report] else []) = [] := by
    split <;> rfl
  rw [finish]
  split
  · exact .of_writesOf_eq_nil hreported
  · rw [List.append_assoc, List.append_assoc]
    refine .append_left hreported ?_
    rw [listingEffects]
    cases request.listing with
    | none =>
        refine .append_right ?_ rfl
        rintro effect (_ | ⟨_, hmem⟩)
        · rfl
        · exact isSaid_of_mem_logLines hmem
    | some listing =>
        rw [List.append_assoc, ← List.append_assoc]
        refine .append_right ?_ (by cases request.verbose <;> rfl)
        intro effect hmem
        rcases List.mem_append.mp hmem with (_ | ⟨_, hmem⟩) | (_ | ⟨_, hmem⟩)
        · rfl
        · exact isSaid_of_mem_logLines hmem
        · rfl
        · exact isSaid_of_mem_logLines hmem

lemma script_writesAtOnce (request : AssemblerRequest) (settings : Settings)
    (content : Except SystemError (List UInt8)) :
    WritesAtOnce (request.script settings content).effects := by
  rw [script]
  cases request.outputPath settings with
  | error error => exact .of_writesOf_eq_nil rfl
  | ok output =>
      refine .append_left (by cases request.verbose <;> rfl) ?_
      cases sourceText content with
      | error failure => exact .of_writesOf_eq_nil rfl
      | ok source =>
          refine .append_left (writesOf_logLines _ _ _) ?_
          cases (runOver settings source).fault with
          | some fault => exact .of_writesOf_eq_nil rfl
          | none => exact request.writesAtOnce_finish settings output _

/-- **The assembler is going to write nothing and to fail, or to write the ROM and the listing.** -/
theorem script_cases (request : AssemblerRequest) (settings : Settings)
    (content : Except SystemError (List UInt8)) :
    (∃ status, (request.script settings content).ending = ([], status) ∧
        IsFailure content status) ∨
      ∃ output bytes source, request.outputPath settings = .ok output ∧ content = .ok bytes ∧
        Utf8.readText bytes = .ok source ∧ (runOver settings source).fault = none ∧
        (request.script settings content).ending =
          ((output, (runOver settings source).code) ::
            request.listingWrites (runOver settings source), .success) := by
  cases houtput : request.outputPath settings with
  | error error =>
      rw [script, houtput]
      exact .inl ⟨_, rfl, .inr (.inl rfl)⟩
  | ok output =>
      cases content with
      | error e => exact .inl ⟨_, script_unread houtput, .inl ⟨e, rfl, rfl⟩⟩
      | ok bytes =>
          cases hsource : Utf8.readText bytes with
          | error fault =>
              exact .inl ⟨_, script_undecodable houtput hsource, .inr (.inr rfl)⟩
          | ok source =>
              cases hfault : (runOver settings source).fault with
              | some fault =>
                  exact .inl ⟨_, script_faulted houtput hsource hfault, .inr (.inr rfl)⟩
              | none =>
                  by_cases h : request.strict = true ∧ (runOver settings source).hasErrors = true
                  · exact .inl ⟨_, script_refused houtput hsource hfault h.1 h.2, .inr (.inl rfl)⟩
                  · exact .inr ⟨output, bytes, source, rfl, rfl, hsource, hfault,
                      script_written houtput hsource hfault h⟩

lemma mem_listingWrites {run : Run} {write : FileWrite} :
    write ∈ request.listingWrites run ↔
      ∃ path, request.listing = some path ∧ write = (path, run.listingBytes) := by
  rw [listingWrites]
  cases request.listing with
  | none => simp
  | some path => simp

/-- **The assembler writes to its output file and to its listing.** -/
lemma mem_writes {write : FileWrite} (h : write ∈ (request.script settings content).writes) :
    request.outputPath settings = .ok write.1 ∨ request.listing = some write.1 := by
  rcases request.script_cases settings content with
    ⟨status, hending, -⟩ | ⟨output, bytes, source, houtput, -, -, -, hending⟩
  · rw [(Prod.mk.inj hending).1] at h
    cases h
  · rw [(Prod.mk.inj hending).1] at h
    rcases List.mem_cons.mp h with rfl | h
    · exact .inl houtput
    · obtain ⟨path, hlisting, rfl⟩ := mem_listingWrites.mp h
      exact .inr hlisting

end AssemblerRequest

/-! ## The disassembler -/

namespace DisassemblerRequest

variable {request : DisassemblerRequest} {rom : List UInt8}

/-- The sweep over an image under some settings. -/
abbrev sweepOver (settings : Settings) (rom : List UInt8) : Sweep :=
  Decoder.standard.sweep settings.loadAddress rom

/-- The file that a sweep becomes. -/
def swept (settings : Settings) (rom : List UInt8) : List UInt8 :=
  sourceBytes ((sweepOver settings rom).words.map (·.text))

lemma script_unread {e : SystemError} (houtput : request.outputPath settings = .ok output) :
    (request.script settings (.error e)).ending = ([], e.status) := by
  rw [script, houtput]
  rfl

/-- What is said in front of the work writes nothing. -/
lemma writesOf_heading (size : Nat) (entries : List LogEntry) :
    writesOf (request.heading settings size ++ logLines settings request.verbose entries) = [] := by
  rw [writesOf_append, writesOf_logLines, List.append_nil, heading]
  split <;> rfl

/-- The script of a request whose input could be read. -/
lemma script_of_output (houtput : request.outputPath settings = .ok output) :
    (request.script settings (.ok rom)).ending =
      (if rom.isEmpty then Script.failing (some "Disassembly") (.emptyRom request.input)
      else match (sweepOver settings rom).fault with
        | some fault => Script.failing (some "Disassembly") (.faulted fault)
        | none => request.finish settings output (sweepOver settings rom).words).ending := by
  simp only [script, houtput, disassembleBytes, Decoder.disassemble]
  rw [Script.ending_after (writesOf_logLines _ _ _)]
  split
  · rfl
  · exact Script.ending_after (writesOf_heading _ _) _

lemma script_empty (houtput : request.outputPath settings = .ok output) :
    (request.script settings (.ok [])).ending = ([], .buildError) :=
  script_of_output houtput

lemma script_faulted {fault : Fault} (houtput : request.outputPath settings = .ok output)
    (hrom : rom ≠ []) (hfault : (sweepOver settings rom).fault = some fault) :
    (request.script settings (.ok rom)).ending = ([], .internalError) := by
  rw [script_of_output houtput, if_neg (by simpa using hrom), hfault]
  rfl

lemma script_written (houtput : request.outputPath settings = .ok output) (hrom : rom ≠ [])
    (hfault : (sweepOver settings rom).fault = none) :
    (request.script settings (.ok rom)).ending = ([(output, swept settings rom)], .success) := by
  rw [script_of_output houtput, if_neg (by simpa using hrom), hfault]
  cases hlisting : request.listing <;>
    simp [Script.ending, Script.writes, finish, listingEffects, swept, hlisting]

/-- **The disassembler writes one file.** -/
lemma writesAtOnce_finish (request : DisassemblerRequest) (settings : Settings) (output : Path)
    (words : List DisassembledWord) :
    WritesAtOnce (request.finish settings output words).effects := by
  have hlisting : writesOf (request.listingEffects words) = [] := by
    rw [listingEffects]
    split <;> simp
  rw [finish, List.append_assoc]
  refine .append_left hlisting (.append_right ?_ rfl)
  rintro effect (_ | ⟨_, hmem⟩)
  · rfl
  · exact isSaid_of_mem_logLines hmem

lemma script_writesAtOnce (request : DisassemblerRequest) (settings : Settings)
    (content : Except SystemError (List UInt8)) :
    WritesAtOnce (request.script settings content).effects := by
  rw [script]
  cases request.outputPath settings with
  | error error => exact .of_writesOf_eq_nil rfl
  | ok output =>
      cases content with
      | error e => exact .of_writesOf_eq_nil rfl
      | ok rom =>
          refine .append_left (writesOf_logLines _ _ _) ?_
          split
          · exact .of_writesOf_eq_nil rfl
          · refine .append_left (writesOf_heading _ _) ?_
            split
            · exact .of_writesOf_eq_nil rfl
            · exact request.writesAtOnce_finish settings output _

/-- **The disassembler is going to write nothing and to fail, or to write the assembly file.** -/
theorem script_cases (request : DisassemblerRequest) (settings : Settings)
    (content : Except SystemError (List UInt8)) :
    (∃ status, (request.script settings content).ending = ([], status) ∧
        IsFailure content status) ∨
      ∃ output rom, request.outputPath settings = .ok output ∧ content = .ok rom ∧
        (request.script settings content).ending =
          ([(output, swept settings rom)], .success) := by
  cases houtput : request.outputPath settings with
  | error error =>
      rw [script, houtput]
      exact .inl ⟨_, rfl, .inr (.inl rfl)⟩
  | ok output =>
      cases content with
      | error e => exact .inl ⟨_, script_unread houtput, .inl ⟨e, rfl, rfl⟩⟩
      | ok rom =>
          by_cases hrom : rom = []
          · subst hrom
            exact .inl ⟨_, script_empty houtput, .inr (.inl rfl)⟩
          · cases hfault : (sweepOver settings rom).fault with
            | some fault =>
                exact .inl ⟨_, script_faulted houtput hrom hfault, .inr (.inr rfl)⟩
            | none =>
                exact .inr ⟨output, rom, rfl, rfl, script_written houtput hrom hfault⟩

/-- **The disassembler writes to its output file.** -/
lemma mem_writes {write : FileWrite} (h : write ∈ (request.script settings content).writes) :
    request.outputPath settings = .ok write.1 := by
  rcases request.script_cases settings content with
    ⟨status, hending, -⟩ | ⟨output, rom, houtput, -, hending⟩
  · rw [(Prod.mk.inj hending).1] at h
    cases h
  · rw [(Prod.mk.inj hending).1] at h
    rw [List.mem_singleton.mp h]
    exact houtput

end DisassemblerRequest

end Chip8
