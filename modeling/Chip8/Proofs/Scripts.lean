import Chip8.Proofs.FileSystems
import Chip8.Tool.Script

/-!
# What a script writes

Of all the steps of a script only the writes touch the files.  A script is broken off by a file that
cannot be written or by a line that is refused; `Script.Ends` are the ways in which it ends, and
`Script.performTo_spec` says that there are no others.  So what a script leaves depends on its
writes and on how many of them are done when it ends.

* `Script.writes` are the writes of a script in order; most parts of a script have none.  Together
  with the status they are what a script comes to, `Script.ending`.
* `WritesAtOnce` holds of steps that say nothing between two writes.  A refused line then finds all
  files written or none: `Script.performTo_failed`.
* `Script.performOn_spec` is the case of streams that take every line.
-/

namespace Chip8

/-! ## Errors and their status -/

namespace SystemError

lemma status_of_missing {e : SystemError} (h : e.kind = .missing ∨ e.kind = .denied) :
    e.status = .invalidArguments := by
  rw [status]
  rcases h with h | h <;> rw [h]

lemma status_of_other {e : SystemError} (h : ¬ (e.kind = .missing ∨ e.kind = .denied))
    (hnull : e.kind ≠ .nullCharacter) : e.status = .buildError := by
  rw [status]
  cases hkind : e.kind <;> simp_all

lemma missing_of_status {e : SystemError} (h : e.status = .invalidArguments) :
    e.kind = .missing ∨ e.kind = .denied := by
  rw [status] at h
  cases hkind : e.kind <;> rw [hkind] at h <;> first | exact .inl rfl | exact .inr rfl | cases h

lemma status_ne_success (e : SystemError) : e.status ≠ .success := by
  rw [status]
  cases e.kind <;> decide

end SystemError

/-- A failure is no success. -/
lemma Failure.status_ne_success (failure : Failure) : failure.status ≠ .success := by
  cases failure with
  | system error => exact error.status_ne_success
  | _ => nofun

/-! ## Writes of a script -/

/-- The write that a step is, if it is one. -/
def Effect.write? : Effect → Option FileWrite
  | .write path bytes => some (path, bytes)
  | .out _ | .err _ | .log _ | .notice _ => none

/-- Whether a step says something that must not be refused. -/
def Effect.isSaid : Effect → Bool
  | .out _ | .err _ | .notice _ => true
  | .log _ | .write _ _ => false

/-- **The writes among some steps.** -/
def writesOf (effects : List Effect) : List FileWrite := effects.filterMap Effect.write?

/-- **The writes of a script.** -/
def Script.writes (script : Script) : List FileWrite := writesOf script.effects

/-- **What a script comes to:** its writes and the status if all of them succeed. -/
def Script.ending (script : Script) : List FileWrite × ExitStatus := (script.writes, script.status)

@[simp] lemma writesOf_nil : writesOf [] = [] := rfl

@[simp] lemma writesOf_append (first second : List Effect) :
    writesOf (first ++ second) = writesOf first ++ writesOf second := List.filterMap_append

@[simp] lemma writesOf_out (line : String) (rest : List Effect) :
    writesOf (.out line :: rest) = writesOf rest := rfl

@[simp] lemma writesOf_err (line : String) (rest : List Effect) :
    writesOf (.err line :: rest) = writesOf rest := rfl

@[simp] lemma writesOf_log (line : String) (rest : List Effect) :
    writesOf (.log line :: rest) = writesOf rest := rfl

@[simp] lemma writesOf_notice (line : String) (rest : List Effect) :
    writesOf (.notice line :: rest) = writesOf rest := rfl

@[simp] lemma writesOf_write (path : Path) (bytes : List UInt8) (rest : List Effect) :
    writesOf (.write path bytes :: rest) = (path, bytes) :: writesOf rest := rfl

@[simp] lemma writesOf_map_out {α : Type} (f : α → String) (list : List α) :
    writesOf (list.map fun a => .out (f a)) = [] := by
  simp [writesOf, List.filterMap_map, Effect.write?]

@[simp] lemma writesOf_logLines (settings : Settings) (verbose : Bool) (entries : List LogEntry) :
    writesOf (logLines settings verbose entries) = [] := by
  rw [logLines]
  split <;> simp [writesOf, List.filterMap_map, Effect.write?]

lemma isSaid_of_mem_logLines {settings : Settings} {verbose : Bool} {entries : List LogEntry}
    {effect : Effect} (h : effect ∈ logLines settings verbose entries) :
    effect.isSaid = false := by
  rw [logLines] at h
  split at h
  all_goals
    obtain ⟨entry, -, rfl⟩ := List.mem_map.mp h
    rfl

/-- What is said is no write. -/
lemma writesOf_cons_of_isSaid {effect : Effect} (h : effect.isSaid = true) (rest : List Effect) :
    writesOf (effect :: rest) = writesOf rest := by
  cases effect with
  | out line | err line | notice line => rfl
  | log line | write path bytes => cases h

/-- **Steps that say nothing between two writes:** where they say something, no file has been
    written, or none is left to be. -/
def WritesAtOnce (effects : List Effect) : Prop :=
  ∀ before effect after, effects = before ++ effect :: after → effect.isSaid = true →
    writesOf before = [] ∨ writesOf after = []

namespace WritesAtOnce

variable {first block rest : List Effect}

lemma of_writesOf_eq_nil (h : writesOf rest = []) : WritesAtOnce rest := by
  rintro before effect after rfl -
  rw [writesOf_append] at h
  exact .inl (List.append_eq_nil_iff.mp h).1

lemma append_left (h : writesOf first = []) (hrest : WritesAtOnce rest) :
    WritesAtOnce (first ++ rest) := by
  intro before effect after heq hsaid
  rcases List.append_eq_append_iff.mp heq with ⟨more, rfl, hmore⟩ | ⟨more, rfl, -⟩
  · rw [writesOf_append, h, List.nil_append]
    exact hrest more effect after hmore hsaid
  · rw [writesOf_append] at h
    exact .inl (List.append_eq_nil_iff.mp h).1

/-- Writes and log lines, and then steps that write nothing. -/
lemma append_right (hblock : ∀ effect ∈ block, effect.isSaid = false) (h : writesOf rest = []) :
    WritesAtOnce (block ++ rest) := by
  intro before effect after heq hsaid
  have hlater : ∀ more, rest = more ++ effect :: after → writesOf after = [] := by
    rintro more rfl
    rw [writesOf_append, writesOf_cons_of_isSaid hsaid] at h
    exact (List.append_eq_nil_iff.mp h).2
  rcases List.append_eq_append_iff.mp heq with ⟨more, -, hmore⟩ | ⟨more, rfl, hmore⟩
  · exact .inr (hlater more hmore)
  · rcases more with _ | ⟨other, more⟩
    · exact .inr (hlater [] hmore.symm)
    · obtain ⟨rfl, -⟩ := List.cons.inj hmore
      have hsilent := hblock effect (by simp)
      rw [hsaid] at hsilent
      cases hsilent

end WritesAtOnce

namespace Outcome

variable {σ : Type}

/-- A failure is reported with its status, or the report is refused. -/
lemma failing_cases (streams : Streams) (failure : Failure) (refusal : Option Refusal) (state : σ) :
    (failing streams failure refusal state).store = state ∧
      (failing streams failure refusal state).status ≠ .success ∧
      ((failing streams failure refusal state).status = failure.status ∧
          (failing streams failure refusal state).refusal = refusal ∨
        (failing streams failure refusal state).refusal ≠ none) := by
  rw [failing]
  split
  · exact ⟨rfl, failure.status_ne_success, .inl ⟨rfl, rfl⟩⟩
  · exact ⟨rfl, nofun, .inr nofun⟩

/-- **A tool that fails without writing anything,** with a status unless a line is refused. -/
structure FailsWith (outcome : Outcome σ) (status : ExitStatus) (state : σ) : Prop where
  store : outcome.store = state
  failed : outcome.status ≠ .success
  status : outcome.refusal = none → outcome.status = status

end Outcome

namespace Script

/-- Steps in front of a script change nothing if they write nothing. -/
lemma ending_after {first : List Effect} (h : writesOf first = []) (script : Script) :
    (script.after first).ending = script.ending := by
  have hwrites : (script.after first).writes = writesOf first ++ script.writes :=
    writesOf_append first script.effects
  rw [ending, hwrites, h]
  rfl

/-! ## Carrying a script out -/

variable {σ : Type} {files : FileSystem σ} {planned : ExitStatus} {state : σ}
  {streams : Streams}

/-- **The ways in which some steps end** that were going to end with a status. -/
inductive Ends (files : FileSystem σ) (planned : ExitStatus) (state : σ) (effects : List Effect)
    (outcome : Outcome σ) : Prop
  /-- All steps are done. -/
  | done : outcome.refusal = none → outcome.status = planned →
      files.Writes state (writesOf effects) outcome.store → Ends files planned state effects outcome
  /-- A file could not be written, and its error decides the status if it could be reported. -/
  | unwritten (e : SystemError) : outcome.status ≠ .success →
      (outcome.refusal = none → outcome.status = e.status) →
      files.Fails state (writesOf effects) outcome.store e →
      Ends files planned state effects outcome
  /-- A line was refused. -/
  | refused (before : List Effect) (effect : Effect) (after : List Effect) :
      effects = before ++ effect :: after → effect.isSaid = true → outcome.refusal ≠ none →
      outcome.status ≠ .success → files.Writes state (writesOf before) outcome.store →
      Ends files planned state effects outcome

/-- A step that writes nothing changes nothing about the end of those behind it. -/
lemma Ends.cons {effect : Effect} {rest : List Effect} {outcome shown : Outcome σ}
    (h : Ends files planned state rest outcome) (hquiet : effect.write? = none)
    (hrefusal : shown.refusal = outcome.refusal) (hstatus : shown.status = outcome.status)
    (hstore : shown.store = outcome.store) : Ends files planned state (effect :: rest) shown := by
  have hwrites : ∀ effects, writesOf (effect :: effects) = writesOf effects :=
    fun effects => List.filterMap_cons_none hquiet
  cases h with
  | done hnone hplanned hdone =>
      exact .done (hrefusal.trans hnone) (hstatus.trans hplanned) (by rwa [hstore, hwrites])
  | unwritten e hbad he hfails =>
      rw [← hstatus] at hbad he
      rw [← hrefusal] at he
      exact .unwritten e hbad he (by rwa [hstore, hwrites])
  | refused before last after heq hsaid hsome hbad hdone =>
      rw [← hrefusal] at hsome
      rw [← hstatus] at hbad
      exact .refused (effect :: before) last after (by rw [heq, List.cons_append]) hsaid hsome hbad
        (by rwa [hstore, hwrites])

/-- A first line that is refused ends the steps, and the refusal is reported. -/
lemma ends_refused {effect : Effect} {rest : List Effect} (hsaid : effect.isSaid = true)
    (streams : Streams) (refusal : Refusal) :
    Ends files planned state (effect :: rest)
      (.failing streams refusal.failure (some refusal) state) := by
  obtain ⟨hstore, hbad, hrefusal⟩ :=
    Outcome.failing_cases streams refusal.failure (some refusal) state
  refine .refused [] effect rest rfl hsaid ?_ hbad ?_
  · rcases hrefusal with ⟨-, hsome⟩ | hsome
    · rw [hsome]
      nofun
    · exact hsome
  · rw [hstore]
    exact .nil state

/-- **Steps end in one of these ways.** -/
theorem performAll_spec (files : FileSystem σ) (planned : ExitStatus) (streams : Streams)
    (state : σ) (effects : List Effect) :
    Ends files planned state effects (performAll files planned streams state effects) := by
  induction effects generalizing state streams with
  | nil => exact .done rfl rfl (.nil state)
  | cons effect rest ih =>
      cases effect with
      | out line =>
          rw [performAll]
          split
          · exact (ih streams.later state).cons rfl rfl rfl rfl
          · exact ends_refused rfl _ _
      | err line =>
          rw [performAll]
          split
          · exact (ih streams.later state).cons rfl rfl rfl rfl
          · exact ends_refused rfl _ _
      | log line =>
          rw [performAll]
          split
          · exact (ih streams.later state).cons rfl rfl rfl rfl
          · exact (ih streams.later state).cons rfl rfl rfl rfl
      | notice line =>
          rw [performAll]
          split
          · exact (ih streams.later state).cons rfl rfl rfl rfl
          · exact .refused [] _ rest rfl rfl nofun nofun (.nil state)
      | write path bytes =>
          rw [performAll]
          cases hwrite : files.write state path bytes with
          | error e =>
              obtain ⟨hstore, hbad, hreport⟩ :=
                Outcome.failing_cases streams.later (.system e) none state
              refine .unwritten e hbad (fun hnone => ?_) ?_
              · rcases hreport with ⟨hstatus, -⟩ | hsome
                · exact hstatus
                · exact absurd hnone hsome
              · dsimp only
                rw [hstore]
                exact .here hwrite
          | ok next =>
              cases ih streams.later next with
              | done hnone hplanned hdone => exact .done hnone hplanned (.cons hwrite hdone)
              | unwritten e hbad he hfails => exact .unwritten e hbad he (.later hwrite hfails)
              | refused before last after heq hsaid hsome hbad hdone =>
                  exact .refused (.write path bytes :: before) last after
                    (by rw [heq, List.cons_append]) hsaid hsome hbad (.cons hwrite hdone)

/-- **A script ends in one of these ways.** -/
theorem performTo_spec (script : Script) (streams : Streams) (files : FileSystem σ) (state : σ) :
    Ends files script.status state script.effects (script.performTo streams files state) :=
  performAll_spec files script.status streams state script.effects

/-- **A script that writes nothing and is going to fail** fails and leaves all files as they are. -/
lemma performTo_of_ending {script : Script} {status : ExitStatus}
    (h : script.ending = ([], status)) (hbad : status ≠ .success) (streams : Streams)
    (files : FileSystem σ) (state : σ) :
    (script.performTo streams files state).FailsWith status state := by
  obtain ⟨hnone, rfl⟩ := Prod.mk.inj h
  cases script.performTo_spec streams files state with
  | done hrefusal hstatus hdone =>
      rw [← writes, hnone, FileSystem.writes_nil_iff] at hdone
      exact ⟨hdone, hstatus ▸ hbad, fun _ => hstatus⟩
  | unwritten e hfailed he hfails =>
      rw [← writes, hnone] at hfails
      cases hfails
  | refused before effect after heq hsaid hsome hfailed hdone =>
      rw [writes, heq, writesOf_append] at hnone
      rw [(List.append_eq_nil_iff.mp hnone).1, FileSystem.writes_nil_iff] at hdone
      exact ⟨hdone, hfailed, fun hrefusal => absurd hrefusal hsome⟩

/-- A script that ends well has written all its files, as it was going to. -/
lemma writes_of_success {script : Script}
    (h : (script.performTo streams files state).status = .success) :
    script.status = .success ∧
      files.Writes state script.writes (script.performTo streams files state).store := by
  cases script.performTo_spec streams files state with
  | done hrefusal hstatus hdone => exact ⟨hstatus.symm.trans h, hdone⟩
  | unwritten e hfailed he hfails => exact absurd h hfailed
  | refused before effect after heq hsaid hsome hfailed hdone => exact absurd h hfailed

/-- **A script that was going to end well and does not,** has written nothing, or could not write
    one of its files, or has written all of them and was not allowed to say what it had to say. -/
lemma performTo_failed {script : Script} (hgood : script.status = .success)
    (honce : WritesAtOnce script.effects)
    (h : (script.performTo streams files state).status ≠ .success) :
    (script.performTo streams files state).store = state ∨
      (∃ e, files.Fails state script.writes (script.performTo streams files state).store e ∧
        ((script.performTo streams files state).refusal = none →
          (script.performTo streams files state).status = e.status)) ∨
      (script.performTo streams files state).refusal ≠ none ∧
        files.Writes state script.writes (script.performTo streams files state).store := by
  cases script.performTo_spec streams files state with
  | done hrefusal hstatus hdone => exact absurd (hstatus.trans hgood) h
  | unwritten e hfailed he hfails => exact .inr (.inl ⟨e, hfails, he⟩)
  | refused before effect after heq hsaid hsome hfailed hdone =>
      rcases honce before effect after heq hsaid with hnone | hnone
      · rw [hnone, FileSystem.writes_nil_iff] at hdone
        exact .inl hdone
      · have hall : script.writes = writesOf before := by
          rw [writes, heq, writesOf_append, writesOf_cons_of_isSaid hsaid, hnone, List.append_nil]
        exact .inr (.inr ⟨hsome, hall ▸ hdone⟩)

/-- **A script changes no place but those of its writes.** -/
lemma entry?_performTo (view : files.View) {script : Script} {place : Location}
    (h : ∀ write ∈ script.writes, view.place? state write.1 ≠ some place) :
    view.entry? (script.performTo streams files state).store place = view.entry? state place := by
  cases script.performTo_spec streams files state with
  | done hrefusal hstatus hdone => exact hdone.entry?_eq view h
  | unwritten e hfailed he hfails => exact hfails.entry?_eq view h
  | refused before effect after heq hsaid hsome hfailed hdone =>
      refine hdone.entry?_eq view fun write hmem => h write ?_
      rw [writes, heq, writesOf_append]
      exact List.mem_append_left _ hmem

/-! ## Streams that take every line -/

/-- No line is refused where none can be. -/
lemma performAll_working (state : σ) (effects : List Effect) :
    (performAll files planned .working state effects).refusal = none := by
  induction effects generalizing state with
  | nil => rfl
  | cons effect rest ih =>
      cases effect with
      | out line | err line | log line | notice line => exact ih state
      | write path bytes =>
          rw [performAll]
          cases files.write state path bytes with
          | error e => rfl
          | ok next => exact ih next

variable (files)

/-- **A script writes all its files and ends as it says, or its writing breaks off.** -/
theorem performOn_spec (script : Script) (state : σ) :
    (files.Writes state script.writes (script.performOn files state).store ∧
        (script.performOn files state).status = script.status) ∨
      ∃ e, files.Fails state script.writes (script.performOn files state).store e ∧
        (script.performOn files state).status = e.status := by
  have htaken : (script.performOn files state).refusal = none := performAll_working state _
  cases script.performTo_spec .working files state with
  | done hrefusal hstatus hdone => exact .inl ⟨hdone, hstatus⟩
  | unwritten e hfailed he hfails => exact .inr ⟨e, hfails, he htaken⟩
  | refused before effect after heq hsaid hsome hfailed hdone => exact absurd htaken hsome

/-- A script that writes nothing and is going to fail does so. -/
lemma performOn_of_ending {script : Script} {status : ExitStatus}
    (h : script.ending = ([], status)) (hbad : status ≠ .success) (state : σ) :
    (script.performOn files state).status = status :=
  (performTo_of_ending h hbad .working files state).status (performAll_working state _)

/-- A script that was going to end well and does not has not written all its files. -/
lemma fails_of_success {script : Script} {state : σ} (hgood : script.status = .success)
    (h : (script.performOn files state).status ≠ .success) :
    ∃ e, files.Fails state script.writes (script.performOn files state).store e ∧
      (script.performOn files state).status = e.status := by
  rcases script.performOn_spec files state with ⟨-, hstatus⟩ | hfails
  · exact absurd (hstatus.trans hgood) h
  · exact hfails

/-- **A script whose files can all be written writes them** and ends as it says. -/
lemma performOn_of_writes {script : Script} {state final : σ}
    (h : files.Writes state script.writes final) :
    (script.performOn files state).store = final ∧
      (script.performOn files state).status = script.status := by
  rcases script.performOn_spec files state with ⟨hwrites, hstatus⟩ | ⟨e, hfails, -⟩
  · exact ⟨h.unique hwrites, hstatus⟩
  · exact absurd h hfails.not_writes

/-- **A write that fails decides how the script ends.** -/
lemma performOn_of_fails {script : Script} {state reached : σ} {e : SystemError}
    (h : files.Fails state script.writes reached e) :
    (script.performOn files state).store = reached ∧
      (script.performOn files state).status = e.status := by
  rcases script.performOn_spec files state with ⟨hwrites, -⟩ | ⟨e', hfails, hstatus⟩
  · exact absurd hwrites h.not_writes
  · obtain ⟨hreached, rfl⟩ := h.unique hfails
    exact ⟨hreached, hstatus⟩

end Script

end Chip8
