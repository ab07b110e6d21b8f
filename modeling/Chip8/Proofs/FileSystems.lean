import Chip8.Files.FileSystem
import Mathlib.Tactic.Common

/-!
# Writing files

A tool writes its files one after the other, and the first that cannot be written is the last that
is tried.  What such a series leaves in a file system is seen in the places that its paths lead to.

* `FileSystem.Writes` are series that succeed, `FileSystem.Fails` those that break off.
* `FileSystem.View` are the places of a file system and what a write does there.  A series changes
  nothing but its own places: `Writes.entry?_eq`.
* `Store.view` is the view of a store: a file that is written cannot close a way that was open, nor
  open one that was closed (`Store.walk_put`).

Nothing is assumed about reading, nor about when a write succeeds: files may be out of reach and
space may run out.
-/

namespace Chip8

/-- A file that is to be written, and what it is going to hold. -/
abbrev FileWrite := Path × List UInt8

namespace FileSystem

variable {σ : Type} {files : FileSystem σ} {state reached final : σ}
  {todo done rest : List FileWrite}

/-! ## A series of writes -/

/-- **Files written one after the other.** -/
inductive Writes (files : FileSystem σ) : σ → List FileWrite → σ → Prop
  | nil (state : σ) : Writes files state [] state
  | cons {state next final : σ} {path : Path} {bytes : List UInt8} {rest : List FileWrite} :
      files.write state path bytes = .ok next → Writes files next rest final →
      Writes files state ((path, bytes) :: rest) final

/-- **A series that breaks off with an error,** and the state that it leaves: the files in front of
    the one that could not be written have been written. -/
inductive Fails (files : FileSystem σ) : σ → List FileWrite → σ → SystemError → Prop
  | here {state : σ} {path : Path} {bytes : List UInt8} {rest : List FileWrite}
      {e : SystemError} :
      files.write state path bytes = .error e →
      Fails files state ((path, bytes) :: rest) state e
  | later {state next reached : σ} {path : Path} {bytes : List UInt8} {rest : List FileWrite}
      {e : SystemError} :
      files.write state path bytes = .ok next → Fails files next rest reached e →
      Fails files state ((path, bytes) :: rest) reached e

lemma writes_nil_iff : files.Writes state [] final ↔ final = state := by
  constructor
  · rintro ⟨⟩
    rfl
  · rintro rfl
    exact .nil _

lemma writes_singleton_iff {path : Path} {bytes : List UInt8} :
    files.Writes state [(path, bytes)] final ↔ files.write state path bytes = .ok final := by
  constructor
  · rintro (_ | ⟨hwrite, ⟨⟩⟩)
    exact hwrite
  · exact fun h => .cons h (.nil _)

variable {e e' : SystemError}

/-- A series does not both succeed and break off. -/
lemma Fails.not_writes (h : files.Fails state todo reached e) :
    ¬ files.Writes state todo final := by
  induction h with
  | here herror =>
      rintro (_ | ⟨hwrite, -⟩)
      rw [herror] at hwrite
      cases hwrite
  | later hok hfails ih =>
      rintro (_ | ⟨hwrite, hrest⟩)
      rw [hok] at hwrite
      cases hwrite
      exact ih hrest

/-- A series succeeds in one way. -/
lemma Writes.unique {final' : σ} (h : files.Writes state todo final)
    (h' : files.Writes state todo final') : final' = final := by
  induction h with
  | nil => exact writes_nil_iff.mp h'
  | cons hok hrest ih =>
      obtain _ | ⟨hok', hrest'⟩ := h'
      rw [hok] at hok'
      cases hok'
      exact ih hrest'

/-- A series breaks off in one way. -/
lemma Fails.unique {reached' : σ} (h : files.Fails state todo reached e)
    (h' : files.Fails state todo reached' e') : reached' = reached ∧ e' = e := by
  induction h with
  | here herror =>
      cases h' with
      | here herror' =>
          rw [herror] at herror'
          cases herror'
          exact ⟨rfl, rfl⟩
      | later hok' =>
          rw [herror] at hok'
          cases hok'
  | later hok hfails ih =>
      cases h' with
      | here herror' =>
          rw [hok] at herror'
          cases herror'
      | later hok' hfails' =>
          rw [hok] at hok'
          cases hok'
          exact ih hfails'

lemma Fails.singleton {path : Path} {bytes : List UInt8}
    (h : files.Fails state [(path, bytes)] reached e) :
    reached = state ∧ files.write state path bytes = .error e := by
  cases h with
  | here herror => exact ⟨rfl, herror⟩
  | later hok hnone => cases hnone

/-- **A series that breaks off has written a part of its files.** -/
lemma Fails.exists_done (h : files.Fails state todo reached e) :
    ∃ done path bytes rest, todo = done ++ (path, bytes) :: rest ∧
      files.Writes state done reached ∧ files.write reached path bytes = .error e := by
  induction h with
  | here herror => exact ⟨[], _, _, _, rfl, .nil _, herror⟩
  | later hok hfails ih =>
      obtain ⟨done, path, bytes, rest, rfl, hdone, herror⟩ := ih
      exact ⟨_ :: done, path, bytes, rest, rfl, .cons hok hdone, herror⟩

/-! ## Places -/

/-- **The places of a file system,** in which the effect of a write is seen. -/
structure View (files : FileSystem σ) where
  /-- What stands in a place. -/
  entry? : σ → Location → Option Entry
  /-- The place that a path leads to, if it leads to one. -/
  place? : σ → Path → Option Location
  /-- What names a file has a last component. -/
  named : ∀ {state text}, files.look state text = .file → (Path.parse text).parts ≠ []
  /-- **A file is written completely, in its place and nowhere else.** -/
  written : ∀ {state next path bytes}, files.write state path bytes = .ok next →
    ∃ place, place? state path = some place ∧
      ∀ other, entry? next other = if other = place then some (.file bytes) else entry? state other
  /-- Paths lead where they led before. -/
  stays : ∀ {state next path bytes}, files.write state path bytes = .ok next →
    place? next = place? state

variable (view : files.View)

/-- **A place to which no path of a series leads keeps what stands there.** -/
lemma Writes.entry?_eq (h : files.Writes state todo final) {place : Location}
    (hplace : ∀ write ∈ todo, view.place? state write.1 ≠ some place) :
    view.entry? final place = view.entry? state place := by
  induction h with
  | nil => rfl
  | @cons state next final path bytes rest hwrite hrest ih =>
      obtain ⟨target, htarget, hentry⟩ := view.written hwrite
      have hne : place ≠ target := by
        rintro rfl
        exact hplace _ List.mem_cons_self htarget
      rw [ih fun write hmem => view.stays hwrite ▸ hplace write (List.mem_cons_of_mem _ hmem),
        hentry, if_neg hne]

/-- The same of a series that breaks off. -/
lemma Fails.entry?_eq (h : files.Fails state todo reached e) {place : Location}
    (hplace : ∀ write ∈ todo, view.place? state write.1 ≠ some place) :
    view.entry? reached place = view.entry? state place := by
  obtain ⟨done, path, bytes, rest, rfl, hdone, -⟩ := h.exists_done
  exact hdone.entry?_eq view fun write hmem => hplace write (List.mem_append_left _ hmem)

/-- **The last file of a series holds what was written to it,** and so does an earlier one whose
    place is not written again. -/
lemma Writes.exists_place {path : Path} {bytes : List UInt8}
    (h : files.Writes state ((path, bytes) :: rest) final) :
    ∃ place, view.place? state path = some place ∧
      ((∀ write ∈ rest, view.place? state write.1 ≠ some place) →
        view.entry? final place = some (.file bytes)) := by
  obtain _ | ⟨hwrite, hrest⟩ := h
  obtain ⟨place, hplace, hentry⟩ := view.written hwrite
  refine ⟨place, hplace, fun hother => ?_⟩
  rw [hrest.entry?_eq view (by rwa [view.stays hwrite]), hentry, if_pos rfl]

end FileSystem

/-! ## The view of a store -/

namespace Store

variable {store written : Store} {place : Location} {path : Path} {bytes : List UInt8}

lemma ne_nil_of_get? (h : store.get? place ≠ some .directory) : place ≠ [] := by
  rintro rfl
  exact h rfl

/-- **What writing a file asks for, and what it does.** -/
lemma write_eq_ok_iff : store.write path bytes = .ok written ↔
    ∃ place, store.locate path = .ok place ∧ store.get? place ≠ some .directory ∧
      written = store.put place (.file bytes) := by
  rw [write]
  cases store.locate path with
  | error kind => simp
  | ok place =>
      rcases hentry : store.get? place with _ | (_ | other)
      · simp [hentry, eq_comm]
      · simp [hentry]
      · simp [hentry, eq_comm]

lemma read_eq_ok_iff : store.read path = .ok bytes ↔
    ∃ place, store.locate path = .ok place ∧ store.get? place = some (.file bytes) := by
  rw [read]
  cases store.locate path with
  | error kind => simp
  | ok place =>
      rcases hentry : store.get? place with _ | (_ | bytes') <;> simp [hentry]

/-- **A file that is written neither closes a way nor opens one:** where it stands there was no
    directory, and there is none. -/
lemma walk_put (hplace : store.get? place ≠ some .directory) (here : Location)
    (parts : List String) {target : Location} :
    (store.put place (.file bytes)).walk here parts = .ok target ↔
      store.walk here parts = .ok target := by
  induction parts generalizing here with
  | nil => exact Iff.rfl
  | cons part rest ih =>
      simp only [walk, get?_put _ (ne_nil_of_get? hplace)]
      by_cases hhere : here = place
      · subst hhere
        rcases hentry : store.get? here with _ | (_ | other)
        · simp
        · exact absurd hentry hplace
        · simp
      · rw [if_neg hhere]
        rcases store.get? here with _ | (_ | other)
        · exact Iff.rfl
        · simp only
          split
          · exact Iff.rfl
          · exact ih _
        · exact Iff.rfl

lemma locate_put (hplace : store.get? place ≠ some .directory) (path : Path)
    {target : Location} :
    (store.put place (.file bytes)).locate path = .ok target ↔
      store.locate path = .ok target := by
  rw [locate, locate]
  split
  · exact Iff.rfl
  · split
    · exact Iff.rfl
    · exact walk_put hplace _ _

/-- **When a text names a file.** -/
lemma look_eq_file_iff {text : String} : store.look text = .file ↔
    hasNull text = false ∧ ¬ (text = "" ∨ isLonger text maxPathBytes) ∧
      asksDirectory text = false ∧
      ∃ place bytes, store.locate (.parse text) = .ok place ∧
        store.get? place = some (.file bytes) := by
  rw [look]
  cases hasNull text with
  | true => simp
  | false =>
      by_cases hlong : text = "" ∨ isLonger text maxPathBytes
      · simp [hlong]
      · rw [if_neg Bool.false_ne_true, if_neg hlong]
        cases store.locate (.parse text) with
        | error kind => simp
        | ok place =>
            rcases hentry : store.get? place with _ | (_ | bytes)
            · simp [hentry]
            · simp [hentry]
            · cases asksDirectory text <;> simp [hentry, hlong]

/-- A text under which a file stands has a last component. -/
lemma parts_ne_nil_of_look {text : String} (h : store.look text = .file) :
    (Path.parse text).parts ≠ [] := by
  obtain ⟨-, -, hends, -⟩ := look_eq_file_iff.mp h
  have hpart : Path.isPart ((Path.pieces text.toList).getLastD "") = true := by
    rwa [asksDirectory, Bool.not_eq_false'] at hends
  refine List.ne_nil_of_mem (List.mem_filter.mpr ⟨?_, hpart⟩)
  rw [List.getLastD_eq_getLast?]
  cases hlast : (Path.pieces text.toList).getLast? with
  | none =>
      rw [List.getLastD_eq_getLast?, hlast] at hpart
      exact absurd hpart (by decide)
  | some piece => exact List.mem_of_getLast? hlast

/-- The place that a path leads to, if it leads to one. -/
def place? (store : Store) (path : Path) : Option Location := (store.locate path).toOption

lemma place?_eq_some_iff : store.place? path = some place ↔ store.locate path = .ok place := by
  rw [place?]
  cases store.locate path <;> simp [Except.toOption]

/-- **The view of a store.** -/
def view : fileSystem.View where
  entry? := get?
  place? := place?
  named := parts_ne_nil_of_look
  written := by
    intro state next path bytes h
    obtain ⟨place, hplace, hdirectory, rfl⟩ := write_eq_ok_iff.mp h
    exact ⟨place, place?_eq_some_iff.mpr hplace, get?_put state (ne_nil_of_get? hdirectory) _⟩
  stays := by
    intro state next path bytes h
    obtain ⟨place, -, hdirectory, rfl⟩ := write_eq_ok_iff.mp h
    funext other
    refine Option.ext fun target => ?_
    rw [place?_eq_some_iff, place?_eq_some_iff, locate_put hdirectory]

end Store

end Chip8
