import Chip8.Files.SystemError
import Chip8.Text.Utf8

/-!
# Stores

A store is a tree of directories and files, seen from a current directory.  The tools read one
file of it and write at most two; nothing else of a file system is needed.

* `Location` is a place in the tree, the names that lead to it from the root.
* `Store.walk` follows a path to a location, `Store.read` and `Store.write` go to the file there.
* `maxNameBytes` and `maxPathBytes` limit what can be looked for at all.
* `Store.look` tells what stands under a text that has not been normalized as a path, so that a
  slash at its end still asks for a directory.

The tree is kept flat, as a list of locations with what stands there; `Store.get?` is its
view, and a write changes the view at one location only (`get?_put`).
-/

namespace Chip8

abbrev Location := List String

inductive Entry
  | directory
  | file (bytes : List UInt8)
  deriving DecidableEq

/-- **A tree of files and the directory from which it is seen.** -/
structure Store where
  current : Location := []
  /-- What stands where; the first entry of a location counts. -/
  entries : List (Location × Entry) := []

namespace Store

/-- What stands in a place; the root is a directory always. -/
def get? (store : Store) (place : Location) : Option Entry :=
  if place = [] then some .directory else store.entries.lookup place

def put (store : Store) (place : Location) (entry : Entry) : Store :=
  { store with
    entries := (place, entry) :: store.entries.filter fun other => other.1 != place }

/-! ## Following paths -/

def maxNameBytes : Nat := 255

def maxPathBytes : Nat := 4095

def isLonger (text : String) (limit : Nat) : Bool := limit < (Utf8.encode text).length

/-- Whether a text holds a null character, which no path can. -/
def hasNull (text : String) : Bool := text.toList.contains '\x00'

def stepTo (place : Location) (part : String) : Location :=
  if part = ".." then place.dropLast else place ++ [part]

/-- Components followed one by one.  What is gone through has to be a directory, in which names
    of any reasonable length can be looked for; the last place may be empty. -/
def walk (store : Store) : Location → List String → Except SystemError.Kind Location
  | place, [] => .ok place
  | place, part :: rest =>
    match store.get? place with
    | some .directory =>
      if isLonger part maxNameBytes then .error .nameTooLong
      else walk store (stepTo place part) rest
    | some (.file _) => .error .notDirectory
    | none => .error .missing

def start (store : Store) : Anchor → Location
  | .current => store.current
  | _ => []

/-- **The place of a path.** -/
def locate (store : Store) (path : Path) : Except SystemError.Kind Location :=
  if hasNull path.text then .error .nullCharacter
  else if isLonger path.text maxPathBytes then .error .nameTooLong
  else store.walk (store.start path.anchor) path.parts

/-! ## Reading and writing -/

/-- **The bytes of a file.** -/
def read (store : Store) (path : Path) : Except SystemError (List UInt8) :=
  match store.locate path with
  | .error kind => .error (.about kind path)
  | .ok place =>
    match store.get? place with
    | some (.file bytes) => .ok bytes
    | some .directory => .error (.about .isDirectory path)
    | none => .error (.about .missing path)

/-- **The store after a file was written,** which may have been there or not. -/
def write (store : Store) (path : Path) (bytes : List UInt8) : Except SystemError Store :=
  match store.locate path with
  | .error kind => .error (.about kind path)
  | .ok place =>
    match store.get? place with
    | some .directory => .error (.about .isDirectory path)
    | _ => .ok (store.put place (.file bytes))

/-! ## Looking -/

/-- What a text can name; one with a null character cannot be asked about. -/
inductive Look
  | absent | file | directory | unaskable
  deriving DecidableEq, Repr

/-- Whether a text asks for a directory, by a slash or a dot at its end. -/
def asksDirectory (text : String) : Bool := !Path.isPart ((Path.pieces text.toList).getLastD "")

/-- **What stands under a text.**  The empty text names nothing, and a text that is too long
    does not either. -/
def look (store : Store) (text : String) : Look :=
  if hasNull text then .unaskable
  else if text = "" ∨ isLonger text maxPathBytes then .absent
  else
    match store.locate (Path.parse text) with
    | .error _ => .absent
    | .ok place =>
      match store.get? place with
      | some .directory => .directory
      | some (.file _) => if asksDirectory text then .absent else .file
      | none => .absent

/-! ## The view after a write -/

/-- A place that was filtered out is found no more, any other as before. -/
theorem lookup_filter_ne (entries : List (Location × Entry)) (place other : Location)
    (h : other ≠ place) :
    (entries.filter fun e => e.1 != place).lookup other = entries.lookup other := by
  induction entries with
  | nil => rfl
  | cons e rest ih =>
    obtain ⟨here, entry⟩ := e
    by_cases hp : here = place
    · subst hp
      have hne : (other == here) = false := by simpa using h
      simp [List.lookup_cons, hne, ih]
    · have hk : (here != place) = true := by simpa using hp
      simp [hk, List.lookup_cons, ih]

/-- **A write changes the view in one place only.** -/
theorem get?_put (store : Store) {place : Location} (h : place ≠ []) (entry : Entry)
    (other : Location) :
    (store.put place entry).get? other =
      if other = place then some entry else store.get? other := by
  by_cases ho : other = place
  · subst ho
    simp [get?, put, h]
  · have hne : (other == place) = false := by simpa using ho
    simp [get?, put, ho, List.lookup_cons, hne, lookup_filter_ne _ _ _ ho]

end Store

end Chip8
