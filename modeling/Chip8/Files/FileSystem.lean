import Chip8.Files.Store

/-!
# File systems

All that a tool does with files is to look what stands under a text, to read a file and to write
one.  Any type of states on which that can be done is a file system: a store is one, and so is
anything in which more can go wrong, where files may not be touched or the space runs out.

* `FileSystem` holds the three operations, `Store.fileSystem` are those of a store.

A write that fails leaves no new state: a file is written completely or not at all.
-/

namespace Chip8

/-- **A file system,** as the tools see it. -/
structure FileSystem (σ : Type) where
  /-- What stands under a text. -/
  look : σ → String → Store.Look
  /-- The bytes of a file. -/
  read : σ → Path → Except SystemError (List UInt8)
  /-- The state after a file was written. -/
  write : σ → Path → List UInt8 → Except SystemError σ

/-- A store as a file system. -/
def Store.fileSystem : FileSystem Store := ⟨Store.look, Store.read, Store.write⟩

end Chip8
