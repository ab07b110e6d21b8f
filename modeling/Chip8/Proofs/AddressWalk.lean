import Chip8.Disassembly
import Mathlib.Tactic.Common

/-!
# From addresses to pairs of bytes

A sweep walks over all addresses of an image and picks out the ones at which it reads.  The words
that it finds are easier to talk about the other way round: the image is cut into pairs of bytes,
from the first even address on, and every pair is a word.  `Decoder.sweep_eq` says that the two come
to the same, for every load address and every image.

* `Decoder.sweepFrom` cuts an image into pairs.
* `Decoder.walk_odd`, `Decoder.walk_last` and `Decoder.walk_even` say what is done at one address;
  `Decoder.walk_pair` is an even one together with what is behind it.
* `Decoder.walk_addresses` is the induction over the addresses that are still ahead.  Its statement
  covers both parities, because the walk goes from an even address to an odd one and back.
-/

namespace Chip8.Decoder

variable (decoder : Decoder) (load : Int) (rom : List UInt8)

/-- The sweep from an address on, two bytes for each word. -/
def sweepFrom (decoder : Decoder) : Int → List UInt8 → Sweep
  | address, high :: low :: rest =>
    match decoder.readWord address (Word.ofBytes high low) >>= DisassembledWord.checked with
    | .ok word => (sweepFrom decoder (address + 2) rest).cons word
    | .error fault => { fault := some fault }
  | _, _ => {}

/-! ## One address -/

@[simp] lemma addresses_zero (start : Int) : addresses start 0 = [] := rfl

lemma addresses_succ (start : Int) (count : Nat) :
    addresses start (count + 1) = start :: addresses (start + 1) count := by
  rw [addresses, List.range_succ_eq_map, List.map_cons, List.map_map, addresses]
  refine congrArg₂ List.cons (Int.add_zero start) (List.map_congr_left fun i _ => ?_)
  show start + ((i + 1 : Nat) : Int) = start + 1 + i
  omega

lemma sweepFrom_short {rest : List UInt8} (h : rest.length < 2) (address : Int) :
    decoder.sweepFrom address rest = {} := by
  rcases rest with _ | ⟨high, _ | ⟨low, rest⟩⟩
  · rfl
  · rfl
  · simp only [List.length_cons] at h
    omega

/-- The word at an offset that has two bytes. -/
lemma wordAt_of_drop {rom rest : List UInt8} {offset : Nat} {high low : UInt8}
    (h : rom.drop offset = high :: low :: rest) :
    decoder.wordAt load rom offset = decoder.readWord (load + offset) (Word.ofBytes high low) := by
  rw [wordAt, if_pos (Int.natCast_nonneg offset), Int.toNat_natCast, h]

/-- An odd address is passed over. -/
lemma walk_odd {address : Int} (h : address % 2 ≠ 0) (later : List Int) :
    decoder.walk load rom (address :: later) = decoder.walk load rom later := by
  rw [walk, if_neg fun hread => h hread.1]

/-- The last address of an image is passed over. -/
lemma walk_last {address : Int} (h : load + rom.length ≤ address + 1) (later : List Int) :
    decoder.walk load rom (address :: later) = decoder.walk load rom later := by
  rw [walk, if_neg fun hread => absurd hread.2 (Int.not_lt.mpr h)]

/-- At any other address a word is read, and the walk goes on unless it was broken off. -/
lemma walk_even {offset : Nat} {high low : UInt8} {rest : List UInt8}
    (heven : (load + offset) % 2 = 0) (h : rom.drop offset = high :: low :: rest)
    (later : List Int) :
    decoder.walk load rom ((load + offset) :: later) =
      match decoder.readWord (load + offset) (Word.ofBytes high low) >>=
          DisassembledWord.checked with
      | .ok word => (decoder.walk load rom later).cons word
      | .error fault => { fault := some fault } := by
  have hlen := congrArg List.length h
  simp only [List.length_drop, List.length_cons] at hlen
  have hinside : load + offset + 1 < load + rom.length := by omega
  have hoffset : load + (offset : Int) - load = offset := by omega
  have hstep : decoder.walk load rom ((load + offset) :: later) = _ := if_pos ⟨heven, hinside⟩
  rw [hoffset, wordAt_of_drop decoder load h] at hstep
  exact hstep

/-- **An even address stands for a pair of bytes,** if the walk goes on behind it. -/
lemma walk_pair {offset : Nat} (heven : (load + offset) % 2 = 0) {later : List Int}
    (hlater : decoder.walk load rom later =
      decoder.sweepFrom (load + offset + 2) (rom.drop (offset + 2))) :
    decoder.walk load rom ((load + offset) :: later) =
      decoder.sweepFrom (load + offset) (rom.drop offset) := by
  by_cases hshort : (rom.drop offset).length < 2
  · have hbehind : (rom.drop (offset + 2)).length < 2 := by
      rw [List.length_drop] at hshort ⊢
      omega
    rw [List.length_drop] at hshort
    rw [walk_last decoder load rom (by omega), hlater, sweepFrom_short decoder hbehind,
      sweepFrom_short]
    rwa [List.length_drop]
  · obtain ⟨high, low, rest, hdrop⟩ : ∃ high low rest, rom.drop offset = high :: low :: rest := by
      generalize rom.drop offset = bytes at hshort
      rcases bytes with _ | ⟨high, _ | ⟨low, rest⟩⟩
      · exact absurd Nat.two_pos hshort
      · exact absurd Nat.one_lt_two hshort
      · exact ⟨high, low, rest, rfl⟩
    have hrest : rom.drop (offset + 2) = rest := by
      rw [← List.drop_drop, hdrop]
      rfl
    rw [walk_even decoder load rom heven hdrop, hlater, hrest, hdrop]
    rfl

/-! ## All addresses -/

/-- **The walk over the addresses that are still ahead** reads the pairs of bytes from the next even
    one on. -/
lemma walk_addresses {count offset : Nat} (h : offset + count = rom.length) :
    decoder.walk load rom (addresses (load + offset) count) =
      decoder.sweepFrom (load + offset + (load + offset) % 2)
        (rom.drop (offset + ((load + offset) % 2).toNat)) := by
  induction count generalizing offset with
  | zero =>
      rw [addresses_zero, walk, sweepFrom_short]
      rw [List.length_drop]
      omega
  | succ count ih =>
      have hnext : load + ((offset + 1 : Nat) : Int) = load + offset + 1 := by omega
      have hlater := @ih (offset + 1) (by omega)
      rw [hnext] at hlater
      rw [addresses_succ]
      rcases Int.emod_two_eq (load + offset) with heven | hodd
      · -- The address behind an even one is odd, and the walk goes on behind the pair.
        have hodd : (load + offset + 1) % 2 = 1 := by omega
        have hpair : load + offset + 1 + 1 = load + offset + 2 := by omega
        rw [hodd, hpair, Int.toNat_one, Nat.add_assoc] at hlater
        rw [walk_pair decoder load rom heven hlater, heven, Int.add_zero, Int.toNat_zero,
          Nat.add_zero]
      · -- The address behind an odd one is even, and the pair begins there.
        have heven : (load + offset + 1) % 2 = 0 := by omega
        rw [heven, Int.add_zero, Int.toNat_zero, Nat.add_zero] at hlater
        rw [walk_odd decoder load rom (by omega), hlater, hodd, Int.toNat_one]

/-- **A sweep reads the pairs of bytes** from the first one at an even address on. -/
theorem sweep_eq :
    decoder.sweep load rom =
      decoder.sweepFrom (load + load % 2) (rom.drop (load % 2).toNat) := by
  have hwalk := walk_addresses decoder load rom (Nat.zero_add rom.length)
  rw [Int.natCast_zero, Int.add_zero, Nat.zero_add] at hwalk
  exact hwalk

/-- From an even address on these are all pairs of the image. -/
lemma sweep_of_even {load : Int} (heven : load % 2 = 0) (rom : List UInt8) :
    decoder.sweep load rom = decoder.sweepFrom load rom := by
  rw [sweep_eq, heven, Int.add_zero, Int.toNat_zero, List.drop_zero]

end Chip8.Decoder
