import Chip8.Proofs.Dispatch
import Chip8.Proofs.Lookup

/-!
# The standard table is fit

Everything that is proved about fit tables holds of the standard one.  Its rows are fit
(`standard_wellFormed`), no row fills a field twice (`standard_fillsOnce`), and the printed rows
are told apart by the bits the disassembler looks at, so that `lookup_standard_iff` leaves no
room for the order in which they are tried.

The conditions are finite and are decided by evaluation.
-/

namespace Chip8

namespace Table

lemma standard_forms : ∀ form ∈ standard, form.WellFormed := by decide +kernel

/-- **The standard table is fit.** -/
theorem standard_wellFormed : standard.WellFormed :=
  wellFormed_of_apart standard_forms (by decide +kernel)

lemma standard_fillsOnce : ∀ form ∈ standard, form.FillsOnce := by decide +kernel

lemma standard_isTold : ∀ form ∈ standard, form.IsTold := by decide +kernel

lemma standard_toldApart : ∀ f ∈ standard, ∀ g ∈ standard, f.canonical = true →
    g.canonical = true → f = g ∨ f.ToldApart g := by
  decide +kernel

end Table

lemma Decoder.ofTable_standard : Decoder.ofTable Table.standard = .ok Decoder.standard := by
  obtain ⟨rules, hrules, -⟩ := DecodingRule.ofTable_spec Table.standard_forms
  rw [standard, ofTable, hrules]
  rfl

/-- **A word is printed as the one printed row that reads it.** -/
theorem Decoder.lookup_standard_iff {w : Word} {form : Form} :
    Decoder.standard.lookup w.value = some form ↔
      form ∈ Table.standard ∧ form.canonical = true ∧ form.matchesCode w.value = .ok true :=
  lookup_eq_some_iff Table.standard_forms Table.standard_isTold Table.standard_toldApart
    ofTable_standard

end Chip8
