import Mathlib.Algebra.Group.Nat.Defs
import MachineProvider.Proofs.MachineSet.Annotations
import MachineProvider.Proofs.Text.Numerals
import MachineProvider.Proofs.Text.Splitting

/-! Which texts are flavors, and the sizes that are read of them. A size is kept
exactly or refused. -/
namespace MachineProvider

open Capacity

namespace Flavor

variable {f : Flavor} {text : String} {cs type memory cpu : List Char} {n : Nat}

/-- ASCII letters, ASCII digits and underscores, at least one. -/
def Word (cs : List Char) : Prop := cs ≠ [] ∧ ∀ c ∈ cs,
  ('a' ≤ c ∧ c ≤ 'z') ∨ ('A' ≤ c ∧ c ≤ 'Z') ∨ ('0' ≤ c ∧ c ≤ '9') ∨ c = '_'

/-- A text made of the flavor's type, of a numeral for its memory and of one for its
processors, with dashes between them. The memory fits into sixty-four bits and the processors
into thirty-two. -/
structure Parts (f : Flavor) (text : String) (memory cpu : List Char) : Prop where
  parts : text.toList = f.type.toList ++ '-' :: (memory ++ '-' :: cpu)
  type : Word f.type.toList
  memory : Text.Digits memory f.memoryGb
  cpu : Text.Digits cpu f.cpu
  memory_lt : f.memoryGb < 2 ^ 64
  cpu_lt : f.cpu < 2 ^ 32

/-- Whether a text is one of those that stand for the flavor; they differ in leading zeros. -/
def WrittenAs (f : Flavor) (text : String) : Prop := ∃ memory cpu, f.Parts text memory cpu

theorem isWord_iff : isWord cs = true ↔ Word cs := by
  have hchar : ∀ c : Char, (c.isAlphanum || c == '_') = true ↔
      ('a' ≤ c ∧ c ≤ 'z') ∨ ('A' ≤ c ∧ c ≤ 'Z') ∨ ('0' ≤ c ∧ c ≤ '9') ∨ c = '_' := by
    intro c
    have hupper : c.isUpper = true ↔ 'A' ≤ c ∧ c ≤ 'Z' := by
      unfold Char.isUpper
      rw [decide_eq_true_eq]
      rfl
    have hlower : c.isLower = true ↔ 'a' ≤ c ∧ c ≤ 'z' := by
      unfold Char.isLower
      rw [Bool.and_eq_true, decide_eq_true_eq, decide_eq_true_eq]
      rfl
    have hclasses : c.isAlphanum = ((c.isUpper || c.isLower) || c.isDigit) := rfl
    simp only [hclasses, Bool.or_eq_true, beq_iff_eq, hupper, hlower, Text.isDigit_iff, or_assoc]
    exact or_left_comm
  unfold isWord Word
  rw [Bool.and_eq_true, List.all_eq_true, Bool.not_eq_true', List.isEmpty_eq_false_iff]
  exact and_congr_right fun _ => forall₂_congr fun c _ => hchar c

theorem numeral?_eq_some : numeral? cs = some n ↔ Text.Digits cs n := by
  have hvalue : cs.foldl (fun n c => n * 10 + (c.toNat - 48)) 0 = Nat.ofDigitChars 10 cs 0 := by
    rw [Nat.ofDigitChars_eq_foldl]
    exact List.foldl_ext _ _ _ fun n c _ => by rw [Nat.mul_comm]; rfl
  have hdigits : (!cs.isEmpty && cs.all Char.isDigit) = true ↔
      cs ≠ [] ∧ ∀ c ∈ cs, '0' ≤ c ∧ c ≤ '9' := by
    rw [Bool.and_eq_true, List.all_eq_true, Bool.not_eq_true', List.isEmpty_eq_false_iff]
    exact and_congr_right fun _ => forall₂_congr fun c _ => Text.isDigit_iff
  unfold numeral?
  constructor
  · intro h
    split at h
    · next hall =>
      obtain ⟨hne, hall⟩ := hdigits.1 hall
      exact ⟨hne, hall, hvalue ▸ Option.some.inj h⟩
    · cases h
  · rintro ⟨hne, hall, rfl⟩
    rw [if_pos (hdigits.2 ⟨hne, hall⟩), hvalue]

/-- Neither words nor numerals hold dashes. -/
theorem Word.not_dash (h : Word cs) : '-' ∉ cs := fun hmem => by
  have hchar := h.2 _ hmem
  revert hchar
  decide

theorem digits_not_dash (h : Text.Digits cs n) : '-' ∉ cs := fun hmem =>
  absurd (h.digits _ hmem) (by decide)

/-- A flavor is read of exactly the texts that it can be written as. -/
theorem parse?_eq_some : parse? text = some f ↔ f.WrittenAs text := by
  have hjoined : ∀ type memory cpu : List Char, ['-'].intercalate [type, memory, cpu] =
      type ++ '-' :: (memory ++ '-' :: cpu) := fun type memory cpu => by simp
  constructor
  · intro h
    unfold parse? at h
    split at h
    · next type memory cpu hsplit =>
      obtain ⟨htext, -⟩ := (Text.splitOn_eq_iff (List.cons_ne_nil _ _)).1 hsplit
      split at h
      · next hword =>
        split at h
        · next m c hmemory hcpu =>
          split at h
          · next hbounds =>
            obtain rfl := Option.some.inj h
            refine ⟨memory, cpu, ?_, ?_, numeral?_eq_some.1 hmemory, numeral?_eq_some.1 hcpu,
              hbounds.1, hbounds.2⟩
            · rw [htext, hjoined, String.toList_ofList]
            · rw [String.toList_ofList]
              exact isWord_iff.1 hword
          · cases h
        · cases h
      · cases h
    · cases h
  · rintro ⟨memory, cpu, h⟩
    have hsplit : text.toList.splitOn '-' = [f.type.toList, memory, cpu] := by
      refine (Text.splitOn_eq_iff (List.cons_ne_nil _ _)).2 ⟨h.parts.trans (hjoined ..).symm, ?_⟩
      simp [h.type.not_dash, digits_not_dash h.memory, digits_not_dash h.cpu]
    unfold parse?
    rw [hsplit]
    simp only [isWord_iff.2 h.type, numeral?_eq_some.2 h.memory, numeral?_eq_some.2 h.cpu, if_true,
      String.ofList_toList]
    rw [if_pos ⟨h.memory_lt, h.cpu_lt⟩]

/-- The memory in MB is a number of sixty-four bits up to two to the fifty-fourth GB. -/
theorem memoryMb?_eq (f : Flavor) :
    f.memoryMb? = if f.memoryGb < 2 ^ 54 then some (1024 * f.memoryGb) else none := by
  unfold memoryMb?
  rw [Nat.mul_comm]
  exact if_congr (by omega) rfl rfl

end Flavor

namespace MachineSet

variable {set : MachineSet} {raw : Json} {spec : ProviderSpec} {f : Flavor}

theorem desiredAnnotations_unreadable (hraw : set.spec.template.providerValue = some raw)
    (hspec : ProviderSpec.ofRaw (some raw) = .ok spec) (hf : Flavor.parse? spec.flavor = none) :
    set.desiredAnnotations = .error (.invalidConfig
      s!"flavor {Text.quoted spec.flavor} does not match expected format") := by
  unfold desiredAnnotations
  simp only [hraw, hspec, hf, Except.mapError, bind, Except.bind, Flavor.invalid]

theorem desiredAnnotations_outOfRange (hraw : set.spec.template.providerValue = some raw)
    (hspec : ProviderSpec.ofRaw (some raw) = .ok spec) (hf : Flavor.parse? spec.flavor = some f)
    (hm : f.memoryMb? = none) :
    set.desiredAnnotations = .error (.invalidConfig
      s!"flavor {Text.quoted spec.flavor} memory is out of range") := by
  unfold desiredAnnotations
  simp only [hraw, hspec, hf, Except.mapError, bind, Except.bind, hm]

theorem desiredAnnotations_sized (hraw : set.spec.template.providerValue = some raw)
    (hspec : ProviderSpec.ofRaw (some raw) = .ok spec) (hf : Flavor.parse? spec.flavor = some f)
    (hm : f.memoryGb < 2 ^ 54) :
    set.desiredAnnotations = .ok (some (withCapacity set.annotations f.cpu (1024 * f.memoryGb))) :=
  desiredAnnotations_eq_some.2
    ⟨_, _, ⟨raw, spec, f, hraw, hspec, hf, rfl, by rw [f.memoryMb?_eq, if_pos hm]⟩, rfl⟩

/-- A flavor is a word, the memory in GB and the number of processors, with dashes between them, and
is read exactly when the numbers fit. A set whose template has a flavor is annotated with exactly
these sizes, the memory in MB, if that fits too, and fails for its configuration if not. -/
theorem flavor_sizes_exact :
    (∀ text f, Flavor.parse? text = some f ↔ f.WrittenAs text) ∧
    ∀ (set : MachineSet) (raw : Json) (spec : ProviderSpec),
      set.spec.template.providerValue = some raw → ProviderSpec.ofRaw (some raw) = .ok spec →
      ((∃ o, set.desiredAnnotations = .ok o) ↔
        ∃ f : Flavor, f.WrittenAs spec.flavor ∧ f.memoryGb < 2 ^ 54) ∧
      (∀ o, set.desiredAnnotations = .ok o →
        ∃ (f : Flavor) (d : StringMap String) (memory cpu : String),
          f.WrittenAs spec.flavor ∧ o = some d ∧
          d.get? memoryAnnotation = some memory ∧ Text.Numeral memory (1024 * f.memoryGb) ∧
          d.get? cpuAnnotation = some cpu ∧ Text.Numeral cpu f.cpu) ∧
      ∀ e, set.desiredAnnotations = .error e →
        (¬ ∃ f : Flavor, f.WrittenAs spec.flavor) ∧
          e = .invalidConfig s!"flavor {Text.quoted spec.flavor} does not match expected format" ∨
        (∃ f : Flavor, f.WrittenAs spec.flavor ∧ 2 ^ 54 ≤ f.memoryGb) ∧
          e = .invalidConfig s!"flavor {Text.quoted spec.flavor} memory is out of range" := by
  refine ⟨fun text f => Flavor.parse?_eq_some, fun set raw spec hraw hspec => ?_⟩
  cases hf : Flavor.parse? spec.flavor with
  | none =>
    have hnone : ¬ ∃ f : Flavor, f.WrittenAs spec.flavor := by
      rintro ⟨f, hwritten⟩
      rw [Flavor.parse?_eq_some.2 hwritten] at hf
      cases hf
    rw [desiredAnnotations_unreadable hraw hspec hf]
    refine ⟨⟨by rintro ⟨_, ⟨⟩⟩, ?_⟩, by rintro _ ⟨⟩, ?_⟩
    · rintro ⟨f, hwritten, -⟩
      exact absurd ⟨f, hwritten⟩ hnone
    · rintro _ ⟨⟩
      exact .inl ⟨hnone, rfl⟩
  | some f =>
    have hwritten := Flavor.parse?_eq_some.1 hf
    by_cases hm : f.memoryGb < 2 ^ 54
    · rw [desiredAnnotations_sized hraw hspec hf hm]
      refine ⟨⟨fun _ => ⟨f, hwritten, hm⟩, fun _ => ⟨_, rfl⟩⟩, ?_, by rintro _ ⟨⟩⟩
      rintro _ ⟨⟩
      exact ⟨f, _, _, _, hwritten, rfl, get?_withCapacity .., Text.numeral_toString _,
        get?_withCapacity .., Text.numeral_toString _⟩
    · have hnone : f.memoryMb? = none := by rw [f.memoryMb?_eq, if_neg hm]
      rw [desiredAnnotations_outOfRange hraw hspec hf hnone]
      refine ⟨⟨by rintro ⟨_, ⟨⟩⟩, ?_⟩, by rintro _ ⟨⟩, ?_⟩
      · rintro ⟨g, hwritten', hm'⟩
        -- A text stands for one flavor at most.
        obtain rfl := Option.some.inj (hf.symm.trans (Flavor.parse?_eq_some.2 hwritten'))
        exact absurd hm' hm
      · rintro _ ⟨⟩
        exact .inr ⟨⟨f, hwritten, Nat.le_of_not_lt hm⟩, rfl⟩

/-- A set without annotations whose machines have a flavor. -/
def ofFlavor (flavor : String) : MachineSet where
  metadata := default
  spec := ⟨none, ⟨none, some (.object [("flavor", .string flavor)])⟩⟩

/-- The largest memory and the largest number of processors that are annotated, written with a
zero in front. -/
theorem flavor_sizes_exact_largest :
    ∃ d memory cpu, (ofFlavor "a_Z9-018014398509481983-4294967295").desiredAnnotations =
      .ok (some d) ∧
      d.get? memoryAnnotation = some memory ∧ Text.Numeral memory 18446744073709550592 ∧
      d.get? cpuAnnotation = some cpu ∧ Text.Numeral cpu 4294967295 := by
  have hparse : Flavor.parse? "a_Z9-018014398509481983-4294967295" =
      some ⟨"a_Z9", 4294967295, 18014398509481983⟩ := by decide +kernel
  obtain ⟨hreads, hset⟩ := flavor_sizes_exact
  obtain ⟨hok, hsizes, -⟩ :=
    hset (ofFlavor "a_Z9-018014398509481983-4294967295") _ _ rfl rfl
  have hsmall : 18014398509481983 < 2 ^ 54 := by decide
  obtain ⟨o, ho⟩ := hok.2 ⟨_, (hreads _ _).1 hparse, hsmall⟩
  obtain ⟨g, d, memory, cpu, hwritten, rfl, hm, hmemory, hc, hcpu⟩ := hsizes o ho
  obtain rfl := Option.some.inj (hparse.symm.trans ((hreads _ _).2 hwritten))
  have hproduct : 1024 * 18014398509481983 = 18446744073709550592 := by decide
  exact ⟨d, memory, cpu, ho, hm, hproduct ▸ hmemory, hc, hcpu⟩

end MachineSet

end MachineProvider
