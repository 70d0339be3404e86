import MachineProvider.Proofs.Jsonnet.Prelude
import MachineProvider.Proofs.Jsonnet.Reading
import MachineProvider.Proofs.Jsonnet.Rereading

/-!
Plain JSON as a template: whether it is given up hangs on its text alone, and what is rendered is
the document it holds, apart from numbers that the template does not keep. -/
namespace MachineProvider

namespace Jsonnet

variable {v w : Json} {source : String}

/-- A printed document is read back whole. -/
theorem parseWritten_inlineText (h : v.depth ≤ Json.Parser.maxDepth) :
    ReadsBack (Readable v) (Json.parseWritten? (inlineText v)) (v.mapNumbers reread) := by
  have hvalue := @rereads v (2 * (inlineText v).toList.length + 2) _ [] (by omega) h .nil
  rw [List.append_nil] at hvalue
  unfold Json.parseWritten?
  dsimp only
  rcases hvalue with ⟨hread, hvalue⟩ | ⟨hread, hvalue⟩
  · exact .inl ⟨hread, by rw [hvalue]; rfl⟩
  · exact .inr ⟨hread, by rw [hvalue]⟩

/-- A program and the printing of its value, within the first frame. -/
def printedValue (e : Expr) : Eval String := do
  let v ← (interpreter maxNesting).evaluate { vars := [("std", 0)] } e
  Eval.framed ((interpreter maxNesting).print .inline "" v)

theorem evaluated_eq {context : Json} {e library : Expr} (h : prelude = .ok library) :
    evaluated context e =
      (printedValue e 0 (initialStore library (.ofJson context))).map (·.1) := by
  have heq : evaluated context e = prelude >>= fun library =>
      printedValue e 0 (initialStore library (.ofJson context)) >>= fun r => .ok r.1 := rfl
  rw [heq, h]
  change printedValue e 0 (initialStore library (.ofJson context)) >>= _ = _
  cases printedValue e 0 (initialStore library (.ofJson context)) <;> rfl

/-- A document of the allowed depth is evaluated and printed as its canonical form. -/
theorem evaluated_ofJson (context : Json) (h : w.depth ≤ Json.Parser.maxDepth) :
    evaluated context (.ofJson w) = .ok (inlineText w.canonical) ∨
      ¬ w.canonical.Finite ∧ evaluated context (.ofJson w) = .error .evaluation := by
  obtain ⟨library, hlibrary⟩ := prelude_ok
  have hrun : Runs w.canonical.Finite (printedValue (.ofJson w)) 0
      (initialStore library (.ofJson context)) fun text _ => text = inlineText w.canonical := by
    refine (evaluate_ofJson (n := 9998) w).bind fun v t hv => ?_
    obtain ⟨hpending, hgrows⟩ := hv
    -- Frames and nested calls both suffice: a document nests 127 deep, and one frame is in use.
    have hprint := @printed w 9870 Json.Parser.maxDepth 1 t v _ _ h (by decide) hpending
      hgrows.places_le hgrows.objects_le
    exact .framed (Nat.zero_le _) (hprint.imp (fun h => h) fun text u hu => hu.1)
  rw [evaluated_eq hlibrary]
  rcases hrun with ⟨text, t, hok, rfl⟩ | ⟨hunfit, herror⟩
  · rw [hok]
    exact .inl rfl
  · rw [herror]
    exact .inr ⟨hunfit, rfl⟩

/-- A canonical document that is printed and read again stays one; only its numbers are reread. -/
theorem parse_inlineText (h : w.depth ≤ Json.Parser.maxDepth) :
    ReadsBack (Readable w.canonical) (Json.parse? (inlineText w.canonical))
      (w.canonical.mapNumbers reread) := by
  have hread := (parseWritten_inlineText (Json.depth_canonical_le h)).map Json.canonical
  rw [← Json.mapNumbers_canonical, w.canonical_canonical.canonical_eq] at hread
  exact hread

theorem renderTemplate_eq {context : Json} {e : Expr} (h : program source = .ok e) :
    renderTemplate source context = evaluated context e >>= fun text =>
      ((Json.parse? text).map Json.render).elim (.error .invalidJson) .ok := by
  have hbind : ∀ f : Expr → Except RenderError String, program source >>= f = f e := by
    intro f
    rw [h]
    rfl
  unfold renderTemplate
  rw [hbind]
  congr 1
  funext text
  cases Json.parse? text <;> rfl

/-- A template that is a document is rendered as its canonical form, its numbers reread, or one of
them is not fit. -/
theorem renderTemplate_ofJson (context : Json) (hprogram : program source = .ok (.ofJson w))
    (h : w.depth ≤ Json.Parser.maxDepth) :
    renderTemplate source context = .ok (w.canonical.mapNumbers reread).render ∨
      ¬ (w.canonical.Finite ∧ Readable w.canonical) ∧
        ∃ e, e ≠ .aborted ∧ renderTemplate source context = .error e := by
  rw [renderTemplate_eq hprogram]
  rcases evaluated_ofJson context h with hevaluated | ⟨hunfit, hevaluated⟩
  · rw [hevaluated]
    change Option.elim _ _ _ = _ ∨ _ ∧ ∃ e, _ ∧ Option.elim _ _ _ = _
    rcases parse_inlineText h with ⟨-, hparse⟩ | ⟨hunread, hparse⟩
    · rw [hparse]
      exact .inl rfl
    · rw [hparse]
      exact .inr ⟨fun h => hunread h.2, .invalidJson, nofun, rfl⟩
  · rw [hevaluated]
    exact .inr ⟨fun h => hunfit h.1, .evaluation, nofun, rfl⟩

end Jsonnet

open Jsonnet

/-- A template that is a JSON text is given up when its text is not legible to templates, and only
then. What is rendered otherwise is the document of the text: texts, members and their order are
kept, and so are all integers of up to fifty-three bits. A text whose numbers are such integers or
fractions of few digits is rendered as its document. -/
theorem plain_json_rendered {source : String} {v : Json} (context : Json)
    (h : Json.parse? source = some v) :
    (renderTemplate source context = .error .aborted ↔ legible source.toList = false) ∧
    (∀ text, renderTemplate source context = .ok text → ∃ u, v.Kept u ∧ text = u.render) ∧
    (modest source.toList = true → renderTemplate source context = .ok v.render) := by
  obtain ⟨written, hwritten, rfl⟩ := Option.map_eq_some_iff.1 h
  obtain ⟨hdepth, w, hsketch, hprogram, hmodest⟩ := program_document hwritten
  have hkept : w.canonical.sketch = written.canonical.sketch := by
    unfold Json.sketch at hsketch ⊢
    rw [Json.mapNumbers_canonical, hsketch, Json.mapNumbers_canonical]
  cases hlegible : legible source.toList with
  | false =>
    have haborted : renderTemplate source context = .error .aborted := by
      unfold renderTemplate
      rw [hprogram, hlegible]
      rfl
    rw [haborted]
    refine ⟨iff_of_true rfl rfl, nofun, fun hmodest => ?_⟩
    rw [legible_of_modest hmodest] at hlegible
    cases hlegible
  | true =>
    rw [hlegible, if_pos rfl] at hprogram
    -- The template's document nests as deep as the one that was parsed, since their sketches agree.
    rw [← Json.depth_mapNumbers_le, ← Json.sketch, ← hsketch, Json.sketch,
      Json.depth_mapNumbers_le] at hdepth
    rcases renderTemplate_ofJson context hprogram hdepth with hok | ⟨hunfit, e, he, herror⟩
    · rw [hok]
      refine ⟨iff_of_false nofun nofun, fun text ht => ?_, fun hplain => ?_⟩
      · refine ⟨_, ⟨_, _, hkept, fun n hn => ?_, rfl⟩, (Except.ok.inj ht).symm⟩
        rw [reread, (steady_of_whole hn).reread_eq, Option.getD_some]
      · obtain ⟨rfl, hsteady⟩ := hmodest hplain
        refine congrArg (fun u => Except.ok u.render) (Json.mapNumbers_eq_self ?_)
        refine (Json.everyNumber_canonical hsteady).imp fun n hn => ?_
        rw [reread, hn.reread_eq, Option.getD_some]
    · rw [herror]
      refine ⟨iff_of_false (fun h => he (Except.error.inj h)) nofun, nofun, fun hplain => ?_⟩
      obtain ⟨rfl, hsteady⟩ := hmodest hplain
      have hcanonical := Json.everyNumber_canonical hsteady
      refine absurd ⟨hcanonical.imp fun n hn => hn.finite, hcanonical.imp fun n hn => ?_⟩ hunfit
      rw [hn.reread_eq]
      rfl

example : modest "[0.5, -12.75, 42, -0]".toList = true := by decide +kernel

/-- An escaped slash is JSON, and yet no template. -/
theorem plain_json_rendered_slash :
    Json.parse? "\x7b\"url\":\"https:\\/\\/x\"\x7d" =
      some (.object [("url", .string "https://x")]) ∧
      renderTemplate "\x7b\"url\":\"https:\\/\\/x\"\x7d" (.object []) = .error .aborted := by
  have h : Json.parse? "\x7b\"url\":\"https:\\/\\/x\"\x7d" =
      some (.object [("url", .string "https://x")]) := by
    unfold Json.parse? Json.parseWritten?
    rw [String.toList_ofList]
    rfl
  refine ⟨h, (plain_json_rendered (.object []) h).1.2 ?_⟩
  rw [String.toList_ofList]
  decide +kernel

end MachineProvider
