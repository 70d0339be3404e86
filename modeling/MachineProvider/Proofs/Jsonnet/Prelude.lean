import MachineProvider.Jsonnet.Render

/-! The standard library is a program, and so is at hand in every rendering. -/
namespace MachineProvider.Jsonnet

/-- The program of characters. -/
def programOf (cs : List Char) : Except RenderError Expr :=
  if cs.isEmpty then .error .aborted
  else
    match (blanks *> expression (cs.length + 1) <* blanks : Parser Expr) cs with
    | .found e [] => .ok e
    | .aborted => .error .aborted
    | _ => .error .evaluation

theorem program_eq (source : String) : program source = programOf source.toList := by
  unfold program programOf
  rfl

/-- The library, as the characters of its members. -/
theorem prelude_eq : prelude = programOf
    ('\x7b' :: [',', '\n'].intercalate (preludeMembers.map String.toList) ++ ['\x7d']) := by
  have hcomma : ",\n".toList = [',', '\n'] := String.toList_ofList
  have hopen : "\x7b".toList = ['\x7b'] := String.toList_ofList
  have hclose : "\x7d".toList = ['\x7d'] := String.toList_ofList
  rw [prelude, program_eq, String.toList_append, String.toList_append, String.toList_intercalate,
    hcomma, hopen, hclose, List.singleton_append]

theorem prelude_ok : ∃ library, prelude = .ok library := by
  have h : prelude.toBool = true := by
    rw [prelude_eq]
    simp only [preludeMembers, List.map_cons, List.map_nil]
    repeat rw [String.toList_ofList]
    decide +kernel
  cases hp : prelude with
  | ok library => exact ⟨library, rfl⟩
  | error e =>
    rw [hp] at h
    cases h

end MachineProvider.Jsonnet
