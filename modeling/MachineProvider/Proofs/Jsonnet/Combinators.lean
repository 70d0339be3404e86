import MachineProvider.Jsonnet.Grammar

/-! What the readers of a program give when their parts are known to be found, absent or aborted. -/
namespace MachineProvider.Jsonnet

variable {α β : Type} {a : α} {cs rest : List Char}

/-- Found when the text is fit for reading, aborted when it is not. -/
def Reading.of (fit : Bool) (a : α) (rest : List Char) : Reading α :=
  bif fit then .found a rest else .aborted

theorem Reading.of_decide (fit : Prop) [Decidable fit] :
    Reading.of (decide fit) a rest = if fit then .found a rest else .aborted := by
  by_cases h : fit
  · rw [decide_eq_true h, if_pos h]
    rfl
  · rw [decide_eq_false h, if_neg h]
    rfl

namespace Parser

variable {p q : Parser α} {f : α → Parser β} {b c : Bool} {a' : β} {rest' : List Char}

theorem bind_absent (h : p cs = .absent) : (p >>= f) cs = .absent := by
  conv => lhs; whnf
  rw [h]

theorem bind_found (h : p cs = .found a rest) : (p >>= f) cs = f a rest := by
  conv => lhs; whnf
  rw [h]

/-- Of two parts in sequence both have to be fit. -/
theorem bind_of (hp : p cs = .of b a rest) (hf : f a rest = .of c a' rest') :
    (p >>= f) cs = .of (b && c) a' rest' := by
  cases b with
  | true => exact (bind_found hp).trans hf
  | false =>
    conv => lhs; whnf
    rw [hp]
    rfl

theorem bind_of_found (hp : p cs = .of b a rest) (hf : f a rest = .found a' rest') :
    (p >>= f) cs = .of b a' rest' := by
  have := bind_of (c := true) hp hf
  rwa [Bool.and_true] at this

theorem map_of {g : α → β} (h : p cs = .of b a rest) : (g <$> p) cs = .of b (g a) rest :=
  bind_of_found (f := fun a => pure (g a)) h rfl

theorem map_absent {g : α → β} (h : p cs = .absent) : (g <$> p) cs = .absent := bind_absent h

theorem seqRight_found {q : Parser β} (h : p cs = .found a rest) : (p *> q) cs = q rest :=
  bind_found (f := fun _ => q) h

theorem seqRight_absent {q : Parser β} (h : p cs = .absent) : (p *> q) cs = .absent :=
  bind_absent (f := fun _ => q) h

theorem seqLeft_of {q : Parser β} (hp : p cs = .of b a rest) (hq : q rest = .found a' rest') :
    (p <* q) cs = .of b a rest' :=
  bind_of_found (f := fun a => q >>= fun _ => pure a) hp
    ((bind_found (f := fun _ => (pure a : Parser α)) hq).trans rfl)

theorem orElse_of (h : p cs = .of b a rest) : (p <|> q) cs = .of b a rest := by
  conv => lhs; whnf
  rw [h]
  cases b <;> rfl

theorem orElse_absent (h : p cs = .absent) : (p <|> q) cs = q cs := by
  conv => lhs; whnf
  rw [h]

theorem perhaps_of (h : p cs = .of b a rest) : perhaps p cs = .of b (some a) rest :=
  orElse_of (map_of h)

theorem perhaps_absent (h : p cs = .absent) : perhaps p cs = .found none cs :=
  orElse_absent (map_absent h)

theorem manyWithin_absent (h : p cs = .absent) (n : Nat) : manyWithin p n cs = .found [] cs := by
  cases n with
  | zero => rfl
  | succ n => exact orElse_absent (bind_absent h)

theorem many_absent (h : p cs = .absent) : many p cs = .found [] cs :=
  orElse_absent (bind_absent h)

/-- One part and those behind it. -/
theorem cons_of {m : Parser (List α)} {as : List α} (hp : p cs = .of b a rest)
    (hm : m rest = .of c as rest') :
    ((do return (← p) :: (← m)) : Parser (List α)) cs = .of (b && c) (a :: as) rest' :=
  bind_of hp (map_of (g := (a :: ·)) hm)

theorem manyWithin_of {n : Nat} {as : List α} (hp : p cs = .of b a rest)
    (hm : manyWithin p n rest = .of c as rest') :
    manyWithin p (n + 1) cs = .of (b && c) (a :: as) rest' := orElse_of (cons_of hp hm)

theorem many_of {as : List α} (hp : p cs = .of b a rest)
    (hm : manyWithin p rest.length rest = .of c as rest') :
    many p cs = .of (b && c) (a :: as) rest' := by
  refine orElse_of (bind_of hp ?_)
  exact map_of (g := (a :: ·)) (p := manyWithin p rest.length) hm

/-- The same parts are read however many more there might be. -/
structure Repeats (p : Parser α) (cs : List Char) (fit : Bool) (as : List α) (rest : List Char) :
    Prop where
  many_eq : many p cs = .of fit as rest
  within_eq : ∀ n, as.length ≤ n → manyWithin p n cs = .of fit as rest
  length_le : as.length ≤ cs.length

theorem Repeats.nil (h : p cs = .absent) : Repeats p cs true [] cs :=
  ⟨many_absent h, fun n _ => manyWithin_absent h n, Nat.zero_le _⟩

theorem Repeats.cons {as : List α} (hp : p cs = .of b a rest) (hlt : rest.length < cs.length)
    (h : Repeats p rest c as rest') : Repeats p cs (b && c) (a :: as) rest' := by
  refine ⟨many_of hp (h.within_eq _ h.length_le), fun n hn => ?_,
    Nat.succ_le_of_lt (Nat.lt_of_le_of_lt h.length_le hlt)⟩
  cases n with
  | zero => exact absurd hn (Nat.not_succ_le_zero _)
  | succ n => exact manyWithin_of hp (h.within_eq n (Nat.le_of_succ_le_succ hn))

theorem separated_of {s : Parser β} {as : List α} (hp : p cs = .of b a rest)
    (hm : many (s *> p) rest = .of c as rest') :
    separated p s cs = .of (b && c) (a :: as) rest' := orElse_of (cons_of hp hm)

end Parser

end MachineProvider.Jsonnet
