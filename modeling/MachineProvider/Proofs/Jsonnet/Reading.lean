import MachineProvider.Proofs.Jsonnet.KeptNumbers

/-!
A JSON text is a program: the expression that the grammar of templates finds in it is the document
itself, up to what becomes of numbers that are no integers.
-/
namespace MachineProvider.Jsonnet

open Jsonnet.Parser (perhaps many separated exactly Repeats)

variable {cs cs' rest : List Char} {c : Char} {e : Parser Expr} {a : Expr} {fit : Bool} {d : Nat}

/-! ### From atoms to expressions -/

theorem operation_absent (operand : Parser Expr) {ops : List (Parser Unit × BinaryOp)}
    (h : ∀ op ∈ ops, op.1 (skipBlanks .none cs) = .absent) :
    operation operand ops cs = .absent := by
  induction ops with
  | nil => rfl
  | cons op ops ih =>
    obtain ⟨hop, hops⟩ := List.forall_mem_cons.1 h
    have hblanks : blanks cs = .found () (skipBlanks .none cs) := rfl
    exact (Parser.orElse_absent ((Parser.bind_found hblanks).trans (Parser.bind_absent hop))).trans
      (ih hops)

/-- An operand behind which no operator stands. -/
theorem binary_of {operand : Parser Expr} {levels : List Precedence}
    (h : operand cs = .of fit a rest)
    (hops : ∀ level ∈ levels, ∀ op ∈ level.operators, op.1 (skipBlanks .none rest) = .absent) :
    binary operand levels cs = .of fit a rest := by
  induction levels with
  | nil => exact h
  | cons level levels ih =>
    obtain ⟨hlevel, hlevels⟩ := List.forall_mem_cons.1 hops
    have hnone := Parser.many_absent (operation_absent (binary operand levels) hlevel)
    refine Parser.bind_of_found (ih hlevels) ((Parser.bind_found hnone).trans ?_)
    cases level.toRight <;> rfl

/-- The same for one more level of nesting, where no sign stands in front. -/
theorem expression_of_postfixed (h : postfixed (expression d) cs = .of fit a rest)
    (hsign : unaryOp cs = .absent) (hr : Closed rest) : expression (d + 1) cs = .of fit a rest := by
  have hops := operator_absent hr.cases
  refine binary_of ?_ hops
  have hnone : Parser.many (unaryOp <* blanks) cs = .found [] cs :=
    Parser.many_absent (Parser.bind_absent hsign)
  exact (Parser.bind_found hnone).trans (Parser.bind_of_found h rfl)

/-- Behind an atom nothing more belongs to the value. -/
theorem postfixed_of (h : atom e cs = .of fit a rest) (hr : Closed rest) :
    postfixed e cs = .of fit a rest := by
  refine Parser.bind_of_found h ((Parser.bind_found (Parser.many_absent ?_)).trans rfl)
  have hblanks : blanks rest = .found () (skipBlanks .none rest) := rfl
  refine (Parser.seqRight_found hblanks).trans ?_
  obtain hnil | ⟨c, r, hcons, rfl | rfl | rfl⟩ := hr.cases
  · rw [hnil]
    rfl
  all_goals
    rw [hcons]
    rfl

theorem expression_of_atom (h : atom (expression d) cs = .of fit a rest)
    (hsign : unaryOp cs = .absent) (hr : Closed rest) : expression (d + 1) cs = .of fit a rest :=
  expression_of_postfixed (postfixed_of h hr) hsign hr

theorem expression_of_found (h : atom (expression d) cs = .found a rest)
    (hsign : unaryOp cs = .absent) (hr : Closed rest) : expression (d + 1) cs = .found a rest := by
  change _ = Reading.of true a rest
  exact expression_of_atom h hsign hr

/-! ### Atoms -/

theorem keyword_found {word : String} (h : exactly word cs = .found () rest) (hr : Closed rest) :
    keyword word cs = .found () rest := by
  refine (Parser.bind_found h).trans ?_
  cases rest with
  | nil => rfl
  | cons c r => exact if_neg (by rw [hr.ends.1]; exact Bool.false_ne_true)

theorem null_of (hr : Closed rest) : expression (d + 1) ('n' :: 'u' :: 'l' :: 'l' :: rest) =
    .found .null rest := by
  refine expression_of_found (Parser.orElse_of (b := true) (Parser.orElse_of ?_)) rfl hr
  exact (Parser.seqRight_found (keyword_found rfl hr)).trans rfl

theorem true_of (hr : Closed rest) : expression (d + 1) ('t' :: 'r' :: 'u' :: 'e' :: rest) =
    .found (.bool true) rest := by
  refine expression_of_found (Parser.orElse_of (b := true) ?_) rfl hr
  refine (Parser.orElse_absent rfl).trans (Parser.orElse_of (b := true) ?_)
  exact (Parser.seqRight_found (keyword_found rfl hr)).trans rfl

theorem false_of (hr : Closed rest) : expression (d + 1) ('f' :: 'a' :: 'l' :: 's' :: 'e' :: rest) =
    .found (.bool false) rest := by
  refine expression_of_found (Parser.orElse_of (b := true) ?_) rfl hr
  refine (Parser.orElse_absent rfl).trans ((Parser.orElse_absent rfl).trans
    (Parser.orElse_of (b := true) ?_))
  exact (Parser.seqRight_found (keyword_found rfl hr)).trans rfl

theorem text_of {s : String} (h : text ('"' :: cs) = .of fit s rest) (hr : Closed rest) :
    expression (d + 1) ('"' :: cs) = .of fit (.text s) rest := by
  refine expression_of_atom ?_ rfl hr
  exact (Parser.orElse_absent rfl).trans (Parser.orElse_of (Parser.map_of h))

theorem number_atom {x : Double} (h : number cs = .of fit x rest)
    (hdigit : ∃ c r, cs = c :: r ∧ isDigit c = true) : atom e cs = .of fit (.number x) rest := by
  obtain ⟨c, r, rfl, hc⟩ := hdigit
  have hliteral : literal (c :: r) = .absent := by
    refine digit_cases hc ?_
    and_intros <;> rfl
  have htext : (Expr.text <$> text) (c :: r) = .absent := by
    refine digit_cases hc ?_
    and_intros <;> rfl
  exact (Parser.orElse_absent hliteral).trans ((Parser.orElse_absent htext).trans
    (Parser.orElse_of (Parser.map_of h)))

theorem unaryOp_digit (hdigit : ∃ c r, cs = c :: r ∧ isDigit c = true) : unaryOp cs = .absent := by
  obtain ⟨c, r, rfl, hc⟩ := hdigit
  refine digit_cases hc ?_
  and_intros <;> rfl

theorem skipBlanks_digit (hdigit : ∃ c r, cs = c :: r ∧ isDigit c = true) :
    skipBlanks .none cs = cs := by
  obtain ⟨c, r, rfl, hc⟩ := hdigit
  refine skipBlanks_cons ?_ (by rintro rfl; cases hc) (by rintro rfl; cases hc)
  rw [Json.Parser.skipBlanks, List.dropWhile_cons, if_neg]
  intro hblank
  rcases blank_cases hblank with rfl | rfl | rfl | rfl <;> cases hc

theorem number_expression {x : Double} (h : number cs = .of fit x rest)
    (hdigit : ∃ c r, cs = c :: r ∧ isDigit c = true) (hr : Closed rest) :
    expression (d + 1) cs = .of fit (.number x) rest :=
  expression_of_atom (number_atom h hdigit) (unaryOp_digit hdigit) hr

theorem minus_expression {x : Double} (h : number cs = .of fit x rest)
    (hdigit : ∃ c r, cs = c :: r ∧ isDigit c = true) (hr : Closed rest) :
    expression (d + 1) ('-' :: cs) = .of fit (.unary .minus (.number x)) rest := by
  refine binary_of ?_ (operator_absent hr.cases)
  have hminus : (unaryOp <* blanks) ('-' :: cs) = .found .minus cs := by
    have hblanks : blanks cs = .found () cs := congrArg (Reading.found ()) (skipBlanks_digit hdigit)
    have hop : unaryOp ('-' :: cs) = .found .minus cs := rfl
    exact Parser.seqLeft_of (b := true) hop hblanks
  have hmany : many (unaryOp <* blanks) ('-' :: cs) = .found [.minus] cs :=
    Parser.many_of (b := true) (c := true) hminus
      (Parser.manyWithin_absent (Parser.bind_absent (unaryOp_digit hdigit)) _)
  exact (Parser.bind_found hmany).trans
    (Parser.bind_of_found (postfixed_of (number_atom h hdigit) hr) rfl)

/-! ### Arrays and objects -/

theorem comma_of (h : Json.Parser.skipBlanks cs = ',' :: rest) :
    comma cs = .found () (skipBlanks .none rest) := by
  have hblanks : blanks cs = .found () (',' :: rest) :=
    congrArg (Reading.found ()) (skipBlanks_cons h (by decide) (by decide))
  exact (Parser.seqRight_found hblanks).trans rfl

theorem comma_absent (h : Json.Parser.skipBlanks cs = c :: rest) (hc : c = ']' ∨ c = '\x7d') :
    comma cs = .absent := by
  have hblanks : blanks cs = .found () (c :: rest) := by
    refine congrArg (Reading.found ()) (skipBlanks_cons h ?_ ?_)
    · rintro rfl
      rcases hc with hc | hc <;> cases hc
    · rintro rfl
      rcases hc with hc | hc <;> cases hc
  refine (Parser.seqRight_found hblanks).trans ?_
  rcases hc with rfl | rfl <;> rfl

theorem array_of_empty (h : skipBlanks .none cs = ']' :: rest) :
    array (expression d) ('[' :: cs) = .found (.array []) rest := by
  have hsign : sign "[" ('[' :: cs) = .found () (']' :: rest) :=
    congrArg (Reading.found ()) h
  have hnone : expression d (']' :: rest) = .absent := by cases d <;> rfl
  exact (Parser.bind_found hsign).trans
    ((Parser.bind_found (Parser.perhaps_absent hnone)).trans rfl)

theorem array_of {r r' : List Char} {as : List Expr} {fit' : Bool}
    (he : e (skipBlanks .none cs) = .of fit a r) (hm : Repeats (comma *> e) r fit' as r')
    (hclose : skipBlanks .none r' = ']' :: rest) :
    array e ('[' :: cs) = .of (fit && fit') (.array (a :: as)) rest := by
  have hsign : sign "[" ('[' :: cs) = .found () (skipBlanks .none cs) := rfl
  have hblanks : blanks r' = .found () (']' :: rest) := congrArg (Reading.found ()) hclose
  refine (Parser.bind_found hsign).trans (Parser.bind_of (Parser.perhaps_of he)
    (Parser.orElse_of (Parser.bind_of_found hm.many_eq ?_)))
  exact (Parser.bind_found hblanks).trans rfl

theorem visibility_plain (hne : ∀ r, rest ≠ ':' :: r) :
    visibility (':' :: rest) = .found .plain rest := by
  cases rest with
  | nil => rfl
  | cons c r =>
    have hc : c ≠ ':' := fun hc => hne r (hc ▸ rfl)
    have hmany : ∀ n, Parser.dropText (':' :: List.replicate (n + 1) ':')
        (':' :: c :: r) = none := by
      intro n
      rw [Parser.dropText, if_pos rfl, List.replicate_succ, Parser.dropText, if_neg (Ne.symm hc)]
    have hthree : exactly ":::" (':' :: c :: r) = .absent := by
      unfold exactly
      rw [show ":::".toList = ':' :: List.replicate 2 ':' from rfl, hmany]
    have htwo : exactly "::" (':' :: c :: r) = .absent := by
      unfold exactly
      rw [show "::".toList = ':' :: List.replicate 1 ':' from rfl, hmany]
    refine (Parser.orElse_absent (Parser.seqRight_absent hthree)).trans ?_
    exact (Parser.orElse_absent (Parser.seqRight_absent htwo)).trans rfl

theorem member_of {key : String} {r r' : List Char} {fit' : Bool}
    (ht : text ('"' :: cs) = .of fit key r) (hcolon : skipBlanks .none r = ':' :: r')
    (hne : ∀ r, r' ≠ ':' :: r) (he : e (skipBlanks .none r') = .of fit' a rest) :
    member e ('"' :: cs) = .of (fit && fit') (.field (.fixed key) false .plain a) rest := by
  have hname : fieldName e ('"' :: cs) = .of fit (.fixed key) r :=
    (Parser.orElse_absent rfl).trans (Parser.orElse_of (Parser.map_of ht))
  have hblanks : blanks r = .found () (':' :: r') := congrArg (Reading.found ()) hcolon
  have hplus : plus (':' :: r') = .found false (':' :: r') := rfl
  have hblanks' : blanks (':' :: r') = .found () (':' :: r') := rfl
  have hblanks'' : blanks r' = .found () (skipBlanks .none r') := rfl
  refine (Parser.orElse_absent rfl).trans ((Parser.orElse_absent rfl).trans
    (Parser.orElse_of (Parser.bind_of hname ?_)))
  refine (Parser.bind_found hblanks).trans ((Parser.bind_found hplus).trans ?_)
  refine (Parser.bind_found hblanks').trans ((Parser.bind_found (visibility_plain hne)).trans ?_)
  exact (Parser.bind_found hblanks'').trans
    (Parser.map_of (g := Member.field (.fixed key) false .plain) he)

theorem body_closed {b : Body} {r : List Char}
    (h : (objectComprehension e <|> objectMembers e) (skipBlanks .none cs) = .of fit b r)
    (hclose : skipBlanks .none r = '\x7d' :: rest) : body e ('\x7b' :: cs) = .of fit b rest := by
  have hsign : sign "\x7b" ('\x7b' :: cs) = .found () (skipBlanks .none cs) := rfl
  have hblanks : blanks r = .found () ('\x7d' :: rest) := congrArg (Reading.found ()) hclose
  exact Parser.seqLeft_of (Parser.seqLeft_of ((Parser.seqRight_found hsign).trans h) hblanks) rfl

theorem body_of_empty (h : skipBlanks .none cs = '\x7d' :: rest) :
    body e ('\x7b' :: cs) = .found (.members []) rest := by
  change _ = Reading.of true _ rest
  exact body_closed (r := '\x7d' :: rest) (by rw [h]; rfl) rfl

theorem body_of {r r' : List Char} {m : Member} {ms : List Member} {fit' : Bool}
    (hquote : skipBlanks .none cs = '"' :: cs')
    (he : member e (skipBlanks .none cs) = .of fit m r)
    (hm : Repeats (comma *> member e) r fit' ms r')
    (hclose : skipBlanks .none r' = '\x7d' :: rest) :
    body e ('\x7b' :: cs) = .of (fit && fit') (.members (m :: ms)) rest := by
  have hblanks : blanks r' = .found () ('\x7d' :: rest) := congrArg (Reading.found ()) hclose
  have hcomma : comma r' = .absent := (Parser.seqRight_found hblanks).trans rfl
  have hcomprehension : objectComprehension e (skipBlanks .none cs) = .absent := by
    rw [hquote]
    rfl
  refine body_closed ((Parser.orElse_absent hcomprehension).trans ?_) hclose
  refine Parser.bind_of_found (Parser.separated_of he hm.many_eq) ?_
  exact (Parser.bind_found (Parser.perhaps_absent hcomma)).trans rfl

theorem array_expression (h : array (expression d) ('[' :: cs) = .of fit a rest)
    (hr : Closed rest) :
    expression (d + 1) ('[' :: cs) = .of fit a rest := by
  refine expression_of_atom ?_ rfl hr
  refine (Parser.orElse_absent rfl).trans ((Parser.orElse_absent rfl).trans ?_)
  exact (Parser.orElse_absent rfl).trans (Parser.orElse_of h)

theorem object_expression {b : Body} (h : body (expression d) ('\x7b' :: cs) = .of fit b rest)
    (hr : Closed rest) : expression (d + 1) ('\x7b' :: cs) = .of fit (.object b) rest := by
  refine expression_of_atom ?_ rfl hr
  refine (Parser.orElse_absent rfl).trans ((Parser.orElse_absent rfl).trans ?_)
  refine (Parser.orElse_absent rfl).trans ((Parser.orElse_absent rfl).trans ?_)
  exact Parser.orElse_of (Parser.map_of h)

/-! ### Parts of documents -/

/-- A kind of part of a document: what a template has for it, its sketch, and what holds of it when
all its numbers are kept. -/
structure Part (α β : Type) where
  make : β → α
  sketch : β → β
  steady : β → Prop

def valuePart : Part Expr Json := ⟨.ofJson, Json.sketch, Json.EveryNumber Steady⟩

def memberPart : Part Member (String × Json) :=
  ⟨memberOf, sketchMember, fun m => m.2.EveryNumber Steady⟩

section
variable {α β : Type} {part : Part α β} {p : Parser α} {b b' : β} {bs : List β} {r : List Char}

/-- A template finds in a text what it has for a part of a document, or refuses to read on when
the text is not fit. The part that is found has the sketch of the one that is there, and is that
very part where the numbers are plain. -/
structure Finds (part : Part α β) (p : Parser α) (cs : List Char) (b : β) (rest : List Char)
    (found : β) (fit plain : Bool) : Prop where
  read_eq : p (skipBlanks .none cs) = .of fit (part.make found) rest
  length_lt : rest.length < cs.length
  checked : Checked cs rest fit plain
  sketch_eq : part.sketch found = part.sketch b
  kept : plain = true → found = b ∧ part.steady b

def Reads (part : Part α β) (p : Parser α) (cs : List Char) (b : β) (rest : List Char) : Prop :=
  ∃ found fit plain, Finds part p cs b rest found fit plain

/-- More parts are found, each behind a comma, up to the sign that closes them. -/
structure FindsMore (part : Part α β) (p : Parser α) (close : Char) (cs : List Char) (bs : List β)
    (rest r : List Char) (more : List β) (fit plain : Bool) : Prop where
  read_eq : Repeats (comma *> p) cs fit (more.map part.make) r
  close_eq : skipBlanks .none r = close :: rest
  length_lt : rest.length < cs.length
  checked : Checked cs rest fit plain
  sketch_eq : more.map part.sketch = bs.map part.sketch
  kept : plain = true → more = bs ∧ ∀ b ∈ bs, part.steady b

def ReadsAll (part : Part α β) (p : Parser α) (close : Char) (cs : List Char) (b : β)
    (bs : List β) (rest : List Char) : Prop :=
  ∃ r r' found fit plain more fit' plain', Finds part p cs b r found fit plain ∧
    FindsMore part p close r bs rest r' more fit' plain'

/-- Where the numbers of a part and of those behind it are plain, these very parts are found. -/
theorem Finds.kept_cons {found : β} {more : List β} {fit fit' plain plain' : Bool} {r' : List Char}
    (h : Finds part p cs b r found fit plain)
    (hmore : FindsMore part p c r bs rest r' more fit' plain') (hplain : (plain && plain') = true) :
    found :: more = b :: bs ∧ ∀ a ∈ b :: bs, part.steady a := by
  obtain ⟨hplain, hplain'⟩ := Bool.and_eq_true_iff.1 hplain
  obtain ⟨rfl, hsteady⟩ := h.kept hplain
  obtain ⟨rfl, hsteady'⟩ := hmore.kept hplain'
  exact ⟨rfl, List.forall_mem_cons.2 ⟨hsteady, hsteady'⟩⟩

theorem length_lt_of_skipBlanks {r : List Char} (h : Json.Parser.skipBlanks cs = c :: r) :
    r.length < cs.length := by
  have := length_skipBlanks_le cs
  rwa [h] at this

theorem Reads.last (h : Reads part p cs b r) (hc : c = ']' ∨ c = '\x7d')
    (hclose : Json.Parser.skipBlanks r = c :: rest) : ReadsAll part p c cs b [] rest := by
  obtain ⟨found, fit, plain, hfound⟩ := h
  have hpasses : ∀ check, passes check (c :: rest) = (true && passes check rest) := fun check => by
    rcases hc with rfl | rfl <;> rfl
  refine ⟨r, r, found, fit, plain, [], true, true, hfound, ?_⟩
  refine ⟨.nil (Parser.seqRight_absent (comma_absent hclose hc)), skipBlanks_cons hclose ?_ ?_,
    length_lt_of_skipBlanks hclose, (Checked.of_passes hpasses).skip hclose, rfl,
    fun _ => ⟨rfl, List.forall_mem_nil _⟩⟩
  · rcases hc with rfl | rfl <;> decide
  · rcases hc with rfl | rfl <;> decide

theorem Reads.more {cs' : List Char} (h : Reads part p cs b r)
    (hcomma : Json.Parser.skipBlanks r = ',' :: cs') (hmore : ReadsAll part p c cs' b' bs rest) :
    ReadsAll part p c cs b (b' :: bs) rest := by
  obtain ⟨found, fit, plain, hfound⟩ := h
  obtain ⟨r₁, r₂, found', fit', plain', more, fit'', plain'', hfound', hmore⟩ := hmore
  have hstep : (comma *> p) r = .of fit' (part.make found') r₁ :=
    (Parser.seqRight_found (comma_of hcomma)).trans hfound'.read_eq
  have hlen := length_lt_of_skipBlanks hcomma
  have hlt := Nat.lt_trans hfound'.length_lt hlen
  have hpasses : ∀ check, passes check (',' :: cs') = passes check cs' := fun _ => rfl
  refine ⟨r, r₂, found, fit, plain, found' :: more, fit' && fit'', plain' && plain'', hfound, ?_⟩
  refine ⟨hmore.read_eq.cons hstep hlt, hmore.close_eq, Nat.lt_trans hmore.length_lt hlt,
    ((hfound'.checked.trans hmore.checked).congr hpasses).skip hcomma,
    List.cons_eq_cons.2 ⟨hfound'.sketch_eq, hmore.sketch_eq⟩, hfound'.kept_cons hmore⟩

theorem ReadsAll.length_lt (h : ReadsAll part p c cs b bs rest) : rest.length < cs.length := by
  obtain ⟨r, r', found, fit, plain, more, fit', plain', hfound, hmore⟩ := h
  exact Nat.lt_trans hmore.length_lt hfound.length_lt

theorem Reads.length_lt (h : Reads part p cs b rest) : rest.length < cs.length := by
  obtain ⟨found, fit, plain, hfound⟩ := h
  exact hfound.length_lt

end

/-! ### Values, elements and members -/

/-- No value begins with a colon. -/
theorem value_colon (fuel k : Nat) (cs : List Char) :
    Json.Parser.value fuel k (':' :: cs) = none := by
  cases fuel with
  | zero => rfl
  | succ fuel =>
    unfold Json.Parser.value
    rfl

theorem quoted_of_skipBlanks {key : String} {r r' : List Char}
    (hquote : Json.Parser.skipBlanks cs = '"' :: r)
    (hkey : Json.Parser.stringBody "" r = some (key, r')) :
    skipBlanks .none cs = '"' :: r ∧ r'.length < cs.length ∧
      ∃ fit, text ('"' :: r) = .of fit key r' ∧ Checked cs r' fit fit := by
  obtain ⟨t, fit, rfl, ht⟩ := quoted_of_stringBody hkey
  have hchecked : Checked ('"' :: r) r' fit fit := .of_passes ht.passes_eq
  refine ⟨skipBlanks_cons hquote (by decide) (by decide),
    Nat.lt_trans ht.shorter (length_lt_of_skipBlanks hquote), fit, ?_, hchecked.skip hquote⟩
  rw [String.empty_append]
  exact ht.text

theorem Reads.member {key : String} {v : Json} {r r' r'' : List Char}
    (hquote : Json.Parser.skipBlanks cs = '"' :: r)
    (hkey : Json.Parser.stringBody "" r = some (key, r'))
    (hcolon : Json.Parser.skipBlanks r' = ':' :: r'') (hne : ∀ s, r'' ≠ ':' :: s)
    (hv : Reads valuePart (expression d) r'' v rest) :
    Reads memberPart (member (expression d)) cs (key, v) rest := by
  obtain ⟨hskip, hlt, fit, htext, hchecked⟩ := quoted_of_skipBlanks hquote hkey
  obtain ⟨w, fit', plain', hw⟩ := hv
  have hlen := length_lt_of_skipBlanks hcolon
  have hlt' := hw.length_lt
  have hpasses : ∀ check, passes check (':' :: r'') = passes check r'' := fun _ => rfl
  refine ⟨(key, w), fit && fit', fit && plain', ?_, by omega,
    hchecked.trans ((hw.checked.congr hpasses).skip hcolon), congrArg (key, ·) hw.sketch_eq,
    fun hplain => ?_⟩
  · rw [hskip]
    exact member_of htext (skipBlanks_cons hcolon (by decide) (by decide)) hne hw.read_eq
  · obtain ⟨rfl, hsteady⟩ := hw.kept (Bool.and_eq_true_iff.1 hplain).2
    exact ⟨rfl, hsteady⟩

/-- What holds of every value that is read with so much fuel: it nests no deeper than allowed, and
a template that may nest as deep as the text is long reads it. -/
def ValueSound (fuel : Nat) : Prop :=
  ∀ {k cs v rest}, Json.Parser.value fuel k cs = some (v, rest) → Closed rest →
    v.depth ≤ k ∧ ∀ d, cs.length ≤ d → Reads valuePart (expression d) cs v rest

def ElementsSound (fuel : Nat) : Prop :=
  ∀ {k cs acc v rest}, Json.Parser.elements fuel k cs acc = some (v, rest) →
    ∃ e es, v = .array (acc.reverse ++ e :: es) ∧ (∀ u ∈ e :: es, u.depth ≤ k) ∧
      ∀ d, cs.length ≤ d → ReadsAll valuePart (expression d) ']' cs e es rest

def MembersSound (fuel : Nat) : Prop :=
  ∀ {k cs acc v rest}, Json.Parser.members fuel k cs acc = some (v, rest) →
    ∃ m ms, v = .object (acc.reverse ++ m :: ms) ∧ (∀ u ∈ m :: ms, u.2.depth ≤ k) ∧
      (∃ r, Json.Parser.skipBlanks cs = '"' :: r) ∧
      ∀ d, cs.length ≤ d → ReadsAll memberPart (member (expression d)) '\x7d' cs m ms rest

theorem elementsSound_succ {fuel : Nat} (hv : ValueSound fuel) (he : ElementsSound fuel) :
    ElementsSound (fuel + 1) := by
  intro k cs acc v rest h
  unfold Json.Parser.elements at h
  split at h
  · cases h
  · next e r hu =>
    split at h
    · next r' hcomma =>
      obtain ⟨hdepth, hreads⟩ := hv hu (.of_eq hcomma (.inl rfl))
      obtain ⟨e', es, rfl, hdepth', hreads'⟩ := he h
      refine ⟨e, e' :: es, ?_, List.forall_mem_cons.2 ⟨hdepth, hdepth'⟩, fun d hd => ?_⟩
      · rw [List.reverse_cons, List.append_assoc]
        rfl
      · have hlt := (hreads d hd).length_lt
        have := length_lt_of_skipBlanks hcomma
        exact (hreads d hd).more hcomma (hreads' d (by omega))
    · next r' hclose =>
      obtain ⟨rfl, rfl⟩ := Prod.mk.inj (Option.some.inj h)
      obtain ⟨hdepth, hreads⟩ := hv hu (.of_eq hclose (.inr (.inl rfl)))
      refine ⟨e, [], ?_, ?_, fun d hd => (hreads d hd).last (.inl rfl) hclose⟩
      · rw [List.reverse_cons]
      · simpa using hdepth
    · cases h

/-- What members that are read begin with, and how they go on. -/
theorem members_cases {fuel k : Nat} {acc : List (String × Json)} {v : Json}
    (h : Json.Parser.members (fuel + 1) k cs acc = some (v, rest)) :
    ∃ r key r' r'' u r₁, Json.Parser.skipBlanks cs = '"' :: r ∧
      Json.Parser.stringBody "" r = some (key, r') ∧ Json.Parser.skipBlanks r' = ':' :: r'' ∧
      Json.Parser.value fuel k r'' = some (u, r₁) ∧
      ((∃ r₂, Json.Parser.skipBlanks r₁ = ',' :: r₂ ∧
        Json.Parser.members fuel k r₂ ((key, u) :: acc) = some (v, rest)) ∨
      Json.Parser.skipBlanks r₁ = '\x7d' :: rest ∧ v = .object ((key, u) :: acc).reverse) := by
  unfold Json.Parser.members at h
  split at h
  · next r hquote =>
    split at h
    · cases h
    · next key r' hkey =>
      split at h
      · next r'' hcolon =>
        split at h
        · cases h
        · next u r₁ hu =>
          refine ⟨r, key, r', r'', u, r₁, hquote, hkey, hcolon, hu, ?_⟩
          split at h
          · next r₂ hcomma => exact .inl ⟨r₂, hcomma, h⟩
          · next r₂ hclose =>
            obtain ⟨rfl, rfl⟩ := Prod.mk.inj (Option.some.inj h)
            exact .inr ⟨hclose, rfl⟩
          · cases h
      · cases h
  · cases h

theorem membersSound_succ {fuel : Nat} (hv : ValueSound fuel) (hm : MembersSound fuel) :
    MembersSound (fuel + 1) := by
  intro k cs acc v rest h
  obtain ⟨r, key, r', r'', u, r₁, hquote, hkey, hcolon, hu, hnext⟩ := members_cases h
  obtain ⟨-, hlt, -⟩ := quoted_of_skipBlanks hquote hkey
  have hlt' := length_lt_of_skipBlanks hcolon
  have hne : ∀ s, r'' ≠ ':' :: s := by
    rintro s rfl
    rw [value_colon] at hu
    cases hu
  have hmember : ∀ d, cs.length ≤ d → Closed r₁ → u.depth ≤ k ∧
      Reads memberPart (member (expression d)) cs (key, u) r₁ := by
    intro d hd hclosed
    obtain ⟨hdepth, hreads⟩ := hv hu hclosed
    exact ⟨hdepth, (hreads d (by omega)).member hquote hkey hcolon hne⟩
  rcases hnext with ⟨r₂, hcomma, hrest⟩ | ⟨hclose, rfl⟩
  · have hclosed := Closed.of_eq hcomma (.inl rfl)
    obtain ⟨m, ms, rfl, hdepth', -, hreads'⟩ := hm hrest
    refine ⟨(key, u), m :: ms, ?_,
      List.forall_mem_cons.2 ⟨(hmember _ (Nat.le_refl _) hclosed).1, hdepth'⟩, ⟨r, hquote⟩,
      fun d hd => ?_⟩
    · rw [List.reverse_cons, List.append_assoc]
      rfl
    · have hlt'' := (hmember d hd hclosed).2.length_lt
      have := length_lt_of_skipBlanks hcomma
      exact (hmember d hd hclosed).2.more hcomma (hreads' d (by omega))
  · have hclosed := Closed.of_eq hclose (.inr (.inr rfl))
    refine ⟨(key, u), [], ?_, ?_, ⟨r, hquote⟩,
      fun d hd => (hmember d hd hclosed).2.last (.inr rfl) hclose⟩
    · rw [List.reverse_cons]
    · simpa using (hmember _ (Nat.le_refl _) hclosed).1

/-- One level of nesting is spent on the first character. -/
theorem reads_behind {r : List Char} {v : Json} (h : Json.Parser.skipBlanks cs = c :: r)
    (hreads : ∀ d, r.length ≤ d → Reads valuePart (expression (d + 1)) cs v rest) :
    ∀ d, cs.length ≤ d → Reads valuePart (expression d) cs v rest := by
  intro d hd
  have hlen := length_lt_of_skipBlanks h
  obtain ⟨d, rfl⟩ : ∃ d', d = d' + 1 := ⟨d - 1, by omega⟩
  exact hreads d (by omega)

/-- A value that begins with a character behind blanks. -/
theorem Reads.of_head {r : List Char} {v : Json} (w : Json) (fit plain : Bool)
    (h : Json.Parser.skipBlanks cs = c :: r) (hc : c ≠ '/') (hc' : c ≠ '#')
    (hlt : rest.length ≤ r.length)
    (he : expression d (c :: r) = .of fit (.ofJson w) rest) (hl : Checked (c :: r) rest fit plain)
    (hw : w.sketch = v.sketch) (hk : plain = true → w = v ∧ v.EveryNumber Steady) :
    Reads valuePart (expression d) cs v rest := by
  have hlen := length_lt_of_skipBlanks h
  refine ⟨w, fit, plain, ?_, by omega, hl.skip h, hw, hk⟩
  rw [skipBlanks_cons h hc hc']
  exact he

/-- A value without numbers that begins so. -/
theorem Reads.of_word {r : List Char} {v : Json} (fit : Bool)
    (h : Json.Parser.skipBlanks cs = c :: r)
    (hc : c ≠ '/') (hc' : c ≠ '#') (hlt : rest.length ≤ r.length)
    (he : expression d (c :: r) = .of fit (.ofJson v) rest)
    (hl : ∀ check, passes check (c :: r) = (fit && passes check rest)) (hv : v.EveryNumber Steady) :
    Reads valuePart (expression d) cs v rest :=
  .of_head v fit fit h hc hc' hlt he (.of_passes hl) rfl fun _ => ⟨rfl, hv⟩

theorem Reads.number {n : Json.Number} {r : List Char} (h : Json.Parser.skipBlanks cs = r)
    (hn : Json.Parser.unsigned? false r = some (n, rest)) (hr : Closed rest) :
    Reads valuePart (expression (d + 1)) cs (.number n) rest := by
  obtain ⟨w, x, fit, plain, hx, hw, hlt, hchecked, hsketch, hkept⟩ := number_read hn hr
  obtain ⟨c, s, rfl, hc⟩ := unsigned_head hn
  refine .of_head (.number w) fit plain h (by rintro rfl; cases hc) (by rintro rfl; cases hc)
    (Nat.le_of_lt_succ hlt) ?_ hchecked (congrArg Json.number hsketch)
    fun hplain => (hkept hplain).imp_left (congrArg Json.number)
  change _ = Reading.of fit (Expr.ofNumber w) rest
  rw [hw]
  exact number_expression hx ⟨c, s, rfl, hc⟩ hr

theorem Reads.negative {n : Json.Number} {r : List Char} (h : Json.Parser.skipBlanks cs = '-' :: r)
    (hn : Json.Parser.unsigned? true r = some (n, rest)) (hr : Closed rest) :
    Reads valuePart (expression (d + 1)) cs (.number n) rest := by
  obtain ⟨w, x, fit, plain, hx, hw, hlt, hchecked, hsketch, hkept⟩ := number_read hn hr
  have hpasses : ∀ check, passes check ('-' :: r) = passes check r := fun _ => rfl
  refine .of_head (.number w) fit plain h (by decide) (by decide) (Nat.le_of_lt hlt) ?_
    (hchecked.congr hpasses) (congrArg Json.number hsketch)
    fun hplain => (hkept hplain).imp_left (congrArg Json.number)
  change _ = Reading.of fit (Expr.ofNumber w) rest
  rw [hw]
  exact minus_expression hx (unsigned_head hn) hr

theorem Reads.string {s : String} {r : List Char} (h : Json.Parser.skipBlanks cs = '"' :: r)
    (hs : Json.Parser.stringBody "" r = some (s, rest)) (hr : Closed rest) :
    Reads valuePart (expression (d + 1)) cs (.string s) rest := by
  obtain ⟨t, fit, rfl, ht⟩ := quoted_of_stringBody hs
  refine .of_word fit h (by decide) (by decide) (Nat.le_of_lt ht.shorter) (text_of ?_ hr)
    ht.passes_eq trivial
  rw [String.empty_append]
  exact ht.text

/-- Elements between the brackets of an array. -/
theorem ReadsAll.array {v : Json} {vs : List Json} {r : List Char}
    (h : Json.Parser.skipBlanks cs = '[' :: r)
    (hall : ReadsAll valuePart (expression d) ']' (Json.Parser.skipBlanks r) v vs rest)
    (hr : Closed rest) : Reads valuePart (expression (d + 1)) cs (.array (v :: vs)) rest := by
  have hlt := hall.length_lt
  have hle := length_skipBlanks_le r
  obtain ⟨r₁, r₂, w, fit, plain, ws, fit', plain', hfound, hmore⟩ := hall
  have hw := hfound.read_eq
  rw [skipBlanks_skipBlanks] at hw
  have hpasses : ∀ check, passes check ('[' :: r) = passes check (Json.Parser.skipBlanks r) :=
    fun check => (passes_skipBlanks check r).symm
  refine .of_head (.array (w :: ws)) (fit && fit') (plain && plain') h (by decide) (by decide)
    (by omega) (array_expression ?_ hr) ((hfound.checked.trans hmore.checked).congr hpasses)
    (sketch_array_eq (List.cons_eq_cons.2 ⟨hfound.sketch_eq, hmore.sketch_eq⟩)) fun hplain => ?_
  · change _ = Reading.of _ (Expr.array (elementsOfJson (w :: ws))) rest
    rw [elementsOfJson_eq]
    exact array_of hw hmore.read_eq hmore.close_eq
  · obtain ⟨hkept, hsteady⟩ := hfound.kept_cons hmore hplain
    exact ⟨congrArg Json.array hkept, Json.everyNumber_array.2 hsteady⟩

/-- Members between the braces of an object. -/
theorem ReadsAll.object {m : String × Json} {ms : List (String × Json)} {r s : List Char}
    (h : Json.Parser.skipBlanks cs = '\x7b' :: r)
    (hquote : Json.Parser.skipBlanks (Json.Parser.skipBlanks r) = '"' :: s)
    (hall : ReadsAll memberPart (member (expression d)) '\x7d' (Json.Parser.skipBlanks r) m ms rest)
    (hr : Closed rest) : Reads valuePart (expression (d + 1)) cs (.object (m :: ms)) rest := by
  have hlt := hall.length_lt
  have hle := length_skipBlanks_le r
  obtain ⟨r₁, r₂, n, fit, plain, ns, fit', plain', hfound, hmore⟩ := hall
  have hn := hfound.read_eq
  rw [skipBlanks_skipBlanks] at hn
  have hpasses : ∀ check, passes check ('\x7b' :: r) = passes check (Json.Parser.skipBlanks r) :=
    fun check => (passes_skipBlanks check r).symm
  refine .of_head (.object (n :: ns)) (fit && fit') (plain && plain') h (by decide) (by decide)
    (by omega) (object_expression ?_ hr) ((hfound.checked.trans hmore.checked).congr hpasses)
    (sketch_object_eq (List.cons_eq_cons.2 ⟨hfound.sketch_eq, hmore.sketch_eq⟩)) fun hplain => ?_
  · rw [membersOfJson_eq]
    have hstart := skipBlanks_cons hquote (by decide) (by decide)
    rw [skipBlanks_skipBlanks] at hstart
    exact body_of hstart hn hmore.read_eq hmore.close_eq
  · obtain ⟨hkept, hsteady⟩ := hfound.kept_cons hmore hplain
    exact ⟨congrArg Json.object hkept, Json.everyNumber_object.2 hsteady⟩

theorem Reads.emptyArray {r : List Char} (h : Json.Parser.skipBlanks cs = '[' :: r)
    (hclose : Json.Parser.skipBlanks r = ']' :: rest) (hr : Closed rest) :
    Reads valuePart (expression (d + 1)) cs (.array []) rest := by
  have hlt := length_lt_of_skipBlanks hclose
  refine .of_word true h (by decide) (by decide) (by omega) (array_expression ?_ hr)
    (fun check => ?_) trivial
  · exact array_of_empty (skipBlanks_cons hclose (by decide) (by decide))
  · change passes check r = _
    rw [← passes_skipBlanks, hclose]
    rfl

theorem Reads.emptyObject {r : List Char} (h : Json.Parser.skipBlanks cs = '\x7b' :: r)
    (hclose : Json.Parser.skipBlanks r = '\x7d' :: rest) (hr : Closed rest) :
    Reads valuePart (expression (d + 1)) cs (.object []) rest := by
  have hlt := length_lt_of_skipBlanks hclose
  refine .of_word true h (by decide) (by decide) (by omega) (object_expression ?_ hr)
    (fun check => ?_) trivial
  · exact body_of_empty (skipBlanks_cons hclose (by decide) (by decide))
  · change passes check r = _
    rw [← passes_skipBlanks, hclose]
    rfl

theorem valueSound_succ {fuel : Nat} (he : ElementsSound fuel) (hm : MembersSound fuel) :
    ValueSound (fuel + 1) := by
  intro k cs v rest h hr
  unfold Json.Parser.value at h
  split at h
  · next r hskip =>
    obtain ⟨rfl, rfl⟩ := Prod.mk.inj (Option.some.inj h)
    refine ⟨Nat.zero_le _, reads_behind hskip fun d _ => ?_⟩
    exact .of_word true hskip (by decide) (by decide) (by simp only [List.length_cons]; omega)
      (null_of hr) (fun _ => rfl) trivial
  · next r hskip =>
    obtain ⟨rfl, rfl⟩ := Prod.mk.inj (Option.some.inj h)
    refine ⟨Nat.zero_le _, reads_behind hskip fun d _ => ?_⟩
    exact .of_word true hskip (by decide) (by decide) (by simp only [List.length_cons]; omega)
      (true_of hr) (fun _ => rfl) trivial
  · next r hskip =>
    obtain ⟨rfl, rfl⟩ := Prod.mk.inj (Option.some.inj h)
    refine ⟨Nat.zero_le _, reads_behind hskip fun d _ => ?_⟩
    exact .of_word true hskip (by decide) (by decide) (by simp only [List.length_cons]; omega)
      (false_of hr) (fun _ => rfl) trivial
  · next r hskip =>
    obtain ⟨⟨s, rest'⟩, hs, h⟩ := Option.map_eq_some_iff.1 h
    obtain ⟨rfl, rfl⟩ := Prod.mk.inj h
    exact ⟨Nat.zero_le _, reads_behind hskip fun d _ => .string hskip hs hr⟩
  · next r hskip =>
    obtain ⟨⟨n, rest'⟩, hn, h⟩ := Option.map_eq_some_iff.1 h
    obtain ⟨rfl, rfl⟩ := Prod.mk.inj h
    exact ⟨Nat.zero_le _, reads_behind hskip fun d _ => .negative hskip hn hr⟩
  · next r hskip =>
    split at h
    · cases h
    · next k =>
      split at h
      · next r' hclose =>
        obtain ⟨rfl, rfl⟩ := Prod.mk.inj (Option.some.inj h)
        refine ⟨Json.depth_array_le.2 (List.forall_mem_nil _), reads_behind hskip fun d _ => ?_⟩
        exact .emptyArray hskip hclose hr
      · obtain ⟨e, es, rfl, hdepth, hreads⟩ := he h
        refine ⟨Json.depth_array_le.2 hdepth, reads_behind hskip fun d hd => ?_⟩
        exact (hreads d (Nat.le_trans (length_skipBlanks_le r) hd)).array hskip hr
  · next r hskip =>
    split at h
    · cases h
    · next k =>
      split at h
      · next r' hclose =>
        obtain ⟨rfl, rfl⟩ := Prod.mk.inj (Option.some.inj h)
        refine ⟨Json.depth_object_le.2 (List.forall_mem_nil _), reads_behind hskip fun d _ => ?_⟩
        exact .emptyObject hskip hclose hr
      · obtain ⟨m, ms, rfl, hdepth, ⟨s, hquote⟩, hreads⟩ := hm h
        refine ⟨Json.depth_object_le.2 hdepth, reads_behind hskip fun d hd => ?_⟩
        exact (hreads d (Nat.le_trans (length_skipBlanks_le r) hd)).object hskip hquote hr
  · obtain ⟨⟨n, rest'⟩, hn, h⟩ := Option.map_eq_some_iff.1 h
    obtain ⟨rfl, rfl⟩ := Prod.mk.inj h
    obtain ⟨c, s, hskip, -⟩ := unsigned_head hn
    exact ⟨Nat.zero_le _, reads_behind hskip fun d _ => .number rfl hn hr⟩

theorem sound (fuel : Nat) : ValueSound fuel ∧ ElementsSound fuel ∧ MembersSound fuel := by
  induction fuel with
  | zero =>
    refine ⟨fun h => ?_, fun h => ?_, fun h => ?_⟩
    all_goals cases h
  | succ fuel ih =>
    obtain ⟨hv, he, hm⟩ := ih
    exact ⟨valueSound_succ he hm, elementsSound_succ hv he, membersSound_succ hv hm⟩

/-- The program of a document: the document itself, unless templates cannot read its text. Its
numbers are those of the document when the text is modest. -/
theorem program_document {source : String} {v : Json} (h : Json.parseWritten? source = some v) :
    v.depth ≤ Json.Parser.maxDepth ∧ ∃ w : Json, w.sketch = v.sketch ∧
      (program source = if legible source.toList then .ok (.ofJson w) else .error .aborted) ∧
      (modest source.toList = true → w = v ∧ v.EveryNumber Steady) := by
  unfold Json.parseWritten? at h
  dsimp only at h
  split at h
  · next u rest hu =>
    split at h
    · next hrest =>
      obtain rfl := Option.some.inj h
      have hnil : Json.Parser.skipBlanks rest = [] := List.isEmpty_iff.1 hrest
      obtain ⟨hdepth, hreads⟩ := (sound _).1 hu (.of_nil hnil)
      obtain ⟨w, fit, plain, hw⟩ := hreads (source.toList.length + 1) (Nat.le_succ _)
      have hpasses : ∀ check, passes check rest = true := fun check => by
        rw [← passes_skipBlanks, hnil]
        rfl
      refine ⟨hdepth, w, hw.sketch_eq, ?_, fun hmodest => hw.kept ?_⟩
      · have hblanks : blanks source.toList = .found () (skipBlanks .none source.toList) := rfl
        have hblanks' : blanks rest = .found () [] :=
          congrArg (Reading.found ()) (skipBlanks_nil hnil)
        have hread : (blanks *> expression (source.toList.length + 1) <* blanks : Parser Expr)
            source.toList = .of fit (.ofJson w) [] :=
          Parser.seqLeft_of ((Parser.seqRight_found hblanks).trans hw.read_eq) hblanks'
        have hempty : source.toList.isEmpty = false := by
          cases hs : source.toList with
          | nil =>
            have hlt := hw.length_lt
            rw [hs] at hlt
            exact absurd hlt (Nat.not_lt_zero _)
          | cons => rfl
        have hlegible : legible rest = true := hpasses fits
        unfold program
        rw [hw.checked.legible_eq, hlegible, Bool.and_true]
        dsimp only
        rw [hempty, hread]
        cases fit <;> rfl
      · have hrest : modest rest = true := hpasses brief
        rw [hw.checked.modest_eq, hrest, Bool.and_true] at hmodest
        exact hmodest
    · cases h
  · cases h

end MachineProvider.Jsonnet
