import MachineProvider.Http.Target
import MachineProvider.Proofs.Text.Percent
import MachineProvider.Proofs.Text.Splitting
import Mathlib.Data.List.DropRight

/-! A query is sent as it stands, behind all that is sent without it. -/
namespace MachineProvider.Http

open String (utf8EncodeChar)

variable {c : Char} {cs ds query : List Char}

/-- The parameters of a query: the parts between ampersands, each a name and behind the first equals
sign a value. -/
def parameters (query : List Char) : List (Option String × Option String) :=
  (query.splitOn '&').map fun part =>
    (Text.percentDecode? (part.takeWhile (· ≠ '=')),
      Text.percentDecode? ((part.dropWhile (· ≠ '=')).drop 1))

/-- Escaped text with equals signs. -/
def IsPair (query : List Char) : Prop :=
  ∀ c ∈ query, Text.isUnreserved c = true ∨ c = '%' ∨ c = '='

/-- Where a path leads, if it can follow the host; an empty one leads to the root. -/
def place? : List Char → Option (List Char)
  | [] => some ['/']
  | c :: cs => if isSlash c then some ((resolveDots [] (segments cs)).flatMap ('/' :: ·)) else none

/-- What is sent of the query that may follow a path. -/
def sentQuery : List Char → List Char
  | '?' :: query => '?' :: encodeBytes isQueryByte (query.takeWhile (· != '#'))
  | _ => []

theorem target?_eq (s : String) :
    target? s = (place? ((tidy s.toList).takeWhile (!isPathEnd ·))).map fun path =>
      String.ofList (path ++ sentQuery ((tidy s.toList).dropWhile (!isPathEnd ·))) := by
  have hfinish : ∀ path rest : List Char,
      (match rest with
        | '?' :: query =>
          some (String.ofList (path ++ '?' :: encodeBytes isQueryByte (query.takeWhile (· != '#'))))
        | _ => some (String.ofList path)) = some (String.ofList (path ++ sentQuery rest)) := by
    intro path rest
    unfold sentQuery
    split <;> simp
  unfold target?
  dsimp only
  cases (tidy s.toList).takeWhile (!isPathEnd ·) with
  | nil => exact hfinish ['/'] _
  | cons c cs =>
    dsimp only [place?]
    split
    · exact hfinish _ _
    · rfl

theorem encodeBytes_append (keep : UInt8 → Bool) (cs ds : List Char) :
    encodeBytes keep (cs ++ ds) = encodeBytes keep cs ++ encodeBytes keep ds := by
  simp only [encodeBytes, Text.utf8_eq_flatMap, String.toList_ofList, List.flatMap_append]

theorem encodeBytes_of_kept {keep : UInt8 → Bool}
    (h : ∀ c ∈ cs, c.toNat < 0x80 ∧ keep (UInt8.ofNat c.toNat) = true) :
    encodeBytes keep cs = cs := by
  induction cs with
  | nil => simp [encodeBytes, Text.utf8_eq_flatMap]
  | cons c cs ih =>
    obtain ⟨⟨hc, hkeep⟩, hcs⟩ := List.forall_mem_cons.1 h
    have hbyte : (UInt8.ofNat c.toNat).toNat = c.toNat := by
      simp
      omega
    have hhead : encodeBytes keep [c] = [c] := by
      simp [encodeBytes, Text.utf8_eq_flatMap, Text.utf8EncodeChar_ascii hc, hkeep, hbyte]
    rw [← List.singleton_append, encodeBytes_append, hhead, ih hcs]

/-- Such a character means nothing in an address but itself. -/
theorem IsPair.char (h : IsPair query) (hc : c ∈ query) :
    (0x20 < c.toNat ∧ c.toNat < 0x7f) ∧ c ∉ ['"', '#', '<', '>', '\'', '&', '/', '?'] := by
  have hne : ∀ d ∈ ['"', '#', '<', '>', '\'', '&', '/', '?'],
      Text.isUnreserved d = false ∧ d ≠ '%' ∧ d ≠ '=' := by
    simp [Text.isUnreserved, Text.isAlphanumeric]
  refine ⟨?_, fun hbad => ?_⟩
  · rcases h c hc with hc | rfl | rfl
    · exact Text.isUnreserved_ascii hc
    · decide
    · decide
  · obtain ⟨hreserved, hpercent, hequals⟩ := hne c hbad
    rcases h c hc with hc | hc | hc
    · rw [hreserved] at hc
      cases hc
    · exact hpercent hc
    · exact hequals hc

theorem IsPair.encodeBytes (h : IsPair query) : encodeBytes isQueryByte query = query := by
  refine encodeBytes_of_kept fun c hc => ?_
  obtain ⟨⟨hlow, hhigh⟩, hmarks⟩ := h.char hc
  have hbyte : (UInt8.ofNat c.toNat).toNat = c.toNat := by
    simp
    omega
  simp only [List.mem_cons, not_or] at hmarks
  refine ⟨by omega, ?_⟩
  simp only [isQueryByte, isPlain, hbyte, Char.ofNat_toNat]
  simp [hmarks]
  omega

/-- Blanks and line ends are dropped in front of such a query only. -/
theorem tidy_append (hcs : ∀ c ∈ cs.getLast?, 32 < c.toNat) (hquery : IsPair query) :
    tidy (cs ++ '?' :: query) = tidy cs ++ '?' :: query := by
  have hkept : ∀ cs : List Char, (∀ c ∈ cs.getLast?, 32 < c.toNat) →
      (cs.reverse.dropWhile fun c => c.toNat ≤ 32).reverse = cs := by
    intro cs hcs
    refine List.rdropWhile_eq_self_iff.2 fun hne => ?_
    simpa using hcs _ (List.getLast?_eq_some_getLast hne)
  have hlast : ∀ c ∈ (cs ++ '?' :: query).getLast?, 32 < c.toNat := by
    intro c hc
    have hmem : c ∈ '?' :: query := List.mem_of_getLast? (by simpa using hc)
    rcases List.mem_cons.1 hmem with rfl | hmem
    · decide
    · exact (hquery.char hmem).1.1
  have hquery' : ∀ c ∈ '?' :: query, !(c == '\t' || c == '\n' || c == '\r') := by
    intro c hc
    rcases List.mem_cons.1 hc with rfl | hc
    · decide
    · have hlow := (hquery.char hc).1.1
      have hne : ∀ d : Char, d.toNat ≤ 0x20 → c ≠ d := fun d hd heq => by
        rw [heq] at hlow
        omega
      simp [hne '\t' (by decide), hne '\n' (by decide), hne '\r' (by decide)]
  unfold tidy
  rw [hkept cs hcs, hkept _ hlast, List.filter_append, List.filter_eq_self.2 hquery']

theorem sentQuery_question (hds : '#' ∉ ds) :
    sentQuery ('?' :: ds) = '?' :: encodeBytes isQueryByte ds := by
  have hwhole : ds.takeWhile (· != '#') = ds :=
    List.takeWhile_eq_self_iff.2 fun c hc => bne_iff_ne.2 fun heq => hds (heq ▸ hc)
  rw [sentQuery, hwhole]

theorem IsPair.sentQuery (h : IsPair query) : sentQuery ('?' :: query) = '?' :: query := by
  rw [sentQuery_question fun hc => (h.char hc).2 (by simp), h.encodeBytes]

/-- A query ends the path, unless another one has ended it, and is sent as it stands. -/
theorem sentQuery_append (hds : '#' ∉ ds) (hquery : IsPair query) :
    (ds ++ '?' :: query).takeWhile (!isPathEnd ·) = ds.takeWhile (!isPathEnd ·) ∧
      sentQuery ((ds ++ '?' :: query).dropWhile (!isPathEnd ·)) =
        sentQuery (ds.dropWhile (!isPathEnd ·)) ++ '?' :: query := by
  induction ds with
  | nil => exact ⟨rfl, hquery.sentQuery⟩
  | cons d ds ih =>
    simp only [List.mem_cons, not_or] at hds
    by_cases hd : isPathEnd d = true
    · obtain rfl : d = '?' := by
        simpa [isPathEnd, Ne.symm hds.1] using hd
      have hfragment : '#' ∉ ds ++ '?' :: query := by
        intro h
        rcases List.mem_append.1 h with h | h
        · exact hds.2 h
        · rcases List.mem_cons.1 h with h | h
          · cases h
          · exact (hquery.char h).2 (by simp)
      have hmark : encodeBytes isQueryByte ('?' :: query) = '?' :: query := by
        have hquestion : encodeBytes isQueryByte ['?'] = ['?'] :=
          encodeBytes_of_kept (List.forall_mem_singleton.2 (by decide))
        rw [← List.singleton_append, encodeBytes_append, hquestion, hquery.encodeBytes]
      refine ⟨rfl, ?_⟩
      change sentQuery ('?' :: (ds ++ '?' :: query)) = sentQuery ('?' :: ds) ++ '?' :: query
      rw [sentQuery_question hfragment, sentQuery_question hds.2, encodeBytes_append, hmark]
      rfl
    · obtain ⟨hpath, hsent⟩ := ih hds.2
      simp only [List.cons_append, List.takeWhile_cons, List.dropWhile_cons, hd, hpath]
      exact ⟨trivial, hsent⟩

/-- What an address with a query asks for is what it asks for without the query, and the query. -/
theorem target?_query (hcs : ∀ c ∈ cs.getLast?, 32 < c.toNat) (hfragment : '#' ∉ cs)
    (hquery : IsPair query) :
    target? (String.ofList (cs ++ '?' :: query)) =
      (target? (String.ofList cs)).map (· ++ String.ofList ('?' :: query)) := by
  have htidy : '#' ∉ tidy cs := by
    intro h
    unfold tidy at h
    have hmem := List.dropWhile_sublist _ |>.subset (List.mem_reverse.1 (List.mem_filter.1 h).1)
    exact hfragment (List.mem_reverse.1 hmem)
  obtain ⟨hpath, hsent⟩ := sentQuery_append htidy hquery
  rw [target?_eq, target?_eq, String.toList_ofList, String.toList_ofList, tidy_append hcs hquery,
    hpath, hsent, Option.map_map]
  simp [Function.comp_def, String.append_assoc]

end MachineProvider.Http
