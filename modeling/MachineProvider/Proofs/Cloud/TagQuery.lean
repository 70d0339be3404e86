import MachineProvider.Cloud.Exchange
import MachineProvider.Proofs.Http.Query

/-! A tag filter is one parameter of a list's address, whatever its tag and value are. -/
namespace MachineProvider.Cloud

open Http (IsPair)
open Text (Escaped percentDecode? percentEncode)

variable {cs name value : List Char} {client : Client} {agent : Option String}

theorem not_mem_of_escaped {c : Char} (h : Escaped cs) (hreserved : Text.isUnreserved c = false)
    (hc : c ≠ '%') : c ∉ cs := by
  intro hmem
  rcases h.mem hmem with hunreserved | rfl
  · rw [hreserved] at hunreserved
    cases hunreserved
  · exact hc rfl

/-- An escaped name and an escaped value are one parameter. -/
theorem parameters_pair (hname : Escaped name) (hvalue : Escaped value) :
    Http.parameters (name ++ '=' :: value) = [(percentDecode? name, percentDecode? value)] := by
  have hsplit : (name ++ '=' :: value).splitOn '&' = [name ++ '=' :: value] := by
    refine (Text.splitOn_eq_iff (List.cons_ne_nil _ _)).2 ⟨by simp, ?_⟩
    simp [not_mem_of_escaped hname, not_mem_of_escaped hvalue, Text.isUnreserved,
      Text.isAlphanumeric]
  have hplain : ∀ c ∈ name, decide (c ≠ '=') = true := fun c hc => decide_eq_true fun heq =>
    not_mem_of_escaped hname rfl (by decide) (heq ▸ hc)
  unfold Http.parameters
  rw [hsplit, List.map_singleton, List.takeWhile_append_of_pos hplain,
    List.dropWhile_append_of_pos hplain]
  simp

theorem isPair_of_escaped (hname : Escaped name) (hvalue : Escaped value) :
    IsPair (name ++ '=' :: value) := by
  intro c hc
  rcases List.mem_append.1 hc with hc | hc
  · exact (hname.mem hc).imp_right .inl
  · rcases List.mem_cons.1 hc with rfl | hc
    · exact .inr (.inr rfl)
    · exact (hvalue.mem hc).imp_right .inl

namespace TagFilter

variable (f : TagFilter)

theorem toList_query : f.query.toList =
    (percentEncode ("tag:" ++ f.key)).toList ++ '=' :: (percentEncode f.value).toList := by
  simp [query]

theorem isPair_query : IsPair f.query.toList := by
  rw [toList_query]
  exact isPair_of_escaped (Text.escaped_percentEncode _) (Text.escaped_percentEncode _)

theorem parameters_query :
    Http.parameters f.query.toList = [(some ("tag:" ++ f.key), some f.value)] := by
  rw [toList_query, parameters_pair (Text.escaped_percentEncode _) (Text.escaped_percentEncode _),
    Text.percentDecode?_percentEncode, Text.percentDecode?_percentEncode]

/-- The query is cut into tag and value by its only equals sign. -/
theorem splitOn_query : f.query.toList.splitOn '=' =
    [(percentEncode ("tag:" ++ f.key)).toList, (percentEncode f.value).toList] := by
  refine (Text.splitOn_eq_iff (List.cons_ne_nil _ _)).2 ⟨by simp [toList_query], ?_⟩
  have hescaped : ∀ s, '=' ∉ (percentEncode s).toList := fun s =>
    not_mem_of_escaped (Text.escaped_percentEncode s) rfl (by decide)
  simp [hescaped]

theorem eq_of_query {f g : TagFilter} (h : g.query = f.query) : g = f := by
  have hsame := g.parameters_query.symm.trans ((congrArg _ (congrArg _ h)).trans f.parameters_query)
  obtain ⟨gkey, gvalue⟩ := g
  obtain ⟨fkey, fvalue⟩ := f
  simp at hsame
  simp [hsame]

end TagFilter

/-- The resources that are listed. -/
def listed : List String := ["servers", "server-groups"]

theorem url_listPath (client : Client) (resource : String) (filter : Option TagFilter) :
    client.url (listPath resource filter) = client.address ++ listPath resource filter := by
  have hpath : (listPath resource filter).startsWith "http" = false := by
    refine String.startsWith_string_eq_false_iff.2 ?_
    cases filter <;> simp [listPath, toString]
  rw [Client.url, hpath]
  rfl

/-- The path of a list has no fragment, ends in a letter and is no shorter than the host. -/
theorem listPath_unfiltered {resource : String} (hresource : resource ∈ listed) :
    '#' ∉ (listPath resource none).toList ∧
      (listPath resource none).toList.getLast? = some 's' ∧
      serverHost.length ≤ (listPath resource none).toList.length ∧
      (listPath resource none).toList ≠ [] := by
  revert resource
  decide

theorem target?_listPath {resource : String} (hresource : resource ∈ listed)
    (haddress : '#' ∉ client.address.toList) (f : TagFilter) :
    Http.target? (String.ofList
        ((client.url (listPath resource (some f))).toList.drop serverHost.length)) =
      (Http.target? (String.ofList
        ((client.url (listPath resource none)).toList.drop serverHost.length))).map
          (· ++ ("?" ++ f.query)) := by
  obtain ⟨hfragment, hlast, hlong, hne⟩ := listPath_unfiltered hresource
  have hfiltered : (listPath resource (some f)).toList =
      (listPath resource none).toList ++ '?' :: f.query.toList := by
    simp [listPath, toString]
  rw [url_listPath, url_listPath, String.toList_append, String.toList_append, hfiltered,
    ← List.append_assoc, List.drop_append_of_le_length (by simp; omega), Http.target?_query ?_ ?_
    f.isPair_query]
  · have hquery : String.ofList ('?' :: f.query.toList) = "?" ++ f.query := by
      apply String.toList_injective
      simp
    rw [hquery]
  · intro c hc
    rw [List.getLast?_drop] at hc
    split at hc
    · cases hc
    · rw [List.getLast?_append_of_ne_nil _ hne, hlast] at hc
      cases hc
      decide
  · intro hmem
    rcases List.mem_append.1 (List.mem_of_mem_drop hmem) with h | h
    · exact haddress h
    · exact hfragment h

/-- Both lists are asked for alike. -/
theorem list_call {list : Option TagFilter → Call}
    (hlist : list ∈ [Call.listServers, Call.listGroups]) :
    ∃ resource ∈ listed, ∀ filter, (list filter).path = listPath resource filter ∧
      (list filter).method = .get ∧ (list filter).body = none := by
  rcases List.mem_pair.1 hlist with rfl | rfl
  · exact ⟨"servers", by decide, fun _ => ⟨rfl, rfl, rfl⟩⟩
  · exact ⟨"server-groups", by decide, fun _ => ⟨rfl, rfl, rfl⟩⟩

/-- A filtered list is asked for as the whole list is, with the filter's query at the end. -/
theorem request_filtered {list : Option TagFilter → Call}
    (hlist : list ∈ [Call.listServers, Call.listGroups]) (haddress : '#' ∉ client.address.toList)
    (agent : Option String) (f : TagFilter) :
    (list (some f)).request client agent =
      ((list none).request client agent).map fun r =>
        { r with target := r.target ++ ("?" ++ f.query) } := by
  obtain ⟨resource, hresource, hcall⟩ := list_call hlist
  obtain ⟨hpath, hmethod, hbody⟩ := hcall none
  obtain ⟨hpath', hmethod', hbody'⟩ := hcall (some f)
  unfold Call.request
  rw [hpath, hpath', hmethod, hmethod', hbody, hbody']
  dsimp only
  rw [target?_listPath hresource haddress]
  split
  · rfl
  · simp [Function.comp_def]

/-- A filter is one name and one value around the only equals sign of its query, and both are read
back; the query ends the address of a list and is all that the filter adds to the request. An
address with a fragment of its own sends no query. -/
theorem tag_query_unambiguous (f : TagFilter) :
    (∃ name value, f.query.toList.splitOn '=' = [name, value] ∧ Escaped name ∧ Escaped value ∧
      percentDecode? name = some ("tag:" ++ f.key) ∧ percentDecode? value = some f.value) ∧
    Http.parameters f.query.toList = [(some ("tag:" ++ f.key), some f.value)] ∧
    (∀ list ∈ [Call.listServers, Call.listGroups], ∀ client : Client,
      client.url (list (some f)).path = client.url (list none).path ++ ("?" ++ f.query) ∧
      ('#' ∉ client.address.toList → ∀ agent, (list (some f)).request client agent =
        ((list none).request client agent).map
          fun r => { r with target := r.target ++ ("?" ++ f.query) })) ∧
    ∀ g : TagFilter, g.query = f.query → g = f := by
  refine ⟨⟨_, _, f.splitOn_query, Text.escaped_percentEncode _, Text.escaped_percentEncode _,
    Text.percentDecode?_percentEncode _, Text.percentDecode?_percentEncode _⟩, f.parameters_query,
    fun list hlist client => ⟨?_, fun haddress agent => request_filtered hlist haddress agent f⟩,
    fun g => TagFilter.eq_of_query⟩
  obtain ⟨resource, -, hcall⟩ := list_call hlist
  rw [(hcall none).1, (hcall (some f)).1, url_listPath, url_listPath]
  simp [listPath, toString, String.append_assoc]

/-- Separators in a tag and its value arrive as data. -/
theorem tag_query_unambiguous_separators :
    '#' ∉ (Client.new "http://host/" "secret").address.toList ∧
    ((Call.listServers (some ⟨"a=b&c", "#1/é"⟩)).request
      (Client.new "http://host/" "secret") none).map
        (·.target) = some "/v1/servers?tag%3Aa%3Db%26c=%231%2F%C3%A9" := by
  have haddress : '#' ∉ (Client.new "http://host/" "secret").address.toList := by decide
  refine ⟨haddress, ?_⟩
  have hrequest := ((tag_query_unambiguous ⟨"a=b&c", "#1/é"⟩).2.2.1 Call.listServers (by simp)
    (Client.new "http://host/" "secret")).2 haddress none
  have hwhole : ((Call.listServers none).request (Client.new "http://host/" "secret") none).map
      (·.target) = some "/v1/servers" := by decide +kernel
  have hquery : (TagFilter.mk "a=b&c" "#1/é").query = "tag%3Aa%3Db%26c=%231%2F%C3%A9" := by
    decide +kernel
  rw [hrequest, hquery, Option.map_map]
  simpa using congrArg (Option.map (· ++ "?tag%3Aa%3Db%26c=%231%2F%C3%A9")) hwhole

end MachineProvider.Cloud
