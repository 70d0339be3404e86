import MachineProvider.Cloud.Request
import MachineProvider.Proofs.Json.Orderless

/-! The provider's models are read back from what is written of them, whatever they
were read from. -/
namespace MachineProvider.Cloud

open Json (Decoder Fields)
open Json.Decoder (Orderless Readable Stable)

/-! ### Stubs -/

theorem ZoneStub.decode_toJson (z : ZoneStub) : decode z.toJson = .ok z := by
  refine Fields.record_of_lookup (by simp) fun es hn hfind => ?_
  simp only [Fields.read_map, textField, Fields.optional, Fields.read_fits hn, hfind,
    List.lookup_cons, beq_self_eq_true, Option.join_some, Fields.fits_some]
  exact ⟨_, rfl, rfl⟩

theorem decode_two_texts {α : Type} {name k l : String} (hne : k ≠ l) (mk : String → String → α)
    (s t : String) :
    Fields.record name (mk <$> textField k <*> textField l)
      (.record [(k, some (.string s)), (l, some (.string t))]) = .ok (mk s t) := by
  have hbeq : (l == k) = false := beq_eq_false_iff_ne.2 hne.symm
  refine Fields.record_of_lookup (by simpa using hne) fun es hn hfind => ?_
  simp only [Fields.read_seq, Fields.read_map, textField, Fields.optional,
    Fields.read_fits hn, hfind, List.lookup_cons, beq_self_eq_true, hbeq, Option.join_some,
    Fields.fits_some]
  exact ⟨s, rfl, t, rfl, rfl⟩

theorem ImageStub.decode_toJson (i : ImageStub) : decode i.toJson = .ok i :=
  decode_two_texts (by decide) ImageStub.mk i.slug i.name

theorem NetworkStub.decode_toJson (n : NetworkStub) : decode n.toJson = .ok n :=
  decode_two_texts (by decide) NetworkStub.mk n.uuid n.name

theorem SubnetStub.decode_toJson (s : SubnetStub) : decode s.toJson = .ok s :=
  decode_two_texts (by decide) SubnetStub.mk s.uuid s.cidr

theorem ServerStub.decode_toJson (s : ServerStub) : decode s.toJson = .ok s :=
  decode_two_texts (by decide) ServerStub.mk s.uuid s.href

theorem GroupStub.decode_toJson (g : GroupStub) : decode g.toJson = .ok g := by
  refine Fields.record_of_lookup (by simp) fun es hn hfind => ?_
  simp only [Fields.read_seq, Fields.read_map, textField, Fields.optional,
    Fields.read_fits hn, hfind, List.lookup_cons, beq_self_eq_true, String.reduceBEq,
    Option.join_some, Fields.fits_some]
  exact ⟨_, rfl, _, rfl, _, rfl, rfl⟩

/-! ### Reports -/

theorem FlavorStub.stable : Stable decode toJson := by
  rintro f ⟨v, h⟩
  obtain ⟨source, -, h⟩ := Fields.read_of_record h
  simp only [Fields.read_seq, Fields.read_map] at h
  obtain ⟨slug, -, name, -, vcpuCount, hcount, memoryGb, hmemory, rfl⟩ := h
  -- Any text is read back; a number has to be in range, which it is since it was read.
  have hcount : Readable Decoder.u32 vcpuCount := Fields.readable_of_optional ⟨.nat 0, rfl⟩ hcount
  have hmemory : Readable Decoder.u32 memoryGb := Fields.readable_of_optional ⟨.nat 0, rfl⟩ hmemory
  refine Fields.record_of_lookup (by simp) fun es hn hfind => ?_
  simp only [Fields.read_seq, Fields.read_map, textField, Fields.optional,
    Fields.read_fits hn, hfind, List.lookup_cons, beq_self_eq_true, String.reduceBEq,
    Option.join_some, Fields.fits_some]
  exact ⟨_, rfl, _, rfl, _, Decoder.stable_natural _ hcount, _,
    Decoder.stable_natural _ hmemory, rfl⟩

theorem VolumeStub.stable : Stable decode toJson := by
  rintro a ⟨v, h⟩
  obtain ⟨source, -, h⟩ := Fields.read_of_record h
  simp only [Fields.read_seq, Fields.read_map] at h
  obtain ⟨uuid, -, name, -, type, -, devicePath, -, sizeGb, hsize, rfl⟩ := h
  have hsize : Readable Decoder.u32 sizeGb := Fields.readable_of_optional ⟨.nat 0, rfl⟩ hsize
  refine Fields.record_of_lookup (by simp) fun es hn hfind => ?_
  simp only [Fields.read_seq, Fields.read_map, textField, Fields.optional,
    Fields.read_fits hn, hfind, List.lookup_cons, beq_self_eq_true, String.reduceBEq,
    Option.join_some, Fields.fits_some]
  exact ⟨_, rfl, _, rfl, _, rfl, _, rfl, _, Decoder.stable_natural _ hsize, rfl⟩

theorem nullable_text_orNull (o : Option String) :
    Decoder.nullable .text ((o.map Json.string).getD .null) = .ok o := by
  cases o <;> rfl

theorem Address.stable : Stable decode toJson := by
  rintro a ⟨v, h⟩
  obtain ⟨source, -, h⟩ := Fields.read_of_record h
  simp only [Fields.read_seq, Fields.read_map] at h
  obtain ⟨version, hversion, address, -, prefixLength, hprefix, gateway, -, reversePtr, -,
    subnet, -, rfl⟩ := h
  have hversion : Readable Decoder.u8 version := Fields.readable_of_optional ⟨.nat 0, rfl⟩ hversion
  have hprefix : Readable Decoder.u8 prefixLength :=
    Fields.readable_of_optional ⟨.nat 0, rfl⟩ hprefix
  refine Fields.record_of_lookup (by simp) fun es hn hfind => ?_
  simp only [Fields.read_seq, Fields.read_map, textField, Fields.optional, Fields.nullable, orNull,
    Fields.read_fits hn, hfind,
    List.lookup_cons, beq_self_eq_true, String.reduceBEq, Option.join_some, Fields.fits_some]
  exact ⟨_, Decoder.stable_natural _ hversion, _, rfl, _, Decoder.stable_natural _ hprefix,
    _, nullable_text_orNull gateway, _, nullable_text_orNull reversePtr,
    _, subnet.decode_toJson, rfl⟩

theorem Interface.stable : Stable decode toJson := by
  rintro a ⟨v, h⟩
  obtain ⟨source, -, h⟩ := Fields.read_of_record h
  simp only [Fields.read_seq, Fields.read_map] at h
  obtain ⟨type, -, network, -, addresses, haddresses, rfl⟩ := h
  have haddresses : Readable (.list Address.decode) addresses :=
    Fields.readable_of_optional ⟨.array [], rfl⟩ haddresses
  refine Fields.record_of_lookup (by simp) fun es hn hfind => ?_
  simp only [Fields.read_seq, Fields.read_map, textField, Fields.optional,
    Fields.read_fits hn, hfind, List.lookup_cons, beq_self_eq_true, String.reduceBEq,
    Option.join_some, Fields.fits_some]
  exact ⟨_, rfl, _, network.decode_toJson, _, Address.stable.list _ haddresses, rfl⟩

theorem Server.stable : Stable decode toJson := by
  rintro a ⟨v, h⟩
  obtain ⟨source, -, h⟩ := Fields.read_of_record h
  simp only [Fields.read_seq, Fields.read_map] at h
  obtain ⟨href, -, uuid, -, name, -, status, -, zone, -, flavor, hflavor, image, -,
    volumes, hvolumes, interfaces, hinterfaces, groups, -, tags, -, createdAt, -, rfl⟩ := h
  have hflavor : Readable FlavorStub.decode flavor :=
    Fields.readable_of_optional ⟨.object [], rfl⟩ hflavor
  have hvolumes : Readable (.list VolumeStub.decode) volumes :=
    Fields.readable_of_optional ⟨.array [], rfl⟩ hvolumes
  have hinterfaces : Readable (.list Interface.decode) interfaces :=
    Fields.readable_of_optional ⟨.array [], rfl⟩ hinterfaces
  refine Fields.record_of_lookup (by simp) fun es hn hfind => ?_
  simp only [Fields.read_seq, Fields.read_map, textField, Fields.optional, Fields.nullable, orNull,
    Fields.read_fits hn, hfind,
    List.lookup_cons, beq_self_eq_true, String.reduceBEq, Option.join_some, Fields.fits_some]
  exact ⟨_, rfl, _, rfl, _, rfl, _, rfl, _, zone.decode_toJson, _, FlavorStub.stable _ hflavor,
    _, image.decode_toJson, _, VolumeStub.stable.list _ hvolumes,
    _, Interface.stable.list _ hinterfaces, _, Decoder.each_map GroupStub.decode_toJson groups,
    _, Decoder.map_text_ofStrings tags, _, nullable_text_orNull createdAt, rfl⟩

theorem ServerGroup.decode_toJson (g : ServerGroup) : decode g.toJson = .ok g := by
  refine Fields.record_of_lookup (by simp) fun es hn hfind => ?_
  simp only [Fields.read_seq, Fields.read_map, textField, Fields.optional,
    Fields.read_fits hn, hfind, List.lookup_cons, beq_self_eq_true, String.reduceBEq,
    Option.join_some, Fields.fits_some]
  exact ⟨_, rfl, _, rfl, _, rfl, _, rfl, _, g.zone.decode_toJson,
    _, Decoder.each_map ServerStub.decode_toJson g.servers,
    _, Decoder.map_text_ofStrings g.tags, rfl⟩

/-! ### Requests -/

theorem GroupRequest.decode_toJson (r : GroupRequest) : decode r.toJson = .ok r := by
  refine Fields.record_of_lookup (by simp) fun es hn hfind => ?_
  simp only [Fields.read_seq, Fields.read_map, Fields.required, Fields.optional,
    Fields.read_fits hn, hfind, List.lookup_cons, beq_self_eq_true, String.reduceBEq,
    Option.join_some, Fields.fits_some]
  exact ⟨_, rfl, _, rfl, _, rfl, _, Decoder.map_text_ofStrings r.tags, rfl⟩

theorem VolumeRequest.decode_toJson (r : VolumeRequest) : decode r.toJson = .ok r := by
  refine Fields.record_of_lookup (by simp) fun es hn hfind => ?_
  simp only [Fields.read_map, Fields.required, Fields.read_fits hn, hfind, List.lookup_cons,
    beq_self_eq_true, Option.join_some, Fields.fits_some]
  exact ⟨_, Decoder.map_text_ofStrings r.tags, rfl⟩

/-- The members of a request stay in the order of its fields, and are found all the same. -/
theorem record_present {α : Type} {name : String} {fields : Fields α} {a : α}
    {ms : List (String × Option Json)} (hn : (ms.map (·.1)).Nodup)
    (h : ∀ es : Entries Json, (es.map (·.1)).Nodup →
      (∀ k, Entries.find? k es = (ms.lookup k).join) →
      ∃ b, fields.read (.members es) 0 = .ok b ∧ b = a) :
    Fields.record name fields (present ms) = .ok a := by
  have hkeys := Json.keys_filterMap.nodup hn
  exact (Fields.record_object_of_nodup hkeys).2 (h _ hkeys fun k => Json.find?_filterMap hn)

theorem AddressRequest.decode_written (a : AddressRequest) : decode a.written = .ok a := by
  refine record_present (by simp) fun es hn hfind => ?_
  simp only [Fields.read_seq, Fields.read_map, textField, Fields.optional,
    Fields.read_fits hn, hfind, List.lookup_cons, beq_self_eq_true, String.reduceBEq,
    Option.join_some]
  exact ⟨_, .nonEmpty_text a.subnet, _, .nonEmpty_text a.address, rfl⟩

theorem orderless_textField {name : String} : (textField name).Orderless := .optional .text

theorem AddressRequest.orderless : Orderless decode :=
  .record (.seq (.map orderless_textField) orderless_textField)

theorem InterfaceRequest.decode_written (i : InterfaceRequest) : decode i.written = .ok i := by
  refine record_present (by simp) fun es hn hfind => ?_
  simp only [Fields.read_seq, Fields.read_map, textField, Fields.optional, Fields.nullable,
    Fields.read_fits hn, hfind, List.lookup_cons, beq_self_eq_true, String.reduceBEq,
    Option.join_some]
  exact ⟨_, .nonEmpty_text i.network,
    _, .map_some (Decoder.each_map AddressRequest.decode_written) (by rintro _ ⟨⟩) i.addresses, rfl⟩

theorem InterfaceRequest.orderless : Orderless decode :=
  .record (.seq (.map orderless_textField) (.nullable (.list AddressRequest.orderless)))

/-- As text a request keeps the order of its fields. -/
theorem ServerRequest.stable_written : Stable decode written := by
  rintro r ⟨v, h⟩
  obtain ⟨source, -, h⟩ := Fields.read_of_record h
  simp only [Fields.read_seq, Fields.read_map] at h
  obtain ⟨name, -, flavor, -, image, -, zone, -, volumeSizeGb, hsize, interfaces, -, sshKeys, -,
    useIpv6, -, groups, -, userData, -, tags, -, rfl⟩ := h
  have hsize : Readable (Decoder.nullable Decoder.u32) volumeSizeGb :=
    Fields.readable_of_nullable hsize
  refine record_present (by simp) fun es hn hfind => ?_
  simp only [Fields.read_seq, Fields.read_map, textField, Fields.required, Fields.optional,
    Fields.nullable, Fields.read_fits hn, hfind,
    List.lookup_cons, beq_self_eq_true, String.reduceBEq, Option.join_some, Fields.fits_some]
  exact ⟨_, rfl, _, rfl, _, rfl, _, .nonEmpty_text zone,
    _, .stable_some Decoder.stable_natural (by rintro _ ⟨⟩) hsize,
    _, .map_some (Decoder.each_map InterfaceRequest.decode_written) (by rintro _ ⟨⟩) interfaces,
    _, Decoder.list_text sshKeys, _, .flag_some useIpv6,
    _, .nonEmpty_list (Decoder.list_text groups), _, .nonEmpty_text userData,
    _, Decoder.map_text_ofStrings tags, rfl⟩

theorem ServerRequest.orderless : Orderless decode := by
  refine .record (.seq (.seq (.seq (.seq (.seq (.seq (.seq (.seq (.seq (.seq (.map ?_)
    ?_) ?_) ?_) ?_) ?_) ?_) ?_) ?_) ?_) ?_)
  · exact .single .text
  · exact .single .text
  · exact .single .text
  · exact orderless_textField
  · exact .nullable .natural
  · exact .nullable (.list InterfaceRequest.orderless)
  · exact .optional (.list .text)
  · exact .nullable .flag
  · exact .optional (.list .text)
  · exact orderless_textField
  · exact .optional .texts

theorem ServerRequest.stable : Stable decode toJson :=
  fun r hr => orderless _ _ (stable_written r hr)

end MachineProvider.Cloud
