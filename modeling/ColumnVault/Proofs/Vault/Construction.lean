import ColumnVault.Proofs.Text.Utf8
import ColumnVault.Proofs.Vault.Opening

/-! Opening a vault on any source of keys: when it succeeds, what the vault then holds, and which of several
faults is told. The ids of the source are looked at one after another, and the default id only when all of
them are in order. -/

namespace ColumnVault

namespace KeySource

/-- An id is a key id, and the source has a master key of full size for it. -/
structure Supplies (source : KeySource) (id : String) : Prop where
  valid : 1 ≤ id.toUTF8.size ∧ id.toUTF8.size ≤ 255
  master : ∃ master, source.masterKey id = .ok master ∧ master.size = 32

/-- Why an id cannot be active. Its master key is asked for only if it is a key id. -/
inductive Faulty (source : KeySource) (id : String) : Error → Prop
  | empty (size : id.toUTF8.size = 0) : Faulty source id (.invalidKeyId .empty)
  | tooLong (size : 255 < id.toUTF8.size) :
    Faulty source id (.invalidKeyId (.tooLong id.toUTF8.size))
  | notFound {named : String} (valid : KeyId.Valid id)
    (key : source.masterKey id = .error (.keyNotFound named)) : Faulty source id (.keyNotFound named)
  | unavailable {err : KeySourceError} (valid : KeyId.Valid id) (key : source.masterKey id = .error err)
    (other : ∀ named, err ≠ .keyNotFound named) : Faulty source id (.keySource err)
  | wrongSize {master : ByteArray} (valid : KeyId.Valid id) (key : source.masterKey id = .ok master)
    (size : master.size ≠ 32) : Faulty source id (.invalidKeySize 32 master.size)

/-- There are ids, all of them can be active, and the default id is one of them. -/
structure Complete (source : KeySource) : Prop where
  ne_nil : source.activeIds ≠ []
  supplies : ∀ id ∈ source.activeIds, source.Supplies id
  default_mem : source.defaultId ∈ source.activeIds

/-- The one error that is told of a source: that it has no ids, or what is wrong with the first id that
cannot be active, or that the default id is missing where all ids can be active. -/
inductive Refused (source : KeySource) : Error → Prop
  | noKeys (ids : source.activeIds = []) : Refused source .noKeysConfigured
  | firstFault {before after : List String} {id : String} {err : Error}
    (ids : source.activeIds = before ++ id :: after) (supplies : ∀ i ∈ before, source.Supplies i)
    (fault : source.Faulty id err) : Refused source err
  | noDefault (ne_nil : source.activeIds ≠ []) (supplies : ∀ id ∈ source.activeIds, source.Supplies id)
    (missing : source.defaultId ∉ source.activeIds) :
    Refused source (.defaultKeyNotFound source.defaultId)

end KeySource

/-! ### One id -/

namespace KeyId

theorem check_eq_error_iff {id : String} {fault : Fault} : check id = .error fault ↔
    id.toUTF8.size = 0 ∧ fault = .empty ∨ 255 < id.toUTF8.size ∧ fault = .tooLong id.toUTF8.size := by
  rw [check, maxSize, Text.Utf8.size_toUTF8]
  split_ifs with hzero hlong
  · simp [hzero, eq_comm]
  · simp [hzero, hlong, eq_comm]
  · simp [hzero, hlong]

end KeyId

namespace KeyRing

variable {source : KeySource} {id : String}

theorem exists_accept_iff : (∃ keys, accept source id = .ok keys) ↔ source.Supplies id := by
  constructor
  · rintro ⟨keys, hkeys⟩
    obtain ⟨hid, hload⟩ := accept_eq_ok_iff.1 hkeys
    obtain ⟨master, hmaster, hsize, -⟩ := load_eq_ok_iff.1 hload
    exact ⟨hid, master, hmaster, hsize⟩
  · rintro ⟨hid, master, hmaster, hsize⟩
    exact ⟨_, accept_eq_ok_iff.2 ⟨hid, load_eq_ok_iff.2 ⟨master, hmaster, hsize, rfl⟩⟩⟩

theorem accept_of_valid (hid : KeyId.Valid id) : accept source id = load source id := by
  rw [accept, KeyId.check_eq_ok_iff.2 hid]

theorem faulty_of_load (hid : KeyId.Valid id) {err : Error} (h : load source id = .error err) :
    source.Faulty id err := by
  rw [load] at h
  split at h
  · next master hmaster =>
    rw [Subkeys.derive] at h
    split_ifs at h with hsize
    cases h
    exact .wrongSize hid hmaster hsize
  · next named hmaster =>
    cases h
    exact .notFound hid hmaster
  · next fault hother hmaster =>
    cases h
    exact .unavailable hid hmaster fun named => hother named

theorem accept_eq_error_iff {err : Error} : accept source id = .error err ↔ source.Faulty id err := by
  constructor
  · intro h
    rw [accept] at h
    split at h
    · next fault hcheck =>
      cases h
      obtain ⟨hsize, rfl⟩ | ⟨hsize, rfl⟩ := KeyId.check_eq_error_iff.1 hcheck
      · exact .empty hsize
      · exact .tooLong hsize
    · next hcheck => exact faulty_of_load (KeyId.check_eq_ok_iff.1 hcheck) h
  · intro h
    cases h with
    | empty hsize => rw [accept, KeyId.check_eq_error_iff.2 (.inl ⟨hsize, rfl⟩)]
    | tooLong hsize => rw [accept, KeyId.check_eq_error_iff.2 (.inr ⟨hsize, rfl⟩)]
    | notFound hid hkey => rw [accept_of_valid hid, load, hkey]
    | unavailable hid hkey hother =>
      rw [accept_of_valid hid, load, hkey]
      split
      · next h => cases h
      · next named h => exact absurd (Except.error.inj h) (hother named)
      · next h => cases h; rfl
    | wrongSize hid hkey hsize =>
      rw [accept_of_valid hid, load, hkey]
      exact if_neg hsize

end KeyRing

/-! ### All ids -/

namespace Vault

variable {source : KeySource}

theorem exists_ring_iff : (∃ ring, KeyRing.addAll source source.activeIds ⟨[]⟩ = .ok ring) ↔
    ∀ id ∈ source.activeIds, source.Supplies id := by
  simp only [← KeyRing.exists_accept_iff]
  exact (KeyRing.loadedFrom_empty source).exists_addAll_iff

theorem addAll_eq_error_iff {err : Error} :
    KeyRing.addAll source source.activeIds ⟨[]⟩ = .error err ↔
      ∃ before id after, source.activeIds = before ++ id :: after ∧
        (∀ i ∈ before, source.Supplies i) ∧ source.Faulty id err := by
  simp only [← KeyRing.exists_accept_iff, ← KeyRing.accept_eq_error_iff]
  exact (KeyRing.loadedFrom_empty source).addAll_eq_error_iff

/-- What a vault is when it was opened on a source under a policy. -/
structure OpenedAs (source : KeySource) (policy : Policy) (v : Vault) (ring : KeyRing) : Prop where
  keys : v.keys = some ring
  activeIds : v.activeIds = source.activeIds.eraseDups
  defaultId : v.defaultId = source.defaultId
  policy : v.policy = policy
  active : ∀ id ∈ v.activeIds, ∃ master keys, source.masterKey id = .ok master ∧
    Subkeys.derive master = .ok keys ∧ ring.get id = .ok keys
  others : ∀ id ∉ v.activeIds, ring.get id = .error (.keyNotFound id)

theorem openedAs_of_new {policy : Policy} {v : Vault} (h : Vault.new source policy = .ok v) :
    ∃ ring, OpenedAs source policy v ring := by
  rw [Vault.new] at h
  split_ifs at h
  split at h
  · cases h
  next ring hring =>
  split_ifs at h with hdefault
  cases h
  obtain ⟨hloaded, hids⟩ := loaded_of_addAll hring
  refine ⟨ring, rfl, hids, rfl, rfl, fun id hid => ?_, fun id => hloaded.get_of_notMem⟩
  obtain ⟨keys, hkeys⟩ := hloaded.exists_get hid
  obtain ⟨-, hload⟩ := hloaded.get_eq_ok_iff.1 hkeys
  obtain ⟨master, hmaster, hsize, heq⟩ := KeyRing.load_eq_ok_iff.1 hload
  exact ⟨master, keys, hmaster, Subkeys.derive_eq_ok_iff.2 ⟨hsize, heq⟩, hkeys⟩

theorem OpenOn.nodup_activeIds {v : Vault} (h : v.OpenOn source) : v.activeIds.Nodup := by
  obtain ⟨policy, hv⟩ := h
  obtain ⟨ring, hopened⟩ := openedAs_of_new hv
  rw [hopened.activeIds]
  exact nodup_eraseDups _

theorem new_of_complete (h : source.Complete) (policy : Policy) :
    ∃ v, Vault.new source policy = .ok v := by
  obtain ⟨ring, hring⟩ := exists_ring_iff.2 h.supplies
  have hdefault : source.defaultId ∈ ring.ids := by
    rw [(loaded_of_addAll hring).2, List.mem_eraseDups]
    exact h.default_mem
  rw [Vault.new, if_neg h.ne_nil, hring]
  simp only [if_pos hdefault]
  exact ⟨_, rfl⟩

theorem new_of_refused {err : Error} (h : source.Refused err) (policy : Policy) :
    Vault.new source policy = .error err := by
  cases h with
  | noKeys hnil => rw [Vault.new, if_pos hnil]
  | firstFault hids hsupplies hfault =>
    have hring := addAll_eq_error_iff.2 ⟨_, _, _, hids, hsupplies, hfault⟩
    have hne : source.activeIds ≠ [] := by simp [hids]
    rw [Vault.new, if_neg hne, hring]
  | noDefault hne hsupplies hmissing =>
    obtain ⟨ring, hring⟩ := exists_ring_iff.2 hsupplies
    have hdefault : source.defaultId ∉ ring.ids := by
      rw [(loaded_of_addAll hring).2, List.mem_eraseDups]
      exact hmissing
    rw [Vault.new, if_neg hne, hring]
    simp only [if_neg hdefault]

/-- Every source is complete or is refused. -/
theorem complete_or_refused (source : KeySource) : source.Complete ∨ ∃ err, source.Refused err := by
  by_cases hne : source.activeIds = []
  · exact .inr ⟨_, .noKeys hne⟩
  cases hring : KeyRing.addAll source source.activeIds ⟨[]⟩ with
  | error err =>
    obtain ⟨before, id, after, hids, hsupplies, hfault⟩ := addAll_eq_error_iff.1 hring
    exact .inr ⟨err, .firstFault hids hsupplies hfault⟩
  | ok ring =>
    have hsupplies := exists_ring_iff.1 ⟨ring, hring⟩
    by_cases hdefault : source.defaultId ∈ source.activeIds
    · exact .inl ⟨hne, hsupplies, hdefault⟩
    · exact .inr ⟨_, .noDefault hne hsupplies hdefault⟩

/-- Whatever a source answers, a vault opens on it exactly if it is complete. The vault then has the ids of
the source, each once and where it came first, and finds for these and no others the keys that come from
the master key of the source. Otherwise the error is the one for which the source is refused. -/
theorem new_opens_iff_complete (source : KeySource) (policy : Policy) :
    ((∃ v, Vault.new source policy = .ok v) ↔ source.Complete) ∧
      (∀ v, Vault.new source policy = .ok v → ∃ ring, OpenedAs source policy v ring) ∧
      ∀ err, Vault.new source policy = .error err ↔ source.Refused err := by
  refine ⟨⟨?_, fun h => new_of_complete h policy⟩, fun v => openedAs_of_new,
    fun err => ⟨?_, fun h => new_of_refused h policy⟩⟩
  · rintro ⟨v, hv⟩
    rcases complete_or_refused source with h | ⟨err, h⟩
    · exact h
    · cases hv.symm.trans (new_of_refused h policy)
  · intro herr
    rcases complete_or_refused source with h | ⟨err', h⟩
    · obtain ⟨v, hv⟩ := new_of_complete h policy
      cases hv.symm.trans herr
    · cases herr.symm.trans (new_of_refused h policy)
      exact h

/-- Three faults at once: the first id has no key, the second is none, and the default id is not listed. The
error of the first is told, with the id that the source names in it. -/
example : Vault.new ⟨["a", ""], "b", fun _ => .error (.keyNotFound "z")⟩ .initial =
    .error (.keyNotFound "z") := by
  decide

end Vault

end ColumnVault
