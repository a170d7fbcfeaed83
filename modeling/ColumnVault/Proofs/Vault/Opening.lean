import ColumnVault.Proofs.Key.Ring
import ColumnVault.Vault.Basic

/-! What a vault holds from the moment it is opened: for each active id, and no other, the subkeys of
the master key that the source has for it. -/

namespace ColumnVault

namespace Vault

/-- The vault was opened on a source of keys, under some policy, and was not closed since. -/
def OpenOn (source : KeySource) (v : Vault) : Prop :=
  ∃ policy, Vault.new source policy = .ok v

/-- What is known of an open vault: its ring, which has exactly the active ids. -/
structure Opened (source : KeySource) (v : Vault) (ring : KeyRing) : Prop where
  keys : v.keys = some ring
  loadedFrom : ring.LoadedFrom source
  activeIds : v.activeIds = ring.ids
  default_mem : v.defaultId ∈ v.activeIds

/-- Loading the ids of a source in an empty ring gives each of them once. -/
theorem loaded_of_addAll {source : KeySource} {ring : KeyRing}
    (h : KeyRing.addAll source source.activeIds ⟨[]⟩ = .ok ring) :
    ring.LoadedFrom source ∧ ring.ids = source.activeIds.eraseDups :=
  (KeyRing.loadedFrom_empty source).addAll_eq_ok [] rfl h

theorem OpenOn.opened {source : KeySource} {v : Vault} (h : v.OpenOn source) :
    ∃ ring, v.Opened source ring := by
  obtain ⟨policy, h⟩ := h
  rw [Vault.new] at h
  split_ifs at h
  split at h
  · cases h
  · next ring hring =>
    split_ifs at h with hdefault
    cases h
    exact ⟨ring, rfl, (loaded_of_addAll hring).1, rfl, hdefault⟩

/-- A source with distinct valid ids, its default id among them, and with a key of 32 bytes for each opens,
whatever the policy. -/
theorem new_eq_ok {source : KeySource} (hnodup : source.activeIds.Nodup)
    (hdefault : source.defaultId ∈ source.activeIds)
    (hkeys : ∀ id ∈ source.activeIds, KeyId.Valid id ∧
      ∃ master, source.masterKey id = .ok master ∧ master.size = keySize) (policy : Policy) :
    ∃ ring, Vault.new source policy =
      .ok ⟨some ring, source.activeIds, source.defaultId, policy⟩ := by
  obtain ⟨ring, hring⟩ := (KeyRing.loadedFrom_empty source).exists_addAll_iff.2 fun id hid => by
    obtain ⟨hvalid, master, hmaster, hsize⟩ := hkeys id hid
    have hload := KeyRing.load_eq_ok_iff.2 ⟨master, hmaster, hsize, rfl⟩
    exact ⟨_, KeyRing.accept_eq_ok_iff.2 ⟨hvalid, hload⟩⟩
  have hids := (loaded_of_addAll hring).2
  rw [eraseDups_of_nodup hnodup] at hids
  refine ⟨ring, ?_⟩
  rw [Vault.new, if_neg (List.ne_nil_of_mem hdefault), hring]
  simp only [hids, if_pos hdefault]

namespace Opened

variable {source : KeySource} {v : Vault} {ring : KeyRing}

theorem ring_eq (h : v.Opened source ring) (shape : Shape) : v.ring shape = .value ring := by
  simp [Vault.ring, h.keys]

theorem valid (h : v.Opened source ring) {id : String} (hid : id ∈ v.activeIds) :
    KeyId.Valid id :=
  h.loadedFrom.valid id (h.activeIds ▸ hid)

/-- The keys of an id are found exactly if it is active, and are those of its master key. -/
theorem get_eq_ok_iff (h : v.Opened source ring) {id : String} {keys : Subkeys} :
    ring.get id = .ok keys ↔ id ∈ v.activeIds ∧
      ∃ master, source.masterKey id = .ok master ∧ master.size = keySize ∧
        keys = .ofMaster master := by
  rw [h.loadedFrom.get_eq_ok_iff, KeyRing.load_eq_ok_iff, h.activeIds]

theorem get_of_notMem (h : v.Opened source ring) {id : String} (hid : id ∉ v.activeIds) :
    ring.get id = .error (.keyNotFound id) :=
  h.loadedFrom.get_of_notMem (h.activeIds ▸ hid)

theorem exists_get (h : v.Opened source ring) {id : String} (hid : id ∈ v.activeIds) :
    ∃ keys, ring.get id = .ok keys :=
  h.loadedFrom.exists_get (h.activeIds ▸ hid)

/-- An active id has a master key, from which its subkeys are made. -/
theorem exists_master (h : v.Opened source ring) {id : String} (hid : id ∈ v.activeIds) :
    ∃ master, source.masterKey id = .ok master ∧ master.size = keySize ∧
      ring.get id = .ok (.ofMaster master) := by
  obtain ⟨keys, hkeys⟩ := h.exists_get hid
  obtain ⟨-, master, hmaster, hsize, rfl⟩ := h.get_eq_ok_iff.1 hkeys
  exact ⟨master, hmaster, hsize, hkeys⟩

/-- Vaults with the same master key for an id that is active in both have the same keys for it. -/
theorem get_eq_get (h : v.Opened source ring) {source' : KeySource} {v' : Vault} {ring' : KeyRing}
    (h' : v'.Opened source' ring') {id : String} (hid : id ∈ v.activeIds) (hid' : id ∈ v'.activeIds)
    (hmaster : source.masterKey id = source'.masterKey id) : ring.get id = ring'.get id := by
  obtain ⟨master, hmaster₁, -, hkeys⟩ := h.exists_master hid
  obtain ⟨master', hmaster₂, -, hkeys'⟩ := h'.exists_master hid'
  rw [hmaster₁, hmaster₂] at hmaster
  cases hmaster
  rw [hkeys, hkeys']

end Opened

/-! ### Two ids of one master key -/

namespace Twins

def master : ByteArray :=
  Bytes.replicate keySize 7

/-- A source where both ids stand for one master key. -/
def source (defaultId : String) : KeySource :=
  (((KeyList.empty.insert "old" master).insert "new" master).choose defaultId).toSource

/-- A vault on the two ids. -/
def vault (defaultId : String) (policy : Policy) : Vault :=
  ⟨some ⟨[("old", .ofMaster master), ("new", .ofMaster master)]⟩, ["old", "new"], defaultId, policy⟩

theorem masterKey_eq {id defaultId : String} (h : id ∈ ["old", "new"]) :
    (source defaultId).masterKey id = .ok master := by
  simp only [List.mem_cons, List.not_mem_nil, or_false] at h
  rcases h with rfl | rfl <;> rfl

theorem openOn {defaultId : String} (h : defaultId ∈ ["old", "new"]) (policy : Policy) :
    (vault defaultId policy).OpenOn (source defaultId) := by
  have hids : (source defaultId).activeIds = ["old", "new"] := rfl
  have hdefault : (source defaultId).defaultId = defaultId := rfl
  have hsize : master.size = keySize := by decide
  have hload : ∀ id ∈ ["old", "new"],
      KeyRing.load (source defaultId) id = .ok (.ofMaster master) := fun id hid =>
    KeyRing.load_eq_ok_iff.2 ⟨master, masterKey_eq hid, hsize, rfl⟩
  have hvalid : ∀ id ∈ ["old", "new"], KeyId.check id = .ok () := by decide
  refine ⟨policy, ?_⟩
  simp only [List.forall_mem_cons, List.not_mem_nil, false_imp_iff, implies_true, and_true]
    at hload hvalid
  simp [Vault.new, hids, hdefault, KeyRing.addAll, hload, hvalid, KeyRing.ids, vault, h]

/-- A policy under which small values are packed too. -/
def packing : Policy :=
  Policy.initial.withThreshold 16

/-- A text whose frame is small. -/
def text : String := "aaaaaaaaaaaaaaaaaaaaaaaa"

/-- The source from which the older id was taken away. -/
def remaining : KeySource :=
  (KeyList.empty.insert "new" master).toSource

def remainingVault : Vault :=
  ⟨some ⟨[("new", .ofMaster master)]⟩, ["new"], "new", .initial⟩

theorem openOn_remaining : remainingVault.OpenOn remaining := by
  have hids : remaining.activeIds = ["new"] := rfl
  have hdefault : remaining.defaultId = "new" := rfl
  have hload : KeyRing.load remaining "new" = .ok (.ofMaster master) :=
    KeyRing.load_eq_ok_iff.2 ⟨master, rfl, by decide, rfl⟩
  have hvalid : KeyId.check "new" = .ok () := by decide
  refine ⟨.initial, ?_⟩
  simp [Vault.new, hids, hdefault, KeyRing.addAll, hload, hvalid, KeyRing.ids, remainingVault]

end Twins

end Vault

end ColumnVault
