import ColumnVault.Key.Ring
import ColumnVault.Proofs.Sequencing
import Mathlib.Data.List.Induction

/-! Loading a ring. Ids are accepted one after another, each with the subkeys of its master key, and the
first that cannot be accepted ends the loading. The ring then has each id once, at the place where it came
first, and it gives exactly these ids the keys that the source has for them. -/

namespace ColumnVault

/-! ### The first of each id -/

section FirstPlaces
variable {α : Type} [BEq α] [LawfulBEq α]

theorem eraseDups_concat (l : List α) (a : α) :
    (l ++ [a]).eraseDups = if a ∈ l then l.eraseDups else l.eraseDups ++ [a] := by
  rw [List.eraseDups_append]
  by_cases h : a ∈ l <;> simp [List.removeAll, List.eraseDups_cons, h]

theorem nodup_eraseDups (l : List α) : l.eraseDups.Nodup := by
  induction l using List.reverseRecOn with
  | nil => exact List.nodup_nil
  | append_singleton l a ih =>
    rw [eraseDups_concat]
    split_ifs with h
    · exact ih
    · refine List.nodup_append.2 ⟨ih, List.pairwise_singleton _ a, fun b hb c hc => ?_⟩
      rw [List.mem_singleton.1 hc]
      exact fun heq => h (heq ▸ List.mem_eraseDups.1 hb)

theorem eraseDups_of_nodup {l : List α} (h : l.Nodup) : l.eraseDups = l := by
  induction l using List.reverseRecOn with
  | nil => rfl
  | append_singleton l a ih =>
    obtain ⟨hl, -, ha⟩ := List.nodup_append.1 h
    rw [eraseDups_concat, if_neg fun hmem => ha a hmem a List.mem_cons_self rfl, ih hl]

end FirstPlaces

/-! ### One key -/

/-- The two keys of a master key. -/
def Subkeys.ofMaster (master : ByteArray) : Subkeys :=
  ⟨Crypto.Hkdf.derive master encryptionPurpose.toUTF8, Crypto.Hkdf.derive master indexPurpose.toUTF8⟩

theorem Subkeys.derive_eq_ok_iff {master : ByteArray} {keys : Subkeys} :
    derive master = .ok keys ↔ master.size = keySize ∧ keys = ofMaster master := by
  rw [derive, ofMaster]
  split_ifs with h
  · simp only [h, true_and, Except.ok.injEq]
    exact eq_comm
  · simp [h]

namespace KeyRing

variable {source : KeySource} {r r' : KeyRing} {id : String} {keys : Subkeys} {list : List String}

theorem load_eq_ok_iff : load source id = .ok keys ↔
    ∃ master, source.masterKey id = .ok master ∧ master.size = keySize ∧ keys = .ofMaster master := by
  rw [load]
  split
  · next master h => simp [h, Subkeys.derive_eq_ok_iff]
  · next h => simp [h]
  · next h => simp [h]

/-- The subkeys with which an id is accepted into a ring. -/
def accept (source : KeySource) (id : String) : Except Error Subkeys :=
  match KeyId.check id with
  | .error fault => .error (.invalidKeyId fault)
  | .ok () => load source id

theorem accept_eq_ok_iff :
    accept source id = .ok keys ↔ KeyId.Valid id ∧ load source id = .ok keys := by
  rw [accept, ← KeyId.check_eq_ok_iff]
  cases KeyId.check id <;> simp

/-- All ids of the ring are key ids, with the keys that a source has for them. -/
structure LoadedFrom (source : KeySource) (r : KeyRing) : Prop where
  valid : ∀ id ∈ r.ids, KeyId.Valid id
  loaded : ∀ e ∈ r.entries, load source e.1 = .ok e.2

theorem loadedFrom_empty (source : KeySource) : LoadedFrom source ⟨[]⟩ :=
  ⟨by simp [ids], by simp⟩

/-- The ring with the keys of one more id, unless it has the id already. -/
def withKey (r : KeyRing) (id : String) (keys : Subkeys) : KeyRing :=
  if id ∈ r.ids then r else ⟨r.entries ++ [(id, keys)]⟩

theorem ids_withKey (r : KeyRing) (id : String) (keys : Subkeys) :
    (r.withKey id keys).ids = if id ∈ r.ids then r.ids else r.ids ++ [id] := by
  rw [withKey]
  split_ifs
  · rfl
  · rw [ids, List.map_append]
    rfl

theorem LoadedFrom.withKey (h : r.LoadedFrom source) (hkeys : accept source id = .ok keys) :
    (r.withKey id keys).LoadedFrom source := by
  obtain ⟨hid, hload⟩ := accept_eq_ok_iff.1 hkeys
  rw [KeyRing.withKey]
  split_ifs
  · exact h
  constructor
  · intro i hi
    simp only [ids, List.map_append, List.mem_append, List.map_cons, List.map_nil,
      List.mem_singleton] at hi
    rcases hi with hi | rfl
    · exact h.valid i hi
    · exact hid
  · intro e he
    rcases List.mem_append.1 he with he | he
    · exact h.loaded e he
    · rw [List.mem_singleton.1 he]
      exact hload

/-! ### The loop -/

/-- One step. An id that the ring has is not loaded again, and would be accepted if it were. -/
theorem LoadedFrom.addAll_cons (h : r.LoadedFrom source) (id : String) (rest : List String) :
    addAll source (id :: rest) r =
      accept source id >>= fun keys => addAll source rest (r.withKey id keys) := by
  rw [addAll, accept]
  cases hcheck : KeyId.check id with
  | error fault => rfl
  | ok =>
    dsimp only
    by_cases hmem : id ∈ r.ids
    · obtain ⟨⟨_, keys⟩, he, rfl⟩ := List.mem_map.1 hmem
      rw [if_pos hmem, h.loaded _ he, ok_bind, KeyRing.withKey, if_pos hmem]
    · rw [if_neg hmem]
      cases load source id with
      | error err => rfl
      | ok keys => rw [ok_bind, KeyRing.withKey, if_neg hmem]

/-- A ring over the ids of one list, each where it came first, becomes one over the ids of both. The
induction is on the ids to come: each step moves one of them to those that were seen. -/
theorem LoadedFrom.addAll_eq_ok (h : r.LoadedFrom source) (seen : List String)
    (hids : r.ids = seen.eraseDups) (hr : addAll source list r = .ok r') :
    r'.LoadedFrom source ∧ r'.ids = (seen ++ list).eraseDups := by
  induction list generalizing r seen with
  | nil =>
    cases hr
    rw [List.append_nil]
    exact ⟨h, hids⟩
  | cons id rest ih =>
    rw [h.addAll_cons] at hr
    obtain ⟨keys, hkeys, hr⟩ := bind_eq_ok hr
    have hids' : (r.withKey id keys).ids = (seen ++ [id]).eraseDups := by
      rw [ids_withKey, eraseDups_concat, hids]
      simp only [List.mem_eraseDups]
    obtain ⟨h', hids'⟩ := ih (h.withKey hkeys) _ hids' hr
    rw [List.append_assoc] at hids'
    exact ⟨h', hids'⟩

/-- Loading ends at the first id that is not accepted, with its error. -/
theorem LoadedFrom.addAll_eq_error_iff (h : r.LoadedFrom source) {err : Error} :
    addAll source list r = .error err ↔ ∃ before id after, list = before ++ id :: after ∧
      (∀ i ∈ before, ∃ keys, accept source i = .ok keys) ∧ accept source id = .error err := by
  induction list generalizing r with
  | nil => simp [addAll]
  | cons id rest ih =>
    rw [h.addAll_cons]
    cases hid : accept source id with
    | error err' =>
      rw [error_bind]
      constructor
      · rintro ⟨⟩
        exact ⟨[], id, rest, rfl, by simp, hid⟩
      · rintro ⟨before, id', after, heq, hbefore, hfault⟩
        -- the faulty id is the first one, since nothing before it can be
        rcases List.cons_eq_append_iff.1 heq with ⟨rfl, heq⟩ | ⟨more, rfl, -⟩
        · cases heq
          cases hid.symm.trans hfault
          rfl
        · obtain ⟨keys, hkeys⟩ := hbefore id List.mem_cons_self
          cases hid.symm.trans hkeys
    | ok keys =>
      rw [ok_bind, ih (h.withKey hid)]
      constructor
      · rintro ⟨before, id', after, rfl, hbefore, hfault⟩
        exact ⟨id :: before, id', after, rfl, List.forall_mem_cons.2 ⟨⟨keys, hid⟩, hbefore⟩, hfault⟩
      · rintro ⟨before, id', after, heq, hbefore, hfault⟩
        rcases List.cons_eq_append_iff.1 heq with ⟨rfl, heq⟩ | ⟨more, rfl, rfl⟩
        · cases heq
          cases hid.symm.trans hfault
        · exact ⟨more, id', after, rfl, (List.forall_mem_cons.1 hbefore).2, hfault⟩

theorem LoadedFrom.exists_addAll_iff (h : r.LoadedFrom source) :
    (∃ r', addAll source list r = .ok r') ↔ ∀ id ∈ list, ∃ keys, accept source id = .ok keys := by
  induction list generalizing r with
  | nil => simp [addAll]
  | cons id rest ih =>
    rw [h.addAll_cons, List.forall_mem_cons]
    cases hid : accept source id with
    | error err => simp
    | ok keys => simpa using ih (h.withKey hid)

/-! ### Finding keys -/

theorem get_eq_ok_iff_lookup : r.get id = .ok keys ↔ r.entries.lookup id = some keys := by
  rw [get]
  cases r.entries.lookup id <;> simp

theorem get_eq_error {err : Error} (h : r.get id = .error err) : err = .keyNotFound id := by
  rw [get] at h
  split at h <;> cases h
  rfl

/-- Exactly the ids of a ring are found in it, with the keys that the source has for them. -/
theorem LoadedFrom.get_eq_ok_iff (h : r.LoadedFrom source) :
    r.get id = .ok keys ↔ id ∈ r.ids ∧ load source id = .ok keys := by
  rw [get_eq_ok_iff_lookup]
  constructor
  · intro hl
    obtain ⟨l₁, l₂, heq, -⟩ := List.lookup_eq_some_iff.1 hl
    have hmem : (id, keys) ∈ r.entries := by simp [heq]
    exact ⟨List.mem_map.2 ⟨_, hmem, rfl⟩, h.loaded _ hmem⟩
  · rintro ⟨hid, hload⟩
    cases hl : r.entries.lookup id with
    | none =>
      obtain ⟨e, he, rfl⟩ := List.mem_map.1 hid
      have := List.lookup_eq_none_iff.1 hl e he
      simp at this
    | some keys' =>
      obtain ⟨l₁, l₂, heq, -⟩ := List.lookup_eq_some_iff.1 hl
      have hmem : (id, keys') ∈ r.entries := by simp [heq]
      have := h.loaded _ hmem
      rw [hload] at this
      rw [Except.ok.inj this]

theorem LoadedFrom.get_of_notMem (h : r.LoadedFrom source) (hid : id ∉ r.ids) :
    r.get id = .error (.keyNotFound id) := by
  cases hget : r.get id with
  | error err => rw [get_eq_error hget]
  | ok keys => exact absurd (h.get_eq_ok_iff.1 hget).1 hid

theorem LoadedFrom.exists_get (h : r.LoadedFrom source) (hid : id ∈ r.ids) :
    ∃ keys, r.get id = .ok keys := by
  obtain ⟨e, he, rfl⟩ := List.mem_map.1 hid
  exact ⟨e.2, h.get_eq_ok_iff.2 ⟨hid, h.loaded e he⟩⟩

end KeyRing

end ColumnVault
