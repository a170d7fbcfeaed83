import ColumnVault.Proofs.Key.Mirror
import ColumnVault.Proofs.Key.Reload
import ColumnVault.Proofs.Text.ByteOrder
import ColumnVault.Proofs.Vault.Opening
import Mathlib.Data.String.Basic

/-! A vault opens on every value for a directory of keys. The keys of such a value are kept with distinct
ids in their order, and each is of the size of a key; reading a directory and making one begin so, and
no change, successful or not, ends it. -/

namespace ColumnVault

/-! ### Keys in the order of their ids -/

namespace Assoc

variable {β : Type} {a : String} {b : β} {l : List (String × β)}

theorem mem_putSorted {e : String × β} (h : e ∈ putSorted b a l) : e = (a, b) ∨ e ∈ l := by
  induction l with
  | nil => exact .inl (List.mem_singleton.1 h)
  | cons x rest ih =>
    rw [putSorted] at h
    split_ifs at h
    · exact (List.mem_cons.1 h).imp_right (List.mem_cons_of_mem x)
    · exact List.mem_cons.1 h
    · rcases List.mem_cons.1 h with rfl | h
      · exact .inr List.mem_cons_self
      · exact (ih h).imp_right (List.mem_cons_of_mem x)

/-- A value that is put at a key leaves the keys in order, each there once. -/
theorem pairwise_putSorted (h : l.Pairwise fun x y => x.1 < y.1) :
    (putSorted b a l).Pairwise fun x y => x.1 < y.1 := by
  induction l with
  | nil => exact List.pairwise_singleton _ _
  | cons x rest ih =>
    obtain ⟨hx, hrest⟩ := List.pairwise_cons.1 h
    rw [putSorted]
    split_ifs with heq hlt
    · subst heq
      exact List.pairwise_cons.2 ⟨hx, hrest⟩
    · refine List.pairwise_cons.2 ⟨fun y hy => ?_, h⟩
      rcases List.mem_cons.1 hy with rfl | hy
      · exact hlt
      · exact lt_trans hlt (hx y hy)
    · refine List.pairwise_cons.2 ⟨fun y hy => ?_, ih hrest⟩
      rcases mem_putSorted hy with rfl | hy
      · exact lt_of_le_of_ne (not_lt.1 hlt) heq
      · exact hx y hy

end Assoc

namespace KeyDirectory

open FileTree Text

variable {t t' : FileTree} {dir key : ByteArray} {id : String} {d : KeyDirectory}
  {keys keys' : List (String × ByteArray)} {names : List ByteArray}

/-- Keys in the order of their ids, each id once, of which each can be that of a file, and each key of the
size of one. -/
structure WellKept (keys : List (String × ByteArray)) : Prop where
  ordered : keys.Pairwise fun x y => x.1 < y.1
  checked : ∀ e ∈ keys, checkId e.1 = .ok ()
  size : ∀ e ∈ keys, e.2.size = keySize

theorem wellKept_nil : WellKept [] :=
  ⟨.nil, nofun, nofun⟩

theorem WellKept.put (h : WellKept keys) (hid : checkId id = .ok ()) (hkey : key.size = keySize) :
    WellKept (Assoc.putSorted key id keys) := by
  refine ⟨Assoc.pairwise_putSorted h.ordered, fun e he => ?_, fun e he => ?_⟩ <;>
    rcases Assoc.mem_putSorted he with rfl | he
  · exact hid
  · exact h.checked e he
  · exact hkey
  · exact h.size e he

theorem wellKept_of_readKeys {p : Place} (henters : t.Enters dir p) (h : WellKept keys)
    (hread : readKeys t dir names keys = .ok keys') : WellKept keys' := by
  induction names generalizing keys with
  | nil =>
    cases hread
    exact h
  | cons name rest ih =>
    rw [readKeys] at hread
    split_ifs at hread with hname
    · obtain ⟨⟨id, key⟩, hkey, hrest⟩ := bind_eq_ok hread
      obtain ⟨-, hcheck, -, -, hsize⟩ := (readKey_eq_ok_iff henters hname).1 hkey
      exact ih (h.put hcheck hsize) hrest
    · exact ih h hread

/-! ### Values -/

/-- A value is well kept if its keys are, and the current one is among them. -/
structure Kept (d : KeyDirectory) : Prop where
  keys : WellKept d.keys
  current : HasCurrent d

theorem kept_of_opening {o : Opening} (h : o.run t dir = (.ok d, t')) : Kept d := by
  obtain ⟨hcurrent, -⟩ := mirrors_of_opening h
  refine ⟨?_, hcurrent⟩
  cases o with
  | load =>
    obtain ⟨-, ⟨p, henters, hkeys⟩, -⟩ := readKeys_of_load (Prod.mk.inj h).1
    exact wellKept_of_readKeys henters wellKept_nil hkeys
  | init id entropy =>
    obtain ⟨s, -, ⟨e, ⟨⟩, -⟩ | ⟨key, s', hgen, ⟨e, ⟨⟩, -⟩ | ⟨-, ⟨⟩⟩⟩⟩ := init_cases h
    exact wellKept_nil.put hgen.checked hgen.size

theorem Kept.change (h : Kept d) (t : FileTree) (c : Change) : Kept (change (t, d) c).2 := by
  refine ⟨?_, HasCurrent.change (s := (t, d)) h.current c⟩
  obtain hsame | ⟨id, key, hgen, hd⟩ | ⟨id, -, -, hd⟩ := change_cases (t, d) c
  · rw [hsame]
    exact h.keys
  · rw [hd]
    exact h.keys.put hgen.checked hgen.size
  · rw [hd]
    exact h.keys

/-- A value that was read from a directory or made with it, and was then changed any number of times. What
the files are at each change is left open: others may have changed them too. -/
inductive Reached : KeyDirectory → Prop
  | opened {o : Opening} {t t' : FileTree} {dir : ByteArray} {d : KeyDirectory}
    (run : o.run t dir = (.ok d, t')) : Reached d
  | changed {d : KeyDirectory} (before : Reached d) (t : FileTree) (c : Change) :
    Reached (change (t, d) c).2

theorem Reached.changes {s : FileTree × KeyDirectory} (h : Reached s.2) (changes : List Change) :
    Reached (changes.foldl change s).2 := by
  induction changes generalizing s with
  | nil => exact h
  | cons c rest ih => exact ih (h.changed s.1 c)

theorem Reached.kept (h : Reached d) : Kept d := by
  induction h with
  | opened run => exact kept_of_opening run
  | changed _ t c ih => exact ih.change t c

/-! ### Opening a vault -/

theorem mem_of_masterKey (hkey : d.masterKey id = .ok key) : (id, key) ∈ d.keys := by
  obtain ⟨before, after, heq, -⟩ := List.lookup_eq_some_iff.1 (masterKey_eq_ok_iff.1 hkey)
  rw [heq]
  exact List.mem_append_right _ List.mem_cons_self

/-- The active ids are those that have a key. -/
theorem Kept.mem_activeIds_iff (h : Kept d) : id ∈ d.activeIds ↔ ∃ key, d.masterKey id = .ok key := by
  rw [KeyDirectory.mem_activeIds_iff h.current, Option.isSome_iff_exists]
  simp only [masterKey_eq_ok_iff]

theorem Kept.exists_masterKey (h : Kept d) (hid : id ∈ d.activeIds) :
    KeyId.Valid id ∧ ∃ key, d.masterKey id = .ok key ∧ key.size = keySize := by
  obtain ⟨key, hkey⟩ := h.mem_activeIds_iff.1 hid
  have hmem := mem_of_masterKey hkey
  exact ⟨(checkId_eq_ok_iff.1 (h.keys.checked _ hmem)).1, key, hkey, h.keys.size _ hmem⟩

/-- The active ids but for the current one, in their order. -/
theorem Kept.pairwise_others (h : Kept d) :
    ((d.keys.map (·.1)).filter (· ≠ d.current)).Pairwise (· < ·) :=
  (List.pairwise_map.2 h.keys.ordered).filter _

theorem Kept.nodup_activeIds (h : Kept d) : d.activeIds.Nodup := by
  refine List.nodup_cons.2 ⟨fun hmem => ?_, h.pairwise_others.imp ne_of_lt⟩
  exact of_decide_eq_true (List.mem_filter.1 hmem).2 rfl

theorem Kept.new_eq_ok (h : Kept d) (policy : Policy) :
    ∃ ring, Vault.new d.toSource policy = .ok ⟨some ring, d.activeIds, d.current, policy⟩ := by
  have hnodup : d.toSource.activeIds.Nodup := h.nodup_activeIds
  exact Vault.new_eq_ok hnodup List.mem_cons_self (fun _ => h.exists_masterKey) policy

/-- After any changes, the current key of a value is one of its keys; each of them has a valid id and 32
bytes; the active ids are the current one and then all others in the order of their bytes. So a vault
opens on the value under every policy, with this default id and these active ids. -/
theorem vault_opens_on_reached (h : Reached d) :
    (∃ key, d.masterKey d.current = .ok key) ∧
    (∀ e ∈ d.keys, KeyId.check e.1 = .ok () ∧ e.2.size = 32) ∧
    (∃ others, d.activeIds = d.current :: others ∧
      others.Pairwise (fun id other => id.toUTF8.data.toList < other.toUTF8.data.toList) ∧
      ∀ id, id ∈ others ↔ id ≠ d.current ∧ ∃ key, d.masterKey id = .ok key) ∧
    ∀ policy, ∃ v, Vault.new d.toSource policy = .ok v ∧ v.defaultId = d.current ∧
      v.activeIds = d.activeIds ∧ v.policy = policy := by
  have h := h.kept
  obtain ⟨-, key, hkey, -⟩ := h.exists_masterKey List.mem_cons_self
  refine ⟨⟨key, hkey⟩, fun e he => ?_, ⟨_, rfl, ?_, fun id => ?_⟩, fun policy => ?_⟩
  · exact ⟨KeyId.check_eq_ok_iff.2 (checkId_eq_ok_iff.1 (h.keys.checked e he)).1, h.keys.size e he⟩
  · exact h.pairwise_others.imp Utf8.toUTF8_lt
  · constructor
    · intro hid
      obtain ⟨-, key, hkey, -⟩ := h.exists_masterKey (List.mem_cons_of_mem _ hid)
      exact ⟨of_decide_eq_true (List.mem_filter.1 hid).2, key, hkey⟩
    · rintro ⟨hne, key, hkey⟩
      exact List.mem_filter.2 ⟨List.mem_map_of_mem (mem_of_masterKey hkey), decide_eq_true hne⟩
  · obtain ⟨ring, hv⟩ := h.new_eq_ok policy
    exact ⟨_, hv, rfl, rfl, rfl⟩

/-- A directory is made around a key file, two further keys are made in it, and the key that was there
before cannot become current; a vault opens. -/
theorem vault_opens_on_reached_three_keys :
    let s := [Change.generate "é" ⟨Bytes.replicate 32 3, ""⟩, .setCurrent "old",
      .generate "A" ⟨Bytes.replicate 32 4, ""⟩].foldl change (twoKeyFiles, newKey)
    Reached s.2 ∧ s.2.activeIds = ["new", "A", "é"] ∧
      ∃ v, Vault.new s.2.toSource .initial = .ok v ∧ v.defaultId = "new" ∧
        v.activeIds = ["new", "A", "é"] := by
  intro s
  have hopen : (Opening.init "new" ⟨Bytes.replicate 32 2, ""⟩).run oneKeyFile "keys".toUTF8 =
      (.ok newKey, twoKeyFiles) := rfl
  have hreached : Reached s.2 := Reached.changes (s := (twoKeyFiles, newKey)) (.opened hopen) _
  have hids : s.2.activeIds = ["new", "A", "é"] := rfl
  obtain ⟨-, -, -, hopens⟩ := vault_opens_on_reached hreached
  obtain ⟨v, hv, hdefault, hactive, -⟩ := hopens .initial
  exact ⟨hreached, hids, v, hv, hdefault, hactive.trans hids⟩

end KeyDirectory

end ColumnVault
