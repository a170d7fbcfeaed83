import ColumnVault.Key.Directory
import ColumnVault.Proofs.Files.Places
import ColumnVault.Proofs.Text.Utf8
import Mathlib.Data.List.TakeWhile

/-! The names of key files. A name tells its id, and an id that passes its check names a file of the
directory itself. -/

namespace ColumnVault.KeyDirectory

open FileTree Text

/-! ### Extensions -/

/-- A name is split at its last dot, unless nothing stands before that. -/
theorem splitExtension_of_dot {name : ByteArray} {stem ext : List UInt8}
    (h : name.data.toList = stem ++ 0x2e :: ext) (hext : 0x2e ∉ ext) :
    splitExtension name =
      if stem = [] then (name, none) else (stem.toByteArray, some ext.toByteArray) := by
  have hafter : (name.data.toList.reverse.takeWhile (· ≠ 0x2e)).reverse = ext := by
    rw [h, List.reverse_append, List.reverse_cons, List.append_assoc, List.takeWhile_append_of_pos,
      List.singleton_append, List.takeWhile_cons_of_neg, List.append_nil, List.reverse_reverse]
    · simp
    · intro b hb
      simpa using fun hdot : b = 0x2e => hext (hdot ▸ List.mem_reverse.1 hb)
  have hlength : name.data.toList.length = stem.length + (ext.length + 1) := by
    rw [h, List.length_append, List.length_cons]
  have hbefore : name.data.toList.take (name.data.toList.length - ext.length - 1) = stem := by
    rw [hlength, show stem.length + (ext.length + 1) - ext.length - 1 = stem.length by omega, h]
    exact List.take_left
  have hne : ext.length ≠ name.data.toList.length := by omega
  simp only [splitExtension, hafter, hbefore, hne, false_or]

theorem splitExtension_of_notMem {name : ByteArray} (h : 0x2e ∉ name.data.toList) :
    splitExtension name = (name, none) := by
  have hall : ∀ b ∈ name.data.toList.reverse, decide (b ≠ 0x2e) = true := by
    intro b hb
    simpa using fun hdot : b = 0x2e => h (hdot ▸ List.mem_reverse.1 hb)
  have hafter : (name.data.toList.reverse.takeWhile (· ≠ 0x2e)).reverse = name.data.toList := by
    rw [List.takeWhile_eq_self_iff.2 hall, List.reverse_reverse]
  simp only [splitExtension, hafter, true_or, if_true]

/-- What is split off as an extension stands behind a dot, and something before that. -/
theorem eq_of_splitExtension {name stem ext : ByteArray} (h : splitExtension name = (stem, some ext)) :
    name.data.toList = stem.data.toList ++ 0x2e :: ext.data.toList ∧ stem.data.toList ≠ [] := by
  by_cases hdot : 0x2e ∈ name.data.toList
  · obtain ⟨behind, before, hreverse, hbehind⟩ := List.eq_append_cons_of_mem (List.mem_reverse.2 hdot)
    have hname : name.data.toList = before.reverse ++ 0x2e :: behind.reverse := by
      rw [← List.reverse_reverse name.data.toList, hreverse, List.reverse_append, List.reverse_cons,
        List.append_assoc, List.singleton_append]
    rw [splitExtension_of_dot hname fun hmem => hbehind (List.mem_reverse.1 hmem)] at h
    split_ifs at h with hstem
    · cases h
    · cases h
      rw [List.data_toByteArray, List.toList_toArray, List.data_toByteArray, List.toList_toArray]
      exact ⟨hname, hstem⟩
  · rw [splitExtension_of_notMem hdot] at h
    cases h

/-! ### Names of keys -/

/-- The name of the file of a key. -/
def keyName (id : String) : String :=
  id ++ "." ++ keyExtension

theorem toList_keyName (id : String) : (keyName id).toUTF8.data.toList =
    id.toUTF8.data.toList ++ 0x2e :: keyExtension.toUTF8.data.toList := by
  rw [keyName, Utf8.toList_toUTF8_append, Utf8.toList_toUTF8_append, List.append_assoc]
  rfl

theorem keyName_injective {id id' : String} (h : (keyName id).toUTF8 = (keyName id').toUTF8) :
    id = id' := by
  have hbytes := congrArg (fun name : ByteArray => name.data.toList) h
  simp only [toList_keyName] at hbytes
  refine Utf8.toUTF8_injective (ByteArray.ext (Array.ext' ?_))
  exact List.append_cancel_right hbytes

theorem splitExtension_keyName {id : String} (hid : id ≠ "") :
    splitExtension (keyName id).toUTF8 = (id.toUTF8, some keyExtension.toUTF8) := by
  have hstem : id.toUTF8.data.toList ≠ [] := by
    intro hnil
    have hsize : id.toUTF8.data.toList.length = 0 := by rw [hnil, List.length_nil]
    exact hid (String.utf8ByteSize_eq_zero_iff.1 hsize)
  rw [splitExtension_of_dot (toList_keyName id) (by decide), if_neg hstem, Bytes.toByteArray_toList,
    Bytes.toByteArray_toList]

theorem isKeyName_keyName {id : String} (hid : id ≠ "") : isKeyName (keyName id).toUTF8 = true := by
  rw [isKeyName, splitExtension_keyName hid, decide_eq_true rfl]

theorem not_isKeyName_currentName : isKeyName currentName.toUTF8 = false := by
  decide

theorem keyName_ne_currentName {id : String} (hid : id ≠ "") :
    (keyName id).toUTF8 ≠ currentName.toUTF8 := by
  intro h
  have hkey := isKeyName_keyName hid
  rw [h, not_isKeyName_currentName] at hkey
  cases hkey

/-! ### Ids -/

theorem checkId_eq_ok_iff {id : String} :
    checkId id = .ok () ↔ KeyId.Valid id ∧ id ≠ "." ∧ id ≠ ".." ∧
      ∀ c ∈ id.toList, c ≠ '/' ∧ c ≠ '\\' ∧ c ≠ '\x00' := by
  rw [← KeyId.check_eq_ok_iff, checkId]
  cases KeyId.check id with
  | error fault => simp
  | ok _ => simp

theorem ne_empty_of_checkId {id : String} (h : checkId id = .ok ()) : id ≠ "" := by
  rintro rfl
  exact absurd (checkId_eq_ok_iff.1 h).1.1 (by decide)

/-- An id that passes its check names a file of the directory itself. -/
theorem plain_keyName {id : String} (h : checkId id = .ok ()) : Plain (keyName id) := by
  have hchars := (checkId_eq_ok_iff.1 h).2.2.2
  have hbyte {b : UInt8} (hb : b ∈ (keyName id).toUTF8.data.toList)
      (hext : b ∉ ".key".toUTF8.data.toList) (hlow : b.toNat < 128) : Char.ofNat b.toNat ∈ id.toList := by
    rw [toList_keyName, List.mem_append] at hb
    exact Utf8.ofNat_mem_of_mem_toUTF8 hlow (hb.resolve_right hext)
  have hlength : 4 < (keyName id).toUTF8.size := by
    have hsize : (keyName id).toUTF8.size = (keyName id).toUTF8.data.toList.length := rfl
    have hid : 0 < id.toUTF8.data.toList.length := (checkId_eq_ok_iff.1 h).1.1
    have hext : keyExtension.toUTF8.data.toList.length = 3 := by decide
    rw [hsize, toList_keyName, List.length_append, List.length_cons, hext]
    omega
  constructor
  · exact fun hslash => (hchars _ (hbyte hslash (by decide) (by decide))).1 rfl
  · exact fun hnul => (hchars _ (hbyte hnul (by decide) (by decide))).2.2 rfl
  · omega
  · rintro hdot
    rw [hdot] at hlength
    revert hlength
    decide
  · rintro hdot
    rw [hdot] at hlength
    revert hlength
    decide

theorem plain_currentName : Plain currentName := by
  constructor <;> decide

/-- A name gives an id exactly if it is that of the key's file and the id passes its check. -/
theorem idOfName_eq_ok_iff {dir name : ByteArray} {id : String} (hkey : isKeyName name = true) :
    idOfName dir name = .ok id ↔ name = (keyName id).toUTF8 ∧ checkId id = .ok () := by
  constructor
  · intro h
    rw [idOfName] at h
    split at h
    · cases h
    · next stem hstem =>
      obtain ⟨_, hcheck, hid⟩ := bind_eq_ok h
      cases hid
      refine ⟨?_, hcheck⟩
      rw [isKeyName, decide_eq_true_eq] at hkey
      have hsplit := eq_of_splitExtension
        (show splitExtension name = (id.toUTF8, some keyExtension.toUTF8) from
          Prod.ext (Utf8.decode_eq_ok_iff.1 hstem) hkey)
      refine ByteArray.ext (Array.ext' ?_)
      rw [hsplit.1, toList_keyName]
  · rintro ⟨rfl, hcheck⟩
    rw [idOfName, splitExtension_keyName (ne_empty_of_checkId hcheck), Utf8.decode_toUTF8]
    simp [hcheck]

end ColumnVault.KeyDirectory
