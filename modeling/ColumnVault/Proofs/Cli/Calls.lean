import ColumnVault.Cli.Run
import ColumnVault.Proofs.Bytes.Hex
import ColumnVault.Proofs.Key.Openable
import ColumnVault.Proofs.Vault.Nonces

/-! Calls on a directory of keys. Where the settings of a call are understood and its keys can be read, a
vault opens on them, and what comes of the command is what comes of an operation of that vault. -/

namespace ColumnVault.Cli

open Vault

/-- Some arguments ask for a command with settings that are understood, and the keys of their directory
can be read. -/
structure CallsOn (args : List ByteArray) (t : FileTree) (command : Command) (s : Settings)
    (d : KeyDirectory) : Prop where
  asks : ∃ options, Call.ofArguments args = .run options command ∧ Settings.resolve t options = .ok s
  reads : KeyDirectory.load t s.keyDir = .ok d

/-- A vault was opened with the settings of a call on the keys that it reads. -/
structure OpensOn (s : Settings) (t : FileTree) (d : KeyDirectory) (v : Vault) (ring : KeyRing) : Prop where
  opens : s.openVault t = .ok v
  kept : d.Kept
  opened : v.Opened d.toSource ring
  activeIds : v.activeIds = d.activeIds
  defaultId : v.defaultId = d.current
  policy : v.policy = s.policy

variable {args : List ByteArray} {t : FileTree} {options : Options} {command : Command} {s : Settings}
  {d : KeyDirectory} {v : Vault} {ring : KeyRing} {id : String} {id? : Option String} {key : ByteArray}
  {e : Entropy}

/-- A call with settings that are understood comes to what its command comes to. -/
theorem run_of_run [Zstd.Encoder] (hcall : Call.ofArguments args = .run options command)
    (hsettings : Settings.resolve t options = .ok s) (e : Entropy) :
    run args t e = (.ofPrinted (command.run s t e).1, (command.run s t e).2) := by
  rw [run, hcall]
  simp only [hsettings]

theorem CallsOn.run_eq [Zstd.Encoder] (h : CallsOn args t command s d) (e : Entropy) :
    run args t e = (.ofPrinted (command.run s t e).1, (command.run s t e).2) := by
  obtain ⟨options, hcall, hsettings⟩ := h.asks
  exact run_of_run hcall hsettings e

theorem keysInContext_eq_ok_iff {α : Type} {context : String} {r : Except KeySourceError α} {a : α} :
    keysInContext context r = .ok a ↔ r = .ok a := by
  cases r <;> simp [keysInContext, fail]

/-- What holds where no option is given. -/
def Settings.initial : Settings :=
  ⟨initialKeyDir, Policy.initial⟩

theorem callsOn_initial (hasks : Call.ofArguments args = .run ⟨none, none, none, false⟩ command)
    (hload : KeyDirectory.load t initialKeyDir = .ok d) : CallsOn args t command .initial d :=
  ⟨⟨_, hasks, rfl⟩, hload⟩

/-- What is read where there are two key files. -/
def twoKeys : KeyDirectory :=
  ⟨initialKeyDir, [("new", Bytes.replicate 32 2), ("old", Bytes.replicate 32 1)], "new"⟩

theorem load_twoKeys : KeyDirectory.load KeyDirectory.twoKeyFiles initialKeyDir = .ok twoKeys := rfl

/-- A vault opens on all keys that can be read. -/
theorem exists_opensOn (hload : KeyDirectory.load t s.keyDir = .ok d) : ∃ v ring, OpensOn s t d v ring := by
  have hkept : d.Kept := KeyDirectory.kept_of_opening (o := .load) (congrArg (·, t) hload)
  obtain ⟨ring, hnew⟩ := hkept.new_eq_ok s.policy
  have hopenOn : OpenOn d.toSource ⟨some ring, d.activeIds, d.current, s.policy⟩ := ⟨s.policy, hnew⟩
  obtain ⟨ring', hopened⟩ := hopenOn.opened
  refine ⟨_, ring', ?_, hkept, hopened, rfl, rfl, rfl⟩
  rw [Settings.openVault, Settings.loadDirectory, hload, keysInContext, ok_bind, hnew]
  rfl

/-- The vault has the keys that were read. -/
theorem OpensOn.get_of_masterKey (h : OpensOn s t d v ring) (hkey : d.masterKey id = .ok key) :
    ring.get id = .ok (.ofMaster key) := by
  have hid : id ∈ v.activeIds := by
    rw [h.activeIds]
    exact h.kept.mem_activeIds_iff.2 ⟨key, hkey⟩
  have hsize := h.kept.keys.size _ (KeyDirectory.mem_of_masterKey hkey)
  exact h.opened.get_eq_ok_iff.2 ⟨hid, key, hkey, hsize, rfl⟩

/-! ### Hexadecimal arguments and results -/

theorem hexArgument_encode (label : String) (data : ByteArray) :
    hexArgument label (Hex.encode data) = .ok data := by
  rw [hexArgument, (Hex.isHex_encode data).trim, Hex.decode_encode]

/-! ### Encrypting and decrypting -/

/-- The bytes that a value stands for. -/
def plainOf (value : String) (hex : Bool) : Except Failure ByteArray :=
  if hex then hexArgument "value" value else .ok value.toUTF8

/-- Encrypting under a named key, or else under the default key. -/
def encryptCall (id? : Option String) (plain : ByteArray) : Vault.Call (Option ByteArray) :=
  match id? with
  | some id => .encryptWithKey id (some plain)
  | none => .encrypt (some plain)

theorem encryptCall_run [Zstd.Encoder] {source : KeySource} (h : v.Opened source ring) {keys : Subkeys}
    (hkeys : ring.get (id?.getD v.defaultId) = .ok keys) (plain : ByteArray) (he : nonceSize ≤ e.pool.size) :
    (v.call (encryptCall id? plain)).run e =
      (.value (some (written v.policy keys (id?.getD v.defaultId) plain (e.next nonceSize he)).bytes),
        e.rest nonceSize) := by
  cases id? with
  | none => exact h.encrypt_run hkeys plain he
  | some id => exact h.encryptWithKey_run hkeys plain he

/-- What a decrypted value is printed as. -/
def shown (hex : Bool) (plain : ByteArray) : Printed :=
  if hex then .ok (hexLine (some plain))
  else
    match Text.Utf8.decode plain with
    | .ok text => .ok (line text)
    | .error fault => fail "plaintext is not UTF-8, use --hex" [fault.message]

theorem encrypt_eq [Zstd.Encoder] (s : Settings) (value : String) (hex : Bool) (id? : Option String)
    (t : FileTree) (e : Entropy) : s.encrypt value hex id? t e = plainOf value hex >>= fun plain =>
      s.openVault t >>= fun v =>
        (inContext "encrypting" ((v.call (encryptCall id? plain)).run e).1).map hexLine := by
  cases hex <;> cases id? <;> rfl

theorem decrypt_eq (s : Settings) (envelope : String) (hex : Bool) (id? : Option String) (t : FileTree) :
    s.decrypt envelope hex id? t = hexArgument "envelope" envelope >>= fun data =>
      s.openVault t >>= fun v =>
        inContext "decrypting" (v.decryptExpecting id? (some data)) >>= fun plain =>
          shown hex (plain.getD ByteArray.empty) := by
  cases id? <;> rfl

theorem rotate_eq [Zstd.Encoder] (s : Settings) (envelope : String) (t : FileTree) (e : Entropy) :
    s.rotate envelope t e = hexArgument "envelope" envelope >>= fun data =>
      s.openVault t >>= fun v =>
        (inContext "rotating" ((v.call (.rotate (some data))).run e).1).map hexLine :=
  rfl

end ColumnVault.Cli
