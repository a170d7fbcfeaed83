import ColumnVault.Cli.Command
import ColumnVault.Proofs.Bytes.Hex
import Mathlib.Data.List.TakeWhile

/-! Arguments that are read as they are meant. A text of hexadecimal digits is taken for an operand, never
for a flag, and a value behind the long name of its flag and an equals sign for that value, whatever its
bytes are. So what one call prints can be handed to another. -/

namespace ColumnVault.Cli

open Text

variable {envelope : String} {values : List (String × ByteArray)} {l : Level} {f : Flag} {m : Matches}

/-! ### Single arguments -/

/-- A digit is not the byte with which flags begin. -/
theorem dash_notMem_of_isHex (h : Hex.IsHex envelope) : dash ∉ envelope.toUTF8.data.toList := by
  intro hmem
  have hchar := h _ (Utf8.ofNat_mem_of_mem_toUTF8 (by decide) hmem)
  revert hchar
  decide

theorem readOne_of_isHex (h : Hex.IsHex envelope) (hroom : m.operands.length < l.operands) :
    l.readOne envelope.toUTF8 m = .ok ({ m with operands := m.operands ++ [envelope] }, none) := by
  have hdash := dash_notMem_of_isHex h
  rw [Level.readOne]
  split
  · next heq => exact absurd (by rw [heq]; exact List.mem_cons_self) hdash
  · next heq => exact absurd (by rw [heq]; exact List.mem_cons_self) hdash
  · rw [Level.addOperand, Utf8.fromUTF8?_toUTF8]
    dsimp only
    rw [if_pos hroom]
    rfl

/-- A flag by its long name, with a value behind an equals sign. -/
def Flag.argument (f : Flag) (value : ByteArray) : ByteArray :=
  ("--" ++ f.long ++ "=").toUTF8 ++ value

theorem toList_argument (f : Flag) (value : ByteArray) : (f.argument value).data.toList =
    dash :: dash :: (f.long.toUTF8.data.toList ++ equals :: value.data.toList) := by
  rw [Flag.argument, ByteArray.data_append, Array.toList_append, Utf8.toList_toUTF8_append,
    Utf8.toList_toUTF8_append, List.append_assoc, List.append_assoc]
  rfl

theorem argument_ne_dashes (f : Flag) (value : ByteArray) : f.argument value ≠ "--".toUTF8 := by
  intro heq
  have hlength := congrArg (fun bytes : ByteArray => bytes.data.toList.length) heq
  have hdashes : "--".toUTF8.data.toList.length = 2 := rfl
  simp only [toList_argument, hdashes, List.length_cons, List.length_append] at hlength
  omega

/-- A flag that takes a value, with a long name in which there is no equals sign. -/
structure Flag.Named (f : Flag) (l : Level) : Prop where
  found : l.flags.find? (·.long.toUTF8 = f.long.toUTF8) = some f
  takes : f.takes.isNone = false
  equals_notMem : equals ∉ f.long.toUTF8.data.toList

/-- The value behind the equals sign is taken as it is, be it empty or begin with a dash. -/
theorem readOne_argument (h : f.Named l) (value : ByteArray) (m : Matches) :
    l.readOne (f.argument value) m = (m.add f value >>= fun m => .ok (m, none)) := by
  have hnot : ∀ b ∈ f.long.toUTF8.data.toList, decide (b ≠ equals) = true := by
    intro b hb
    simpa using fun heq : b = equals => h.equals_notMem (heq ▸ hb)
  have hname : (f.long.toUTF8.data.toList ++ equals :: value.data.toList).takeWhile (· ≠ equals) =
      f.long.toUTF8.data.toList := by
    rw [List.takeWhile_append_of_pos hnot, List.takeWhile_cons_of_neg (by simp), List.append_nil]
  have hvalue : (f.long.toUTF8.data.toList ++ equals :: value.data.toList).dropWhile (· ≠ equals) =
      equals :: value.data.toList := by
    rw [List.dropWhile_append_of_pos hnot, List.dropWhile_cons_of_neg (by simp)]
  rw [Level.readOne, toList_argument]
  show l.readLong (f.long.toUTF8.data.toList ++ equals :: value.data.toList) m = _
  rw [Level.readLong, hname, hvalue, Bytes.toByteArray_toList]
  simp only [h.found, h.takes, Bytes.toByteArray_toList]
  rfl

theorem Matches.add_eq (hfresh : m.has f.long = false) {value : ByteArray}
    (htakes : f.takes.all (·.accepts value) = true) :
    m.add f value = .ok { m with values := m.values ++ [(f.long, value)] } := by
  rw [Matches.add, hfresh, htakes]
  rfl

/-- A text is taken as the value of a flag that asks for one. -/
theorem accepts_toUTF8 (value : String) : ValueKind.text.accepts value.toUTF8 = true := by
  rw [ValueKind.accepts, Utf8.fromUTF8?_toUTF8]
  rfl

/-! ### Arguments one after another -/

/-- An argument that names no command and is read with all it needs is left behind. -/
theorem read_cons {arg : ByteArray} {m' : Matches} (hcommand : arg ∉ l.commands.map String.toUTF8)
    (hne : arg ≠ "--".toUTF8) (hpending : m.pending = none) (hone : l.readOne arg m = .ok (m', none))
    (rest : List ByteArray) : l.read (arg :: rest) m = l.read rest m' := by
  rw [Level.read, if_neg hcommand]
  simp only [Matches.settle, hpending, if_neg hne, hone]

theorem read_of_isHex (h : Hex.IsHex envelope) (flags : List Flag) (values : List (String × ByteArray)) :
    Level.read ⟨flags, 1, []⟩ [envelope.toUTF8] ⟨values, [], none⟩ =
      .ok (⟨values, [envelope], none⟩, []) := by
  have hne : envelope.toUTF8 ≠ "--".toUTF8 := fun heq =>
    dash_notMem_of_isHex h (by rw [heq]; decide)
  have hroom : ([] : List String).length < 1 := Nat.zero_lt_one
  exact read_cons (m := ⟨values, [], none⟩) List.not_mem_nil hne rfl (readOne_of_isHex h hroom) []

/-- The flag by which a call that decrypts names a key. -/
def expectedIdFlag : Flag :=
  keyIdFlag "Require the envelope to name this key" none

theorem toUTF8_keyId (id : String) : ("--key-id=" ++ id).toUTF8 = expectedIdFlag.argument id.toUTF8 := by
  refine ByteArray.ext (Array.ext' ?_)
  rw [toList_argument, Utf8.toList_toUTF8_append]
  rfl

theorem read_keyId (id : String) (rest : List ByteArray) (hvalues : values.lookup "key-id" = none) :
    Verb.decrypt.level.read (("--key-id=" ++ id).toUTF8 :: rest) ⟨values, [], none⟩ =
      Verb.decrypt.level.read rest ⟨values ++ [("key-id", id.toUTF8)], [], none⟩ := by
  have hnamed : expectedIdFlag.Named Verb.decrypt.level := ⟨rfl, rfl, by decide⟩
  have hfresh : Matches.has ⟨values, [], none⟩ expectedIdFlag.long = false :=
    Option.isSome_eq_false_iff.2 (Option.isNone_iff_eq_none.2 hvalues)
  rw [toUTF8_keyId]
  refine read_cons List.not_mem_nil (argument_ne_dashes _ _) rfl ?_ rest
  rw [readOne_argument hnamed, Matches.add_eq hfresh (accepts_toUTF8 id)]
  rfl

/-! ### Calls -/

theorem read_verb (v : Verb) (rest : List ByteArray) (m : Matches) :
    outerLevel.read (v.name.toUTF8 :: rest) m = .ok (m, v.name.toUTF8 :: rest) := by
  have hmem : v.name.toUTF8 ∈ outerLevel.commands.map String.toUTF8 := by cases v <;> decide
  rw [Level.read, if_pos hmem]

/-- The call for a command with the arguments behind it, and what was read before it. -/
theorem ofArguments_eq {args : List ByteArray} {before : Matches} {v : Verb} {rest : List ByteArray}
    {command : Command} (houter : outerLevel.read args Matches.none = .ok (before, v.name.toUTF8 :: rest))
    (hbefore : before.settle = .ok before) (hread : v.level.read rest Matches.none = .ok (m, []))
    (hsettle : m.settle = .ok m) (hcommand : Command.of? v m = some command) :
    Call.ofArguments args = .run (.of before m) command := by
  have hhelp : v.name.toUTF8 ≠ helpName.toUTF8 := by cases v <;> decide
  rw [Call.ofArguments, houter]
  simp only [if_neg hhelp, Verb.ofName?_name, hread, hbefore, hsettle, hcommand]

/-- A call works on the directory that is named before its command, whatever the bytes of the path are. -/
theorem ofArguments_keyDir {path : ByteArray} (hpath : path.size ≠ 0) {v : Verb} {rest : List ByteArray}
    {command : Command} (hread : v.level.read rest Matches.none = .ok (m, [])) (hsettle : m.settle = .ok m)
    (hkeyDir : m.value? "key-dir" = none) (hcommand : Command.of? v m = some command) :
    Call.ofArguments (keyDirFlag.argument path :: v.name.toUTF8 :: rest) =
      .run { Options.of Matches.none m with keyDir := some path } command := by
  have hnamed : keyDirFlag.Named outerLevel := ⟨rfl, rfl, by decide⟩
  have hcommands : keyDirFlag.argument path ∉ outerLevel.commands.map String.toUTF8 := by
    intro hmem
    have hdash : ∀ name ∈ outerLevel.commands.map String.toUTF8, name.data.toList.head? ≠ some dash := by
      decide
    exact hdash _ hmem (by rw [toList_argument]; rfl)
  have hadd : outerLevel.readOne (keyDirFlag.argument path) Matches.none =
      .ok (⟨[("key-dir", path)], [], none⟩, none) := by
    have haccepts : keyDirFlag.takes.all (·.accepts path) = true := decide_eq_true hpath
    rw [readOne_argument hnamed, Matches.add_eq rfl haccepts]
    rfl
  have houter : outerLevel.read (keyDirFlag.argument path :: v.name.toUTF8 :: rest) Matches.none =
      .ok (⟨[("key-dir", path)], [], none⟩, v.name.toUTF8 :: rest) := by
    rw [read_cons hcommands (argument_ne_dashes _ _) rfl hadd, read_verb]
  rw [ofArguments_eq houter rfl hread hsettle hcommand, Options.of, Options.of, hkeyDir]
  rfl

/-- The bytes of the path are those of no text. -/
example : Call.ofArguments [keyDirFlag.argument ⟨#[0xff]⟩, "init".toUTF8] =
    .run ⟨some ⟨#[0xff]⟩, none, none, false⟩ (.init "v1") := rfl

theorem ofArguments_rotate (h : Hex.IsHex envelope) :
    Call.ofArguments (["rotate", envelope].map String.toUTF8) =
      .run ⟨none, none, none, false⟩ (.rotate envelope) :=
  ofArguments_eq (read_verb .rotate _ _) rfl (read_of_isHex h _ []) rfl rfl

/-- The plain arguments for decrypting an envelope. -/
def decryptArguments (hex : Bool) (id? : Option String) (envelope : String) : List String :=
  "decrypt" :: ((if hex then ["--hex"] else []) ++ (id?.toList.map ("--key-id=" ++ ·) ++ [envelope]))

theorem of?_decrypt (hex : Bool) (id? : Option String) (envelope : String) :
    Command.of? .decrypt ⟨(if hex then [("hex", ByteArray.empty)] else []) ++
      id?.toList.map (("key-id", ·.toUTF8)), [envelope], none⟩ = some (.decrypt envelope hex id?) := by
  cases id? with
  | none => cases hex <;> rfl
  | some id =>
    have hid (hex' : Bool) : some (Command.decrypt envelope hex' (String.fromUTF8? id.toUTF8)) =
        some (.decrypt envelope hex' (some id)) := by rw [Utf8.fromUTF8?_toUTF8]
    cases hex with
    | false => exact hid false
    | true => exact hid true

theorem ofArguments_decrypt (h : Hex.IsHex envelope) (hex : Bool) (id? : Option String) :
    Call.ofArguments ((decryptArguments hex id? envelope).map String.toUTF8) =
      .run ⟨none, none, none, false⟩ (.decrypt envelope hex id?) := by
  have hread := read_of_isHex h (Verb.decrypt.flags ++ commonFlags)
  have hhex (rest : List ByteArray) : Verb.decrypt.level.read ("--hex".toUTF8 :: rest) Matches.none =
      Verb.decrypt.level.read rest ⟨[("hex", ByteArray.empty)], [], none⟩ := rfl
  have hof := of?_decrypt hex id? envelope
  have houter (rest : List ByteArray) := read_verb .decrypt rest Matches.none
  cases hex <;> cases id?
  case false.none => exact ofArguments_eq (houter _) rfl (hread []) rfl hof
  case false.some id => exact ofArguments_eq (houter _) rfl ((read_keyId id _ rfl).trans (hread _)) rfl hof
  case true.none => exact ofArguments_eq (houter _) rfl ((hhex _).trans (hread _)) rfl hof
  case true.some id =>
    exact ofArguments_eq (houter _) rfl ((hhex _).trans ((read_keyId id _ rfl).trans (hread _))) rfl hof

end ColumnVault.Cli
