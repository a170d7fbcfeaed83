import ColumnVault.Proofs.Cli.Calls
import ColumnVault.Proofs.Search.Meaning

/-! How calls end. Whatever the arguments, the files and the random bytes, a call that is understood ends
with its output or with a report of what went wrong, but for one case: encrypting or moving a value for
which everything else is in place, while fewer than 24 random bytes are left. -/

namespace ColumnVault.Cli

open Vault Search

variable {α β : Type} {s : Settings} {t : FileTree} {e : Entropy} {d : KeyDirectory} {v : Vault}
  {ring : KeyRing}

/-! ### Steps that come to an answer -/

/-- A step gives a value or a report; it is not given up. -/
def Answers (x : Except Failure α) : Prop :=
  ∀ cause, x ≠ .error (.abort cause)

theorem answers_ok (a : α) : Answers (.ok a) :=
  nofun

theorem answers_report (r : Report) : Answers (.error (.report r) : Except Failure α) :=
  nofun

theorem answers_fail (context : String) (causes : List String) :
    Answers (fail context causes : Except Failure α) :=
  answers_report _

theorem Answers.error {failure : Failure} (h : Answers (.error failure : Except Failure α)) :
    Answers (.error failure : Except Failure β) :=
  fun cause hcause => h cause (congrArg Except.error (Except.error.inj hcause))

theorem Answers.bind {x : Except Failure α} {f : α → Except Failure β} (hx : Answers x)
    (hf : ∀ a, x = .ok a → Answers (f a)) : Answers (x >>= f) := by
  cases x with
  | ok a => exact hf a rfl
  | error failure => exact hx.error

theorem Answers.map {x : Except Failure α} (hx : Answers x) (f : α → β) : Answers (x.map f) := by
  cases x with
  | ok a => exact answers_ok (f a)
  | error failure => exact hx.error

theorem answers_keysInContext (context : String) (r : Except KeySourceError α) :
    Answers (keysInContext context r) := by
  cases r <;> exact nofun

theorem answers_inContext {P : α → Prop} {F : Error → Prop} {o : Outcome α}
    (h : o.Yields P F fun _ => False) (context : String) : Answers (inContext context o) := by
  cases h with
  | value _ => exact nofun
  | failure _ => exact nofun
  | abort hcause => exact hcause.elim

theorem answers_hexArgument (label value : String) : Answers (hexArgument label value) := by
  rw [hexArgument]
  split
  · exact answers_ok _
  · exact answers_fail _ _

theorem answers_plainOf (value : String) (hex : Bool) : Answers (plainOf value hex) := by
  cases hex with
  | false => exact answers_ok _
  | true => exact answers_hexArgument "value" value

theorem answers_shown (hex : Bool) (plain : ByteArray) : Answers (shown hex plain) := by
  rw [shown]
  split_ifs
  · exact answers_ok _
  · split
    · exact answers_ok _
    · exact answers_fail _ _

theorem answers_openVault (s : Settings) (t : FileTree) : Answers (s.openVault t) := by
  refine (answers_keysInContext _ _).bind fun d _ => ?_
  cases Vault.new d.toSource s.policy with
  | ok v => exact answers_ok v
  | error err => exact answers_fail _ _

/-- A vault is only opened on keys that can be read. -/
theorem opensOn_of_openVault (h : s.openVault t = .ok v) :
    ∃ d ring, KeyDirectory.load t s.keyDir = .ok d ∧ OpensOn s t d v ring := by
  obtain ⟨d, hload, -⟩ := bind_eq_ok h
  have hload : KeyDirectory.load t s.keyDir = .ok d := keysInContext_eq_ok_iff.1 hload
  obtain ⟨v', ring, hv⟩ := exists_opensOn hload
  cases h.symm.trans hv.opens
  exact ⟨d, ring, hload, hv⟩

/-! ### Normalizers that can be named -/

/-- A normalizer that gives up on no text. -/
def Total (n : Normalizer) : Prop :=
  ∀ text cause, ¬n.GivesUp text cause

theorem total_of_ofName? {name : String} {n : Normalizer} (h : Normalizer.ofName? name = some n) :
    Total n := by
  rintro text cause ⟨hfails⟩
  have hname := List.find?_some h
  cases of_decide_eq_true hname

theorem total_normalizer (m : Matches) : Total m.normalizer := by
  rw [Matches.normalizer]
  cases h : Normalizer.ofName? (m.textOf normalizerFlag) with
  | none => exact nofun
  | some n => exact total_of_ofName? h

/-- The normalizer of a command, if it has one, gives up on no text. -/
def Command.BuiltIn : Command → Prop
  | .blindIndex _ n _ _ | .condition _ _ n _ => Total n
  | _ => True

theorem builtIn_of? {verb : Verb} {m : Matches} {command : Command}
    (h : Command.of? verb m = some command) : command.BuiltIn := by
  rw [Command.of?.eq_def] at h
  split at h
  · cases h; trivial
  · cases h; trivial
  · cases h; trivial
  · cases h; trivial
  · split_ifs at h
    cases h
    exact total_normalizer m
  · cases h
    exact total_normalizer m
  · cases h; trivial
  · cases h; trivial
  · cases h

theorem ofStop_ne_run (verb : Option Verb) (stop : Stop) (options : Options) (command : Command) :
    Call.ofStop verb stop ≠ .run options command := by
  cases stop <;> exact nofun

theorem ofHelp_ne_run (args : List ByteArray) (options : Options) (command : Command) :
    Call.ofHelp args ≠ .run options command := by
  rw [Call.ofHelp.eq_def]
  split
  · exact nofun
  · split_ifs
    · exact nofun
    · split <;> exact nofun
  · exact nofun

theorem builtIn_of_ofArguments {args : List ByteArray} {options : Options} {command : Command}
    (h : Call.ofArguments args = .run options command) : command.BuiltIn := by
  rw [Call.ofArguments] at h
  split at h
  · exact absurd h (ofStop_ne_run _ _ _ _)
  · cases h
  · split_ifs at h
    · exact absurd h (ofHelp_ne_run _ _ _)
    · split at h
      · cases h
      · split at h
        · exact absurd h (ofStop_ne_run _ _ _ _)
        · split at h
          · split at h
            · next hcommand =>
              cases h
              exact builtIn_of? hcommand
            · cases h
          · cases h

/-! ### Commands that draw nothing -/

theorem answers_decrypt (s : Settings) (envelope : String) (hex : Bool) (id? : Option String)
    (t : FileTree) : Answers (s.decrypt envelope hex id? t) := by
  rw [decrypt_eq]
  refine (answers_hexArgument _ _).bind fun data _ => (answers_openVault s t).bind fun v hopens => ?_
  obtain ⟨d, ring, -, hv⟩ := opensOn_of_openVault hopens
  refine (answers_inContext (hv.opened.yields_decryptExpecting id? _) _).bind fun plain _ => ?_
  exact answers_shown hex _

theorem answers_apply {n : Normalizer} (hn : Total n) (context value : String) :
    Answers (inContext context (n.apply value)) :=
  answers_inContext ((n.yields_apply value).mono (fun _ hfails => hfails) (hn value)) context

theorem answers_blindIndexAll {n : Normalizer} (hn : Total n) (s : Settings) (value : String)
    (t : FileTree) : Answers (s.blindIndexAll value n t) := by
  refine (answers_openVault s t).bind fun v hopens => (answers_apply hn _ _).bind fun normal _ => ?_
  obtain ⟨d, ring, -, hv⟩ := opensOn_of_openVault hopens
  exact (answers_inContext (hv.opened.yields_blindIndexAll _) _).bind fun indexes _ => answers_ok _

theorem answers_blindIndex {n : Normalizer} (hn : Total n) (s : Settings) (value : String)
    (id? : Option String) (t : FileTree) : Answers (s.blindIndex value n id? t) := by
  refine (answers_openVault s t).bind fun v hopens => (answers_apply hn _ _).bind fun normal _ => ?_
  obtain ⟨d, ring, -, hv⟩ := opensOn_of_openVault hopens
  cases id? with
  | none =>
    obtain ⟨keys, hkeys⟩ := hv.opened.exists_get hv.opened.default_mem
    rw [hv.opened.blindIndex_eq hkeys]
    exact answers_ok _
  | some id =>
    exact (answers_inContext (hv.opened.yields_blindIndexWithKey id _) _).bind fun index _ => answers_ok _

theorem answers_needsRotation [Zstd.Encoder] (s : Settings) (envelope : String) (t : FileTree) :
    Answers (s.needsRotation envelope t) := by
  refine (answers_hexArgument _ _).bind fun data _ => (answers_openVault s t).bind fun v hopens => ?_
  obtain ⟨d, ring, -, hv⟩ := opensOn_of_openVault hopens
  have hneeded : (v.needsRotation (some data)).Yields (fun _ => True) (fun _ => False) (fun _ => False) :=
    hv.opened.yields_call (.needsRotation (some data)) ⟨ByteArray.empty, ""⟩
  split
  · exact answers_fail _ _
  · exact (answers_inContext hneeded _).bind fun needed _ => answers_ok _

theorem answers_init (s : Settings) (id : String) (t : FileTree) (e : Entropy) :
    Answers (s.init id t e).1 :=
  (answers_keysInContext _ _).map _

theorem answers_keygen (s : Settings) (id : String) (setCurrent : Bool) (t : FileTree) (e : Entropy) :
    Answers (s.keygen id setCurrent t e).1 := by
  have hload : Answers (s.loadDirectory t) := answers_keysInContext _ _
  rw [Settings.keygen]
  split
  · next failure hfails =>
    rw [hfails] at hload
    exact hload.error
  · split
    · next err _ _ _ =>
      exact answers_keysInContext "generating key" (.error err : Except KeySourceError String)
    · split_ifs
      · exact (answers_keysInContext _ _).map _
      · exact answers_ok _

/-! ### Conditions -/

/-- The column and the offset are checked before the condition is built, by the same checks. -/
theorem condition_eq (hv : OpensOn s t d v ring) {n : Normalizer} (hn : Total n) (column value : String)
    (offset : Nat) :
    (∃ output, s.condition column value n offset t = .ok output) ∧ checkColumn column = .ok () ∧
        checkOffset offset d.activeIds.length = .ok () ∨
      (∃ err : Error, s.condition column value n offset t = fail err.message err.causes) ∧
        ¬(checkColumn column = .ok () ∧ checkOffset offset d.activeIds.length = .ok ()) := by
  rw [Settings.condition, hv.opens, ok_bind, hv.activeIds]
  cases hchecks : (do checkColumn column; checkOffset offset d.activeIds.length : Except Error Unit) with
  | error err =>
    refine .inr ⟨⟨err, rfl⟩, fun ⟨hcolumn, hoffset⟩ => ?_⟩
    rw [hcolumn, ok_bind, hoffset] at hchecks
    cases hchecks
  | ok _ =>
    obtain ⟨_, hcolumn, hoffset⟩ := bind_eq_ok hchecks
    refine .inl ⟨?_, hcolumn, hoffset⟩
    have hyields := hv.opened.yields_conditionText column (some value) n offset
    dsimp only
    generalize v.conditionText column (some value) n offset = o at hyields ⊢
    cases hyields with
    | value _ => exact ⟨_, rfl⟩
    | failure hfails => exact hfails.elim
    | abort hcause =>
      obtain ⟨err, hrefused, -⟩ | ⟨_, _, hgives⟩ := hcause
      · rw [hcolumn, ok_bind, hv.activeIds, hoffset] at hrefused
        cases hrefused
      · exact (hn _ _ hgives).elim

theorem answers_condition {n : Normalizer} (hn : Total n) (s : Settings) (column value : String)
    (offset : Nat) (t : FileTree) : Answers (s.condition column value n offset t) := by
  have hopens := answers_openVault s t
  cases hv : s.openVault t with
  | error failure =>
    rw [hv] at hopens
    rw [Settings.condition, hv]
    exact hopens.error
  | ok v =>
    obtain ⟨d, ring, -, hv⟩ := opensOn_of_openVault hv
    obtain ⟨⟨output, houtput⟩, -⟩ | ⟨⟨err, herr⟩, -⟩ := condition_eq hv hn column value offset
    · rw [houtput]
      exact answers_ok output
    · rw [herr]
      exact answers_fail _ _

/-- The checks are all that a condition is refused for. -/
theorem condition_prints_iff {n : Normalizer} (hn : Total n) (column value : String) (offset : Nat) :
    (∃ output, s.condition column value n offset t = .ok output) ↔
      ∃ d, KeyDirectory.load t s.keyDir = .ok d ∧ isIdentifier column = true ∧
        checkOffset offset d.activeIds.length = .ok () := by
  constructor
  · rintro ⟨output, houtput⟩
    obtain ⟨v, hopens, -⟩ := bind_eq_ok houtput
    obtain ⟨d, ring, hload, hv⟩ := opensOn_of_openVault hopens
    obtain ⟨-, hcolumn, hoffset⟩ | ⟨⟨err, herr⟩, -⟩ := condition_eq hv hn column value offset
    · exact ⟨d, hload, checkColumn_eq_ok_iff.1 hcolumn, hoffset⟩
    · cases herr.symm.trans houtput
  · rintro ⟨d, hload, hcolumn, hoffset⟩
    obtain ⟨v, ring, hv⟩ := exists_opensOn hload
    have hcolumn := checkColumn_eq_ok_iff.2 hcolumn
    obtain ⟨houtput, -⟩ | ⟨-, hnot⟩ := condition_eq hv hn column value offset
    · exact houtput
    · exact absurd ⟨hcolumn, hoffset⟩ hnot

/-! ### Commands that draw a nonce -/

/-- If something holds, an operation draws a nonce and makes a value of it; otherwise it fails without. -/
def DrawsIff (p : Prop) (o : Drawing (Option ByteArray)) : Prop :=
  (p ∧ ∃ f : Nonce → ByteArray, o = .withNonce fun nonce => .value (some (f nonce))) ∨
    ¬p ∧ ∃ err, o = .ofOutcome (.failure err)

theorem drawsIff_encryptUnder [Zstd.Encoder] {source : KeySource} (h : v.Opened source ring) (id : String)
    (plain : ByteArray) : DrawsIff (id ∈ v.activeIds)
      (encryptUnder ring v.policy id plain >>= fun data => .ofOutcome (.value (some data))) := by
  obtain ⟨keys, hkeys, -, hencrypt⟩ | ⟨hnone, err, hencrypt⟩ := encryptUnder_cases ring v.policy id plain
  · rw [hencrypt, Drawing.withNonce_bind]
    exact .inl ⟨(h.get_eq_ok_iff.1 hkeys).1, _, rfl⟩
  · rw [hencrypt]
    refine .inr ⟨fun hid => ?_, err, rfl⟩
    obtain ⟨keys, hkeys⟩ := h.exists_get hid
    exact hnone ⟨keys, hkeys, h.valid hid⟩

theorem drawsIff_encryptCall [Zstd.Encoder] {source : KeySource} (h : v.Opened source ring)
    (id? : Option String) (plain : ByteArray) :
    DrawsIff (id?.getD v.defaultId ∈ v.activeIds) (v.call (encryptCall id? plain)) := by
  cases id? with
  | none =>
    rw [encryptCall, call, h.encrypt_some]
    exact drawsIff_encryptUnder h v.defaultId plain
  | some id =>
    rw [encryptCall, call, h.encryptWithKey_some]
    exact drawsIff_encryptUnder h id plain

theorem drawsIff_rotate [Zstd.Encoder] {source : KeySource} (h : v.Opened source ring) (data : ByteArray) :
    DrawsIff (∃ plain, v.decrypt (some data) = .value (some plain)) (v.call (.rotate (some data))) := by
  rw [call, h.rotate_some]
  cases hdecrypt : decryptUnder ring data none with
  | error err =>
    refine .inr ⟨?_, err, rfl⟩
    rintro ⟨plain, hplain⟩
    rw [h.decrypt_eq_value_iff, hdecrypt] at hplain
    cases hplain
  | ok plain =>
    obtain ⟨-, hdraws⟩ | ⟨hnot, -⟩ := drawsIff_encryptUnder h v.defaultId plain
    · exact .inl ⟨⟨plain, h.decrypt_eq_value_iff.2 hdecrypt⟩, hdraws⟩
    · exact absurd h.default_mem hnot

/-- A command prints something if everything is in place for it, unless fewer than 24 random bytes are
left; then it is given up. If not everything is in place it does not look at the random bytes. -/
structure Ends (p : Prop) (e : Entropy) (x : Printed) : Prop where
  answers : ¬p → Answers x
  prints : p → nonceSize ≤ e.pool.size → ∃ output, x = .ok output
  aborts : p → e.pool.size < nonceSize → x = .error (.abort (.entropy e.failure))

theorem ends_of_answers {p : Prop} {x : Printed} (hx : Answers x) (hp : ¬p) : Ends p e x :=
  ⟨fun _ => hx, fun h => absurd h hp, fun h => absurd h hp⟩

theorem DrawsIff.ends {p : Prop} {o : Drawing (Option ByteArray)} (h : DrawsIff p o) (context : String)
    (e : Entropy) : Ends p e ((inContext context (o.run e).1).map hexLine) := by
  obtain ⟨hp, f, rfl⟩ | ⟨hp, err, rfl⟩ := h
  · refine ⟨fun hnot => absurd hp hnot, fun _ he => ?_, fun _ he => ?_⟩
    · rw [Drawing.run_withNonce_of_le _ he]
      exact ⟨_, rfl⟩
    · rw [Drawing.run_withNonce_of_lt _ he]
      rfl
  · exact ends_of_answers (answers_fail _ _) hp

/-- Everything is in place for an envelope to be written: the value is understood, the keys can be read,
and the key that was named is among them; or the envelope that is to be moved opens. -/
def Command.Draws (s : Settings) (t : FileTree) : Command → Prop
  | .encrypt value hex id? => ∃ plain d, plainOf value hex = .ok plain ∧
      KeyDirectory.load t s.keyDir = .ok d ∧ ∀ id ∈ id?, ∃ key, d.masterKey id = .ok key
  | .rotate envelope => ∃ data v plain, hexArgument "envelope" envelope = .ok data ∧
      s.openVault t = .ok v ∧ v.decrypt (some data) = .value (some plain)
  | _ => False

theorem Ends.eq_abort_iff {p : Prop} {x : Printed} (h : Ends p e x) {cause : Abort} :
    x = .error (.abort cause) ↔ cause = .entropy e.failure ∧ p ∧ e.pool.size < nonceSize := by
  constructor
  · intro hx
    have hp : p := by
      by_contra hnot
      exact h.answers hnot cause hx
    have hlt : e.pool.size < nonceSize := by
      by_contra hle
      obtain ⟨output, houtput⟩ := h.prints hp (Nat.not_lt.1 hle)
      cases hx.symm.trans houtput
    cases hx.symm.trans (h.aborts hp hlt)
    exact ⟨rfl, hp, hlt⟩
  · rintro ⟨rfl, hp, hlt⟩
    exact h.aborts hp hlt

theorem Ends.congr {p q : Prop} {x : Printed} (h : Ends p e x) (hpq : p ↔ q) : Ends q e x :=
  propext hpq ▸ h

/-- A step that does not depend on random bytes comes first. -/
theorem ends_bind {p : Prop} {x : Except Failure α} {f : α → Printed} (hx : Answers x)
    (hp : p → ∃ a, x = .ok a) (hf : ∀ a, x = .ok a → Ends p e (f a)) : Ends p e (x >>= f) := by
  cases x with
  | ok a => exact hf a rfl
  | error failure =>
    refine ends_of_answers hx.error fun h => ?_
    obtain ⟨a, ha⟩ := hp h
    cases ha

theorem ends_encrypt [Zstd.Encoder] (s : Settings) (value : String) (hex : Bool) (id? : Option String)
    (t : FileTree) (e : Entropy) :
    Ends (Command.Draws s t (.encrypt value hex id?)) e (s.encrypt value hex id? t e) := by
  rw [encrypt_eq]
  refine ends_bind (answers_plainOf value hex) (fun ⟨plain, _, hplain, _⟩ => ⟨plain, hplain⟩)
    fun plain hplain => ends_bind (answers_openVault s t) (fun ⟨_, d, _, hload, _⟩ => ?_)
      fun v hopens => ?_
  · obtain ⟨v, ring, hv⟩ := exists_opensOn hload
    exact ⟨v, hv.opens⟩
  · obtain ⟨d, ring, hload, hv⟩ := opensOn_of_openVault hopens
    refine ((drawsIff_encryptCall hv.opened id? plain).ends "encrypting" e).congr ?_
    have hactive (id : String) : id ∈ v.activeIds ↔ ∃ key, d.masterKey id = .ok key := by
      rw [hv.activeIds, hv.kept.mem_activeIds_iff]
    constructor
    · intro hid
      refine ⟨plain, d, hplain, hload, ?_⟩
      rintro id ⟨⟩
      exact (hactive id).1 hid
    · rintro ⟨-, d', -, hload', hid⟩
      cases hload.symm.trans hload'
      cases id? with
      | none => exact hv.opened.default_mem
      | some id => exact (hactive id).2 (hid id rfl)

theorem ends_rotate [Zstd.Encoder] (s : Settings) (envelope : String) (t : FileTree) (e : Entropy) :
    Ends (Command.Draws s t (.rotate envelope)) e (s.rotate envelope t e) := by
  rw [rotate_eq]
  refine ends_bind (answers_hexArgument _ _) (fun ⟨data, _, _, hdata, _⟩ => ⟨data, hdata⟩)
    fun data hdata => ends_bind (answers_openVault s t) (fun ⟨_, v, _, _, hopens, _⟩ => ⟨v, hopens⟩)
      fun v hopens => ?_
  obtain ⟨d, ring, -, hv⟩ := opensOn_of_openVault hopens
  refine ((drawsIff_rotate hv.opened data).ends "rotating" e).congr ⟨fun ⟨plain, hplain⟩ => ?_, ?_⟩
  · exact ⟨data, v, plain, hdata, hopens, hplain⟩
  · rintro ⟨data', v', plain, hdata', hopens', hplain⟩
    cases hdata.symm.trans hdata'
    cases hopens.symm.trans hopens'
    exact ⟨plain, hplain⟩

theorem Command.ends [Zstd.Encoder] {command : Command} (h : command.BuiltIn) (s : Settings)
    (t : FileTree) (e : Entropy) : Ends (command.Draws s t) e (command.run s t e).1 := by
  cases command with
  | init id => exact ends_of_answers (answers_init s id t e) not_false
  | keygen id setCurrent => exact ends_of_answers (answers_keygen s id setCurrent t e) not_false
  | encrypt value hex id? => exact ends_encrypt s value hex id? t e
  | decrypt envelope hex id? => exact ends_of_answers (answers_decrypt s envelope hex id? t) not_false
  | blindIndex value n id? all =>
    cases all with
    | false => exact ends_of_answers (answers_blindIndex h s value id? t) not_false
    | true => exact ends_of_answers (answers_blindIndexAll h s value t) not_false
  | condition column value n offset =>
    exact ends_of_answers (answers_condition h s column value offset t) not_false
  | rotate envelope => exact ends_rotate s envelope t e
  | needsRotation envelope => exact ends_of_answers (answers_needsRotation s envelope t) not_false

/-! ### Calls -/

/-- The arguments ask for an envelope to be written, the settings are understood, and everything is in
place for it. -/
def Draws (args : List ByteArray) (t : FileTree) : Prop :=
  ∃ options command s, Call.ofArguments args = .run options command ∧
    Settings.resolve t options = .ok s ∧ command.Draws s t

theorem exitCode_eq_zero_iff {x : Printed} :
    (Ending.ofPrinted x).exitCode = 0 ↔ ∃ output, x = .ok output := by
  cases x with
  | ok output => exact iff_of_true rfl ⟨output, rfl⟩
  | error failure =>
    cases failure with
    | report r => exact iff_of_false (show (1 : UInt8) ≠ 0 by decide) nofun
    | abort cause => exact iff_of_false (show (101 : UInt8) ≠ 0 by decide) nofun

theorem exitCode_ofPrinted (x : Printed) : (Ending.ofPrinted x).exitCode = 0 ∨
    (Ending.ofPrinted x).exitCode = 1 ∨ ∃ cause, Ending.ofPrinted x = .aborted cause := by
  cases x with
  | ok output => exact .inl rfl
  | error failure =>
    cases failure with
    | report r => exact .inr (.inl rfl)
    | abort cause => exact .inr (.inr ⟨cause, rfl⟩)

theorem ofPrinted_eq_aborted_iff {x : Printed} {cause : Abort} :
    Ending.ofPrinted x = .aborted cause ↔ x = .error (.abort cause) := by
  cases x with
  | ok output => exact iff_of_false nofun nofun
  | error failure =>
    cases failure with
    | report r => exact iff_of_false nofun nofun
    | abort other => simp [Ending.ofPrinted]

theorem draws_iff {args : List ByteArray} {options : Options} {command : Command}
    (hcall : Call.ofArguments args = .run options command) (hsettings : Settings.resolve t options = .ok s) :
    Draws args t ↔ command.Draws s t := by
  constructor
  · rintro ⟨options', command', s', hcall', hsettings', hdraws⟩
    cases hcall.symm.trans hcall'
    cases hsettings.symm.trans hsettings'
    exact hdraws
  · exact fun hdraws => ⟨options, command, s, hcall, hsettings, hdraws⟩

/-- A call that is understood ends with what its command prints, with a report on its settings, or with
help. -/
theorem exists_ends [Zstd.Encoder] {args : List ByteArray} (h : Call.ofArguments args ≠ .usage)
    (t : FileTree) (e : Entropy) : ∃ x, (run args t e).1 = .ofPrinted x ∧ Ends (Draws args t) e x := by
  have hdraws (hcall : ∀ options command s, Call.ofArguments args = .run options command →
      Settings.resolve t options ≠ .ok s) : ¬Draws args t :=
    fun ⟨options, command, s, hasks, hsettings, _⟩ => hcall options command s hasks hsettings
  cases hcall : Call.ofArguments args with
  | usage => exact absurd hcall h
  | help verb =>
    refine ⟨.ok (run args t e).1.output, ?_, ends_of_answers (answers_ok _) (hdraws fun _ _ _ hasks => ?_)⟩
    · rw [run, hcall]
      cases verb <;> rfl
    · cases hcall.symm.trans hasks
  | helpOnHelp =>
    refine ⟨.ok helpOnHelp, ?_, ends_of_answers (answers_ok _) (hdraws fun _ _ _ hasks => ?_)⟩
    · rw [run, hcall]
      rfl
    · cases hcall.symm.trans hasks
  | run options command =>
    cases hsettings : Settings.resolve t options with
    | error report =>
      refine ⟨.error (.report report), ?_, ends_of_answers (answers_report report)
        (hdraws fun _ _ _ hasks hsettings' => ?_)⟩
      · rw [run, hcall]
        simp only [hsettings]
        rfl
      · cases hcall.symm.trans hasks
        cases hsettings.symm.trans hsettings'
    | ok s =>
      refine ⟨_, congrArg (·.1) (run_of_run hcall hsettings e), ?_⟩
      exact (Command.ends (builtIn_of_ofArguments hcall) s t e).congr (draws_iff hcall hsettings).symm

theorem exitCode_condition_iff [Zstd.Encoder] {args : List ByteArray} {options : Options}
    {column value : String} {n : Normalizer} {offset : Nat}
    (hcall : Call.ofArguments args = .run options (.condition column value n offset)) (t : FileTree)
    (e : Entropy) : (run args t e).1.exitCode = 0 ↔ ∃ s d, Settings.resolve t options = .ok s ∧
      KeyDirectory.load t s.keyDir = .ok d ∧ isIdentifier column = true ∧
      checkOffset offset d.activeIds.length = .ok () := by
  cases hsettings : Settings.resolve t options with
  | error report =>
    refine iff_of_false ?_ fun ⟨s, _, hs, _⟩ => ?_
    · rw [run, hcall]
      simp only [hsettings]
      exact show (1 : UInt8) ≠ 0 by decide
    · cases hs
  | ok s =>
    rw [run_of_run hcall hsettings, exitCode_eq_zero_iff]
    refine (condition_prints_iff (builtIn_of_ofArguments hcall) column value offset).trans ?_
    constructor
    · rintro ⟨d, hd⟩
      exact ⟨s, d, rfl, hd⟩
    · rintro ⟨s', d, ⟨⟩, hd⟩
      exact ⟨d, hd⟩

/-- A call that is understood exits with 0, or with 1 and a report, whatever the files, the settings and
the random bytes, unless it is to write an envelope, everything is in place for it, and fewer than 24 random
bytes are left: then, and only then, it is given up. In particular the search for a value prints a condition
exactly if the settings are understood, the keys can be read, the column is an identifier, and the offset
leaves room for the placeholders of all active keys. -/
theorem run_aborts_iff [Zstd.Encoder] {args : List ByteArray} (h : Call.ofArguments args ≠ .usage)
    (t : FileTree) (e : Entropy) :
    ((run args t e).1.exitCode = 0 ∨ (run args t e).1.exitCode = 1 ∨
      (run args t e).1 = .aborted (.entropy e.failure)) ∧
    (∀ cause, (run args t e).1 = .aborted cause ↔
      cause = .entropy e.failure ∧ Draws args t ∧ e.pool.size < 24) ∧
    (Draws args t → 24 ≤ e.pool.size → (run args t e).1.exitCode = 0) ∧
    ∀ {options column value n offset},
      Call.ofArguments args = .run options (.condition column value n offset) →
      ((run args t e).1.exitCode = 0 ↔ ∃ s d, Settings.resolve t options = .ok s ∧
        KeyDirectory.load t s.keyDir = .ok d ∧ isIdentifier column = true ∧
        checkOffset offset d.activeIds.length = .ok ()) := by
  obtain ⟨x, hx, hends⟩ := exists_ends h t e
  have haborts (cause : Abort) : (run args t e).1 = .aborted cause ↔
      cause = .entropy e.failure ∧ Draws args t ∧ e.pool.size < 24 := by
    rw [hx, ofPrinted_eq_aborted_iff]
    exact hends.eq_abort_iff
  refine ⟨?_, haborts, fun hdraws he => ?_, fun hcall => exitCode_condition_iff hcall t e⟩
  · have hcodes := exitCode_ofPrinted x
    rw [← hx] at hcodes
    refine hcodes.imp_right (Or.imp_right ?_)
    rintro ⟨cause, hcause⟩
    obtain ⟨rfl, -⟩ := (haborts cause).1 hcause
    exact hcause
  · rw [hx, exitCode_eq_zero_iff]
    exact hends.prints hdraws he

/-- Without random bytes a value is not encrypted, but searched for; over two keys, the last offset at which
their placeholders have room is 65532. -/
theorem run_aborts_iff_two_keys :
    let encrypting := ["encrypt", "alice"].map String.toUTF8
    let searching := fun offset => ["condition", "email", "alice", "--offset", offset].map String.toUTF8
    Call.ofArguments encrypting ≠ .usage ∧
      (run encrypting KeyDirectory.twoKeyFiles ⟨ByteArray.empty, "dry"⟩).1 =
        .aborted (.entropy "dry") ∧
      (run (searching "65532") KeyDirectory.twoKeyFiles ⟨ByteArray.empty, "dry"⟩).1.exitCode = 0 ∧
      (run (searching "65533") KeyDirectory.twoKeyFiles ⟨ByteArray.empty, "dry"⟩).1.exitCode ≠ 0 := by
  intro encrypting searching
  have hencrypt : Call.ofArguments encrypting =
      .run ⟨none, none, none, false⟩ (.encrypt "alice" false none) := rfl
  have hlast : Call.ofArguments (searching "65532") =
      .run ⟨none, none, none, false⟩ (.condition "email" "alice" .identity 65532) := rfl
  have hbehind : Call.ofArguments (searching "65533") =
      .run ⟨none, none, none, false⟩ (.condition "email" "alice" .identity 65533) := rfl
  have hsettings : Settings.resolve KeyDirectory.twoKeyFiles ⟨none, none, none, false⟩ = .ok .initial := rfl
  have hdraws : Draws encrypting KeyDirectory.twoKeyFiles :=
    ⟨_, _, _, hencrypt, hsettings, _, twoKeys, rfl, load_twoKeys, nofun⟩
  have hunderstood : Call.ofArguments encrypting ≠ .usage := by
    rw [hencrypt]
    exact nofun
  refine ⟨hunderstood, ?_, ?_, ?_⟩
  · obtain ⟨-, haborts, -⟩ := run_aborts_iff hunderstood KeyDirectory.twoKeyFiles ⟨ByteArray.empty, "dry"⟩
    exact (haborts _).2 ⟨rfl, hdraws, by decide⟩
  · obtain ⟨-, -, -, hcondition⟩ := run_aborts_iff (by rw [hlast]; exact nofun) KeyDirectory.twoKeyFiles
      ⟨ByteArray.empty, "dry"⟩
    exact (hcondition hlast).2 ⟨_, twoKeys, hsettings, load_twoKeys, by decide, by decide⟩
  · obtain ⟨-, -, -, hcondition⟩ := run_aborts_iff (by rw [hbehind]; exact nofun) KeyDirectory.twoKeyFiles
      ⟨ByteArray.empty, "dry"⟩
    rw [Ne, hcondition hbehind]
    rintro ⟨s, d, hs, hd, -, hoffset⟩
    cases hsettings.symm.trans hs
    cases load_twoKeys.symm.trans hd
    revert hoffset
    decide

end ColumnVault.Cli
