import ColumnVault.Proofs.Vault.Missing
import Mathlib.Data.List.Nodup

/-! Random bytes and what they are drawn for. A call that writes an envelope draws its nonce once, when
nothing else can fail any more; no other call draws anything. So an error is told whatever the source of
random bytes, and along every run the nonces of the envelopes are among the draws, in their order: if no
draw comes twice, no nonce does, and no envelope. -/

namespace ColumnVault

/-! ### Drawing one nonce -/

namespace Drawing

variable {α β : Type}

/-- Draws a nonce, and nothing else. -/
def withNonce (f : Nonce → Outcome α) : Drawing α :=
  Drawing.bytes nonceSize >>= fun nonce => ofOutcome (f nonce)

theorem run_withNonce_of_le (f : Nonce → Outcome α) {e : Entropy} (h : nonceSize ≤ e.pool.size) :
    (withNonce f).run e = (f (e.next nonceSize h), e.rest nonceSize) := by
  rw [withNonce, run_bind_value (run_bytes_of_le h)]
  rfl

theorem run_withNonce_of_lt (f : Nonce → Outcome α) {e : Entropy} (h : e.pool.size < nonceSize) :
    (withNonce f).run e = (.abort (.entropy e.failure), e) := by
  rw [withNonce, run_bind, run_bytes_of_lt h]

theorem lift_bind (o : Outcome α) (f : α → Outcome β) :
    ((liftM o : Drawing α) >>= fun a => ofOutcome (f a)) = ofOutcome (o >>= f) := by
  cases o <;> rfl

/-- What follows a nonce without a further draw can be taken along with it. -/
theorem withNonce_bind (f : Nonce → Outcome α) (g : α → Outcome β) :
    (withNonce f >>= fun a => ofOutcome (g a)) = withNonce fun nonce => f nonce >>= g := by
  rw [withNonce, seq_assoc]
  congr 1
  funext nonce
  exact lift_bind (f nonce) g

end Drawing

/-- The bytes by which a source became shorter, if it did. -/
def Entropy.taken? (before after : Entropy) : Option ByteArray :=
  if after.pool.size < before.pool.size then
    some (before.pool.extract 0 (before.pool.size - after.pool.size))
  else none

theorem Entropy.taken?_rest {e : Entropy} {n : Nat} (hn : 0 < n) (h : n ≤ e.pool.size) :
    e.taken? (e.rest n) = some (e.next n h).val := by
  have hsize : (e.rest n).pool.size = e.pool.size - n := by
    rw [rest, ByteArray.size_extract, Nat.min_self]
  rw [taken?, hsize, if_pos (by omega), show e.pool.size - (e.pool.size - n) = n by omega]
  rfl

namespace Vault

/-! ### What a call draws -/

section Calls
variable {α : Type}

/-- The value that a call is to encrypt, if there is one, and the id of the key for it. A value that is to
be moved has been decrypted by then. -/
def Call.encrypts? (v : Vault) : Call α → Option (String × ByteArray)
  | .encrypt value | .sealValue value => value.map fun b => (v.defaultId, b)
  | .encryptWithKey id value => value.map fun b => (id, b)
  | .sealText text _ => text.map fun s => (v.defaultId, s.toUTF8)
  | .rotate envelope =>
    match v.decrypt envelope with
    | .value value => value.map fun b => (v.defaultId, b)
    | _ => none
  | .decrypt _ | .decryptWithKey .. | .blindIndex _ | .blindIndexText .. | .blindIndexWithKey ..
  | .blindIndexAll _ | .rotateIndex _ | .condition .. | .conditionText .. | .needsRotation _ => none

/-- The envelope that a call gives back, if it is one that writes envelopes. -/
def Call.envelope? : Call α → α → Option ByteArray
  | .encrypt _, data | .encryptWithKey .., data | .rotate _, data => data
  | .sealValue _, row | .sealText .., row => row.ciphertext
  | .decrypt _, _ | .decryptWithKey .., _ | .blindIndex _, _ | .blindIndexText .., _
  | .blindIndexWithKey .., _ | .blindIndexAll _, _ | .rotateIndex _, _ | .condition .., _
  | .conditionText .., _ | .needsRotation _, _ => none

end Calls

variable {α : Type} {v : Vault} {c : Call α} {id : String} {value : ByteArray} {ring : KeyRing}

/-- The vault has subkeys for an id. -/
def HasKey (v : Vault) (id : String) : Prop :=
  ∃ ring keys, v.keys = some ring ∧ ring.get id = .ok keys ∧ KeyId.Valid id

theorem Opened.hasKey_iff {source : KeySource} (h : v.Opened source ring) :
    v.HasKey id ↔ id ∈ v.activeIds := by
  constructor
  · rintro ⟨ring', keys, hring, hkeys, -⟩
    cases h.keys.symm.trans hring
    exact (h.get_eq_ok_iff.1 hkeys).1
  · intro hid
    obtain ⟨keys, hkeys⟩ := h.exists_get hid
    exact ⟨ring, keys, h.keys, hkeys, h.valid hid⟩

theorem ring_of_keys (h : v.keys = some ring) (shape : Shape) : v.ring shape = .value ring := by
  simp [Vault.ring, h]

variable [Zstd.Encoder]

/-- A call comes to the same from every source and draws nothing. It gives no envelope. -/
def Call.DrawsNothing (v : Vault) (c : Call α) : Prop :=
  ∃ o : Outcome α, (∀ e, (v.call c).run e = (o, e)) ∧ ∀ a, o = .value a → c.envelope? a = none

/-- A call takes 24 bytes from the source, and is given up if there are fewer. It does not fail, and what
it gives has an envelope under the id, whose nonce are these bytes. -/
def Call.DrawsNonce (v : Vault) (c : Call α) (id : String) : Prop :=
  ∃ f : Nonce → Outcome α,
    (∀ (e : Entropy) (h : 24 ≤ e.pool.size), (v.call c).run e = (f (e.next 24 h), e.rest 24)) ∧
    (∀ e : Entropy, e.pool.size < 24 → (v.call c).run e = (.abort (.entropy e.failure), e)) ∧
    (∀ nonce err, f nonce ≠ .failure err) ∧
    ∀ nonce a, f nonce = .value a → ∃ data envelope, c.envelope? a = some data ∧
      Envelope.decode data = .ok envelope ∧ envelope.keyId = id ∧ envelope.nonce = nonce

theorem Call.drawsNothing_of_eq {o : Outcome α} (h : v.call c = .ofOutcome o)
    (hnone : ∀ a, o = .value a → c.envelope? a = none) : c.DrawsNothing v :=
  ⟨o, fun e => by rw [h]; rfl, hnone⟩

theorem Call.drawsNonce_of_eq {f : Nonce → Outcome α} (h : v.call c = .withNonce f)
    (hfails : ∀ nonce err, f nonce ≠ .failure err)
    (henvelope : ∀ nonce a, f nonce = .value a → ∃ envelope : Envelope, envelope.WellFormed ∧
      envelope.keyId = id ∧ envelope.nonce = nonce ∧ c.envelope? a = some envelope.bytes) :
    c.DrawsNonce v id := by
  refine ⟨f, fun e he => ?_, fun e he => ?_, hfails, fun nonce a ha => ?_⟩
  · rw [h]
    exact Drawing.run_withNonce_of_le f he
  · rw [h]
    exact Drawing.run_withNonce_of_lt f he
  · obtain ⟨envelope, hwell, hid, hnonce, hdata⟩ := henvelope nonce a ha
    exact ⟨_, envelope, hdata, Envelope.decode_bytes hwell, hid, hnonce⟩

/-- Where there is no key for an id nothing is drawn; otherwise a nonce is, and nothing can fail then. -/
theorem encryptUnder_cases (ring : KeyRing) (policy : Policy) (id : String) (value : ByteArray) :
    (∃ keys, ring.get id = .ok keys ∧ KeyId.Valid id ∧ encryptUnder ring policy id value =
      .withNonce fun nonce => .value (written policy keys id value nonce).bytes) ∨
    (¬∃ keys, ring.get id = .ok keys ∧ KeyId.Valid id) ∧
      ∃ err, encryptUnder ring policy id value = .ofOutcome (.failure err) := by
  cases hget : ring.get id with
  | error err =>
    refine .inr ⟨nofun, err, ?_⟩
    rw [encryptUnder, hget]
    rfl
  | ok keys =>
    by_cases hid : KeyId.Valid id
    · exact .inl ⟨keys, rfl, hid, encryptUnder_eq policy hid hget value⟩
    · refine .inr ⟨?_, ?_⟩
      · rintro ⟨_, _, hvalid⟩
        exact hid hvalid
      · rw [encryptUnder, hget, BoundPayload.encode]
        cases hcheck : KeyId.check id with
        | error fault => exact ⟨.invalidKeyId fault, rfl⟩
        | ok _ => exact absurd (KeyId.check_eq_ok_iff.1 hcheck) hid

/-- Either a call has a value to encrypt and the key for it, and draws the nonce of its envelope, or it has
not and draws nothing. -/
def Call.DrawsRightly (v : Vault) (c : Call α) : Prop :=
  (∃ id value, c.encrypts? v = some (id, value) ∧ v.HasKey id ∧ c.DrawsNonce v id) ∨
    (∀ p ∈ c.encrypts? v, ¬v.HasKey p.1) ∧ c.DrawsNothing v

theorem Call.drawsRightly_of_none (h : c.encrypts? v = none) {o : Outcome α}
    (hcall : v.call c = .ofOutcome o) (hnone : ∀ a, o = .value a → c.envelope? a = none) :
    c.DrawsRightly v := by
  refine .inr ⟨?_, drawsNothing_of_eq hcall hnone⟩
  rw [h]
  exact nofun

/-- A call that encrypts a value and goes on with the envelope, without a fault of its own. -/
theorem Call.drawsRightly_of_encryptUnder (hring : v.keys = some ring)
    (h : c.encrypts? v = some (id, value)) {g : ByteArray → Outcome α}
    (hcall : v.call c = encryptUnder ring v.policy id value >>= fun data => .ofOutcome (g data))
    (hfails : ∀ data err, g data ≠ .failure err)
    (henvelope : ∀ data a, g data = .value a → c.envelope? a = some data) : c.DrawsRightly v := by
  obtain ⟨keys, hkeys, hid, hencrypt⟩ | ⟨hnone, err, hencrypt⟩ :=
    encryptUnder_cases ring v.policy id value
  · rw [hencrypt, Drawing.withNonce_bind] at hcall
    refine .inl ⟨id, value, h, ⟨ring, keys, hring, hkeys, hid⟩, drawsNonce_of_eq hcall ?_ ?_⟩
    · exact fun nonce => hfails _
    · intro nonce a ha
      exact ⟨_, written_wellFormed v.policy keys hid value nonce, rfl, rfl, henvelope _ a ha⟩
  · refine .inr ⟨?_, drawsNothing_of_eq (o := .failure err) (by rw [hcall, hencrypt]; rfl) nofun⟩
    rintro _ hp ⟨ring', keys, hring', hkeys, hid⟩
    cases h.symm.trans hp
    cases hring.symm.trans hring'
    exact hnone ⟨keys, hkeys, hid⟩

/-- A call that encrypts a value and gives the envelope. -/
theorem Call.drawsRightly_of_encrypts {c : Call (Option ByteArray)} (hring : v.keys = some ring)
    (h : c.encrypts? v = some (id, value))
    (hcall : v.call c = encryptUnder ring v.policy id value >>= fun data => .ofOutcome (.value (some data)))
    (henvelope : ∀ data, c.envelope? data = data) : c.DrawsRightly v := by
  refine drawsRightly_of_encryptUnder hring h hcall nofun fun data a ha => ?_
  cases ha
  exact henvelope (some data)

/-- A call that looks the key up before all else, and finds none. -/
theorem Call.drawsRightly_of_notFound (hring : v.keys = some ring) (h : c.encrypts? v = some (id, value))
    {err : Error} (hget : ring.get id = .error err) (hcall : v.call c = .ofOutcome (.failure err)) :
    c.DrawsRightly v := by
  refine .inr ⟨?_, drawsNothing_of_eq hcall nofun⟩
  rintro _ hp ⟨ring', keys, hring', hkeys, -⟩
  cases h.symm.trans hp
  cases hring.symm.trans hring'
  cases hget.symm.trans hkeys

theorem Call.drawsRightly_of_closed (h : v.keys = none) (c : Call α) : c.DrawsRightly v := by
  have hclosed : v.isClosed = true := by rw [isClosed, h]; rfl
  refine .inr ⟨?_, c.closedFault, run_call_of_closed hclosed c, ?_⟩
  · rintro p - ⟨ring, keys, hring, -⟩
    cases h.symm.trans hring
  · intro a ha
    rw [closedFault] at ha
    split at ha <;> cases ha

theorem Call.drawsRightly_encrypt (hring : v.keys = some ring) (value : Option ByteArray) :
    (Call.encrypt value).DrawsRightly v := by
  cases value with
  | none =>
    refine drawsRightly_of_none rfl (o := .value none) ?_ (by rintro _ ⟨⟩; rfl)
    rw [call, Vault.encrypt, ring_of_keys hring]
    rfl
  | some value =>
    refine drawsRightly_of_encrypts hring rfl ?_ fun _ => rfl
    rw [call, Vault.encrypt, ring_of_keys hring]
    rfl

theorem Call.drawsRightly_encryptWithKey (hring : v.keys = some ring) (id : String)
    (value : Option ByteArray) : (Call.encryptWithKey id value).DrawsRightly v := by
  cases value with
  | none =>
    refine drawsRightly_of_none rfl (o := .value none) ?_ (by rintro _ ⟨⟩; rfl)
    rw [call, Vault.encryptWithKey, ring_of_keys hring]
    rfl
  | some value =>
    refine drawsRightly_of_encrypts hring rfl ?_ fun _ => rfl
    rw [call, Vault.encryptWithKey, ring_of_keys hring]
    rfl

/-- The key is looked up for a missing value too, but nothing is drawn. -/
theorem Call.drawsRightly_sealValue (hring : v.keys = some ring) (value : Option ByteArray) :
    (Call.sealValue value).DrawsRightly v := by
  have hcall : v.call (.sealValue value) =
      (liftM (Outcome.ofExcept (ring.get v.defaultId)) : Drawing Subkeys) >>= fun keys =>
        onValue value (encryptUnder ring v.policy v.defaultId) >>= fun ciphertext =>
          pure ⟨ciphertext, value.map keys.blindIndex, v.defaultId⟩ := by
    rw [call, Vault.sealValue, ring_of_keys hring]
    rfl
  cases value with
  | none =>
    refine drawsRightly_of_none rfl (o := Outcome.ofExcept (ring.get v.defaultId) >>= fun _ =>
      .value ⟨none, none, v.defaultId⟩) ?_ ?_
    · rw [hcall]
      exact Drawing.lift_bind _ _
    · intro row hrow
      obtain ⟨keys, -, hrow⟩ := Outcome.bind_eq_value_iff.1 hrow
      cases hrow
      rfl
  | some value =>
    cases hkeys : ring.get v.defaultId with
    | error err =>
      rw [hkeys] at hcall
      exact drawsRightly_of_notFound hring rfl hkeys hcall
    | ok keys =>
      rw [hkeys] at hcall
      refine drawsRightly_of_encryptUnder hring rfl
        (g := fun data => .value ⟨some data, some (keys.blindIndex value), v.defaultId⟩) ?_ ?_ ?_
      · rw [hcall, onValue, Outcome.ofExcept_ok, Drawing.lift_value_bind, Drawing.seq_assoc]
        rfl
      · rintro _ _ ⟨⟩
      · rintro data _ ⟨⟩
        rfl

/-- The normalizer is run after the draw: when it gives up, the nonce is spent and there is no envelope. -/
theorem Call.drawsRightly_sealText (hring : v.keys = some ring) (text : Option String)
    (normalizer : Normalizer) : (Call.sealText text normalizer).DrawsRightly v := by
  have hcall : v.call (.sealText text normalizer) =
      (liftM (Outcome.ofExcept (ring.get v.defaultId)) : Drawing Subkeys) >>= fun _ =>
        onValue (text.map String.toUTF8) (encryptUnder ring v.policy v.defaultId) >>= fun ciphertext =>
          .ofOutcome (v.blindIndexText text normalizer >>= fun index =>
            .value ⟨ciphertext, index, v.defaultId⟩) := by
    rw [call, Vault.sealText, Vault.sealValue, ring_of_keys hring, Drawing.lift_value_bind]
    simp only [Outcome.lift_eq, Drawing.seq_assoc, Drawing.pure_seq]
    congr 1
    funext keys
    congr 1
    funext ciphertext
    exact Drawing.lift_bind _ _
  cases text with
  | none =>
    refine drawsRightly_of_none rfl (o := Outcome.ofExcept (ring.get v.defaultId) >>= fun _ =>
      v.blindIndexText none normalizer >>= fun index => .value ⟨none, index, v.defaultId⟩) ?_ ?_
    · rw [hcall]
      exact Drawing.lift_bind _ _
    · intro row hrow
      obtain ⟨keys, -, hrow⟩ := Outcome.bind_eq_value_iff.1 hrow
      obtain ⟨index, -, hrow⟩ := Outcome.bind_eq_value_iff.1 hrow
      cases hrow
      rfl
  | some text =>
    cases hkeys : ring.get v.defaultId with
    | error err =>
      rw [hkeys] at hcall
      exact drawsRightly_of_notFound hring rfl hkeys hcall
    | ok keys =>
      rw [hkeys] at hcall
      refine drawsRightly_of_encryptUnder hring rfl
        (g := fun data => v.blindIndexText (some text) normalizer >>= fun index =>
          .value ⟨some data, index, v.defaultId⟩) ?_ ?_ ?_
      · rw [hcall, Option.map_some, onValue, Outcome.ofExcept_ok, Drawing.lift_value_bind,
          Drawing.seq_assoc]
        rfl
      · intro data err
        have hindex : v.blindIndexText (some text) normalizer =
            normalizer.apply text >>= fun normal => .value (some (keys.blindIndex normal.toUTF8)) := by
          rw [Vault.blindIndexText, ring_of_keys hring, Outcome.value_bind, hkeys]
          rfl
        have happly := normalizer.yields_apply text
        rw [hindex]
        generalize normalizer.apply text = normal at happly ⊢
        cases happly with
        | value _ => rintro ⟨⟩
        | failure hfails => exact hfails.elim
        | abort _ => rintro ⟨⟩
      · intro data row hrow
        obtain ⟨index, -, hrow⟩ := Outcome.bind_eq_value_iff.1 hrow
        cases hrow
        rfl

theorem Call.drawsRightly_rotate (hring : v.keys = some ring) (envelope : Option ByteArray) :
    (Call.rotate envelope).DrawsRightly v := by
  cases envelope with
  | none =>
    have hdecrypt : v.decrypt none = .value none := by
      rw [Vault.decrypt, ring_of_keys hring]
      rfl
    refine drawsRightly_of_none ?_ (o := .value none) ?_ (by rintro _ ⟨⟩; rfl)
    · rw [encrypts?, hdecrypt]
      rfl
    · rw [call, Vault.rotate, ring_of_keys hring]
      rfl
  | some envelope =>
    have hdecrypt : v.decrypt (some envelope) =
        Outcome.ofExcept (decryptUnder ring envelope none) >>= fun value => .value (some value) := by
      rw [Vault.decrypt, ring_of_keys hring]
      rfl
    have hcall : v.call (.rotate (some envelope)) =
        (liftM (Outcome.ofExcept (decryptUnder ring envelope none)) : Drawing ByteArray) >>= fun value =>
          encryptUnder ring v.policy v.defaultId value >>= fun data => .ofOutcome (.value (some data)) := by
      rw [call, Vault.rotate, ring_of_keys hring, Drawing.lift_value_bind, onValue, Drawing.seq_assoc]
      rfl
    cases hvalue : decryptUnder ring envelope none with
    | error err =>
      rw [hvalue] at hdecrypt hcall
      refine drawsRightly_of_none ?_ (o := .failure err) hcall ?_
      · rw [encrypts?, hdecrypt]
        rfl
      · rintro _ ⟨⟩
    | ok value =>
      rw [hvalue] at hdecrypt hcall
      refine drawsRightly_of_encrypts hring ?_ hcall fun _ => rfl
      rw [encrypts?, hdecrypt]
      rfl

/-- Every call draws as it should, on every vault. -/
theorem call_drawsRightly (v : Vault) (c : Call α) : c.DrawsRightly v := by
  cases hring : v.keys with
  | none => exact Call.drawsRightly_of_closed hring c
  | some ring =>
    cases c with
    | encrypt value => exact Call.drawsRightly_encrypt hring value
    | encryptWithKey id value => exact Call.drawsRightly_encryptWithKey hring id value
    | sealValue value => exact Call.drawsRightly_sealValue hring value
    | sealText text normalizer => exact Call.drawsRightly_sealText hring text normalizer
    | rotate envelope => exact Call.drawsRightly_rotate hring envelope
    | decrypt _ => exact Call.drawsRightly_of_none rfl rfl fun _ _ => rfl
    | decryptWithKey _ _ => exact Call.drawsRightly_of_none rfl rfl fun _ _ => rfl
    | blindIndex _ => exact Call.drawsRightly_of_none rfl rfl fun _ _ => rfl
    | blindIndexText _ _ => exact Call.drawsRightly_of_none rfl rfl fun _ _ => rfl
    | blindIndexWithKey _ _ => exact Call.drawsRightly_of_none rfl rfl fun _ _ => rfl
    | blindIndexAll _ => exact Call.drawsRightly_of_none rfl rfl fun _ _ => rfl
    | rotateIndex _ => exact Call.drawsRightly_of_none rfl rfl fun _ _ => rfl
    | condition _ _ _ => exact Call.drawsRightly_of_none rfl rfl fun _ _ => rfl
    | conditionText _ _ _ _ => exact Call.drawsRightly_of_none rfl rfl fun _ _ => rfl
    | needsRotation _ => exact Call.drawsRightly_of_none rfl rfl fun _ _ => rfl

/-- An error is told before anything is drawn. -/
theorem run_of_failure {e : Entropy} {err : Error} (h : ((v.call c).run e).1 = .failure err)
    (e' : Entropy) : (v.call c).run e' = (.failure err, e') := by
  obtain ⟨_, _, -, -, f, hle, hlt, hfails, -⟩ | ⟨-, o, ho, -⟩ := v.call_drawsRightly c
  · by_cases he : 24 ≤ e.pool.size
    · rw [hle e he] at h
      exact absurd h (hfails _ err)
    · rw [hlt e (Nat.lt_of_not_le he)] at h
      cases h
  · rw [ho] at h ⊢
    exact congrArg (·, e') h

end Vault

/-! ### The envelopes of a run -/

/-- The nonce in the written form of an envelope. -/
def Envelope.nonceIn? (data : ByteArray) : Option ByteArray :=
  (Envelope.decode data).toOption.map fun envelope => envelope.nonce.val

namespace Handles

/-- What can be read off the steps of a run, in order. -/
def collect {β : Type} (f : Handles → Step → Option β) (h : Handles) : List Step → List β
  | [] => []
  | s :: steps => (f h s).toList ++ (h.step s).collect f steps

variable [Zstd.Encoder]

/-- The bytes that a step takes from its source. -/
def drawn? (h : Handles) : Step → Option ByteArray
  | .call name c e => (h.answer? name c e).bind fun (_, rest) => e.taken? rest
  | .bind .. | .clone .. | .close _ => none

/-- The envelope that a step gives. -/
def envelope? (h : Handles) : Step → Option ByteArray
  | .call name c e =>
    match h.answer? name c e with
    | some (.value a, _) => c.envelope? a
    | _ => none
  | .bind .. | .clone .. | .close _ => none

/-- The draws of a run. -/
def draws (h : Handles) (steps : List Step) : List ByteArray :=
  h.collect drawn? steps

/-- The envelopes of a run. -/
def envelopes (h : Handles) (steps : List Step) : List ByteArray :=
  h.collect envelope? steps

/-- A step that gives an envelope has drawn its nonce. -/
theorem nonceIn?_of_envelope? {h : Handles} {s : Step} {data : ByteArray}
    (hdata : h.envelope? s = some data) :
    ∃ nonce, h.drawn? s = some nonce ∧ Envelope.nonceIn? data = some nonce := by
  cases s with
  | bind | clone | close => cases hdata
  | call name c e =>
    rw [envelope?, answer?] at hdata
    rw [drawn?, answer?]
    cases hv : h.get? name with
    | none => simp [hv] at hdata
    | some v =>
      simp only [hv, Option.map_some, Option.bind_some] at hdata ⊢
      obtain ⟨_, _, -, -, f, hle, hlt, -, hgives⟩ | ⟨-, o, ho, hnone⟩ := v.call_drawsRightly c
      · by_cases he : 24 ≤ e.pool.size
        · rw [hle e he] at hdata ⊢
          cases ha : f (e.next 24 he) with
          | value a =>
            rw [ha] at hdata
            obtain ⟨data', envelope, hdata', hdecode, -, hnonce⟩ := hgives _ a ha
            cases hdata.symm.trans hdata'
            refine ⟨_, Entropy.taken?_rest (by decide) he, ?_⟩
            rw [Envelope.nonceIn?, hdecode, ← hnonce]
            rfl
          | failure err => simp [ha] at hdata
          | abort cause => simp [ha] at hdata
        · simp [hlt e (Nat.lt_of_not_le he)] at hdata
      · rw [ho] at hdata
        cases o with
        | value a => cases (hnone a rfl).symm.trans hdata
        | failure err => cases hdata
        | abort cause => cases hdata

theorem step_nonce_sublist (h : Handles) (s : Step) :
    ((h.envelope? s).toList.map Envelope.nonceIn?).Sublist ((h.drawn? s).toList.map some) := by
  cases hdata : h.envelope? s with
  | none => exact List.nil_sublist _
  | some data =>
    obtain ⟨nonce, hdrawn, hnonce⟩ := nonceIn?_of_envelope? hdata
    rw [hdrawn, Option.toList_some, Option.toList_some, List.map_singleton, List.map_singleton, hnonce]

/-- Along a run, the nonces of the envelopes are among the draws, in the same order. -/
theorem nonces_sublist_draws (h : Handles) (steps : List Step) :
    ((h.envelopes steps).map Envelope.nonceIn?).Sublist ((h.draws steps).map some) := by
  induction steps generalizing h with
  | nil => exact List.Sublist.refl _
  | cons s steps ih =>
    rw [envelopes, draws, collect, collect, List.map_append, List.map_append]
    exact (h.step_nonce_sublist s).append (ih (h.step s))

end Handles

namespace Vault

/-- On an open vault a call draws nothing, unless it has a value to encrypt and an active id to encrypt it
under; the value to move must have been decrypted. Then it draws 24 bytes, which are the nonce of the
envelope that it gives, and is given up if there are fewer. So an error is told from every source. Along
any run over any vaults in which no draw comes twice, no two envelopes have the same nonce, or are the
same. -/
theorem call_draws_its_nonce [Zstd.Encoder] {source : KeySource} {v : Vault} (hv : v.OpenOn source) :
    (∀ {α : Type} (c : Call α) {id : String} {value : ByteArray}, c.encrypts? v = some (id, value) →
      id ∈ v.activeIds → c.DrawsNonce v id) ∧
    (∀ {α : Type} (c : Call α), (∀ p ∈ c.encrypts? v, p.1 ∉ v.activeIds) → c.DrawsNothing v) ∧
    (∀ {α : Type} (c : Call α) {e : Entropy} {err : Error}, ((v.call c).run e).1 = .failure err →
      ∀ e', (v.call c).run e' = (.failure err, e')) ∧
    ∀ (h : Handles) (steps : List Handles.Step), (h.draws steps).Nodup →
      ((h.envelopes steps).map Envelope.nonceIn?).Nodup ∧ (h.envelopes steps).Nodup ∧
      ∀ data ∈ h.envelopes steps, ∃ nonce ∈ h.draws steps, Envelope.nonceIn? data = some nonce := by
  obtain ⟨ring, hv⟩ := hv.opened
  refine ⟨fun {α} c {id value} hc hid => ?_, fun {α} c hc => ?_, fun c _ _ => run_of_failure,
    fun h steps hnodup => ?_⟩
  · obtain ⟨id', value', hc', -, hdraws⟩ | ⟨hno, -⟩ := v.call_drawsRightly c
    · cases hc.symm.trans hc'
      exact hdraws
    · exact absurd (hv.hasKey_iff.2 hid) (hno _ hc)
  · obtain ⟨id', value', hc', hkey, -⟩ | ⟨-, hdraws⟩ := v.call_drawsRightly c
    · exact absurd (hv.hasKey_iff.1 hkey) (hc _ hc')
    · exact hdraws
  · have hsublist := h.nonces_sublist_draws steps
    have hnonces := (hnodup.map fun _ _ => Option.some.inj).sublist hsublist
    refine ⟨hnonces, hnonces.of_map, fun data hdata => ?_⟩
    obtain ⟨nonce, hnonce, heq⟩ := List.mem_map.1 (hsublist.subset (List.mem_map_of_mem hdata))
    exact ⟨nonce, hnonce, heq.symm⟩

/-- One value is encrypted twice, under both ids of one master key, from sources of 24 bytes; the envelopes
are kept apart by their nonces. Without a source, garbage is still told to be garbage. -/
theorem call_draws_its_nonce_twins :
    let v := Twins.vault "new" .initial
    let h := Handles.empty.bind "v" v
    let steps : List Handles.Step :=
      [.call "v" (.encrypt (some "a".toUTF8)) ⟨Bytes.replicate 24 1, ""⟩,
        .call "v" (.encryptWithKey "old" (some "a".toUTF8)) ⟨Bytes.replicate 24 2, ""⟩]
    v.OpenOn (Twins.source "new") ∧ h.draws steps = [Bytes.replicate 24 1, Bytes.replicate 24 2] ∧
      (h.envelopes steps).length = 2 ∧ (h.envelopes steps).Nodup ∧
      (v.rotate (some "a".toUTF8)).run ⟨ByteArray.empty, ""⟩ =
        (.failure (.invalidFormat (.tooShort 1)), ⟨ByteArray.empty, ""⟩) := by
  intro v h steps
  have hv : v.OpenOn (Twins.source "new") := Twins.openOn (by decide) .initial
  obtain ⟨hdraws, -, hfailure, hruns⟩ := call_draws_its_nonce hv
  obtain ⟨ring, hring⟩ := hv.opened
  obtain ⟨new, hnew⟩ := hring.exists_get hring.default_mem
  have hmem : "old" ∈ v.activeIds := by decide
  obtain ⟨old, hold⟩ := hring.exists_get hmem
  have hget : h.get? "v" = some v := rfl
  have hencrypt := hring.encrypt_run hnew "a".toUTF8 (e := ⟨Bytes.replicate 24 1, ""⟩) (by decide)
  have hencryptOld :=
    hring.encryptWithKey_run hold "a".toUTF8 (e := ⟨Bytes.replicate 24 2, ""⟩) (by decide)
  have hdrawn : h.draws steps = [Bytes.replicate 24 1, Bytes.replicate 24 2] := by
    simp only [steps, Handles.draws, Handles.collect, Handles.step, Handles.drawn?, Handles.answer?, hget,
      Option.map_some, Option.bind_some, call, hencrypt, hencryptOld]
    rw [Entropy.taken?_rest (by decide) (by decide), Entropy.taken?_rest (by decide) (by decide)]
    decide
  refine ⟨hv, hdrawn, ?_, (hruns h steps (by rw [hdrawn]; decide)).2.1, ?_⟩
  · simp only [steps, Handles.envelopes, Handles.collect, Handles.step, Handles.envelope?, Handles.answer?,
      hget, Option.map_some, call, hencrypt, hencryptOld, Call.envelope?]
    rfl
  · refine hfailure (.rotate (some "a".toUTF8)) (e := ⟨Bytes.replicate 24 1, ""⟩) ?_ _
    have hshort : decryptUnder ring "a".toUTF8 none = .error (.invalidFormat (.tooShort 1)) := rfl
    rw [call, hring.rotate_some, hshort]
    rfl

end Vault

end ColumnVault
