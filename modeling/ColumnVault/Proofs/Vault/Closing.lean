import ColumnVault.Proofs.Vault.Acceptance
import ColumnVault.Search.Condition
import ColumnVault.Vault.Handles
import ColumnVault.Vault.Rotation

/-! Closing a vault. Its operations ask for the keys before they do anything else, so on a closed vault
each of them tells so, whatever it is called with, and on an open vault none of them ever does. A vault
stays open until it is closed under one of its names, and then it is closed under all of them for good. -/

namespace ColumnVault

/-! ### Outcomes that do not tell of a closed vault -/

theorem bind_ne_closed {α β : Type} {x : Except Error α} {f : α → Except Error β}
    (hx : x ≠ .error .closed) (hf : ∀ a, f a ≠ .error .closed) : (x >>= f) ≠ .error .closed := by
  cases x with
  | error e => exact fun h => hx (congrArg Except.error (Except.error.inj h))
  | ok a => exact hf a

/-- Neither an error nor an end of the call for the reason that the vault is closed. -/
structure Outcome.OfOpen {α : Type} (o : Outcome α) : Prop where
  failure : o ≠ .failure .closed
  abort : o ≠ .abort .closed
  condition : o ≠ .abort (.condition .closed)

/-- From no source of random bytes is there an outcome that tells of a closed vault. -/
def Drawing.OfOpen {α : Type} (d : Drawing α) : Prop :=
  ∀ e, (d.run e).1.OfOpen

section OfOpen
variable {α β : Type}

theorem Outcome.ofOpen_value (a : α) : (Outcome.value a).OfOpen :=
  ⟨nofun, nofun, nofun⟩

theorem Outcome.ofOpen_ofExcept {x : Except Error α} (h : x ≠ .error .closed) :
    (ofExcept x).OfOpen := by
  cases x with
  | error e => exact ⟨fun he => h (by cases he; rfl), nofun, nofun⟩
  | ok a => exact ofOpen_value a

theorem Outcome.OfOpen.bind {o : Outcome α} {f : α → Outcome β} (ho : o.OfOpen)
    (hf : ∀ a, (f a).OfOpen) : (o >>= f).OfOpen := by
  cases o with
  | value a => exact hf a
  | failure e => exact ⟨fun h => ho.failure (by cases h; rfl), nofun, nofun⟩
  | abort c => exact ⟨nofun, fun h => ho.abort (by cases h; rfl), fun h => ho.condition (by cases h; rfl)⟩

theorem Drawing.ofOpen_lift {o : Outcome α} (h : o.OfOpen) : (liftM o : Drawing α).OfOpen :=
  fun _ => h

theorem Drawing.OfOpen.bind {d : Drawing α} {f : α → Drawing β} (hd : d.OfOpen)
    (hf : ∀ a, (f a).OfOpen) : (d >>= f).OfOpen := by
  intro e
  have h := hd e
  rw [run_bind]
  revert h
  rcases d.run e with ⟨a | x | c, e'⟩ <;> intro h
  · exact hf a e'
  · exact ⟨fun hx => h.failure (by cases hx; rfl), nofun, nofun⟩
  · exact ⟨nofun, fun hx => h.abort (by cases hx; rfl), fun hx => h.condition (by cases hx; rfl)⟩

theorem Drawing.ofOpen_pure (a : α) : (pure a : Drawing α).OfOpen :=
  fun _ => Outcome.ofOpen_value a

theorem Drawing.ofOpen_bytes (n : Nat) : (Drawing.bytes n).OfOpen := by
  intro e
  by_cases h : n ≤ e.pool.size
  · rw [run_bytes_of_le h]
    exact Outcome.ofOpen_value _
  · rw [run_bytes_of_lt (Nat.lt_of_not_le h)]
    exact ⟨nofun, nofun, nofun⟩

end OfOpen

theorem KeyRing.get_ne_closed (r : KeyRing) (id : String) : r.get id ≠ .error .closed := by
  rw [get]
  split <;> simp

theorem Envelope.split_ne_closed (data : ByteArray) : Envelope.split data ≠ .error .closed := by
  rw [split]
  dsimp only
  split_ifs <;> try simp
  split <;> simp

theorem Envelope.decode_ne_closed (data : ByteArray) : Envelope.decode data ≠ .error .closed :=
  bind_ne_closed (split_ne_closed data) fun _ => nofun

theorem Envelope.encode_ne_closed (e : Envelope) : e.encode ≠ .error .closed := by
  rw [encode]
  split
  · simp
  · simp only [pure_eq_ok]
    split_ifs <;> simp

theorem BoundPayload.encode_ne_closed (id : String) (payload : ByteArray) :
    BoundPayload.encode id payload ≠ .error .closed := by
  rw [encode]
  split <;> simp

theorem BoundPayload.decode_ne_closed (data : ByteArray) :
    BoundPayload.decode data ≠ .error .closed := by
  rw [decode]
  dsimp only
  split_ifs <;> simp

theorem Algorithm.ofFlag_ne_closed (b : UInt8) : Algorithm.ofFlag b ≠ .error .closed := by
  rw [ofFlag]
  split_ifs <;> simp

theorem Packing.unpack_ne_closed (algorithm : Algorithm) (data : ByteArray) :
    unpack algorithm data ≠ .error .closed := by
  rw [unpack.eq_def]
  split
  · simp
  · split <;> simp
  · simp

theorem Search.checkColumn_ne_closed (column : String) : checkColumn column ≠ .error .closed := by
  rw [checkColumn]
  split_ifs <;> simp

theorem Search.checkOffset_ne_closed (offset keyCount : Nat) :
    checkOffset offset keyCount ≠ .error .closed := by
  rw [checkOffset]
  split
  · split_ifs <;> simp
  · simp

theorem Normalizer.ofOpen_apply (normalizer : Normalizer) (s : String) :
    (normalizer.apply s).OfOpen := by
  rw [apply.eq_def]
  split <;> try exact Outcome.ofOpen_value _
  split
  · exact Outcome.ofOpen_value _
  · exact ⟨nofun, nofun, nofun⟩

namespace Vault

theorem indexesUnder_ne_closed (ring : KeyRing) (value : ByteArray) :
    ∀ ids, indexesUnder ring value ids ≠ .error .closed
  | [] => nofun
  | id :: rest =>
    bind_ne_closed (ring.get_ne_closed id) fun _ =>
      bind_ne_closed (indexesUnder_ne_closed ring value rest) fun _ => nofun

theorem openEnvelope_ne_closed (ring : KeyRing) (e : Envelope) : openEnvelope ring e ≠ .error .closed := by
  apply bind_ne_closed (ring.get_ne_closed _)
  intro keys
  split
  · simp
  · next packed _ =>
    apply bind_ne_closed (bind_ne_closed (Algorithm.ofFlag_ne_closed _) fun _ => Packing.unpack_ne_closed _ _)
    intro content
    apply bind_ne_closed (BoundPayload.decode_ne_closed _)
    intro bound
    split_ifs <;> simp

theorem decryptUnder_ne_closed (ring : KeyRing) (data : ByteArray) (expected : Option String) :
    decryptUnder ring data expected ≠ .error .closed := by
  cases expected with
  | none =>
    rw [decryptUnder_none]
    exact bind_ne_closed (Envelope.decode_ne_closed data) (openEnvelope_ne_closed ring)
  | some id =>
    rw [decryptUnder_some]
    apply bind_ne_closed (Envelope.decode_ne_closed data)
    intro e
    split_ifs
    · simp
    · exact openEnvelope_ne_closed ring e

theorem ofOpen_encryptUnder [Zstd.Encoder] (ring : KeyRing) (policy : Policy) (id : String)
    (value : ByteArray) : (encryptUnder ring policy id value).OfOpen := by
  apply Drawing.OfOpen.bind (Drawing.ofOpen_lift (Outcome.ofOpen_ofExcept (ring.get_ne_closed id)))
  intro keys
  apply Drawing.OfOpen.bind
    (Drawing.ofOpen_lift (Outcome.ofOpen_ofExcept (BoundPayload.encode_ne_closed id value)))
  intro bound
  apply Drawing.OfOpen.bind (Drawing.ofOpen_bytes nonceSize)
  intro nonce
  exact Drawing.ofOpen_lift (Outcome.ofOpen_ofExcept (Envelope.encode_ne_closed _))

theorem ofOpen_onValue {α β : Type} (value : Option α) {f : α → Drawing β} (hf : ∀ a, (f a).OfOpen) :
    (onValue value f).OfOpen := by
  cases value with
  | none => exact Drawing.ofOpen_pure none
  | some a => exact (hf a).bind fun _ => Drawing.ofOpen_pure _

/-! ### Calls -/

/-- An operation of a vault with what it is called with, by the type of its value. -/
inductive Call : Type → Type
  | encrypt (value : Option ByteArray) : Call (Option ByteArray)
  | decrypt (envelope : Option ByteArray) : Call (Option ByteArray)
  | sealValue (value : Option ByteArray) : Call SealedValue
  | sealText (text : Option String) (normalizer : Normalizer) : Call SealedValue
  | blindIndex (value : Option ByteArray) : Call (Option ByteArray)
  | blindIndexText (text : Option String) (normalizer : Normalizer) : Call (Option ByteArray)
  | condition (column : String) (value : Option ByteArray) (offset : Nat) : Call Search.Condition
  | conditionText (column : String) (text : Option String) (normalizer : Normalizer) (offset : Nat) :
    Call Search.Condition
  | rotate (envelope : Option ByteArray) : Call (Option ByteArray)
  | rotateIndex (value : Option ByteArray) : Call (Option ByteArray)
  | needsRotation (envelope : Option ByteArray) : Call Bool
  | encryptWithKey (id : String) (value : Option ByteArray) : Call (Option ByteArray)
  | decryptWithKey (id : String) (envelope : Option ByteArray) : Call (Option ByteArray)
  | blindIndexWithKey (id : String) (value : Option ByteArray) : Call (Option ByteArray)
  | blindIndexAll (value : Option ByteArray) : Call (Option (List (String × ByteArray)))

variable {α : Type}

def Call.shape : Call α → Shape
  | .encrypt .. | .decrypt .. | .sealValue .. | .sealText .. | .blindIndex .. | .blindIndexText ..
  | .condition .. | .conditionText .. | .rotate .. | .rotateIndex .. | .needsRotation .. => .defaultKey
  | .encryptWithKey .. | .decryptWithKey .. | .blindIndexWithKey .. | .blindIndexAll .. => .namedKey

def call [Zstd.Encoder] (v : Vault) : Call α → Drawing α
  | .encrypt value => v.encrypt value
  | .decrypt envelope => liftM (v.decrypt envelope)
  | .sealValue value => v.sealValue value
  | .sealText text normalizer => v.sealText text normalizer
  | .blindIndex value => liftM (v.blindIndex value)
  | .blindIndexText text normalizer => liftM (v.blindIndexText text normalizer)
  | .condition column value offset => liftM (v.condition column value offset)
  | .conditionText column text normalizer offset =>
    liftM (v.conditionText column text normalizer offset)
  | .rotate envelope => v.rotate envelope
  | .rotateIndex value => liftM (v.rotateIndex value)
  | .needsRotation envelope => liftM (v.needsRotation envelope)
  | .encryptWithKey id value => v.encryptWithKey id value
  | .decryptWithKey id envelope => liftM (v.decryptWithKey id envelope)
  | .blindIndexWithKey id value => liftM (v.blindIndexWithKey id value)
  | .blindIndexAll value => liftM (v.blindIndexAll value)

/-- How a call tells that the vault is closed: with the default key it is given up, with a named key it
comes back with an error. -/
def Call.closedFault (c : Call α) : Outcome α :=
  match c.shape with
  | .defaultKey => .abort .closed
  | .namedKey => .failure .closed

theorem ring_of_closed {v : Vault} (h : v.isClosed = true) (shape : Shape) :
    v.ring shape = match shape with
      | .defaultKey => .abort .closed
      | .namedKey => .failure .closed := by
  rw [isClosed, Option.isNone_iff_eq_none] at h
  cases shape <;> simp [Vault.ring, h]

/-- Every call begins with the request for the keys. -/
theorem call_eq [Zstd.Encoder] (v : Vault) (c : Call α) :
    ∃ f : KeyRing → Drawing α, v.call c = (liftM (v.ring c.shape) : Drawing KeyRing) >>= f := by
  have hlift {β : Type} (shape : Shape) (f : KeyRing → Outcome β) :
      (liftM (v.ring shape >>= f) : Drawing β) =
        (liftM (v.ring shape) : Drawing KeyRing) >>= fun r => liftM (f r) := by
    cases v.ring shape <;> rfl
  cases c with
  | encrypt value => exact ⟨_, rfl⟩
  | decrypt envelope => exact ⟨_, hlift _ _⟩
  | sealValue value => exact ⟨_, rfl⟩
  | sealText text normalizer => exact ⟨_, Drawing.seq_assoc _ _ _⟩
  | blindIndex value => exact ⟨_, hlift _ _⟩
  | blindIndexText text normalizer => exact ⟨_, hlift _ _⟩
  | condition column value offset => exact ⟨_, hlift _ _⟩
  | conditionText column text normalizer offset => exact ⟨_, hlift _ _⟩
  | rotate envelope => exact ⟨_, rfl⟩
  | rotateIndex value => exact ⟨_, hlift _ _⟩
  | needsRotation envelope => exact ⟨_, hlift _ _⟩
  | encryptWithKey id value => exact ⟨_, rfl⟩
  | decryptWithKey id envelope => exact ⟨_, hlift _ _⟩
  | blindIndexWithKey id value => exact ⟨_, hlift _ _⟩
  | blindIndexAll value => exact ⟨_, hlift _ _⟩

/-- On a closed vault a call tells so and draws nothing, whatever it was called with. -/
theorem run_call_of_closed [Zstd.Encoder] {v : Vault} (h : v.isClosed = true) (c : Call α) (e : Entropy) :
    (v.call c).run e = (c.closedFault, e) := by
  obtain ⟨f, hf⟩ := v.call_eq c
  rw [hf, ring_of_closed h, Call.closedFault]
  cases c.shape <;> rfl

theorem ofOpen_ring {v : Vault} (h : v.isClosed = false) (shape : Shape) : (v.ring shape).OfOpen := by
  obtain ⟨keys, hkeys⟩ : ∃ keys, v.keys = some keys := by
    rw [isClosed, Option.isNone_eq_false_iff, Option.isSome_iff_exists] at h
    exact h
  have hring : v.ring shape = .value keys := by simp [Vault.ring, hkeys]
  rw [hring]
  exact Outcome.ofOpen_value keys

theorem ofOpen_condition {v : Vault} (h : v.isClosed = false) (column : String)
    (value : Option ByteArray) (offset : Nat) : (v.condition column value offset).OfOpen := by
  apply (ofOpen_ring h .defaultKey).bind
  intro ring
  have haborts {x : Except Error Unit} (hx : x ≠ .error .closed) {e : Error} (he : x = .error e) :
      (Outcome.abort (.condition e) : Outcome Search.Condition).OfOpen :=
    ⟨nofun, nofun, fun h => hx (by cases h; exact he)⟩
  split
  · next e he =>
    refine haborts (bind_ne_closed (Search.checkColumn_ne_closed column) fun _ => ?_) he
    exact Search.checkOffset_ne_closed offset _
  · split
    · exact Outcome.ofOpen_value _
    · next value =>
      split
      · next e he =>
        refine ⟨nofun, nofun, fun h => indexesUnder_ne_closed ring value v.activeIds ?_⟩
        cases h
        exact he
      · exact Outcome.ofOpen_value _

theorem ofOpen_blindIndexText {v : Vault} (h : v.isClosed = false) (text : Option String)
    (normalizer : Normalizer) : (v.blindIndexText text normalizer).OfOpen := by
  apply (ofOpen_ring h .defaultKey).bind
  intro ring
  split
  · exact (normalizer.ofOpen_apply _).bind fun _ => Outcome.ofOpen_value _
  · exact Outcome.ofOpen_value _

theorem ofOpen_sealValue [Zstd.Encoder] {v : Vault} (h : v.isClosed = false) (value : Option ByteArray) :
    (v.sealValue value).OfOpen := by
  apply (Drawing.ofOpen_lift (ofOpen_ring h .defaultKey)).bind
  intro ring
  apply Drawing.OfOpen.bind (Drawing.ofOpen_lift (Outcome.ofOpen_ofExcept (ring.get_ne_closed _)))
  intro keys
  exact (ofOpen_onValue value (ofOpen_encryptUnder ring _ _)).bind fun _ => Drawing.ofOpen_pure _

/-- On an open vault no call ever tells that it is closed. -/
theorem ofOpen_call [Zstd.Encoder] {v : Vault} (h : v.isClosed = false) (c : Call α) :
    (v.call c).OfOpen := by
  have hring := ofOpen_ring h
  have hdecrypt (ring : KeyRing) (e : ByteArray) (expected : Option String) :
      (Outcome.ofExcept (decryptUnder ring e expected)).OfOpen :=
    Outcome.ofOpen_ofExcept (decryptUnder_ne_closed ring e expected)
  cases c with
  | encrypt value =>
    exact (Drawing.ofOpen_lift (hring _)).bind fun ring => ofOpen_onValue value (ofOpen_encryptUnder ring _ _)
  | decrypt envelope =>
    apply Drawing.ofOpen_lift
    apply (hring _).bind
    intro ring
    cases envelope with
    | none => exact Outcome.ofOpen_value none
    | some e => exact (hdecrypt ring e none).bind fun _ => Outcome.ofOpen_value _
  | sealValue value => exact ofOpen_sealValue h value
  | sealText text normalizer =>
    apply (ofOpen_sealValue h _).bind
    intro sealed
    exact (Drawing.ofOpen_lift (ofOpen_blindIndexText h text normalizer)).bind fun _ =>
      Drawing.ofOpen_pure _
  | blindIndex value =>
    apply Drawing.ofOpen_lift
    apply (hring _).bind
    intro ring
    split <;> exact Outcome.ofOpen_value _
  | blindIndexText text normalizer => exact Drawing.ofOpen_lift (ofOpen_blindIndexText h text normalizer)
  | condition column value offset => exact Drawing.ofOpen_lift (ofOpen_condition h column value offset)
  | conditionText column text normalizer offset =>
    apply Drawing.ofOpen_lift
    apply (hring _).bind
    intro ring
    cases text with
    | none => exact ofOpen_condition h column none offset
    | some s =>
      exact (normalizer.ofOpen_apply s).bind fun normal =>
        ofOpen_condition h column (some normal.toUTF8) offset
  | rotate envelope =>
    apply (Drawing.ofOpen_lift (hring _)).bind
    intro ring
    apply ofOpen_onValue
    intro e
    exact (Drawing.ofOpen_lift (hdecrypt ring e none)).bind fun value => ofOpen_encryptUnder ring _ _ value
  | rotateIndex value =>
    apply Drawing.ofOpen_lift
    apply (hring _).bind
    intro ring
    split <;> exact Outcome.ofOpen_value _
  | needsRotation envelope =>
    apply Drawing.ofOpen_lift
    apply (hring _).bind
    intro ring
    split
    · exact Outcome.ofOpen_value _
    · split <;> exact Outcome.ofOpen_value _
  | encryptWithKey id value =>
    exact (Drawing.ofOpen_lift (hring _)).bind fun ring => ofOpen_onValue value (ofOpen_encryptUnder ring _ _)
  | decryptWithKey id envelope =>
    apply Drawing.ofOpen_lift
    apply (hring _).bind
    intro ring
    cases envelope with
    | none => exact Outcome.ofOpen_value none
    | some e => exact (hdecrypt ring e (some id)).bind fun _ => Outcome.ofOpen_value _
  | blindIndexWithKey id value =>
    apply Drawing.ofOpen_lift
    apply (hring _).bind
    intro ring
    cases value with
    | none => exact Outcome.ofOpen_value none
    | some value =>
      exact (Outcome.ofOpen_ofExcept (ring.get_ne_closed id)).bind fun _ => Outcome.ofOpen_value _
  | blindIndexAll value =>
    apply Drawing.ofOpen_lift
    apply (hring _).bind
    intro ring
    cases value with
    | none => exact Outcome.ofOpen_value none
    | some value =>
      exact (Outcome.ofOpen_ofExcept (indexesUnder_ne_closed ring value _)).bind fun _ =>
        Outcome.ofOpen_value _

end Vault

/-! ### Runs -/

namespace Handles

/-- What is done with named vaults: a name is given to another vault, or to the vault of another name, or
the vault of a name is closed or called. -/
inductive Step : Type 1
  | bind (name : String) (v : Vault)
  | clone (name other : String)
  | close (name : String)
  | call (name : String) {α : Type} (c : Vault.Call α) (e : Entropy)

/-- The vaults and names after a step. A name that stands for nothing leaves them as they are, and so does
every call. -/
def step (h : Handles) : Step → Handles
  | .bind name v => h.bind name v
  | .clone name other => (h.clone? name other).getD h
  | .close name => (h.close? name).getD h
  | .call .. => h

def run (h : Handles) (steps : List Step) : Handles :=
  steps.foldl step h

@[simp] theorem run_nil (h : Handles) : h.run [] = h := rfl

@[simp] theorem run_cons (h : Handles) (s : Step) (steps : List Step) :
    h.run (s :: steps) = (h.step s).run steps := rfl

/-- What a call under a name comes to. -/
def answer? [Zstd.Encoder] {α : Type} (h : Handles) (name : String) (c : Vault.Call α) (e : Entropy) :
    Option (Outcome α × Entropy) :=
  (h.get? name).map fun v => (v.call c).run e

/-- A step closes the vault at a place, under whichever of its names. -/
def Closes (h : Handles) (place : Nat) (s : Step) : Prop :=
  ∃ name, s = .close name ∧ h.place? name = some place

/-- Somewhere in a run the vault at a place is closed. -/
def ClosedIn (h : Handles) (place : Nat) (steps : List Step) : Prop :=
  ∃ before s after, steps = before ++ s :: after ∧ (h.run before).Closes place s

theorem not_closedIn_nil (h : Handles) (place : Nat) : ¬ h.ClosedIn place [] := by
  rintro ⟨before, s, after, heq, -⟩
  exact absurd heq.symm (List.append_ne_nil_of_right_ne_nil before (List.cons_ne_nil s after))

theorem closedIn_cons {h : Handles} {place : Nat} {s : Step} {steps : List Step} :
    h.ClosedIn place (s :: steps) ↔ h.Closes place s ∨ (h.step s).ClosedIn place steps := by
  constructor
  · rintro ⟨before, s', after, heq, hclose⟩
    cases before with
    | nil =>
      cases heq
      exact .inl hclose
    | cons t before =>
      cases heq
      exact .inr ⟨before, s', after, rfl, hclose⟩
  · rintro (hclose | ⟨before, s', after, rfl, hclose⟩)
    · exact ⟨[], s, steps, rfl, hclose⟩
    · exact ⟨s :: before, s', after, rfl, hclose⟩

/-- One step leaves a vault as it is, unless it closes it. -/
theorem vault_step {h : Handles} {place : Nat} {v : Vault} (hv : h.vaults[place]? = some v) (s : Step) :
    (h.Closes place s → (h.step s).vaults[place]? = some v.close) ∧
      (¬ h.Closes place s → (h.step s).vaults[place]? = some v) := by
  cases s with
  | bind name w =>
    refine ⟨fun ⟨_, hs, _⟩ => (nomatch hs), fun _ => ?_⟩
    have hlt : place < h.vaults.length := (List.getElem?_eq_some_iff.1 hv).1
    show (h.vaults ++ [w])[place]? = some v
    rw [List.getElem?_append_left hlt, hv]
  | clone name other =>
    refine ⟨fun ⟨_, hs, _⟩ => (nomatch hs), fun _ => ?_⟩
    rw [step, clone?]
    cases h.place? name <;> exact hv
  | close name =>
    rw [step, close?]
    constructor
    · rintro ⟨_, ⟨⟩, hplace⟩
      rw [hplace]
      show (h.vaults.modify place Vault.close)[place]? = _
      rw [List.getElem?_modify_eq, hv]
      rfl
    · intro hclose
      cases hplace : h.place? name with
      | none => exact hv
      | some other =>
        have hne : other ≠ place := by
          rintro rfl
          exact hclose ⟨name, rfl, hplace⟩
        show (h.vaults.modify other Vault.close)[place]? = some v
        rw [List.getElem?_modify_ne _ _ hne, hv]
  | call name c e => exact ⟨fun ⟨_, hs, _⟩ => (nomatch hs), fun _ => hv⟩

/-- A run leaves a vault as it is, unless the vault is closed in it. The induction is on the run, with a
vault that may be closed at its start. -/
theorem vault_run {h : Handles} {place : Nat} {v : Vault} (hv : h.vaults[place]? = some v)
    (steps : List Step) :
    (h.ClosedIn place steps → (h.run steps).vaults[place]? = some v.close) ∧
      (¬ h.ClosedIn place steps → (h.run steps).vaults[place]? = some v) := by
  induction steps generalizing h v with
  | nil => exact ⟨fun hclosed => absurd hclosed (h.not_closedIn_nil place), fun _ => hv⟩
  | cons s steps ih =>
    obtain ⟨hcloses, hkeeps⟩ := vault_step hv s
    rw [closedIn_cons, run_cons]
    by_cases hs : h.Closes place s
    · obtain ⟨hin, hout⟩ := ih (hcloses hs)
      refine ⟨fun _ => ?_, fun hnot => absurd (.inl hs) hnot⟩
      by_cases hrest : (h.step s).ClosedIn place steps
      · exact hin hrest
      · exact hout hrest
    · obtain ⟨hin, hout⟩ := ih (hkeeps hs)
      exact ⟨fun hclosed => hin (hclosed.resolve_left hs), fun hnot => hout fun hrest => hnot (.inr hrest)⟩

theorem get?_of_place? {h : Handles} {name : String} {place : Nat} (hplace : h.place? name = some place) :
    h.get? name = h.vaults[place]? := by
  rw [get?, hplace]
  rfl

/-- An open vault stays as it is along every run until it is closed under one of its names. From then on
it is closed under all of them, and every call tells so at once, whatever it is called with. Before that
no call does. What may be asked of a closed vault is answered as before. -/
theorem closed_for_good [Zstd.Encoder] {h : Handles} {place : Nat} {v : Vault}
    (hv : h.vaults[place]? = some v) (hopen : v.isClosed = false) (steps : List Step) {name : String}
    (hname : (h.run steps).place? name = some place) :
    ∃ w, (h.run steps).get? name = some w ∧
      (w.isClosed = true ↔ h.ClosedIn place steps) ∧
      w.defaultId = v.defaultId ∧ w.activeIds = v.activeIds ∧ w.policy = v.policy ∧
      (¬ h.ClosedIn place steps → w = v ∧ ∀ {α : Type} (c : Vault.Call α) (e : Entropy),
        ∃ o e', (h.run steps).answer? name c e = some (o, e') ∧ o.OfOpen) ∧
      (h.ClosedIn place steps → w = v.close ∧ ∀ {α : Type} (c : Vault.Call α) (e : Entropy),
        (h.run steps).answer? name c e = some (c.closedFault, e)) := by
  obtain ⟨hin, hout⟩ := vault_run hv steps
  by_cases hclosed : h.ClosedIn place steps
  · have hget := (get?_of_place? hname).trans (hin hclosed)
    have hisClosed : v.close.isClosed = true := rfl
    refine ⟨v.close, hget, iff_of_true hisClosed hclosed, rfl, rfl, rfl,
      fun hnot => absurd hclosed hnot, fun _ => ⟨rfl, ?_⟩⟩
    intro α c e
    rw [answer?, hget, Option.map_some, Vault.run_call_of_closed hisClosed]
  · have hget := (get?_of_place? hname).trans (hout hclosed)
    refine ⟨v, hget, iff_of_false (by simp [hopen]) hclosed, rfl, rfl, rfl, fun _ => ⟨rfl, ?_⟩,
      fun hyes => absurd hyes hclosed⟩
    intro α c e
    refine ⟨((v.call c).run e).1, ((v.call c).run e).2, ?_, Vault.ofOpen_call hopen c e⟩
    rw [answer?, hget]
    rfl

/-- A vault is closed under the name of a clone of a clone, and then a call under its first name tells so,
without a look at its normalizer, which would give up. -/
theorem closed_for_good_clones :
    (empty.bind "v" (Vault.Twins.vault "new" .initial)).vaults[0]? =
        some (Vault.Twins.vault "new" .initial) ∧
      (Vault.Twins.vault "new" .initial).isClosed = false ∧
      ((empty.bind "v" (Vault.Twins.vault "new" .initial)).run
        [.clone "v" "w", .call "w" (.encrypt none) ⟨ByteArray.empty, ""⟩, .clone "w" "x",
          .close "x"]).answer? "v" (.sealText (some "a") (.custom fun _ => .error "gives up"))
          ⟨ByteArray.empty, ""⟩ = some (.abort .closed, ⟨ByteArray.empty, ""⟩) := by
  refine ⟨rfl, rfl, ?_⟩
  have hclosed : (empty.bind "v" (Vault.Twins.vault "new" .initial)).ClosedIn 0
      [.clone "v" "w", .call "w" (.encrypt none) ⟨ByteArray.empty, ""⟩, .clone "w" "x", .close "x"] :=
    ⟨[.clone "v" "w", .call "w" (.encrypt none) ⟨ByteArray.empty, ""⟩, .clone "w" "x"], _, [], rfl,
      "x", rfl, rfl⟩
  have hname : ((empty.bind "v" (Vault.Twins.vault "new" .initial)).run
      [.clone "v" "w", .call "w" (.encrypt none) ⟨ByteArray.empty, ""⟩, .clone "w" "x",
        .close "x"]).place? "v" = some 0 := rfl
  obtain ⟨w, -, -, -, -, -, -, hcalls⟩ := closed_for_good rfl rfl _ hname
  exact (hcalls hclosed).2 _ _

end Handles

end ColumnVault
