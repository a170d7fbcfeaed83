import ColumnVault.Outcome
import Mathlib.Tactic.Common

/-! One step after another: what a sequence of steps comes to when its first step is known, and what
its steps came to when the whole gave a value. -/

namespace ColumnVault

section Except
variable {ε α β : Type}

@[simp] theorem ok_bind (a : α) (f : α → Except ε β) : (Except.ok a >>= f) = f a := rfl

@[simp] theorem error_bind (e : ε) (f : α → Except ε β) :
    ((Except.error e : Except ε α) >>= f) = .error e := rfl

@[simp] theorem pure_eq_ok (a : α) : (pure a : Except ε α) = .ok a := rfl

@[simp] theorem throw_eq_error (e : ε) : (throw e : Except ε α) = .error e := rfl

theorem bind_eq_ok {x : Except ε α} {f : α → Except ε β} {b : β} (h : (x >>= f) = .ok b) :
    ∃ a, x = .ok a ∧ f a = .ok b := by
  cases x with
  | error e => cases h
  | ok a => exact ⟨a, rfl, h⟩

theorem bind_eq_error {x : Except ε α} {f : α → Except ε β} {e : ε} (h : (x >>= f) = .error e) :
    x = .error e ∨ ∃ a, x = .ok a ∧ f a = .error e := by
  cases x with
  | error e' => exact .inl (congrArg Except.error (Except.error.inj h))
  | ok a => exact .inr ⟨a, rfl, h⟩

/-- Every value that a computation can give has a property. -/
def Gives (x : Except ε α) (P : α → Prop) : Prop :=
  ∀ a, x = .ok a → P a

theorem gives_ok {a : α} {P : α → Prop} (h : P a) : Gives (.ok a : Except ε α) P := by
  rintro b ⟨⟩
  exact h

theorem gives_error (e : ε) (P : α → Prop) : Gives (.error e) P := by
  rintro a ⟨⟩

theorem gives_bind {x : Except ε α} {f : α → Except ε β} {P : β → Prop}
    (h : ∀ a, x = .ok a → Gives (f a) P) : Gives (x >>= f) P := by
  intro b hb
  obtain ⟨a, hx, hf⟩ := bind_eq_ok hb
  exact h a hx b hf

/-- A check that lets nothing through when it fails. -/
theorem gives_ite {c : Prop} [Decidable c] {x y : Except ε α} {P : α → Prop}
    (hx : c → Gives x P) (hy : ¬c → Gives y P) : Gives (if c then x else y) P := by
  split_ifs with h
  · exact hx h
  · exact hy h

theorem bind_eq_ok_iff {x : Except ε α} {f : α → Except ε β} {b : β} :
    (x >>= f) = .ok b ↔ ∃ a, x = .ok a ∧ f a = .ok b :=
  ⟨bind_eq_ok, fun ⟨_, hx, hf⟩ => hx ▸ hf⟩

end Except

namespace Outcome

variable {α β : Type}

@[simp] theorem ofExcept_ok (a : α) : ofExcept (.ok a) = .value a := rfl

@[simp] theorem ofExcept_error (e : Error) : ofExcept (.error e : Except Error α) = .failure e := rfl

@[simp] theorem lift_eq (x : Except Error α) : (liftM x : Outcome α) = ofExcept x := rfl

theorem ofExcept_eq_value_iff {x : Except Error α} {a : α} : ofExcept x = .value a ↔ x = .ok a := by
  cases x <;> simp

theorem bind_eq_value_iff {x : Outcome α} {f : α → Outcome β} {b : β} :
    (x >>= f) = .value b ↔ ∃ a, x = .value a ∧ f a = .value b := by
  cases x <;> simp

/-- A value with a property, an error of a kind, or an end of the call of a kind. -/
inductive Yields (P : α → Prop) (F : Error → Prop) (A : Abort → Prop) : Outcome α → Prop
  | value {a : α} (h : P a) : Yields P F A (.value a)
  | failure {err : Error} (h : F err) : Yields P F A (.failure err)
  | abort {cause : Abort} (h : A cause) : Yields P F A (.abort cause)

variable {P : α → Prop} {Q : β → Prop} {F F' : Error → Prop} {A A' : Abort → Prop}

theorem Yields.mono {o : Outcome α} (h : o.Yields P F A) (hF : ∀ err, F err → F' err)
    (hA : ∀ cause, A cause → A' cause) : o.Yields P F' A' := by
  cases h with
  | value h => exact .value h
  | failure h => exact .failure (hF _ h)
  | abort h => exact .abort (hA _ h)

theorem Yields.bind {o : Outcome α} {f : α → Outcome β} (ho : o.Yields P F A)
    (hf : ∀ a, P a → (f a).Yields Q F A) : (o >>= f).Yields Q F A := by
  cases ho with
  | value h => exact hf _ h
  | failure h => exact .failure h
  | abort h => exact .abort h

end Outcome

namespace Drawing

variable {α β γ : Type}

@[simp] theorem run_pure (a : α) (e : Entropy) : (pure a : Drawing α).run e = (.value a, e) := rfl

@[simp] theorem run_lift (o : Outcome α) (e : Entropy) : (liftM o : Drawing α).run e = (o, e) := rfl

@[simp] theorem lift_value_bind (a : α) (f : α → Drawing β) :
    ((liftM (Outcome.value a) : Drawing α) >>= f) = f a := rfl

theorem lift_value (a : α) : (liftM (Outcome.value a) : Drawing α) = pure a := rfl

theorem lift_eq_value {o : Outcome α} {a : α} {e e' : Entropy}
    (h : (liftM o : Drawing α).run e = (.value a, e')) : o = .value a :=
  congrArg Prod.fst h

theorem run_bind (d : Drawing α) (f : α → Drawing β) (e : Entropy) :
    (d >>= f).run e = match d.run e with
      | (.value a, e) => (f a).run e
      | (.failure x, e) => (.failure x, e)
      | (.abort c, e) => (.abort c, e) :=
  rfl

/-- A first step that gives a value hands over what is left of the source. -/
theorem run_bind_value {d : Drawing α} {a : α} {e e' : Entropy} (h : d.run e = (.value a, e'))
    (f : α → Drawing β) : (d >>= f).run e = (f a).run e' := by
  rw [run_bind, h]

theorem run_bind_eq_value {d : Drawing α} {f : α → Drawing β} {b : β} {e e'' : Entropy}
    (h : (d >>= f).run e = (.value b, e'')) :
    ∃ a e', d.run e = (.value a, e') ∧ (f a).run e' = (.value b, e'') := by
  rw [run_bind] at h
  rcases hd : d.run e with ⟨_ | _ | _, e'⟩ <;> rw [hd] at h
  · exact ⟨_, _, rfl, h⟩
  · cases h
  · cases h

@[simp] theorem pure_seq (a : α) (f : α → Drawing β) : ((pure a : Drawing α) >>= f) = f a := rfl

theorem seq_assoc (d : Drawing α) (f : α → Drawing β) (g : β → Drawing γ) :
    (d >>= f) >>= g = d >>= fun a => f a >>= g := by
  funext e
  show ((d >>= f) >>= g).run e = (d >>= fun a => f a >>= g).run e
  simp only [run_bind]
  rcases d.run e with ⟨_ | _ | _, e'⟩ <;> rfl

/-- What comes out is of these kinds, whatever the source of random bytes. -/
def Yields (P : α → Prop) (F : Error → Prop) (A : Abort → Prop) (d : Drawing α) : Prop :=
  ∀ e, (d.run e).1.Yields P F A

section Yields
variable {P : α → Prop} {Q : β → Prop} {F F' : Error → Prop} {A A' : Abort → Prop}

theorem yields_pure {a : α} (h : P a) : (pure a : Drawing α).Yields P F A :=
  fun _ => .value h

theorem yields_lift {o : Outcome α} (h : o.Yields P F A) : (liftM o : Drawing α).Yields P F A :=
  fun _ => h

theorem Yields.mono {d : Drawing α} (h : d.Yields P F A) (hF : ∀ err, F err → F' err)
    (hA : ∀ cause, A cause → A' cause) : d.Yields P F' A' :=
  fun e => (h e).mono hF hA

theorem Yields.bind {d : Drawing α} {f : α → Drawing β} (hd : d.Yields P F A)
    (hf : ∀ a, P a → (f a).Yields Q F A) : (d >>= f).Yields Q F A := by
  intro e
  have h := hd e
  rw [run_bind]
  generalize d.run e = r at h
  obtain ⟨o, e'⟩ := r
  cases h with
  | value h => exact hf _ h e'
  | failure h => exact .failure h
  | abort h => exact .abort h

end Yields

end Drawing

theorem Entropy.size_taken (e : Entropy) {n : Nat} (h : n ≤ e.pool.size) :
    (e.pool.extract 0 n).size = n := by
  rw [ByteArray.size_extract]
  omega

/-- The next `n` bytes of a source that has them. -/
def Entropy.next (e : Entropy) (n : Nat) (h : n ≤ e.pool.size) :
    { bytes : ByteArray // bytes.size = n } :=
  ⟨e.pool.extract 0 n, e.size_taken h⟩

/-- What a source is after `n` bytes were drawn. -/
def Entropy.rest (e : Entropy) (n : Nat) : Entropy :=
  { e with pool := e.pool.extract n e.pool.size }

theorem Drawing.run_bytes_of_le {e : Entropy} {n : Nat} (h : n ≤ e.pool.size) :
    (Drawing.bytes n).run e = (.value (e.next n h), e.rest n) := by
  simp only [Drawing.run, Drawing.bytes, Entropy.draw, dif_pos h]
  rfl

theorem Drawing.run_bytes_of_lt {e : Entropy} {n : Nat} (h : e.pool.size < n) :
    (Drawing.bytes n).run e = (.abort (.entropy e.failure), e) := by
  simp only [Drawing.run, Drawing.bytes, Entropy.draw, dif_neg (Nat.not_le.2 h)]

end ColumnVault
