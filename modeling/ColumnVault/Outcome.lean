import ColumnVault.Error

/-! What an operation comes to, and operations that draw random bytes. -/

namespace ColumnVault

/-- Why a call is given up altogether. -/
inductive Abort where
  | closed
  | entropy (text : String)
  | condition (error : Error)
  | normalizer (text : String)
  deriving DecidableEq, Repr

def Abort.message : Abort → String
  | .closed => s!"sealdb: {Error.closed.message}"
  | .entropy text => s!"sealdb: entropy source failure: {text}"
  | .condition error => s!"sealdb: {error.message}"
  | .normalizer text => text

/-- A value, an error that the data is to blame for, or the end of the call. -/
inductive Outcome (α : Type) where
  | value (a : α)
  | failure (error : Error)
  | abort (cause : Abort)
  deriving DecidableEq, Repr

namespace Outcome

variable {α β : Type}

protected def bind : Outcome α → (α → Outcome β) → Outcome β
  | .value a, f => f a
  | .failure e, _ => .failure e
  | .abort c, _ => .abort c

instance : Monad Outcome where
  pure := .value
  bind := Outcome.bind

def ofExcept : Except Error α → Outcome α
  | .ok a => .value a
  | .error e => .failure e

instance : MonadLift (Except Error) Outcome := ⟨ofExcept⟩

@[simp] theorem pure_eq (a : α) : (pure a : Outcome α) = .value a := rfl

@[simp] theorem value_bind (a : α) (f : α → Outcome β) : (Outcome.value a >>= f) = f a := rfl

@[simp] theorem failure_bind (e : Error) (f : α → Outcome β) :
    ((.failure e : Outcome α) >>= f) = .failure e := rfl

@[simp] theorem abort_bind (c : Abort) (f : α → Outcome β) :
    ((.abort c : Outcome α) >>= f) = .abort c := rfl

end Outcome

/-- Random bytes that are still to be drawn, and what the source says when they do not suffice. -/
structure Entropy where
  pool : ByteArray
  failure : String

/-- The next `n` bytes, if there are that many; otherwise nothing is drawn. -/
def Entropy.draw (e : Entropy) (n : Nat) :
    Except String ({ bytes : ByteArray // bytes.size = n } × Entropy) :=
  if h : n ≤ e.pool.size then
    .ok (⟨e.pool.extract 0 n, by rw [ByteArray.size_extract]; omega⟩,
      { e with pool := e.pool.extract n e.pool.size })
  else .error e.failure

/-- An operation that may draw random bytes: its outcome and what is left of the source. -/
def Drawing (α : Type) := Entropy → Outcome α × Entropy

namespace Drawing

variable {α β : Type}

def run (d : Drawing α) (e : Entropy) : Outcome α × Entropy := d e

/-- The same outcome from any source, without a draw. -/
def ofOutcome (o : Outcome α) : Drawing α := fun e => (o, e)

protected def bind (d : Drawing α) (f : α → Drawing β) : Drawing β := fun e =>
  match d e with
  | (.value a, e) => f a e
  | (.failure x, e) => (.failure x, e)
  | (.abort c, e) => (.abort c, e)

instance : Monad Drawing where
  pure a := ofOutcome (.value a)
  bind := Drawing.bind

instance : MonadLift Outcome Drawing := ⟨ofOutcome⟩

/-- `n` random bytes; a source that cannot supply them ends the call. -/
def bytes (n : Nat) : Drawing { bytes : ByteArray // bytes.size = n } := fun e =>
  match e.draw n with
  | .ok (b, e) => (.value b, e)
  | .error text => (.abort (.entropy text), e)

end Drawing

end ColumnVault
