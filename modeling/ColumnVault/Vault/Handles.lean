import ColumnVault.Vault.Basic

/-! Several names for vaults. Names made from each other share one vault, so that closing it under
one name closes it under all. -/

namespace ColumnVault

/-- Vaults, and the names that stand for them. -/
structure Handles where
  vaults : List Vault
  names : List (String × Nat)

namespace Handles

def empty : Handles := ⟨[], []⟩

/-- Makes a name stand for the vault at a place. -/
def point (h : Handles) (name : String) (place : Nat) : Handles :=
  { h with names := (name, place) :: h.names }

/-- Makes a name stand for a vault of its own. -/
def bind (h : Handles) (name : String) (v : Vault) : Handles :=
  { h with vaults := h.vaults ++ [v] }.point name h.vaults.length

def place? (h : Handles) (name : String) : Option Nat :=
  h.names.lookup name

/-- The vault that a name stands for. -/
def get? (h : Handles) (name : String) : Option Vault := do
  h.vaults[← h.place? name]?

/-- Makes a second name stand for the vault of the first. -/
def clone? (h : Handles) (name other : String) : Option Handles := do
  let place ← h.place? name
  return h.point other place

/-- Closes the vault of a name. -/
def close? (h : Handles) (name : String) : Option Handles := do
  let place ← h.place? name
  return { h with vaults := h.vaults.modify place Vault.close }

end Handles

end ColumnVault
