import StyledText.Settings.Basic

/-!
# Cached settings

Settings are read once and kept. They can be read anew, which replaces what is kept if it succeeds,
and they can be read without being kept. Every reading that succeeds gets a number, so that kept
settings can be told from equal ones.
-/

namespace StyledText

namespace Settings

/-- Settings with the number of their reading. -/
structure Reading where
  serial : Nat
  settings : Settings
  deriving DecidableEq, Repr

/-- What is kept. -/
structure Cache where
  /-- the number of readings that have succeeded -/
  readings : Nat := 0
  /-- the reading that is kept -/
  kept : Option Reading := none
  deriving DecidableEq, Repr

namespace Cache

variable {env : Environment} {c : Cache}

/-- Reads the settings without keeping them. -/
def create (env : Environment) (c : Cache) : Except Problem Reading × Cache :=
  match read env with
  | .ok settings => (.ok ⟨c.readings + 1, settings⟩, { c with readings := c.readings + 1 })
  | .error p => (.error p, c)

/-- Reads the settings and keeps them. -/
def reload (env : Environment) (c : Cache) : Except Problem Reading × Cache :=
  match c.create env with
  | (.ok r, c) => (.ok r, { c with kept := some r })
  | (.error p, c) => (.error p, c)

/-- The settings that are kept, or those of now. -/
def get (env : Environment) (c : Cache) : Except Problem Reading × Cache :=
  match c.kept with
  | some r => (.ok r, c)
  | none => c.reload env

/-- Settings that cannot be read are not counted. -/
theorem create_of_error {p : Problem} (h : read env = .error p) : c.create env = (.error p, c) := by
  rw [create, h]

theorem create_of_ok {settings : Settings} (h : read env = .ok settings) :
    c.create env =
      (.ok ⟨c.readings + 1, settings⟩, { c with readings := c.readings + 1 }) := by
  rw [create, h]

/-- Settings that cannot be read replace nothing. -/
theorem reload_of_error {p : Problem} (h : read env = .error p) : c.reload env = (.error p, c) := by
  rw [reload, create_of_error h]

theorem reload_of_ok {settings : Settings} (h : read env = .ok settings) :
    c.reload env =
      (.ok ⟨c.readings + 1, settings⟩, ⟨c.readings + 1, some ⟨c.readings + 1, settings⟩⟩) := by
  rw [reload, create_of_ok h]

/-- Kept settings do not depend on the environment. -/
theorem get_of_kept {r : Reading} (h : c.kept = some r) : c.get env = (.ok r, c) := by
  rw [get, h]

theorem get_of_not_kept (h : c.kept = none) : c.get env = c.reload env := by
  rw [get, h]

end Cache

end Settings

end StyledText
