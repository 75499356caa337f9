/-
**Keys from a script.**

Main definition: `Chip8.ScriptedKeys`, a source of keys that answers each poll with the next batch
of a script, and with nothing once the script is over.
-/
import Chip8.Device

set_option relaxedAutoImplicit false
set_option autoImplicit false

namespace Chip8

/-- A source of keys that follows a script. -/
structure ScriptedKeys where
  /-- The answers to come. -/
  batches : List (Except IoFailure (List KeyEvent))
  polls : Nat

namespace ScriptedKeys

/-- The beginning of a script. -/
def new (batches : List (Except IoFailure (List KeyEvent))) : ScriptedKeys :=
  ⟨batches, 0⟩

/-- The next answer. -/
def poll (k : ScriptedKeys) : Polled ScriptedKeys :=
  match k.batches with
  | [] => ⟨.ok [], ⟨[], k.polls + 1⟩, []⟩
  | batch :: rest => ⟨batch, ⟨rest, k.polls + 1⟩, []⟩

instance : KeyDevice ScriptedKeys where
  poll := poll

end ScriptedKeys

end Chip8
