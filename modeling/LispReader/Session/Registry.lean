import LispReader.Session

/-!
# Handles on sessions

A session is shared by everyone who holds a handle on it. A registry numbers the handles in the
order in which they are given out and counts the holders of each session; what is done through one
handle is seen through every other handle on the same session, and the session itself goes away
with its last handle.
-/

namespace LispReader

/-- A session with the number of its live handles. -/
structure Shared where
  session : Session
  holders : Nat

/-- The sessions in use, by key, and the key behind every handle that is still live. Keys and
handles are numbered in the order in which they are given out. -/
structure Registry where
  sessions : List (Option Shared)
  handles : List (Option Nat)

namespace Registry

/-- The registry that knows no session. -/
def empty : Registry := ⟨[], []⟩

/-- The key behind a handle, unless it was released or never given out. -/
def key? (registry : Registry) (handle : Nat) : Option Nat := registry.handles[handle]?.join

/-- The shared session behind a handle. -/
def shared? (registry : Registry) (handle : Nat) : Option Shared := do
  let key ← registry.key? handle
  registry.sessions[key]?.join

/-- The session behind a handle. -/
def session? (registry : Registry) (handle : Nat) : Option Session :=
  (registry.shared? handle).map Shared.session

/-- The number of live handles on the session behind a handle. -/
def holders? (registry : Registry) (handle : Nat) : Option Nat :=
  (registry.shared? handle).map Shared.holders

/-- A handle on a new session. -/
def create (registry : Registry) (settings : Settings) : Nat × Registry :=
  (registry.handles.length, {
    sessions := registry.sessions ++ [some ⟨Session.create settings, 1⟩]
    handles := registry.handles ++ [some registry.sessions.length] })

/-- Another handle on the session behind a handle. -/
def acquire? (registry : Registry) (handle : Nat) : Option (Nat × Registry) := do
  let key ← registry.key? handle
  let shared ← registry.sessions[key]?.join
  return (registry.handles.length, {
    sessions := registry.sessions.set key (some { shared with holders := shared.holders + 1 })
    handles := registry.handles ++ [some key] })

/-- Gives a handle up. The session goes away with its last handle. -/
def release? (registry : Registry) (handle : Nat) : Option Registry := do
  let key ← registry.key? handle
  let shared ← registry.sessions[key]?.join
  let remaining := shared.holders - 1
  return {
    sessions := registry.sessions.set key
      (if remaining = 0 then none else some { shared with holders := remaining })
    handles := registry.handles.set handle none }

/-- Acts on the session behind a handle. Every handle on the same session sees the effect. -/
def through? {β : Type} (registry : Registry) (handle : Nat) (act : Session → β × Session) :
    Option (β × Registry) := do
  let key ← registry.key? handle
  let shared ← registry.sessions[key]?.join
  let (answer, session) := act shared.session
  return (answer, { registry with
    sessions := registry.sessions.set key (some { shared with session := session }) })

/-- The session behind a handle as a record with its number of holders. -/
def inspect? (registry : Registry) (handle : Nat) : Option String :=
  (registry.shared? handle).map fun shared => shared.session.inspect shared.holders

end Registry

end LispReader
