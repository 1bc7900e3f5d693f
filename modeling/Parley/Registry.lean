import Parley.Event

namespace Parley

/--
Names one subscription, for good.
-/
structure Token where
  number : Nat
deriving DecidableEq, Repr, Inhabited

/--
The handlers of each kind of event, in the order of their subscription, and the number of the next
token.
-/
structure Registry (H : Type) where
  handlers : EventKind → List (Token × H)
  next : Nat

namespace Registry

variable {H : Type}

def empty : Registry H := ⟨fun _ => [], 0⟩

instance : Inhabited (Registry H) := ⟨empty⟩

def withHandlers (r : Registry H) (kind : EventKind) (handlers : List (Token × H)) : Registry H :=
  { r with handlers := fun k => if k = kind then handlers else r.handlers k }

def subscribe (r : Registry H) (kind : EventKind) (handler : H) : Token × Registry H :=
  let token : Token := ⟨r.next⟩
  (token, { r.withHandlers kind (r.handlers kind ++ [(token, handler)]) with next := r.next + 1 })

def holds (r : Registry H) (kind : EventKind) (token : Token) : Bool :=
  (r.handlers kind).any (·.1 = token)

def unsubscribe (r : Registry H) (token : Token) : Bool × Registry H :=
  match EventKind.all.find? (r.holds · token) with
  | some kind => (true, r.withHandlers kind ((r.handlers kind).eraseP (·.1 = token)))
  | none => (false, r)

/--
Takes all handlers out. The tokens go on counting.
-/
def clear (r : Registry H) : Registry H :=
  { r with handlers := fun _ => [] }

def size (r : Registry H) : Nat :=
  (EventKind.all.flatMap r.handlers).length

def isEmpty (r : Registry H) : Bool :=
  r.size = 0

end Registry

end Parley
