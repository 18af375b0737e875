import ContestPlatform.Service.Basic

/-!
# Stores

What answers the calls of the services: a clock, a source of identifiers, the database, and a
content store of any kind.
-/

namespace ContestPlatform

/-- A source of identifiers: those that were chosen beforehand, and then a count. -/
structure IdSource where
  chosen : List Uuid
  /-- The number of the next identifier that was not chosen. -/
  next : Nat
deriving DecidableEq, Inhabited

namespace IdSource

/-- The identifier of a number: a version 4 identifier that ends with it. -/
def numbered (n : Nat) : Uuid :=
  Uuid.ofNat (0x40008000000000000000 + n)

/-- A source that counts from one. -/
def initial : IdSource := ⟨[], 1⟩

/-- Choose the identifiers that come before the count goes on. -/
def choose (s : IdSource) (ids : List Uuid) : IdSource :=
  { s with chosen := s.chosen ++ ids }

/-- Draw an identifier. -/
def draw (s : IdSource) : Uuid × IdSource :=
  match s.chosen with
  | id :: rest => (id, { s with chosen := rest })
  | [] => (numbered s.next, { s with next := s.next + 1 })

end IdSource

/-- What the services use. -/
structure Stores (κ : Type) where
  /-- The present instant. -/
  now : Instant
  ids : IdSource
  database : Database
  content : κ

namespace Stores

variable {κ : Type} [ContentStore κ]

/-- Answer a call. -/
def answer : (call : Call) → Stores κ → call.Answer × Stores κ
  | .now, s => (s.now, s)
  | .freshId, s =>
    let (id, ids) := s.ids.draw
    (id, { s with ids })
  | .database call, s =>
    let (a, database) := s.database.answer call
    (a, { s with database })
  | .content call, s =>
    let (a, content) := ContentStore.answer s.content call
    (a, { s with content })

/-- Run a program on stores that nothing else uses. -/
def run {α : Type} (s : Stores κ) (p : StoreProgram α) : α × Stores κ :=
  p.run answer s

/-- Run a service operation on stores that nothing else uses. -/
def perform {α : Type} (s : Stores κ) (operation : Service α) : Except Fault α × Stores κ :=
  s.run operation.run

end Stores

end ContestPlatform
